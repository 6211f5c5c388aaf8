import GrammarCoverage.Text.Quoted

/-!
# Faults of a grammar

What can be wrong with a grammar model, with the rule that was being expanded when the fault showed
and the labels of the elements on the way to it.
-/

namespace GrammarCoverage

/-- What is wrong with a grammar model. -/
inductive ModelFault.Cause where
  /-- An object outside the model stands where an element should. -/
  | unexpectedElement (kind : String)
  /-- A reference names a rule that the table does not hold. -/
  | unknownRule (referenced : String)
  /-- Two rules have one name. -/
  | duplicateRule (name : String)
  /-- Any other fault, in words. -/
  | other (text : String)
deriving DecidableEq

namespace ModelFault

/-- The text for an object of a kind outside the model. -/
def unexpectedElementText (kind : String) : String := "Unexpected type of element: " ++ kind

/-- The text for a rule that the table does not hold, given as messages show it. -/
def unknownRuleText (shown : String) : String := "Reference to undefined rule " ++ shown

/-- The text for a second rule of a name, given as messages show it. -/
def duplicateRuleText (shown : String) : String := "Rule " ++ shown ++ " is defined more than once"

/-- A text with the rule, given as messages show it, and the path. -/
def locatedText (text : String) (rule : Option String) (path : List String) : String :=
  let place := if path.isEmpty then [] else ["at " ++ " -> ".intercalate path]
  " ".intercalate (text :: (rule.map ("in rule " ++ ·)).toList ++ place)

end ModelFault

def ModelFault.Cause.message : ModelFault.Cause → String
  | .unexpectedElement kind => unexpectedElementText kind
  | .unknownRule referenced => unknownRuleText (Text.quoted referenced)
  | .duplicateRule name => duplicateRuleText (Text.quoted name)
  | .other text => text

/-- A fault of a grammar model. -/
structure ModelFault where
  cause : ModelFault.Cause
  /-- The rule that was being expanded, if any. -/
  ruleName : Option String := none
  /-- The labels of the elements from the start down to the faulty one. -/
  path : List String := []
deriving DecidableEq

/-- The text of a fault: its cause, its rule if it has one, its path if that is not empty. -/
def ModelFault.message (f : ModelFault) : String :=
  locatedText f.cause.message (f.ruleName.map Text.quoted) f.path

end GrammarCoverage
