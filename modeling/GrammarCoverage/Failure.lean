import GrammarCoverage.Strategy.Registry

/-!
# Failures

The classes of failures that a caller can make from arguments of his own, and the families that he
can tell them by. A failure may belong to several families: an invalid setting is both a failure of
the library and a bad value. Names may be any values; they are shown as values are.
-/

namespace GrammarCoverage

inductive Family where
  /-- Failures that belong to the library. -/
  | library
  /-- Faults of a grammar model. -/
  | model
  /-- Invalid settings. -/
  | settings
  /-- Bad values of any kind. -/
  | value
  /-- Look-ups that found nothing. -/
  | lookup
deriving DecidableEq

inductive FailureClass where
  /-- Failures without a kind of their own. -/
  | general
  | settings
  /-- Faults of a grammar model without a kind of their own. -/
  | model
  | unexpectedElement
  | unknownRule
  | duplicateRule
  | strategyNotFound
  | strategyTaken
  | strategyRefused
deriving DecidableEq

namespace FailureClass

/-- The families of the failures of a class. -/
def families : FailureClass → List Family
  | .general => [.library]
  | .settings | .strategyRefused => [.library, .settings, .value]
  | .model | .unexpectedElement | .unknownRule | .duplicateRule => [.library, .model]
  | .strategyNotFound => [.lookup]
  | .strategyTaken => [.value]

/-- The names of the arguments of a class with their defaults; without names any number of arguments
will do. -/
def parameters? : FailureClass → Option (List (String × Option Value))
  | .general | .settings => none
  | .model => some (("message", none) :: place)
  | .unexpectedElement => some (("element", none) :: place)
  | .unknownRule => some (("referenced", none) :: place)
  | .duplicateRule | .strategyTaken => some [("name", none)]
  | .strategyNotFound => some [("name", none), ("available", none)]
  | .strategyRefused => some [("name", none), ("reason", none)]
where
  place := [("rule_name", some .null), ("path", some (.tuple []))]

end FailureClass

/-- A failure with what it can be asked for. -/
structure Failure where
  failureClass : FailureClass
  message : String
  fields : List (String × Value)

namespace Failure

/-! ### Arguments -/

/-- The values of parameters, from arguments in order and then by name. Each parameter has to get
one value, and each argument has to go somewhere. -/
def arguments? :
    List (String × Option Value) → List Value → List (String × Value) → Option (List Value)
  | [], [], [] => some []
  | [], _, _ => none
  | (name, _) :: rest, v :: args, named =>
    if named.any (·.1 = name) then none else (arguments? rest args named).map (v :: ·)
  | (name, default?) :: rest, [], named =>
    match (named.find? (·.1 = name)).map Prod.snd <|> default? with
    | some v => (arguments? rest [] (named.filter (·.1 ≠ name))).map (v :: ·)
    | none => none

/-- The items of a value: those of a list, the characters of a text, the keys of a mapping. -/
def items? : Value → Option (List Value)
  | .list items | .tuple items | .set items => some items
  | .text s => some (s.toList.map fun c => .text c.toString)
  | .bytes content => some (content.map fun b => .int b.toNat)
  | .mapping entries => some (entries.map Prod.fst)
  | _ => none

/-- A value that has to be a text. -/
def text? : Value → Option String
  | .text s => some s
  | _ => none

/-- The items of a value, which have to be texts. -/
def texts? (v : Value) : Option (List String) := do (← items? v).mapM text?

/-! ### Making failures -/

/-- A text with its place in a grammar, and the fields of the place. -/
def located? (text : String) (rule path : Value) : Option (String × List (String × Value)) := do
  let shownRule := match rule with
    | .null => none
    | rule => some rule.display
  let labels ← texts? path
  return (ModelFault.locatedText text shownRule labels,
    [("rule_name", rule), ("path", .list (← items? path))])

/-- The failure of a class with arguments in the order of its parameters, if they fit. -/
def ofArguments? (c : FailureClass) (args : List Value) : Option Failure :=
  match c, args with
  | .general, args | .settings, args =>
    let message := match args with
      | [] => ""
      | [v] => v.plain
      | args => (Value.tuple args).display
    some ⟨c, message, []⟩
  | .model, [message, rule, path] => do
    let (text, fields) ← located? (← text? message) rule path
    return ⟨c, text, fields⟩
  | .unexpectedElement, [element, rule, path] => do
    let kind := element.typeName
    let (text, fields) ← located? (ModelFault.unexpectedElementText kind) rule path
    return ⟨c, text, ("kind", .text kind) :: fields⟩
  | .unknownRule, [name, rule, path] => do
    let (text, fields) ← located? (ModelFault.unknownRuleText name.display) rule path
    return ⟨c, text, ("referenced", name) :: fields⟩
  | .duplicateRule, [name] => do
    let (text, fields) ← located? (ModelFault.duplicateRuleText name.display) .null (.tuple [])
    return ⟨c, text, ("name", name) :: fields⟩
  | .strategyNotFound, [name, available] => do
    let text := RegistryError.notFoundText name.display (← texts? available)
    return ⟨c, text, [("strategy_name", name), ("available", available)]⟩
  | .strategyTaken, [name] =>
    some ⟨c, RegistryError.takenText name.display, [("strategy_name", name)]⟩
  | .strategyRefused, [name, reason] =>
    some ⟨c, RegistryError.refusedText name.display reason.plain, [("strategy_name", name)]⟩
  | _, _ => none

/-- The failure of a class with arguments in order and by name, if they fit. -/
def make? (c : FailureClass) (args : List Value) (named : List (String × Value)) :
    Option Failure :=
  match c.parameters? with
  | none => if named.isEmpty then ofArguments? c args else none
  | some parameters => (arguments? parameters args named).bind (ofArguments? c)

end Failure

end GrammarCoverage
