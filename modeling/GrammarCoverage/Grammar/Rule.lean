import GrammarCoverage.Grammar.Element
import GrammarCoverage.Grammar.Fault
import GrammarCoverage.OrderedMap

/-!
# Rules and rule tables

A rule has a name and alternatives, each a sequence of elements. A table finds rules by name; it may
hold an entry without a rule, and a key need not be the name of its rule. Indexing a list of rules
gives every rule its own name as key and refuses a name that occurs twice.
-/

namespace GrammarCoverage

/-- A named rule of a grammar. -/
structure Rule where
  name : String
  /-- The ways to derive the rule, in order of declaration. -/
  alternatives : List (List Element)

namespace Rule

/-- Every element of every alternative, in order. -/
def elements (r : Rule) : List Element := r.alternatives.flatten

def describe (r : Rule) : String :=
  "Rule(" ++ Text.quoted r.name ++ ", " ++ toString r.alternatives.length ++ " alternatives)"

end Rule

/-- A table of rules. An entry without a rule counts as a missing one. -/
abbrev RuleTable := OrderedMap String (Option Rule)

namespace RuleTable

/-- The rule that a reference to a name stands for. -/
def rule? (t : RuleTable) (name : String) : Option Rule := (t.get? name).join

/-- Add rules to a table, each under its own name. -/
def addRules (t : RuleTable) : List Rule → Except ModelFault RuleTable
  | [] => .ok t
  | r :: rest =>
    if t.contains r.name then .error { cause := .duplicateRule r.name }
    else addRules (t.insert r.name (some r)) rest

def ofRules (rules : List Rule) : Except ModelFault RuleTable := addRules .empty rules

def rules (t : RuleTable) : List Rule := t.entries.filterMap Prod.snd

/-- A look-up finds only rules that the table holds. -/
theorem mem_rules_of_rule? {t : RuleTable} {name : String} {r : Rule} (h : t.rule? name = some r) :
    r ∈ t.rules := by
  unfold rule? OrderedMap.get? at h
  cases hf : t.entries.find? (·.1 = name) with
  | none => simp [hf] at h
  | some e =>
    simp only [hf, Option.map_some, Option.join_some] at h
    exact List.mem_filterMap.2 ⟨e, List.mem_of_find?_eq_some hf, h⟩

end RuleTable

end GrammarCoverage
