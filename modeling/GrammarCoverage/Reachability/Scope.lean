import GrammarCoverage.Grammar.Rule
import GrammarCoverage.NameSet

/-!
# Scopes

A scope is what a traversal of a grammar may look at: the rule table, and the names that are pruned.
An element whose name is pruned is never entered; entering any other element opens it, which yields
a literal, nothing, further elements, or a fault. All elements that a traversal can meet stand in
the finite territory of its root.
-/

namespace GrammarCoverage

/-- The rule table and the pruned names under which a grammar is traversed. -/
structure Scope where
  table : RuleTable
  pruned : NameSet

/-- What an element yields when a traversal enters it. -/
inductive Opening where
  /-- A literal of that name. -/
  | literal (name : String)
  /-- Nothing. -/
  | nothing
  /-- Elements of the rule that is being expanded already. -/
  | inside (elements : List Element)
  /-- The elements of a rule. -/
  | rule (r : Rule)
  /-- A fault of the model. -/
  | fault (cause : ModelFault.Cause)

/-- The elements that an opening leads to, in order. -/
def Opening.elements : Opening → List Element
  | .inside es => es
  | .rule r => r.elements
  | .literal _ | .nothing | .fault _ => []

namespace Scope

/-- Is an element pruned? Only a name that is not empty can prune. -/
def prunes (s : Scope) (e : Element) : Bool :=
  match e.name? with
  | some name => !name.isEmpty && decide (name ∈ s.pruned)
  | none => false

/-- Open an element. The separators of a group are passed over. -/
def opening (s : Scope) : Element → Opening
  | .literal _ name => .literal name
  | .separator .. => .nothing
  | .choice _ _ es => .inside es
  | .group _ _ _ es => .inside (es.filter (!·.isSeparator))
  | .ruleRef _ name =>
    match s.table.rule? name with
    | some r => .rule r
    | none => .fault (.unknownRule name)
  | .foreign _ kind _ => .fault (.unexpectedElement kind)

/-- The elements that an element leads to. -/
def successors (s : Scope) (e : Element) : List Element := (s.opening e).elements

/-- All elements that stand inside a root or in a rule of the table. -/
def territory (s : Scope) (root : Element) : List Element :=
  root.parts ++ Element.partsAll (s.table.rules.flatMap Rule.elements)

theorem mem_territory_root (s : Scope) (root : Element) : root ∈ s.territory root :=
  List.mem_append_left _ root.mem_parts_self

/-- The children of a member of the territory are in the territory. -/
theorem mem_territory_of_mem_children {s : Scope} {root e d : Element}
    (he : e ∈ s.territory root) (hd : d ∈ e.children) : d ∈ s.territory root := by
  have hp := Element.mem_parts_of_mem_children hd
  rcases List.mem_append.1 he with he | he
  · exact List.mem_append_left _ (Element.parts_subset_of_mem root he hp)
  · exact List.mem_append_right _ (Element.partsAll_subset_of_mem _ he hp)

/-- What a member of the territory leads to is in the territory. -/
theorem mem_territory_of_mem_successors {s : Scope} {root e d : Element}
    (he : e ∈ s.territory root) (hd : d ∈ s.successors e) : d ∈ s.territory root := by
  cases e with
  | choice i n es => exact mem_territory_of_mem_children he hd
  | group i n r es => exact mem_territory_of_mem_children he (List.mem_filter.1 hd).1
  | ruleRef i n =>
    rw [successors, opening] at hd
    cases hr : s.table.rule? n with
    | some r =>
      rw [hr] at hd
      refine List.mem_append_right _ (Element.mem_partsAll.2 ⟨d, ?_, d.mem_parts_self⟩)
      exact List.mem_flatMap.2 ⟨r, RuleTable.mem_rules_of_rule? hr, hd⟩
    | none => rw [hr] at hd; exact absurd hd List.not_mem_nil
  | _ => exact absurd hd List.not_mem_nil

end Scope

end GrammarCoverage
