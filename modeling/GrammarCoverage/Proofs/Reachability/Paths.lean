import GrammarCoverage.Reachability.Scope
import Mathlib

/-!
# Paths through a grammar

Which elements an element leads to, which nodes are hidden by pruning, what is wrong with a node,
and which nodes a root reaches along a path without a hidden node. Nothing here mentions a
traversal; the last section ties these notions to what a traversal sees of an element.
-/

namespace GrammarCoverage

namespace RuleTable

lemma rule?_eq_some_iff {table : RuleTable} {name : String} {rule : Rule} :
    table.rule? name = some rule ↔ table.get? name = some (some rule) := by
  simp [rule?, Option.join_eq_some_iff]

lemma rule?_eq_none_iff {table : RuleTable} {name : String} :
    table.rule? name = none ↔ table.get? name = none ∨ table.get? name = some none := by
  simp [rule?, Option.join_eq_none_iff]

/-- An element leads to its children, or to every element of the rule that it refers to. -/
inductive Leads (table : RuleTable) : Element → Element → Prop where
  | group {id : Nat} {name : String} {repetition : Repetition} {es : List Element} {d : Element}
      (hd : d ∈ es) : Leads table (.group id name repetition es) d
  | choice {id : Nat} {name : String} {es : List Element} {d : Element} (hd : d ∈ es) :
      Leads table (.choice id name es) d
  | ruleRef {id : Nat} {name : String} {rule : Rule} {alternative : List Element} {d : Element}
      (hr : table.get? name = some (some rule)) (ha : alternative ∈ rule.alternatives)
      (hd : d ∈ alternative) : Leads table (.ruleRef id name) d

/-- What is wrong with a node, whatever stands around it. -/
inductive Faulty (table : RuleTable) : Element → ModelFault.Cause → Prop where
  /-- An object outside the model is no element. -/
  | foreign (id : Nat) (kind : String) (name : Option String) :
      Faulty table (.foreign id kind name) (.unexpectedElement kind)
  /-- A reference may name a rule without an entry. -/
  | missing (id : Nat) {name : String} (h : table.get? name = none) :
      Faulty table (.ruleRef id name) (.unknownRule name)
  /-- A reference may name an entry without a rule. -/
  | blank (id : Nat) {name : String} (h : table.get? name = some none) :
      Faulty table (.ruleRef id name) (.unknownRule name)

/-- A reference is faulty exactly if its name stands for no rule. -/
lemma exists_faulty_ruleRef_iff {table : RuleTable} {id : Nat} {name : String} :
    (∃ cause, table.Faulty (.ruleRef id name) cause) ↔ table.rule? name = none := by
  rw [rule?_eq_none_iff]
  constructor
  · rintro ⟨cause, _ | ⟨_, h⟩ | ⟨_, h⟩⟩
    · exact .inl h
    · exact .inr h
  · rintro (h | h)
    · exact ⟨_, .missing id h⟩
    · exact ⟨_, .blank id h⟩

lemma exists_rule {table : RuleTable} {id : Nat} {name : String}
    (h : ∀ cause, ¬ table.Faulty (.ruleRef id name) cause) :
    ∃ rule, table.get? name = some (some rule) := by
  cases hr : table.rule? name with
  | some rule => exact ⟨rule, rule?_eq_some_iff.mp hr⟩
  | none =>
    obtain ⟨cause, hf⟩ := exists_faulty_ruleRef_iff.mpr hr
    exact absurd hf (h cause)

/-- The scope of a table in which nothing is pruned. -/
def unpruned (table : RuleTable) : Scope := ⟨table, .empty⟩

end RuleTable

namespace Scope

variable {s : Scope} {root e d : Element}

/-- A node is hidden if it has a name that is not empty and that is pruned. -/
def Hides (s : Scope) (e : Element) : Prop :=
  ∃ name, e.name? = some name ∧ name ≠ "" ∧ name ∈ s.pruned

/-- A root reaches the nodes to which a path without a hidden node leads, both ends included. -/
inductive Reaches (s : Scope) (root : Element) : Element → Prop where
  | root (h : ¬ s.Hides root) : Reaches s root root
  | edge {e d : Element} (he : Reaches s root e) (hd : s.table.Leads e d) (h : ¬ s.Hides d) :
      Reaches s root d

/-! ### Paths -/

lemma Reaches.not_hides (h : s.Reaches root e) : ¬ s.Hides e := by
  cases h with
  | root h => exact h
  | edge _ _ h => exact h

lemma Reaches.trans (h : s.Reaches root e) (h' : s.Reaches e d) : s.Reaches root d := by
  induction h' with
  | root _ => exact h
  | edge _ hd hn ih => exact .edge ih hd hn

lemma Reaches.not_hides_root (h : s.Reaches root e) : ¬ s.Hides root := by
  induction h with
  | root h => exact h
  | edge _ _ _ ih => exact ih

lemma Reaches.head (hn : ¬ s.Hides root) (hd : s.table.Leads root d) (h : s.Reaches d e) :
    s.Reaches root e :=
  (Reaches.edge (.root hn) hd h.not_hides_root).trans h

/-- A reached node is the root, or is reached from an element that the root leads to. -/
lemma Reaches.cases_head (h : s.Reaches root e) :
    e = root ∨ ∃ d, s.table.Leads root d ∧ s.Reaches d e := by
  induction h with
  | root _ => exact .inl rfl
  | @edge e d _ hd hn ih =>
    rcases ih with rfl | ⟨c, hc, hce⟩
    · exact .inr ⟨d, hd, .root hn⟩
    · exact .inr ⟨c, hc, .edge hce hd hn⟩

/-- With fewer pruned names no less is reached. -/
lemma Reaches.mono {s' : Scope} (h : s.Reaches root e) (htable : s'.table = s.table)
    (hpruned : ∀ name ∈ s'.pruned, name ∈ s.pruned) : s'.Reaches root e := by
  have hhides {d : Element} (hd : ¬ s.Hides d) : ¬ s'.Hides d := by
    rintro ⟨name, hn, hne, hp⟩
    exact hd ⟨name, hn, hne, hpruned name hp⟩
  induction h with
  | root hn => exact .root (hhides hn)
  | edge _ hd hn ih => exact .edge ih (htable ▸ hd) (hhides hn)

lemma not_hides_unpruned {table : RuleTable} : ¬ table.unpruned.Hides e := by
  rintro ⟨name, _, _, hp⟩
  exact NameSet.not_mem_empty name hp

lemma Reaches.unpruned (h : s.Reaches root e) : s.table.unpruned.Reaches root e :=
  h.mono rfl fun name hn => absurd hn (NameSet.not_mem_empty name)

/-! ### What a traversal sees of an element -/

lemma prunes_iff : s.prunes e = true ↔ s.Hides e := by
  unfold prunes Hides
  cases e.name? with
  | none => simp
  | some name => simp

instance (s : Scope) (e : Element) : Decidable (s.Hides e) := decidable_of_iff _ prunes_iff

lemma opening_eq_fault_iff {cause : ModelFault.Cause} :
    s.opening e = .fault cause ↔ s.table.Faulty e cause := by
  constructor
  · intro h
    cases e with
    | foreign id kind name =>
      cases h
      exact .foreign id kind name
    | ruleRef id name =>
      rw [opening] at h
      cases hr : s.table.rule? name with
      | some rule => rw [hr] at h; cases h
      | none =>
        rw [hr] at h
        cases h
        rcases RuleTable.rule?_eq_none_iff.mp hr with hn | hn
        · exact .missing id hn
        · exact .blank id hn
    | _ => cases h
  · intro h
    cases h with
    | foreign id kind name => rfl
    | missing id hn => rw [opening, RuleTable.rule?_eq_none_iff.mpr (.inl hn)]
    | blank id hn => rw [opening, RuleTable.rule?_eq_none_iff.mpr (.inr hn)]

lemma leads_of_mem_successors (h : d ∈ s.successors e) : s.table.Leads e d := by
  cases e with
  | group id name repetition es => exact .group (List.mem_filter.mp h).1
  | choice id name es => exact .choice h
  | ruleRef id name =>
    rw [successors, opening] at h
    cases hr : s.table.rule? name with
    | none => rw [hr] at h; exact absurd h List.not_mem_nil
    | some rule =>
      rw [hr] at h
      obtain ⟨alternative, ha, hd⟩ := List.mem_flatten.mp h
      exact .ruleRef (RuleTable.rule?_eq_some_iff.mp hr) ha hd
  | _ => exact absurd h List.not_mem_nil

/-- A reference leads to all elements of its rule. -/
lemma successors_ruleRef {id : Nat} {name : String} {rule : Rule}
    (hr : s.table.get? name = some (some rule)) :
    s.successors (.ruleRef id name) = rule.elements := by
  rw [successors, opening, RuleTable.rule?_eq_some_iff.mpr hr]
  rfl

/-- Only the separators of a group are passed over. -/
lemma mem_successors_of_leads (h : s.table.Leads e d) :
    d ∈ s.successors e ∨ d.isSeparator = true := by
  cases h with
  | group hd =>
    cases hs : d.isSeparator with
    | true => exact .inr rfl
    | false => exact .inl (List.mem_filter.mpr ⟨hd, by simp [hs]⟩)
  | choice hd => exact .inl hd
  | ruleRef hr ha hd =>
    refine .inl ?_
    rw [successors_ruleRef hr]
    exact List.mem_flatten.mpr ⟨_, ha, hd⟩

/-- A separator leads nowhere. -/
lemma not_leads_of_isSeparator {table : RuleTable} (h : e.isSeparator = true) :
    ¬ table.Leads e d := by
  intro hd
  cases hd <;> exact absurd h (by simp [Element.isSeparator])

/-! ### The territory -/

/-- What a member of the territory leads to is in the territory, separators included. -/
lemma mem_territory_of_leads (he : e ∈ s.territory root) (hd : s.table.Leads e d) :
    d ∈ s.territory root := by
  cases hd with
  | group hd => exact mem_territory_of_mem_children he hd
  | choice hd => exact mem_territory_of_mem_children he hd
  | ruleRef hr ha hd =>
    apply mem_territory_of_mem_successors he
    rw [successors_ruleRef hr]
    exact List.mem_flatten.mpr ⟨_, ha, hd⟩

lemma Reaches.mem_territory (h : s.Reaches root e) : e ∈ s.territory root := by
  induction h with
  | root _ => exact s.mem_territory_root root
  | edge _ hd _ ih => exact mem_territory_of_leads ih hd

end Scope

end GrammarCoverage
