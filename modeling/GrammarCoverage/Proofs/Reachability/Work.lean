import GrammarCoverage.Proofs.Reachability.Discovery

/-!
# The work of a traversal

Every element that is put on the stack is taken off by a turn of its own, and no node is opened
twice. So the turns that have been taken and the frames that wait are together one more than what
the opened nodes have put on the stack (`Traversal.Tally`). At the end nothing waits and the opened
nodes are the reached ones (`Traversal.Tally.sum_opened_eq`), which gives the number of turns
exactly.
-/

namespace GrammarCoverage

/-- The number of elements that an element puts on the stack when it is opened: the children of a
group without the separators, the choices of a choice, the elements of all alternatives of a
rule. -/
def RuleTable.fanOut (table : RuleTable) : Element → Nat
  | .group _ _ _ es => es.countP (!·.isSeparator)
  | .choice _ _ es => es.length
  | .ruleRef _ name =>
    match table.get? name with
    | some (some rule) => (rule.alternatives.map List.length).sum
    | some none | none => 0
  | .literal .. | .separator .. | .foreign .. => 0

namespace Scope

variable {s : Scope} {root e : Element}

lemma length_successors (s : Scope) (e : Element) :
    (s.successors e).length = s.table.fanOut e := by
  cases e with
  | group id name repetition es => exact List.countP_eq_length_filter.symm
  | ruleRef id name =>
    rw [RuleTable.fanOut]
    split
    · next rule hr => rw [successors_ruleRef hr, Rule.elements, List.length_flatten]
    · next hr =>
      rw [successors, opening, RuleTable.rule?_eq_none_iff.mpr (.inr hr)]
      rfl
    · next hr =>
      rw [successors, opening, RuleTable.rule?_eq_none_iff.mpr (.inl hr)]
      rfl
  | _ => rfl

lemma fanOut_of_isSeparator {table : RuleTable} (h : e.isSeparator = true) :
    table.fanOut e = 0 := by
  cases e with
  | separator id name => rfl
  | _ => cases h

lemma finite_reaches (s : Scope) (root : Element) : {e | s.Reaches root e}.Finite :=
  (s.territory root).finite_toSet.subset fun _ he => he.mem_territory

/-- The nodes that a root reaches, each of them once. -/
noncomputable def reached (s : Scope) (root : Element) : Finset Element :=
  (s.finite_reaches root).toFinset

lemma mem_reached : e ∈ s.reached root ↔ s.Reaches root e :=
  (s.finite_reaches root).mem_toFinset

end Scope

namespace Traversal

variable {s : Scope} {root : Element} {t t' : Traversal} {f : Frame} {rest : List Frame} {n : Nat}

/-- So many turns lead from one state to another. -/
inductive TurnsIn (s : Scope) (t : Traversal) : Nat → Traversal → Prop where
  | refl : TurnsIn s t 0 t
  | tail {n : Nat} {t' t'' : Traversal} (h : TurnsIn s t n t') (hs : t'.step s = .next t'') :
      TurnsIn s t (n + 1) t''

lemma TurnsIn.turns (h : TurnsIn s t n t') : Turns s t t' := by
  induction h with
  | refl => exact .refl
  | tail _ hs ih => exact ih.tail hs

lemma Turns.exists_turnsIn (h : Turns s t t') : ∃ n, TurnsIn s t n t' := by
  induction h with
  | refl => exact ⟨0, .refl⟩
  | tail _ hs ih =>
    obtain ⟨n, hn⟩ := ih
    exact ⟨n + 1, hn.tail hs⟩

/-- The nodes that have been opened, in order. -/
def opened (t : Traversal) : List Element := t.trail.toList.map TrailEntry.element

@[simp]
lemma opened_enter : (t.enter f rest).opened = t.opened ++ [f.element] := by
  simp [opened, enter]

@[simp]
lemma opened_expand : (t.expand s f rest).opened = t.opened ++ [f.element] := by
  simp [opened, expand]

/-! ### The balance of a run -/

/-- What holds of a traversal after `n` turns. -/
structure Tally (s : Scope) (n : Nat) (t : Traversal) : Prop where
  /-- All that was put on the stack has been taken off by a turn, or waits. -/
  balance : n + t.stack.length = 1 + (t.opened.map s.table.fanOut).sum
  nodup : t.opened.Nodup
  mem_opened : ∀ e, e ∈ t.opened ↔ e ∈ t.visited ∧ ¬ s.Hides e

lemma tally_start (s : Scope) (root : Element) : Tally s 0 (start root) where
  balance := rfl
  nodup := List.nodup_nil
  mem_opened e := by simp [start, opened]

/-- A node that is met for the first time has not been opened before. -/
lemma Tally.nodup_append (h : Tally s n t) (hv : f.element ∉ t.visited) :
    (t.opened ++ [f.element]).Nodup := by
  rw [← List.concat_eq_append]
  exact h.nodup.concat fun he => hv ((h.mem_opened f.element).mp he).1

lemma Tally.skip (h : Tally s n t) (hst : t.stack = f :: rest) :
    Tally s (n + 1) { t with stack := rest } where
  balance := by
    have hbalance := h.balance
    rw [hst, List.length_cons] at hbalance
    show n + 1 + rest.length = 1 + (t.opened.map s.table.fanOut).sum
    omega
  nodup := h.nodup
  mem_opened := h.mem_opened

/-- A hidden node counts as met but not as opened. -/
lemma Tally.prune (h : Tally s n t) (hst : t.stack = f :: rest) (hp : s.Hides f.element) :
    Tally s (n + 1) { t with stack := rest, visited := f.element :: t.visited } where
  balance := (h.skip hst).balance
  nodup := h.nodup
  mem_opened e := by
    show e ∈ t.opened ↔ e ∈ f.element :: t.visited ∧ ¬ s.Hides e
    rw [h.mem_opened, List.mem_cons]
    constructor
    · rintro ⟨he, hn⟩
      exact ⟨.inr he, hn⟩
    · rintro ⟨rfl | he, hn⟩
      · exact absurd hp hn
      · exact ⟨he, hn⟩

/-- A node is opened once, and then accounts for what it puts on the stack. -/
lemma Tally.expand (h : Tally s n t) (hst : t.stack = f :: rest) (hv : f.element ∉ t.visited)
    (hp : ¬ s.Hides f.element) : Tally s (n + 1) (t.expand s f rest) where
  balance := by
    have hbalance := h.balance
    have hpushed : (t.expand s f rest).stack.length = s.table.fanOut f.element + rest.length := by
      simp [Traversal.expand, Scope.length_successors]
    rw [hst, List.length_cons] at hbalance
    rw [hpushed, opened_expand, List.map_append, List.sum_append, List.map_singleton,
      List.sum_singleton]
    omega
  nodup := by
    rw [opened_expand]
    exact h.nodup_append hv
  mem_opened e := by
    show e ∈ (t.expand s f rest).opened ↔ e ∈ f.element :: t.visited ∧ ¬ s.Hides e
    rw [opened_expand, List.mem_append, List.mem_singleton, List.mem_cons, h.mem_opened]
    constructor
    · rintro (⟨he, hn⟩ | rfl)
      · exact ⟨.inr he, hn⟩
      · exact ⟨.inl rfl, hp⟩
    · rintro ⟨rfl | he, hn⟩
      · exact .inr rfl
      · exact .inl ⟨he, hn⟩

lemma Tally.of_step (h : Tally s n t) (hs : t.step s = .next t') : Tally s (n + 1) t' := by
  cases move_of_step_eq hs with
  | skip hst _ => exact h.skip hst
  | prune hst _ hp => exact h.prune hst hp
  | expand hst hv hp _ => exact h.expand hst hv hp

lemma TurnsIn.tally (h : TurnsIn s (start root) n t) : Tally s n t := by
  induction h with
  | refl => exact tally_start s root
  | tail _ hs ih => exact ih.of_step hs

/-! ### The number of turns -/

/-- The opened nodes are among the reached ones. -/
lemma Tally.opened_subset (h : Tally s n t) (hi : t.Invariant s root) :
    t.opened.toFinset ⊆ s.reached root := by
  intro e he
  obtain ⟨hv, hn⟩ := (h.mem_opened e).mp (List.mem_toFinset.mp he)
  exact Scope.mem_reached.mpr (hi.reached e hv hn)

lemma Tally.sum_opened_le (h : Tally s n t) (hi : t.Invariant s root) :
    (t.opened.map s.table.fanOut).sum ≤ ∑ e ∈ s.reached root, s.table.fanOut e := by
  rw [← List.sum_toFinset _ h.nodup]
  exact Finset.sum_le_sum_of_subset (h.opened_subset hi)

/-- With an empty stack every reached node has been opened, separators of groups apart, and these
put nothing on the stack. -/
lemma Tally.sum_opened_eq (h : Tally s n t) (hi : t.Invariant s root) (hst : t.stack = []) :
    (t.opened.map s.table.fanOut).sum = ∑ e ∈ s.reached root, s.table.fanOut e := by
  rw [← List.sum_toFinset _ h.nodup]
  apply Finset.sum_subset (h.opened_subset hi)
  intro e he hopened
  have he := Scope.mem_reached.mp he
  rcases hi.mem_visited hst he with hv | hsep
  · exact absurd (List.mem_toFinset.mpr ((h.mem_opened e).mpr ⟨hv, he.not_hides⟩)) hopened
  · exact Scope.fanOut_of_isSeparator hsep

end Traversal

namespace Scope

open Traversal

/-- **A traversal ends, however the rules refer to each other, and opens no node twice.** On success
its turns are one more than what the reached nodes put on the stack, each node counted once; if
there is a fault, the turn that meets it is not later than that. -/
theorem discover_work (s : Scope) (root : Element) :
    (∀ n t, TurnsIn s (start root) n t →
      n ≤ 1 + ∑ e ∈ s.reached root, s.table.fanOut e ∧ t.opened.Nodup ∧
      ∀ f rest, t.stack = f :: rest → f.element ∉ t.visited → (t.enter f rest).opened.Nodup) ∧
    ∃ n t, TurnsIn s (start root) n t ∧
      ((t.step s = .finished ∧ s.discover root = .ok t.found ∧
          n = 1 + ∑ e ∈ s.reached root, s.table.fanOut e) ∨
        ∃ fault, t.step s = .fault fault ∧ s.discover root = .error fault ∧
          n + 1 ≤ 1 + ∑ e ∈ s.reached root, s.table.fanOut e) := by
  refine ⟨fun n t ht => ?_, ?_⟩
  · have hle := ht.tally.sum_opened_le ht.turns.invariant
    have hbalance := ht.tally.balance
    refine ⟨by omega, ht.tally.nodup, fun f rest _ hv => ?_⟩
    rw [opened_enter]
    exact ht.tally.nodup_append hv
  · obtain ⟨t, hturns, hend⟩ := exists_turns_run (inside_start s root)
    obtain ⟨n, ht⟩ := hturns.exists_turnsIn
    have hbalance := ht.tally.balance
    refine ⟨n, t, ht, ?_⟩
    rcases hend with hs | ⟨fault, hs⟩
    · have hst := stack_eq_nil_of_finished hs
      have heq := ht.tally.sum_opened_eq hturns.invariant hst
      rw [hst, List.length_nil] at hbalance
      exact .inl ⟨hs, discover_eq_ok_iff.mpr ⟨t, hturns, hs, rfl⟩, by omega⟩
    · have hle := ht.tally.sum_opened_le hturns.invariant
      obtain ⟨f, hf, _⟩ := hturns.invariant.of_fault hs
      have hpos := List.length_pos_of_mem hf
      exact .inr ⟨fault, hs, discover_eq_error_iff.mpr ⟨t, hturns, hs⟩, by omega⟩

end Scope

end GrammarCoverage
