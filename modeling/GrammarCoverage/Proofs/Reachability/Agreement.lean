import GrammarCoverage.Proofs.Reachability.Discovery

/-!
# Traversals that see the same

A turn of the loop looks at one node only: whether it is hidden, and what it opens to. So a scope in
which the nodes that a traversal meets are hidden as before, and the references that it reaches
stand for the same rules, concurs with the traversal (`Scope.Concurs`), whatever else it holds. The
loop then takes the same turns in both scopes, up to the same end (`Scope.Concurs.traverse_eq`).
-/

namespace GrammarCoverage

open Traversal

namespace Scope

/-- A traversal meets a node if its loop takes a frame of that node off the stack. -/
def Meets (s : Scope) (root e : Element) : Prop :=
  ∃ t f rest, Turns s (start root) t ∧ t.stack = f :: rest ∧ f.element = e

/-- Another scope concurs with the traversal from a root: each reference that is reached stands for
the same rule, and of the names of the nodes that are met the same are pruned. -/
structure Concurs (s s' : Scope) (root : Element) : Prop where
  rules : ∀ id name, s.Reaches root (.ruleRef id name) → s'.table.rule? name = s.table.rule? name
  pruned : ∀ e name, s.Meets root e → e.name? = some name → name ≠ "" →
    (name ∈ s'.pruned ↔ name ∈ s.pruned)

variable {s s' : Scope} {root e : Element} {t : Traversal}

/-- A node that is met is hidden or reached. -/
lemma Meets.reaches (h : s.Meets root e) (hp : ¬ s.Hides e) : s.Reaches root e := by
  obtain ⟨t, f, rest, ht, hst, rfl⟩ := h
  exact ht.invariant.reaches (hst ▸ List.mem_cons_self) hp

lemma Meets.mem_territory (h : s.Meets root e) : e ∈ s.territory root := by
  obtain ⟨t, f, rest, ht, hst, rfl⟩ := h
  exact ht.inside (inside_start s root) f (hst ▸ List.mem_cons_self)

lemma Concurs.prunes_eq (h : s.Concurs s' root) (he : s.Meets root e) :
    s'.prunes e = s.prunes e := by
  apply Bool.eq_iff_iff.mpr
  rw [prunes_iff, prunes_iff]
  constructor
  · rintro ⟨name, hn, hne, hp⟩
    exact ⟨name, hn, hne, (h.pruned e name he hn hne).mp hp⟩
  · rintro ⟨name, hn, hne, hp⟩
    exact ⟨name, hn, hne, (h.pruned e name he hn hne).mpr hp⟩

lemma Concurs.opening_eq (h : s.Concurs s' root) (he : s.Reaches root e) :
    s'.opening e = s.opening e := by
  cases e with
  | ruleRef id name => rw [opening, opening, h.rules id name he]
  | _ => rfl

/-- In a scope that concurs the loop takes the same turn. -/
lemma Concurs.step_eq (h : s.Concurs s' root) (ht : Turns s (start root) t) :
    t.step s' = t.step s := by
  cases hst : t.stack with
  | nil => simp only [step, hst]
  | cons f rest =>
    have hmeets : s.Meets root f.element := ⟨t, f, rest, ht, hst, rfl⟩
    simp only [step, hst, h.prunes_eq hmeets]
    split
    · rfl
    split
    · rfl
    · next hp => rw [h.opening_eq (hmeets.reaches fun hh => hp (prunes_iff.mpr hh))]

lemma Concurs.turns (h : s.Concurs s' root) (ht : Turns s (start root) t) :
    Turns s' (start root) t := by
  induction ht with
  | refl => exact .refl
  | tail ht hs ih => exact ih.tail ((h.step_eq ht).trans hs)

/-- In a scope that concurs a traversal comes to the same end. -/
lemma Concurs.traverse_eq (h : s.Concurs s' root) : s'.traverse root = s.traverse root := by
  cases ht : s.traverse root with
  | ok t =>
    obtain ⟨hturns, hs⟩ := traverse_eq_ok_iff.mp ht
    exact traverse_eq_ok_iff.mpr ⟨h.turns hturns, (h.step_eq hturns).trans hs⟩
  | error f =>
    obtain ⟨t, hturns, hs⟩ := traverse_eq_error_iff.mp ht
    exact traverse_eq_error_iff.mpr ⟨t, h.turns hturns, (h.step_eq hturns).trans hs⟩

/-- In a scope that concurs a discovery finds the same names, or reports the same fault. -/
theorem Concurs.discover_eq (h : s.Concurs s' root) : s'.discover root = s.discover root := by
  rw [discover, discover, h.traverse_eq]

end Scope

end GrammarCoverage
