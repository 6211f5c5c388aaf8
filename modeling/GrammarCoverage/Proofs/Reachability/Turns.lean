import GrammarCoverage.Proofs.Reachability.Paths
import GrammarCoverage.Reachability.Traversal

/-!
# Turns of a traversal

What one turn of the loop does, as a relation with one rule for each way in which a turn can go
(`Traversal.Move`), and what a run comes to in terms of turns (`Scope.traverse_eq_ok_iff`,
`Scope.traverse_eq_error_iff`).
-/

namespace GrammarCoverage

/-- The name of a literal. -/
def Element.literalName? : Element → Option String
  | .literal _ name => some name
  | _ => none

/-- The rule in which the elements stand that an element leads to. -/
def Scope.ruleInside (s : Scope) (outer : Option String) (e : Element) : Option String :=
  match s.opening e with
  | .rule r => some r.name
  | _ => outer

namespace Traversal

/-- The state after a frame's node has been opened: what it leads to comes next. -/
def expand (s : Scope) (t : Traversal) (f : Frame) (rest : List Frame) : Traversal where
  stack := (s.successors f.element).map
    (⟨·, s.ruleInside f.ruleName f.element, some t.trail.size⟩) ++ rest
  visited := f.element :: t.visited
  trail := t.trail.push ⟨f.element, f.parent⟩
  found := f.element.literalName?.elim t.found t.found.insert

/-- The fault that a frame with a faulty node ends the loop with. -/
def faultAt (t : Traversal) (f : Frame) (cause : ModelFault.Cause) : ModelFault :=
  ⟨cause, f.ruleName, path (t.trail.push ⟨f.element, f.parent⟩) t.trail.size⟩

/-- The ways in which a turn can go. -/
inductive Move (s : Scope) : Traversal → Turn → Prop where
  | finish {t : Traversal} (hs : t.stack = []) : Move s t .finished
  | skip {t : Traversal} {f : Frame} {rest : List Frame} (hs : t.stack = f :: rest)
      (hv : f.element ∈ t.visited) : Move s t (.next { t with stack := rest })
  | prune {t : Traversal} {f : Frame} {rest : List Frame} (hs : t.stack = f :: rest)
      (hv : f.element ∉ t.visited) (hp : s.Hides f.element) :
      Move s t (.next { t with stack := rest, visited := f.element :: t.visited })
  | expand {t : Traversal} {f : Frame} {rest : List Frame} (hs : t.stack = f :: rest)
      (hv : f.element ∉ t.visited) (hp : ¬ s.Hides f.element)
      (hf : ∀ cause, ¬ s.table.Faulty f.element cause) : Move s t (.next (t.expand s f rest))
  | fault {t : Traversal} {f : Frame} {rest : List Frame} {cause : ModelFault.Cause}
      (hs : t.stack = f :: rest) (hv : f.element ∉ t.visited) (hp : ¬ s.Hides f.element)
      (hf : s.table.Faulty f.element cause) : Move s t (.fault (t.faultAt f cause))

variable {s : Scope} {root : Element} {t t' : Traversal}

/-- A node that is opened without a fault puts what it leads to on the stack. -/
lemma step_eq_expand {f : Frame} {rest : List Frame} (hs : t.stack = f :: rest)
    (hv : f.element ∉ t.visited) (hp : ¬ s.Hides f.element)
    (hf : ∀ cause, ¬ s.table.Faulty f.element cause) :
    t.step s = .next (t.expand s f rest) := by
  have hp' : ¬ s.prunes f.element = true := fun h => hp (Scope.prunes_iff.mp h)
  have ho : ∀ cause, s.opening f.element ≠ .fault cause :=
    fun cause h => hf cause (Scope.opening_eq_fault_iff.mp h)
  simp only [step, hs, if_neg hv, if_neg hp']
  obtain ⟨e, outer, parent⟩ := f
  cases e with
  | foreign id kind name => exact absurd rfl (ho _)
  | ruleRef id name =>
    simp only [expand, Scope.successors, Scope.ruleInside]
    cases hr : s.opening (.ruleRef id name) with
    | rule r => rfl
    | fault cause => exact absurd hr (ho cause)
    | literal | nothing | inside =>
      -- a reference opens to a rule or to a fault
      rw [Scope.opening] at hr
      split at hr <;> cases hr
  | _ => rfl

lemma Move.step_eq {turn : Turn} (h : Move s t turn) : t.step s = turn := by
  cases h with
  | finish hs => simp only [step, hs]
  | skip hs hv => simp only [step, hs, if_pos hv]
  | prune hs hv hp => simp only [step, hs, if_neg hv, if_pos (Scope.prunes_iff.mpr hp)]
  | expand hs hv hp hf => exact step_eq_expand hs hv hp hf
  | fault hs hv hp hf =>
    have hp' := fun h => hp (Scope.prunes_iff.mp h)
    simp only [step, hs, if_neg hv, if_neg hp', Scope.opening_eq_fault_iff.mpr hf]
    rfl

/-- Every turn goes in one of the ways. -/
lemma Move.of_step (s : Scope) (t : Traversal) : Move s t (t.step s) := by
  suffices h : ∃ turn, Move s t turn by
    obtain ⟨turn, h⟩ := h
    exact h.step_eq ▸ h
  cases hs : t.stack with
  | nil => exact ⟨_, .finish hs⟩
  | cons f rest =>
    by_cases hv : f.element ∈ t.visited
    · exact ⟨_, .skip hs hv⟩
    by_cases hp : s.Hides f.element
    · exact ⟨_, .prune hs hv hp⟩
    by_cases hf : ∃ cause, s.table.Faulty f.element cause
    · obtain ⟨cause, hf⟩ := hf
      exact ⟨_, .fault hs hv hp hf⟩
    · exact ⟨_, .expand hs hv hp fun cause h => hf ⟨cause, h⟩⟩

lemma move_of_step_eq {turn : Turn} (h : t.step s = turn) : Move s t turn :=
  h ▸ Move.of_step s t

/-! ### Runs -/

/-- A number of turns lead from one state to another. -/
def Turns (s : Scope) : Traversal → Traversal → Prop :=
  Relation.ReflTransGen fun t t' => t.step s = .next t'

namespace Turns

lemma refl : Turns s t t := Relation.ReflTransGen.refl

lemma head {t'' : Traversal} (h : t.step s = .next t') (h' : Turns s t' t'') : Turns s t t'' :=
  Relation.ReflTransGen.head h h'

lemma trans {t'' : Traversal} (h : Turns s t t') (h' : Turns s t' t'') : Turns s t t'' :=
  Relation.ReflTransGen.trans h h'

/-- What a turn keeps, a number of turns keep. -/
lemma keep {P : Traversal → Prop} (h : Turns s t t') (ht : P t)
    (step : ∀ {t t'}, P t → t.step s = .next t' → P t') : P t' := by
  induction h with
  | refl => exact ht
  | tail _ hs ih => exact step ih hs

lemma inside (h : Turns s t t') (ht : t.Inside s root) : t'.Inside s root :=
  h.keep ht inside_of_step

end Turns

lemma run_of_finished (h : t.Inside s root) (hs : t.step s = .finished) :
    t.run s root h = .ok t := by
  rw [run]
  split
  · rfl
  · next hf => rw [hs] at hf; cases hf
  · next hn => rw [hs] at hn; cases hn

lemma run_of_fault {f : ModelFault} (h : t.Inside s root) (hs : t.step s = .fault f) :
    t.run s root h = .error f := by
  rw [run]
  split
  · next hf => rw [hs] at hf; cases hf
  · next hf => rw [hs] at hf; cases hf; rfl
  · next hn => rw [hs] at hn; cases hn

lemma run_of_next (h : t.Inside s root) (hs : t.step s = .next t') :
    t.run s root h = t'.run s root (inside_of_step h hs) := by
  rw [run]
  split
  · next hf => rw [hs] at hf; cases hf
  · next hf => rw [hs] at hf; cases hf
  · next hn => rw [hs] at hn; cases hn; rfl

/-- Turns do not change what a run comes to. -/
lemma Turns.run_eq (h : Turns s t t') (ht : t.Inside s root) :
    t.run s root ht = t'.run s root (h.inside ht) := by
  induction h with
  | refl => rfl
  | tail h hs ih => rw [ih, run_of_next (Turns.inside h ht) hs]

/-- Every run comes to a state in which the loop ends, with success or with a fault. -/
lemma exists_turns_run (ht : t.Inside s root) :
    ∃ t', Turns s t t' ∧ (t'.step s = .finished ∨ ∃ f, t'.step s = .fault f) := by
  induction t, ht using run.induct s root with
  | case1 t h hs => exact ⟨t, .refl, .inl hs⟩
  | case2 t h f hs => exact ⟨t, .refl, .inr ⟨f, hs⟩⟩
  | case3 t h u hs ih =>
    obtain ⟨t', hu, ht'⟩ := ih
    exact ⟨t', hu.head hs, ht'⟩

end Traversal

namespace Scope

variable {s : Scope} {root : Element} {t : Traversal}

open Traversal

/-- A traversal succeeds in the state in which its loop finds an empty stack. -/
theorem traverse_eq_ok_iff :
    s.traverse root = .ok t ↔ Turns s (start root) t ∧ t.step s = .finished := by
  constructor
  · intro h
    obtain ⟨t', ht', hs | ⟨f, hs⟩⟩ := exists_turns_run (inside_start s root)
    · rw [traverse, ht'.run_eq, run_of_finished _ hs] at h
      cases h
      exact ⟨ht', hs⟩
    · rw [traverse, ht'.run_eq, run_of_fault _ hs] at h
      cases h
  · rintro ⟨ht, hs⟩
    rw [traverse, ht.run_eq, run_of_finished _ hs]

/-- A traversal meets the fault of the state in which its loop is stopped. -/
theorem traverse_eq_error_iff {f : ModelFault} :
    s.traverse root = .error f ↔ ∃ t, Turns s (start root) t ∧ t.step s = .fault f := by
  constructor
  · intro h
    obtain ⟨t, ht, hs | ⟨g, hs⟩⟩ := exists_turns_run (inside_start s root)
    · rw [traverse, ht.run_eq, run_of_finished _ hs] at h
      cases h
    · rw [traverse, ht.run_eq, run_of_fault _ hs] at h
      cases h
      exact ⟨t, ht, hs⟩
  · rintro ⟨t, ht, hs⟩
    rw [traverse, ht.run_eq, run_of_fault _ hs]

lemma discover_eq_ok_iff {found : NameSet} :
    s.discover root = .ok found ↔
      ∃ t, Turns s (start root) t ∧ t.step s = .finished ∧ t.found = found := by
  constructor
  · intro h
    cases ht : s.traverse root with
    | error f => rw [discover, ht] at h; cases h
    | ok t =>
      rw [discover, ht] at h
      cases h
      obtain ⟨hturns, hs⟩ := traverse_eq_ok_iff.mp ht
      exact ⟨t, hturns, hs, rfl⟩
  · rintro ⟨t, ht, hs, rfl⟩
    rw [discover, traverse_eq_ok_iff.mpr ⟨ht, hs⟩]
    rfl

lemma discover_eq_error_iff {f : ModelFault} :
    s.discover root = .error f ↔ ∃ t, Turns s (start root) t ∧ t.step s = .fault f := by
  rw [← traverse_eq_error_iff, discover]
  cases s.traverse root with
  | error g => exact ⟨fun h => (by cases h; rfl), fun h => (by cases h; rfl)⟩
  | ok t => exact ⟨fun h => (by cases h), fun h => (by cases h)⟩

end Scope

end GrammarCoverage
