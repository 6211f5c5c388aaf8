import GrammarCoverage.Proofs.Strategy.Decision

/-!
# Strategies side by side

Two strategies that are asked about one element, perhaps with different crawlers. As long as what
relates them is kept by a question, a number of questions are answered in step: the same fault is
met, or the answers correspond one by one. Two decisions by the coverage of one crawler meet the
same fault, approve alike, or both come from a draw (`Coverage.coupled_decides`).
-/

namespace GrammarCoverage

universe u

/-- Two questions end in the same fault, or in results that correspond. -/
inductive Coupled {α : Type} (Q : α → α → Prop) :
    Except ModelFault α → Except ModelFault α → Prop where
  | fault (f : ModelFault) : Coupled Q (.error f) (.error f)
  | ok {a a' : α} (h : Q a a') : Coupled Q (.ok a) (.ok a')

section

variable {α : Type} {Q : α → α → Prop} {r r' : Except ModelFault α} {a : α}

lemma coupled_self (h : ∀ a, r = .ok a → Q a a) : Coupled Q r r := by
  cases r with
  | error f => exact .fault f
  | ok a => exact .ok (h a rfl)

lemma Coupled.of_ok (h : Coupled Q r r) (hr : r = .ok a) : Q a a := by
  subst hr
  cases h with
  | ok h => exact h

lemma Coupled.eq (h : Coupled (· = ·) r r') : r = r' := by
  cases h with
  | fault f => rfl
  | ok h => rw [h]

end

namespace Coverage

open NumberSource

variable {σ : Type u} [NumberSource σ] {c : Crawler} {e : Element} {p q : Probability}
  {source source' : σ} {d d' : Decision σ}

/-- Nothing is drawn for either decision, or both come from a draw. -/
lemma coupled_decides {Q : Bool → Bool → Prop} (hd : Decides c p e source d)
    (hd' : Decides c q e source' d') (htrue : Q true true)
    (hdraw : Q (Decidable.decide ((draw source).1 < p.value))
      (Decidable.decide ((draw source').1 < q.value))) :
    Coupled Q d.outcome d'.outcome ∧
      (d.source = source ∧ d'.source = source' ∨
        d.source = (draw source).2 ∧ d'.source = (draw source').2) := by
  cases h : c.scope.discover e with
  | error f =>
    obtain ⟨houtcome, hsource⟩ := hd.of_fault h
    obtain ⟨houtcome', hsource'⟩ := hd'.of_fault h
    rw [houtcome, houtcome']
    exact ⟨.fault f, .inl ⟨hsource, hsource'⟩⟩
  | ok found =>
    by_cases hu : ∃ name ∈ found, c.Unused name
    · obtain ⟨houtcome, hsource⟩ := hd.of_unused h hu
      obtain ⟨houtcome', hsource'⟩ := hd'.of_unused h hu
      rw [houtcome, houtcome']
      exact ⟨.ok htrue, .inl ⟨hsource, hsource'⟩⟩
    · obtain ⟨houtcome, hsource⟩ := hd.of_used h hu
      obtain ⟨houtcome', hsource'⟩ := hd'.of_used h hu
      rw [houtcome, houtcome']
      exact ⟨.ok hdraw, .inr ⟨hsource, hsource'⟩⟩

end Coverage

namespace Strategy

variable {σ : Type u} [NumberSource σ] {s s' : Strategy σ} {c c' : Crawler} {e : Element}

/-- If one question keeps two strategies related, then any number of them do, and are answered in
step. -/
lemma coupled_decideTimes {Q : Bool → Bool → Prop} (R : Strategy σ → Strategy σ → Prop)
    (hstep : ∀ s s', R s s' → Coupled Q (s.decide c e).outcome (s'.decide c' e).outcome ∧
      R (s.decide c e).source (s'.decide c' e).source) (h : R s s') (n : Nat) :
    Coupled (List.Forall₂ Q) (s.decideTimes c e n).1 (s'.decideTimes c' e n).1 ∧
      R (s.decideTimes c e n).2.1 (s'.decideTimes c' e n).2.1 := by
  induction n generalizing s s' with
  | zero => exact ⟨.ok .nil, h⟩
  | succ n ih =>
    obtain ⟨hfirst, hkept⟩ := hstep s s' h
    obtain ⟨hrest, hlast⟩ := ih hkept
    simp only [decideTimes]
    generalize (s.decide c e).outcome = first, (s'.decide c' e).outcome = first' at hfirst ⊢
    cases hfirst with
    | fault f => exact ⟨.fault f, hkept⟩
    | ok hb =>
      refine ⟨?_, hlast⟩
      generalize ((s.decide c e).source.decideTimes c e n).1 = rest,
        ((s'.decide c' e).source.decideTimes c' e n).1 = rest' at hrest ⊢
      cases hrest with
      | fault f => exact .fault f
      | ok hbs => exact .ok (.cons hb hbs)

end Strategy

end GrammarCoverage
