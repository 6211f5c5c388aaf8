import GrammarCoverage.Generation.Derive
import Mathlib

/-!
# What a derivation reads

A derivation sees its adviser only through questions, so that advisers with the same answers derive
the same (`RuleTable.derive_mapAdviser`). A guide never changes the crawler that it reads; its
derivation is that of a strategy that reads the crawler as it was at the start
(`RuleTable.derive_eq_snapshot`), whether it completes or is stopped.
-/

namespace GrammarCoverage

universe u v w

variable {δ : Type u} {ε : Type v} {γ : Type w}

/-- A derivation with another adviser in the place of its own. -/
def Derivation.mapAdviser (f : δ → ε) (d : Derivation δ γ) : Derivation ε γ :=
  ⟨d.tokens, f d.adviser, d.picker⟩

def Progress.mapAdviser (f : δ → ε) : Progress δ γ → Progress ε γ
  | .going d => .going (d.mapAdviser f)
  | .stopped reason d => .stopped reason (d.mapAdviser f)

/-- The state in which a derivation has completed or has been stopped. -/
def Progress.derivation : Progress δ γ → Derivation δ γ
  | .going d | .stopped _ d => d

/-- Advisers answer as the ones in whose place they stand. -/
def Adviser.Mirrors [Adviser δ] [Adviser ε] (f : δ → ε) : Prop :=
  ∀ a e, Adviser.ask (f a) e = (Adviser.ask a e).map fun answer => (answer.1, f answer.2)

variable [Adviser δ] [Adviser ε] {f : δ → ε}

namespace Derivation

lemma approved_mapAdviser (hf : Adviser.Mirrors f) (es : List Element) (d : Derivation δ γ) :
    (d.mapAdviser f).approved es =
      (d.approved es).map fun found => (found.1, found.2.mapAdviser f) := by
  induction es generalizing d with
  | nil => rfl
  | cons e es ih =>
    have hask : Adviser.ask (d.mapAdviser f).adviser e = _ := hf d.adviser e
    simp only [approved, hask]
    cases Adviser.ask d.adviser e with
    | error fault => rfl
    | ok answer =>
      have hrest : approved { d.mapAdviser f with adviser := f answer.2 } es = _ :=
        ih { d with adviser := answer.2 }
      simp only [Except.map, hrest]
      cases approved { d with adviser := answer.2 } es <;> rfl

lemma anyApproved_mapAdviser (hf : Adviser.Mirrors f) (es : List Element) (d : Derivation δ γ) :
    (d.mapAdviser f).anyApproved es =
      (d.anyApproved es).map fun found => (found.1, found.2.mapAdviser f) := by
  induction es generalizing d with
  | nil => rfl
  | cons e es ih =>
    have hask : Adviser.ask (d.mapAdviser f).adviser e = _ := hf d.adviser e
    simp only [anyApproved, hask]
    cases Adviser.ask d.adviser e with
    | error fault => rfl
    | ok answer =>
      obtain ⟨b, adviser⟩ := answer
      cases b with
      | true => rfl
      | false => exact ih { d with adviser }

lemma approvedSequences_mapAdviser (hf : Adviser.Mirrors f) (ess : List (List Element))
    (d : Derivation δ γ) :
    (d.mapAdviser f).approvedSequences ess =
      (d.approvedSequences ess).map fun found => (found.1, found.2.mapAdviser f) := by
  induction ess generalizing d with
  | nil => rfl
  | cons es ess ih =>
    simp only [approvedSequences, anyApproved_mapAdviser hf]
    cases d.anyApproved es with
    | error fault => rfl
    | ok found =>
      simp only [Except.map, ih]
      cases found.2.approvedSequences ess <;> rfl

omit [Adviser δ] [Adviser ε] in
lemma pick_mapAdviser [IndexSource γ] {α : Type} (items : List α) (d : Derivation δ γ) :
    (d.mapAdviser f).pick items =
      (d.pick items).map fun picked => (picked.1, picked.2.mapAdviser f) := by
  unfold pick
  split <;> rfl

end Derivation

omit [Adviser δ] [Adviser ε] in
lemma Progress.forEach_mapAdviser {work : Element → Derivation δ γ → Progress δ γ}
    {work' : Element → Derivation ε γ → Progress ε γ}
    (hwork : ∀ e d, work' e (d.mapAdviser f) = (work e d).mapAdviser f) (es : List Element)
    (d : Derivation δ γ) :
    forEach work' es (d.mapAdviser f) = (forEach work es d).mapAdviser f := by
  induction es generalizing d with
  | nil => rfl
  | cons e es ih =>
    simp only [forEach, hwork]
    cases work e d with
    | going d => exact ih d
    | stopped reason d => rfl

namespace RuleTable

variable [IndexSource γ]

/-- Advisers that answer alike derive alike. -/
theorem derive_mapAdviser (hf : Adviser.Mirrors f) (table : RuleTable) (depth : Nat) (e : Element)
    (d : Derivation δ γ) :
    table.derive depth e (d.mapAdviser f) = (table.derive depth e d).mapAdviser f := by
  induction depth generalizing e d with
  | zero => rfl
  | succ depth ih =>
    have hforEach := Progress.forEach_mapAdviser (f := f) (γ := γ) ih
    cases e with
    | literal | separator | foreign => rfl
    | ruleRef id name =>
      simp only [derive]
      split
      · rfl
      · rfl
      · next rule _ =>
        rw [Derivation.approvedSequences_mapAdviser hf]
        cases d.approvedSequences rule.alternatives with
        | error fault => rfl
        | ok found =>
          simp only [Except.map, Derivation.pick_mapAdviser]
          cases found.2.pick (Derivation.orElse found.1 (rule.alternatives.take 1)) with
          | none => rfl
          | some picked => exact hforEach picked.1 picked.2
    | choice id name es =>
      simp only [derive]
      rw [Derivation.approved_mapAdviser hf]
      cases d.approved es with
      | error fault => rfl
      | ok found =>
        simp only [Except.map, Derivation.pick_mapAdviser]
        cases found.2.pick (Derivation.orElse found.1 es) with
        | none => rfl
        | some picked => exact ih picked.1 picked.2
    | group id name repetition es =>
      simp only [derive]
      split
      · have hask : Adviser.ask (d.mapAdviser f).adviser (.group id name repetition es) = _ :=
          hf d.adviser _
        rw [hask]
        cases Adviser.ask d.adviser (.group id name repetition es) with
        | error fault => rfl
        | ok answer =>
          obtain ⟨b, adviser⟩ := answer
          cases b with
          | false => rfl
          | true => exact hforEach es { d with adviser }
      · exact hforEach es d

end RuleTable

/-- A strategy that reads a crawler as it is at one moment. -/
structure Snapshot (σ : Type u) (c : Crawler) where
  strategy : Strategy σ

namespace Snapshot

variable {σ : Type u} [NumberSource σ] {c : Crawler}

instance : Adviser (Snapshot σ c) where
  ask s e :=
    let d := s.strategy.decide c e
    d.outcome.map fun b => (b, ⟨d.source⟩)

omit [NumberSource σ] in
/-- The guide that reads the crawler anew for each question, while the crawler stays as it is. -/
def guide (s : Snapshot σ c) : Guide σ := ⟨c, s.strategy⟩

lemma mirrors_guide : Adviser.Mirrors (guide : Snapshot σ c → Guide σ) := by
  intro s e
  change (s.strategy.decide c e).outcome.map _ = ((s.strategy.decide c e).outcome.map _).map _
  cases (s.strategy.decide c e).outcome <;> rfl

end Snapshot

namespace Derivation

variable {σ : Type u}

/-- A derivation whose strategy reads the crawler as it is now. -/
def snapshot (d : Derivation (Guide σ) γ) : Derivation (Snapshot σ d.adviser.crawler) γ :=
  ⟨d.tokens, ⟨d.adviser.strategy⟩, d.picker⟩

end Derivation

namespace RuleTable

variable {σ : Type u} [NumberSource σ] [IndexSource γ]

/-- All questions of a derivation read the crawler as it was at the start. -/
theorem derive_eq_snapshot (table : RuleTable) (depth : Nat) (e : Element)
    (d : Derivation (Guide σ) γ) :
    table.derive depth e d = (table.derive depth e d.snapshot).mapAdviser Snapshot.guide :=
  derive_mapAdviser Snapshot.mirrors_guide table depth e d.snapshot

/-- A derivation leaves the crawler as it was, whether it completes or is stopped. -/
lemma crawler_derive (table : RuleTable) (depth : Nat) (e : Element)
    (d : Derivation (Guide σ) γ) :
    (table.derive depth e d).derivation.adviser.crawler = d.adviser.crawler := by
  rw [derive_eq_snapshot]
  cases table.derive depth e d.snapshot <;> rfl

end RuleTable

end GrammarCoverage
