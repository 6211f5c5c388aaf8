import GrammarCoverage.Proofs.Generation.Counting
import GrammarCoverage.Proofs.Generation.Snapshot

/-!
# Rounds that finish

A round derives a text without changing the crawler, and then counts it. So what a finished round
does to the counts is told by its text alone (`Generation.Finishes.counts`), and as long as all
counts are natural numbers every text that is derived finishes its round
(`Generation.exists_finished`).
-/

namespace GrammarCoverage

universe u v

namespace Generation

variable {σ : Type u} {γ : Type v} [NumberSource σ] [IndexSource γ]

/-- A round finishes with a text if the derivation of the text completes at some depth and the text
is counted. -/
def Finishes (g : Generation σ γ) (root : Element) (text : List String) (g' : Generation σ γ) :
    Prop :=
  ∃ depth, g.roundWithin depth root = (⟨text, .finished⟩, g')

/-- Rounds that all finish, with their texts. -/
inductive Run (root : Element) : Generation σ γ → List (List String) → Generation σ γ → Prop where
  | nil (g : Generation σ γ) : Run root g [] g
  | cons {g g₁ g' : Generation σ γ} {text : List String} {texts : List (List String)}
      (head : g.Finishes root text g₁) (tail : Run root g₁ texts g') :
      Run root g (text :: texts) g'

variable {g g' : Generation σ γ} {root : Element} {depth : Nat} {text : List String}
  {uses : String → Option Nat}

/-- A round is finished when its derivation completes and the text is counted. -/
lemma roundWithin_eq_finished_iff :
    g.roundWithin depth root = (⟨text, .finished⟩, g') ↔
      ∃ d crawler, g.guide.crawler.table.derive depth root g.opening = .going d ∧
        d.tokens.toList = text ∧ d.adviser.crawler.countText text = .ok crawler ∧
        g' = ⟨{ d.adviser with crawler }, d.picker⟩ := by
  constructor
  · intro h
    rw [roundWithin] at h
    split at h
    · cases h
    · next d hd =>
      dsimp only at h
      split at h
      · next crawler hc =>
        cases h
        exact ⟨d, crawler, hd, rfl, hc, rfl⟩
      · cases h
      · cases h
  · rintro ⟨d, crawler, hd, rfl, hc, rfl⟩
    simp only [roundWithin, hd, hc]

/-- A text is counted in the crawler with which its derivation has started. -/
lemma crawler_of_derive {d : Derivation (Guide σ) γ}
    (hd : g.guide.crawler.table.derive depth root g.opening = .going d) :
    d.adviser.crawler = g.guide.crawler := by
  have h := g.guide.crawler.table.crawler_derive depth root g.opening
  rw [hd] at h
  exact h

/-- A finished round counts its text and changes nothing else of the crawler. -/
lemma Finishes.counted (h : g.Finishes root text g') :
    g.guide.crawler.countText text = .ok g'.guide.crawler := by
  obtain ⟨depth, hround⟩ := h
  obtain ⟨d, crawler, hd, _, hc, rfl⟩ := roundWithin_eq_finished_iff.mp hround
  rwa [crawler_of_derive hd] at hc

/-- After a finished round each tracked name in its text has one use more. -/
lemma Finishes.counts (h : g.Finishes root text g') (hcounted : g.guide.crawler.CountedAs uses) :
    g'.guide.crawler.scope = g.guide.crawler.scope ∧
      g'.guide.crawler.CountedAs fun name =>
        (uses name).map (· + if name ∈ text then 1 else 0) := by
  obtain ⟨crawler, hc, hscope, hcounts⟩ := hcounted.exists_countText text
  rw [h.counted] at hc
  cases hc
  exact ⟨hscope, hcounts⟩

/-- Where all counts are natural numbers, a text that is derived finishes its round. -/
lemma exists_finished {d : Derivation (Guide σ) γ} (hcounted : g.guide.crawler.CountedAs uses)
    (hd : g.guide.crawler.table.derive depth root g.opening = .going d) :
    ∃ g', g.roundWithin depth root = (⟨d.tokens.toList, .finished⟩, g') := by
  obtain ⟨crawler, hc, _⟩ := hcounted.exists_countText d.tokens.toList
  rw [← crawler_of_derive hd] at hc
  exact ⟨_, roundWithin_eq_finished_iff.mpr ⟨d, crawler, hd, rfl, hc, rfl⟩⟩

/-- Rounds that all finish are a run. -/
lemma Run.of_rounds {n : Nat} {rounds : List Round} (h : g.rounds root n = (rounds, g'))
    (hends : ∀ r ∈ rounds, r.ending = .finished) : Run root g (rounds.map Round.tokens) g' := by
  induction n generalizing g rounds with
  | zero =>
    cases h
    exact .nil _
  | succ n ih =>
    rw [Generation.rounds] at h
    split at h
    · next tokens g₁ hround =>
      cases h
      exact .cons ⟨depthLimit, hround⟩
        (ih rfl fun r hr => hends r (List.mem_cons_of_mem _ hr))
    · next r g₁ hends' _ =>
      cases h
      exact absurd (congrArg (Round.mk r.tokens) (hends r (List.mem_singleton_self r)))
        (hends' r.tokens)

end Generation

end GrammarCoverage
