import GrammarCoverage.Proofs.Generation.Steering
import GrammarCoverage.Proofs.Random.Fractions
import GrammarCoverage.Proofs.Reachability.Discovery
import GrammarCoverage.Proofs.Strategy.Decision

/-!
# Decisions without chance

A strategy that decides by coverage, with a chance of zero that is compared with draws from
`[0, 1)`, approves exactly the elements that reach an unused literal (`Guide.answers_of_insists`).
-/

namespace GrammarCoverage

universe u

namespace Coverage

open NumberSource

variable {σ : Type u} [NumberSource σ] {c : Crawler} {p : Probability} {e : Element} {source : σ}

/-- With a chance of zero only an unused name decides. -/
lemma decide_of_zero (hp : p.value ≤ 0) (hd : DrawsFractions source) {found : NameSet}
    (h : c.scope.discover e = .ok found) :
    (Coverage.decide c p e source).outcome = .ok (found.names.any c.isUnused) ∧
      DrawsFractions (Coverage.decide c p e source).source := by
  have hdecides := decides_decide c p e source
  by_cases hu : ∃ name ∈ found, c.Unused name
  · obtain ⟨houtcome, hsource⟩ := hdecides.of_unused h hu
    have hany : found.names.any c.isUnused = true := by
      obtain ⟨name, hn, hu⟩ := hu
      exact List.any_eq_true.mpr ⟨name, hn, Crawler.isUnused_iff.mpr hu⟩
    rw [houtcome, hsource, hany]
    exact ⟨rfl, hd⟩
  · obtain ⟨houtcome, hsource⟩ := hdecides.of_used h hu
    have hany : found.names.any c.isUnused = false :=
      List.any_eq_false.mpr fun name hn hc => hu ⟨name, hn, Crawler.isUnused_iff.mp hc⟩
    rw [houtcome, hsource, hany, decide_eq_false (hd.not_lt hp)]
    exact ⟨rfl, hd.draw⟩

end Coverage

namespace Guide

variable {σ : Type u} [NumberSource σ]

/-- An answer by coverage comes from a discovery that has succeeded. -/
lemma exists_discover_of_ask {c : Crawler} {k : Nat} {source : σ} {p : Probability} {e : Element}
    {b : Bool} {g' : Guide σ}
    (h : Adviser.ask (⟨c, .coverage k source p⟩ : Guide σ) e = .ok (b, g')) :
    ∃ found, c.scope.discover e = .ok found ∧
      (Coverage.decide c p e source).outcome = .ok b ∧
      (⟨c, .coverage k (Coverage.decide c p e source).source p⟩ : Guide σ) = g' := by
  obtain ⟨hb, hg'⟩ := ask_eq_ok_iff.mp h
  have hb : (Coverage.decide c p e source).outcome = .ok b := hb
  cases hd : c.scope.discover e with
  | ok found => exact ⟨found, rfl, hb, hg'⟩
  | error f =>
    rw [((Coverage.decides_decide c p e source).of_fault hd).1] at hb
    cases hb

/-- A guide that decides by the coverage of a crawler, and leaves nothing to chance. -/
inductive Insists (c : Crawler) : Guide σ → Prop where
  | coverage {k : Nat} {source : σ} {p : Probability} (hp : p.value ≤ 0)
      (hd : NumberSource.DrawsFractions source) : Insists c ⟨c, .coverage k source p⟩

lemma Insists.with_crawler {c : Crawler} {g : Guide σ} (h : g.Insists c) (crawler : Crawler) :
    ({ g with crawler } : Guide σ).Insists crawler := by
  cases h with
  | coverage hp hd => exact .coverage hp hd

/-- An element promises an unused literal exactly when one is found in it. -/
lemma promises_unused_iff {c : Crawler} {e : Element} {found : NameSet}
    (h : c.scope.discover e = .ok found) :
    c.scope.Promises (c.isUnused · = true) e ↔ found.names.any c.isUnused = true := by
  rw [List.any_eq_true]
  constructor
  · rintro ⟨id, name, he, hu⟩
    exact ⟨name, he.mem_discover h, hu⟩
  · rintro ⟨name, hn, hu⟩
    obtain ⟨id, he⟩ := Scope.exists_reaches_of_mem_discover h hn
    exact ⟨id, name, he, hu⟩

/-- A guide that leaves nothing to chance approves exactly the elements that reach an unused
literal. -/
theorem answers_of_insists (c : Crawler) :
    Adviser.Answers (fun g : Guide σ => g.Insists c)
      (c.scope.Promises (c.isUnused · = true)) := by
  intro g e b g' hg hask
  cases hg with
  | @coverage k source p hp hd =>
    obtain ⟨found, h, hb, rfl⟩ := exists_discover_of_ask hask
    obtain ⟨houtcome, hsource⟩ := Coverage.decide_of_zero hp hd h
    rw [houtcome] at hb
    cases hb
    exact ⟨.coverage hp hsource, (promises_unused_iff h).symm⟩

end Guide

end GrammarCoverage
