import GrammarCoverage.Strategy.Registry
import Mathlib

/-!
# Making strategies

What making a strategy comes to, as a relation with one rule for each way in which it can go
(`Registry.Creates`). The three classes of the library hand settings over unchanged, and a crawler
by its identity alone, so settings and identity determine the strategy
(`Registry.build_default_unique`).
-/

namespace GrammarCoverage

namespace StrategyClass

/-- The class of random strategies accepts the threshold of settings. -/
lemma build_random (crawler? : Option Crawler) (g : Generator) (settings : Settings) :
    random.build crawler? g settings = .ok (.random g settings.randomThreshold) := by
  simp [random, Strategy.ofThreshold, Except.map, Except.mapError]

/-- The class of coverage strategies accepts the chance of settings, and refers to the crawler. -/
lemma build_coverage (crawler : Crawler) (g : Generator) (settings : Settings) :
    coverage.build (some crawler) g settings =
      .ok (.coverage crawler.id g settings.fallbackProbability) := by
  simp [coverage, buildCoverage, Strategy.ofFallback, Except.map, Except.mapError]

end StrategyClass

namespace Registry

variable {r : Registry} {name : String} {crawler? : Option Crawler} {source? : Option Generator}
  {settings? : Option Settings} {made : Made}

/-- The ways in which making the strategy of a name can go. -/
inductive Creates (r : Registry) (name : String) (crawler? : Option Crawler)
    (source? : Option Generator) (settings? : Option Settings) :
    Except RegistryError Made → Prop where
  | notFound (hc : r.classes.get? name = none) :
      Creates r name crawler? source? settings? (.error (r.missing (.string name)))
  | crawlerMissing {c : StrategyClass} (hc : r.classes.get? name = some c)
      (hr : c.requiresCrawler = true) (hn : crawler? = none) :
      Creates r name crawler? source? settings? (.error (.refused name "a crawler is required"))
  /-- The name alone gives no valid settings. -/
  | unsettled {c : StrategyClass} {e : SettingsError} (hc : r.classes.get? name = some c)
      (hr : c.requiresCrawler = true → crawler?.isSome) (hs : settings? = none)
      (he : Settings.forStrategy name = .error e) :
      Creates r name crawler? source? settings? (.error (.settings e))
  /-- The class does not make a strategy. -/
  | failed {c : StrategyClass} {settings : Settings} {e : BuildError}
      (hc : r.classes.get? name = some c) (hr : c.requiresCrawler = true → crawler?.isSome)
      (hs : settingsFor name settings? = .ok settings)
      (hb : c.build crawler? (source?.getD settings.generator) settings = .error e) :
      Creates r name crawler? source? settings? (.error (wrap name e))
  | made {c : StrategyClass} {settings : Settings} {strategy : Strategy Generator}
      (hc : r.classes.get? name = some c) (hr : c.requiresCrawler = true → crawler?.isSome)
      (hs : settingsFor name settings? = .ok settings)
      (hb : c.build crawler? (source?.getD settings.generator) settings = .ok strategy) :
      Creates r name crawler? source? settings? (.ok ⟨c.name, strategy⟩)

lemma creates_create (r : Registry) (name : String) (crawler? : Option Crawler)
    (source? : Option Generator) (settings? : Option Settings) :
    r.Creates name crawler? source? settings? (r.create name crawler? source? settings?) := by
  rw [create, get]
  cases hc : r.classes.get? name with
  | none => exact .notFound hc
  | some c =>
    simp only [bind, Except.bind, pure, Except.pure]
    cases hr : c.requiresCrawler && crawler?.isNone with
    | true =>
      obtain ⟨hr, hn⟩ := Bool.and_eq_true_iff.mp hr
      exact .crawlerMissing hc hr (Option.isNone_iff_eq_none.mp hn)
    | false =>
      rw [if_neg Bool.false_ne_true]
      have hr : c.requiresCrawler = true → crawler?.isSome := by
        intro h
        simpa [h] using hr
      cases hs : settingsFor name settings? with
      | error e =>
        cases settings? with
        | some settings => cases hs
        | none =>
          rw [settingsFor] at hs
          cases hf : Settings.forStrategy name with
          | ok settings => rw [hf] at hs; cases hs
          | error e =>
            rw [hf] at hs
            cases hs
            exact .unsettled hc hr rfl hf
      | ok settings =>
        cases hb : c.build crawler? (source?.getD settings.generator) settings with
        | error e =>
          simp only [hb, Except.mapError]
          exact .failed hc hr hs hb
        | ok strategy =>
          simp only [hb, Except.mapError]
          exact .made hc hr hs hb

/-- The classes of the library. -/
lemma get?_default_iff {c : StrategyClass} : default.classes.get? name = some c ↔
    name = "full" ∧ c = .full ∨ name = "random" ∧ c = .random ∨
      name = "coverage-aware" ∧ c = .coverage := by
  have hget : default.classes.get? name =
      (((OrderedMap.empty.insert "full" StrategyClass.full).insert "random" .random).insert
        "coverage-aware" .coverage).get? name := rfl
  rw [hget, OrderedMap.get?_insert, OrderedMap.get?_insert, OrderedMap.get?_insert]
  split
  · next h => simp [← h, eq_comm]
  · next hcoverage =>
    split
    · next h => simp [← h, eq_comm]
    · next hrandom =>
      split
      · next h => simp [← h, eq_comm]
      · next hfull =>
        simp [Ne.symm hcoverage, Ne.symm hrandom, Ne.symm hfull, OrderedMap.get?, OrderedMap.empty]

/-- Two crawlers are one as far as their identity goes, if both are there. -/
def SameCrawler (crawler₁? crawler₂? : Option Crawler) : Prop :=
  ∀ c₁ ∈ crawler₁?, ∀ c₂ ∈ crawler₂?, c₁.id = c₂.id

/-- What a class of the library makes depends on nothing of the crawler but its identity. -/
lemma build_unique_of_default {c : StrategyClass} {crawler₁? crawler₂? : Option Crawler}
    {g : Generator} {settings : Settings} {strategy₁ strategy₂ : Strategy Generator}
    (hc : default.classes.get? name = some c) (hid : SameCrawler crawler₁? crawler₂?)
    (h₁ : c.build crawler₁? g settings = .ok strategy₁)
    (h₂ : c.build crawler₂? g settings = .ok strategy₂) : strategy₁ = strategy₂ := by
  rcases get?_default_iff.mp hc with ⟨_, rfl⟩ | ⟨_, rfl⟩ | ⟨_, rfl⟩
  · cases h₁; cases h₂; rfl
  · rw [StrategyClass.build_random] at h₁ h₂
    cases h₁; cases h₂; rfl
  · cases crawler₁? with
    | none => cases h₁
    | some c₁ =>
      cases crawler₂? with
      | none => cases h₂
      | some c₂ =>
        rw [StrategyClass.build_coverage] at h₁ h₂
        rw [hid c₁ rfl c₂ rfl] at h₁
        cases h₁; cases h₂; rfl

/-- The settings and the identity of the crawler determine the strategy that the classes of the
library make. -/
lemma build_default_unique {settings : Settings} {crawler₁? crawler₂? : Option Crawler}
    {made₁ made₂ : Made} (hid : SameCrawler crawler₁? crawler₂?)
    (h₁ : default.build settings crawler₁? = .ok made₁)
    (h₂ : default.build settings crawler₂? = .ok made₂) : made₁ = made₂ := by
  cases hname : settings.strategy with
  | illFormed codes =>
    simp only [build, hname] at h₁
    cases h₁
  | string name =>
    simp only [build, hname] at h₁ h₂
    have hc₁ := creates_create default name crawler₁? none (some settings)
    have hc₂ := creates_create default name crawler₂? none (some settings)
    rw [h₁] at hc₁
    rw [h₂] at hc₂
    cases hc₁ with
    | made hc _ hs hb =>
      cases hc₂ with
      | made hc' _ hs' hb' =>
        cases hs
        cases hs'
        rw [hc] at hc'
        cases hc'
        rw [build_unique_of_default hc hid hb hb']

end Registry

end GrammarCoverage
