import GrammarCoverage.Proofs.Settings.Acceptance
import GrammarCoverage.Proofs.Strategy.Coupling
import GrammarCoverage.Proofs.Strategy.Decision
import GrammarCoverage.Proofs.Strategy.Interleaving
import GrammarCoverage.Proofs.Strategy.Registration

/-!
# Ways of making a strategy

The strategy that settings name can be made from the settings alone, by its name, by its class, or
directly from a crawler, a source of numbers and a chance (`Settings.Way`). Whichever way is taken
it succeeds, and comes to what the class makes of the crawler and of the source that the way starts
from (`Settings.Way.make?_eq`). Sources with the same numbers to come make strategies that are in
step, and sessions with strategies in step have the same outcomes (`Session.InStep.performAll`).
-/

namespace GrammarCoverage

/-! ### Strategies in step -/

lemma Generator.draw_of_source_eq {g g' : Generator} (h : g'.source = g.source) :
    (NumberSource.draw g').1 = (NumberSource.draw g).1 ∧
      (NumberSource.draw g').2.source = (NumberSource.draw g).2.source := by
  obtain ⟨source, drawn⟩ := g
  obtain ⟨source', drawn'⟩ := g'
  obtain rfl : source' = source := h
  cases source' <;> exact ⟨rfl, rfl⟩

namespace Strategy

/-- Two strategies are in step if they differ at most in how many numbers their sources have given
out, while the numbers to come are the same. -/
inductive InStep : Strategy Generator → Strategy Generator → Prop where
  | refl (s : Strategy Generator) : InStep s s
  | random {g g' : Generator} (p : Probability) (h : g'.source = g.source) :
      InStep (.random g p) (.random g' p)
  | coverage (k : Nat) {g g' : Generator} (p : Probability) (h : g'.source = g.source) :
      InStep (.coverage k g p) (.coverage k g' p)

variable {s s' : Strategy Generator}

/-- Strategies in step read the same crawler. -/
lemma InStep.crawler?_eq (h : s.InStep s') : s'.crawler? = s.crawler? := by
  cases h <;> rfl

/-- Strategies in step answer alike, and stay in step. -/
lemma InStep.decide (h : s.InStep s') (c : Crawler) (e : Element) :
    Coupled (· = ·) (s.decide c e).outcome (s'.decide c e).outcome ∧
      (s.decide c e).source.InStep (s'.decide c e).source := by
  cases h with
  | refl s => exact ⟨coupled_self fun _ _ => rfl, .refl _⟩
  | random p h =>
    obtain ⟨hnumber, hsource⟩ := Generator.draw_of_source_eq h
    simp only [Strategy.decide, hnumber]
    exact ⟨.ok rfl, .random p hsource⟩
  | @coverage k g g' p h =>
    obtain ⟨hnumber, hnext⟩ := Generator.draw_of_source_eq h
    obtain ⟨houtcome, ⟨hsource, hsource'⟩ | ⟨hsource, hsource'⟩⟩ :=
      Coverage.coupled_decides (Coverage.decides_decide c p e g)
        (Coverage.decides_decide c p e g') rfl (by rw [hnumber])
    · exact ⟨houtcome, .coverage k p (by rw [hsource, hsource', h])⟩
    · exact ⟨houtcome, .coverage k p (by rw [hsource, hsource', hnext])⟩

lemma InStep.decideTimes (h : s.InStep s') (c : Crawler) (e : Element) (n : Nat) :
    (s'.decideTimes c e n).1 = (s.decideTimes c e n).1 ∧
      (s.decideTimes c e n).2.1.InStep (s'.decideTimes c e n).2.1 := by
  obtain ⟨hanswers, hlast⟩ :=
    coupled_decideTimes InStep (fun _ _ h => h.decide c e) h n
  rw [List.forall₂_eq_eq_eq] at hanswers
  exact ⟨hanswers.eq.symm, hlast⟩

end Strategy

namespace Session

/-- Two sessions are in step if they have the same crawlers, and strategies in step under the same
names. -/
structure InStep (s s' : Session) : Prop where
  crawler : s'.crawler = s.crawler
  others : s'.others = s.others
  strategies : ∀ id, Option.Rel (fun made made' : Made => made.strategy.InStep made'.strategy)
    (s.strategies.get? id) (s'.strategies.get? id)

variable {s s' : Session} {made made' : Made}

lemma InStep.refl (s : Session) : s.InStep s where
  crawler := rfl
  others := rfl
  strategies id := by
    cases s.strategies.get? id with
    | none => exact .none
    | some made => exact .some (.refl _)

lemma InStep.store (h : s.InStep s') (id : String) (hm : made.strategy.InStep made'.strategy) :
    (s.store id made).InStep (s'.store id made') where
  crawler := h.crawler
  others := h.others
  strategies other := by
    rw [get?_store, get?_store]
    split
    · exact .some hm
    · exact h.strategies other

/-- An action has one outcome in sessions in step, and keeps them in step. -/
lemma InStep.perform (h : s.InStep s') (a : Action) :
    (s'.perform a).outcome = (s.perform a).outcome ∧
      (s.perform a).session.InStep (s'.perform a).session := by
  have hchanged (change : Except Crawler.ChangeError Crawler) :
      (s'.changed change).outcome = (s.changed change).outcome ∧
        (s.changed change).session.InStep (s'.changed change).session := by
    cases change with
    | ok crawler => exact ⟨rfl, rfl, h.others, h.strategies⟩
    | error e => exact ⟨rfl, h⟩
  cases a with
  | ask id e times =>
    have hrel := h.strategies id
    generalize hs : s.strategies.get? id = found, hs' : s'.strategies.get? id = found' at hrel
    cases hrel with
    | none =>
      rw [perform_ask_of_none hs, perform_ask_of_none hs']
      exact ⟨rfl, h⟩
    | @some made made' hm =>
      have hread : s'.crawlerOf made'.strategy = s.crawlerOf made.strategy :=
        (crawlerOf_congr h.crawler h.others _).trans (crawlerOf_eq_of_crawler?_eq hm.crawler?_eq)
      rw [perform_ask hs, perform_ask hs', hread]
      obtain ⟨hanswers, hlast⟩ := hm.decideTimes (s.crawlerOf made.strategy) e times
      exact ⟨congrArg Outcome.ofAnswers hanswers, h.store id hlast⟩
  | setUsage | increment | dropUsage | prune | unprune =>
    simp only [Session.perform, h.crawler]
    exact hchanged _

/-- Runs of sessions in step have the same outcomes. -/
lemma InStep.performAll (h : s.InStep s') (actions : List Action) :
    (s'.performAll actions).1 = (s.performAll actions).1 ∧
      (s.performAll actions).2.InStep (s'.performAll actions).2 := by
  induction actions generalizing s s' with
  | nil => exact ⟨rfl, h⟩
  | cons a actions ih =>
    obtain ⟨houtcome, hnext⟩ := h.perform a
    obtain ⟨houtcomes, hlast⟩ := ih hnext
    refine ⟨?_, hlast⟩
    simp only [Session.performAll, houtcome, houtcomes]

end Session

/-! ### What the registry of the library makes -/

namespace Registry

variable {r : Registry} {name : String} {crawler? : Option Crawler} {source? : Option Generator}
  {settings : Settings} {made : Made} {c : StrategyClass}

lemma get_default_iff : default.get name = .ok c ↔
    name = "full" ∧ c = .full ∨ name = "random" ∧ c = .random ∨
      name = "coverage-aware" ∧ c = .coverage :=
  get_eq_ok_iff.trans get?_default_iff

lemma create_eq (hc : r.get name = .ok c) :
    r.create name crawler? source? (some settings) =
      if c.requiresCrawler && crawler?.isNone then .error (.refused name "a crawler is required")
      else ((c.build crawler? (source?.getD settings.generator) settings).mapError
        (wrap name)).map (⟨c.name, ·⟩) := by
  simp only [create, hc, settingsFor, bind, Except.bind]
  split
  · rfl
  · cases c.build crawler? (source?.getD settings.generator) settings <;> rfl

/-- What a class makes is made by its name. -/
lemma create_of_build {crawler : Crawler} {strategy : Strategy Generator} (hc : r.get name = .ok c)
    (hb : c.build (some crawler) (source?.getD settings.generator) settings = .ok strategy) :
    r.create name (some crawler) source? (some settings) = .ok ⟨c.name, strategy⟩ := by
  rw [create_eq hc, hb]
  simp [Except.mapError, Except.map]

/-- The name alone decides which class makes a strategy, and the class is handed the source that is
given, if one is. -/
lemma exists_build_of_create
    (h : r.create name crawler? source? (some settings) = .ok made) :
    ∃ c, r.get name = .ok c ∧ made.className = c.name ∧
      c.build crawler? (source?.getD settings.generator) settings = .ok made.strategy := by
  have hway := r.creates_create name crawler? source? (some settings)
  rw [h] at hway
  cases hway with
  | made hc _ hs hb =>
    cases hs
    exact ⟨_, get_eq_ok_iff.mpr hc, rfl, hb⟩

/-- With a crawler every class of the library makes a strategy. -/
lemma exists_build_of_default (hc : default.get name = .ok c) (crawler : Crawler) (g : Generator)
    (settings : Settings) : ∃ strategy, c.build (some crawler) g settings = .ok strategy := by
  rcases get_default_iff.mp hc with ⟨_, rfl⟩ | ⟨_, rfl⟩ | ⟨_, rfl⟩
  · exact ⟨_, rfl⟩
  · exact ⟨_, StrategyClass.build_random _ g settings⟩
  · exact ⟨_, StrategyClass.build_coverage crawler g settings⟩

/-- Sources with the same numbers to come make strategies in step. -/
lemma inStep_of_build {g g' : Generator} {strategy strategy' : Strategy Generator}
    (hc : default.get name = .ok c) (hg : g'.source = g.source)
    (h : c.build crawler? g settings = .ok strategy)
    (h' : c.build crawler? g' settings = .ok strategy') : strategy.InStep strategy' := by
  rcases get_default_iff.mp hc with ⟨_, rfl⟩ | ⟨_, rfl⟩ | ⟨_, rfl⟩
  · cases h
    cases h'
    exact .refl _
  · rw [StrategyClass.build_random] at h h'
    cases h
    cases h'
    exact .random _ hg
  · cases crawler? with
    | none => cases h
    | some crawler =>
      rw [StrategyClass.build_coverage] at h h'
      cases h
      cases h'
      exact .coverage _ _ hg

/-- The classes of the library read nothing of the settings but their two chances. -/
lemma build_congr_of_default {settings' : Settings} {g : Generator} (hc : default.get name = .ok c)
    (hthreshold : settings'.randomThreshold = settings.randomThreshold)
    (hfallback : settings'.fallbackProbability = settings.fallbackProbability) :
    c.build crawler? g settings' = c.build crawler? g settings := by
  rcases get_default_iff.mp hc with ⟨_, rfl⟩ | ⟨_, rfl⟩ | ⟨_, rfl⟩
  · rfl
  · rw [StrategyClass.build_random, StrategyClass.build_random, hthreshold]
  · cases crawler? with
    | none => rfl
    | some crawler => rw [StrategyClass.build_coverage, StrategyClass.build_coverage, hfallback]

lemma create_congr_of_default {settings' : Settings} (name : String)
    (hsource : source?.isSome = true ∨ settings'.seed = settings.seed)
    (hthreshold : settings'.randomThreshold = settings.randomThreshold)
    (hfallback : settings'.fallbackProbability = settings.fallbackProbability) :
    default.create name crawler? source? (some settings') =
      default.create name crawler? source? (some settings) := by
  have hg : source?.getD settings'.generator = source?.getD settings.generator := by
    cases source? with
    | some g => rw [Option.getD_some, Option.getD_some]
    | none =>
      have hseed : settings'.seed = settings.seed := by simpa using hsource
      rw [Settings.generator, Settings.generator, hseed]
  cases hc : default.get name with
  | error e => simp only [create, hc, bind, Except.bind]
  | ok c => rw [create_eq hc, create_eq hc, hg, build_congr_of_default hc hthreshold hfallback]

/-- What the library makes for deciding by coverage refers to the crawler that it is made with. -/
lemma crawler?_of_build {crawler : Crawler} {g : Generator} {strategy : Strategy Generator}
    (hc : default.get name = .ok c) (hclass : c.name = "CoverageAwareCrawl")
    (hb : c.build (some crawler) g settings = .ok strategy) :
    strategy.crawler? = some crawler.id := by
  rcases get_default_iff.mp hc with ⟨_, rfl⟩ | ⟨_, rfl⟩ | ⟨_, rfl⟩
  · exact absurd hclass (by decide)
  · exact absurd hclass (by decide)
  · rw [StrategyClass.build_coverage] at hb
    cases hb
    rfl

/-- What the library makes of a source draws from that source, if it draws at all. -/
lemma source?_of_build {g source : Generator} {strategy : Strategy Generator}
    (hc : default.get name = .ok c) (hb : c.build crawler? g settings = .ok strategy)
    (hs : strategy.source? = some source) : source = g := by
  rcases get_default_iff.mp hc with ⟨_, rfl⟩ | ⟨_, rfl⟩ | ⟨_, rfl⟩
  · cases hb
    cases hs
  · rw [StrategyClass.build_random] at hb
    cases hb
    exact (Option.some.inj hs).symm
  · cases crawler? with
    | none => cases hb
    | some crawler =>
      rw [StrategyClass.build_coverage] at hb
      cases hb
      exact (Option.some.inj hs).symm

end Registry

namespace Settings

variable {settings : Settings} {crawler : Crawler} {name : String} {c : StrategyClass}

/-! ### The ways -/

/-- Make the strategy of a name directly, from what its class has to be told of a crawler, a source
of numbers and a chance. -/
def construct? (settings : Settings) (name : String) (crawler : Crawler) (source : Generator) :
    Option Made :=
  if name = "full" then some ⟨"FullCrawl", .full⟩
  else if name = "random" then
    (Strategy.ofThreshold source (some settings.randomThreshold.toValue)).toOption.map
      (⟨"RandomCrawl", ·⟩)
  else if name = "coverage-aware" then
    (Strategy.ofFallback crawler source (some settings.fallbackProbability.toValue)).toOption.map
      (⟨"CoverageAwareCrawl", ·⟩)
  else none

/-- The ways to make the strategy that settings name. -/
inductive Way where
  | bySettings
  /-- By name, with the settings, and perhaps with a source of numbers. -/
  | byName (source? : Option Generator)
  /-- By the class of the name, with a source of numbers and the settings. -/
  | byClass (source : Generator)
  | directly (source : Generator)

namespace Way

/-- What a way comes to, if it does not fail. -/
def make? (settings : Settings) (name : String) (crawler : Crawler) : Way → Option Made
  | bySettings => (Registry.default.build settings (some crawler)).toOption
  | byName source? =>
    (Registry.default.create name (some crawler) source? (some settings)).toOption
  | byClass source => do
    let c ← (Registry.default.get name).toOption
    let strategy ← (c.build (some crawler) source settings).toOption
    return ⟨c.name, strategy⟩
  | directly source => settings.construct? name crawler source

/-- The source of numbers that a way starts from. -/
def source (settings : Settings) : Way → Generator
  | bySettings => settings.generator
  | byName source? => source?.getD settings.generator
  | byClass source | directly source => source

/-- A way hands over no source of numbers, or one that stands where the source of a seed starts. -/
inductive StartsFrom (seed : Int) : Way → Prop where
  | bySettings : StartsFrom seed .bySettings
  | byName : StartsFrom seed (.byName none)
  | byNameWith {g : Generator} (h : g.source = .twister (.ofSeed seed)) :
      StartsFrom seed (.byName (some g))
  | byClass {g : Generator} (h : g.source = .twister (.ofSeed seed)) :
      StartsFrom seed (.byClass g)
  | directly {g : Generator} (h : g.source = .twister (.ofSeed seed)) :
      StartsFrom seed (.directly g)

lemma StartsFrom.source_eq {seed : Int} {way : Way} (h : way.StartsFrom seed)
    (hseed : settings.seed = some seed) :
    (way.source settings).source = .twister (.ofSeed seed) := by
  have hgenerator : settings.generator.source = .twister (.ofSeed seed) := by
    simp [generator, hseed, Generator.ofSeed]
  cases h with
  | bySettings | byName => exact hgenerator
  | byNameWith h | byClass h | directly h => exact h

end Way

/-- What the class makes of a source is made directly too: a chance that has been checked is
accepted again as it is. -/
lemma construct?_eq {g : Generator} {strategy : Strategy Generator}
    (hc : Registry.default.get name = .ok c)
    (hb : c.build (some crawler) g settings = .ok strategy) :
    settings.construct? name crawler g = some ⟨c.name, strategy⟩ := by
  rcases Registry.get_default_iff.mp hc with ⟨rfl, rfl⟩ | ⟨rfl, rfl⟩ | ⟨rfl, rfl⟩
  · cases hb
    rfl
  · rw [StrategyClass.build_random] at hb
    cases hb
    simp [construct?, Strategy.ofThreshold, Except.map, Except.toOption, StrategyClass.random]
  · rw [StrategyClass.build_coverage] at hb
    cases hb
    simp [construct?, Strategy.ofFallback, Except.map, Except.toOption, StrategyClass.coverage]

/-- Every way succeeds, and comes to what the class makes of the source that the way starts from. -/
lemma Way.make?_eq (hname : settings.strategy = .string name)
    (hc : Registry.default.get name = .ok c) (way : Way) {strategy : Strategy Generator}
    (hb : c.build (some crawler) (way.source settings) settings = .ok strategy) :
    way.make? settings name crawler = some ⟨c.name, strategy⟩ := by
  cases way with
  | bySettings =>
    have hcreate : Registry.default.create name (some crawler) none (some settings) =
        .ok ⟨c.name, strategy⟩ := Registry.create_of_build hc hb
    simp only [make?, Registry.build, hname, hcreate]
    rfl
  | byName source? =>
    rw [make?, Registry.create_of_build hc hb]
    rfl
  | byClass g =>
    have hb : c.build (some crawler) g settings = .ok strategy := hb
    simp [make?, hc, hb, Except.toOption]
  | directly g => exact construct?_eq hc hb

/-- **All ways to make a strategy make the same one.** For settings that name a strategy of the
library and any crawler, the strategy is made without failure; and if the settings have a seed, then
every way makes a strategy, by the settings, by name, by the class, or directly, and any two of them
have the same outcomes in every run, as long as a source that is handed over stands where that of
the seed starts. A strategy that decides by coverage reads the crawler that it was made with. It is
the name that decides about the class, in every registry: the name in the settings plays no part
besides, and neither does their seed where a source is handed over; such a source is the one that
the strategy draws from. -/
theorem make?_alike (settings : Settings) (crawler : Crawler) {name : String}
    (hname : settings.strategy = .string name) (hdefault : name ∈ Registry.default.names) :
    (∃ made, Registry.default.build settings (some crawler) = .ok made) ∧
    (∀ seed, settings.seed = some seed →
      ∀ way way' : Way, way.StartsFrom seed → way'.StartsFrom seed →
        ∃ made made', way.make? settings name crawler = some made ∧
          way'.make? settings name crawler = some made' ∧ made'.className = made.className ∧
          ∀ (s : Session) id actions,
            ((s.store id made').performAll actions).1 = ((s.store id made).performAll actions).1 ∧
            ((s.store id made').performAll actions).2.crawler =
              ((s.store id made).performAll actions).2.crawler) ∧
    (∀ (way : Way) made, way.make? settings name crawler = some made →
      made.className = "CoverageAwareCrawl" → made.strategy.crawler? = some crawler.id) ∧
    (∀ (r : Registry) other crawler? source? made,
      r.create other crawler? source? (some settings) = .ok made →
        ∃ c, r.get other = .ok c ∧ made.className = c.name ∧
          c.build crawler? (source?.getD settings.generator) settings = .ok made.strategy) ∧
    (∀ other crawler? source? (settings' : Settings),
      (source?.isSome = true ∨ settings'.seed = settings.seed) →
      settings'.randomThreshold = settings.randomThreshold →
      settings'.fallbackProbability = settings.fallbackProbability →
        Registry.default.create other crawler? source? (some settings') =
          Registry.default.create other crawler? source? (some settings)) ∧
    ∀ other crawler? g made source,
      Registry.default.create other crawler? (some g) (some settings) = .ok made →
      made.strategy.source? = some source → source = g := by
  obtain ⟨c, hc⟩ := Registry.contains_iff.mp (Registry.mem_names_iff.mp hdefault)
  have hmake (way : Way) : ∃ strategy,
      c.build (some crawler) (way.source settings) settings = .ok strategy ∧
        way.make? settings name crawler = some ⟨c.name, strategy⟩ := by
    obtain ⟨strategy, hb⟩ :=
      Registry.exists_build_of_default hc crawler (way.source settings) settings
    exact ⟨strategy, hb, way.make?_eq hname hc hb⟩
  refine ⟨?_, fun seed hseed way way' hway hway' => ?_, fun way made h hclass => ?_,
    fun r other crawler? source? made h => Registry.exists_build_of_create h,
    fun other crawler? source? settings' hsource hthreshold hfallback =>
      Registry.create_congr_of_default other hsource hthreshold hfallback, ?_⟩
  · obtain ⟨strategy, hb⟩ :=
      Registry.exists_build_of_default hc crawler settings.generator settings
    refine ⟨⟨c.name, strategy⟩, ?_⟩
    simp only [Registry.build, hname]
    exact Registry.create_of_build hc hb
  · obtain ⟨strategy, hb, hmade⟩ := hmake way
    obtain ⟨strategy', hb', hmade'⟩ := hmake way'
    refine ⟨_, _, hmade, hmade', rfl, fun s id actions => ?_⟩
    have hg : (way'.source settings).source = (way.source settings).source :=
      (hway'.source_eq hseed).trans (hway.source_eq hseed).symm
    have hsessions : (s.store id ⟨c.name, strategy⟩).InStep (s.store id ⟨c.name, strategy'⟩) :=
      (Session.InStep.refl s).store id (Registry.inStep_of_build hc hg hb hb')
    obtain ⟨houtcomes, hlast⟩ := hsessions.performAll actions
    exact ⟨houtcomes, hlast.crawler⟩
  · obtain ⟨strategy, hb, hmade⟩ := hmake way
    obtain rfl := Option.some.inj (h.symm.trans hmade)
    exact Registry.crawler?_of_build hc hclass hb
  · intro other crawler? g made source h hs
    obtain ⟨c, hc, _, hb⟩ := Registry.exists_build_of_create h
    exact Registry.source?_of_build hc hb hs

/-- The default settings with a seed. -/
def seeded : Settings := { default with seed := some 7 }

/-- A source that stands where the one of the seed starts, although it has given out numbers. -/
def rewound : Generator := ⟨.twister (.ofSeed 7), 5⟩

theorem make?_alike_seeded :
    Registry.default.build seeded (some Session.mixedCrawler) =
      .ok ⟨"CoverageAwareCrawl", .coverage 0 (.ofSeed (some 7)) .defaultFallback⟩ ∧
    ∃ made made',
      Way.bySettings.make? seeded "coverage-aware" Session.mixedCrawler = some made ∧
      (Way.directly rewound).make? seeded "coverage-aware" Session.mixedCrawler = some made' ∧
      made'.className = made.className ∧
      ∀ actions, ((Session.mixedSession.store "new" made').performAll actions).1 =
        ((Session.mixedSession.store "new" made).performAll actions).1 := by
  have hdefault : "coverage-aware" ∈ Registry.default.names := Registry.mem_names_iff.mpr rfl
  obtain ⟨_, hways, _⟩ := make?_alike seeded Session.mixedCrawler rfl hdefault
  obtain ⟨made, made', hmade, hmade', hclass, houtcomes⟩ :=
    hways 7 rfl .bySettings (.directly rewound) .bySettings (.directly rfl)
  exact ⟨rfl, made, made', hmade, hmade', hclass,
    fun actions => (houtcomes Session.mixedSession "new" actions).1⟩

end Settings

end GrammarCoverage
