import GrammarCoverage.Session
import Mathlib

/-!
# The decision by coverage

The names that a discovery finds have no order of their own, so they may be looked through in any
(`Coverage.Decides`). In every order the decision is the same: it hangs only on whether one of the
names is unused, and a number is drawn only if none is (`Coverage.Decides.congr`). One question to a
strategy of a session comes to such a decision and changes nothing else (`Session.perform_ask_one`).
-/

namespace GrammarCoverage

universe u

namespace Crawler

variable {c : Crawler} {name : String}

/-- A literal is unused if it is tracked with a count of zero. -/
def Unused (c : Crawler) (name : String) : Prop :=
  ∃ count, c.usage.get? name = some count ∧ count.isZero = true

lemma isUnused_iff : c.isUnused name = true ↔ c.Unused name := by
  rw [isUnused, count?, Unused]
  cases c.usage.get? name with
  | none => simp
  | some count => cases count <;> simp [Value.isZero, Value.number?]

lemma isUnused_of_none (h : c.count? name = none) : c.isUnused name = false := by
  rw [isUnused, h]
  rfl

lemma isUnused_of_some {count : Value} (h : c.count? name = some count) :
    c.isUnused name = count.isZero := by
  rw [isUnused, h]
  rfl

/-- The search ends at the first unused name. -/
lemma search_unused (c : Crawler) (names : List String) :
    (c.search names).unused = names.find? c.isUnused := by
  induction names with
  | nil => rfl
  | cons name names ih =>
    rw [search]
    cases hcount : c.count? name with
    | none =>
      rw [List.find?_cons_of_neg (by simp [isUnused_of_none hcount])]
      exact ih
    | some count =>
      have hunused := isUnused_of_some hcount
      cases hzero : count.isZero with
      | false =>
        rw [List.find?_cons_of_neg (by simp [hunused, hzero])]
        simpa [hzero] using ih
      | true =>
        rw [List.find?_cons_of_pos (by rw [hunused, hzero])]
        simp [hzero]

end Crawler

namespace Coverage

variable {σ : Type u} [NumberSource σ] {c c' : Crawler} {p : Probability} {e : Element}
  {source : σ} {names : List String} {found : NameSet} {d d' : Decision σ}

/-- An unused name decides, wherever it stands, and nothing is drawn. -/
lemma decideAmong_of_unused (h : ∃ name ∈ names, c.Unused name) :
    (decideAmong c p e names source).outcome = .ok true ∧
      (decideAmong c p e names source).source = source := by
  have hsome : (names.find? c.isUnused).isSome := by
    obtain ⟨name, hn, hu⟩ := h
    exact List.find?_isSome.mpr ⟨name, hn, Crawler.isUnused_iff.mpr hu⟩
  obtain ⟨name, hname⟩ := Option.isSome_iff_exists.mp hsome
  rw [decideAmong, Crawler.search_unused, hname]
  exact ⟨rfl, rfl⟩

/-- Without an unused name one draw decides. -/
lemma decideAmong_of_used (h : ¬ ∃ name ∈ names, c.Unused name) :
    (decideAmong c p e names source).outcome =
        .ok (Decidable.decide ((NumberSource.draw source).1 < p.value)) ∧
      (decideAmong c p e names source).source = (NumberSource.draw source).2 := by
  have hnone : names.find? c.isUnused = none :=
    List.find?_eq_none.mpr fun name hn hu => h ⟨name, hn, Crawler.isUnused_iff.mp hu⟩
  rw [decideAmong, Crawler.search_unused, hnone]
  exact ⟨rfl, rfl⟩

/-- The ways to decide on an element: a fault is passed on, and discovered names are looked through
in any order. -/
inductive Decides (c : Crawler) (p : Probability) (e : Element) (source : σ) :
    Decision σ → Prop where
  | fault {f : ModelFault} (h : c.scope.discover e = .error f) :
      Decides c p e source ⟨.error f, source, []⟩
  | among {found : NameSet} {names : List String} (h : c.scope.discover e = .ok found)
      (hn : names.Perm found.names) :
      Decides c p e source
        { decideAmong c p e names source with
          events := .discovered found.size e :: (decideAmong c p e names source).events }

lemma decides_decide (c : Crawler) (p : Probability) (e : Element) (source : σ) :
    Decides c p e source (decide c p e source) := by
  cases h : c.scope.discover e with
  | error f =>
    rw [decide, h]
    exact .fault h
  | ok found =>
    rw [decide, h]
    exact .among h (.refl _)

lemma Decides.of_fault {f : ModelFault} (hd : Decides c p e source d)
    (h : c.scope.discover e = .error f) : d.outcome = .error f ∧ d.source = source := by
  cases hd with
  | fault h' =>
    rw [h] at h'
    cases h'
    exact ⟨rfl, rfl⟩
  | among h' _ =>
    rw [h] at h'
    cases h'

lemma Decides.exists_names (hd : Decides c p e source d) (h : c.scope.discover e = .ok found) :
    ∃ names : List String, (∀ name, name ∈ names ↔ name ∈ found) ∧
      d.outcome = (decideAmong c p e names source).outcome ∧
      d.source = (decideAmong c p e names source).source := by
  cases hd with
  | fault h' =>
    rw [h] at h'
    cases h'
  | @among found' names h' hn =>
    rw [h] at h'
    cases h'
    exact ⟨names, fun name => hn.mem_iff, rfl, rfl⟩

lemma Decides.of_unused (hd : Decides c p e source d) (h : c.scope.discover e = .ok found)
    (hu : ∃ name ∈ found, c.Unused name) : d.outcome = .ok true ∧ d.source = source := by
  obtain ⟨names, hmem, houtcome, hsource⟩ := hd.exists_names h
  obtain ⟨name, hn, hu⟩ := hu
  rw [houtcome, hsource]
  exact decideAmong_of_unused ⟨name, (hmem name).mpr hn, hu⟩

lemma Decides.of_used (hd : Decides c p e source d) (h : c.scope.discover e = .ok found)
    (hu : ¬ ∃ name ∈ found, c.Unused name) :
    d.outcome = .ok (Decidable.decide ((NumberSource.draw source).1 < p.value)) ∧
      d.source = (NumberSource.draw source).2 := by
  obtain ⟨names, hmem, houtcome, hsource⟩ := hd.exists_names h
  rw [houtcome, hsource]
  exact decideAmong_of_used fun ⟨name, hn, hc⟩ => hu ⟨name, (hmem name).mp hn, hc⟩

/-- Two crawlers decide alike if a discovery comes to the same and finds the same unused literals.
-/
lemma Decides.eq_of_discover_eq (hd : Decides c p e source d) (hd' : Decides c' p e source d')
    (hdiscover : c'.scope.discover e = c.scope.discover e)
    (hunused : ∀ found, c.scope.discover e = .ok found →
      ∀ name ∈ found, (c'.Unused name ↔ c.Unused name)) :
    d'.outcome = d.outcome ∧ d'.source = d.source := by
  cases h : c.scope.discover e with
  | error f =>
    obtain ⟨houtcome, hsource⟩ := hd.of_fault h
    rw [houtcome, hsource]
    exact hd'.of_fault (hdiscover.trans h)
  | ok found =>
    by_cases hu : ∃ name ∈ found, c.Unused name
    · obtain ⟨houtcome, hsource⟩ := hd.of_unused h hu
      rw [houtcome, hsource]
      obtain ⟨name, hn, hu⟩ := hu
      exact hd'.of_unused (hdiscover.trans h) ⟨name, hn, (hunused found h name hn).mpr hu⟩
    · obtain ⟨houtcome, hsource⟩ := hd.of_used h hu
      rw [houtcome, hsource]
      apply hd'.of_used (hdiscover.trans h)
      rintro ⟨name, hn, hc⟩
      exact hu ⟨name, hn, (hunused found h name hn).mp hc⟩

/-- Two crawlers with the same rules, the same pruned names and the same unused literals decide
alike. -/
lemma Decides.congr (hd : Decides c p e source d) (hd' : Decides c' p e source d')
    (hscope : c'.scope = c.scope) (hunused : ∀ name, c'.Unused name ↔ c.Unused name) :
    d'.outcome = d.outcome ∧ d'.source = d.source :=
  hd.eq_of_discover_eq hd' (by rw [hscope]) fun _ _ name _ => hunused name

end Coverage

namespace Session

/-- The answer to one question. -/
def Outcome.ofDecision : Except ModelFault Bool → Outcome
  | .ok b => .answers [b]
  | .error f => .failed (.fault f)

variable {s : Session} {id : String} {made : Made}

/-- One question to a strategy changes that strategy alone. -/
lemma perform_ask_one (h : s.strategies.get? id = some made) (e : Element) :
    s.perform (.ask id e 1) =
      ⟨.ofDecision (made.strategy.decide (s.crawlerOf made.strategy) e).outcome,
        s.store id
          { made with strategy := (made.strategy.decide (s.crawlerOf made.strategy) e).source },
        (made.strategy.decide (s.crawlerOf made.strategy) e).events⟩ := by
  simp only [perform, h, Strategy.decideTimes]
  cases (made.strategy.decide (s.crawlerOf made.strategy) e).outcome with
  | error f => rfl
  | ok b => simp [Except.map, Outcome.ofDecision, store]

variable {k : Nat} {source : Generator} {p : Probability} {e : Element} {d : Decision Generator}

/-- **Asking a strategy that decides by coverage passes a fault on, approves an element that reaches
an unused literal of its crawler, and otherwise compares one draw with the chance.** Nothing is
drawn in the first two cases. The order in which the names are looked through plays no part, nor
does anything in the counts but which literals are unused; and all crawlers stay as they were. -/
theorem ask_coverage (hmade : s.strategies.get? id = some made)
    (hstrategy : made.strategy = .coverage k source p)
    (hd : Coverage.Decides (s.read k) p e source d) :
    (s.perform (.ask id e 1)).outcome = .ofDecision d.outcome ∧
    (s.perform (.ask id e 1)).session =
      s.store id { made with strategy := .coverage k d.source p } ∧
    (s.perform (.ask id e 1)).session.crawler = s.crawler ∧
    (s.perform (.ask id e 1)).session.others = s.others ∧
    (∀ f, (s.read k).scope.discover e = .error f → d.outcome = .error f ∧ d.source = source) ∧
    (∀ found, (s.read k).scope.discover e = .ok found →
      ((∃ name ∈ found, (s.read k).Unused name) → d.outcome = .ok true ∧ d.source = source) ∧
      ((¬ ∃ name ∈ found, (s.read k).Unused name) →
        d.outcome = .ok (decide ((NumberSource.draw source).1 < p.value)) ∧
        d.source = (NumberSource.draw source).2)) ∧
    (∀ c' d', c'.scope = (s.read k).scope → (∀ name, c'.Unused name ↔ (s.read k).Unused name) →
      Coverage.Decides c' p e source d' → d'.outcome = d.outcome ∧ d'.source = d.source) := by
  have hdecide := hd.congr (Coverage.decides_decide (s.read k) p e source) rfl fun _ => Iff.rfl
  have hperform := perform_ask_one hmade e
  rw [hstrategy] at hperform
  refine ⟨?_, ?_, ?_, ?_, fun f h => hd.of_fault h, fun found h => ⟨hd.of_unused h, hd.of_used h⟩,
    fun c' d' hscope hunused hd' => hd.congr hd' hscope hunused⟩
  · rw [hperform]
    exact congrArg Outcome.ofDecision hdecide.1
  · rw [hperform, ← hdecide.2]
    rfl
  · rw [hperform]
    rfl
  · rw [hperform]
    rfl

/-- A group with a literal that is unused, one that is used, one with an entry without a count, and
one that is not tracked. -/
def mixedGroup : Element :=
  .group 1 "" .once [.literal 2 "fresh", .literal 3 "used", .literal 4 "blank", .literal 5 "stray"]

def mixedCrawler : Crawler where
  table := .empty
  usage := .ofList [("used", .int 3), ("blank", .null), ("fresh", .int 0)]
  pruned := .empty

/-- A session with one strategy to ask about the group. -/
def mixedSession : Session where
  crawler := mixedCrawler
  strategies := OrderedMap.empty.insert "steering"
    ⟨"CoverageAwareCrawl", .coverage 0 (.ofNumbers []) .half⟩

theorem ask_coverage_mixedGroup :
    ∃ d : Decision Generator,
      Coverage.Decides mixedCrawler .half mixedGroup (.ofNumbers []) d ∧
      d.outcome = .ok true ∧ d.source = .ofNumbers [] ∧
      (mixedSession.perform (.ask "steering" mixedGroup 1)).outcome = .answers [true] ∧
      (mixedSession.perform (.ask "steering" mixedGroup 1)).session.crawler = mixedCrawler := by
  have hmade : mixedSession.strategies.get? "steering" =
      some ⟨"CoverageAwareCrawl", .coverage 0 (.ofNumbers []) .half⟩ := by
    rw [mixedSession, OrderedMap.get?_insert, if_pos rfl]
  have hfound : mixedCrawler.scope.discover mixedGroup =
      .ok (.ofList ["fresh", "used", "blank", "stray"]) := by
    cbv
  have hunused : ∃ name ∈ NameSet.ofList ["fresh", "used", "blank", "stray"],
      mixedCrawler.Unused name :=
    ⟨"fresh", by simp, .int 0, by cbv, by cbv⟩
  -- from the last name to the first, so that the unused one is met at the end
  have hd : Coverage.Decides mixedCrawler .half mixedGroup (Generator.ofNumbers []) _ :=
    .among hfound (List.reverse_perm _)
  obtain ⟨houtcome, _, hcrawler, _, _, hdecided, _⟩ := ask_coverage hmade rfl hd
  obtain ⟨happroved, hsource⟩ := (hdecided _ hfound).1 hunused
  rw [happroved] at houtcome
  exact ⟨_, hd, happroved, hsource, houtcome, hcrawler⟩

end Session

end GrammarCoverage
