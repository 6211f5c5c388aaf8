import GrammarCoverage.Proofs.Reachability.Agreement
import GrammarCoverage.Proofs.Strategy.Coupling
import GrammarCoverage.Proofs.Strategy.Decision
import GrammarCoverage.Proofs.Strategy.Interleaving

/-!
# What a decision hangs on

A decision by coverage reads the rules of the references that are reached, whether the nodes that
are met are hidden, and which of the discovered literals are unused. Crawlers that agree on this
decide alike on an element (`Crawler.DecideAlike`), however they differ otherwise.
-/

namespace GrammarCoverage

universe u

lemma RuleTable.rule?_insert_of_ne {table : RuleTable} {name other : String} (h : name ≠ other)
    (rule? : Option Rule) :
    RuleTable.rule? (table.insert name rule?) other = table.rule? other := by
  rw [RuleTable.rule?, RuleTable.rule?, OrderedMap.get?_insert, if_neg h]

/-- Only the rules of reached references are looked up. -/
lemma Scope.concurs_insert {s : Scope} {root : Element} {name : String}
    (h : ∀ id, ¬ s.Reaches root (.ruleRef id name)) (rule? : Option Rule) :
    s.Concurs { s with table := s.table.insert name rule? } root where
  rules id other hr := by
    apply RuleTable.rule?_insert_of_ne
    rintro rfl
    exact h id hr
  pruned _ _ _ _ _ := Iff.rfl

namespace Crawler

/-- Two crawlers decide alike on an element if, from the same state of the source and with the same
chance, they come to the same decision or to the same fault and leave the source in the same state,
in whatever order each of them looks through the names. -/
def DecideAlike (σ : Type u) [NumberSource σ] (c c' : Crawler) (e : Element) : Prop :=
  ∀ (p : Probability) (source : σ) (d d' : Decision σ), Coverage.Decides c p e source d →
    Coverage.Decides c' p e source d' → d'.outcome = d.outcome ∧ d'.source = d.source

variable {σ : Type u} [NumberSource σ] {c c' : Crawler} {e : Element} {name other : String}
  {count : Value}

lemma decideAlike_of_discover_eq (hdiscover : c'.scope.discover e = c.scope.discover e)
    (hunused : ∀ found, c.scope.discover e = .ok found →
      ∀ name ∈ found, (c'.Unused name ↔ c.Unused name)) : c.DecideAlike σ c' e :=
  fun _ _ _ _ hd hd' => hd.eq_of_discover_eq hd' hdiscover hunused

/-- Crawlers that decide alike once do so any number of times. -/
lemma DecideAlike.decideTimes (h : c.DecideAlike σ c' e) (k : Nat) (p : Probability) (n : Nat)
    (source : σ) :
    ((Strategy.coverage k source p).decideTimes c' e n).1 =
        ((Strategy.coverage k source p).decideTimes c e n).1 ∧
      ((Strategy.coverage k source p).decideTimes c' e n).2.1 =
        ((Strategy.coverage k source p).decideTimes c e n).2.1 := by
  have hstep (s s' : Strategy σ) (hs : s = s' ∧ ∃ source, s = .coverage k source p) :
      Coupled (· = ·) (s.decide c' e).outcome (s'.decide c e).outcome ∧
        (s.decide c' e).source = (s'.decide c e).source ∧
        ∃ source, (s.decide c' e).source = .coverage k source p := by
    obtain ⟨rfl, source, rfl⟩ := hs
    obtain ⟨houtcome, hsource⟩ := h p source _ _ (Coverage.decides_decide c p e source)
      (Coverage.decides_decide c' p e source)
    refine ⟨?_, congrArg (Strategy.coverage k · p) hsource, _, rfl⟩
    simp only [Strategy.decide, houtcome]
    exact coupled_self fun _ _ => rfl
  obtain ⟨hanswers, hlast, _⟩ := Strategy.coupled_decideTimes _ hstep ⟨rfl, source, rfl⟩ n
  rw [List.forall₂_eq_eq_eq] at hanswers
  exact ⟨hanswers.eq, hlast⟩

/-! ### Changes that a decision does not see -/

lemma unused_setUsage_iff : (c.setUsage name count).Unused other ↔
    if name = other then count.isZero = true else c.Unused other := by
  rw [Unused, setUsage, OrderedMap.get?_insert]
  by_cases h : name = other <;> simp [h, Unused]

/-- A name that no reached reference has may stand for any rule, or for none. -/
lemma decideAlike_insert (h : ∀ id, ¬ c.scope.Reaches e (.ruleRef id name))
    (rule? : Option Rule) :
    c.DecideAlike σ { c with table := c.table.insert name rule? } e :=
  decideAlike_of_discover_eq (Scope.concurs_insert h rule?).discover_eq fun _ _ _ _ => Iff.rfl

/-- A literal that is not found may have any count, and one that is not unused any count but
zero. -/
lemma decideAlike_setUsage (h : (∀ found, c.scope.discover e = .ok found → name ∉ found) ∨
    ¬ c.Unused name ∧ count.isZero = false) : c.DecideAlike σ (c.setUsage name count) e := by
  have hdiscover : (c.setUsage name count).scope.discover e = c.scope.discover e := rfl
  apply decideAlike_of_discover_eq hdiscover
  intro found hfound other hother
  rw [unused_setUsage_iff]
  split
  · next hname =>
    subst hname
    rcases h with h | ⟨hused, hcount⟩
    · exact absurd hother (h found hfound)
    · simp [hcount, hused]
  · exact Iff.rfl

end Crawler

namespace Session

variable {c c' : Crawler} {s s' : Session} {id : String} {made : Made} {k : Nat}
  {source : Generator} {p : Probability} {e : Element}

/-- Where crawlers decide alike, questions to a strategy have the same outcome and leave it in the
same state. -/
lemma perform_ask_of_decideAlike (h : (s.read k).DecideAlike Generator (s'.read k) e)
    (hmade : s.strategies.get? id = some made) (hmade' : s'.strategies.get? id = some made)
    (hstrategy : made.strategy = .coverage k source p) (n : Nat) :
    (s'.perform (.ask id e n)).outcome = (s.perform (.ask id e n)).outcome ∧
      (s'.perform (.ask id e n)).session.strategies.get? id =
        (s.perform (.ask id e n)).session.strategies.get? id := by
  obtain ⟨houtcome, hlast⟩ := h.decideTimes k p n source
  have hcrawler : s.crawlerOf made.strategy = s.read k := by rw [hstrategy]; rfl
  have hcrawler' : s'.crawlerOf made.strategy = s'.read k := by rw [hstrategy]; rfl
  rw [perform_ask hmade, perform_ask hmade', get?_store, get?_store, if_pos rfl, if_pos rfl,
    hcrawler, hcrawler', hstrategy, houtcome, hlast]
  exact ⟨rfl, rfl⟩

/-- **A decision by coverage hangs on nothing but what the traversal meets and finds.** If two
crawlers have the same rules for the references that are reached, the same pruned names among those
of the nodes that are met, and the same unused literals among those that are found, then they decide
alike: from one state of the source, a question comes to the same decision or to the same fault, and
leaves the source in the same state. So a rule that no reached reference names plays no part, nor
does the count of a literal that is not found, nor a count that is not zero. -/
theorem ask_local (c : Crawler) (e : Element) :
    (∀ c', c.scope.Concurs c'.scope e →
      (∀ found, c.scope.discover e = .ok found →
        ∀ name ∈ found, (c'.Unused name ↔ c.Unused name)) →
      c.DecideAlike Generator c' e ∧
      ∀ (s s' : Session) id made k source p n, s.read k = c → s'.read k = c' →
        s.strategies.get? id = some made → s'.strategies.get? id = some made →
        made.strategy = .coverage k source p →
        (s'.perform (.ask id e n)).outcome = (s.perform (.ask id e n)).outcome ∧
        (s'.perform (.ask id e n)).session.strategies.get? id =
          (s.perform (.ask id e n)).session.strategies.get? id) ∧
    (∀ name rule?, (∀ id, ¬ c.scope.Reaches e (.ruleRef id name)) →
      c.DecideAlike Generator { c with table := c.table.insert name rule? } e) ∧
    ∀ name count, (∀ found, c.scope.discover e = .ok found → name ∉ found) ∨
        ¬ c.Unused name ∧ count.isZero = false →
      c.DecideAlike Generator (c.setUsage name count) e := by
  refine ⟨fun c' hscope hunused => ?_,
    fun name rule? hname => Crawler.decideAlike_insert hname rule?,
    fun name count h => Crawler.decideAlike_setUsage h⟩
  have halike : c.DecideAlike Generator c' e :=
    Crawler.decideAlike_of_discover_eq hscope.discover_eq hunused
  refine ⟨halike, ?_⟩
  rintro s s' id made k source p n rfl rfl hmade hmade' hstrategy
  exact perform_ask_of_decideAlike halike hmade hmade' hstrategy n

/-- Rules for a meal; a rule is missing, but only inside a hidden group. -/
def meals : RuleTable := .ofList [
  ("meal", some ⟨"meal", [[.literal 1 "soup", .ruleRef 2 "bread"],
    [.group 3 "spare" .once [.ruleRef 4 "nothing"]]]⟩),
  ("bread", some ⟨"loaf", [[.literal 5 "rye"], [.separator 6 ","]]⟩)]

def meal : Element := .ruleRef 0 "meal"

def kitchen : Crawler where
  table := meals
  usage := .ofList [("soup", .int 2)]
  pruned := .ofList ["spare"]

/-- A crawler with one more rule, one more pruned name and other counts, that meets the same in a
meal. -/
def otherKitchen : Crawler where
  table := meals.insert "dessert" (some ⟨"dessert", [[.literal 7 "cake"]]⟩)
  usage := .ofList [("cake", .int 0), ("rye", .int 3)]
  pruned := .ofList ["dessert", "spare"]

lemma concurs_otherKitchen : kitchen.scope.Concurs otherKitchen.scope meal := by
  have hterritory : kitchen.scope.territory meal = [meal, .literal 1 "soup", .ruleRef 2 "bread",
      .group 3 "spare" .once [.ruleRef 4 "nothing"], .ruleRef 4 "nothing", .literal 5 "rye",
      .separator 6 ","] := by
    rfl
  constructor
  · intro id name hr
    have hmem := hr.mem_territory
    rw [hterritory] at hmem
    apply RuleTable.rule?_insert_of_ne
    rintro rfl
    simp [meal] at hmem
  · intro e name he hn _
    have hmem := he.mem_territory
    rw [hterritory] at hmem
    have hname : name ≠ "dessert" := by
      rintro rfl
      simp only [List.mem_cons, List.not_mem_nil, or_false] at hmem
      rcases hmem with rfl | rfl | rfl | rfl | rfl | rfl | rfl <;> simp [Element.name?, meal] at hn
    simp [otherKitchen, kitchen, Crawler.scope, hname]

theorem ask_local_kitchen :
    kitchen.scope.discover meal = .ok (.ofList ["soup", "rye"]) ∧
    kitchen.DecideAlike Generator otherKitchen meal ∧
    kitchen.DecideAlike Generator (kitchen.setUsage "rye" (.int 1)) meal := by
  have hfound : kitchen.scope.discover meal = .ok (.ofList ["soup", "rye"]) := by cbv
  obtain ⟨hlocal, _, hcount⟩ := ask_local kitchen meal
  have hunused (name : String) (hn : name ∈ NameSet.ofList ["soup", "rye"]) :
      ¬ otherKitchen.Unused name ∧ ¬ kitchen.Unused name := by
    have hn : name = "soup" ∨ name = "rye" := by simpa using hn
    have hother : otherKitchen.isUnused name = false := by rcases hn with rfl | rfl <;> cbv
    have hown : kitchen.isUnused name = false := by rcases hn with rfl | rfl <;> cbv
    exact ⟨mt Crawler.isUnused_iff.mpr (by simp [hother]),
      mt Crawler.isUnused_iff.mpr (by simp [hown])⟩
  refine ⟨hfound, (hlocal otherKitchen concurs_otherKitchen fun found h name hn => ?_).1, ?_⟩
  · rw [hfound] at h
    cases h
    exact iff_of_false (hunused name hn).1 (hunused name hn).2
  · apply hcount
    exact .inr ⟨(hunused "rye" (by simp)).2, by cbv⟩

end Session

end GrammarCoverage
