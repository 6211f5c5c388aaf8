import GrammarCoverage.Proofs.Generation.Guidance
import GrammarCoverage.Proofs.Strategy.Coupling
import GrammarCoverage.Proofs.Strategy.Interleaving

/-!
# Strategies that differ in their chance

How many numbers a question draws depends on the crawler and the element alone, not on the chance
with which the draw is compared. So two strategies of one kind that start with the same source keep
it in the same state for as long as they are asked the same, and draw for draw the one with the
better chance approves whatever the other approves (`Session.performAll_toBoth`).
-/

namespace GrammarCoverage

universe u

open NumberSource

/-! ### Answers side by side -/

/-- Every approval of the first answer is one of the second. -/
def Entails (b b' : Bool) : Prop := b = true → b' = true

namespace Coverage

variable {σ : Type u} [NumberSource σ] {p q : Probability}

lemma exists_after_decide (c : Crawler) (e : Element) :
    ∃ k, ∀ (p : Probability) (source : σ),
      (Coverage.decide c p e source).source = NumberSource.after source k := by
  cases h : c.scope.discover e with
  | error f => exact ⟨0, fun p source => ((decides_decide c p e source).of_fault h).2⟩
  | ok found =>
    by_cases hu : ∃ name ∈ found, c.Unused name
    · exact ⟨0, fun p source => ((decides_decide c p e source).of_unused h hu).2⟩
    · exact ⟨1, fun p source => ((decides_decide c p e source).of_used h hu).2⟩

lemma coupled_decide (h : p.value ≤ q.value) (c : Crawler) (e : Element) (source : σ) :
    Coupled Entails (Coverage.decide c p e source).outcome
      (Coverage.decide c q e source).outcome := by
  refine (coupled_decides (decides_decide ..) (decides_decide ..) id fun hlt => ?_).1
  exact decide_eq_true (Number.lt_of_lt_of_le (of_decide_eq_true hlt) h)

end Coverage

namespace Strategy

variable {σ : Type u} {s s' : Strategy σ}

/-- Two strategies of one kind with one source, and one crawler if they read any, of which the
second has the better chance. -/
inductive AtMost : Strategy σ → Strategy σ → Prop where
  | random (source : σ) {p q : Probability} (h : q.value ≤ p.value) :
      AtMost (.random source p) (.random source q)
  | coverage (k : Nat) (source : σ) {p q : Probability} (h : p.value ≤ q.value) :
      AtMost (.coverage k source p) (.coverage k source q)

lemma AtMost.source?_eq (h : s.AtMost s') : s'.source? = s.source? := by
  cases h <;> rfl

lemma AtMost.crawler?_eq (h : s.AtMost s') : s'.crawler? = s.crawler? := by
  cases h <;> rfl

variable [NumberSource σ] {c : Crawler} {e : Element}

/-- A strategy after some draws from its source. -/
def after : Strategy σ → Nat → Strategy σ
  | .random source p, k => .random (NumberSource.after source k) p
  | .coverage id source p, k => .coverage id (NumberSource.after source k) p
  | s, _ => s

@[simp] lemma after_zero (s : Strategy σ) : s.after 0 = s := by
  cases s <;> rfl

@[simp] lemma crawler?_after (s : Strategy σ) (k : Nat) : (s.after k).crawler? = s.crawler? := by
  cases s <;> rfl

lemma after_after (s : Strategy σ) (k m : Nat) : (s.after k).after m = s.after (k + m) := by
  cases s <;> simp [after, NumberSource.after_after]

lemma AtMost.after (h : s.AtMost s') (k : Nat) : (s.after k).AtMost (s'.after k) := by
  cases h with
  | random source h => exact .random _ h
  | coverage id source h => exact .coverage id _ h

lemma exists_after_decide (c : Crawler) (e : Element) (s : Strategy σ) :
    ∃ k, (s.decide c e).source = s.after k := by
  cases s with
  | full | external _ _ => exact ⟨0, rfl⟩
  | random source p => exact ⟨1, rfl⟩
  | coverage id source p =>
    obtain ⟨k, hk⟩ := Coverage.exists_after_decide (σ := σ) c e
    exact ⟨k, congrArg (Strategy.coverage id · p) (hk p source)⟩

/-- Both strategies draw equally often, and the second approves whatever the first approves. -/
lemma AtMost.decide (h : s.AtMost s') (c : Crawler) (e : Element) :
    ∃ k, (s.decide c e).source = s.after k ∧ (s'.decide c e).source = s'.after k ∧
      Coupled Entails (s.decide c e).outcome (s'.decide c e).outcome := by
  cases h with
  | @random source p q h =>
    refine ⟨1, rfl, rfl, .ok fun hlt => ?_⟩
    have hlt : p.value < (draw source).1 := of_decide_eq_true hlt
    exact decide_eq_true (Number.lt_of_le_of_lt h hlt)
  | @coverage id source p q h =>
    obtain ⟨k, hk⟩ := Coverage.exists_after_decide (σ := σ) c e
    exact ⟨k, congrArg (Strategy.coverage id · p) (hk p source),
      congrArg (Strategy.coverage id · q) (hk q source), Coverage.coupled_decide h c e source⟩

/-! ### A number of questions -/

lemma AtMost.decideTimes (h : s.AtMost s') (c : Crawler) (e : Element) (n : Nat) :
    Coupled (List.Forall₂ Entails) (s.decideTimes c e n).1 (s'.decideTimes c e n).1 ∧
      ∃ k, (s.decideTimes c e n).2.1 = s.after k ∧ (s'.decideTimes c e n).2.1 = s'.after k := by
  -- along the way both have drawn equally often
  refine coupled_decideTimes (fun t t' => ∃ k, t = s.after k ∧ t' = s'.after k) ?_
    ⟨0, (after_zero s).symm, (after_zero s').symm⟩ n
  rintro _ _ ⟨k, rfl, rfl⟩
  obtain ⟨m, hm, hm', hanswers⟩ := (h.after k).decide c e
  exact ⟨hanswers, k + m, hm.trans (after_after ..), hm'.trans (after_after ..)⟩

/-- What holds of an answer after any number of draws holds of all answers. -/
lemma forall_mem_decideTimes {P : Bool → Prop}
    (hP : ∀ k b, ((s.after k).decide c e).outcome = .ok b → P b) {n : Nat} {bs : List Bool}
    (h : (s.decideTimes c e n).1 = .ok bs) : ∀ b ∈ bs, P b := by
  have hstep (t t' : Strategy σ) (ht : t = t' ∧ ∃ k, t = s.after k) :
      Coupled (fun _ b => P b) (t.decide c e).outcome (t'.decide c e).outcome ∧
        (t.decide c e).source = (t'.decide c e).source ∧
        ∃ k, (t.decide c e).source = s.after k := by
    obtain ⟨rfl, k, rfl⟩ := ht
    obtain ⟨m, hm⟩ := exists_after_decide c e (s.after k)
    exact ⟨coupled_self (hP k), rfl, k + m, hm.trans (after_after ..)⟩
  obtain ⟨hanswers, _⟩ := coupled_decideTimes _ hstep ⟨rfl, 0, (after_zero s).symm⟩ n
  exact List.forall₂_same.mp (hanswers.of_ok h)

/-! ### The ends of the scale -/

variable {id : Nat} {source : σ} {p : Probability}

/-- With a chance of zero exactly the elements that are wanted are approved. -/
lemma decide_of_le_zero (hd : DrawsFractions source) (hp : p.value ≤ 0) {b : Bool}
    (h : ((coverage id source p).decide c e).outcome = .ok b) : b = true ↔ c.Wants e := by
  obtain ⟨found, hfound⟩ : ∃ found, c.scope.discover e = .ok found := by
    cases hfound : c.scope.discover e with
    | ok found => exact ⟨found, rfl⟩
    | error f =>
      have hfault := ((Coverage.decides_decide c p e source).of_fault hfound).1
      cases hfault.symm.trans h
  cases ((Coverage.decide_of_zero hp hd hfound).1.symm.trans h)
  rw [← Guide.promises_unused_iff hfound]
  simp only [Crawler.isUnused_iff]
  exact ⟨fun he => Crawler.wants_of_promises he hfound, Crawler.Wants.promises⟩

lemma decide_of_one_le (hd : DrawsFractions source) (hp : 1 ≤ p.value) {b : Bool}
    (h : ((coverage id source p).decide c e).outcome = .ok b) : b = true := by
  have hdecides := Coverage.decides_decide c p e source
  have h : (Coverage.decide c p e source).outcome = .ok b := h
  cases hfound : c.scope.discover e with
  | error f =>
    rw [(hdecides.of_fault hfound).1] at h
    cases h
  | ok found =>
    by_cases hu : ∃ name ∈ found, c.Unused name
    · rw [(hdecides.of_unused hfound hu).1] at h
      cases h
      rfl
    · rw [(hdecides.of_used hfound hu).1] at h
      cases h
      exact decide_eq_true (Number.lt_of_lt_of_le (hd 0).2 hp)

lemma decide_of_one_le_threshold (hd : DrawsFractions source) (hp : 1 ≤ p.value) {b : Bool}
    (h : ((random source p).decide c e).outcome = .ok b) : b = false := by
  cases h
  apply decide_eq_false
  intro hlt
  exact Number.lt_irrefl _ (Number.lt_of_lt_of_le (Number.lt_of_lt_of_le (hd 0).2 hp)
    (Number.le_iff.mpr (.inl hlt)))

end Strategy

/-! ### Runs -/

def Made.after (made : Made) (k : Nat) : Made :=
  { made with strategy := made.strategy.after k }

namespace Session

/-- A question to one of two strategies is put to both, one after the other. -/
def Action.toBoth (low high : String) : Action → List Action
  | .ask id e n => if id = low ∨ id = high then [.ask low e n, .ask high e n] else [.ask id e n]
  | a => [a]

/-- The same fault, or as many answers, where every approval of the first is one of the second. -/
inductive Outcome.AtMost : Outcome → Outcome → Prop where
  | answers {bs bs' : List Bool} (h : List.Forall₂ Entails bs bs') :
      AtMost (.answers bs) (.answers bs')
  | fault (f : ModelFault) : AtMost (.failed (.fault f)) (.failed (.fault f))

/-- Two strategies of a session, as they have been made, after the same number of draws. -/
structure BothAfter (low high : String) (made made' : Made) (k : Nat) (s : Session) : Prop where
  low : s.strategies.get? low = some (made.after k)
  high : s.strategies.get? high = some (made'.after k)

variable {s : Session} {low high : String} {made made' : Made} {k : Nat}

lemma Outcome.AtMost.of_coupled {r r' : Except ModelFault (List Bool)}
    (h : Coupled (List.Forall₂ Entails) r r') :
    Outcome.AtMost (.ofAnswers r) (.ofAnswers r') := by
  cases h with
  | fault f => exact .fault f
  | ok h => exact .answers h

lemma performAll_append (s : Session) (actions actions' : List Action) :
    (s.performAll (actions ++ actions')).2 = ((s.performAll actions).2.performAll actions').2 := by
  induction actions generalizing s with
  | nil => rfl
  | cons a actions ih => exact ih _

lemma BothAfter.high_of_ask (h : BothAfter low high made made' k s) (hne : low ≠ high) (e : Element)
    (n : Nat) :
    (s.perform (.ask low e n)).session.strategies.get? high = some (made'.after k) :=
  (agree_perform (a := .ask low e n) (decide_eq_false hne)).strategy.trans h.high

/-- A question that is put to both strategies draws the same number of times from both sources. -/
lemma BothAfter.ask (h : BothAfter low high made made' k s) (hne : low ≠ high)
    (hle : made.strategy.AtMost made'.strategy) (e : Element) (n : Nat) :
    let first := s.perform (.ask low e n)
    let second := first.session.perform (.ask high e n)
    Outcome.AtMost first.outcome second.outcome ∧
      ∃ m, BothAfter low high made made' m second.session := by
  intro first second
  have hfirst : first = _ := perform_ask h.low e n
  have hsecond : second = _ := perform_ask (s := first.session) (h.high_of_ask hne e n) e n
  -- both read the same crawler, which is as it was at the first question
  have hlow : s.crawlerOf (made.after k).strategy = s.crawlerOf made.strategy :=
    crawlerOf_eq_of_crawler?_eq (Strategy.crawler?_after _ _)
  have hhigh : first.session.crawlerOf (made'.after k).strategy = s.crawlerOf made.strategy := by
    rw [hfirst]
    exact crawlerOf_eq_of_crawler?_eq ((Strategy.crawler?_after _ _).trans hle.crawler?_eq)
  obtain ⟨hcoupled, m, hm, hm'⟩ := (hle.after k).decideTimes (s.crawlerOf made.strategy) e n
  rw [hlow] at hfirst
  rw [hhigh] at hsecond
  refine ⟨?_, k + m, ?_, ?_⟩
  · rw [hfirst, hsecond]
    exact .of_coupled hcoupled
  · rw [hsecond, get?_store, if_neg hne.symm, hfirst, get?_store, if_pos rfl]
    simp only [Made.after, hm, Strategy.after_after]
  · rw [hsecond, get?_store, if_pos rfl]
    simp only [Made.after, hm', Strategy.after_after]

lemma BothAfter.changed (h : BothAfter low high made made' k s)
    (change : Except Crawler.ChangeError Crawler) :
    BothAfter low high made made' k (s.changed change).session := by
  cases change with
  | ok crawler => exact ⟨h.low, h.high⟩
  | error e => exact h

lemma BothAfter.step (h : BothAfter low high made made' k s) (hne : low ≠ high)
    (hle : made.strategy.AtMost made'.strategy) (a : Action) :
    ∃ m, BothAfter low high made made' m (s.performAll (a.toBoth low high)).2 := by
  cases a with
  | ask id e n =>
    by_cases hid : id = low ∨ id = high
    · rw [Action.toBoth, if_pos hid]
      exact (h.ask hne hle e n).2
    · rw [Action.toBoth, if_neg hid]
      obtain ⟨hlow, hhigh⟩ := not_or.mp hid
      have hothers {id' : String} (hid' : id ≠ id') :
          (s.perform (.ask id e n)).session.strategies.get? id' = s.strategies.get? id' :=
        (agree_perform (a := .ask id e n) (decide_eq_false hid')).strategy
      exact ⟨k, (hothers hlow).trans h.low, (hothers hhigh).trans h.high⟩
  | setUsage | increment | dropUsage | prune | unprune => exact ⟨k, h.changed _⟩

lemma BothAfter.run (h : BothAfter low high made made' k s) (hne : low ≠ high)
    (hle : made.strategy.AtMost made'.strategy) (actions : List Action) :
    ∃ m, BothAfter low high made made' m
      (s.performAll (actions.flatMap (Action.toBoth low high))).2 := by
  induction actions generalizing s k with
  | nil => exact ⟨k, h⟩
  | cons a actions ih =>
    obtain ⟨m, hm⟩ := h.step hne hle a
    rw [List.flatMap_cons, performAll_append]
    exact ih hm

/-- What holds of a strategy's answers after any number of draws holds of its answers now. -/
lemma forall_mem_of_ask {id : String} (h : s.strategies.get? id = some (made.after k))
    {Q : Bool → Prop} {e : Element}
    (hQ : ∀ m b, ((made.strategy.after m).decide (s.crawlerOf made.strategy) e).outcome = .ok b →
      Q b)
    {n : Nat} {bs : List Bool} (hbs : (s.perform (.ask id e n)).outcome = .answers bs) :
    ∀ b ∈ bs, Q b := by
  have hcrawler : s.crawlerOf (made.after k).strategy = s.crawlerOf made.strategy :=
    crawlerOf_eq_of_crawler?_eq (Strategy.crawler?_after _ _)
  rw [perform_ask h, hcrawler] at hbs
  cases hanswers :
      (Strategy.decideTimes (s.crawlerOf made.strategy) e n (made.after k).strategy).1 with
  | error f =>
    rw [hanswers] at hbs
    cases hbs
  | ok bs' =>
    rw [hanswers] at hbs
    cases hbs
    refine Strategy.forall_mem_decideTimes (fun m b hb => ?_) hanswers
    rw [Made.after, Strategy.after_after] at hb
    exact hQ (k + m) b hb

/-- **A better chance never costs an approval.** Two strategies of a session decide by the coverage
of one crawler, or both by chance, and start with the same source; the second has the better chance.
Whatever is done in the session, as long as every question to one is put to the other too: after
every question both sources are in the same state, both have met the same fault or neither has met
one, and whatever the first has approved the second has approved. If the numbers drawn are
fractions, then a strategy with a chance of zero approves exactly what reaches an unused literal,
one with a chance of one approves whatever has no fault, and a threshold of one is never exceeded.
-/
theorem performAll_toBoth (s : Session) (hne : low ≠ high)
    (hlow : s.strategies.get? low = some made) (hhigh : s.strategies.get? high = some made')
    (hle : made.strategy.AtMost made'.strategy) (actions : List Action) (e : Element) (n : Nat) :
    let now := (s.performAll (actions.flatMap (Action.toBoth low high))).2
    let first := now.perform (.ask low e n)
    let second := first.session.perform (.ask high e n)
    Outcome.AtMost first.outcome second.outcome ∧
    (∃ k, second.session.strategies.get? low = some (made.after k) ∧
      second.session.strategies.get? high = some (made'.after k) ∧
      (made'.after k).strategy.source? = (made.after k).strategy.source?) ∧
    ∀ source, DrawsFractions source →
      (∀ k p, made.strategy = .coverage k source p → p.value ≤ 0 → ∀ bs,
        first.outcome = .answers bs → ∀ b ∈ bs, (b = true ↔ (now.read k).Wants e)) ∧
      (∀ k p, made'.strategy = .coverage k source p → 1 ≤ p.value → ∀ bs,
        second.outcome = .answers bs → ∀ b ∈ bs, b = true) ∧
      (∀ p, made.strategy = .random source p → 1 ≤ p.value → ∀ bs,
        first.outcome = .answers bs → ∀ b ∈ bs, b = false) := by
  intro now first second
  have hstart : BothAfter low high made made' 0 s := by
    constructor <;> simpa [Made.after]
  obtain ⟨k, hnow⟩ := hstart.run hne hle actions
  obtain ⟨houtcomes, m, hafter⟩ := hnow.ask hne hle e n
  refine ⟨houtcomes, ⟨m, hafter.low, hafter.high, (hle.after m).source?_eq⟩,
    fun source hd => ⟨?_, ?_, ?_⟩⟩
  · intro id p hstrategy hp bs hbs
    refine forall_mem_of_ask hnow.low (fun j b hb => ?_) hbs
    rw [hstrategy] at hb
    exact Strategy.decide_of_le_zero (hd.after j) hp hb
  · intro id p hstrategy hp bs hbs
    refine forall_mem_of_ask (hnow.high_of_ask hne e n) (fun j b hb => ?_) hbs
    rw [hstrategy] at hb
    exact Strategy.decide_of_one_le (hd.after j) hp hb
  · intro p hstrategy hp bs hbs
    refine forall_mem_of_ask hnow.low (fun j b hb => ?_) hbs
    rw [hstrategy] at hb
    exact Strategy.decide_of_one_le_threshold (hd.after j) hp hb

/-- The chance of something that is certain, or that is impossible. -/
def chance (b : Bool) : Probability where
  value := if b then 1 else 0
  zero_le := by cases b <;> decide
  le_one := by cases b <;> decide

/-- A session of two strategies. -/
def duel (low high : Made) : Session where
  crawler := { Crawler.ofTable .empty with usage := .ofList [("a", .int 0)] }
  strategies := (OrderedMap.empty.insert "low" low).insert "high" high

lemma get?_duel (low high : Made) : (duel low high).strategies.get? "low" = some low ∧
    (duel low high).strategies.get? "high" = some high := by
  simp [duel, OrderedMap.get?_insert]

def steering (b : Bool) : Made := ⟨"CoverageAwareCrawl", .coverage 0 (.ofNumbers []) (chance b)⟩

def tossing (b : Bool) : Made := ⟨"RandomCrawl", .random (.ofSeed (some 7)) (chance b)⟩

/-- A literal is asked about before and after its first use, and in between a fault is met. -/
def duelActions : List Action :=
  [.ask "low" (.literal 1 "a") 2, .ask "high" (.ruleRef 2 "nothing") 1, .prune "nothing",
    .increment "a", .ask "high" (.literal 1 "a") 1]

/-- The duel of two strategies that decide by coverage when all has been put to both. -/
def afterDuel : Session :=
  ((duel (steering false) (steering true)).performAll
    (duelActions.flatMap (Action.toBoth "low" "high"))).2

theorem performAll_toBoth_duel :
    let low := afterDuel.perform (.ask "low" (.literal 1 "a") 1)
    let high := low.session.perform (.ask "high" (.literal 1 "a") 1)
    low.outcome = .answers [false] ∧ high.outcome = .answers [true] ∧
    Outcome.AtMost low.outcome high.outcome ∧ ¬ afterDuel.crawler.Wants (.literal 1 "a") ∧
    ∀ n bs, ((((duel (tossing true) (tossing false)).performAll
      (duelActions.flatMap (Action.toBoth "low" "high"))).2.perform
        (.ask "low" (.literal 1 "a") n)).outcome = .answers bs → ∀ b ∈ bs, b = false) := by
  have hlow : (afterDuel.perform (.ask "low" (.literal 1 "a") 1)).outcome =
      .answers [false] := by
    cbv
  have hhigh : ((afterDuel.perform (.ask "low" (.literal 1 "a") 1)).session.perform
      (.ask "high" (.literal 1 "a") 1)).outcome = .answers [true] := by
    cbv
  obtain ⟨hcoverage, hcoverage'⟩ := get?_duel (steering false) (steering true)
  obtain ⟨hle, _, hends⟩ := performAll_toBoth _ (by decide) hcoverage hcoverage'
    (.coverage 0 _ (by decide)) duelActions (.literal 1 "a") 1
  have hwants := (hends _ (Generator.drawsFractions_script (by simp) 0 0)).1 0 (chance false) rfl
    (by decide) _ hlow false (by simp)
  have hid : afterDuel.crawler.id = 0 := by cbv
  have hread : afterDuel.read 0 = afterDuel.crawler :=
    (congrArg afterDuel.read hid.symm).trans afterDuel.read_id
  refine ⟨hlow, hhigh, hle, fun hw => ?_, fun n => ?_⟩
  · rw [← hread] at hw
    exact Bool.false_ne_true (hwants.mpr hw)
  · obtain ⟨hrandom, hrandom'⟩ := get?_duel (tossing true) (tossing false)
    obtain ⟨_, _, hends⟩ := performAll_toBoth _ (by decide) hrandom hrandom'
      (.random _ (by decide)) duelActions (.literal 1 "a") n
    exact (hends _ (Generator.drawsFractions_twister _ 0)).2.2 (chance true) rfl (by decide)

end Session

end GrammarCoverage
