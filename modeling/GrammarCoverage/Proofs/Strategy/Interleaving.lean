import GrammarCoverage.Proofs.Strategy.Creation
import GrammarCoverage.Session

/-!
# Strategies that share a crawler

Strategies of one session read the same crawlers, and each has a source of numbers of its own. A
question changes nothing but the strategy that is asked, and a change of the crawler leaves the
strategies as they are. So a strategy lives through a run as it would if nobody else had been asked
(`Session.Agree.performAll`), and two strategies that start alike and are asked alike answer alike,
however their questions are mixed.
-/

namespace GrammarCoverage

namespace Session

namespace Action

/-- Is an action a question to a given strategy? -/
def asks (id : String) : Action → Bool
  | .ask id' _ _ => decide (id' = id)
  | _ => false

/-- Does an action concern a strategy? All do but the questions to others. -/
def concerns (id : String) : Action → Bool
  | .ask id' _ _ => decide (id' = id)
  | _ => true

/-- Is an action a question to some strategy? -/
def isQuestion : Action → Bool
  | .ask .. => true
  | _ => false

/-- What a given strategy is asked, and how often. -/
def question? (id : String) : Action → Option (Element × Nat)
  | .ask id' e times => if id' = id then some (e, times) else none
  | _ => none

lemma concerns_of_asks {id : String} {a : Action} (h : a.asks id = true) :
    a.concerns id = true := by
  cases a with
  | ask => exact h
  | _ => rfl

end Action

/-- The outcomes of certain actions in a run of all of them. -/
def outcomesOf (s : Session) (select : Action → Bool) (actions : List Action) : List Outcome :=
  ((actions.zip (s.performAll actions).1).filter (select ·.1)).map Prod.snd

/-- Two sessions agree on a strategy if they have the same crawlers, and the strategy is in the same
state, or missing in both. -/
structure Agree (id : String) (s s' : Session) : Prop where
  crawler : s'.crawler = s.crawler
  others : s'.others = s.others
  strategy : s'.strategies.get? id = s.strategies.get? id

variable {id : String} {s s' s'' : Session} {a : Action} {actions : List Action}

lemma outcomesOf_cons_of_pos {select : Action → Bool} (h : select a = true) :
    s.outcomesOf select (a :: actions) =
      (s.perform a).outcome :: (s.perform a).session.outcomesOf select actions := by
  simp [outcomesOf, performAll, h]

lemma outcomesOf_cons_of_neg {select : Action → Bool} (h : select a = false) :
    s.outcomesOf select (a :: actions) = (s.perform a).session.outcomesOf select actions := by
  simp [outcomesOf, performAll, h]

lemma performAll_cons (s : Session) (a : Action) (actions : List Action) :
    (s.performAll (a :: actions)).2 = ((s.perform a).session.performAll actions).2 :=
  rfl

/-! ### One action -/

/-- The answers to questions, up to the first fault. -/
def Outcome.ofAnswers : Except ModelFault (List Bool) → Outcome
  | .ok decisions => .answers decisions
  | .error f => .failed (.fault f)

lemma get?_store (s : Session) (id id' : String) (made : Made) :
    (s.store id made).strategies.get? id' = if id = id' then some made else s.strategies.get? id' :=
  OrderedMap.get?_insert s.strategies id id' made

/-- Sessions with the same crawlers let a strategy read the same. -/
lemma crawlerOf_congr (hcrawler : s'.crawler = s.crawler) (hothers : s'.others = s.others)
    (strategy : Strategy Generator) : s'.crawlerOf strategy = s.crawlerOf strategy := by
  simp only [crawlerOf, read, hcrawler, hothers]

/-- What a strategy reads depends on the identity of its crawler alone. -/
lemma crawlerOf_eq_of_crawler?_eq {strategy strategy' : Strategy Generator}
    (h : strategy'.crawler? = strategy.crawler?) :
    s.crawlerOf strategy' = s.crawlerOf strategy := by
  simp only [crawlerOf, h]

/-- Questions to a strategy change that strategy alone. -/
lemma perform_ask {made : Made} (h : s.strategies.get? id = some made) (e : Element)
    (times : Nat) :
    let after := made.strategy.decideTimes (s.crawlerOf made.strategy) e times
    s.perform (.ask id e times) =
      ⟨.ofAnswers after.1, s.store id { made with strategy := after.2.1 }, after.2.2⟩ := by
  simp only [perform, h]
  cases (made.strategy.decideTimes (s.crawlerOf made.strategy) e times).1 <;> rfl

lemma perform_ask_of_none (h : s.strategies.get? id = none) (e : Element) (times : Nat) :
    s.perform (.ask id e times) = ⟨.failed (.unknownStrategy id), s, []⟩ := by
  simp only [perform, h]

lemma Agree.refl (id : String) (s : Session) : Agree id s s := ⟨rfl, rfl, rfl⟩

lemma Agree.trans (h : Agree id s s') (h' : Agree id s' s'') : Agree id s s'' :=
  ⟨h'.crawler.trans h.crawler, h'.others.trans h.others, h'.strategy.trans h.strategy⟩

lemma Agree.symm (h : Agree id s s') : Agree id s' s :=
  ⟨h.crawler.symm, h.others.symm, h.strategy.symm⟩

/-- A change of the crawler fails or succeeds alike, and leaves the strategies as they are. -/
lemma Agree.changed (h : Agree id s s') (change : Except Crawler.ChangeError Crawler) :
    (s'.changed change).outcome = (s.changed change).outcome ∧
      Agree id (s.changed change).session (s'.changed change).session := by
  cases change with
  | ok crawler => exact ⟨rfl, rfl, h.others, h.strategy⟩
  | error e => exact ⟨rfl, h⟩

/-- A question to a strategy is answered by its own state and its crawler. -/
lemma Agree.perform_question (h : Agree id s s') (e : Element) (times : Nat) :
    (s'.perform (.ask id e times)).outcome = (s.perform (.ask id e times)).outcome ∧
      Agree id (s.perform (.ask id e times)).session (s'.perform (.ask id e times)).session := by
  cases hs : s.strategies.get? id with
  | none =>
    rw [perform_ask_of_none hs, perform_ask_of_none (h.strategy.trans hs)]
    exact ⟨rfl, h⟩
  | some made =>
    rw [perform_ask hs, perform_ask (h.strategy.trans hs),
      crawlerOf_congr h.crawler h.others made.strategy]
    exact ⟨rfl, h.crawler, h.others, by rw [get?_store, get?_store, if_pos rfl, if_pos rfl]⟩

/-- An action that concerns a strategy has one outcome in sessions that agree on it. -/
lemma Agree.perform (h : Agree id s s') (ha : a.concerns id = true) :
    (s'.perform a).outcome = (s.perform a).outcome ∧
      Agree id (s.perform a).session (s'.perform a).session := by
  cases a with
  | ask id' e times =>
    obtain rfl : id' = id := of_decide_eq_true ha
    exact h.perform_question e times
  | setUsage | increment | dropUsage | prune | unprune =>
    simp only [Session.perform, h.crawler]
    exact h.changed _

/-- A question to another strategy changes nothing that concerns this one. -/
lemma agree_perform (ha : a.concerns id = false) : Agree id s (s.perform a).session := by
  cases a with
  | ask id' e times =>
    have hid : ¬ id' = id := of_decide_eq_false ha
    cases hs : s.strategies.get? id' with
    | none =>
      rw [perform_ask_of_none hs]
      exact .refl id s
    | some made =>
      rw [perform_ask hs]
      exact ⟨rfl, rfl, by rw [get?_store, if_neg hid]⟩
  | _ => cases ha

/-! ### Runs -/

/-- A run without the questions to others has the same outcomes, and leads to sessions that still
agree. -/
lemma Agree.performAll (h : Agree id s s') {select : Action → Bool}
    (hselect : ∀ a, select a = true → a.concerns id = true) (actions : List Action) :
    s'.outcomesOf select (actions.filter (·.concerns id)) = s.outcomesOf select actions ∧
      Agree id (s.performAll actions).2 (s'.performAll (actions.filter (·.concerns id))).2 := by
  induction actions generalizing s s' with
  | nil => exact ⟨rfl, h⟩
  | cons a actions ih =>
    cases ha : a.concerns id with
    | false =>
      have hskip : select a = false := by
        by_contra hsel
        rw [hselect a (by simpa using hsel)] at ha
        cases ha
      rw [List.filter_cons_of_neg (by simp [ha]), outcomesOf_cons_of_neg hskip, performAll_cons]
      exact ih ((agree_perform ha).symm.trans h)
    | true =>
      obtain ⟨houtcome, hagree⟩ := h.perform ha
      obtain ⟨houtcomes, hlast⟩ := ih hagree
      rw [List.filter_cons_of_pos ha, performAll_cons, performAll_cons]
      refine ⟨?_, hlast⟩
      cases hsel : select a with
      | true =>
        rw [outcomesOf_cons_of_pos hsel, outcomesOf_cons_of_pos hsel, houtcome, houtcomes]
      | false => rw [outcomesOf_cons_of_neg hsel, outcomesOf_cons_of_neg hsel, houtcomes]

/-- In a run of questions only, those that concern a strategy are the questions to it. -/
lemma filter_concerns_of_questions (h : ∀ a ∈ actions, a.isQuestion = true) :
    actions.filter (·.concerns id) =
      (actions.filterMap (Action.question? id)).map fun q => .ask id q.1 q.2 := by
  induction actions with
  | nil => rfl
  | cons a actions ih =>
    have ih := ih fun b hb => h b (List.mem_cons_of_mem _ hb)
    cases a with
    | ask id' e times =>
      by_cases hid : id' = id
      · have hq : Action.question? id (.ask id' e times) = some (e, times) := by
          simp [Action.question?, hid]
        rw [List.filter_cons_of_pos (by simp [Action.concerns, hid]), List.filterMap_cons_some hq,
          ih, hid]
        rfl
      · have hq : Action.question? id (.ask id' e times) = none := by
          simp [Action.question?, hid]
        rw [List.filter_cons_of_neg (by simp [Action.concerns, hid]), List.filterMap_cons_none hq,
          ih]
    | _ => cases h _ List.mem_cons_self

/-- Two strategies that start in the same state answer the same questions alike. -/
lemma outcomesOf_questions {id₁ id₂ : String} {made : Made} (hcrawler : s'.crawler = s.crawler)
    (hothers : s'.others = s.others) (h₁ : s.strategies.get? id₁ = some made)
    (h₂ : s'.strategies.get? id₂ = some made)
    (questions : List (Element × Nat)) :
    s'.outcomesOf (Action.asks id₂) (questions.map fun q => .ask id₂ q.1 q.2) =
      s.outcomesOf (Action.asks id₁) (questions.map fun q => .ask id₁ q.1 q.2) := by
  induction questions generalizing s s' made with
  | nil => rfl
  | cons q questions ih =>
    rw [List.map_cons, List.map_cons, outcomesOf_cons_of_pos (by simp [Action.asks]),
      outcomesOf_cons_of_pos (by simp [Action.asks]), perform_ask h₁, perform_ask h₂,
      crawlerOf_congr hcrawler hothers made.strategy]
    congr 1
    exact ih hcrawler hothers (by rw [get?_store, if_pos rfl]) (by rw [get?_store, if_pos rfl])

/-- **What a strategy is asked and answers does not depend on other strategies of the session.**
Without the questions to others, a run gives it the same answers and the same faults, and ends with
the same crawlers and with the strategy in the same state. So two strategies that are made from the
same settings with a seed for one crawler, and that are asked the same questions in a run of
questions only, answer alike, however the questions are mixed. -/
theorem outcomesOf_filter_concerns (s : Session) (id : String) (actions : List Action) :
    s.outcomesOf (Action.asks id) actions =
      s.outcomesOf (Action.asks id) (actions.filter (·.concerns id)) ∧
    (s.performAll actions).2.crawler =
      (s.performAll (actions.filter (·.concerns id))).2.crawler ∧
    (s.performAll actions).2.others = (s.performAll (actions.filter (·.concerns id))).2.others ∧
    (s.performAll actions).2.strategies.get? id =
      (s.performAll (actions.filter (·.concerns id))).2.strategies.get? id ∧
    ∀ (other : String) (settings : Settings) (seed : Int) (crawler₁? crawler₂? : Option Crawler)
      (made₁ made₂ : Made), settings.seed = some seed →
      Registry.SameCrawler crawler₁? crawler₂? →
      Registry.default.build settings crawler₁? = .ok made₁ →
      Registry.default.build settings crawler₂? = .ok made₂ →
      s.strategies.get? id = some made₁ → s.strategies.get? other = some made₂ →
      (∀ a ∈ actions, a.isQuestion = true) →
      actions.filterMap (Action.question? id) = actions.filterMap (Action.question? other) →
      s.outcomesOf (Action.asks id) actions = s.outcomesOf (Action.asks other) actions := by
  obtain ⟨houtcomes, hagree⟩ :=
    (Agree.refl id s).performAll (fun _ => Action.concerns_of_asks) actions
  refine ⟨houtcomes.symm, hagree.crawler.symm, hagree.others.symm, hagree.strategy.symm, ?_⟩
  intro other settings seed crawler₁? crawler₂? made₁ made₂ _ hid hb₁ hb₂ h₁ h₂ hquestions hsame
  obtain rfl := Registry.build_default_unique hid hb₁ hb₂
  obtain ⟨hother, _⟩ :=
    (Agree.refl other s).performAll (fun _ => Action.concerns_of_asks) actions
  rw [← houtcomes, ← hother, filter_concerns_of_questions hquestions,
    filter_concerns_of_questions hquestions, hsame]
  exact (outcomesOf_questions rfl rfl h₁ h₂ _).symm

/-- Settings of a random strategy with a seed. -/
def coinSettings : Settings :=
  { Settings.default with strategy := .string "random", strategy_ne := by decide, seed := some 7 }

/-- What these settings make. -/
def coin : Made := ⟨"RandomCrawl", .random (.ofSeed (some 7)) .half⟩

/-- Two coins with one seed, and a strategy between them that meets a fault. -/
def coinSession : Session where
  crawler := .ofTable .empty
  strategies := ((OrderedMap.empty.insert "left" coin).insert "right" coin).insert "steering"
    ⟨"CoverageAwareCrawl", .coverage 0 (.ofSeed (some 1)) .half⟩

def coinActions : List Action :=
  [.ask "left" (.literal 1 "a") 2, .ask "steering" (.ruleRef 2 "nothing") 1,
    .ask "right" (.literal 1 "a") 2, .ask "right" (.separator 3 ",") 1,
    .ask "steering" (.literal 1 "a") 3, .ask "left" (.separator 3 ",") 1]

theorem outcomesOf_filter_concerns_coins :
    Registry.default.build coinSettings none = .ok coin ∧
    coinSession.outcomesOf (Action.asks "left") coinActions =
      coinSession.outcomesOf (Action.asks "left")
        [.ask "left" (.literal 1 "a") 2, .ask "left" (.separator 3 ",") 1] ∧
    coinSession.outcomesOf (Action.asks "left") coinActions =
      coinSession.outcomesOf (Action.asks "right") coinActions := by
  have hbuild : Registry.default.build coinSettings none = .ok coin := rfl
  have hleft : coinSession.strategies.get? "left" = some coin := by
    simp [coinSession, OrderedMap.get?_insert]
  have hright : coinSession.strategies.get? "right" = some coin := by
    simp [coinSession, OrderedMap.get?_insert]
  obtain ⟨houtcomes, _, _, _, halike⟩ := outcomesOf_filter_concerns coinSession "left" coinActions
  refine ⟨hbuild, houtcomes, ?_⟩
  exact halike "right" coinSettings 7 none none coin coin rfl (by simp [Registry.SameCrawler])
    hbuild hbuild hleft hright (by simp [coinActions, Action.isQuestion])
    (by simp [coinActions, Action.question?])

end Session

end GrammarCoverage
