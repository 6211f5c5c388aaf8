import GrammarCoverage.Strategy.Registry

/-!
# Sessions

A session is one crawler that is driven, beside others that are not, with any number of strategies
that read them. Its actions ask a strategy about an element, or change the crawler as the driver of
a generation does. Asking changes nothing but the strategy that is asked.
-/

namespace GrammarCoverage

/-- A crawler that is driven, with the strategies and the views that have been made. -/
structure Session where
  crawler : Crawler
  /-- The other crawlers that strategies may read, by their identities. -/
  others : Nat → Crawler := fun id => { Crawler.ofTable .empty with id }
  strategies : OrderedMap String Made := .empty
  views : OrderedMap String Crawler.View := .empty

namespace Session

/-- Something that is done in a session. -/
inductive Action where
  /-- Ask a strategy a number of times about an element. -/
  | ask (id : String) (element : Element) (times : Nat)
  | setUsage (name : String) (count : Value)
  | increment (name : String)
  | dropUsage (name : String)
  | prune (name : String)
  | unprune (name : String)

inductive ActionError where
  /-- No strategy has that name in the session. -/
  | unknownStrategy (id : String)
  /-- A question met a fault of the model. -/
  | fault (f : ModelFault)
  /-- The crawler cannot be changed so. -/
  | change (e : Crawler.ChangeError)

inductive Outcome where
  | done
  /-- The answers to the questions, in order. -/
  | answers (decisions : List Bool)
  | failed (e : ActionError)

/-- An action's outcome with the session after it and the records made on the way. -/
structure Result where
  outcome : Outcome
  session : Session
  events : List Event

/-- Change the crawler, or fail and leave it. -/
def changed (s : Session) : Except Crawler.ChangeError Crawler → Result
  | .ok crawler => ⟨.done, { s with crawler }, []⟩
  | .error e => ⟨.failed (.change e), s, []⟩

/-- The crawler of an identity, as it is now. -/
def read (s : Session) (id : Nat) : Crawler := if id = s.crawler.id then s.crawler else s.others id

@[simp] theorem read_id (s : Session) : s.read s.crawler.id = s.crawler := if_pos rfl

/-- The crawler that a strategy reads; any will do for one that reads none. -/
def crawlerOf (s : Session) (strategy : Strategy Generator) : Crawler :=
  match strategy.crawler? with
  | some id => s.read id
  | none => s.crawler

def perform (s : Session) : Action → Result
  | .ask id element times =>
    match s.strategies.get? id with
    | none => ⟨.failed (.unknownStrategy id), s, []⟩
    | some made =>
      let (answers, strategy, events) :=
        made.strategy.decideTimes (s.crawlerOf made.strategy) element times
      let after := { s with strategies := s.strategies.insert id { made with strategy } }
      match answers with
      | .ok decisions => ⟨.answers decisions, after, events⟩
      | .error f => ⟨.failed (.fault f), after, events⟩
  | .setUsage name count => s.changed (.ok (s.crawler.setUsage name count))
  | .increment name => s.changed (s.crawler.increment name)
  | .dropUsage name => s.changed (s.crawler.dropUsage name)
  | .prune name => s.changed (.ok (s.crawler.prune name))
  | .unprune name => s.changed (s.crawler.unprune name)

def performAll (s : Session) : List Action → List Outcome × Session
  | [] => ([], s)
  | a :: rest =>
    let r := s.perform a
    let (outcomes, last) := performAll r.session rest
    (r.outcome :: outcomes, last)

/-- Keep a strategy under a name; an older one of that name is replaced. -/
def store (s : Session) (id : String) (made : Made) : Session :=
  { s with strategies := s.strategies.insert id made }

/-- The numbers that the source of a named strategy has given out. -/
def drawn (s : Session) (id : String) : Nat :=
  ((s.strategies.get? id).map (·.strategy.drawn)).getD 0

/-- Take a view of the crawler and keep it under a name. -/
def takeView (s : Session) (id : String) (view : Crawler.View) : Session :=
  { s with views := s.views.insert id view }

end Session

end GrammarCoverage
