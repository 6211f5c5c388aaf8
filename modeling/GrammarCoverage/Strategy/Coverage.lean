import GrammarCoverage.Crawler
import GrammarCoverage.Log
import GrammarCoverage.Random.Source
import GrammarCoverage.Reachability.Traversal
import GrammarCoverage.Settings.Probability

/-!
# Decisions by coverage

An element is expanded when a literal that it can reach is tracked and unused. When there is none, a
draw decides with a given chance. The names are looked through in the order in which they are given,
up to the first unused one; the decision does not depend on that order, the records do.
-/

namespace GrammarCoverage

universe u

/-- What looking through names for an unused literal comes to. -/
structure Search where
  /-- The names without an entry that were passed. -/
  untracked : List String
  /-- The unused literal at which the search ended. -/
  unused : Option String

/-- Look through names for an unused literal. -/
def Crawler.search (c : Crawler) : List String → Search
  | [] => ⟨[], none⟩
  | name :: rest =>
    match c.count? name with
    | none =>
      let found := c.search rest
      ⟨name :: found.untracked, found.unused⟩
    | some count => if count.isZero then ⟨[], some name⟩ else c.search rest

/-- A decision with the state of the source after it and the records made on the way. -/
structure Decision (σ : Type u) where
  outcome : Except ModelFault Bool
  source : σ
  events : List Event

namespace Coverage

variable {σ : Type u} [NumberSource σ]

/-- Decide on an element whose literals are known, looking through them in the given order. -/
def decideAmong (c : Crawler) (fallback : Probability) (e : Element) (names : List String)
    (source : σ) : Decision σ :=
  let found := c.search names
  let passed := found.untracked.map Event.untracked
  match found.unused with
  | some name => ⟨.ok true, source, passed ++ [.unused e name]⟩
  | none =>
    let (number, source) := NumberSource.draw source
    let decision := decide (number < fallback.value)
    ⟨.ok decision, source, passed ++ [.fallback names.length e decision]⟩

/-- Decide on an element: discover its literals, then look through them. A fault of the model is
passed on, without a draw and without a record. -/
def decide (c : Crawler) (fallback : Probability) (e : Element) (source : σ) : Decision σ :=
  match c.scope.discover e with
  | .error f => ⟨.error f, source, []⟩
  | .ok found =>
    let d := decideAmong c fallback e found.names source
    { d with events := .discovered found.size e :: d.events }

end Coverage

end GrammarCoverage
