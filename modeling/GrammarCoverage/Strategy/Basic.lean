import GrammarCoverage.Strategy.Coverage

/-!
# Strategies

A strategy decides whether an element is expanded now. It may read a crawler, which it refers to and
which goes on changing, and it may draw numbers from a source of its own; it never changes the
crawler. Strategies from outside the library answer by a function.
-/

namespace GrammarCoverage

universe u

/-- A strategy with the state of its source of numbers. -/
inductive Strategy (σ : Type u) where
  /-- Expand every element. -/
  | full
  /-- Expand an element when a draw exceeds the threshold. -/
  | random (source : σ) (threshold : Probability)
  /-- Expand an element that can reach an unused literal of a crawler, and others with a given
  chance. -/
  | coverage (crawler : Nat) (source : σ) (fallback : Probability)
  /-- A strategy from outside, with its description. -/
  | external (text : String) (answer : Element → Bool)

namespace Strategy

variable {σ : Type u}

def threshold? : Strategy σ → Option Probability
  | .random _ p => some p
  | _ => none

/-- The chance that a coverage strategy gives to elements without an unused literal. -/
def fallback? : Strategy σ → Option Probability
  | .coverage _ _ p => some p
  | _ => none

/-- The identity of the crawler that a strategy reads, if it reads one. -/
def crawler? : Strategy σ → Option Nat
  | .coverage id _ _ => some id
  | _ => none

/-- The source of numbers of a strategy that has one. -/
def source? : Strategy σ → Option σ
  | .random s _ | .coverage _ s _ => some s
  | .full | .external .. => none

def describe : Strategy σ → String
  | .full => "FullCrawl()"
  | .random _ p => "RandomCrawl(threshold=" ++ p.text ++ ")"
  | .coverage _ _ p => "CoverageAwareCrawl(fallback_probability=" ++ p.text ++ ")"
  | .external text _ => text

/-- Should an element be expanded? The crawler is the one that the strategy reads, as it is now; the
answer comes with the strategy for the next question. -/
def decide [NumberSource σ] (c : Crawler) (e : Element) (s : Strategy σ) :
    Decision (Strategy σ) :=
  match s with
  | .full => ⟨.ok true, s, []⟩
  | .external _ answer => ⟨.ok (answer e), s, []⟩
  | .random source p =>
    let (number, source) := NumberSource.draw source
    ⟨.ok (Decidable.decide (p.value < number)), .random source p, []⟩
  | .coverage id source p =>
    let d := Coverage.decide c p e source
    ⟨d.outcome, .coverage id d.source p, d.events⟩

/-- Ask a number of times about one element, up to the first fault. -/
def decideTimes [NumberSource σ] (c : Crawler) (e : Element) : Nat → Strategy σ →
    Except ModelFault (List Bool) × Strategy σ × List Event
  | 0, s => (.ok [], s, [])
  | n + 1, s =>
    let d := s.decide c e
    match d.outcome with
    | .error f => (.error f, d.source, d.events)
    | .ok b =>
      let (rest, last, events) := decideTimes c e n d.source
      (rest.map (b :: ·), last, d.events ++ events)

/-- How many numbers the source of a strategy has given out. -/
def drawn (s : Strategy Generator) : Nat := (s.source?.map Generator.drawn).getD 0

end Strategy

end GrammarCoverage
