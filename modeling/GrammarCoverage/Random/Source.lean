import GrammarCoverage.Random.MersenneTwister

/-!
# Sources of randomness

What strategies and generators need of randomness: numbers to compare with a probability, and
indices to pick an item by. A strategy works with any source of numbers, a generator with any source
of indices; the program's own source is the Mersenne Twister, or a fixed list of numbers that is
given out in turn.
-/

namespace GrammarCoverage

universe u

/-- A state that gives out numbers. -/
class NumberSource (σ : Type u) where
  /-- The next number, and the state after it. -/
  draw : σ → Number × σ

/-- A state that gives out indices below a positive bound. -/
class IndexSource (γ : Type u) where
  /-- The next index below `n`, and the state after it. -/
  pick : γ → (n : Nat) → 0 < n → Fin n × γ

instance : NumberSource MersenneTwister := ⟨MersenneTwister.draw⟩

instance : IndexSource MersenneTwister where
  pick g n hn := (⟨(g.pick n).1, MersenneTwister.drawBelow_lt hn _ g⟩, (g.pick n).2)

/-- Numbers that are given out in turn, from the first again after the last. -/
structure Script where
  numbers : List Number
  /-- The place of the next number. -/
  position : Nat

/-- The next number of a script; a script without numbers gives out zeros. -/
def Script.draw (s : Script) : Number × Script :=
  (s.numbers.getD s.position 0,
    { s with position := if s.position + 1 < s.numbers.length then s.position + 1 else 0 })

instance : NumberSource Script := ⟨Script.draw⟩

/-- A source of numbers of either kind. -/
inductive Generator.Source where
  | twister (g : MersenneTwister)
  | script (s : Script)

/-- The source of numbers of a strategy, with a count of the numbers it has given out. -/
structure Generator where
  source : Generator.Source
  drawn : Nat := 0

namespace Generator

/-- The generator of a seed. Where no seed is given any generator will do; the seed is 0 then. -/
def ofSeed (seed : Option Int) : Generator := { source := .twister (.ofSeed (seed.getD 0)) }

def ofNumbers (numbers : List Number) : Generator := { source := .script ⟨numbers, 0⟩ }

def draw (g : Generator) : Number × Generator :=
  match g.source with
  | .twister t => (t.draw.1, ⟨.twister t.draw.2, g.drawn + 1⟩)
  | .script s => (s.draw.1, ⟨.script s.draw.2, g.drawn + 1⟩)

instance : NumberSource Generator := ⟨draw⟩

def draws (g : Generator) : Nat → List Number
  | 0 => []
  | n + 1 => g.draw.1 :: draws g.draw.2 n

end Generator

end GrammarCoverage
