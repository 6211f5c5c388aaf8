import GrammarCoverage.Number.Basic

/-!
# The Mersenne Twister

The generator MT19937: a state of 624 words of 32 bits, renewed as a whole when all of its words
have been given out. An integer seeds it through the words of its absolute value. A uniform number
from `[0, 1)` takes two outputs and has 53 bits; an index below a bound takes the top bits of single
outputs until they fit.
-/

namespace GrammarCoverage

/-- A state of the generator: the current block of words, and how many of them are given out. -/
structure MersenneTwister where
  words : Array UInt32
  used : Nat

namespace MersenneTwister

def size : Nat := 624

/-- The distance of the word that is mixed in. -/
def shift : Nat := 397

/-! ### Seeding -/

/-- The mixture of a word with its own top bits that all seeding is made of. -/
def folded (w : UInt32) : UInt32 := w ^^^ (w >>> 30)

/-- The block of a single word. -/
def ofWord (seed : UInt32) : Array UInt32 :=
  (List.range (size - 1)).foldl
    (fun ws i => ws.push (1812433253 * folded (ws.getD i 0) + (i + 1).toUInt32)) #[seed]

/-- The place after `i` in the rounds of seeding, which pass over the first word. When the last word
has been reached it is copied to the front. -/
def advance (ws : Array UInt32) (i : Nat) : Array UInt32 × Nat :=
  if i + 1 < size then (ws, i + 1) else (ws.setIfInBounds 0 (ws.getD (size - 1) 0), 1)

/-- Mix the words of a key into a block, in `n` steps from the places `i` and `j` on. -/
def mixKey (key : Array UInt32) : Nat → Array UInt32 → Nat → Nat → Array UInt32 × Nat
  | 0, ws, i, _ => (ws, i)
  | n + 1, ws, i, j =>
    let w := (ws.getD i 0 ^^^ (folded (ws.getD (i - 1) 0) * 1664525)) + key.getD j 0 + j.toUInt32
    let (ws, i) := advance (ws.setIfInBounds i w) i
    mixKey key n ws i (if j + 1 < key.size then j + 1 else 0)

/-- Mix the places of a block into it, in `n` steps from the place `i` on. -/
def mixPlaces : Nat → Array UInt32 → Nat → Array UInt32
  | 0, ws, _ => ws
  | n + 1, ws, i =>
    let w := (ws.getD i 0 ^^^ (folded (ws.getD (i - 1) 0) * 1566083941)) - i.toUInt32
    let (ws, i) := advance (ws.setIfInBounds i w) i
    mixPlaces n ws i

def ofKey (key : Array UInt32) : Array UInt32 :=
  let (ws, i) := mixKey key (max size key.size) (ofWord 19650218) 1 0
  (mixPlaces (size - 1) ws i).setIfInBounds 0 0x80000000

/-- The words of 32 bits of a number, the lowest first. -/
def wordsOf (n : Nat) : List UInt32 :=
  if n < 0x100000000 then [n.toUInt32] else n.toUInt32 :: wordsOf (n / 0x100000000)
termination_by n

/-- The generator of a seed. The sign of the seed does not matter. -/
def ofSeed (seed : Int) : MersenneTwister := ⟨ofKey (wordsOf seed.natAbs).toArray, size⟩

/-! ### Output -/

/-- The word that replaces the one at a place of the block. -/
def renewed (ws : Array UInt32) (i : Nat) : UInt32 :=
  let y := (ws.getD i 0 &&& 0x80000000) ||| (ws.getD ((i + 1) % size) 0 &&& 0x7fffffff)
  ws.getD ((i + shift) % size) 0 ^^^ (y >>> 1) ^^^ (if y &&& 1 = 0 then 0 else 0x9908b0df)

/-- The next block; each new word sees the new ones before it. -/
def renew (ws : Array UInt32) : Array UInt32 :=
  (List.range size).foldl (fun ws i => ws.setIfInBounds i (renewed ws i)) ws

def temper (y : UInt32) : UInt32 :=
  let y := y ^^^ (y >>> 11)
  let y := y ^^^ ((y <<< 7) &&& 0x9d2c5680)
  let y := y ^^^ ((y <<< 15) &&& 0xefc60000)
  y ^^^ (y >>> 18)

def next (g : MersenneTwister) : UInt32 × MersenneTwister :=
  if g.used < size then (temper (g.words.getD g.used 0), { g with used := g.used + 1 })
  else
    let words := renew g.words
    (temper (words.getD 0 0), ⟨words, 1⟩)

/-- The number from `[0, 1)` with the top 27 bits of one output and the top 26 of the next. -/
def uniform (high low : UInt32) : Number :=
  .finite (.ofIntWithPrec ((high >>> 5).toNat <<< 26 + (low >>> 6).toNat : Nat) 53)

/-- The next uniform number from `[0, 1)`. -/
def draw (g : MersenneTwister) : Number × MersenneTwister :=
  let (high, g) := g.next
  let (low, g) := g.next
  (uniform high low, g)

def bitLength (n : Nat) : Nat := if n = 0 then 0 else n.log2 + 1

/-- The first of the next `tries` outputs whose top `bits` bits are below `n`, or 0 when none is. -/
def drawBelow (bits n : Nat) : Nat → MersenneTwister → Nat × MersenneTwister
  | 0, g => (0, g)
  | tries + 1, g =>
    let (w, g) := g.next
    let index := (w >>> (32 - bits).toUInt32).toNat
    if index < n then (index, g) else drawBelow bits n tries g

/-- An index below a positive bound. At least half of all outputs fit, so that the bound on the
number of tries is never met in practice. -/
def pick (g : MersenneTwister) (n : Nat) : Nat × MersenneTwister :=
  drawBelow (bitLength n) n 1000000 g

theorem drawBelow_lt {bits n : Nat} (hn : 0 < n) (tries : Nat) (g : MersenneTwister) :
    (drawBelow bits n tries g).1 < n := by
  induction tries generalizing g with
  | zero => exact hn
  | succ tries ih =>
    simp only [drawBelow]
    split
    · assumption
    · exact ih _

end MersenneTwister

end GrammarCoverage
