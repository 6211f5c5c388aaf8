import GrammarCoverage.Number.Basic

/-!
# Rounding to 64 bits

The nearest number with a significand of 53 bits and an exponent of at least -1074, a tie going to
the even significand; what would reach `2 ^ 1024` is infinite. Sums and products are the exact ones,
rounded once.
-/

namespace GrammarCoverage.Number

/-- The exponent of the last bit of every subnormal number. -/
def leastExponent : Int := -1074

/-- The nearest integer to `num / den`, a tie going to the even one. -/
def nearestQuotient (num den : Nat) : Nat :=
  let q := num / den
  let twice := 2 * (num % den)
  if twice < den then q
  else if twice = den then q + q % 2
  else q + 1

/-- `num / den` divided by `2 ^ e`, again as a quotient. -/
def scaleDown (num den : Nat) (e : Int) : Nat × Nat :=
  if 0 ≤ e then (num, den <<< e.toNat) else (num <<< (-e).toNat, den)

/-- The exponent of the last bit that a positive `num / den` keeps. -/
def lastBit (num den : Nat) : Int :=
  let high : Int := (num.log2 : Int) - den.log2
  let (a, b) := scaleDown num den high
  let floorLog := if a < b then high - 1 else high
  max (floorLog - 52) leastExponent

/-- `± significand * 2 ^ e` for a significand of at most 53 bits. -/
def assemble (negative : Bool) (significand : Nat) (e : Int) : Number :=
  if significand = 0 then (if negative then .negativeZero else .finite 0)
  else if 1024 ≤ (significand.log2 : Int) + e then .infinity negative
  else
    let n : Int := if negative then -significand else significand
    .finite (.ofIntWithPrec n (-e))

/-- The 64-bit number nearest to `± num / den`. -/
def roundQuotient (negative : Bool) (num den : Nat) : Number :=
  if num = 0 then assemble negative 0 0
  else
    let e := lastBit num den
    let (a, b) := scaleDown num den e
    assemble negative (nearestQuotient a b) e

/-- The 64-bit number nearest to a dyadic rational. -/
def round : Dyadic → Number
  | .zero => .finite 0
  | .ofOdd n k _ =>
    if 0 ≤ k then roundQuotient (decide (n < 0)) n.natAbs (1 <<< k.toNat)
    else roundQuotient (decide (n < 0)) (n.natAbs <<< (-k).toNat) 1

def add : Number → Number → Number
  | .nan, _ | _, .nan => .nan
  | .infinity a, .infinity b => if a = b then .infinity a else .nan
  | .infinity a, _ | _, .infinity a => .infinity a
  | .negativeZero, .negativeZero => .negativeZero
  | x, y => round (x.toDyadic?.getD 0 + y.toDyadic?.getD 0)

def isNegative : Number → Bool
  | .finite x => decide (x < 0)
  | .negativeZero => true
  | .infinity a => a
  | .nan => false

def mul (x y : Number) : Number :=
  let negative := x.isNegative != y.isNegative
  match x, y with
  | .nan, _ | _, .nan => .nan
  | .infinity _, y => if y.same 0 then .nan else .infinity negative
  | x, .infinity _ => if x.same 0 then .nan else .infinity negative
  | x, y =>
    match round (x.toDyadic?.getD 0 * y.toDyadic?.getD 0) with
    | .finite z => if z = 0 ∧ negative then .negativeZero else .finite z
    | z => z

end GrammarCoverage.Number
