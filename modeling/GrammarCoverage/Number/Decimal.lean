import GrammarCoverage.Number.Rounding
import GrammarCoverage.Text.Digit

/-!
# Decimal text of numbers

A number is written with the fewest digits that read back as the same 64-bit number, the nearest of
those to its value. Decimal text is read as the nearest 64-bit number.
-/

namespace GrammarCoverage.Number

/-! ### Writing -/

/-- Where positional notation ends and how exponents look. -/
structure Layout where
  /-- The least exponent that is written positionally. -/
  least : Int
  /-- The least exponent from which on numbers are written with an exponent again. -/
  bound : Int
  /-- The least number of digits of an exponent. -/
  exponentWidth : Nat

/-- Numbers from `10 ^ -4` up to `10 ^ 16` are positional; exponents have two digits at least. -/
def layout : Layout := ⟨-4, 16, 2⟩

/-- `10 ^ p` as a quotient. -/
def powerOfTen (p : Int) : Nat × Nat :=
  if 0 ≤ p then (.pow 10 p.toNat, 1) else (1, .pow 10 (-p).toNat)

def digitCount (n : Nat) : Nat := (Nat.toDigits 10 n).length

/-- The exponent of the leading decimal digit of a positive `num / den`. -/
def leadingExponent (num den : Nat) : Int :=
  let high : Int := (digitCount num : Int) - digitCount den
  let (a, b) := powerOfTen high
  if a * den ≤ num * b then high else high - 1

/-- The interval of reals that round to `significand * 2 ^ e`, in units of `2 ^ (e - 2)`. -/
structure Interval where
  low : Nat
  mid : Nat
  high : Nat
  closed : Bool

/-- The interval around a significand; below a power of two the neighbour is half as far. -/
def Interval.around (significand : Nat) (e : Int) : Interval where
  low := 4 * significand - (if significand = 1 <<< 52 ∧ leastExponent < e then 1 else 2)
  mid := 4 * significand
  high := 4 * significand + 2
  closed := significand % 2 = 0

/-- Does the interval hold `num / den`, given in the same unit? -/
def Interval.holds (i : Interval) (num den : Nat) : Bool :=
  if i.closed then i.low * den ≤ num && num ≤ i.high * den
  else i.low * den < num && num < i.high * den

/-- A decimal `digits * 10 ^ exponent`. -/
structure Decimal where
  digits : Nat
  exponent : Int

/-- Of the two neighbours of a value on the grid `10 ^ p`, the one to write, if one reads back. -/
def onGrid? (i : Interval) (e p : Int) : Option Decimal :=
  -- a grid point `d` is `d * num / den` in units of the interval
  let (tenNum, tenDen) := powerOfTen p
  let (num, den) := scaleDown tenNum tenDen (e - 2)
  let below := i.mid * den / num
  let above := below + 1
  let lowFits := i.holds (below * num) den
  let highFits := i.holds (above * num) den
  if lowFits && highFits then
    let left := i.mid * den - below * num
    let right := above * num - i.mid * den
    some ⟨if left < right ∨ (left = right ∧ below % 2 = 0) then below else above, p⟩
  else if lowFits then some ⟨below, p⟩
  else if highFits then some ⟨above, p⟩
  else none

/-- The first of the grids with 1, 2, … digits that has a decimal which reads back. -/
def shortestFrom (i : Interval) (e lead : Int) (size : Nat) : Nat → Decimal
  | 0 => ⟨0, 0⟩
  | fuel + 1 =>
    match onGrid? i e (lead - size) with
    | some d => d
    | none => shortestFrom i e lead (size + 1) fuel

/-- Drop the zeros at the end of the digits. -/
def Decimal.normalize (d : Decimal) : Nat → Decimal
  | 0 => d
  | fuel + 1 =>
    if d.digits ≠ 0 ∧ d.digits % 10 = 0 then
      Decimal.normalize ⟨d.digits / 10, d.exponent + 1⟩ fuel
    else d

/-- The shortest decimal of a positive `num / den`; seventeen digits are always enough. -/
def shortest (num den : Nat) : Decimal :=
  let e := lastBit num den
  let (a, b) := scaleDown num den e
  (shortestFrom (.around (a / b) e) e (leadingExponent num den) 0 17).normalize 17

/-- The text of an exponent, with its sign. -/
def exponentText (l : Layout) (p : Int) : String :=
  let digits := Nat.toDigits 10 p.natAbs
  (if p < 0 then "-" else "+")
    ++ String.ofList (List.replicate (l.exponentWidth - digits.length) '0' ++ digits)

/-- A decimal in positional notation or with an exponent, as the layout says. -/
def Decimal.text (l : Layout) (d : Decimal) : String :=
  let digits := Nat.toDigits 10 d.digits
  let lead : Int := d.exponent + digits.length - 1
  if lead < l.least ∨ l.bound ≤ lead then
    let fraction := digits.drop 1
    String.ofList (digits.take 1)
      ++ (if fraction.isEmpty then "" else "." ++ String.ofList fraction)
      ++ "e" ++ exponentText l lead
  else if lead < 0 then
    "0." ++ String.ofList (List.replicate (-lead - 1).toNat '0' ++ digits)
  else
    let whole := lead.toNat + 1
    let zeros := List.replicate (whole - digits.length) '0'
    let fraction := digits.drop whole
    String.ofList (digits.take whole ++ zeros) ++ "."
      ++ (if fraction.isEmpty then "0" else String.ofList fraction)

def text : Number → String
  | .finite .zero => "0.0"
  | .finite (.ofOdd n k _) =>
    let (num, den) :=
      if 0 ≤ k then (n.natAbs, 1 <<< k.toNat) else (n.natAbs <<< (-k).toNat, 1)
    (if n < 0 then "-" else "") ++ (shortest num den).text layout
  | .negativeZero => "-0.0"
  | .infinity negative => if negative then "-inf" else "inf"
  | .nan => "nan"

/-! ### Reading -/

/-- The value of a list of digits. -/
def digitsValue (digits : List Char) : Nat :=
  digits.foldl (fun n c => 10 * n + (c.toNat - '0'.toNat)) 0

/-- The nearest number to `± digits * 10 ^ exponent`. Exponents far out of range are cut first, so
that no huge power is computed. -/
def ofDecimal (negative : Bool) (digits : Nat) (exponent : Int) : Number :=
  let lead : Int := exponent + digitCount digits
  if digits = 0 ∨ lead < -400 then assemble negative 0 0
  else if 400 < lead then .infinity negative
  else
    let (num, den) := powerOfTen exponent
    roundQuotient negative (digits * num) den

/-- Split digits off a text. An underscore may stand between two digits. -/
def takeDigits : List Char → List Char × List Char
  | '_' :: c :: rest => if c.isDigit then
      let (digits, rest) := takeDigits rest
      (c :: digits, rest)
    else ([], '_' :: c :: rest)
  | c :: rest => if c.isDigit then
      let (digits, rest) := takeDigits rest
      (c :: digits, rest)
    else ([], c :: rest)
  | [] => ([], [])

/-- Split off digits that do not begin with an underscore. -/
def takeNumeral : List Char → List Char × List Char
  | '_' :: rest => ([], '_' :: rest)
  | cs => takeDigits cs

/-- Split off a sign. -/
def takeSign : List Char → Bool × List Char
  | '-' :: rest => (true, rest)
  | '+' :: rest => (false, rest)
  | cs => (false, cs)

/-- The exponent at the end of a decimal text; none is zero. -/
def readExponent? : List Char → Option Int
  | [] => some 0
  | c :: rest =>
    if c = 'e' ∨ c = 'E' then
      let (negative, rest) := takeSign rest
      match takeNumeral rest with
      | ([], _) => none
      | (digits, []) =>
        let n : Int := digitsValue digits
        some (if negative then -n else n)
      | _ => none
    else none

/-- Read digits with an optional fraction and exponent. -/
def readDecimal? (negative : Bool) (cs : List Char) : Option Number :=
  let (whole, rest) := takeNumeral cs
  let (fraction, rest) := match rest with
    | '.' :: rest => takeNumeral rest
    | rest => ([], rest)
  if whole.isEmpty ∧ fraction.isEmpty then none
  else (readExponent? rest).map fun e =>
    ofDecimal negative (digitsValue (whole ++ fraction)) (e - fraction.length)

/-- The greatest number of decimal digits of an integer that is read or written. -/
def digitLimit : Nat := 4300

/-- Is a character a blank that may stand around a number? -/
def isBlank (c : Char) : Bool :=
  c = ' ' || c = '\t' || c = '\n' || c = '\r' || c = '\x0b' || c = '\x0c'

/-- Drop the blanks around a text. -/
def trimBlanks (cs : List Char) : List Char :=
  ((cs.dropWhile isBlank).reverse.dropWhile isBlank).reverse

/-- The characters of a number in ASCII, without the blanks around them. -/
def numeral (cs : List Char) : List Char := trimBlanks (cs.map Text.toNumeric)

/-- Read the text of a number: a decimal with optional sign, fraction and exponent, or a name of
infinity or of the undefined number in any case. Its digits may be those of any script. -/
def ofText? (s : String) : Option Number :=
  let (negative, cs) := takeSign (numeral s.toList)
  let word := String.ofList (cs.map Char.toLower)
  if word = "inf" ∨ word = "infinity" then some (.infinity negative)
  else if word = "nan" then some .nan
  else readDecimal? negative cs

end GrammarCoverage.Number
