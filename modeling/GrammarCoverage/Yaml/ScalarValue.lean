import GrammarCoverage.Text.Base64
import GrammarCoverage.Yaml.Schema

/-!
# Values of scalars

The value of a scalar with a given tag. A text that is marked as a number may have any number of
underscores, and its digits may be those of any script. Decimal digits of an integer are limited in
number, and so are the places of a fraction in base 60.
-/

namespace GrammarCoverage.Yaml

/-! ### Numbers -/

/-- The value of digits in a base, after an optional sign and an optional mark of the base. -/
def readInteger? (base : Nat) (text : List Char) : Option Int :=
  let (negative, cs) := Number.takeSign (Number.numeral text)
  let mark := if base = 2 then 'b' else if base = 8 then 'o' else 'x'
  let digits := match cs with
    | '0' :: c :: rest => if base ≠ 10 && c.toLower = mark then rest else cs
    | cs => cs
  let digit? (c : Char) : Option Nat := (hexDigit? c).filter (· < base)
  if digits.isEmpty || base = 10 && Number.digitLimit < digits.length then none
  else (digits.foldlM (fun n c => (digit? c).map (base * n + ·)) 0).map fun (n : Nat) =>
    if negative then -(n : Int) else n

def dropUnderscores (cs : List Char) : List Char := cs.filter (· ≠ '_')

/-- The value of a text that is marked as an integer. -/
def integerValue (text : List Char) : Except Error Int :=
  if (dropUnderscores text).isEmpty then .error .emptyNumber
  else
    let (negative, cs) := Number.takeSign (dropUnderscores text)
    let magnitude : Option Int := match cs with
      | ['0'] => some 0
      | '0' :: 'b' :: digits => readInteger? 2 digits
      | '0' :: 'x' :: digits => readInteger? 16 digits
      | '0' :: _ => readInteger? 8 cs
      | cs =>
        if cs.contains ':' then
          (splitColons cs).foldlM (fun n part => (readInteger? 10 part).map (60 * n + ·)) 0
        else readInteger? 10 cs
    match magnitude with
    | some n => .ok (if negative then -n else n)
    | none => .error (if cs.isEmpty then .emptyNumber else .badNumber)

/-- The sum of digits of base 60, the last one first, each step rounded. The value of each place has
to be in the range of numbers. -/
def sexagesimalSum : List Number → Int → Number → Except Error Number
  | [], _, sum => .ok sum
  | digit :: rest, place, sum =>
    match Number.round (.ofInt place) with
    | .infinity _ => .error .tooManyPlaces
    | x => sexagesimalSum rest (60 * place) (sum.add (digit.mul x))

/-- The text of the undefined number. -/
def nanText : List Char := ".nan".toList

/-- A text that is marked as a decimal fraction, in lower case, as a sign and what follows it. -/
def fractionText (text : List Char) : Bool × List Char :=
  Number.takeSign ((dropUnderscores text).map Char.toLower)

/-- The value of a text that is marked as a decimal fraction. -/
def fractionValue (text : List Char) : Except Error Number := do
  if (dropUnderscores text).isEmpty then throw .emptyNumber
  let (negative, cs) := fractionText text
  let read (part : List Char) : Except Error Number :=
    match Number.ofText? (String.ofList part) with
    | some x => .ok x
    | none => .error .badNumber
  let magnitude ←
    if cs = ".inf".toList then pure (.infinity false)
    else if cs = nanText then pure .nan
    else if cs.contains ':' then do
      let digits ← (splitColons cs).mapM read
      sexagesimalSum digits.reverse 1 0
    else read cs
  return if negative then -magnitude else magnitude

/-! ### Other scalars -/

/-- The value of a text that is marked as a boolean. -/
def booleanValue (text : List Char) : Except Error Value :=
  match booleanWords.find? (·.1 = String.ofList (text.map Char.toLower)) with
  | some (_, b) => .ok (.bool b)
  | none => .error .badBoolean

/-- The value of a text that is marked as a date or time. -/
def timestampValue (text : List Char) : Except Error Value :=
  match Timestamp.read? (dropFinalBreak text) with
  | none => .error .badDateForm
  | some t => match t.value? with
    | some v => .ok v
    | none => .error .badDate

/-- The value of a text that is marked as bytes. -/
def binaryValue (text : List Char) : Except Error Value :=
  match if text.all (·.toNat < 0x80) then Text.Base64.decode text else none with
  | some content => .ok (.bytes content)
  | none => .error .malformed

/-- How a scalar with a tag is read; not every tag is one of scalars. -/
def scalarReader? (tag : String) : Option (Text.Content → Except Error Value) :=
  if tag = standardTag "str" then some fun c => .ok (.ofContent c)
  else if tag = standardTag "null" then some fun _ => .ok .null
  else if tag = standardTag "bool" then some fun c => booleanValue c.chars
  else if tag = standardTag "int" then some fun c => (integerValue c.chars).map .int
  else if tag = standardTag "float" then some fun c => (fractionValue c.chars).map .float
  else if tag = standardTag "timestamp" then some fun c => timestampValue c.chars
  else if tag = standardTag "binary" then some fun c => binaryValue c.chars
  else none

end GrammarCoverage.Yaml
