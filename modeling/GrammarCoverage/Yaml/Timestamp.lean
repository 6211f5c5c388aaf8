import GrammarCoverage.Number.Decimal
import GrammarCoverage.Value.Basic

/-!
# Dates and times as scalars

The form of a date, with or without a time of the day. The time may have a fraction of a second, of
which six digits count, and may say how far it is ahead of universal time.
-/

namespace GrammarCoverage.Yaml

/-- A date and a time as they are written. -/
structure Timestamp where
  date : Date
  time? : Option Moment
  /-- Have the month and the day two digits? -/
  isPadded : Bool

namespace Timestamp

/-- Split one or two digits off a text. -/
def shortNumber? : List Char → Option (List Char × List Char)
  | a :: b :: rest =>
    if a.isDigit then if b.isDigit then some ([a, b], rest) else some ([a], b :: rest) else none
  | [a] => if a.isDigit then some ([a], []) else none
  | [] => none

/-- Split two digits off a text. -/
def pair? : List Char → Option (Nat × List Char)
  | a :: b :: rest =>
    if a.isDigit && b.isDigit then some (Number.digitsValue [a, b], rest) else none
  | _ => none

/-- Split a character off a text. -/
def expect? (c : Char) : List Char → Option (List Char)
  | d :: rest => if c = d then some rest else none
  | [] => none

def isBlank (c : Char) : Bool := c = ' ' || c = '\t'

/-- The mark between a date and a time: a letter, or blanks. -/
def separator? : List Char → Option (List Char)
  | 'T' :: rest | 't' :: rest => some rest
  | c :: rest => if isBlank c then some (rest.dropWhile isBlank) else none
  | [] => none

/-- Six digits of a fraction of a second. -/
def microseconds (digits : List Char) : Nat :=
  Number.digitsValue (digits.take 6 ++ List.replicate (6 - digits.length) '0')

/-- The distance from universal time after a sign: hours, and minutes if there are any. -/
def zone? (isAhead : Bool) (cs : List Char) : Option Int := do
  let (hours, rest) ← shortNumber? cs
  let minutes ← match rest with
    | [] => some 0
    | ':' :: rest => match ← pair? rest with
      | (minutes, []) => some minutes
      | _ => none
    | _ => none
  let total : Int := 60 * Number.digitsValue hours + minutes
  return if isAhead then total else -total

/-- The end of a time: what it says of universal time. -/
def offset? (cs : List Char) : Option (Option Int) :=
  if cs.isEmpty then some none
  else
    match cs.dropWhile isBlank with
    | ['Z'] => some (some 0)
    | '+' :: rest => (zone? true rest).map some
    | '-' :: rest => (zone? false rest).map some
    | _ => none

/-- Read the time of a day. -/
def readTime? (date : Date) (cs : List Char) : Option Moment := do
  let (hour, rest) ← shortNumber? cs
  let (minute, rest) ← pair? (← expect? ':' rest)
  let (second, rest) ← pair? (← expect? ':' rest)
  let (fraction, rest) := match rest with
    | '.' :: rest => (rest.takeWhile Char.isDigit, rest.dropWhile Char.isDigit)
    | rest => ([], rest)
  return ⟨date, Number.digitsValue hour, minute, second, microseconds fraction, ← offset? rest⟩

def read? (cs : List Char) : Option Timestamp := do
  let year := cs.take 4
  if year.length < 4 || !year.all Char.isDigit then none
  let (month, rest) ← shortNumber? (← expect? '-' (cs.drop 4))
  let (day, rest) ← shortNumber? (← expect? '-' rest)
  let date : Date :=
    ⟨Number.digitsValue year, Number.digitsValue month, Number.digitsValue day⟩
  let isPadded := month.length = 2 && day.length = 2
  if rest.isEmpty then return ⟨date, none, isPadded⟩
  else return ⟨date, some (← readTime? date (← separator? rest)), isPadded⟩

/-- The value of a date or time. -/
def value? (t : Timestamp) : Option Value :=
  match t.time? with
  | some m => if m.isValid then some (.moment m) else none
  | none => if t.date.isValid then some (.date t.date) else none

end Timestamp

end GrammarCoverage.Yaml
