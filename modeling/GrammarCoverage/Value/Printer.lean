import GrammarCoverage.Number.Decimal
import GrammarCoverage.Text.Quoted
import GrammarCoverage.Value.Basic

/-!
# Text of values

How messages show values: texts in quotes, lists in brackets, mappings and sets in braces with their
members in order, dates and times as calls with their fields. A collection that holds itself is
shown as three dots inside of itself. Integers beyond a number of digits and collections beyond a
depth cannot be shown.
-/

namespace GrammarCoverage

/-! ### Dates and times -/

/-- The call of a name with arguments. -/
def callText (name : String) (args : List String) : String :=
  name ++ "(" ++ ", ".intercalate args ++ ")"

def Date.display (d : Date) : String :=
  callText "datetime.date" ([d.year, d.month, d.day].map toString)

/-- A distance from universal time as messages show it; before it, a day is taken off first. -/
def Moment.displayOffset (o : Int) : String :=
  if o = 0 then "datetime.timezone.utc"
  else
    let fields :=
      if o < 0 then ["days=-1", "seconds=" ++ toString (86400 + 60 * o)]
      else ["seconds=" ++ toString (60 * o)]
    callText "datetime.timezone" [callText "datetime.timedelta" fields]

/-- A time as messages show it. Its last fields are left out where they are zero. -/
def Moment.display (m : Moment) : String :=
  let d := m.date
  let fraction :=
    if m.microsecond ≠ 0 then [m.second, m.microsecond]
    else if m.second ≠ 0 then [m.second]
    else []
  callText "datetime.datetime"
    (([d.year, d.month, d.day, m.hour, m.minute] ++ fraction).map toString
      ++ (m.offset?.map fun o => "tzinfo=" ++ displayOffset o).toList)

namespace Value

/-! ### Writing -/

/-- Bytes as messages show them: those beyond ASCII are escaped. -/
def displayBytes (content : List UInt8) : String :=
  let codes := content.map UInt8.toNat
  let quote := Text.quoteFor codes
  let byteText (n : Nat) := if n < 0x80 then Text.escaped quote n else Text.numericEscape n
  "b" ++ quote.toString ++ String.join (codes.map byteText) ++ quote.toString

/-- The members of a collection between its brackets. -/
def enclosed (opening closing : String) (members : List String) : String :=
  opening ++ ", ".intercalate members ++ closing

mutual
/-- A value as messages show it. -/
def display : Value → String
  | .null => "None"
  | .bool b => if b then "True" else "False"
  | .int n => toString n
  | .float x => x.text
  | .text s => Text.quoted s
  | .illFormed codes => Text.quotedCodes codes
  | .bytes content => displayBytes content
  | .date d => d.display
  | .moment m => m.display
  | .list items => enclosed "[" "]" (displayItems items)
  | .tuple [v] => "(" ++ v.display ++ ",)"
  | .tuple items => enclosed "(" ")" (displayItems items)
  | .set [] => "set()"
  | .set members => enclosed "\x7b" "\x7d" (displayItems members)
  | .mapping entries => enclosed "\x7b" "\x7d" (displayEntries entries)
  | .enclosingList => "[...]"
  | .enclosingMapping => "\x7b...\x7d"

def displayItems : List Value → List String
  | [] => []
  | v :: rest => v.display :: displayItems rest

def displayEntries : List (Value × Value) → List String
  | [] => []
  | (k, v) :: rest => (k.display ++ ": " ++ v.display) :: displayEntries rest
end

/-- A value as part of running text: a text stands for itself. -/
def plain : Value → String
  | .text s => s
  | .date d => d.text
  | .moment m => m.text
  | v => v.display

/-! ### What cannot be shown -/

/-- Why a value cannot be shown. -/
inductive Obstacle where
  /-- An integer has more digits than are written. -/
  | tooManyDigits
  /-- Collections are nested deeper than is followed. -/
  | tooDeep
deriving DecidableEq

/-- Has an integer more digits than are written? The count of its bits decides most cases. -/
def isTooLong (n : Int) : Bool :=
  let bits := n.natAbs.log2
  3 * Number.digitLimit < bits && Nat.pow 10 Number.digitLimit ≤ n.natAbs

mutual
/-- What is met first that cannot be shown, at most `fuel` levels down. -/
def obstacle? : Nat → Value → Option Obstacle
  | 0, _ => some .tooDeep
  | _ + 1, .int n => if isTooLong n then some .tooManyDigits else none
  | fuel + 1, .list items | fuel + 1, .tuple items | fuel + 1, .set items =>
    obstacleInItems? fuel items
  | fuel + 1, .mapping entries => obstacleInEntries? fuel entries
  | _ + 1, _ => none

/-- What is met first in values. -/
def obstacleInItems? : Nat → List Value → Option Obstacle
  | _, [] => none
  | fuel, v :: rest => (obstacle? fuel v).orElse fun _ => obstacleInItems? fuel rest

/-- What is met first in entries. -/
def obstacleInEntries? : Nat → List (Value × Value) → Option Obstacle
  | _, [] => none
  | fuel, (k, v) :: rest =>
    (obstacle? fuel k).orElse fun _ =>
      (obstacle? fuel v).orElse fun _ => obstacleInEntries? fuel rest
end

end Value

end GrammarCoverage
