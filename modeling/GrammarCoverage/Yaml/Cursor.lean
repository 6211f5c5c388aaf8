/-!
# Reading positions

A position in a document: what is left of it, how much has been passed, and the line and column that
this comes to. A line ends at a carriage return, a line feed or both together, at a next-line
character, and at a line or paragraph separator. Past the end stands a null character, which no
document holds.
-/

namespace GrammarCoverage.Yaml

/-- Why a document has no value. -/
inductive Error where
  /-- The document breaks a rule of the format. -/
  | malformed
  /-- An escape stands for a number above the last code point. -/
  | badCodePoint (code : Nat)
  /-- A scalar that is marked as a number is none. -/
  | badNumber
  /-- A scalar that is marked as a number has no digits at all. -/
  | emptyNumber
  /-- A numeral of base 60 has more places than fit the range of numbers. -/
  | tooManyPlaces
  /-- A scalar that is marked as a boolean is none. -/
  | badBoolean
  /-- A scalar that is marked as a date or time has not its form. -/
  | badDateForm
  /-- A mapping that stands for a scalar is marked as a date or time. -/
  | dateOfMapping
  /-- A date is not in the calendar, or a time not on the clock. -/
  | badDate
  /-- Nodes are nested deeper than is followed. -/
  | tooDeep
deriving DecidableEq

/-- The character that stands past the end. -/
def endMark : Char := '\x00'

def isBreak (c : Char) : Bool :=
  c = '\n' || c = '\r' || c = '\x85' || c = '\u2028' || c = '\u2029'

/-- Does a character end a line, or is it past the end? -/
def isBreakOrEnd (c : Char) : Bool := c = endMark || isBreak c

/-- Does a character end a word: a space, a tab, the end of the line or of the document? -/
def isGap (c : Char) : Bool := c = ' ' || c = '\t' || isBreakOrEnd c

/-- Is a character a space or the end of a line or of the document? -/
def isSpaceOrEnd (c : Char) : Bool := c = ' ' || isBreakOrEnd c

/-- May a character stand in a name? -/
def isNameChar (c : Char) : Bool := c.isAlphanum || c = '-' || c = '_'

/-- May a character stand in a document? -/
def isAllowed (c : Char) : Bool :=
  let n := c.toNat
  n = 0x9 || n = 0xa || n = 0xd || 0x20 ≤ n && n ≤ 0x7e || n = 0x85 || 0xa0 ≤ n && n ≤ 0xd7ff
    || 0xe000 ≤ n && n ≤ 0xfffd || 0x10000 ≤ n

/-- A position in a document. -/
structure Cursor where
  rest : List Char
  index : Nat := 0
  line : Nat := 0
  column : Nat := 0

namespace Cursor

def peek (c : Cursor) (k : Nat) : Char := (c.rest[k]?).getD endMark

def head (c : Cursor) : Char := c.peek 0

/-- The position after the next character. A byte order mark takes no column. -/
def next (c : Cursor) : Cursor :=
  match c.rest with
  | [] => c
  | ch :: rest =>
    if isBreak ch && !(ch = '\r' && rest.head? = some '\n') then
      ⟨rest, c.index + 1, c.line + 1, 0⟩
    else ⟨rest, c.index + 1, c.line, if ch = '\uFEFF' then c.column else c.column + 1⟩

/-- The position after a number of characters. -/
def advance : Nat → Cursor → Cursor
  | 0, c => c
  | n + 1, c => advance n c.next

/-- The characters up to the first that fails a test. -/
def span (c : Cursor) (p : Char → Bool) : List Char := c.rest.takeWhile p

/-- The position after the characters that pass a test. -/
def skip (c : Cursor) (p : Char → Bool) : Cursor := advance (c.span p).length c

/-- Pass the end of a line, if it is here; what it reads as comes with the position after it. -/
def lineBreak? (c : Cursor) : Option (Char × Cursor) :=
  if c.head = '\r' && c.peek 1 = '\n' then some ('\n', advance 2 c)
  else if c.head = '\n' || c.head = '\r' || c.head = '\x85' then some ('\n', c.next)
  else if c.head = '\u2028' || c.head = '\u2029' then some (c.head, c.next)
  else none

/-- Do three equal characters and a gap stand here, as between two documents? -/
def atMark (c : Cursor) (ch : Char) : Bool :=
  c.head = ch && c.peek 1 = ch && c.peek 2 = ch && isGap (c.peek 3)

/-- Does a line here begin or end a document? -/
def atDocumentMark (c : Cursor) : Bool := c.atMark '-' || c.atMark '.'

/-- Skip spaces and a comment; then the line has to end. -/
def finishLine (c : Cursor) : Except Error Cursor :=
  let c := c.skip (· = ' ')
  let c := if c.head = '#' then c.skip (!isBreak ·) else c
  match c.lineBreak? with
  | some (_, c) => .ok c
  | none => if c.head = endMark then .ok c else .error .malformed

/-- How many steps of a loop can pass characters: one for each that is left, and one to stop. -/
def budget (c : Cursor) : Nat := c.rest.length + 1

end Cursor

end GrammarCoverage.Yaml
