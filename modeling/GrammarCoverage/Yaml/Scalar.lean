import GrammarCoverage.Text.Content
import GrammarCoverage.Yaml.Cursor

/-!
# Scalars

The three ways to write a scalar: between quotes, as a block of indented lines, and plainly. Each
reader yields the text of the scalar and the position after it. Line breaks inside a scalar are
folded: a single one reads as a space, further ones as themselves.
-/

namespace GrammarCoverage.Yaml

/-! ### Between quotes -/

/-- The escapes of one character. -/
def shortEscape? (c : Char) : Option Char :=
  match c with
  | '0' => some '\x00'
  | 'a' => some '\x07'
  | 'b' => some '\x08'
  | 't' | '\t' => some '\t'
  | 'n' => some '\n'
  | 'v' => some '\x0b'
  | 'f' => some '\x0c'
  | 'r' => some '\r'
  | 'e' => some '\x1b'
  | ' ' => some ' '
  | '"' => some '"'
  | '\\' => some '\\'
  | '/' => some '/'
  | 'N' => some '\x85'
  | '_' => some '\xa0'
  | 'L' => some '\u2028'
  | 'P' => some '\u2029'
  | _ => none

/-- The number of hexadecimal digits of the escapes by code point. -/
def escapeWidth? (c : Char) : Option Nat :=
  match c with
  | 'x' => some 2
  | 'u' => some 4
  | 'U' => some 8
  | _ => none

def hexDigit? (c : Char) : Option Nat :=
  if c.isDigit then some (c.toNat - '0'.toNat)
  else if 'a' ≤ c ∧ c ≤ 'f' then some (c.toNat - 'a'.toNat + 10)
  else if 'A' ≤ c ∧ c ≤ 'F' then some (c.toNat - 'A'.toNat + 10)
  else none

def hexValue? (digits : List Char) : Option Nat :=
  digits.foldlM (fun n c => (hexDigit? c).map (16 * n + ·)) 0

/-- The empty lines inside a quoted scalar. No line that begins or ends a document may follow. -/
def quotedBreaks : Nat → Cursor → List Char → Except Error (List Char × Cursor)
  | 0, _, _ => .error .malformed
  | fuel + 1, c, acc =>
    if c.atDocumentMark then .error .malformed
    else
      let c := c.skip fun ch => ch = ' ' || ch = '\t'
      match c.lineBreak? with
      | some (ch, c) => quotedBreaks fuel c (acc ++ [ch])
      | none => .ok (acc, c)

/-- What a first line break and the empty lines after it read as. -/
def folded (first : Char) (breaks : List Char) : List Char :=
  if first ≠ '\n' then first :: breaks
  else if breaks.isEmpty then [' ']
  else breaks

/-- The white space inside a quoted scalar. -/
def quotedSpaces (c : Cursor) : Except Error (List Char × Cursor) := do
  let blank := fun ch => ch = ' ' || ch = '\t'
  let white := c.span blank
  let c := c.skip blank
  if c.head = endMark then throw .malformed
  match c.lineBreak? with
  | none => return (white, c)
  | some (first, c) =>
    let (breaks, c) ← quotedBreaks c.budget c []
    return (folded first breaks, c)

/-- Does a character stand for itself between quotes? -/
def isQuotedChar (c : Char) : Bool := !(c = '\'' || c = '"' || c = '\\' || isGap c)

/-- The code points that an escape after a backslash stands for. -/
def escape (c : Cursor) : Except Error (List Nat × Cursor) :=
  match shortEscape? c.head with
  | some ch => .ok ([ch.toNat], c.next)
  | none =>
    match escapeWidth? c.head with
    | some width =>
      let digits := c.next.rest.take width
      match hexValue? digits with
      | some code =>
        if digits.length < width then .error .malformed
        else if 0x10ffff < code then .error (.badCodePoint code)
        else .ok ([code], Cursor.advance width c.next)
      | none => .error .malformed
    | none =>
      match c.lineBreak? with
      | some (_, c) => (quotedBreaks c.budget c []).map fun r => (r.1.map Char.toNat, r.2)
      | none => .error .malformed

/-- The code points of a quoted scalar up to white space or the closing quote. -/
def quotedWord (double : Bool) : Nat → Cursor → List Nat → Except Error (List Nat × Cursor)
  | 0, _, _ => .error .malformed
  | fuel + 1, c, acc =>
    let acc := acc ++ (c.span isQuotedChar).map Char.toNat
    let c := c.skip isQuotedChar
    let ch := c.head
    if !double && ch = '\'' && c.peek 1 = '\'' then
      quotedWord double fuel (Cursor.advance 2 c) (acc ++ [ch.toNat])
    else if double && ch = '\'' || !double && (ch = '"' || ch = '\\') then
      quotedWord double fuel c.next (acc ++ [ch.toNat])
    else if double && ch = '\\' then
      match escape c.next with
      | .ok (codes, c) => quotedWord double fuel c (acc ++ codes)
      | .error e => .error e
    else .ok (acc, c)

/-- The words and the white space of a quoted scalar up to the closing quote. -/
def quotedRest (double : Bool) : Nat → Cursor → List Nat → Except Error (List Nat × Cursor)
  | 0, _, _ => .error .malformed
  | fuel + 1, c, acc =>
    match quotedWord double c.budget c acc with
    | .error e => .error e
    | .ok (acc, c) =>
      if c.head = (if double then '"' else '\'') then .ok (acc, c.next)
      else
        match quotedSpaces c with
        | .error e => .error e
        | .ok (white, c) => quotedRest double fuel c (acc ++ white.map Char.toNat)

/-- A scalar between quotes. -/
def quotedScalar (c : Cursor) : Except Error (Text.Content × Cursor) := do
  let (codes, c) ← quotedRest (c.head = '"') c.budget c.next []
  return (.ofCodePoints codes, c)

/-! ### As a block -/

/-- What is done with the line breaks at the end of a block. -/
inductive Chomping where
  | clip | strip | keep
deriving DecidableEq

/-- A mark for the line breaks at the end of a block. -/
def chomping? (c : Char) : Option Chomping :=
  if c = '+' then some .keep else if c = '-' then some .strip else none

/-- The digit that gives the indentation of a block; zero is not allowed. -/
def indentDigit (c : Cursor) : Except Error (Option Nat × Cursor) :=
  if c.head.isDigit then
    if c.head = '0' then .error .malformed else .ok (some (c.head.toNat - '0'.toNat), c.next)
  else .ok (none, c)

/-- The marks after the indicator of a block, in either order. -/
def blockHeader (c : Cursor) : Except Error (Chomping × Option Nat × Cursor) := do
  let (chomping, increment, c) ← match chomping? c.head with
    | some chomping => do
      let (increment, c) ← indentDigit c.next
      pure (chomping, increment, c)
    | none => do
      let (increment, c) ← indentDigit c
      match increment, chomping? c.head with
      | some _, some chomping => pure (chomping, increment, c.next)
      | _, _ => pure (.clip, increment, c)
  if isSpaceOrEnd c.head then return (chomping, increment, ← c.finishLine)
  else throw .malformed

/-- The empty lines at the beginning of a block whose indentation is not given, and the widest
indentation among them and the first line of text. -/
def blockIndentation : Nat → Cursor → List Char → Nat → List Char × Nat × Cursor
  | 0, c, acc, widest => (acc, widest, c)
  | fuel + 1, c, acc, widest =>
    if c.head = ' ' then
      let c := c.next
      blockIndentation fuel c acc (max widest c.column)
    else
      match c.lineBreak? with
      | some (ch, c) => blockIndentation fuel c (acc ++ [ch]) widest
      | none => (acc, widest, c)

/-- Skip spaces up to a column. -/
def skipToColumn (column : Nat) : Nat → Cursor → Cursor
  | 0, c => c
  | fuel + 1, c =>
    if c.column < column && c.head = ' ' then skipToColumn column fuel c.next else c

/-- The empty lines between the lines of a block. -/
def blockBreaks (indent : Nat) : Nat → Cursor → List Char → List Char × Cursor
  | 0, c, acc => (acc, c)
  | fuel + 1, c, acc =>
    let c := skipToColumn indent indent c
    match c.lineBreak? with
    | some (ch, c) => blockBreaks indent fuel c (acc ++ [ch])
    | none => (acc, c)

/-- The lines of a block: its text without the last line break, that line break, the empty lines
after it, and the position after them. -/
def blockLines (isFolded : Bool) (indent : Nat) :
    Nat → Cursor → List Char → List Char → List Char × List Char × List Char × Cursor
  | 0, c, acc, breaks => (acc, [], breaks, c)
  | fuel + 1, c, acc, breaks =>
    if c.column = indent && c.head ≠ endMark then
      let blank := fun ch => ch = ' ' || ch = '\t'
      let plainLine := !blank c.head
      let inLine := fun ch => !isBreakOrEnd ch
      let acc := acc ++ breaks ++ c.span inLine
      let c := c.skip inLine
      let (last, c) : List Char × Cursor := match c.lineBreak? with
        | some (ch, c) => ([ch], c)
        | none => ([], c)
      let (breaks, c) := blockBreaks indent c.budget c []
      if c.column = indent && c.head ≠ endMark then
        let acc :=
          if isFolded && last = ['\n'] && plainLine && !blank c.head then
            if breaks.isEmpty then acc ++ [' '] else acc
          else acc ++ last
        blockLines isFolded indent fuel c acc breaks
      else (acc, last, breaks, c)
    else (acc, [], breaks, c)

/-- A scalar that is written as a block inside a given indentation. -/
def blockScalar (outer : Int) (c : Cursor) : Except Error (Text.Content × Cursor) := do
  let isFolded := c.head = '>'
  let (chomping, increment, c) ← blockHeader c.next
  let least := max 1 (outer + 1).toNat
  let (breaks, indent, c) := match increment with
    | none =>
      let (breaks, widest, c) := blockIndentation c.budget c [] 0
      (breaks, max least widest, c)
    | some n =>
      let indent := least + n - 1
      let (breaks, c) := blockBreaks indent c.budget c []
      (breaks, indent, c)
  let (text, last, breaks, c) := blockLines isFolded indent c.budget c [] breaks
  let ending := match chomping with
    | .strip => []
    | .clip => last
    | .keep => last ++ breaks
  return (.string (String.ofList (text ++ ending)), c)

/-! ### Plainly -/

/-- Does a plain scalar end at this position? -/
def endsPlain (inFlow : Bool) (c : Char) (after : Char) : Bool :=
  isGap c || c = ':' && (isGap after || inFlow && [',', '[', ']', '\x7b', '\x7d'].contains after)
    || inFlow && [',', '?', '[', ']', '\x7b', '\x7d'].contains c

/-- The length of the next piece of a plain scalar. -/
def plainLength (inFlow : Bool) : List Char → Nat
  | [] => 0
  | c :: rest =>
    if endsPlain inFlow c (rest.head?.getD endMark) then 0 else plainLength inFlow rest + 1

/-- The empty lines inside a plain scalar; none if a line begins or ends a document. -/
def plainBreaks : Nat → Cursor → List Char → Option (List Char) × Cursor
  | 0, c, acc => (some acc, c)
  | fuel + 1, c, acc =>
    if c.head = ' ' then plainBreaks fuel c.next acc
    else
      match c.lineBreak? with
      | some (ch, c) =>
        if c.atDocumentMark then (none, c) else plainBreaks fuel c (acc ++ [ch])
      | none => (some acc, c)

/-- What may follow a piece of a plain scalar: white space, with a mark that says whether a line has
ended in it. -/
structure PlainGap where
  white : List Char
  newLine : Bool
  cursor : Cursor

/-- The white space after a piece of a plain scalar. It is empty if the scalar ends here. -/
def plainGap (c : Cursor) : PlainGap :=
  let isSpace := fun ch => ch = ' '
  let white := c.span isSpace
  let c := c.skip isSpace
  match c.lineBreak? with
  | none => ⟨white, false, c⟩
  | some (first, c) =>
    if c.atDocumentMark then ⟨[], true, c⟩
    else
      match plainBreaks c.budget c [] with
      | (some breaks, c) => ⟨folded first breaks, true, c⟩
      | (none, c) => ⟨[], true, c⟩

/-- A plain scalar with the position after it. -/
structure Plain where
  text : List Char
  /-- Has a line ended in the white space after the last piece? -/
  newLine : Bool
  cursor : Cursor

/-- The pieces of a plain scalar inside a given indentation. -/
def plainPieces (inFlow : Bool) (indent : Int) : Nat → Plain → List Char → Plain
  | 0, p, _ => p
  | fuel + 1, p, white =>
    let c := p.cursor
    let n := if c.head = '#' then 0 else plainLength inFlow c.rest
    if n = 0 then p
    else
      let gap := plainGap (Cursor.advance n c)
      let p := ⟨p.text ++ white ++ c.rest.take n, gap.newLine, gap.cursor⟩
      if gap.white.isEmpty || gap.cursor.head = '#' || !inFlow && (gap.cursor.column : Int) < indent
      then p
      else plainPieces inFlow indent fuel p gap.white

/-- A scalar that is written plainly inside a given indentation. -/
def plainScalar (inFlow : Bool) (outer : Int) (c : Cursor) : Plain :=
  plainPieces inFlow (outer + 1) c.budget ⟨[], false, c⟩ []

end GrammarCoverage.Yaml
