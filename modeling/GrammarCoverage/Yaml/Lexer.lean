import GrammarCoverage.Number.Decimal
import GrammarCoverage.Yaml.Scalar
import GrammarCoverage.Yaml.Token

/-!
# Tokens of a text

A text is read from left to right. Outside of flow collections the column of a token opens and
closes blocks. A key need not be marked: whatever may turn out to be one is remembered with its
place, and when a value indicator follows on the same line, the tokens of a key are put in there
afterwards. Until that is settled, the tokens from such a place on cannot be read; so a fault that
comes before hides them.
-/

namespace GrammarCoverage.Yaml

/-- A place where a key may have begun. -/
structure KeyPlace where
  /-- The number of tokens before it. -/
  token : Nat
  /-- Must it be a key, because it opens a line of a block? -/
  required : Bool
  index : Nat
  line : Nat
  column : Nat

/-- The state of reading. -/
structure Lexer where
  cursor : Cursor
  tokens : Array Token := #[]
  /-- The number of flow collections that are open. -/
  flowDepth : Nat := 0
  /-- The column of the innermost block; outside of blocks -1. -/
  indent : Int := -1
  /-- The columns of the blocks around it. -/
  indents : List Int := []
  /-- May a key without mark begin here? -/
  keyAllowed : Bool := true
  /-- The place where a key may have begun, for each depth of flow collections. -/
  keys : List (Nat × KeyPlace) := []

namespace Lexer

def inFlow (l : Lexer) : Bool := l.flowDepth ≠ 0

def emit (l : Lexer) (t : Token) : Lexer := { l with tokens := l.tokens.push t }

/-- Add a token and pass a number of characters. -/
def emitOver (l : Lexer) (n : Nat) (t : Token) : Lexer :=
  { l.emit t with cursor := Cursor.advance n l.cursor }

/-! ### Possible keys -/

/-- The place where a key of the present depth may have begun. -/
def key? (l : Lexer) : Option KeyPlace :=
  (l.keys.find? (·.1 = l.flowDepth)).map Prod.snd

/-- Forget the place where a key of the present depth may have begun. -/
def dropKey (l : Lexer) : Lexer := { l with keys := l.keys.filter (·.1 ≠ l.flowDepth) }

/-- Forget that place, unless it must be a key. -/
def removeKey (l : Lexer) : Except Error Lexer :=
  match l.key? with
  | some k => if k.required then .error .malformed else .ok l.dropKey
  | none => .ok l

/-- Remember that a key may begin here. -/
def saveKey (l : Lexer) : Except Error Lexer :=
  if l.keyAllowed then do
    let c := l.cursor
    let place : KeyPlace :=
      ⟨l.tokens.size, !l.inFlow && l.indent = c.column, c.index, c.line, c.column⟩
    let l ← l.removeKey
    return { l with keys := l.keys ++ [(l.flowDepth, place)] }
  else .ok l

/-- The length up to which a key without mark is recognised. -/
def keyReach : Nat := 1024

/-- Forget the places on earlier lines or too far back, unless one of them must be a key. -/
def dropStaleKeys (l : Lexer) : Except Error Lexer :=
  let stale := fun (k : Nat × KeyPlace) =>
    k.2.line ≠ l.cursor.line || keyReach < l.cursor.index - k.2.index
  if l.keys.any fun k => stale k && k.2.required then .error .malformed
  else .ok { l with keys := l.keys.filter fun k => !stale k }

/-! ### Blocks -/

/-- Close the blocks that are indented further than a column. -/
def unwind (l : Lexer) (column : Int) : Lexer :=
  if l.inFlow then l else go l.indents l
where
  go : List Int → Lexer → Lexer
    | [], l => l
    | outer :: rest, l =>
      if column < l.indent then
        go rest { l with indent := outer, indents := rest, tokens := l.tokens.push .blockEnd }
      else l

/-- Open a block at a column, if that is further in than the present one. -/
def indentTo (l : Lexer) (column : Nat) : Option Lexer :=
  if l.indent < column then
    some { l with indents := l.indent :: l.indents, indent := column }
  else none

/-- Open a block at the present column with a token for its kind, if that is further in. -/
def openBlock (l : Lexer) (t : Token) : Lexer :=
  match l.indentTo l.cursor.column with
  | some l => l.emit t
  | none => l

/-! ### White space -/

/-- Skip spaces, comments and line ends. Outside of flow collections, a new line may begin a key. -/
def skipToToken : Nat → Lexer → Lexer
  | 0, l => l
  | fuel + 1, l =>
    let c := l.cursor.skip (· = ' ')
    let c := if c.head = '#' then c.skip (!isBreak ·) else c
    match c.lineBreak? with
    | some (_, c) =>
      skipToToken fuel { l with cursor := c, keyAllowed := l.keyAllowed || !l.inFlow }
    | none => { l with cursor := c }

/-- Skip a byte order mark at the beginning and all white space. -/
def skipBlank (l : Lexer) : Lexer :=
  let c := l.cursor
  let c := if c.index = 0 && c.head = '\uFEFF' then c.next else c
  skipToToken c.budget { l with cursor := c }

/-! ### Directives -/

def name (c : Cursor) : Except Error (String × Cursor) :=
  let chars := c.span isNameChar
  if chars.isEmpty then .error .malformed
  else .ok (String.ofList chars, c.skip isNameChar)

def number (c : Cursor) : Except Error (Nat × Cursor) :=
  let digits := c.span Char.isDigit
  if digits.isEmpty then .error .malformed
  else if Number.digitLimit < digits.length then .error .badNumber
  else .ok (Number.digitsValue digits, c.skip Char.isDigit)

/-- Check that a word ends here. -/
def wordEnd (c : Cursor) : Except Error Cursor :=
  if isSpaceOrEnd c.head then .ok c else .error .malformed

/-- The version in a directive. -/
def versionDirective (c : Cursor) : Except Error (Token × Cursor) := do
  let (major, c) ← number (c.skip (· = ' '))
  if c.head ≠ '.' then throw .malformed
  let (minor, c) ← number c.next
  return (.versionDirective major minor, ← wordEnd c)

/-- The handle of a tag: an exclamation mark, or a name between two of them. -/
def tagHandle (c : Cursor) : Except Error (String × Cursor) :=
  if c.head ≠ '!' then .error .malformed
  else if c.peek 1 = ' ' then .ok ("!", c.next)
  else
    let chars := c.next.span isNameChar
    let c := c.next.skip isNameChar
    if c.head = '!' then .ok ("!" ++ String.ofList chars ++ "!", c.next)
    else .error .malformed

/-- May a character stand in a tag? -/
def isTagChar (c : Char) : Bool :=
  c.isAlphanum || "-;/?:@&=+$,_.!~*'()[]".toList.contains c

/-- The bytes of escapes with percent signs. -/
def percentBytes : Nat → Cursor → List Nat → Except Error (List Nat × Cursor)
  | 0, _, _ => .error .malformed
  | fuel + 1, c, acc =>
    if c.head = '%' then
      match hexDigit? (c.peek 1), hexDigit? (c.peek 2) with
      | some a, some b => percentBytes fuel (Cursor.advance 3 c) (acc ++ [16 * a + b])
      | _, _ => .error .malformed
    else .ok (acc, c)

/-- The characters of a tag after its handle. -/
def tagChars : Nat → Cursor → List Char → Except Error (List Char × Cursor)
  | 0, _, _ => .error .malformed
  | fuel + 1, c, acc =>
    let acc := acc ++ c.span isTagChar
    let c := c.skip isTagChar
    if c.head = '%' then
      match percentBytes c.budget c [] with
      | .error e => .error e
      | .ok (bytes, c) =>
        match String.fromUTF8? ⟨(bytes.map Nat.toUInt8).toArray⟩ with
        | some s => tagChars fuel c (acc ++ s.toList)
        | none => .error .malformed
    else if acc.isEmpty then .error .malformed
    else .ok (acc, c)

/-- The part of a tag after its handle. -/
def tagRest (c : Cursor) : Except Error (String × Cursor) := do
  let (chars, c) ← tagChars c.budget c []
  return (String.ofList chars, c)

/-- The handle and its expansion in a directive. -/
def tagDirective (c : Cursor) : Except Error (Token × Cursor) := do
  let (handle, c) ← tagHandle (c.skip (· = ' '))
  if c.head ≠ ' ' then throw .malformed
  let (expansion, c) ← tagRest (c.skip (· = ' '))
  return (.tagDirective handle expansion, ← wordEnd c)

/-- A directive, which takes the rest of its line. -/
def directive (c : Cursor) : Except Error (Token × Cursor) := do
  let (word, c) ← name c.next
  let c ← wordEnd c
  let (token, c) ←
    if word = "YAML" then versionDirective c
    else if word = "TAG" then tagDirective c
    else pure (Token.otherDirective, c.skip (!isBreak ·))
  return (token, ← c.finishLine)

/-! ### Tokens -/

def anchorName (c : Cursor) : Except Error (String × Cursor) := do
  let (word, c) ← name c.next
  if isGap c.head || "?:,]\x7d%@".toList.contains c.head || c.head = '\x60' then return (word, c)
  else throw .malformed

def tag (c : Cursor) : Except Error (Token × Cursor) := do
  let ch := c.peek 1
  let (token, c) ←
    if ch = '<' then do
      let (rest, c) ← tagRest (Cursor.advance 2 c)
      if c.head ≠ '>' then throw .malformed
      pure (Token.tag none rest, c.next)
    else if isGap ch then pure (Token.tag none "!", c.next)
    else do
      -- a second exclamation mark in the word ends a handle
      let word := c.next.span (!isSpaceOrEnd ·)
      let (handle, c) ← if word.contains '!' then tagHandle c else pure ("!", c.next)
      let (rest, c) ← tagRest c
      pure (Token.tag (some handle) rest, c)
  return (token, ← wordEnd c)

/-- Leave all blocks before a directive or a mark between documents. -/
def leaveDocument (l : Lexer) : Except Error Lexer := do
  let l ← (l.unwind (-1)).removeKey
  return { l with keyAllowed := false }

def flowStart (l : Lexer) (t : Token) : Except Error Lexer := do
  let l ← l.saveKey
  return { l with flowDepth := l.flowDepth + 1, keyAllowed := true }.emitOver 1 t

def flowEnd (l : Lexer) (t : Token) : Except Error Lexer := do
  let l ← l.removeKey
  return { l with flowDepth := l.flowDepth - 1, keyAllowed := false }.emitOver 1 t

def flowEntry (l : Lexer) : Except Error Lexer := do
  let l ← l.removeKey
  return { l with keyAllowed := true }.emitOver 1 .flowEntry

/-- Open a block of a kind, where a block may begin. -/
def startBlock (l : Lexer) (t : Token) : Except Error Lexer :=
  if l.inFlow then .ok l
  else if l.keyAllowed then .ok (l.openBlock t)
  else .error .malformed

def blockEntry (l : Lexer) : Except Error Lexer := do
  let l ← (← l.startBlock .blockSequenceStart).removeKey
  return { l with keyAllowed := true }.emitOver 1 .blockEntry

def keyMark (l : Lexer) : Except Error Lexer := do
  let l ← (← l.startBlock .blockMappingStart).removeKey
  return { l with keyAllowed := !l.inFlow }.emitOver 1 .key

/-- The colon before a value. If a key may have begun before it, that was one. -/
def valueMark (l : Lexer) : Except Error Lexer :=
  match l.key? with
  | some k =>
    let l := l.dropKey
    let tokens := l.tokens.toList
    let l := { l with keyAllowed := false }
    match if l.inFlow then none else l.indentTo k.column with
    | some l =>
      let tokens := tokens.take k.token ++ [.blockMappingStart, .key] ++ tokens.drop k.token
      .ok ({ l with tokens := tokens.toArray }.emitOver 1 .value)
    | none =>
      let tokens := tokens.take k.token ++ [.key] ++ tokens.drop k.token
      .ok ({ l with tokens := tokens.toArray }.emitOver 1 .value)
  | none => do
    let l ← (← l.startBlock .blockMappingStart).removeKey
    return { l with keyAllowed := !l.inFlow }.emitOver 1 .value

/-- A token that may begin a key. -/
def keyToken (l : Lexer) (read : Cursor → Except Error (Token × Cursor)) : Except Error Lexer := do
  let l ← l.saveKey
  let (token, c) ← read l.cursor
  return { l.emit token with cursor := c, keyAllowed := false }

/-- A scalar that is written as a block. -/
def blockText (l : Lexer) : Except Error Lexer := do
  let l ← l.removeKey
  let (content, c) ← blockScalar l.indent l.cursor
  return { l.emit (.scalar content false) with cursor := c, keyAllowed := true }

/-- A scalar that is written plainly. -/
def plainText (l : Lexer) : Except Error Lexer := do
  let l ← l.saveKey
  let p := plainScalar l.inFlow l.indent l.cursor
  return { l.emit (.scalar (.string (String.ofList p.text)) true) with
    cursor := p.cursor, keyAllowed := p.newLine }

/-- Can a plain scalar begin here? -/
def startsPlain (l : Lexer) : Bool :=
  let c := l.cursor
  let ch := c.head
  !(isGap ch || "-?:,[]\x7b\x7d#&*!|>'\"%@\x60".toList.contains ch)
    || !isGap (c.peek 1) && (ch = '-' || !l.inFlow && (ch = '?' || ch = ':'))

/-- Read the next token, which does not begin with white space and is not the end. -/
def readToken (l : Lexer) : Except Error Lexer :=
  let c := l.cursor
  let ch := c.head
  let gapFollows := isGap (c.peek 1)
  if ch = '%' && c.column = 0 then do
    let l ← l.leaveDocument
    let (token, c) ← directive l.cursor
    return { l.emit token with cursor := c }
  else if c.column = 0 && c.atMark '-' then do return (← l.leaveDocument).emitOver 3 .documentStart
  else if c.column = 0 && c.atMark '.' then do return (← l.leaveDocument).emitOver 3 .documentEnd
  else if ch = '[' then l.flowStart .flowSequenceStart
  else if ch = '\x7b' then l.flowStart .flowMappingStart
  else if ch = ']' then l.flowEnd .flowSequenceEnd
  else if ch = '\x7d' then l.flowEnd .flowMappingEnd
  else if ch = ',' then l.flowEntry
  else if ch = '-' && gapFollows then l.blockEntry
  else if ch = '?' && (l.inFlow || gapFollows) then l.keyMark
  else if ch = ':' && (l.inFlow || gapFollows) then l.valueMark
  else if ch = '*' then l.keyToken fun c => do
    let (word, c) ← anchorName c
    return (.alias word, c)
  else if ch = '&' then l.keyToken fun c => do
    let (word, c) ← anchorName c
    return (.anchor word, c)
  else if ch = '!' then l.keyToken tag
  else if (ch = '|' || ch = '>') && !l.inFlow then l.blockText
  else if ch = '\'' || ch = '"' then l.keyToken fun c => do
    let (content, c) ← quotedScalar c
    return (.scalar content false, c)
  else if l.startsPlain then l.plainText
  else .error .malformed

/-- Read a token after white space. At the end of the text there is none, and blocks are closed. -/
def readNext (l : Lexer) : Except Error (Lexer × Bool) := do
  let l ← l.skipBlank.dropStaleKeys
  let l := l.unwind l.cursor.column
  if l.cursor.head = endMark then return (← (l.unwind (-1)).removeKey, true)
  else return (← l.readToken, false)

/-- The number of tokens before the first that may yet turn out to begin a key. -/
def settled (l : Lexer) : Nat := (l.keys.map (·.2.token)).foldl min l.tokens.size

end Lexer

/-- The tokens of a text, up to a fault if it has one. -/
structure TokenStream where
  tokens : List Token
  fault? : Option Error

namespace Lexer

/-- Read tokens up to the end of the text or a fault. -/
def readAll : Nat → Lexer → TokenStream
  | 0, l => ⟨l.tokens.toList, some .malformed⟩
  | fuel + 1, l =>
    match l.dropStaleKeys with
    | .error e => ⟨l.tokens.toList, some e⟩
    | .ok l =>
      match l.readNext with
      | .error e => ⟨l.tokens.toList.take l.settled, some e⟩
      | .ok (l, true) => ⟨l.tokens.toList, none⟩
      | .ok (l, false) => readAll fuel l

end Lexer

def tokenize (text : String) : TokenStream :=
  let chars := text.toList
  if chars.all isAllowed then
    let c : Cursor := { rest := chars }
    Lexer.readAll c.budget { cursor := c }
  else ⟨[], some .malformed⟩

end GrammarCoverage.Yaml
