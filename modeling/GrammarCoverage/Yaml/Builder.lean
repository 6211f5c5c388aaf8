import GrammarCoverage.Yaml.Lexer
import GrammarCoverage.Yaml.Schema

/-!
# Nodes of a token stream

The nodes of a document are built from its tokens, each one before its children, so that an alias
may stand for a node that it lies in. A scalar without a tag gets the one that its text and its way
of writing imply. Collections may be nested up to a limit.
-/

namespace GrammarCoverage.Yaml

/-- The state of building nodes. -/
structure Builder where
  stream : TokenStream
  /-- The handles of tags with their expansions. -/
  handles : List (String × String)
  /-- The anchors with their nodes. -/
  anchors : List (String × NodeId) := []
  graph : Graph := {}

/-- A step of building. -/
abbrev Build := StateT Builder (Except Error)

namespace Build

/-- The next token; at the end there is none. -/
def peek : Build (Option Token) := do
  let s := (← get).stream
  match s.tokens.head?, s.fault? with
  | some t, _ => return some t
  | none, some e => throw e
  | none, none => return none

def skip : Build Unit :=
  modify fun b => { b with stream := { b.stream with tokens := b.stream.tokens.drop 1 } }

/-- Is the next token one of these? At the end none is. -/
def isAt (ts : List Token) : Build Bool := return (← peek).any ts.contains

def refuse {α : Type} : Build α := throw .malformed

/-- Pass a token that has to be there. -/
def expect (t : Token) : Build Unit := do if ← isAt [t] then skip else refuse

/-- How many tokens are left at most, and one more: the steps that a loop over tokens can take. -/
def budget : Build Nat := return (← get).stream.tokens.length + 1

def add (n : Node) : Build NodeId :=
  modifyGet fun b => (b.graph.size, { b with graph := b.graph.push n })

def fill (i : NodeId) (n : Node) : Build Unit :=
  modify fun b => { b with graph := b.graph.set i n }

/-- Add a scalar without text. -/
def emptyNode : Build NodeId := add (.scalar (impliedTag (.string "")) (.string ""))

/-- Read a node, unless one of these tokens follows, which means that it is empty. -/
def orEmpty (node : Build NodeId) (ends : List Token) : Build NodeId := do
  if ← isAt ends then emptyNode else node

/-! ### Block collections -/

/-- The items of a block sequence after its start. -/
def blockItems (node : Build NodeId) : Nat → List NodeId → Build (List NodeId)
  | 0, _ => refuse
  | fuel + 1, acc => do
    if ← isAt [.blockEntry] then
      skip
      let item ← orEmpty node [.blockEntry, .blockEnd]
      blockItems node fuel (acc ++ [item])
    else
      expect .blockEnd
      return acc

/-- The items of a sequence that is not indented inside its mapping. -/
def flatItems (node : Build NodeId) : Nat → List NodeId → Build (List NodeId)
  | 0, _ => refuse
  | fuel + 1, acc => do
    if ← isAt [.blockEntry] then
      skip
      let item ← orEmpty node [.blockEntry, .key, .value, .blockEnd]
      flatItems node fuel (acc ++ [item])
    else return acc

/-- The value of an entry: a node after its indicator, or nothing. -/
def entryValue (node : Build NodeId) (ends : List Token) : Build NodeId := do
  if ← isAt [.value] then
    skip
    orEmpty node ends
  else emptyNode

/-- The entries of a block mapping after its start. -/
def blockEntries (node : Build NodeId) :
    Nat → List (NodeId × NodeId) → Build (List (NodeId × NodeId))
  | 0, _ => refuse
  | fuel + 1, acc => do
    if ← isAt [.key] then
      skip
      let k ← orEmpty node [.key, .value, .blockEnd]
      let v ← entryValue node [.key, .value, .blockEnd]
      blockEntries node fuel (acc ++ [(k, v)])
    else
      expect .blockEnd
      return acc

/-! ### Flow collections -/

/-- Pass the comma before an entry that is not the first. -/
def flowComma (isFirst : Bool) : Build Unit :=
  if isFirst then pure () else expect .flowEntry

/-- The items of a flow sequence after its start. An item with a key is a mapping of one entry,
whose nodes are nested deeper. -/
def flowItems (node deeper : Build NodeId) : Nat → List NodeId → Build (List NodeId)
  | 0, _ => refuse
  | fuel + 1, acc => do
    if ← isAt [.flowSequenceEnd] then
      skip
      return acc
    flowComma acc.isEmpty
    if ← isAt [.key] then
      skip
      let i ← add (.mapping (standardTag "map") [])
      let k ← orEmpty deeper [.value, .flowEntry, .flowSequenceEnd]
      let v ← entryValue deeper [.flowEntry, .flowSequenceEnd]
      fill i (.mapping (standardTag "map") [(k, v)])
      flowItems node deeper fuel (acc ++ [i])
    else if ← isAt [.flowSequenceEnd] then
      skip
      return acc
    else
      let item ← node
      flowItems node deeper fuel (acc ++ [item])

/-- The entries of a flow mapping after its start. -/
def flowEntries (node : Build NodeId) :
    Nat → List (NodeId × NodeId) → Bool → Build (List (NodeId × NodeId))
  | 0, _, _ => refuse
  | fuel + 1, acc, isFirst => do
    if ← isAt [.flowMappingEnd] then
      skip
      return acc
    flowComma isFirst
    if ← isAt [.key] then
      skip
      let k ← orEmpty node [.value, .flowEntry, .flowMappingEnd]
      let v ← entryValue node [.flowEntry, .flowMappingEnd]
      flowEntries node fuel (acc ++ [(k, v)]) false
    else if ← isAt [.flowMappingEnd] then
      skip
      return acc
    else
      let k ← node
      let v ← emptyNode
      flowEntries node fuel (acc ++ [(k, v)]) false

/-! ### Nodes -/

/-- The anchor that is next, if there is one. -/
def anchor? : Build (Option String) := do
  match ← peek with
  | some (.anchor a) =>
    skip
    return some a
  | _ => return none

/-- The tag that is next, if there is one. -/
def tag? : Build (Option (Option String × String)) := do
  match ← peek with
  | some (.tag handle rest) =>
    skip
    return some (handle, rest)
  | _ => return none

/-- The full tag of a handle and a rest. -/
def expand : Option String × String → Build String
  | (none, rest) => return rest
  | (some handle, rest) => do
    match (← get).handles.find? (·.1 = handle) with
    | some (_, expansion) => return expansion ++ rest
    | none => refuse

/-- The anchor and the tag before a node, in either order. -/
def properties : Build (Option String × Option String) := do
  let before ← anchor?
  let tag ← tag?
  let anchor ← if before.isNone && tag.isSome then anchor? else pure before
  return (anchor, ← tag.mapM expand)

/-- Check that the anchor of a node that begins is new. -/
def checkAnchor (anchor : Option String) : Build Unit := do
  let known := (← get).anchors
  if anchor.any fun a => known.any (·.1 = a) then refuse

/-- Let an anchor stand for a node. -/
def bind (anchor : Option String) (i : NodeId) : Build Unit :=
  match anchor with
  | some a => modify fun b => { b with anchors := (a, i) :: b.anchors }
  | none => pure ()

/-- The tag of a collection: the one that is written, unless it is none in particular. -/
def collectionTag (written : Option String) (name : String) : String :=
  (written.filter (· ≠ "!")).getD (standardTag name)

/-- The tag of a scalar. Without one in particular, the text implies it; without any, that of a
scalar which is not plain is a text. -/
def scalarTag (written : Option String) (content : Text.Content) (isPlain : Bool) : String :=
  match written with
  | some t => if t = "!" then impliedTag content else t
  | none => if isPlain then impliedTag content else standardTag "str"

/-- A sequence, whose number its items may refer to. -/
def sequence (anchor written : Option String) (items : Build (List NodeId)) : Build NodeId := do
  let tag := collectionTag written "seq"
  let i ← add (.sequence tag [])
  bind anchor i
  fill i (.sequence tag (← items))
  return i

/-- A mapping, whose number its keys and values may refer to. -/
def mapping (anchor written : Option String) (entries : Build (List (NodeId × NodeId))) :
    Build NodeId := do
  let tag := collectionTag written "map"
  let i ← add (.mapping tag [])
  bind anchor i
  fill i (.mapping tag (← entries))
  return i

def scalar (anchor written : Option String) (content : Text.Content) (isPlain : Bool) :
    Build NodeId := do
  let i ← add (.scalar (scalarTag written content isPlain) content)
  bind anchor i
  return i

/-- What a node may be at its place. -/
structure Place where
  /-- May it be a block collection? -/
  block : Bool
  /-- May it be a sequence that is not indented? -/
  flat : Bool

/-- A node, nested at most `fuel` deep. -/
def node : Nat → Place → Build NodeId
  | 0, _ => throw .tooDeep
  | fuel + 1, place => do
    if let some (.alias a) ← peek then
      skip
      match (← get).anchors.find? (·.1 = a) with
      | some (_, i) => return i
      | none => refuse
    let (anchor, written) ← properties
    let next ← peek
    checkAnchor anchor
    let size ← budget
    let inFlow := node fuel ⟨false, false⟩
    match next, place.block, place.flat with
    | some .blockEntry, _, true =>
      sequence anchor written (flatItems (node fuel ⟨true, false⟩) size [])
    | some (.scalar content isPlain), _, _ =>
      skip
      scalar anchor written content isPlain
    | some .flowSequenceStart, _, _ =>
      skip
      sequence anchor written (flowItems inFlow (node (fuel - 1) ⟨false, false⟩) size [])
    | some .flowMappingStart, _, _ =>
      skip
      mapping anchor written (flowEntries inFlow size [] true)
    | some .blockSequenceStart, true, _ =>
      skip
      sequence anchor written (blockItems (node fuel ⟨true, false⟩) size [])
    | some .blockMappingStart, true, _ =>
      skip
      mapping anchor written (blockEntries (node fuel ⟨true, true⟩) size [])
    | _, _, _ =>
      if anchor.isSome || written.isSome then scalar anchor written (.string "") true
      else refuse

/-! ### Documents -/

/-- The handles that are always there. -/
def standardHandles : List (String × String) := [("!", "!"), ("!!", standardTag "")]

/-- The directives before a document. Each occurs once for its subject, and the version is 1. -/
def directives : Nat → Bool → List (String × String) → Build (List (String × String))
  | 0, _, _ => refuse
  | fuel + 1, versionSeen, handles => do
    match ← peek with
    | some (.versionDirective major _) =>
      skip
      if versionSeen || major ≠ 1 then refuse
      directives fuel true handles
    | some (.tagDirective handle expansion) =>
      skip
      if handles.any (·.1 = handle) then refuse
      directives fuel versionSeen (handles ++ [(handle, expansion)])
    | some .otherDirective =>
      skip
      directives fuel versionSeen handles
    | _ => return handles ++ standardHandles

/-- Skip the marks after a document. -/
def skipEnds : Nat → Build Unit
  | 0 => pure ()
  | fuel + 1 => do
    if ← isAt [.documentEnd] then
      skip
      skipEnds fuel

/-- Check that nothing follows a document; another one would have to begin with its directives. -/
def finish : Build Unit := do
  skipEnds (← budget)
  if (← peek).isSome then
    let _ ← directives (← budget) false []
    let _ ← peek
    refuse

/-- Does a token begin a document? -/
def beginsDocument : Token → Bool
  | .versionDirective .. | .tagDirective .. | .otherDirective | .documentStart => true
  | _ => false

/-- The greatest depth of nodes that is followed. -/
def depthLimit : Nat := 490

/-- The content of a document after its start: a node, or nothing. -/
def content : Build NodeId := do
  if (← peek).all fun t => beginsDocument t || t = .documentEnd then emptyNode
  else node depthLimit ⟨true, false⟩

/-- The root of the only document of a stream, if there is one. A document without a start begins
with its content, which is not empty. -/
def document : Build (Option NodeId) := do
  match ← peek with
  | none => return none
  | some first =>
    let root ←
      if beginsDocument first then do
        let handles ← directives (← budget) false []
        modify fun b => { b with handles }
        expect .documentStart
        content
      else node depthLimit ⟨true, false⟩
    finish
    return some root

end Build

/-- The nodes of the only document of a text, and the number of its root, if there is one. -/
def parse (text : String) : Except Error (Option NodeId × Graph) := do
  let (root, b) ← Build.document.run { stream := tokenize text, handles := Build.standardHandles }
  return (root, b.graph)

end GrammarCoverage.Yaml
