import GrammarCoverage.Yaml.Merge
import GrammarCoverage.Yaml.ScalarValue

/-!
# What nodes stand for

A scalar stands for a value, a collection for its members, which are nodes again. The tag decides
what a node has to be. Collections are looked into level by level, the root first, and each node is
read once, when it is met first; so of several faults the one highest up is reported. What a
collection has to be is asked only when it is looked into.
-/

namespace GrammarCoverage.Yaml

/-- A value as a key. -/
structure Key where
  value : Value
  /-- The undefined number is a key of its own at each node that yields it, except where it is
  written as the constant. -/
  origin? : Option NodeId

namespace Key

def isNaN : Value → Bool
  | .float .nan => true
  | _ => false

/-- The key of a scalar with its value. -/
def ofScalar (i : NodeId) (content : Text.Content) (v : Value) : Key :=
  ⟨v, if isNaN v && (fractionText content.chars).2 ≠ nanText then some i else none⟩

def same (k l : Key) : Bool :=
  k.value.sameKey l.value || isNaN k.value && isNaN l.value && k.origin? = l.origin?

/-- Give a key something. A key that is there already keeps its place and its own form. -/
def put {α : Type} (entries : List (Key × α)) (k : Key) (a : α) : List (Key × α) :=
  match entries with
  | [] => [(k, a)]
  | e :: rest => if e.1.same k then (e.1, a) :: rest else e :: put rest k a

end Key

/-- What a node stands for. -/
inductive Datum where
  | scalar (k : Key)
  | list (items : List NodeId)
  /-- A list of pairs. -/
  | pairs (items : List (NodeId × NodeId))
  | set (members : List Key)
  | mapping (entries : List (Key × NodeId))

/-- The kinds of collections. -/
inductive Kind where
  | list | pairs | set | mapping

/-- The kind of collection that a tag asks for. -/
def Kind.ofTag? (tag : String) : Option Kind :=
  if tag = standardTag "seq" then some .list
  else if tag = standardTag "omap" ∨ tag = standardTag "pairs" then some .pairs
  else if tag = standardTag "set" then some .set
  else if tag = standardTag "map" then some .mapping
  else none

/-- A collection without members. -/
def Kind.empty : Kind → Datum
  | .list => .list []
  | .pairs => .pairs []
  | .set => .set []
  | .mapping => .mapping []

/-- The content of a scalar, or of the mapping that stands for one: that of its default value. -/
def Graph.content (g : Graph) : Nat → NodeId → Except Error Text.Content
  | 0, _ => .error .tooDeep
  | fuel + 1, i =>
    match g.get i with
    | .scalar _ content => .ok content
    | .sequence .. => .error .malformed
    | .mapping _ entries =>
      match entries.find? fun e => g.tag e.1 = standardTag "value" with
      | some (_, v) => g.content fuel v
      | none => .error .malformed

/-- The state of reading nodes. -/
structure Reading where
  graph : Graph
  /-- What the nodes stand for that have been met. -/
  data : Array (Option Datum)
  /-- The collections that have been met and not been looked into. -/
  pending : List (NodeId × Kind) := []

/-- A step of reading. -/
abbrev Read := StateT Reading (Except Error)

namespace Read

/-- Set what a node stands for. -/
def define (i : NodeId) (d : Datum) : Read Unit :=
  modify fun r => { r with data := r.data.setIfInBounds i (some d) }

def scalar (i : NodeId) : Read Key := do
  let g := (← get).graph
  match scalarReader? (g.tag i) with
  | none => throw .malformed
  | some read =>
    let content ← (g.content namingLimit i : Except Error Text.Content)
    match g.get i with
    | .mapping tag _ => if tag = standardTag "timestamp" then throw .dateOfMapping
    | .scalar .. | .sequence .. => pure ()
    return .ofScalar i content (← (read content : Except Error Value))

/-- Meet a node and give what it stands for; a collection has no members yet. -/
def meet (i : NodeId) : Read Datum := do
  let r ← get
  match r.data[i]?.bind id with
  | some d => return d
  | none =>
    match Kind.ofTag? (r.graph.tag i) with
    | some kind =>
      modify fun r => { r with pending := r.pending ++ [(i, kind)] }
      define i kind.empty
      return kind.empty
    | none =>
      let k ← scalar i
      define i (.scalar k)
      return .scalar k

/-- Meet a node as a key, which has to be a scalar. -/
def key (i : NodeId) : Read Key := do
  match ← meet i with
  | .scalar k => return k
  | _ => throw .malformed

/-- The items of a sequence. -/
def items (i : NodeId) : Read (List NodeId) := do
  match (← get).graph.get i with
  | .sequence _ items => return items
  | .scalar .. | .mapping .. => throw .malformed

/-- The entries of a mapping, merged with those that it names. -/
def entries (i : NodeId) : Read (List (Key × NodeId)) := do
  let r ← get
  let (_, graph) ← (Rewiring.merge namingLimit i r.graph : Except Error (Unit × Graph))
  set { r with graph }
  let entries ← match graph.get i with
    | .mapping _ entries => pure entries
    | .scalar .. | .sequence .. => throw .malformed
  entries.foldlM (fun acc e => do
    let k ← key e.1
    let _ ← meet e.2
    return Key.put acc k e.2) []

/-- The only entry of a mapping. -/
def pair (i : NodeId) : Read (NodeId × NodeId) := do
  match (← get).graph.get i with
  | .mapping _ [(k, v)] =>
    let _ ← meet k
    let _ ← meet v
    return (k, v)
  | _ => throw .malformed

/-- Look into a collection. -/
def lookInto (i : NodeId) (kind : Kind) : Read Unit := do
  match kind with
  | .list =>
    let items ← items i
    items.forM fun j => do let _ ← meet j
    define i (.list items)
  | .pairs => define i (.pairs (← (← items i).mapM pair))
  | .set => define i (.set ((← entries i).map Prod.fst))
  | .mapping => define i (.mapping (← entries i))

/-- Look into collections level by level, at most `fuel` levels. -/
def levels : Nat → Read Unit
  | 0 => pure ()
  | fuel + 1 => do
    let level := (← get).pending
    if level.isEmpty then return
    modify fun r => { r with pending := [] }
    level.forM fun (i, kind) => lookInto i kind
    levels fuel

end Read

end GrammarCoverage.Yaml
