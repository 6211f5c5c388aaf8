import GrammarCoverage.Value.Outline
import GrammarCoverage.Yaml.Builder
import GrammarCoverage.Yaml.Datum

/-!
# Documents

A document is its nodes with what they stand for. The value of a node is made only when it is asked
for: aliases may repeat a collection so often that nobody could write it out, or within itself.
-/

namespace GrammarCoverage.Yaml

/-- A document: what its nodes stand for, and the number of the topmost one. -/
structure Document where
  data : Array (Option Datum)
  root : NodeId

namespace Document

def get (d : Document) (i : NodeId) : Datum :=
  (d.data[i]?.bind id).getD (.scalar ⟨.null, none⟩)

/-- The document without content. -/
def empty : Document := ⟨#[], 0⟩

/-- The members of a set as it is shown: numbers by size, others in order. -/
def setMembers (members : List Key) : List Value :=
  let values := members.map Key.value
  if values.all (·.number?.isSome) then values.mergeSort Value.keyLe else values

/-- The value of a node inside of collections, at most `fuel` deep. -/
def valueIn (d : Document) : Nat → List NodeId → NodeId → Value
  | 0, _, _ => .null
  | fuel + 1, path, i =>
    let value := d.valueIn fuel (i :: path)
    match d.get i with
    | .scalar k => k.value
    | .set members => .set (setMembers members)
    | .list items => if i ∈ path then .enclosingList else .list (items.map value)
    | .pairs items =>
      if i ∈ path then .enclosingList
      else .list (items.map fun p => .tuple [value p.1, value p.2])
    | .mapping entries =>
      if i ∈ path then .enclosingMapping
      else .mapping (entries.map fun e => (e.1.value, value e.2))

/-- The value of a node. No way down the document is longer than there are nodes, as it ends where
it comes back. -/
def value (d : Document) (i : NodeId) : Value := d.valueIn (d.data.size + 1) [] i

/-- A node from outside. -/
def outline (d : Document) (i : NodeId) : Outline NodeId :=
  match d.get i with
  | .scalar ⟨.null, _⟩ => .nothing
  | .scalar k => .other k.value.typeName k.value.isBlank
  | .list items => .other "list" items.isEmpty
  | .pairs items => .other "list" items.isEmpty
  | .set members => .other "set" members.isEmpty
  | .mapping entries => .mapping (entries.map fun e => (e.1.value, e.2))

/-- The document of nodes with a given root. -/
def ofGraph (root : NodeId) (graph : Graph) : Except Error Document := do
  let start : Reading := { graph, data := .replicate graph.size none }
  let read : Read Unit := do
    let _ ← Read.meet root
    Read.levels (graph.size + 1)
  let (_, r) ← read.run start
  return ⟨r.data, root⟩

end Document

/-- The only document of a text; a text may be without one. -/
def load (text : String) : Except Error Document := do
  let (root?, graph) ← parse text
  match root? with
  | some root => Document.ofGraph root graph
  | none => return .empty

end GrammarCoverage.Yaml
