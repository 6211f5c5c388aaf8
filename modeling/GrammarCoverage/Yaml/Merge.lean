import GrammarCoverage.Yaml.Cursor
import GrammarCoverage.Yaml.Node

/-!
# Merging of mappings

A mapping may take over the entries of others, which it names under the merge key. They come before
its own entries, so that these win; among several mappings in a sequence the earlier one wins. The
entries that name them go away. A mapping that is named is merged itself first, which may lead back
to the one that is being merged; as its entry is gone by then, this ends.
-/

namespace GrammarCoverage.Yaml

/-- The depth to which mappings may name others, and mappings stand for scalars. -/
def namingLimit : Nat := 980

/-- A step that changes nodes. -/
abbrev Rewiring := StateT Graph (Except Error)

namespace Rewiring

/-- The entries of a mapping; other nodes cannot be merged. -/
def entries (i : NodeId) : Rewiring (List (NodeId × NodeId)) := do
  match (← get).get i with
  | .mapping _ entries => return entries
  | .scalar .. | .sequence .. => throw .malformed

def setEntries (i : NodeId) (entries : List (NodeId × NodeId)) : Rewiring Unit :=
  modify fun g => g.set i (.mapping (g.tag i) entries)

/-- Take the first merge entry out of a mapping, and give what it names. -/
def takeMerge? (i : NodeId) : Rewiring (Option NodeId) := do
  let g ← get
  let all ← entries i
  let isMerge (e : NodeId × NodeId) := g.tag e.1 = standardTag "merge"
  match all.dropWhile (!isMerge ·) with
  | [] => return none
  | (_, v) :: rest =>
    setEntries i (all.takeWhile (!isMerge ·) ++ rest)
    return some v

/-- The entries of a mapping after it has been merged. -/
def mergedEntries (merge : NodeId → Rewiring Unit) (i : NodeId) :
    Rewiring (List (NodeId × NodeId)) := do
  let _ ← entries i
  merge i
  entries i

/-- The entries that a mapping or a sequence of mappings offers, the last one first. -/
def offered (merge : NodeId → Rewiring Unit) (i : NodeId) :
    Rewiring (List (NodeId × NodeId)) := do
  match (← get).get i with
  | .sequence _ items => return (← items.mapM (mergedEntries merge)).reverse.flatten
  | .mapping .. | .scalar .. => mergedEntries merge i

/-- The entries that the merge entries of a mapping offer; these go away. -/
def takeAll (merge : NodeId → Rewiring Unit) :
    Nat → NodeId → List (NodeId × NodeId) → Rewiring (List (NodeId × NodeId))
  | 0, _, acc => return acc
  | fuel + 1, i, acc => do
    match ← takeMerge? i with
    | some v => takeAll merge fuel i (acc ++ (← offered merge v))
    | none => return acc

/-- The sign that elsewhere stands for a default value is a text as a key of a merged mapping. -/
def plainKey (k : NodeId) : Rewiring Unit :=
  modify fun g =>
    if g.tag k = standardTag "value" then g.set k ((g.get k).withTag (standardTag "str")) else g

/-- Merge a mapping with those that it names. -/
def merge : Nat → NodeId → Rewiring Unit
  | 0, _ => throw .tooDeep
  | fuel + 1, i => do
    let taken ← takeAll (merge fuel) ((← entries i).length + 1) i []
    let own ← entries i
    own.forM fun e => plainKey e.1
    setEntries i (taken ++ own)

end Rewiring

end GrammarCoverage.Yaml
