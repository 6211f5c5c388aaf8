import GrammarCoverage.Grammar.Element
import GrammarCoverage.Value.Basic

/-!
# Identity of what stands in a grammar

A node equals itself alone. A plain value that stands where an element should is equal to any other
of the same value; in a set, each occurrence of a value that differs from itself is a member of its
own.
-/

namespace GrammarCoverage

/-- What may stand where an element should. -/
inductive Item where
  | node (e : Element)
  /-- A plain value; the number tells its occurrences apart. -/
  | plain (id : Nat) (v : Value)

namespace Item

/-- The element that an item counts as. -/
def element : Item → Element
  | .node e => e
  | .plain id v => .foreign id v.typeName none

def equal : Item → Item → Bool
  | .node e, .node f => e = f
  | .plain _ v, .plain _ w => v.sameKey w
  | _, _ => false

/-- May an item be a member of a set? -/
def isMember : Item → Bool
  | .node _ => true
  | .plain _ v => v.isKey

/-- Are two items one member of a set? -/
def same (a b : Item) : Bool := a.equal b || a.element = b.element

/-- The set of items, if all of them may be members. -/
def distinct? (items : List Item) : Option (List Item) :=
  if items.all isMember then
    some (items.foldl (fun set a => if set.any a.same then set else set ++ [a]) [])
  else none

end Item

end GrammarCoverage
