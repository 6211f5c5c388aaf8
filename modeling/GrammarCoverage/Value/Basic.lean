import GrammarCoverage.Calendar
import GrammarCoverage.Number.Rounding
import GrammarCoverage.Text.Content

/-!
# Values

The values that settings, usage counts and configuration files hold before they are checked. Numbers
of all kinds are equal as keys when they denote the same number, and the two booleans count as the
numbers 0 and 1.
-/

namespace GrammarCoverage

/-- A value of a setting, of a usage count or of a configuration file. -/
inductive Value where
  | null
  | bool (b : Bool)
  | int (n : Int)
  | float (x : Number)
  | text (s : String)
  /-- A text with surrogates among its code points, so that no string holds it. -/
  | illFormed (codes : List Nat)
  | bytes (content : List UInt8)
  | date (d : Date)
  | moment (m : Moment)
  | list (items : List Value)
  | tuple (items : List Value)
  | set (members : List Value)
  | mapping (entries : List (Value × Value))
  /-- The list around this place, which holds itself. -/
  | enclosingList
  /-- The mapping around this place, which holds itself. -/
  | enclosingMapping

namespace Value

instance : Inhabited Value := ⟨.null⟩

def typeName : Value → String
  | .null => "NoneType"
  | .bool _ => "bool"
  | .int _ => "int"
  | .float _ => "float"
  | .text _ | .illFormed _ => "str"
  | .bytes _ => "bytes"
  | .date _ => "date"
  | .moment _ => "datetime"
  | .list _ | .enclosingList => "list"
  | .tuple _ => "tuple"
  | .set _ => "set"
  | .mapping _ | .enclosingMapping => "dict"

/-- The value of a text with a content. -/
def ofContent : Text.Content → Value
  | .string s => .text s
  | .illFormed codes => .illFormed codes

/-- What a text says; other values have no content. -/
def content? : Value → Option Text.Content
  | .text s => some (.string s)
  | .illFormed codes => some (.illFormed codes)
  | _ => none

/-- The number that a value denotes. -/
def number? : Value → Option Number
  | .bool b => some (if b then 1 else 0)
  | .int n => some (.ofInt n)
  | .float x => some x
  | _ => none

/-- Is a value equal to the number zero? -/
def isZero (v : Value) : Bool := v.number?.any (·.same 0)

/-- Does a value count as absent where a section of settings is expected? -/
def isBlank : Value → Bool
  | .null => true
  | .text s => s.isEmpty
  | .bytes content => content.isEmpty
  | .list items | .tuple items | .set items => items.isEmpty
  | .mapping entries => entries.isEmpty
  | v => v.isZero

/-- The value one greater; only numbers have one. -/
def increment? : Value → Option Value
  | .bool b => some (.int (if b then 2 else 1))
  | .int n => some (.int (n + 1))
  | .float x => some (.float (x.add 1))
  | _ => none

/-! ### Keys -/

mutual
/-- May a value be a key? -/
def isKey : Value → Bool
  | .list _ | .set _ | .mapping _ | .enclosingList | .enclosingMapping => false
  | .tuple items => areKeys items
  | _ => true

/-- May all of these values be keys? -/
def areKeys : List Value → Bool
  | [] => true
  | v :: rest => v.isKey && areKeys rest
end

mutual
/-- Are two values the same key? -/
def sameKey : Value → Value → Bool
  | .null, .null => true
  | .text s, .text t => s == t
  | .illFormed s, .illFormed t => s == t
  | .bytes s, .bytes t => s == t
  | .date d, .date e => d == e
  | .moment m, .moment n => m.same n
  | .tuple items, .tuple others => sameItems items others
  | v, w => match v.number?, w.number? with
    | some x, some y => x.same y
    | _, _ => false

/-- Are the items of two tuples the same, one by one? -/
def sameItems : List Value → List Value → Bool
  | [], [] => true
  | v :: rest, w :: others => v.sameKey w && sameItems rest others
  | _, _ => false
end

/-- Give a key a value. A key that is there already keeps its place and its own form. -/
def put (entries : List (Value × Value)) (k v : Value) : List (Value × Value) :=
  match entries with
  | [] => [(k, v)]
  | e :: rest => if e.1.sameKey k then (e.1, v) :: rest else e :: put rest k v

/-- The mapping of a list of entries; of two with one key the later value wins. -/
def ofEntries (entries : List (Value × Value)) : Value :=
  .mapping (entries.foldl (fun d e => put d e.1 e.2) [])

mutual
/-- Is one key less than another, if they can be compared? Numbers are by size, texts by code point,
and times by time, provided that for both of them, or for neither, the distance from universal time
is known. -/
def lt? : Value → Value → Option Bool
  | .bytes s, .bytes t => some (decide (s < t))
  | .date d, .date e => some (!e.le d)
  | .moment m, .moment n =>
    if m.comparable n then some (decide (m.instant < n.instant)) else none
  | .tuple items, .tuple others => itemsLt? items others
  | v, w => match v.content?, w.content? with
    | some s, some t => some (s.codePoints.lex t.codePoints Nat.blt)
    | _, _ => match v.number?, w.number? with
      | some x, some y => some (x.blt y)
      | _, _ => none

/-- Tuples are compared by the first items that are not the same. -/
def itemsLt? : List Value → List Value → Option Bool
  | [], others => some !others.isEmpty
  | _ :: _, [] => some false
  | v :: rest, w :: others => if v.sameKey w then itemsLt? rest others else v.lt? w
end

/-- The order of keys; one that is not less than another may stand behind it. -/
def keyLe (v w : Value) : Bool := w.lt? v != some true

/-- Keys in increasing order, if they have one. They may come in any order, so that any two of them
may have to be compared. -/
def sortKeys? (keys : List Value) : Option (List Value) :=
  if keys.Pairwise fun v w => (v.lt? w).isSome then some (keys.mergeSort keyLe) else none

end Value

end GrammarCoverage
