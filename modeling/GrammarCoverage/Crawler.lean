import GrammarCoverage.Reachability.Scope
import GrammarCoverage.Value.Printer

/-!
# Crawlers

A crawler owns what the strategies read: the rule table, the names that are pruned, and for every
tracked literal the number of finished expressions that use it. Strategies only read it; the driver
of a generation changes the counts and the pruned names.
-/

namespace GrammarCoverage

/-- The state that strategies read. -/
structure Crawler where
  table : RuleTable
  usage : OrderedMap String Value
  pruned : NameSet
  /-- What tells a crawler from others, however both may change. -/
  id : Nat := 0

namespace Crawler

/-- A crawler that tracks no literal and has pruned nothing. -/
def ofTable (table : RuleTable) : Crawler where
  table := table
  usage := .empty
  pruned := .empty

def scope (c : Crawler) : Scope := ⟨c.table, c.pruned⟩

/-- The count of a tracked literal; an entry without a count is as good as none. -/
def count? (c : Crawler) (name : String) : Option Value :=
  match c.usage.get? name with
  | some .null | none => none
  | some v => some v

/-- Is a literal tracked, with a count of zero? -/
def isUnused (c : Crawler) (name : String) : Bool := (c.count? name).any Value.isZero

/-- The tracked literals with a count of zero, in increasing order. -/
def unusedNames (c : Crawler) : List String :=
  ((c.usage.entries.filter (·.2.isZero)).map Prod.fst).mergeSort (fun a b => decide (a ≤ b))

/-! ### Changes by the driver -/

/-- Why the driver cannot change a crawler. -/
inductive ChangeError where
  /-- The literal has no entry, or the name is not pruned. -/
  | missing (name : String)
  /-- The count is no number. -/
  | notANumber (name : String)

def setUsage (c : Crawler) (name : String) (count : Value) : Crawler :=
  { c with usage := c.usage.insert name count }

def increment (c : Crawler) (name : String) : Except ChangeError Crawler :=
  match c.usage.get? name with
  | none => .error (.missing name)
  | some v =>
    match v.increment? with
    | some v => .ok (c.setUsage name v)
    | none => .error (.notANumber name)

def dropUsage (c : Crawler) (name : String) : Except ChangeError Crawler :=
  if c.usage.contains name then .ok { c with usage := c.usage.erase name }
  else .error (.missing name)

def prune (c : Crawler) (name : String) : Crawler := { c with pruned := c.pruned.insert name }

def unprune (c : Crawler) (name : String) : Except ChangeError Crawler :=
  if name ∈ c.pruned then .ok { c with pruned := c.pruned.erase name }
  else .error (.missing name)

/-! ### Views -/

/-- What a reader of a crawler holds on to. The counts and the rules are seen as they are at the
time of reading; the pruned names are those of the time when the view was taken. -/
inductive View where
  | usage
  | rules
  | pruned (names : NameSet)

/-- What a view shows. -/
inductive View.Shown where
  /-- Keys with descriptions of their values, in order. -/
  | entries (entries : List (String × String))
  /-- Names in increasing order. -/
  | names (names : List String)

/-- The rules of the table with their keys, in order; an entry may be without a rule. -/
def ruleEntries (c : Crawler) : List (String × String) :=
  c.table.entries.map fun e => (e.1, match e.2 with
    | some r => r.describe
    | none => Value.null.display)

/-- What a view shows of the crawler as it is now. -/
def View.read (c : Crawler) : View → View.Shown
  | .usage => .entries (c.usage.entries.map fun e => (e.1, e.2.display))
  | .rules => .entries c.ruleEntries
  | .pruned names => .names names.sorted

def describe (c : Crawler) : String :=
  "CrawlState(rules=" ++ toString c.table.size ++ ", tracked_literals=" ++ toString c.usage.size
    ++ ", rules_to_skip=" ++ (Value.list (c.pruned.sorted.map Value.text)).display ++ ")"

end Crawler

end GrammarCoverage
