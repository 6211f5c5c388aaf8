import GrammarCoverage.Text.Quoted

/-!
# Elements of a grammar

An element is a literal, a group, a choice, a reference to a rule, a separator, or an object that
does not belong to the model. Every node carries a number that tells it from other nodes of the same
shape, so that equality of elements is identity of nodes: one node may stand at several places of a
grammar, and two nodes that look alike stay two.
-/

namespace GrammarCoverage

/-- How many times a group may occur. -/
inductive Repetition where
  | once | optional | zeroOrMore | oneOrMore
deriving DecidableEq

namespace Repetition

/-- The mark that follows a group. -/
def suffix : Repetition → String
  | .once => ""
  | .optional => "?"
  | .zeroOrMore => "*"
  | .oneOrMore => "+"

/-- The repetition with a given mark. -/
def ofSuffix? (s : String) : Option Repetition :=
  [once, optional, zeroOrMore, oneOrMore].find? (·.suffix = s)

/-- May the group be left out? -/
def isOmittable : Repetition → Bool
  | .optional | .zeroOrMore => true
  | .once | .oneOrMore => false

end Repetition

/-- A node of a grammar. The number `id` is the identity of the node. -/
inductive Element where
  /-- A fixed token of the generated text. -/
  | literal (id : Nat) (name : String)
  /-- A sequence of elements; the name is a label for pruning. -/
  | group (id : Nat) (name : String) (repetition : Repetition) (elements : List Element)
  /-- Elements of which exactly one is used; the name is a label for pruning. -/
  | choice (id : Nat) (name : String) (choices : List Element)
  /-- A reference to the rule of that name. -/
  | ruleRef (id : Nat) (name : String)
  /-- Filler between repeated items; never a literal. -/
  | separator (id : Nat) (name : String)
  /-- An object outside the model, of a named kind, which may have a name of its own. -/
  | foreign (id : Nat) (kind : String) (name : Option String)

namespace Element

instance : Inhabited Element := ⟨.separator 0 ""⟩

/-! ### Identity -/

mutual
/-- Decide whether two elements are the same node, the numbers first. -/
def decEq : (a b : Element) → Decidable (a = b)
  | .literal i n, .literal j m =>
    if hi : i = j then if hn : n = m then .isTrue (by rw [hi, hn])
      else .isFalse (by intro h; injection h; contradiction)
    else .isFalse (by intro h; injection h; contradiction)
  | .ruleRef i n, .ruleRef j m =>
    if hi : i = j then if hn : n = m then .isTrue (by rw [hi, hn])
      else .isFalse (by intro h; injection h; contradiction)
    else .isFalse (by intro h; injection h; contradiction)
  | .separator i n, .separator j m =>
    if hi : i = j then if hn : n = m then .isTrue (by rw [hi, hn])
      else .isFalse (by intro h; injection h; contradiction)
    else .isFalse (by intro h; injection h; contradiction)
  | .foreign i k n, .foreign j l m =>
    if hi : i = j then if hk : k = l then if hn : n = m then .isTrue (by rw [hi, hk, hn])
      else .isFalse (by intro h; injection h; contradiction)
      else .isFalse (by intro h; injection h; contradiction)
    else .isFalse (by intro h; injection h; contradiction)
  | .choice i n es, .choice j m fs =>
    if hi : i = j then if hn : n = m then
        match decEqList es fs with
        | .isTrue he => .isTrue (by rw [hi, hn, he])
        | .isFalse he => .isFalse (by intro h; injection h; contradiction)
      else .isFalse (by intro h; injection h; contradiction)
    else .isFalse (by intro h; injection h; contradiction)
  | .group i n r es, .group j m s fs =>
    if hi : i = j then if hn : n = m then if hr : r = s then
        match decEqList es fs with
        | .isTrue he => .isTrue (by rw [hi, hn, hr, he])
        | .isFalse he => .isFalse (by intro h; injection h; contradiction)
      else .isFalse (by intro h; injection h; contradiction)
      else .isFalse (by intro h; injection h; contradiction)
    else .isFalse (by intro h; injection h; contradiction)
  | .literal .., .ruleRef .. | .literal .., .separator .. | .literal .., .foreign ..
  | .literal .., .choice .. | .literal .., .group ..
  | .ruleRef .., .literal .. | .ruleRef .., .separator .. | .ruleRef .., .foreign ..
  | .ruleRef .., .choice .. | .ruleRef .., .group ..
  | .separator .., .literal .. | .separator .., .ruleRef .. | .separator .., .foreign ..
  | .separator .., .choice .. | .separator .., .group ..
  | .foreign .., .literal .. | .foreign .., .ruleRef .. | .foreign .., .separator ..
  | .foreign .., .choice .. | .foreign .., .group ..
  | .choice .., .literal .. | .choice .., .ruleRef .. | .choice .., .separator ..
  | .choice .., .foreign .. | .choice .., .group ..
  | .group .., .literal .. | .group .., .ruleRef .. | .group .., .separator ..
  | .group .., .foreign .. | .group .., .choice .. => .isFalse (by intro h; injection h)

def decEqList : (as bs : List Element) → Decidable (as = bs)
  | [], [] => .isTrue rfl
  | [], _ :: _ | _ :: _, [] => .isFalse (by intro h; injection h)
  | a :: as, b :: bs =>
    match decEq a b with
    | .isFalse h => .isFalse (by intro h'; injection h'; contradiction)
    | .isTrue h => match decEqList as bs with
      | .isFalse hs => .isFalse (by intro h'; injection h'; contradiction)
      | .isTrue hs => .isTrue (by rw [h, hs])
end

/-- Nodes are compared; a node that stands at several places is recognised at once. -/
instance : DecidableEq Element := fun a b => withPtrEqDecEq a b fun _ => decEq a b

/-! ### Parts -/

/-- The name of an element; an object outside the model may have none. -/
def name? : Element → Option String
  | .literal _ n | .group _ n _ _ | .choice _ n _ | .ruleRef _ n | .separator _ n => some n
  | .foreign _ _ n => n

/-- The elements of a group or choice. -/
def children : Element → List Element
  | .group _ _ _ es | .choice _ _ es => es
  | _ => []

def isSeparator : Element → Bool
  | .separator .. => true
  | _ => false

mutual
/-- An element with everything that stands inside it. -/
def parts : Element → List Element
  | .group i n r es => .group i n r es :: partsAll es
  | .choice i n es => .choice i n es :: partsAll es
  | .literal i n => [.literal i n]
  | .ruleRef i n => [.ruleRef i n]
  | .separator i n => [.separator i n]
  | .foreign i k n => [.foreign i k n]

/-- Elements with everything that stands inside them. -/
def partsAll : List Element → List Element
  | [] => []
  | e :: es => e.parts ++ partsAll es
end

/-- Elements have a one-line description that does not go into their children. -/
def describe : Element → String
  | .literal _ n => "LiteralElement(" ++ Text.quoted n ++ ")"
  | .group _ n r es =>
    "ElementGroup(" ++ toString es.length ++ " elements" ++ r.suffix ++ ", name=" ++ Text.quoted n
      ++ ")"
  | .choice _ n es =>
    "Choice(" ++ toString es.length ++ " choices, name=" ++ Text.quoted n ++ ")"
  | .ruleRef _ n => "RuleRefElement(" ++ Text.quoted n ++ ")"
  | .separator _ n => "Separator(" ++ Text.quoted n ++ ")"
  | .foreign _ kind _ => "<" ++ kind ++ ">"

theorem mem_parts_self (e : Element) : e ∈ e.parts := by
  cases e <;> simp [parts]

theorem mem_partsAll {es : List Element} {d : Element} :
    d ∈ partsAll es ↔ ∃ e ∈ es, d ∈ e.parts := by
  induction es with
  | nil => simp [partsAll]
  | cons e es ih => simp [partsAll, ih]

theorem mem_parts_of_mem_children {e d : Element} (h : d ∈ e.children) : d ∈ e.parts := by
  cases e with
  | group i n r es =>
    exact List.mem_cons_of_mem _ (mem_partsAll.2 ⟨d, h, d.mem_parts_self⟩)
  | choice i n es =>
    exact List.mem_cons_of_mem _ (mem_partsAll.2 ⟨d, h, d.mem_parts_self⟩)
  | _ => exact absurd h List.not_mem_nil

mutual
/-- The parts of a part are parts. -/
theorem parts_subset_of_mem : (e : Element) → ∀ {d : Element}, d ∈ e.parts → d.parts ⊆ e.parts
  | .group i n r es, d, h => by
    rcases List.mem_cons.1 h with rfl | h
    · exact fun _ hx => hx
    · exact fun _ hx => List.mem_cons_of_mem _ (partsAll_subset_of_mem es h hx)
  | .choice i n es, d, h => by
    rcases List.mem_cons.1 h with rfl | h
    · exact fun _ hx => hx
    · exact fun _ hx => List.mem_cons_of_mem _ (partsAll_subset_of_mem es h hx)
  | .literal i n, d, h => by cases List.mem_singleton.1 h; exact fun _ hx => hx
  | .ruleRef i n, d, h => by cases List.mem_singleton.1 h; exact fun _ hx => hx
  | .separator i n, d, h => by cases List.mem_singleton.1 h; exact fun _ hx => hx
  | .foreign i k n, d, h => by cases List.mem_singleton.1 h; exact fun _ hx => hx

theorem partsAll_subset_of_mem : (es : List Element) → ∀ {d : Element}, d ∈ partsAll es →
    d.parts ⊆ partsAll es
  | [], d, h => absurd h List.not_mem_nil
  | e :: es, d, h => by
    rcases List.mem_append.1 h with h | h
    · exact fun _ hx => List.mem_append_left _ (parts_subset_of_mem e h hx)
    · exact fun _ hx => List.mem_append_right _ (partsAll_subset_of_mem es h hx)
end

end Element

end GrammarCoverage
