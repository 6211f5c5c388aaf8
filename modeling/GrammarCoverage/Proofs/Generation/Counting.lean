import GrammarCoverage.Generation.Rounds
import Mathlib

/-!
# Counting texts

As long as all counts are natural numbers, a text can be counted: each tracked name in it has one
use more then, and nothing else changes (`Crawler.CountedAs.exists_countText`).
-/

namespace GrammarCoverage

lemma Value.isZero_int {n : Int} : (Value.int n).isZero = true ↔ n = 0 := by
  have hrat (m : Int) : (Dyadic.ofInt m).toRat = m := Dyadic.toRat_intCast m
  have hsame : (Value.int n).isZero = true ↔ Dyadic.ofInt n = Dyadic.ofInt 0 :=
    Number.same_finite
  rw [hsame, ← Dyadic.toRat_inj, hrat, hrat, Int.cast_inj]

namespace Crawler

/-- The tracked names are those with a number of uses, and their counts are these numbers. -/
def CountedAs (c : Crawler) (uses : String → Option Nat) : Prop :=
  ∀ name, c.usage.get? name = (uses name).map fun n => .int n

variable {c : Crawler} {uses : String → Option Nat}

lemma CountedAs.contains_eq (h : c.CountedAs uses) (name : String) :
    c.usage.contains name = (uses name).isSome := by
  rw [OrderedMap.contains_eq_isSome, h, Option.isSome_map]

/-- The literals with a count of zero are those that are tracked and have no use. -/
lemma CountedAs.isUnused_iff (h : c.CountedAs uses) {name : String} :
    c.isUnused name = true ↔ uses name = some 0 := by
  rw [isUnused, count?, h]
  cases uses name with
  | none => simp
  | some n => simpa using Value.isZero_int.trans Int.natCast_eq_zero

/-- The numbers of uses after some names have been counted, one by one. -/
def addUses (uses : String → Option Nat) (names : List String) (name : String) : Option Nat :=
  (uses name).map (· + names.count name)

lemma addUses_nil (uses : String → Option Nat) : addUses uses [] = uses := by
  funext name
  simp [addUses]

lemma addUses_cons (uses : String → Option Nat) (name : String) (names : List String) :
    addUses uses (name :: names) = addUses (addUses uses [name]) names := by
  funext k
  simp only [addUses, Option.map_map]
  congr 1
  funext n
  simp only [Function.comp, List.count_cons, List.count_nil]
  omega

/-- A name that is not tracked stays untracked. -/
lemma addUses_cons_of_none {name : String} (h : uses name = none) (names : List String) :
    addUses uses (name :: names) = addUses uses names := by
  funext k
  by_cases hk : name = k
  · rw [addUses, addUses, ← hk, h, Option.map_none, Option.map_none]
  · rw [addUses, addUses, List.count_cons_of_ne hk]

lemma CountedAs.increment (h : c.CountedAs uses) {name : String} {n : Nat}
    (hn : uses name = some n) :
    ∃ c', c.increment name = .ok c' ∧ c'.scope = c.scope ∧ c'.CountedAs (addUses uses [name]) := by
  refine ⟨c.setUsage name (.int (n + 1)), ?_, rfl, fun k => ?_⟩
  · rw [Crawler.increment, h, hn]
    rfl
  · rw [setUsage, OrderedMap.get?_insert]
    by_cases hk : name = k
    · subst hk
      rw [if_pos rfl, addUses, hn, List.count_singleton_self]
      rfl
    · rw [if_neg hk, h, addUses, List.count_cons_of_ne hk]
      simp

/-- Counting names one by one adds to each tracked name how often it occurs. -/
lemma CountedAs.exists_incrementEach (h : c.CountedAs uses) (names : List String) :
    ∃ c', c.incrementEach names = .ok c' ∧ c'.scope = c.scope ∧
      c'.CountedAs (addUses uses names) := by
  induction names generalizing c uses with
  | nil =>
    rw [addUses_nil]
    exact ⟨c, rfl, rfl, h⟩
  | cons name names ih =>
    rw [incrementEach, h.contains_eq]
    cases hn : uses name with
    | none =>
      rw [addUses_cons_of_none hn]
      exact ih h
    | some n =>
      obtain ⟨c₁, hc₁, hscope₁, hcounted⟩ := h.increment hn
      obtain ⟨c', hc, hscope, hcounts⟩ := ih hcounted
      rw [addUses_cons]
      refine ⟨c', ?_, hscope.trans hscope₁, hcounts⟩
      simpa [hc₁] using hc

/-- A text is counted by one use more for each tracked name in it. -/
theorem CountedAs.exists_countText (h : c.CountedAs uses) (tokens : List String) :
    ∃ c', c.countText tokens = .ok c' ∧ c'.scope = c.scope ∧
      c'.CountedAs fun name => (uses name).map (· + if name ∈ tokens then 1 else 0) := by
  obtain ⟨c', hc, hscope, hcounts⟩ := h.exists_incrementEach (NameSet.ofList tokens).names
  refine ⟨c', hc, hscope, ?_⟩
  simpa only [addUses, CountedAs, List.Nodup.count (NameSet.ofList tokens).nodup, NameSet.mem_names,
    NameSet.mem_ofList] using hcounts

end Crawler

end GrammarCoverage
