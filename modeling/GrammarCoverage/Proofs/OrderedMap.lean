import GrammarCoverage.OrderedMap
import Mathlib

/-!
# Entries and keys of a map

A look-up finds exactly the entries, and replacing a value leaves the keys as they are. Keys occur
once, so that names taken from a map and sorted are strictly increasing.
-/

namespace GrammarCoverage

/-- Names without repetitions are strictly increasing once they are sorted. -/
lemma pairwise_lt_mergeSort {names : List String} (h : names.Nodup) :
    (names.mergeSort fun a b => decide (a ≤ b)).Pairwise (· < ·) := by
  have hle : (names.mergeSort fun a b => decide (a ≤ b)).Pairwise (· ≤ ·) :=
    List.pairwise_mergeSort' _ names
  have hne : (names.mergeSort fun a b => decide (a ≤ b)).Nodup :=
    (List.mergeSort_perm names _).nodup_iff.mpr h
  exact hle.imp₂ (fun _ _ => lt_of_le_of_ne) hne

namespace OrderedMap

universe u v

variable {α : Type u} {β : Type v} [DecidableEq α] {m : OrderedMap α β} {k : α} {v : β}

/-- A look-up finds exactly the values of the entries. -/
lemma get?_eq_some_iff : m.get? k = some v ↔ (k, v) ∈ m.entries := by
  obtain ⟨entries, hnodup⟩ := m
  simp only [get?]
  induction entries with
  | nil => simp
  | cons e entries ih =>
    rw [List.map_cons, List.nodup_cons] at hnodup
    obtain ⟨k', v'⟩ := e
    by_cases hk : k' = k
    · subst hk
      rw [List.find?_cons_of_pos (by simp), List.mem_cons]
      constructor
      · intro h
        cases h
        exact .inl rfl
      · rintro (h | h)
        · cases h
          rfl
        · exact absurd (List.mem_map.mpr ⟨_, h, rfl⟩) hnodup.1
    · rw [List.find?_cons_of_neg (by simpa using hk), ih hnodup.2, List.mem_cons]
      constructor
      · exact .inr
      · rintro (h | h)
        · cases h
          exact absurd rfl hk
        · exact h

lemma mem_keys_iff : k ∈ m.keys ↔ (m.get? k).isSome := by
  rw [← contains_eq_isSome, contains, List.contains_iff_mem]

/-- A new value at an old key leaves the keys as they are. -/
lemma keys_insert_of_mem (h : k ∈ m.keys) : (m.insert k v).keys = m.keys :=
  (keys_insertEntry k v m.entries).trans (if_pos h)

/-- A new key comes last, with its value. -/
lemma entries_insert_of_not_mem (h : k ∉ m.keys) :
    (m.insert k v).entries = m.entries ++ [(k, v)] := by
  obtain ⟨entries, hnodup⟩ := m
  simp only [keys, insert] at h ⊢
  clear hnodup
  induction entries with
  | nil => rfl
  | cons e entries ih =>
    rw [List.map_cons, List.mem_cons, not_or] at h
    rw [insertEntry, if_neg (Ne.symm h.1), ih h.2, List.cons_append]

/-- The order of the entries does not matter to a look-up. -/
lemma get?_eq_of_perm {m' : OrderedMap α β} (h : m.entries.Perm m'.entries) (k : α) :
    m.get? k = m'.get? k := by
  apply Option.ext
  intro v
  rw [get?_eq_some_iff, get?_eq_some_iff, h.mem_iff]

end OrderedMap

end GrammarCoverage
