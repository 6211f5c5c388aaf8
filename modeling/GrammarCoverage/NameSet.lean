/-!
# Sets of names

A finite set of texts, listed in order of insertion and shown in the order of code points.
-/

namespace GrammarCoverage

/-- A finite set of names. -/
structure NameSet where
  names : List String
  nodup : names.Nodup

namespace NameSet

def empty : NameSet := ⟨[], List.nodup_nil⟩

instance : Inhabited NameSet := ⟨empty⟩

instance : Membership String NameSet := ⟨fun s a => a ∈ s.names⟩

instance (a : String) (s : NameSet) : Decidable (a ∈ s) :=
  inferInstanceAs (Decidable (a ∈ s.names))

def size (s : NameSet) : Nat := s.names.length

def insert (s : NameSet) (a : String) : NameSet :=
  if h : a ∈ s.names then s
  else ⟨s.names ++ [a], List.nodup_append.2 ⟨s.nodup, by simp, fun x hx y hy hxy =>
    h ((List.mem_singleton.1 hy) ▸ hxy ▸ hx)⟩⟩

def erase (s : NameSet) (a : String) : NameSet :=
  ⟨s.names.filter (· ≠ a), List.Nodup.sublist List.filter_sublist s.nodup⟩

def ofList (l : List String) : NameSet := l.foldl insert empty

/-- The names in increasing order of code points. -/
def sorted (s : NameSet) : List String := s.names.mergeSort (fun a b => decide (a ≤ b))

@[simp] theorem mem_names {a : String} {s : NameSet} : a ∈ s.names ↔ a ∈ s := Iff.rfl

@[simp] theorem not_mem_empty (a : String) : a ∉ empty := by
  simp [← mem_names, empty]

@[simp] theorem mem_insert {a b : String} {s : NameSet} : a ∈ s.insert b ↔ a ∈ s ∨ a = b := by
  unfold insert
  split
  · next h =>
    constructor
    · exact .inl
    · rintro (h' | rfl)
      · exact h'
      · exact h
  · simp [← mem_names]

@[simp] theorem mem_erase {a b : String} {s : NameSet} : a ∈ s.erase b ↔ a ∈ s ∧ a ≠ b := by
  simp [← mem_names, erase]

theorem mem_foldl_insert {a : String} (l : List String) (s : NameSet) :
    a ∈ l.foldl insert s ↔ a ∈ s ∨ a ∈ l := by
  induction l generalizing s with
  | nil => simp
  | cons b l ih => simp [ih, or_assoc]

@[simp] theorem mem_ofList {a : String} {l : List String} : a ∈ ofList l ↔ a ∈ l := by
  simp [ofList, mem_foldl_insert]

@[simp] theorem mem_sorted {a : String} {s : NameSet} : a ∈ s.sorted ↔ a ∈ s := by
  simp [sorted]

end NameSet

end GrammarCoverage
