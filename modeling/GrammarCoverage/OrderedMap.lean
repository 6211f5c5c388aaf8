/-!
# Maps in order of insertion

A finite map that lists its entries in the order in which their keys were first inserted. A key
occurs once, so the map is its look-up function together with that order.
-/

namespace GrammarCoverage

universe u v

/-- A finite map whose entries keep the order in which their keys were first inserted. -/
structure OrderedMap (α : Type u) (β : Type v) where
  entries : List (α × β)
  nodup : (entries.map Prod.fst).Nodup

namespace OrderedMap

variable {α : Type u} {β : Type v}

def empty : OrderedMap α β := ⟨[], List.nodup_nil⟩

instance : Inhabited (OrderedMap α β) := ⟨empty⟩

def keys (m : OrderedMap α β) : List α := m.entries.map Prod.fst

def size (m : OrderedMap α β) : Nat := m.entries.length

variable [DecidableEq α]

def get? (m : OrderedMap α β) (k : α) : Option β :=
  (m.entries.find? (·.1 = k)).map Prod.snd

def contains (m : OrderedMap α β) (k : α) : Bool := m.keys.contains k

/-- Replace the value at a key where it stands, or add an entry at the end. -/
def insertEntry (k : α) (v : β) : List (α × β) → List (α × β)
  | [] => [(k, v)]
  | e :: rest => if e.1 = k then (k, v) :: rest else e :: insertEntry k v rest

theorem keys_insertEntry (k : α) (v : β) (l : List (α × β)) :
    (insertEntry k v l).map Prod.fst
      = if k ∈ l.map Prod.fst then l.map Prod.fst else l.map Prod.fst ++ [k] := by
  induction l with
  | nil => simp [insertEntry]
  | cons e rest ih =>
    by_cases h : e.1 = k
    · simp [insertEntry, h]
    · have hk : k ≠ e.1 := fun hk => h hk.symm
      simp only [insertEntry, h, if_false, List.map_cons, ih, List.mem_cons, hk, false_or]
      split <;> simp

/-- The map with a value at a key; a new key comes last. -/
def insert (m : OrderedMap α β) (k : α) (v : β) : OrderedMap α β where
  entries := insertEntry k v m.entries
  nodup := by
    rw [keys_insertEntry]
    split
    · exact m.nodup
    · next h =>
      refine List.nodup_append.2 ⟨m.nodup, by simp, ?_⟩
      intro a ha b hb hab
      exact h ((List.mem_singleton.1 hb) ▸ hab ▸ ha)

def erase (m : OrderedMap α β) (k : α) : OrderedMap α β where
  entries := m.entries.filter (·.1 ≠ k)
  nodup := List.Nodup.sublist (List.filter_sublist.map Prod.fst) m.nodup

/-- Change the value at a key, if it has one. -/
def modify (m : OrderedMap α β) (k : α) (f : β → β) : OrderedMap α β :=
  match m.get? k with
  | some v => m.insert k (f v)
  | none => m

/-- The map of a list of entries; of two with one key the later value wins. -/
def ofList (l : List (α × β)) : OrderedMap α β :=
  l.foldl (fun m e => m.insert e.1 e.2) empty

theorem find?_insertEntry (k k' : α) (v : β) (l : List (α × β)) :
    ((insertEntry k v l).find? (·.1 = k')).map Prod.snd
      = if k = k' then some v else (l.find? (·.1 = k')).map Prod.snd := by
  induction l with
  | nil => by_cases h : k = k' <;> simp [insertEntry, h]
  | cons e rest ih =>
    by_cases he : e.1 = k
    · by_cases h : k = k' <;> simp [insertEntry, he, h]
    · by_cases h : k = k'
      · subst h
        simp [insertEntry, he, ih]
      · rw [insertEntry, if_neg he]
        by_cases he' : e.1 = k'
        · simp [he', h]
        · rw [List.find?_cons_of_neg (by simp [he']), List.find?_cons_of_neg (by simp [he']), ih]

/-- After an insertion a look-up finds the new value at its key and the old ones elsewhere. -/
theorem get?_insert (m : OrderedMap α β) (k k' : α) (v : β) :
    (m.insert k v).get? k' = if k = k' then some v else m.get? k' :=
  find?_insertEntry k k' v m.entries

/-- A key is contained exactly when a look-up finds a value. -/
theorem contains_eq_isSome (m : OrderedMap α β) (k : α) : m.contains k = (m.get? k).isSome := by
  unfold contains get? keys
  induction m.entries with
  | nil => rfl
  | cons e rest ih =>
    by_cases h : e.1 = k
    · simp [h]
    · have : (k == e.1) = false := beq_eq_false_iff_ne.2 fun h' => h h'.symm
      rw [List.find?_cons_of_neg (by simp [h]), ← ih, List.map_cons, List.contains_cons, this,
        Bool.false_or]

end OrderedMap

end GrammarCoverage
