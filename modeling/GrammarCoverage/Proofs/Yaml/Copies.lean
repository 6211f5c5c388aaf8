import GrammarCoverage.Proofs.Value.Views
import GrammarCoverage.Yaml.Document

/-!
# Copies of documents

A document is copied into another one if its nodes are there under other numbers, each with its own
number, and stand for the same with those numbers (`Document.Copied`). A node and its copy look the
same from outside, and have the same value, also where they lie within themselves.
-/

namespace GrammarCoverage.Yaml

variable {f : NodeId → NodeId} {i j : NodeId}

/-! ### Other numbers -/

/-- The same key in a document with other numbers. -/
def Key.rename (f : NodeId → NodeId) (k : Key) : Key := ⟨k.value, k.origin?.map f⟩

namespace Datum

/-- The same in a document with other numbers. -/
def rename (f : NodeId → NodeId) : Datum → Datum
  | .scalar k => .scalar (k.rename f)
  | .list items => .list (items.map f)
  | .pairs items => .pairs (items.map fun p => (f p.1, f p.2))
  | .set members => .set (members.map (Key.rename f))
  | .mapping entries => .mapping (entries.map fun e => (e.1.rename f, f e.2))

/-- The nodes right inside of a collection. -/
def children : Datum → List NodeId
  | .scalar _ | .set _ => []
  | .list items => items
  | .pairs items => items.flatMap fun p => [p.1, p.2]
  | .mapping entries => entries.map Prod.snd

lemma children_rename (f : NodeId → NodeId) (x : Datum) :
    (x.rename f).children = x.children.map f := by
  cases x <;> simp [rename, children, List.flatMap_map, List.map_flatMap]

end Datum

namespace Document

variable {d d' : Document} {path : List NodeId}

/-- A node lies within another one, or is that one. -/
def Within (d : Document) : NodeId → NodeId → Prop :=
  Relation.ReflTransGen fun i j => j ∈ (d.get i).children

/-- What lies within the root of a document is in another one under other numbers. -/
structure Copied (d d' : Document) (f : NodeId → NodeId) : Prop where
  injOn : Set.InjOn f {i | d.Within d.root i}
  get_eq : ∀ i, d.Within d.root i → d'.get (f i) = (d.get i).rename f

/-- Some nodes that lead nowhere else are all that has to be looked at. -/
lemma copied_of_closed (nodes : List NodeId) (hf : Function.Injective f) (hroot : d.root ∈ nodes)
    (hclosed : ∀ i ∈ nodes, ∀ j ∈ (d.get i).children, j ∈ nodes)
    (hget : ∀ i ∈ nodes, d'.get (f i) = (d.get i).rename f) : d.Copied d' f where
  injOn := hf.injOn
  get_eq i hi := by
    have hmem : i ∈ nodes := by
      induction hi with
      | refl => exact hroot
      | tail _ hj ih => exact hclosed _ ih _ hj
    exact hget i hmem

lemma lt_size_of_mem_children (h : j ∈ (d.get i).children) : i < d.data.size := by
  by_contra hi
  rw [get, Array.getElem?_eq_none (Nat.le_of_not_lt hi)] at h
  cases h

lemma Copied.mem_children (h : d.Copied d' f) (hi : d.Within d.root i)
    (hj : j ∈ (d.get i).children) : f j ∈ (d'.get (f i)).children := by
  rw [h.get_eq i hi, Datum.children_rename]
  exact List.mem_map_of_mem hj

lemma setMembers_map_rename (f : NodeId → NodeId) (members : List Key) :
    setMembers (members.map (Key.rename f)) = setMembers members := by
  rw [setMembers, setMembers, List.map_map]
  rfl

/-! ### Values -/

/-- A way into a document: collections with something in them, none of them twice. -/
structure Way (d : Document) (path : List NodeId) : Prop where
  within : ∀ i ∈ path, d.Within d.root i
  inhabited : ∀ i ∈ path, ∃ j, j ∈ (d.get i).children
  nodup : path.Nodup

lemma way_nil : d.Way [] where
  within _ h := by cases h
  inhabited _ h := by cases h
  nodup := List.nodup_nil

lemma Way.cons (h : d.Way path) (hi : d.Within d.root i) (hpath : i ∉ path)
    (hj : j ∈ (d.get i).children) : d.Way (i :: path) where
  within := by
    intro k hk
    rcases List.mem_cons.mp hk with rfl | hk
    · exact hi
    · exact h.within k hk
  inhabited := by
    intro k hk
    rcases List.mem_cons.mp hk with rfl | hk
    · exact ⟨j, hj⟩
    · exact h.inhabited k hk
  nodup := List.nodup_cons.mpr ⟨hpath, h.nodup⟩

lemma length_le_size (hnodup : path.Nodup) (h : ∀ i ∈ path, ∃ j, j ∈ (d.get i).children) :
    path.length ≤ d.data.size := by
  have hsub : path ⊆ List.range d.data.size := by
    intro i hi
    obtain ⟨j, hj⟩ := h i hi
    exact List.mem_range.mpr (lt_size_of_mem_children hj)
  simpa using (hnodup.subperm hsub).length_le

namespace Copied

lemma mem_map_iff (h : d.Copied d' f) (hway : d.Way path) (hi : d.Within d.root i) :
    f i ∈ path.map f ↔ i ∈ path := by
  constructor
  · intro hmem
    obtain ⟨j, hj, heq⟩ := List.mem_map.mp hmem
    rwa [← h.injOn (hway.within j hj) hi heq]
  · exact List.mem_map_of_mem

lemma length_le_size (h : d.Copied d' f) (hway : d.Way path) : path.length ≤ d'.data.size := by
  rw [← List.length_map f]
  apply Document.length_le_size
  · exact hway.nodup.map_on fun i hi j hj => h.injOn (hway.within i hi) (hway.within j hj)
  · intro k hk
    obtain ⟨i, hi, rfl⟩ := List.mem_map.mp hk
    obtain ⟨j, hj⟩ := hway.inhabited i hi
    exact ⟨f j, h.mem_children (hway.within i hi) hj⟩

/-- The values below a way and below its copy are the same, as long as they are not cut off. -/
lemma valueIn_eq {m n : Nat} (h : d.Copied d' f) (hway : d.Way path) (hi : d.Within d.root i)
    (hm : d'.data.size < m + path.length) (hn : d.data.size < n + path.length) :
    d'.valueIn m (path.map f) (f i) = d.valueIn n path i := by
  induction m generalizing n path i with
  | zero =>
    have hlength := h.length_le_size hway
    omega
  | succ m ih =>
    cases n with
    | zero =>
      have hlength := Document.length_le_size hway.nodup hway.inhabited
      omega
    | succ n =>
      -- what stands in a collection is seen from one step further down
      have hchild (hpath : i ∉ path) (j : NodeId) (hj : j ∈ (d.get i).children) :
          d'.valueIn m (f i :: path.map f) (f j) = d.valueIn n (i :: path) j := by
        refine ih (hway.cons hi hpath hj) (hi.tail hj) ?_ ?_
        · rw [List.length_cons]
          omega
        · rw [List.length_cons]
          omega
      have hmem := h.mem_map_iff hway hi
      rw [valueIn, valueIn, h.get_eq i hi]
      cases hd : d.get i with
      | scalar k => rfl
      | set members => simp only [Datum.rename, setMembers_map_rename]
      | list items =>
        simp only [Datum.rename, hmem, List.map_map]
        split
        · rfl
        · next hpath =>
          congr 1
          refine List.map_congr_left fun j hj => hchild hpath j ?_
          rwa [hd]
      | pairs items =>
        simp only [Datum.rename, hmem, List.map_map]
        split
        · rfl
        · next hpath =>
          congr 1
          refine List.map_congr_left fun p hp => ?_
          have hfirst : p.1 ∈ (d.get i).children := by
            rw [hd]
            exact List.mem_flatMap.mpr ⟨p, hp, by simp⟩
          have hsecond : p.2 ∈ (d.get i).children := by
            rw [hd]
            exact List.mem_flatMap.mpr ⟨p, hp, by simp⟩
          simp only [Function.comp, hchild hpath _ hfirst, hchild hpath _ hsecond]
      | mapping entries =>
        simp only [Datum.rename, hmem, List.map_map]
        split
        · rfl
        · next hpath =>
          congr 1
          refine List.map_congr_left fun e he => ?_
          have hvalue : e.2 ∈ (d.get i).children := by
            rw [hd]
            exact List.mem_map_of_mem he
          simp only [Function.comp, Key.rename, hchild hpath _ hvalue]

lemma value_eq (h : d.Copied d' f) (hi : d.Within d.root i) : d'.value (f i) = d.value i :=
  h.valueIn_eq way_nil hi (by simp) (by simp)

/-- A node and its copy look the same from outside. -/
lemma map_outline_eq (h : d.Copied d' f) (hi : d.Within d.root i) :
    (d'.outline (f i)).map d'.value = (d.outline i).map d.value := by
  rw [outline, outline, h.get_eq i hi]
  cases hd : d.get i with
  | scalar k =>
    obtain ⟨v, origin?⟩ := k
    cases v <;> rfl
  | list items | pairs items => simp [Datum.rename, Outline.map]
  | set members => simp [Datum.rename, Outline.map]
  | mapping entries =>
    simp only [Datum.rename, Outline.map, List.map_map]
    congr 1
    refine List.map_congr_left fun e he => ?_
    have hvalue : e.2 ∈ (d.get i).children := by
      rw [hd]
      exact List.mem_map_of_mem he
    simp only [Function.comp, Key.rename, h.value_eq (hi.tail hvalue)]

end Copied

end Document

end GrammarCoverage.Yaml
