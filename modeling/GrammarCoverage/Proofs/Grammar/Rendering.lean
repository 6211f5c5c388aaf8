import GrammarCoverage.Grammar.Render
import Mathlib

/-!
# Rendering to a depth

To render an element to a depth is to cut it off at that depth (`Element.truncate`) and to render
what is left in full (`Element.fullText`). The nodes at that depth are the ones cut off
(`Element.nodeAt?_truncate`), so nothing is cut off an element that is not as high
(`Element.truncate_of_height_lt`).
-/

namespace GrammarCoverage

namespace Element

mutual

/-- An element in one line, with all its levels. -/
def fullText : Element → String
  | .literal _ name => "'" ++ name ++ "'"
  | .ruleRef _ name => name
  | .separator _ name => if name.isEmpty then "<sep>" else name
  | .group _ _ r es => parenthesized (" ".intercalate (fullTexts es)) ++ r.suffix
  | .choice _ _ es => parenthesized (" | ".intercalate (fullTexts es))
  | .foreign _ kind _ => "<" ++ kind ++ ">"

/-- Elements in one line each. -/
def fullTexts : List Element → List String
  | [] => []
  | e :: es => e.fullText :: fullTexts es

end

/-- The leaf that stands for what has been cut off. -/
def ellipsis : Element := .ruleRef 0 "..."

/-- An element with every node at the given depth below it cut off. -/
def truncate : Nat → Element → Element
  | 0, _ => ellipsis
  | depth + 1, .group id name r es => .group id name r (es.map (truncate depth))
  | depth + 1, .choice id name es => .choice id name (es.map (truncate depth))
  | _ + 1, e => e

/-- The node to which a path leads from an element: each step is a place among the children. -/
def nodeAt? : List Nat → Element → Option Element
  | [], e => some e
  | i :: path, e => e.children[i]?.bind (nodeAt? path)

mutual

/-- How deep the deepest node of an element is below it. -/
def height : Element → Nat
  | .group _ _ _ es | .choice _ _ es => heightAll es
  | _ => 0

/-- How deep the deepest node is below elements that stand side by side. -/
def heightAll : List Element → Nat
  | [] => 0
  | e :: es => max (e.height + 1) (heightAll es)

end

variable {e : Element} {es : List Element} {depth : Nat}

lemma fullTexts_eq_map (es : List Element) : fullTexts es = es.map fullText := by
  induction es with
  | nil => rfl
  | cons e es ih => rw [fullTexts, ih, List.map_cons]

lemma height_lt_heightAll (h : e ∈ es) : e.height < heightAll es := by
  induction es with
  | nil => cases h
  | cons c es ih =>
    rw [heightAll]
    rcases List.mem_cons.mp h with rfl | h
    · omega
    · have := ih h
      omega

lemma render_eq (depth : Nat) (e : Element) :
    e.render depth = (e.truncate depth).fullText := by
  induction depth generalizing e with
  | zero => rfl
  | succ depth ih =>
    have hmap (es : List Element) :
        fullTexts (es.map (truncate depth)) = es.map (render depth) := by
      rw [fullTexts_eq_map, List.map_map]
      exact List.map_congr_left fun e _ => (ih e).symm
    cases e with
    | group id name r es => rw [render, truncate, fullText, hmap]
    | choice id name es => rw [render, truncate, fullText, hmap]
    | literal | ruleRef | separator | foreign => rfl

lemma children_truncate (depth : Nat) (e : Element) :
    (e.truncate (depth + 1)).children = e.children.map (truncate depth) := by
  cases e <;> rfl

/-- At the depth itself stands an ellipsis for every node, above it the nodes stand as before but
for what is cut off below them, and nothing stands deeper. -/
lemma nodeAt?_truncate (depth : Nat) (e : Element) (path : List Nat) :
    (e.truncate depth).nodeAt? path =
      if path.length ≤ depth then (e.nodeAt? path).map (truncate (depth - path.length))
      else none := by
  induction depth generalizing e path with
  | zero => cases path <;> rfl
  | succ depth ih =>
    cases path with
    | nil => rfl
    | cons i path =>
      rw [nodeAt?, nodeAt?, children_truncate, List.getElem?_map]
      cases e.children[i]? with
      | none => simp
      | some c => simpa using ih c path

/-- Above its own height nothing is cut off an element. -/
lemma truncate_of_height_lt (h : e.height < depth) : e.truncate depth = e := by
  induction depth generalizing e with
  | zero => exact absurd h (Nat.not_lt_zero _)
  | succ depth ih =>
    have hmap {es : List Element} (h : heightAll es < depth + 1) :
        es.map (truncate depth) = es := by
      conv_rhs => rw [← List.map_id es]
      apply List.map_congr_left
      intro e he
      have := height_lt_heightAll he
      exact ih (by omega)
    cases e with
    | group id name r es => rw [truncate, hmap h]
    | choice id name es => rw [truncate, hmap h]
    | literal | ruleRef | separator | foreign => rfl

lemma length_partsAll_map_le {f : Element → Element} {es : List Element}
    (h : ∀ e, (f e).parts.length ≤ e.parts.length) :
    (partsAll (es.map f)).length ≤ (partsAll es).length := by
  induction es with
  | nil => rfl
  | cons e es ih =>
    rw [List.map_cons, partsAll, partsAll, List.length_append, List.length_append]
    exact Nat.add_le_add (h e) ih

lemma length_parts_truncate_le (depth : Nat) (e : Element) :
    (e.truncate depth).parts.length ≤ e.parts.length := by
  induction depth generalizing e with
  | zero => exact List.length_pos_of_mem e.mem_parts_self
  | succ depth ih =>
    cases e with
    | group id name r es => exact Nat.succ_le_succ (length_partsAll_map_le ih)
    | choice id name es => exact Nat.succ_le_succ (length_partsAll_map_le ih)
    | literal | ruleRef | separator | foreign => exact Nat.le_refl _

/-- **To render an element to a depth is to render in full what is left of it when every node at
that depth is replaced by an ellipsis.** A depth that is not positive leaves the ellipsis alone, and
all depths above its height come to the same text. A reference is shown by its name and not
followed, so a rendering comes to no more nodes than the element has, whatever the rules are. -/
theorem render_eq_fullText_truncate (e : Element) (depth : Int) :
    e.render depth.toNat = (e.truncate depth.toNat).fullText ∧
    ellipsis.fullText = "..." ∧
    (depth ≤ 0 → e.truncate depth.toNat = ellipsis) ∧
    (∀ path : List Nat, (e.truncate depth.toNat).nodeAt? path =
      if path.length ≤ depth.toNat then
        (e.nodeAt? path).map (truncate (depth.toNat - path.length))
      else none) ∧
    (e.height < depth → e.render depth.toNat = e.fullText ∧
      ∀ other : Int, e.height < other → e.render other.toNat = e.render depth.toNat) ∧
    (0 < depth → ∀ id name, (ruleRef id name).render depth.toNat = name) ∧
    (e.truncate depth.toNat).parts.length ≤ e.parts.length := by
  have hfull {n : Int} (h : e.height < n) : e.render n.toNat = e.fullText := by
    rw [render_eq, truncate_of_height_lt (by omega)]
  refine ⟨render_eq _ e, rfl, fun h => ?_, nodeAt?_truncate _ e, fun h => ⟨hfull h, fun n hn => ?_⟩,
    fun h id name => ?_, length_parts_truncate_le _ e⟩
  · rw [Int.toNat_of_nonpos h]
    rfl
  · rw [hfull hn, hfull h]
  · have hheight : ((ruleRef id name).height : Int) < depth := h
    rw [render_eq, truncate_of_height_lt (by omega), fullText]

/-- A group of all kinds of elements, with one choice inside it. -/
def nest : Element :=
  .group 1 "" .oneOrMore [.literal 2 "a", .choice 3 "" [.ruleRef 4 "list", .separator 5 ""],
    .foreign 6 "object" none, .group 7 "" .optional []]

theorem render_eq_fullText_truncate_nest :
    nest.render 2 = "( 'a' ( ... | ... ) <object> ( )? )+" ∧
    (nest.truncate 2).fullText = "( 'a' ( ... | ... ) <object> ( )? )+" ∧
    nest.truncate (-1 : Int).toNat = ellipsis ∧
    nest.render 3 = "( 'a' ( list | <sep> ) <object> ( )? )+" ∧
    nest.render 1000 = nest.render 3 := by
  have hheight : (nest.height : Int) < 3 := by decide
  obtain ⟨htext, _⟩ := render_eq_fullText_truncate nest 2
  obtain ⟨_, _, hnone, _⟩ := render_eq_fullText_truncate nest (-1)
  obtain ⟨_, _, _, _, hfull, _⟩ := render_eq_fullText_truncate nest 3
  have hrender : nest.render 2 = "( 'a' ( ... | ... ) <object> ( )? )+" := rfl
  exact ⟨hrender, htext.symm.trans hrender, hnone (by decide), (hfull hheight).1.trans rfl,
    (hfull hheight).2 1000 (by omega)⟩

end Element

end GrammarCoverage
