import GrammarCoverage.Grammar.Render
import GrammarCoverage.Reachability.Scope

/-!
# Discovery of literals

The names of the literals that an element can reach without entering a pruned one. The traversal is
depth-first over a stack of pending frames and enters every node at most once, so it ends on
recursive grammars and on grammars in which a node stands at several places. Every entered node
remembers the one that led to it; the path of a fault is read off these links.

The loop ends because each turn either enters a node of the territory for the first time or takes a
frame off the stack (`Traversal.measure_lt_of_step`).
-/

namespace GrammarCoverage

/-- A node that waits to be entered. -/
structure Frame where
  element : Element
  /-- The rule that is being expanded, if any. -/
  ruleName : Option String
  /-- The place in the trail of the node that led here; the root has none. -/
  parent : Option Nat

/-- A node that has been entered and opened. -/
structure TrailEntry where
  element : Element
  /-- The place in the trail of the node that led here; the root has none. -/
  parent : Option Nat

/-- The state of a traversal. -/
structure Traversal where
  /-- The frames that wait, the next one first. -/
  stack : List Frame
  /-- The nodes that have been met, pruned ones included. -/
  visited : List Element
  /-- The nodes that have been opened, in order. -/
  trail : Array TrailEntry
  /-- The names of the literals found so far. -/
  found : NameSet

/-- What one turn of the loop comes to. -/
inductive Turn where
  | finished
  | next (t : Traversal)
  | fault (f : ModelFault)

namespace Traversal

/-- The traversal that is about to enter its root. -/
def start (root : Element) : Traversal where
  stack := [⟨root, none, none⟩]
  visited := []
  trail := #[]
  found := .empty

/-- The nodes on the way from the root to the one at a place of the trail. -/
def chain (trail : Array TrailEntry) (i : Nat) : List Element :=
  match trail[i]? with
  | none => []
  | some entry =>
    match entry.parent with
    | some p => if p < i then chain trail p ++ [entry.element] else [entry.element]
    | none => [entry.element]

/-- The labels on the way from the root to the node at a place of the trail. -/
def path (trail : Array TrailEntry) (i : Nat) : List String :=
  (chain trail i).map Element.label

/-- Put elements on the stack, so that the first of them comes next. -/
def push (t : Traversal) (es : List Element) (ruleName : Option String) (parent : Nat) :
    Traversal :=
  { t with stack := es.map (⟨·, ruleName, some parent⟩) ++ t.stack }

/-- The state after a frame's element has been met for the first time and is not pruned. -/
def enter (t : Traversal) (f : Frame) (rest : List Frame) : Traversal where
  stack := rest
  visited := f.element :: t.visited
  trail := t.trail.push ⟨f.element, f.parent⟩
  found := t.found

/-- Take the next frame: drop it if its node has been met or is pruned, otherwise open it. -/
def step (s : Scope) (t : Traversal) : Turn :=
  match t.stack with
  | [] => .finished
  | f :: rest =>
    if f.element ∈ t.visited then .next { t with stack := rest }
    else if s.prunes f.element then
      .next { t with stack := rest, visited := f.element :: t.visited }
    else
      let here := t.trail.size
      let t' := t.enter f rest
      match s.opening f.element with
      | .literal name => .next { t' with found := t'.found.insert name }
      | .nothing => .next t'
      | .inside es => .next (t'.push es f.ruleName here)
      | .rule r => .next (t'.push r.elements (some r.name) here)
      | .fault cause => .fault { cause, ruleName := f.ruleName, path := path t'.trail here }

/-! ### The loop ends -/

/-- All pending nodes stand in the territory of the root. -/
def Inside (s : Scope) (root : Element) (t : Traversal) : Prop :=
  ∀ f ∈ t.stack, f.element ∈ s.territory root

theorem inside_start (s : Scope) (root : Element) : (start root).Inside s root := by
  intro f hf
  cases List.mem_singleton.1 hf
  exact s.mem_territory_root root

theorem inside_of_step {s : Scope} {root : Element} {t t' : Traversal} (h : t.Inside s root)
    (hs : t.step s = .next t') : t'.Inside s root := by
  unfold step at hs
  split at hs
  · cases hs
  · next f rest hst =>
    have hf : f.element ∈ s.territory root := h f (hst ▸ List.mem_cons_self)
    have hrest : ∀ g ∈ rest, g.element ∈ s.territory root :=
      fun g hg => h g (hst ▸ List.mem_cons_of_mem _ hg)
    have pushed (name : Option String) (es : List Element) (hes : es = s.successors f.element) :
        ((t.enter f rest).push es name t.trail.size).Inside s root := by
      intro g hg
      rcases List.mem_append.1 hg with hg | hg
      · obtain ⟨d, hd, rfl⟩ := List.mem_map.1 hg
        exact Scope.mem_territory_of_mem_successors hf (hes ▸ hd)
      · exact hrest g hg
    split at hs
    · cases hs; exact hrest
    · split at hs
      · cases hs; exact hrest
      · simp only at hs
        split at hs
        · cases hs; exact hrest
        · cases hs; exact hrest
        · next es ho => cases hs; exact pushed _ _ (by rw [Scope.successors, ho]; rfl)
        · next r ho => cases hs; exact pushed _ _ (by rw [Scope.successors, ho]; rfl)
        · cases hs

/-- The nodes of the territory that have not been met. -/
def unmet (s : Scope) (root : Element) (t : Traversal) : Nat :=
  (s.territory root).countP (· ∉ t.visited)

theorem countP_cons_lt {l visited : List Element} {e : Element} (he : e ∈ l) (hv : e ∉ visited) :
    l.countP (· ∉ e :: visited) < l.countP (· ∉ visited) := by
  induction l with
  | nil => exact absurd he List.not_mem_nil
  | cons d l ih =>
    have mono : l.countP (· ∉ e :: visited) ≤ l.countP (· ∉ visited) :=
      List.countP_mono_left fun x _ hx => by simp_all
    rcases List.mem_cons.1 he with rfl | he'
    · rw [List.countP_cons_of_neg (by simp), List.countP_cons_of_pos (by simpa using hv)]
      omega
    · have := ih he'
      by_cases hd : d = e
      · subst hd
        rw [List.countP_cons_of_neg (by simp), List.countP_cons_of_pos (by simpa using hv)]
        omega
      · by_cases hdv : d ∈ visited
        · rw [List.countP_cons_of_neg (by simp [hdv]), List.countP_cons_of_neg (by simp [hdv])]
          exact this
        · rw [List.countP_cons_of_pos (by simp [hd, hdv]), List.countP_cons_of_pos (by simp [hdv])]
          omega

/-- Each turn meets a new node of the territory, or meets none and shortens the stack. -/
theorem measure_lt_of_step {s : Scope} {root : Element} {t t' : Traversal} (h : t.Inside s root)
    (hs : t.step s = .next t') :
    Prod.Lex (· < ·) (· < ·) (t'.unmet s root, t'.stack.length)
      (t.unmet s root, t.stack.length) := by
  unfold step at hs
  split at hs
  · cases hs
  · next f rest hst =>
    have hf : f.element ∈ s.territory root := h f (hst ▸ List.mem_cons_self)
    split at hs
    · cases hs
      refine Prod.Lex.right _ ?_
      simp [hst]
    · next hv =>
      have hlt := countP_cons_lt hf hv
      split at hs
      · cases hs; exact .left _ _ hlt
      · simp only at hs
        split at hs
        · cases hs; exact .left _ _ hlt
        · cases hs; exact .left _ _ hlt
        · cases hs; exact .left _ _ hlt
        · cases hs; exact .left _ _ hlt
        · cases hs

/-- Take turns until the stack is empty or a fault shows. -/
def run (s : Scope) (root : Element) (t : Traversal) (h : t.Inside s root) :
    Except ModelFault Traversal :=
  match hs : t.step s with
  | .finished => .ok t
  | .fault f => .error f
  | .next t' => run s root t' (inside_of_step h hs)
termination_by (t.unmet s root, t.stack.length)
decreasing_by exact measure_lt_of_step h hs

end Traversal

/-- The traversal of everything that a root leads to. -/
def Scope.traverse (s : Scope) (root : Element) : Except ModelFault Traversal :=
  (Traversal.start root).run s root (Traversal.inside_start s root)

/-- The names of all literals that an element can reach, or the first fault on the way. -/
def Scope.discover (s : Scope) (root : Element) : Except ModelFault NameSet :=
  (s.traverse root).map Traversal.found

end GrammarCoverage
