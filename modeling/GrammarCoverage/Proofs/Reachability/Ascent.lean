import GrammarCoverage.Proofs.Reachability.Lineage

/-!
# Ascents

A path is read off a trail by going up: take the label of the node at a place, go on at the place to
which the node is linked, and end where there is no link. On a trail of any kind this could leave
the trail or go round for ever. Along links that point backwards it does neither, and reads the
labels of the chain (`Ascent.reads_path`); and such are the links of trail and stack whenever the
loop of a traversal looks at its stack (`Traversal.Turns.traceable`).
-/

namespace GrammarCoverage

/-- An ascent along the links of a trail. -/
structure Ascent where
  /-- The place to look at next; a negative one is above the root. -/
  index : Int
  /-- The labels that have been taken, from the bottom up. -/
  labels : List String

/-- What one turn of an ascent comes to. -/
inductive Ascent.Turn where
  | finished (path : List String)
  | next (a : Ascent)
  /-- There is no such place in the trail. -/
  | outside (index : Int)

namespace Traversal

/-- A link as a place to look at: the root, to which nothing led, is linked to a negative one. -/
def linkIndex : Option Nat → Int
  | none => -1
  | some p => p

/-- The nodes along the links from a place up to the root, the root first. -/
inductive Ancestry (trail : Array TrailEntry) : Option Nat → List Element → Prop where
  | root : Ancestry trail none []
  | link {p : Nat} {entry : TrailEntry} {nodes : List Element} (hp : trail[p]? = some entry)
      (h : Ancestry trail entry.parent nodes) : Ancestry trail (some p) (nodes ++ [entry.element])

/-- The links of a trail point backwards. -/
def Backward (trail : Array TrailEntry) : Prop :=
  ∀ (i : Nat) (entry : TrailEntry), trail[i]? = some entry → ∀ p ∈ entry.parent, p < i

end Traversal

namespace Ascent

open Traversal

/-- The ascent that is about to start at a place. -/
def start (i : Nat) : Ascent := ⟨i, []⟩

/-- Take the label of the node at the place and go on where it is linked to. -/
def step (trail : Array TrailEntry) (a : Ascent) : Turn :=
  if a.index < 0 then .finished a.labels.reverse
  else match trail[a.index.toNat]? with
    | some entry => .next ⟨linkIndex entry.parent, a.labels ++ [entry.element.label]⟩
    | none => .outside a.index

/-- A number of turns lead from one ascent to another. -/
def Climbs (trail : Array TrailEntry) : Ascent → Ascent → Prop :=
  Relation.ReflTransGen fun a b => a.step trail = .next b

/-- From a place of the trail an ascent comes to an end, and this is the path that it has read. -/
def Reads (trail : Array TrailEntry) (i : Nat) (path : List String) : Prop :=
  ∃ a, Climbs trail (start i) a ∧ a.step trail = .finished path

variable {trail : Array TrailEntry} {link : Option Nat} {nodes : List Element} {a : Ascent}
  {path : List String} {i : Nat}

/-! ### Ascents along links that point backwards -/

/-- Up to the root an ascent takes the labels of all nodes on the way. -/
lemma climbs_of_ancestry (h : Ancestry trail link nodes) (labels : List String) :
    Climbs trail ⟨linkIndex link, labels⟩ ⟨-1, labels ++ (nodes.map Element.label).reverse⟩ := by
  induction h generalizing labels with
  | root =>
    rw [List.map_nil, List.reverse_nil, List.append_nil]
    exact .refl
  | @link p entry nodes hp h ih =>
    have hstep : step trail ⟨linkIndex (some p), labels⟩ =
        .next ⟨linkIndex entry.parent, labels ++ [entry.element.label]⟩ := by
      simp [step, linkIndex, hp]
    have hlabels : labels ++ ((nodes ++ [entry.element]).map Element.label).reverse =
        labels ++ [entry.element.label] ++ (nodes.map Element.label).reverse := by
      simp
    rw [hlabels]
    exact .head hstep (ih _)

lemma reads_of_ancestry (h : Ancestry trail (some i) nodes) :
    Reads trail i (nodes.map Element.label) :=
  ⟨_, climbs_of_ancestry h [], by simp [step]⟩

/-- Links that point backwards lead up to the root. -/
lemma ancestry_chainAbove (hb : Backward trail) (hlink : ∀ p ∈ link, p < trail.size) :
    Ancestry trail link (chainAbove trail link) := by
  cases link with
  | none => exact .root
  | some p =>
    have hp : p < trail.size := hlink p rfl
    clear hlink
    induction p using Nat.strongRecOn with
    | _ p ih =>
      obtain ⟨entry, hentry⟩ : ∃ entry, trail[p]? = some entry :=
        ⟨_, Array.getElem?_eq_getElem hp⟩
      have hlt := hb p entry hentry
      rw [chainAbove, chain_of_getElem? hentry hlt]
      apply Ancestry.link hentry
      cases hparent : entry.parent with
      | none => exact .root
      | some q =>
        have hq : q < p := hlt q hparent
        exact ih q hq (hq.trans hp)

/-- Along links that point backwards an ascent reads the path of its place. -/
theorem reads_path (hb : Backward trail) (hi : i < trail.size) :
    Reads trail i (Traversal.path trail i) :=
  reads_of_ancestry (ancestry_chainAbove hb (by simpa using hi))

/-- An ascent that comes to an end has not left the trail on the way. -/
lemma Reads.not_outside (h : Reads trail i path) (ha : Climbs trail (start i) a) (index : Int) :
    a.step trail ≠ .outside index := by
  obtain ⟨b, hb, hend⟩ := h
  have hunique : Relator.RightUnique fun a b : Ascent => a.step trail = .next b := by
    intro a b c hab hac
    rw [hab] at hac
    cases hac
    rfl
  intro hout
  -- one of the two states comes after the other, but neither of them has a turn left
  have hab : a = b := by
    rcases Relation.ReflTransGen.total_of_right_unique hunique ha hb with hab | hba
    · rcases hab.cases_head with heq | ⟨c, hac, _⟩
      · exact heq
      · rw [hout] at hac
        cases hac
    · rcases hba.cases_head with heq | ⟨c, hbc, _⟩
      · exact heq.symm
      · rw [hend] at hbc
        cases hbc
  rw [hab, hend] at hout
  cases hout

end Ascent

namespace Traversal

variable {s : Scope} {root e : Element} {t : Traversal} {trail : Array TrailEntry} {i : Nat}
  {link : Option Nat}

/-- How the links of a trail and a stack lead back to the root, and what is read off them. -/
structure Traceable (s : Scope) (root : Element) (t : Traversal) : Prop where
  /-- The links of the trail point backwards. Only the root has none, and it stands first. -/
  entries : ∀ (i : Nat) (entry : TrailEntry), t.trail[i]? = some entry →
    -1 ≤ linkIndex entry.parent ∧ linkIndex entry.parent < i ∧
    (linkIndex entry.parent = -1 → i = 0 ∧ entry.element = root)
  /-- A frame is the one with which the loop starts, or it is linked to a node of the trail that
  leads to its own. -/
  frames : ∀ f ∈ t.stack, linkIndex f.parent = -1 ∧ f = ⟨root, none, none⟩ ∧ t = start root ∨
    ∃ (p : Nat) (above : TrailEntry), linkIndex f.parent = p ∧ t.trail[p]? = some above ∧
      f.element ∈ s.successors above.element
  /-- The rule of a frame is that of the last reference above it. -/
  rules : ∀ f ∈ t.stack, ∃ nodes, Ancestry t.trail f.parent nodes ∧
    s.table.RuleBelow nodes f.ruleName
  /-- The path of a fault is what an ascent from the faulty node reads, without ever leaving the
  trail. It starts with the label of the root and ends with that of the faulty node. -/
  paths : ∀ fault, t.step s = .fault fault → ∃ f rest, t.stack = f :: rest ∧
    s.table.Faulty f.element fault.cause ∧
    Ascent.Reads (t.enter f rest).trail t.trail.size fault.path ∧
    (∀ a index, Ascent.Climbs (t.enter f rest).trail (.start t.trail.size) a →
      a.step (t.enter f rest).trail ≠ .outside index) ∧
    fault.path.head? = some root.label ∧ fault.path.getLast? = some f.element.label

lemma backward_of_linkedAt
    (h : ∀ i entry, trail[i]? = some entry →
      LinkedAt s root trail i entry.element entry.parent) : Backward trail :=
  fun i entry hi => (h i entry hi).lt

lemma LinkedAt.linkIndex_bounds (h : LinkedAt s root trail i e link) :
    -1 ≤ linkIndex link ∧ linkIndex link < i ∧ (linkIndex link = -1 → i = 0 ∧ e = root) := by
  cases h with
  | root hi he => simp [linkIndex, hi, he]
  | below hp ha hd =>
    simp only [linkIndex]
    omega

/-- **In every state of the loop the links lead back to the root**, and the path of a fault can be
read off them. -/
theorem Turns.traceable (h : Turns s (start root) t) : t.Traceable s root where
  entries i entry hi := (h.linked.trail i entry hi).linkIndex_bounds
  frames f hf := by
    have hframe := h.linked.frames f hf
    obtain ⟨e, ruleName, link⟩ := f
    cases hframe with
    | root hi he =>
      obtain rfl := h.linked.first _ hf rfl
      exact .inl ⟨rfl, List.mem_singleton.mp hf, rfl⟩
    | @below p above hp ha hd => exact .inr ⟨p, above, rfl, ha, hd⟩
  rules f hf := by
    have hlink := (h.linked.frames f hf).lt
    exact ⟨_, Ascent.ancestry_chainAbove (backward_of_linkedAt h.linked.trail) hlink,
      h.linked.rules f hf⟩
  paths fault hs := by
    obtain ⟨f, rest, hst, hfaulty, _, hpath⟩ := h.linked.of_fault hs
    have hmem : f ∈ t.stack := hst ▸ List.mem_cons_self
    have hframe := h.linked.frames f hmem
    have hbackward : Backward (t.enter f rest).trail :=
      backward_of_linkedAt (h.linked.trail_push hmem)
    have hreads : Ascent.Reads (t.enter f rest).trail t.trail.size fault.path := by
      have hchain : chain (t.enter f rest).trail t.trail.size =
          chainAbove t.trail f.parent ++ [f.element] := chain_push_size hframe.lt
      rw [hpath, ← hchain]
      exact Ascent.reads_path hbackward (by simp [enter])
    have hlineage := hframe.lineage h.linked.trail
    refine ⟨f, rest, hst, hfaulty, hreads, fun a index ha => hreads.not_outside ha index, ?_, ?_⟩
    · rw [hpath, List.head?_map, hlineage.head, Option.map_some]
    · rw [hpath, List.getLast?_map, List.getLast?_concat, Option.map_some]

theorem Turns.traceable_detour :
    ∃ t f rest, Turns Scope.detour (start (.ruleRef 0 "start")) t ∧ t.stack = f :: rest ∧
      t.Traceable Scope.detour (.ruleRef 0 "start") ∧
      Ascent.Reads (t.enter f rest).trail t.trail.size
        ["start", "( 'a' | noun )", "noun", "( 'b' verb )?", "verb"] := by
  have h : Scope.detour.discover (.ruleRef 0 "start") = .error ⟨.unknownRule "verb", some "thing",
      ["start", "( 'a' | noun )", "noun", "( 'b' verb )?", "verb"]⟩ := by
    cbv
  obtain ⟨t, ht, hs⟩ := Scope.discover_eq_error_iff.mp h
  have htraceable := Turns.traceable ht
  obtain ⟨f, rest, hst, _, hreads, _⟩ := htraceable.paths _ hs
  exact ⟨t, f, rest, ht, hst, htraceable, hreads⟩

end Traversal

end GrammarCoverage
