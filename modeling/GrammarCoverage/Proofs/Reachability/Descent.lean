import GrammarCoverage.Proofs.Reachability.Trail
import GrammarCoverage.Proofs.Reachability.Turns

/-!
# The recursive traversal

A grammar can be traversed by recursion instead of a stack: the visit of a node visits what the node
leads to, one after the other, and carries the rule that is being expanded and the nodes whose
visits it is part of. Both traversals enter the same nodes in the same order and come to the same
end: what waits on the stack is what the open visits still have to do (`Traversal.Follows`).
-/

namespace GrammarCoverage

/-- What a recursive traversal has done so far. -/
structure Descent where
  /-- The nodes that have been entered, the last one first. -/
  entered : List Element
  /-- The names of the literals found so far. -/
  found : NameSet

namespace Descent

/-- The traversal that has not entered anything. -/
def start : Descent := ⟨[], .empty⟩

/-- Enter a node. -/
def enter (d : Descent) (e : Element) : Descent := { d with entered := e :: d.entered }

/-- Record a literal. -/
def record (d : Descent) (name : String) : Descent := { d with found := d.found.insert name }

/-- The state in which the visit of a node goes on to what the node leads to. -/
def expand (d : Descent) (e : Element) : Descent :=
  ⟨e :: d.entered, e.literalName?.elim d.found d.found.insert⟩

/-- Where a recursive traversal is stopped by a fault. -/
structure Stop where
  node : Element
  cause : ModelFault.Cause
  /-- The rule that is being expanded, if any. -/
  ruleName : Option String
  /-- The nodes whose visits are open, the root first. -/
  above : List Element
  /-- What has been done up to the fault; the faulty node has been entered. -/
  reached : Descent

/-- The fault that a stop reports: the path are the labels of the open visits down to the node. -/
def Stop.fault (x : Stop) : ModelFault :=
  ⟨x.cause, x.ruleName, (x.above ++ [x.node]).map Element.label⟩

/-- Visit nodes in order, up to the first fault. -/
def forEach (d : Descent) (visit : Element → Descent → Option (Except Stop Descent)) :
    List Element → Option (Except Stop Descent)
  | [] => some (.ok d)
  | e :: es =>
    match visit e d with
    | some (.ok d) => forEach d visit es
    | some (.error x) => some (.error x)
    | none => none

end Descent

namespace Scope

/-- Visit a node. If more visits are open at once than the depth allows, there is no outcome. -/
def descend (s : Scope) :
    Nat → Option String → List Element → Element → Descent → Option (Except Descent.Stop Descent)
  | 0, _, _, _, _ => none
  | depth + 1, rule, above, e, d =>
    if e ∈ d.entered then some (.ok d)
    else if s.Hides e then some (.ok (d.enter e))
    else match e with
      | .literal _ name => some (.ok ((d.enter e).record name))
      | .separator .. => some (.ok (d.enter e))
      | .choice _ _ es => (d.enter e).forEach (s.descend depth rule (above ++ [e])) es
      | .group _ _ _ es =>
        (d.enter e).forEach (s.descend depth rule (above ++ [e])) (es.filter (!·.isSeparator))
      | .ruleRef _ name =>
        match s.table.get? name with
        | some (some r) =>
          (d.enter e).forEach (s.descend depth (some r.name) (above ++ [e])) r.alternatives.flatten
        | some none | none => some (.error ⟨e, .unknownRule name, rule, above, d.enter e⟩)
      | .foreign _ kind _ => some (.error ⟨e, .unexpectedElement kind, rule, above, d.enter e⟩)

variable {s : Scope} {rule : Option String} {above : List Element} {e : Element} {d : Descent}
  {depth : Nat}

/-! ### One visit -/

lemma descend_of_entered (hdepth : 0 < depth) (h : e ∈ d.entered) :
    s.descend depth rule above e d = some (.ok d) := by
  obtain ⟨depth, rfl⟩ := Nat.exists_eq_succ_of_ne_zero hdepth.ne'
  simp only [descend.eq_def, if_pos h]

lemma descend_of_hides (hdepth : 0 < depth) (hv : e ∉ d.entered) (hp : s.Hides e) :
    s.descend depth rule above e d = some (.ok (d.enter e)) := by
  obtain ⟨depth, rfl⟩ := Nat.exists_eq_succ_of_ne_zero hdepth.ne'
  simp only [descend.eq_def, if_neg hv, if_pos hp]

lemma descend_of_faulty {cause : ModelFault.Cause} (hdepth : 0 < depth) (hv : e ∉ d.entered)
    (hp : ¬ s.Hides e) (hf : s.table.Faulty e cause) :
    s.descend depth rule above e d = some (.error ⟨e, cause, rule, above, d.enter e⟩) := by
  obtain ⟨depth, rfl⟩ := Nat.exists_eq_succ_of_ne_zero hdepth.ne'
  rw [descend.eq_def]
  simp only [if_neg hv, if_neg hp]
  cases hf with
  | foreign id kind name => rfl
  | missing id h => simp only [h]
  | blank id h => simp only [h]

lemma descend_of_faultless (hv : e ∉ d.entered) (hp : ¬ s.Hides e)
    (hf : ∀ cause, ¬ s.table.Faulty e cause) :
    s.descend (depth + 1) rule above e d =
      (d.expand e).forEach (s.descend depth (s.ruleInside rule e) (above ++ [e]))
        (s.successors e) := by
  rw [descend.eq_def]
  simp only [if_neg hv, if_neg hp]
  cases e with
  | literal id name => rfl
  | separator id name => rfl
  | choice id name es => rfl
  | group id name repetition es => rfl
  | foreign id kind name => exact absurd (.foreign id kind name) (hf _)
  | ruleRef id name =>
    obtain ⟨r, hr⟩ := RuleTable.exists_rule hf
    have ho : s.opening (.ruleRef id name) = .rule r := by
      rw [opening, RuleTable.rule?_eq_some_iff.mpr hr]
    simp only [hr, successors, ruleInside, ho]
    rfl

end Scope

/-! ### The stack and the open visits -/

namespace Traversal

variable {s : Scope} {root : Element} {t t' : Traversal}

/-- A loop and a recursive traversal have entered the same nodes in the same order and found the
same names. -/
def Agrees (t : Traversal) (d : Descent) : Prop := t.visited = d.entered ∧ t.found = d.found

/-- The next turn stops the loop where a recursive traversal is stopped. -/
def StopsAs (s : Scope) (t : Traversal) (x : Descent.Stop) : Prop :=
  t.step s = .fault x.fault ∧ ∃ f rest, t.stack = f :: rest ∧ f.element = x.node ∧
    x.node :: t.visited = x.reached.entered ∧ t.found = x.reached.found

/-- Turns lead to the outcome of a recursive traversal: to the fault, or to where only `rest` is
left to do. -/
def Follows (s : Scope) (t : Traversal) (rest : List Frame) : Except Descent.Stop Descent → Prop
  | .ok d => ∃ t', Turns s t t' ∧ t'.stack = rest ∧ t'.Agrees d
  | .error x => ∃ t', Turns s t t' ∧ t'.StopsAs s x

/-- The loop is at its end, where it has come to the outcome of a recursive traversal. -/
def EndsAs (s : Scope) (t : Traversal) : Except Descent.Stop Descent → Prop
  | .ok d => t.step s = .finished ∧ t.Agrees d
  | .error x => t.StopsAs s x

lemma Follows.of_turns {rest : List Frame} {outcome : Except Descent.Stop Descent}
    (h : Turns s t t') (h' : t'.Follows s rest outcome) : t.Follows s rest outcome := by
  cases outcome with
  | ok d =>
    obtain ⟨u, hu, hd⟩ := h'
    exact ⟨u, h.trans hu, hd⟩
  | error x =>
    obtain ⟨u, hu, hx⟩ := h'
    exact ⟨u, h.trans hu, hx⟩

/-- One state extends another if it keeps what has been met and the chains of the trail. -/
structure Extends (t t' : Traversal) : Prop where
  visited : t.visited ⊆ t'.visited
  size : t.trail.size ≤ t'.trail.size
  chain : ∀ i < t.trail.size, chain t'.trail i = chain t.trail i

lemma Extends.refl (t : Traversal) : t.Extends t := ⟨fun _ he => he, le_rfl, fun _ _ => rfl⟩

lemma Extends.trans {t'' : Traversal} (h : t.Extends t') (h' : t'.Extends t'') :
    t.Extends t'' where
  visited _ he := h'.visited (h.visited he)
  size := h.size.trans h'.size
  chain i hi := (h'.chain i (hi.trans_le h.size)).trans (h.chain i hi)

lemma extends_of_step (hs : t.step s = .next t') : t.Extends t' := by
  cases move_of_step_eq hs with
  | skip _ _ => exact ⟨fun _ he => he, le_rfl, fun _ _ => rfl⟩
  | prune _ _ _ => exact ⟨fun _ he => List.mem_cons_of_mem _ he, le_rfl, fun _ _ => rfl⟩
  | expand _ _ _ _ =>
    exact ⟨fun _ he => List.mem_cons_of_mem _ he, by simp [expand], fun i hi => chain_push hi⟩

lemma Turns.extends (h : Turns s t t') : t.Extends t' :=
  h.keep (.refl t) fun hu hs => hu.trans (extends_of_step hs)

lemma Extends.unmet_le (h : t.Extends t') : t'.unmet s root ≤ t.unmet s root :=
  List.countP_mono_left fun e _ he => by
    simp only [decide_eq_true_eq] at he ⊢
    exact fun hv => he (h.visited hv)

/-- The place that frames come from stands in the trail, below the given nodes. -/
def PlacedBelow (t : Traversal) (parent : Option Nat) (above : List Element) : Prop :=
  (∀ i ∈ parent, i < t.trail.size) ∧ chainAbove t.trail parent = above

lemma PlacedBelow.of_extends {parent : Option Nat} {above : List Element}
    (h : t.PlacedBelow parent above) (he : t.Extends t') : t'.PlacedBelow parent above := by
  refine ⟨fun i hi => (h.1 i hi).trans_le he.size, ?_⟩
  rw [← h.2]
  cases parent with
  | none => rfl
  | some i => exact he.chain i (h.1 i rfl)

/-- The recursive visit of the node of a frame has an outcome, for which more than `n` open visits
are not needed, and turns lead to it. -/
def VisitFollowed (s : Scope) (root : Element) (n : Nat) : Prop :=
  ∀ (t : Traversal) (f : Frame) (rest : List Frame) (above : List Element) (d : Descent),
    t.stack = f :: rest → f.element ∈ s.territory root → t.unmet s root ≤ n → t.Agrees d →
    t.PlacedBelow f.parent above →
    ∃ outcome, (∀ depth, n < depth → s.descend depth f.ruleName above f.element d = some outcome) ∧
      t.Follows s rest outcome

/-- Visits in order are followed as soon as single visits are. -/
lemma forEach_followed {n : Nat} (hvisit : VisitFollowed s root n) (es : List Element)
    {rule : Option String} {parent : Option Nat} {rest : List Frame} {above : List Element}
    {t : Traversal} {d : Descent} (hst : t.stack = es.map (⟨·, rule, parent⟩) ++ rest)
    (hes : ∀ e ∈ es, e ∈ s.territory root) (hn : t.unmet s root ≤ n) (hd : t.Agrees d)
    (hp : t.PlacedBelow parent above) :
    ∃ outcome, (∀ depth, n < depth → d.forEach (s.descend depth rule above) es = some outcome) ∧
      t.Follows s rest outcome := by
  induction es generalizing t d with
  | nil => exact ⟨_, fun _ _ => rfl, t, .refl, hst, hd⟩
  | cons e es ih =>
    obtain ⟨outcome, ho, hf⟩ := hvisit t _ _ above d hst (hes e List.mem_cons_self) hn hd hp
    cases outcome with
    | error x =>
      refine ⟨.error x, fun depth hdepth => ?_, hf⟩
      simp only [Descent.forEach, ho depth hdepth]
    | ok d' =>
      obtain ⟨t', ht', hst', hd'⟩ := hf
      have he := ht'.extends
      obtain ⟨outcome, ho', hf'⟩ := ih hst' (fun c hc => hes c (List.mem_cons_of_mem _ hc))
        (he.unmet_le.trans hn) hd' (hp.of_extends he)
      refine ⟨outcome, fun depth hdepth => ?_, hf'.of_turns ht'⟩
      simp only [Descent.forEach, ho depth hdepth, ho' depth hdepth]

lemma visitFollowed (s : Scope) (root : Element) (n : Nat) : VisitFollowed s root n := by
  induction n using Nat.strongRecOn with
  | _ n ih =>
    intro t f rest above d hst hf hn hd hp
    by_cases hv : f.element ∈ t.visited
    · have hv' : f.element ∈ d.entered := hd.1 ▸ hv
      exact ⟨_, fun depth hdepth => Scope.descend_of_entered (by omega) hv', _,
        .head (Move.skip hst hv).step_eq .refl, rfl, hd⟩
    have hv' : f.element ∉ d.entered := hd.1 ▸ hv
    by_cases hh : s.Hides f.element
    · refine ⟨_, fun depth hdepth => Scope.descend_of_hides (by omega) hv' hh, _,
        .head (Move.prune hst hv hh).step_eq .refl, rfl, ?_, hd.2⟩
      exact congrArg (f.element :: ·) hd.1
    by_cases hc : ∃ cause, s.table.Faulty f.element cause
    · obtain ⟨cause, hc⟩ := hc
      refine ⟨_, fun depth hdepth => Scope.descend_of_faulty (by omega) hv' hh hc, t, .refl, ?_,
        f, rest, hst, rfl, ?_, hd.2⟩
      · rw [(Move.fault hst hv hh hc).step_eq, faultAt, path, chain_push_size hp.1, hp.2]
        rfl
      · exact congrArg (f.element :: ·) hd.1
    have hc' : ∀ cause, ¬ s.table.Faulty f.element cause := fun cause h => hc ⟨cause, h⟩
    have hturn : Turns s t (t.expand s f rest) :=
      .head (Move.expand hst hv hh hc').step_eq .refl
    -- one more node of the territory has been met, so that the visits below are followed
    have hlt : (t.expand s f rest).unmet s root < n := (countP_cons_lt hf hv).trans_le hn
    have hd' : (t.expand s f rest).Agrees (d.expand f.element) :=
      ⟨congrArg (f.element :: ·) hd.1, by rw [expand, Descent.expand, hd.2]⟩
    have hp' : (t.expand s f rest).PlacedBelow (some t.trail.size) (above ++ [f.element]) := by
      refine ⟨fun i hi => ?_, ?_⟩
      · cases hi
        simp [expand]
      · rw [chainAbove, expand, chain_push_size hp.1, hp.2]
    obtain ⟨outcome, ho, hfollow⟩ := forEach_followed (ih _ hlt) (s.successors f.element) rfl
      (fun e he => Scope.mem_territory_of_mem_successors hf he) le_rfl hd' hp'
    refine ⟨outcome, fun depth hdepth => ?_, hfollow.of_turns hturn⟩
    obtain ⟨depth, rfl⟩ := Nat.exists_eq_succ_of_ne_zero (Nat.ne_zero_of_lt hdepth)
    rw [Scope.descend_of_faultless hv' hh hc']
    exact ho depth (by omega)

end Traversal

namespace Scope

open Traversal

/-- **The recursive traversal ends, with no more open visits than there are nodes, and the discovery
over a stack comes to the same: it finds the same names or reports the same fault, with the rule
that was being expanded and the labels of the open visits.** The loop enters the same nodes in the
same order up to its end. -/
theorem discover_eq_descend (s : Scope) (root : Element) :
    ∃ outcome,
      (∀ depth, (s.territory root).length < depth →
        s.descend depth none [] root .start = some outcome) ∧
      s.discover root = (outcome.mapError Descent.Stop.fault).map Descent.found ∧
      ∃ t, Turns s (start root) t ∧ t.EndsAs s outcome := by
  obtain ⟨outcome, ho, hf⟩ := visitFollowed s root _ (start root) ⟨root, none, none⟩ [] []
    .start rfl (s.mem_territory_root root) List.countP_le_length ⟨rfl, rfl⟩
    ⟨fun _ hi => (by cases hi), rfl⟩
  refine ⟨outcome, ho, ?_⟩
  cases outcome with
  | ok d =>
    obtain ⟨t, ht, hst, hd⟩ := hf
    have hs := (Move.finish hst : Move s t _).step_eq
    exact ⟨discover_eq_ok_iff.mpr ⟨t, ht, hs, hd.2⟩, t, ht, hs, hd⟩
  | error x =>
    obtain ⟨t, ht, hx⟩ := hf
    exact ⟨discover_eq_error_iff.mpr ⟨t, ht, hx.1⟩, t, ht, hx⟩

end Scope

end GrammarCoverage
