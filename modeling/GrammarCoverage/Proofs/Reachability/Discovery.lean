import GrammarCoverage.Proofs.Reachability.Trail
import GrammarCoverage.Proofs.Reachability.Turns

/-!
# What a discovery finds

The loop keeps an invariant that ties its stack, the nodes it has met and the names it has found to
the nodes that the root reaches (`Traversal.Invariant`). When the stack is empty everything reached
has been met, so the names are exactly those of the reached literals, and there is no fault among
the reached nodes. A fault stops the loop at a reached node that has it.
-/

namespace GrammarCoverage

namespace Traversal

/-- A node has been met already, or waits to be. -/
def Knows (t : Traversal) (e : Element) : Prop :=
  e ∈ t.visited ∨ ∃ f ∈ t.stack, f.element = e

/-- What holds of a traversal whenever the loop looks at its stack. -/
structure Invariant (s : Scope) (root : Element) (t : Traversal) : Prop where
  /-- What waits is the root, or a reached node leads to it. -/
  pending : ∀ f ∈ t.stack, f.element = root ∨ ∃ e, s.Reaches root e ∧ s.table.Leads e f.element
  reached : ∀ e ∈ t.visited, ¬ s.Hides e → s.Reaches root e
  faultless : ∀ e ∈ t.visited, ¬ s.Hides e → ∀ cause, ¬ s.table.Faulty e cause
  rooted : t.Knows root
  /-- What a node that has been opened leads to is known. -/
  closed : ∀ e ∈ t.visited, ¬ s.Hides e → ∀ d ∈ s.successors e, t.Knows d
  found : ∀ name, name ∈ t.found ↔
    ∃ id, .literal id name ∈ t.visited ∧ ¬ s.Hides (.literal id name)

variable {s : Scope} {root : Element} {t t' : Traversal} {f : Frame} {rest : List Frame}

/-! ### The invariant is kept -/

/-- The node of the next frame is known as long as it is met now or has been met before. -/
lemma Knows.of_pop {e : Element} (h : t.Knows e) (hs : t.stack = f :: rest)
    (hv : ∀ e ∈ t.visited, e ∈ t'.visited) (hf : f.element ∈ t'.visited)
    (hr : ∀ g ∈ rest, g ∈ t'.stack) : t'.Knows e := by
  rcases h with he | ⟨g, hg, rfl⟩
  · exact .inl (hv e he)
  · rcases List.mem_cons.mp (hs ▸ hg) with rfl | hg
    · exact .inl hf
    · exact .inr ⟨g, hr g hg, rfl⟩

/-- A pending node that is not hidden is reached. -/
lemma Invariant.reaches (h : t.Invariant s root) (hf : f ∈ t.stack)
    (hp : ¬ s.Hides f.element) : s.Reaches root f.element := by
  rcases h.pending f hf with he | ⟨e, he, hd⟩
  · exact he ▸ .root (he ▸ hp)
  · exact .edge he hd hp

lemma mem_elim_insert_literalName? {name : String} (e : Element) (found : NameSet) :
    name ∈ e.literalName?.elim found found.insert ↔
      name ∈ found ∨ ∃ id, e = .literal id name := by
  cases e with
  | literal id n =>
    simp only [Element.literalName?, Option.elim, NameSet.mem_insert, Element.literal.injEq]
    constructor
    · rintro (h | rfl)
      · exact .inl h
      · exact .inr ⟨id, rfl, rfl⟩
    · rintro (h | ⟨_, _, rfl⟩)
      · exact .inl h
      · exact .inr rfl
  | _ => simp [Element.literalName?]

lemma invariant_start (s : Scope) (root : Element) : (start root).Invariant s root where
  pending f hf := .inl (by cases List.mem_singleton.mp hf; rfl)
  reached e he := absurd he List.not_mem_nil
  faultless e he := absurd he List.not_mem_nil
  rooted := .inr ⟨_, List.mem_singleton_self _, rfl⟩
  closed e he := absurd he List.not_mem_nil
  found name := by simp [start]

/-- A frame whose node has been met is dropped. -/
lemma Invariant.skip (h : t.Invariant s root) (hs : t.stack = f :: rest)
    (hv : f.element ∈ t.visited) : ({ t with stack := rest } : Traversal).Invariant s root where
  pending g hg := h.pending g (hs ▸ List.mem_cons_of_mem _ hg)
  reached := h.reached
  faultless := h.faultless
  rooted := h.rooted.of_pop hs (fun _ he => he) hv fun _ hg => hg
  closed e he hp d hd := (h.closed e he hp d hd).of_pop hs (fun _ he => he) hv fun _ hg => hg
  found := h.found

/-- A hidden node is met and left alone. -/
lemma Invariant.prune (h : t.Invariant s root) (hs : t.stack = f :: rest)
    (hp : s.Hides f.element) :
    ({ t with stack := rest, visited := f.element :: t.visited } : Traversal).Invariant s root := by
  have known {e : Element} (he : t.Knows e) :
      Knows { t with stack := rest, visited := f.element :: t.visited } e :=
    he.of_pop hs (fun _ he => List.mem_cons_of_mem _ he) List.mem_cons_self fun _ hg => hg
  have old {e : Element} (he : e ∈ f.element :: t.visited) (hn : ¬ s.Hides e) : e ∈ t.visited := by
    rcases List.mem_cons.mp he with rfl | he
    · exact absurd hp hn
    · exact he
  exact {
    pending := fun g hg => h.pending g (hs ▸ List.mem_cons_of_mem _ hg)
    reached := fun e he hn => h.reached e (old he hn) hn
    faultless := fun e he hn => h.faultless e (old he hn) hn
    rooted := known h.rooted
    closed := fun e he hn d hd => known (h.closed e (old he hn) hn d hd)
    found := fun name => by
      rw [h.found]
      constructor
      · rintro ⟨id, he, hn⟩
        exact ⟨id, List.mem_cons_of_mem _ he, hn⟩
      · rintro ⟨id, he, hn⟩
        exact ⟨id, old he hn, hn⟩ }

/-- A node that is not hidden is opened, and what it leads to waits. -/
lemma Invariant.expand (h : t.Invariant s root) (hs : t.stack = f :: rest)
    (hp : ¬ s.Hides f.element) (hf : ∀ cause, ¬ s.table.Faulty f.element cause) :
    (t.expand s f rest).Invariant s root := by
  have here : s.Reaches root f.element := h.reaches (hs ▸ List.mem_cons_self) hp
  have known {e : Element} (he : t.Knows e) : (t.expand s f rest).Knows e :=
    he.of_pop hs (fun _ he => List.mem_cons_of_mem _ he) List.mem_cons_self
      fun _ hg => List.mem_append_right _ hg
  refine ⟨fun g hg => ?_, fun e he hn => ?_, fun e he hn => ?_, known h.rooted,
    fun e he hn d hd => ?_, fun name => ?_⟩
  · rcases List.mem_append.mp hg with hg | hg
    · obtain ⟨d, hd, rfl⟩ := List.mem_map.mp hg
      exact .inr ⟨f.element, here, Scope.leads_of_mem_successors hd⟩
    · exact h.pending g (hs ▸ List.mem_cons_of_mem _ hg)
  · rcases List.mem_cons.mp he with rfl | he
    · exact here
    · exact h.reached e he hn
  · rcases List.mem_cons.mp he with rfl | he
    · exact hf
    · exact h.faultless e he hn
  · rcases List.mem_cons.mp he with rfl | he
    · exact .inr ⟨_, List.mem_append_left _ (List.mem_map.mpr ⟨d, hd, rfl⟩), rfl⟩
    · exact known (h.closed e he hn d hd)
  · show name ∈ f.element.literalName?.elim t.found t.found.insert ↔ _
    rw [mem_elim_insert_literalName?, h.found]
    constructor
    · rintro (⟨id, he, hn⟩ | ⟨id, he⟩)
      · exact ⟨id, List.mem_cons_of_mem _ he, hn⟩
      · exact ⟨id, he ▸ List.mem_cons_self, he ▸ hp⟩
    · rintro ⟨id, he, hn⟩
      rcases List.mem_cons.mp he with he | he
      · exact .inr ⟨id, he.symm⟩
      · exact .inl ⟨id, he, hn⟩

lemma Invariant.of_step (h : t.Invariant s root) (hs : t.step s = .next t') :
    t'.Invariant s root := by
  cases move_of_step_eq hs with
  | skip hst hv => exact h.skip hst hv
  | prune hst _ hp => exact h.prune hst hp
  | expand hst _ hp hf => exact h.expand hst hp hf

lemma Turns.invariant (h : Turns s (start root) t) : t.Invariant s root :=
  h.keep (invariant_start s root) Invariant.of_step

/-! ### The end of the loop -/

/-- With an empty stack, everything reached has been met, the separators of groups apart. -/
lemma Invariant.mem_visited {e : Element} (h : t.Invariant s root) (hs : t.stack = [])
    (he : s.Reaches root e) : e ∈ t.visited ∨ e.isSeparator = true := by
  have met {d : Element} (hd : t.Knows d) : d ∈ t.visited :=
    hd.resolve_right fun ⟨f, hf, _⟩ => absurd (hs ▸ hf) List.not_mem_nil
  -- along the path: each node has been met, so what it leads to is known, and nothing waits
  induction he with
  | root _ => exact .inl (met h.rooted)
  | edge he hd _ ih =>
    rcases ih with hv | hsep
    · rcases Scope.mem_successors_of_leads hd with hd | hd
      · exact .inl (met (h.closed _ hv he.not_hides _ hd))
      · exact .inr hd
    · exact absurd hd (Scope.not_leads_of_isSeparator hsep)

/-- A state without a turn has an empty stack. -/
lemma stack_eq_nil_of_finished (hs : t.step s = .finished) : t.stack = [] := by
  cases move_of_step_eq hs with
  | finish hst => exact hst

/-- A fault stops the loop at a frame whose node is reached and has it. -/
lemma Invariant.of_fault {fault : ModelFault} (h : t.Invariant s root)
    (hs : t.step s = .fault fault) :
    ∃ f ∈ t.stack, s.Reaches root f.element ∧ s.table.Faulty f.element fault.cause ∧
      fault = t.faultAt f fault.cause := by
  cases move_of_step_eq hs with
  | fault hst _ hp hf =>
    have hmem := hst ▸ List.mem_cons_self
    exact ⟨_, hmem, h.reaches hmem hp, hf, rfl⟩

end Traversal

namespace Scope

variable {s : Scope} {root : Element}

open Traversal

lemma exists_reaches_of_mem_discover {found : NameSet} {name : String}
    (h : s.discover root = .ok found) (hn : name ∈ found) :
    ∃ id, s.Reaches root (.literal id name) := by
  obtain ⟨t, ht, _, rfl⟩ := discover_eq_ok_iff.mp h
  obtain ⟨id, he, hp⟩ := (ht.invariant.found name).mp hn
  exact ⟨id, ht.invariant.reached _ he hp⟩

lemma Reaches.mem_discover {found : NameSet} {id : Nat} {name : String}
    (he : s.Reaches root (.literal id name)) (h : s.discover root = .ok found) :
    name ∈ found := by
  obtain ⟨t, ht, hs, rfl⟩ := discover_eq_ok_iff.mp h
  rcases ht.invariant.mem_visited (stack_eq_nil_of_finished hs) he with hv | hsep
  · exact (ht.invariant.found name).mpr ⟨id, hv, he.not_hides⟩
  · cases hsep

/-- The node of a reported fault is reached and has the fault; the path of the fault ends there. -/
lemma exists_faulty_of_discover {fault : ModelFault} (h : s.discover root = .error fault) :
    ∃ e, s.Reaches root e ∧ s.table.Faulty e fault.cause ∧
      fault.path.getLast? = some e.label := by
  obtain ⟨t, ht, hs⟩ := discover_eq_error_iff.mp h
  obtain ⟨f, _, he, hf, hfault⟩ := ht.invariant.of_fault hs
  refine ⟨f.element, he, hf, ?_⟩
  rw [hfault, faultAt, path, List.getLast?_map, getLast?_chain Array.getElem?_push_size]
  rfl

/-- A discovery that succeeds has met no faulty node. -/
lemma Reaches.not_faulty {found : NameSet} {e : Element} (he : s.Reaches root e)
    (h : s.discover root = .ok found) (cause : ModelFault.Cause) : ¬ s.table.Faulty e cause := by
  obtain ⟨t, ht, hs, _⟩ := discover_eq_ok_iff.mp h
  rcases ht.invariant.mem_visited (stack_eq_nil_of_finished hs) he with hv | hsep
  · exact ht.invariant.faultless e hv he.not_hides cause
  · intro hf
    cases hf <;> cases hsep

/-- A discovery succeeds if its root reaches no faulty node. -/
lemma exists_discover (h : ∀ e, s.Reaches root e → ∀ cause, ¬ s.table.Faulty e cause) :
    ∃ found, s.discover root = .ok found := by
  cases hd : s.discover root with
  | ok found => exact ⟨found, rfl⟩
  | error fault =>
    obtain ⟨e, he, hf, _⟩ := exists_faulty_of_discover hd
    exact absurd hf (h e he fault.cause)

/-! ### Exactness -/

/-- **A discovery that succeeds finds exactly the names of the literals that the root reaches along
paths without a hidden node.** -/
theorem mem_discover_iff {found : NameSet} (h : s.discover root = .ok found) (name : String) :
    name ∈ found ↔ ∃ id, s.Reaches root (.literal id name) :=
  ⟨exists_reaches_of_mem_discover h, fun ⟨_, he⟩ => he.mem_discover h⟩

/-- A recursive grammar: the literal `a` stands inside a hidden group and outside of it, the literal
`b` only inside, and the rule that is found as `list` bears another name. -/
def tangle : Scope where
  table := .ofList [("list", some ⟨"items", [
    [.literal 1 "a", .ruleRef 2 "list"],
    [.group 3 "spare" .once [.literal 1 "a", .literal 4 "b", .ruleRef 5 "nothing"]],
    [.choice 6 "" [.literal 7 "c", .ruleRef 2 "list"]]]⟩)]
  pruned := .ofList ["spare"]

theorem mem_discover_tangle :
    tangle.discover (.ruleRef 0 "list") = .ok (.ofList ["a", "c"]) ∧
      ∀ name, name ∈ NameSet.ofList ["a", "c"] ↔
        ∃ id, tangle.Reaches (.ruleRef 0 "list") (.literal id name) := by
  have h : tangle.discover (.ruleRef 0 "list") = .ok (.ofList ["a", "c"]) := by cbv
  exact ⟨h, mem_discover_iff h⟩

/-- **A discovery meets a fault exactly when the root reaches a faulty node along a path without a
hidden node, and the fault that it reports is that of such a node, the last one of its path.** -/
theorem discover_fault_iff (s : Scope) (root : Element) :
    ((∃ fault, s.discover root = .error fault) ↔
      ∃ e cause, s.Reaches root e ∧ s.table.Faulty e cause) ∧
    ∀ fault, s.discover root = .error fault →
      ∃ e, s.Reaches root e ∧ s.table.Faulty e fault.cause ∧
        fault.path.getLast? = some e.label := by
  refine ⟨⟨?_, ?_⟩, fun fault h => exists_faulty_of_discover h⟩
  · rintro ⟨fault, h⟩
    obtain ⟨e, he, hf, _⟩ := exists_faulty_of_discover h
    exact ⟨e, fault.cause, he, hf⟩
  · rintro ⟨e, cause, he, hf⟩
    cases h : s.discover root with
    | error fault => exact ⟨fault, rfl⟩
    | ok found => exact absurd hf (he.not_faulty h cause)

end Scope

end GrammarCoverage
