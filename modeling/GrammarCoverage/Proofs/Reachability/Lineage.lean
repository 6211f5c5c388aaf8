import GrammarCoverage.Proofs.Reachability.Work

/-!
# Lineages

The root apart, every node that waits or has been opened was led to by a node that had been opened
before (`Traversal.Linked`). So the chain of a place is a path of the grammar that starts at the
root, its nodes have been opened one after the other, and the rule that a frame carries is that of
the last reference on its chain. This is what a fault reports (`Scope.exists_lineage_of_fault`).
-/

namespace GrammarCoverage

/-- Nodes of which the first is the root and each leads to the next. -/
structure RuleTable.Lineage (table : RuleTable) (root : Element) (nodes : List Element) : Prop where
  head : nodes.head? = some root
  chain : nodes.IsChain table.Leads

/-- The name of the rule that is expanded below some nodes: that of the rule which the last
reference among them stands for, if there is a reference. -/
inductive RuleTable.RuleBelow (table : RuleTable) : List Element → Option String → Prop where
  | outside {nodes : List Element} (h : ∀ id name, .ruleRef id name ∉ nodes) :
      RuleBelow table nodes none
  | inside (before : List Element) (id : Nat) {name : String} {rule : Rule} {after : List Element}
      (hr : table.get? name = some (some rule)) (h : ∀ id name, .ruleRef id name ∉ after) :
      RuleBelow table (before ++ .ruleRef id name :: after) (some rule.name)

namespace RuleTable

variable {table : RuleTable} {root e d : Element} {nodes : List Element} {r : Option String}

lemma lineage_root (table : RuleTable) (root : Element) : table.Lineage root [root] :=
  ⟨rfl, .singleton root⟩

lemma Lineage.concat (h : table.Lineage root nodes) (he : nodes.getLast? = some e)
    (hd : table.Leads e d) : table.Lineage root (nodes ++ [d]) where
  head := by simp [h.head]
  chain := by
    apply h.chain.append (.singleton d)
    simp [he, hd]

lemma RuleBelow.concat (h : table.RuleBelow nodes r) (he : ∀ id name, e ≠ .ruleRef id name) :
    table.RuleBelow (nodes ++ [e]) r := by
  cases h with
  | outside h =>
    apply RuleBelow.outside
    simp [h, fun id name => (he id name).symm]
  | inside before id hr h =>
    rw [List.append_assoc, List.cons_append]
    apply RuleBelow.inside before id hr
    simp [h, fun id name => (he id name).symm]

/-- Below one more node the rule is the one that is expanded inside of it. -/
lemma RuleBelow.ruleInside {s : Scope} (h : s.table.RuleBelow nodes r)
    (hf : ∀ cause, ¬ s.table.Faulty e cause) :
    s.table.RuleBelow (nodes ++ [e]) (s.ruleInside r e) := by
  cases e with
  | ruleRef id name =>
    obtain ⟨rule, hr⟩ := exists_rule hf
    have hinside : s.ruleInside r (.ruleRef id name) = some rule.name := by
      rw [Scope.ruleInside, Scope.opening, rule?_eq_some_iff.mpr hr]
    rw [hinside]
    exact .inside nodes id hr (by simp)
  | literal | group | choice | separator | foreign => exact h.concat (by simp)

end RuleTable

namespace Traversal

/-- Where an element comes from that stands at a place of the trail: the root is the first, and any
other element is led to by the node to which its link points back. -/
inductive LinkedAt (s : Scope) (root : Element) (trail : Array TrailEntry) (i : Nat) (e : Element) :
    Option Nat → Prop where
  | root (hi : i = 0) (he : e = root) : LinkedAt s root trail i e none
  | below {p : Nat} {above : TrailEntry} (hp : p < i) (ha : trail[p]? = some above)
      (hd : e ∈ s.successors above.element) : LinkedAt s root trail i e (some p)

/-- How the links of a traversal hang together, whenever the loop looks at its stack. A frame is
linked as if it stood at the end of the trail. -/
structure Linked (s : Scope) (root : Element) (t : Traversal) : Prop where
  trail : ∀ i entry, t.trail[i]? = some entry →
    LinkedAt s root t.trail i entry.element entry.parent
  frames : ∀ f ∈ t.stack, LinkedAt s root t.trail t.trail.size f.element f.parent
  /-- Only the frame with which the loop starts has no link. -/
  first : ∀ f ∈ t.stack, f.parent = none → t = start root
  rules : ∀ f ∈ t.stack, s.table.RuleBelow (chainAbove t.trail f.parent) f.ruleName

variable {s : Scope} {root e : Element} {t t' : Traversal} {f g : Frame} {rest : List Frame}
  {trail : Array TrailEntry} {entry : TrailEntry} {i : Nat} {parent : Option Nat}

/-! ### Links are kept -/

lemma LinkedAt.lt (h : LinkedAt s root trail i e parent) : ∀ p ∈ parent, p < i := by
  cases h with
  | root hi he => simp
  | below hp ha hd => simpa using hp

/-- A link stays where it points when the trail grows. -/
lemma LinkedAt.push (h : LinkedAt s root trail i e parent) (entry : TrailEntry) :
    LinkedAt s root (trail.push entry) i e parent := by
  cases h with
  | root hi he => exact .root hi he
  | @below p above hp ha hd =>
    obtain ⟨hlt, _⟩ := Array.getElem?_eq_some_iff.mp ha
    exact .below hp (by rw [Array.getElem?_push_lt hlt, ← ha, Array.getElem?_eq_getElem hlt]) hd

/-- The frames below the next one have a link. -/
lemma Linked.exists_parent (h : t.Linked s root) (hst : t.stack = f :: rest) (hg : g ∈ rest) :
    ∃ p, g.parent = some p := by
  cases hp : g.parent with
  | some p => exact ⟨p, rfl⟩
  | none =>
    -- then the loop has just started, and there is but one frame
    have hstart : t = start root := h.first g (hst ▸ List.mem_cons_of_mem _ hg) hp
    subst hstart
    cases hst
    cases hg

lemma linked_start (s : Scope) (root : Element) : (start root).Linked s root where
  trail i entry h := by simp [start] at h
  frames f hf := by
    cases List.mem_singleton.mp hf
    exact .root rfl rfl
  first _ _ _ := rfl
  rules f hf := by
    cases List.mem_singleton.mp hf
    exact .outside (by simp [chainAbove])

/-- Taking the next frame leaves the links of the others as they are. -/
lemma Linked.pop (h : t.Linked s root) (hst : t.stack = f :: rest) (visited : List Element) :
    ({ t with stack := rest, visited } : Traversal).Linked s root where
  trail := h.trail
  frames g hg := h.frames g (hst ▸ List.mem_cons_of_mem _ hg)
  first g hg hp := by
    obtain ⟨p, hp'⟩ := h.exists_parent hst hg
    simp [hp'] at hp
  rules g hg := h.rules g (hst ▸ List.mem_cons_of_mem _ hg)

/-- A frame that is opened keeps its link as an entry at the end of the trail. -/
lemma Linked.trail_push (h : t.Linked s root) (hf : f ∈ t.stack) (i : Nat) (entry : TrailEntry)
    (hi : (t.trail.push ⟨f.element, f.parent⟩)[i]? = some entry) :
    LinkedAt s root (t.trail.push ⟨f.element, f.parent⟩) i entry.element entry.parent := by
  rcases Nat.lt_or_ge i t.trail.size with hlt | hge
  · apply LinkedAt.push (h.trail i entry _)
    rwa [Array.getElem?_push_lt hlt, ← Array.getElem?_eq_getElem hlt] at hi
  · obtain ⟨hlt, _⟩ := Array.getElem?_eq_some_iff.mp hi
    obtain rfl : i = t.trail.size := by
      rw [Array.size_push] at hlt
      omega
    rw [Array.getElem?_push_size] at hi
    cases hi
    exact (h.frames f hf).push _

/-- What a node leads to is linked to it and carries the rule that is expanded inside of it. -/
lemma Linked.expand (h : t.Linked s root) (hst : t.stack = f :: rest)
    (hf : ∀ cause, ¬ s.table.Faulty f.element cause) : (t.expand s f rest).Linked s root := by
  have hmem : f ∈ t.stack := hst ▸ List.mem_cons_self
  have hold {g : Frame} (hg : g ∈ rest) : g ∈ t.stack := hst ▸ List.mem_cons_of_mem _ hg
  have hsize : (t.expand s f rest).trail.size = t.trail.size + 1 := by simp [Traversal.expand]
  refine ⟨h.trail_push hmem, fun g hg => ?_, fun g hg hp => ?_, fun g hg => ?_⟩
  · rcases List.mem_append.mp hg with hg | hg
    · obtain ⟨d, hd, rfl⟩ := List.mem_map.mp hg
      exact .below (by omega) Array.getElem?_push_size hd
    · obtain ⟨p, hp⟩ := h.exists_parent hst hg
      have hlinked := (h.frames g (hold hg)).push ⟨f.element, f.parent⟩
      rw [hp] at hlinked ⊢
      cases hlinked with
      | below hlt ha hd => exact .below (by omega) ha hd
  · rcases List.mem_append.mp hg with hg | hg
    · obtain ⟨d, hd, rfl⟩ := List.mem_map.mp hg
      cases hp
    · obtain ⟨p, hp'⟩ := h.exists_parent hst hg
      simp [hp'] at hp
  · rcases List.mem_append.mp hg with hg | hg
    · obtain ⟨d, hd, rfl⟩ := List.mem_map.mp hg
      have hchain : chain (t.expand s f rest).trail t.trail.size =
          chainAbove t.trail f.parent ++ [f.element] :=
        chain_push_size (h.frames f hmem).lt
      rw [chainAbove, hchain]
      exact (h.rules f hmem).ruleInside hf
    · rw [Traversal.expand, chainAbove_push (h.frames g (hold hg)).lt]
      exact h.rules g (hold hg)

lemma Linked.of_step (h : t.Linked s root) (hs : t.step s = .next t') : t'.Linked s root := by
  cases move_of_step_eq hs with
  | skip hst _ => exact h.pop hst t.visited
  | prune hst _ _ => exact h.pop hst _
  | expand hst _ _ hf => exact h.expand hst hf

lemma Turns.linked (h : Turns s (start root) t) : t.Linked s root :=
  h.keep (linked_start s root) Linked.of_step

/-! ### Chains are lineages -/

/-- The chains of a linked trail are lineages, and so is one with what its last node leads to. -/
lemma LinkedAt.lineage
    (htrail : ∀ i entry, trail[i]? = some entry →
      LinkedAt s root trail i entry.element entry.parent)
    (h : LinkedAt s root trail i e parent) :
    s.table.Lineage root (chainAbove trail parent ++ [e]) := by
  induction i using Nat.strongRecOn generalizing e parent with
  | _ i ih =>
    cases h with
    | root hi he => exact he ▸ s.table.lineage_root e
    | @below p above hp ha hd =>
      have habove := htrail p above ha
      have hlineage := ih p hp habove
      rw [← chain_of_getElem? ha habove.lt] at hlineage
      exact hlineage.concat (getLast?_chain ha) (Scope.leads_of_mem_successors hd)

/-- A fault stops the loop at the next frame. Its rule is that of the frame, and its path are the
labels of the chain above the frame and of the faulty node. -/
lemma Linked.of_fault {fault : ModelFault} (h : t.Linked s root) (hs : t.step s = .fault fault) :
    ∃ f rest, t.stack = f :: rest ∧ s.table.Faulty f.element fault.cause ∧
      fault.ruleName = f.ruleName ∧
      fault.path = (chainAbove t.trail f.parent ++ [f.element]).map Element.label := by
  cases move_of_step_eq hs with
  | @fault f rest cause hst hv hp hf =>
    have hframe := h.frames f (hst ▸ List.mem_cons_self)
    refine ⟨f, rest, hst, hf, rfl, ?_⟩
    rw [faultAt, path, chain_push_size hframe.lt]

/-- The nodes of a chain stand in the trail in the same order, none of them behind its end. -/
lemma chainAbove_sublist
    (htrail : ∀ i entry, trail[i]? = some entry →
      LinkedAt s root trail i entry.element entry.parent)
    (h : LinkedAt s root trail i e parent) :
    (chainAbove trail parent).Sublist ((trail.toList.map TrailEntry.element).take i) := by
  induction i using Nat.strongRecOn generalizing e parent with
  | _ i ih =>
    cases h with
    | root hi he => exact List.nil_sublist _
    | @below p above hp ha hd =>
      have habove := htrail p above ha
      have hsublist := (ih p hp habove).append (List.Sublist.refl [above.element])
      have htake : (trail.toList.map TrailEntry.element).take (p + 1) =
          (trail.toList.map TrailEntry.element).take p ++ [above.element] := by
        simp [List.take_add_one, ha]
      rw [chainAbove, chain_of_getElem? ha habove.lt]
      apply hsublist.trans
      rw [← htake]
      exact List.take_sublist_take_left (by omega)

end Traversal

namespace Scope

variable {s : Scope} {root : Element}

open Traversal

/-- **A reported fault names a way through the grammar from the root to a faulty node.** Its nodes
are distinct, each leads to the next, and none is hidden; all but the last have been opened in this
order before the loop is stopped. The path of the fault are the labels of these nodes and of no
others, and its rule is that of the last reference above the faulty node. -/
theorem exists_lineage_of_fault {fault : ModelFault} (h : s.discover root = .error fault) :
    ∃ t above e, Turns s (start root) t ∧ t.step s = .fault fault ∧
      s.table.Lineage root (above ++ [e]) ∧ (above ++ [e]).Nodup ∧
      (∀ d ∈ above ++ [e], ¬ s.Hides d) ∧ above.Sublist t.opened ∧ e ∉ t.opened ∧
      s.table.Faulty e fault.cause ∧ fault.path = (above ++ [e]).map (Element.render 2) ∧
      s.table.RuleBelow above fault.ruleName := by
  obtain ⟨t, ht, hs⟩ := discover_eq_error_iff.mp h
  obtain ⟨n, hn⟩ := ht.exists_turnsIn
  have htally := hn.tally
  have hlinked := ht.linked
  cases move_of_step_eq hs with
  | @fault f rest cause hst hv hp hf =>
    have hmem : f ∈ t.stack := hst ▸ List.mem_cons_self
    have hframe := hlinked.frames f hmem
    have hsublist : (chainAbove t.trail f.parent).Sublist t.opened :=
      (chainAbove_sublist hlinked.trail hframe).trans (List.take_sublist _ _)
    have hnew : f.element ∉ t.opened := fun he => hv ((htally.mem_opened _).mp he).1
    refine ⟨t, chainAbove t.trail f.parent, f.element, ht, hs, hframe.lineage hlinked.trail, ?_, ?_,
      hsublist, hnew, hf, ?_, hlinked.rules f hmem⟩
    · rw [← List.concat_eq_append]
      exact (htally.nodup.sublist hsublist).concat fun he => hnew (hsublist.subset he)
    · intro d hd
      rcases List.mem_append.mp hd with hd | hd
      · exact ((htally.mem_opened d).mp (hsublist.subset hd)).2
      · rwa [List.mem_singleton.mp hd]
    · rw [faultAt, path, chain_push_size hframe.lt]
      rfl

/-- A grammar in which a reference without a rule stands behind nodes that have been opened before,
in a rule that is found under another name. -/
def detour : Scope where
  table := .ofList [
    ("start", some ⟨"sentence", [
      [.group 1 "" .once [.literal 2 "a", .separator 3 ","],
        .choice 4 "" [.literal 2 "a", .ruleRef 5 "noun"]]]⟩),
    ("noun", some ⟨"thing", [
      [.ruleRef 6 "start", .group 7 "" .optional [.literal 8 "b", .ruleRef 9 "verb"]]]⟩)]
  pruned := .ofList ["start rule"]

theorem exists_lineage_of_fault_detour :
    detour.discover (.ruleRef 0 "start") = .error ⟨.unknownRule "verb", some "thing",
      ["start", "( 'a' | noun )", "noun", "( 'b' verb )?", "verb"]⟩ ∧
    ∃ above e, detour.table.Lineage (.ruleRef 0 "start") (above ++ [e]) ∧ (above ++ [e]).Nodup ∧
      detour.table.Faulty e (.unknownRule "verb") ∧
      (above ++ [e]).map (Element.render 2) =
        ["start", "( 'a' | noun )", "noun", "( 'b' verb )?", "verb"] ∧
      detour.table.RuleBelow above (some "thing") := by
  have h : detour.discover (.ruleRef 0 "start") = .error ⟨.unknownRule "verb", some "thing",
      ["start", "( 'a' | noun )", "noun", "( 'b' verb )?", "verb"]⟩ := by
    cbv
  obtain ⟨_, above, e, _, _, hlineage, hnodup, _, _, _, hfaulty, hpath, hrule⟩ :=
    exists_lineage_of_fault h
  exact ⟨h, above, e, hlineage, hnodup, hfaulty, hpath.symm, hrule⟩

end Scope

end GrammarCoverage
