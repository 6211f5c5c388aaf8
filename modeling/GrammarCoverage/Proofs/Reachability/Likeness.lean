import GrammarCoverage.Proofs.Reachability.Discovery

/-!
# Likeness of grammars

One grammar may let a node stand at several places where another holds a copy at each. A relation
between their nodes is a likeness if related nodes are of one kind and name and lead, in order, to
related nodes (`RuleTable.Likeness`). Related nodes reach related nodes, however the rules refer to
each other, so a discovery comes to the same on both sides (`RuleTable.Likeness.discover_alike`).
-/

namespace GrammarCoverage

namespace RuleTable

/-- Two nodes are of one kind and name, and what they lead to is related in order. -/
inductive Matches (table table' : RuleTable) (R : Element → Element → Prop) :
    Element → Element → Prop where
  | literal (id id' : Nat) (name : String) :
      Matches table table' R (.literal id name) (.literal id' name)
  | separator (id id' : Nat) (name : String) :
      Matches table table' R (.separator id name) (.separator id' name)
  | foreign (id id' : Nat) (kind kind' : String) (name : Option String) :
      Matches table table' R (.foreign id kind name) (.foreign id' kind' name)
  | group (id id' : Nat) (name : String) (repetition repetition' : Repetition)
      {es es' : List Element} (h : List.Forall₂ R es es') :
      Matches table table' R (.group id name repetition es) (.group id' name repetition' es')
  | choice (id id' : Nat) (name : String) {es es' : List Element} (h : List.Forall₂ R es es') :
      Matches table table' R (.choice id name es) (.choice id' name es')
  /-- The name stands for a rule on neither side. -/
  | undefined (id id' : Nat) {name : String} (h : table.rule? name = none)
      (h' : table'.rule? name = none) :
      Matches table table' R (.ruleRef id name) (.ruleRef id' name)
  | ruleRef (id id' : Nat) {name : String} {rule rule' : Rule}
      (hr : table.rule? name = some rule) (hr' : table'.rule? name = some rule')
      (h : List.Forall₂ R rule.elements rule'.elements) :
      Matches table table' R (.ruleRef id name) (.ruleRef id' name)

/-- Related nodes match, and so does what they lead to. -/
def Likeness (table table' : RuleTable) (R : Element → Element → Prop) : Prop :=
  ∀ ⦃e e'⦄, R e e' → table.Matches table' R e e'

variable {table table' : RuleTable} {R : Element → Element → Prop} {e e' d root root' : Element}
  {cause : ModelFault.Cause}

lemma Matches.symm (h : table.Matches table' R e e') : table'.Matches table (flip R) e' e := by
  cases h with
  | literal id id' name => exact .literal id' id name
  | separator id id' name => exact .separator id' id name
  | foreign id id' kind kind' name => exact .foreign id' id kind' kind name
  | group id id' name repetition repetition' h =>
    exact .group id' id name repetition' repetition h.flip
  | choice id id' name h => exact .choice id' id name h.flip
  | undefined id id' h h' => exact .undefined id' id h' h
  | ruleRef id id' hr hr' h => exact .ruleRef id' id hr' hr h.flip

lemma Likeness.symm (h : table.Likeness table' R) : table'.Likeness table (flip R) :=
  fun _ _ hR => (h hR).symm

/-! ### One step -/

lemma exists_mem_of_forall₂ {es es' : List Element} (h : List.Forall₂ R es es') (hd : d ∈ es) :
    ∃ d' ∈ es', R d d' := by
  induction h with
  | nil => cases hd
  | cons hR _ ih =>
    rcases List.mem_cons.mp hd with rfl | hd
    · exact ⟨_, List.mem_cons_self, hR⟩
    · obtain ⟨d', hd', hR'⟩ := ih hd
      exact ⟨d', List.mem_cons_of_mem _ hd', hR'⟩

lemma Matches.exists_leads (h : table.Matches table' R e e') (hd : table.Leads e d) :
    ∃ d', table'.Leads e' d' ∧ R d d' := by
  cases hd with
  | group hd =>
    cases h with
    | group _ _ _ _ _ h =>
      obtain ⟨d', hd', hR⟩ := exists_mem_of_forall₂ h hd
      exact ⟨d', .group hd', hR⟩
  | choice hd =>
    cases h with
    | choice _ _ _ h =>
      obtain ⟨d', hd', hR⟩ := exists_mem_of_forall₂ h hd
      exact ⟨d', .choice hd', hR⟩
  | ruleRef hr ha hd =>
    have hr := rule?_eq_some_iff.mpr hr
    cases h with
    | undefined _ _ h _ => simp [h] at hr
    | ruleRef _ _ hrule hr' h =>
      obtain rfl := Option.some.inj (hrule.symm.trans hr)
      obtain ⟨d', hd', hR⟩ := exists_mem_of_forall₂ h (List.mem_flatten.mpr ⟨_, ha, hd⟩)
      obtain ⟨alternative, ha', hd'⟩ := List.mem_flatten.mp hd'
      exact ⟨d', .ruleRef (rule?_eq_some_iff.mp hr') ha' hd', hR⟩

lemma Matches.exists_faulty (h : table.Matches table' R e e') (hf : table.Faulty e cause) :
    ∃ cause', table'.Faulty e' cause' := by
  cases h with
  | foreign id id' kind kind' name => exact ⟨_, .foreign id' kind' name⟩
  | undefined id id' _ h' => exact exists_faulty_ruleRef_iff.mpr h'
  | ruleRef id id' hr _ _ =>
    have hn := exists_faulty_ruleRef_iff.mp ⟨cause, hf⟩
    simp [hr] at hn
  | literal | separator | group | choice => cases hf

lemma Matches.hides_iff (h : table.Matches table' R e e') (pruned : NameSet) :
    (⟨table', pruned⟩ : Scope).Hides e' ↔ (⟨table, pruned⟩ : Scope).Hides e := by
  have hname : e'.name? = e.name? := by cases h <;> rfl
  rw [Scope.Hides, Scope.Hides, hname]

/-! ### Paths and discoveries -/

/-- Related roots reach related nodes. -/
lemma Likeness.exists_reaches (h : table.Likeness table' R) (hroot : R root root')
    {pruned : NameSet} (he : (⟨table, pruned⟩ : Scope).Reaches root e) :
    ∃ e', (⟨table', pruned⟩ : Scope).Reaches root' e' ∧ R e e' := by
  induction he with
  | root hn => exact ⟨root', .root fun hn' => hn (((h hroot).hides_iff pruned).mp hn'), hroot⟩
  | edge _ hd hn ih =>
    obtain ⟨e', he', hR⟩ := ih
    obtain ⟨d', hd', hR'⟩ := (h hR).exists_leads hd
    exact ⟨d', .edge he' hd' fun hn' => hn (((h hR').hides_iff pruned).mp hn'), hR'⟩

/-- A discovery that succeeds does so on the other side too. -/
lemma Likeness.exists_found (h : table.Likeness table' R) (hroot : R root root')
    {pruned found : NameSet} (hfound : (⟨table, pruned⟩ : Scope).discover root = .ok found) :
    ∃ found', (⟨table', pruned⟩ : Scope).discover root' = .ok found' := by
  apply Scope.exists_discover
  intro e' he' cause' hf'
  -- a faulty node would have a relative that the first discovery meets
  obtain ⟨e, he, hR⟩ := h.symm.exists_reaches (R := flip R) hroot he'
  obtain ⟨cause, hf⟩ := (h.symm hR).exists_faulty hf'
  exact he.not_faulty hfound cause hf

lemma Likeness.mem_found (h : table.Likeness table' R) (hroot : R root root')
    {pruned found found' : NameSet} (hfound : (⟨table, pruned⟩ : Scope).discover root = .ok found)
    (hfound' : (⟨table', pruned⟩ : Scope).discover root' = .ok found') {name : String}
    (hn : name ∈ found) : name ∈ found' := by
  obtain ⟨id, he⟩ := Scope.exists_reaches_of_mem_discover hfound hn
  obtain ⟨e', he', hR⟩ := h.exists_reaches hroot he
  cases h hR with
  | literal _ id' _ => exact he'.mem_discover hfound'

/-- **From related nodes of like grammars a discovery comes to the same, whatever is pruned**: it
finds the same names on both sides or meets a fault on both. Which nodes are one and which are
copies of each other plays no part. -/
theorem Likeness.discover_alike (h : table.Likeness table' R) (hroot : R root root')
    (pruned : NameSet) :
    (∃ found found', (⟨table, pruned⟩ : Scope).discover root = .ok found ∧
      (⟨table', pruned⟩ : Scope).discover root' = .ok found' ∧
      ∀ name, name ∈ found ↔ name ∈ found') ∨
    ∃ fault fault', (⟨table, pruned⟩ : Scope).discover root = .error fault ∧
      (⟨table', pruned⟩ : Scope).discover root' = .error fault' := by
  cases hfound : (⟨table, pruned⟩ : Scope).discover root with
  | ok found =>
    obtain ⟨found', hfound'⟩ := h.exists_found hroot hfound
    refine .inl ⟨found, found', rfl, hfound', fun name => ⟨?_, ?_⟩⟩
    · exact h.mem_found hroot hfound hfound'
    · exact h.symm.mem_found (R := flip R) hroot hfound' hfound
  | error fault =>
    cases hfound' : (⟨table', pruned⟩ : Scope).discover root' with
    | error fault' => exact .inr ⟨fault, fault', rfl, rfl⟩
    | ok found' =>
      obtain ⟨found, hok⟩ := h.symm.exists_found (R := flip R) hroot hfound'
      cases hfound.symm.trans hok

/-- A recursive rule in which one literal and one reference stand at two places. -/
def sharing : RuleTable := .ofList [("list", some ⟨"list", [
  [.literal 1 "a", .ruleRef 2 "list"],
  [.choice 3 "" [.literal 1 "a", .ruleRef 2 "list", .group 4 "spare" .once [.literal 5 "b"]]]]⟩)]

/-- The same rule with a copy at each place. -/
def copying : RuleTable := .ofList [("list", some ⟨"list", [
  [.literal 11 "a", .ruleRef 12 "list"],
  [.choice 13 "" [.literal 14 "a", .ruleRef 15 "list",
    .group 16 "spare" .once [.literal 17 "b"]]]]⟩)]

/-- The places of the two rules, side by side. -/
def sharedPlaces : List (Element × Element) := [
  (.ruleRef 0 "list", .ruleRef 10 "list"),
  (.literal 1 "a", .literal 11 "a"),
  (.literal 1 "a", .literal 14 "a"),
  (.ruleRef 2 "list", .ruleRef 12 "list"),
  (.ruleRef 2 "list", .ruleRef 15 "list"),
  (.literal 5 "b", .literal 17 "b"),
  (.group 4 "spare" .once [.literal 5 "b"], .group 16 "spare" .once [.literal 17 "b"]),
  (.choice 3 "" [.literal 1 "a", .ruleRef 2 "list", .group 4 "spare" .once [.literal 5 "b"]],
    .choice 13 "" [.literal 14 "a", .ruleRef 15 "list",
      .group 16 "spare" .once [.literal 17 "b"]])]

theorem discover_alike_sharing :
    sharing.Likeness copying (fun e e' => (e, e') ∈ sharedPlaces) ∧
    ∀ pruned : NameSet,
      (∃ found found', (⟨sharing, pruned⟩ : Scope).discover (.ruleRef 0 "list") = .ok found ∧
        (⟨copying, pruned⟩ : Scope).discover (.ruleRef 10 "list") = .ok found' ∧
        ∀ name, name ∈ found ↔ name ∈ found') ∨
      ∃ fault fault', (⟨sharing, pruned⟩ : Scope).discover (.ruleRef 0 "list") = .error fault ∧
        (⟨copying, pruned⟩ : Scope).discover (.ruleRef 10 "list") = .error fault' := by
  have rules (id id' : Nat) : sharing.Matches copying (fun e e' => (e, e') ∈ sharedPlaces)
      (.ruleRef id "list") (.ruleRef id' "list") := by
    apply Matches.ruleRef id id' rfl rfl
    simp [Rule.elements, sharedPlaces]
  have h : sharing.Likeness copying fun e e' => (e, e') ∈ sharedPlaces := by
    intro e e' he
    simp only [sharedPlaces, List.mem_cons, Prod.mk.injEq, List.not_mem_nil, or_false] at he
    rcases he with ⟨rfl, rfl⟩ | ⟨rfl, rfl⟩ | ⟨rfl, rfl⟩ | ⟨rfl, rfl⟩ | ⟨rfl, rfl⟩ | ⟨rfl, rfl⟩ |
      ⟨rfl, rfl⟩ | ⟨rfl, rfl⟩
    · exact rules 0 10
    · exact .literal 1 11 "a"
    · exact .literal 1 14 "a"
    · exact rules 2 12
    · exact rules 2 15
    · exact .literal 5 17 "b"
    · exact .group 4 16 "spare" .once .once (by simp [sharedPlaces])
    · exact .choice 3 13 "" (by simp [sharedPlaces])
  exact ⟨h, h.discover_alike (by simp [sharedPlaces])⟩

end RuleTable

end GrammarCoverage
