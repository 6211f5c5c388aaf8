import GrammarCoverage.Proofs.Generation.Writing
import GrammarCoverage.Proofs.Reachability.Paths

/-!
# Steering a derivation

An adviser that approves exactly the elements that reach a goal steers every derivation to a goal:
at a choice or a reference only branches that reach one are left, and a group that reaches one is
entered (`RuleTable.Expands.exists_promising`). So the text of an element that reaches a goal holds
one (`Scope.exists_goal_written`).
-/

namespace GrammarCoverage

universe u v

variable {δ : Type u} {γ : Type v}

/-- Advisers with the property `I` approve exactly the elements with the property `Q`. -/
def Adviser.Answers [Adviser δ] (I : δ → Prop) (Q : Element → Prop) : Prop :=
  ∀ ⦃a e b a'⦄, I a → Adviser.ask a e = .ok (b, a') → I a' ∧ (b = true ↔ Q e)

/-- Advisers with the property `I` approve every element with the property `Q`, and none without the
property `P`. -/
def Adviser.Between [Adviser δ] (I : δ → Prop) (Q P : Element → Prop) : Prop :=
  ∀ ⦃a e b a'⦄, I a → Adviser.ask a e = .ok (b, a') →
    I a' ∧ (Q e → b = true) ∧ (b = true → P e)

lemma Adviser.Between.keeps [Adviser δ] {I : δ → Prop} {Q P : Element → Prop}
    (h : Adviser.Between I Q P) : Adviser.Keeps I :=
  fun _ _ _ _ ha hask => (h ha hask).1

lemma Adviser.Answers.between [Adviser δ] {I : δ → Prop} {Q : Element → Prop}
    (h : Adviser.Answers I Q) : Adviser.Between I Q Q :=
  fun _ _ _ _ ha hask => ⟨(h ha hask).1, (h ha hask).2.mpr, (h ha hask).2.mp⟩

lemma Adviser.Answers.keeps [Adviser δ] {I : δ → Prop} {Q : Element → Prop}
    (h : Adviser.Answers I Q) : Adviser.Keeps I := h.between.keeps

namespace Derivation

/-- Some of the items are kept: all with the property `Q`, and none without the property `P`. -/
structure Sifts {α : Type} (Q P : α → Prop) (items kept : List α) : Prop where
  mem : ∀ {x}, x ∈ items → Q x → x ∈ kept
  of_mem : ∀ {x}, x ∈ kept → x ∈ items ∧ P x

lemma Sifts.nil {α : Type} {Q P : α → Prop} : Sifts Q P [] [] where
  mem hx _ := hx
  of_mem hx := absurd hx List.not_mem_nil

lemma Sifts.cons {α : Type} {Q P : α → Prop} {x : α} {b : Bool} {items kept : List α}
    (hq : Q x → b = true) (hp : b = true → P x) (h : Sifts Q P items kept) :
    Sifts Q P (x :: items) (if b then x :: kept else kept) where
  mem hy hqy := by
    rcases List.mem_cons.mp hy with rfl | hy
    · simp [hq hqy]
    · cases b <;> simp [h.mem hy hqy]
  of_mem hy := by
    cases b with
    | false =>
      obtain ⟨hy, hpy⟩ := h.of_mem hy
      exact ⟨List.mem_cons_of_mem _ hy, hpy⟩
    | true =>
      rcases List.mem_cons.mp hy with rfl | hy
      · exact ⟨List.mem_cons_self, hp rfl⟩
      · obtain ⟨hy, hpy⟩ := h.of_mem hy
        exact ⟨List.mem_cons_of_mem _ hy, hpy⟩

lemma Sifts.mem_iff {α : Type} {Q : α → Prop} {items kept : List α} (h : Sifts Q Q items kept)
    {x : α} : x ∈ kept ↔ x ∈ items ∧ Q x :=
  ⟨h.of_mem, fun hx => h.mem hx.1 hx.2⟩

variable [Adviser δ] {I : δ → Prop} {Q P : Element → Prop} {d d' : Derivation δ γ}

lemma approved_sifts (hI : Adviser.Between I Q P) (hd : I d.adviser)
    {es candidates : List Element} (h : d.approved es = .ok (candidates, d')) :
    Sifts Q P es candidates := by
  induction es generalizing d candidates with
  | nil =>
    cases h
    exact .nil
  | cons e es ih =>
    obtain ⟨b, adviser, rest, ha, hr, rfl⟩ := approved_cons h
    obtain ⟨hadviser, hq, hp⟩ := hI hd ha
    exact .cons hq hp (ih hadviser hr)

lemma anyApproved_between (hI : Adviser.Between I Q P) (hd : I d.adviser) {es : List Element}
    {b : Bool} (h : d.anyApproved es = .ok (b, d')) :
    ((∃ e ∈ es, Q e) → b = true) ∧ (b = true → ∃ e ∈ es, P e) := by
  induction es generalizing d with
  | nil =>
    cases h
    simp
  | cons e es ih =>
    obtain ⟨b', adviser, ha, hrest⟩ := anyApproved_cons h
    obtain ⟨hadviser, hq, hp⟩ := hI hd ha
    cases b' with
    | true =>
      obtain ⟨rfl, _⟩ := hrest
      exact ⟨fun _ => rfl, fun _ => ⟨e, List.mem_cons_self, hp rfl⟩⟩
    | false =>
      have he : ¬ Q e := fun he => Bool.false_ne_true (hq he)
      simpa [he] using (ih hadviser hrest).imp_right fun h hb => .inr (h hb)

lemma approvedSequences_sifts (hI : Adviser.Between I Q P) (hd : I d.adviser)
    {ess candidates : List (List Element)} (h : d.approvedSequences ess = .ok (candidates, d')) :
    Sifts (fun es => ∃ e ∈ es, Q e) (fun es => ∃ e ∈ es, P e) ess candidates := by
  induction ess generalizing d candidates with
  | nil =>
    cases h
    exact .nil
  | cons es ess ih =>
    obtain ⟨b, d₁, rest, ha, hr, rfl⟩ := approvedSequences_cons h
    obtain ⟨hq, hp⟩ := anyApproved_between hI hd ha
    exact .cons hq hp (ih ((writes_of_anyApproved hI.keeps ha).2 hd) hr)

lemma mem_approved_iff (hI : Adviser.Answers I Q) (hd : I d.adviser)
    {es candidates : List Element} (h : d.approved es = .ok (candidates, d')) {e : Element} :
    e ∈ candidates ↔ e ∈ es ∧ Q e :=
  (approved_sifts hI.between hd h).mem_iff

lemma mem_approvedSequences_iff (hI : Adviser.Answers I Q) (hd : I d.adviser)
    {ess candidates : List (List Element)} (h : d.approvedSequences ess = .ok (candidates, d'))
    {es : List Element} : es ∈ candidates ↔ es ∈ ess ∧ ∃ e ∈ es, Q e :=
  (approvedSequences_sifts hI.between hd h).mem_iff

omit [Adviser δ] in
/-- As long as something is approved, only what is approved is picked. -/
lemma mem_of_pick_orElse [IndexSource γ] {α : Type} {items others : List α} {x y : α}
    (h : d.pick (orElse items others) = some (x, d')) (hy : y ∈ items) : x ∈ items := by
  rcases mem_or_mem_of_pick h with hx | ⟨rfl, _⟩
  · exact hx
  · cases hy

end Derivation

/-- An element promises a goal if it reaches a literal whose name is one. -/
def Scope.Promises (s : Scope) (goal : String → Prop) (e : Element) : Prop :=
  ∃ id name, s.Reaches e (.literal id name) ∧ goal name

/-- A promise is kept at once by a literal, or passed on to something that the element leads to. -/
lemma Scope.Promises.cases_head {s : Scope} {goal : String → Prop} {e : Element}
    (h : s.Promises goal e) :
    (∃ id name, e = .literal id name ∧ goal name) ∨
      ∃ c, s.table.Leads e c ∧ s.Promises goal c := by
  obtain ⟨id, name, hr, hg⟩ := h
  rcases hr.cases_head with rfl | ⟨c, hc, hr⟩
  · exact .inl ⟨id, name, rfl, hg⟩
  · exact .inr ⟨c, hc, id, name, hr, hg⟩

/-- A derivation goes on with elements that its element leads to. -/
lemma RuleTable.Expands.leads [Adviser δ] [IndexSource γ] {table : RuleTable} {e c : Element}
    {es : List Element} {d d₁ : Derivation δ γ} (h : table.Expands e d es d₁) (hc : c ∈ es) :
    table.Leads e c := by
  cases h with
  | literal | separator | foreign => cases hc
  | ruleRef id hr happroved hp =>
    exact .ruleRef hr (Derivation.mem_of_pick_approvedSequences happroved hp) hc
  | choice id name happroved hp =>
    rw [List.mem_singleton.mp hc]
    exact .choice (Derivation.mem_of_pick_approved happroved hp)
  | @asked id name repetition es d b adviser hr ha =>
    cases b with
    | false => cases hc
    | true => exact .group hc
  | group id name es d hr => exact .group hc

/-- A derivation goes on with a promising element, if the element leads to one and promises. -/
lemma RuleTable.Expands.exists_promising [Adviser δ] [IndexSource γ] {I : δ → Prop}
    {Q : Element → Prop} {table : RuleTable} {e c : Element} {es : List Element}
    {d d₁ : Derivation δ γ} (h : table.Expands e d es d₁) (hI : Adviser.Answers I Q)
    (hd : I d.adviser) (he : Q e) (hc : table.Leads e c) (hq : Q c) : ∃ x ∈ es, Q x := by
  cases h with
  | literal | separator | foreign => cases hc
  | group id name es d hr =>
    cases hc with
    | group hc => exact ⟨c, hc, hq⟩
  | @asked id name repetition es d b adviser hr ha =>
    cases hc with
    | group hc =>
      have hb : b = true := (hI hd ha).2.mpr he
      exact ⟨c, by rwa [if_pos hb], hq⟩
  | choice id name happroved hp =>
    cases hc with
    | choice hc =>
      have hcandidate := (Derivation.mem_approved_iff hI hd happroved).mpr ⟨hc, hq⟩
      have hx := Derivation.mem_of_pick_orElse hp hcandidate
      obtain ⟨_, hqx⟩ := (Derivation.mem_approved_iff hI hd happroved).mp hx
      exact ⟨_, List.mem_singleton_self _, hqx⟩
  | ruleRef id hr happroved hp =>
    cases hc with
    | ruleRef hr' ha hc =>
      rw [hr] at hr'
      cases hr'
      have hcandidate := (Derivation.mem_approvedSequences_iff hI hd happroved).mpr
        ⟨ha, c, hc, hq⟩
      have hes := Derivation.mem_of_pick_orElse hp hcandidate
      exact ((Derivation.mem_approvedSequences_iff hI hd happroved).mp hes).2

namespace Scope

variable [Adviser δ] {s : Scope} {goal : String → Prop} {I : δ → Prop}

/-- The text from one state to another holds a goal that the element reaches, if it promises one. -/
def Delivers (s : Scope) (goal : String → Prop) (I : δ → Prop) (e : Element)
    (d d' : Derivation δ γ) : Prop :=
  I d.adviser → ∃ ws, d.Writes I ws d' ∧
    (s.Promises goal e → ∃ name ∈ ws, goal name ∧ ∃ id, s.Reaches e (.literal id name))

omit [Adviser δ] in
lemma exists_goal_of_chain {es : List Element} {d d' : Derivation δ γ}
    (h : Derivation.Chain (s.Delivers goal I) es d d') (hd : I d.adviser) :
    ∃ ws, d.Writes I ws d' ∧ ∀ e ∈ es, s.Promises goal e →
      ∃ name ∈ ws, goal name ∧ ∃ id, s.Reaches e (.literal id name) := by
  induction h with
  | nil d => exact ⟨[], .refl d, fun e he => absurd he List.not_mem_nil⟩
  | cons head _ ih =>
    obtain ⟨ws, hw, hhead⟩ := head hd
    obtain ⟨ws', hw', htail⟩ := ih (hw.2 hd)
    refine ⟨ws ++ ws', hw.trans hw', fun e he hp => ?_⟩
    rcases List.mem_cons.mp he with rfl | he
    · obtain ⟨name, hn, hg⟩ := hhead hp
      exact ⟨name, List.mem_append_left _ hn, hg⟩
    · obtain ⟨name, hn, hg⟩ := htail e he hp
      exact ⟨name, List.mem_append_right _ hn, hg⟩

/-- The text of an element that promises a goal holds a goal that the element reaches. -/
theorem exists_goal_written [IndexSource γ] (hI : Adviser.Answers I (s.Promises goal))
    {depth : Nat} {e : Element} {d d' : Derivation δ γ}
    (h : s.table.derive depth e d = .going d') : s.Delivers goal I e d d' := by
  refine RuleTable.derive_induction ?_ h
  -- a level keeps the promise itself, or goes on with an element that has it
  intro e d es d₁ d' he hes hd
  have hown := he.writes hI.keeps
  obtain ⟨ws, hw, hbelow⟩ := exists_goal_of_chain hes (hown.2 hd)
  refine ⟨e.ownTokens ++ ws, hown.trans hw, fun hp => ?_⟩
  have hhides : ¬ s.Hides e := by
    obtain ⟨id, name, hr, _⟩ := hp
    exact hr.not_hides_root
  rcases hp.cases_head with ⟨id, name, rfl, hg⟩ | ⟨c, hc, hq⟩
  · exact ⟨name, List.mem_cons_self, hg, id, .root hhides⟩
  · obtain ⟨x, hx, hpx⟩ := he.exists_promising hI hd hp hc hq
    obtain ⟨name, hn, hg, id, hr⟩ := hbelow x hx hpx
    exact ⟨name, List.mem_append_right _ hn, hg, id, .head hhides (he.leads hx) hr⟩

end Scope

end GrammarCoverage
