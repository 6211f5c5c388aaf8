import GrammarCoverage.Proofs.Generation.Expansion

/-!
# What a derivation writes

A derivation only adds tokens at the end, and changes its adviser only by asking. So a property of
advisers that asking keeps is kept by every derivation that completes (`RuleTable.exists_writes`).
-/

namespace GrammarCoverage

universe u v

variable {δ : Type u} {γ : Type v}

/-- The token that the derivation of an element writes by itself. -/
def Element.ownTokens : Element → List String
  | .literal _ name | .separator _ name => [name]
  | _ => []

namespace Derivation

variable {I : δ → Prop} {d d' : Derivation δ γ} {ws : List String}

/-- From one state to another the given tokens are added, and a property of advisers is kept. -/
def Writes (I : δ → Prop) (d : Derivation δ γ) (ws : List String) (d' : Derivation δ γ) : Prop :=
  d'.tokens.toList = d.tokens.toList ++ ws ∧ (I d.adviser → I d'.adviser)

lemma Writes.refl (d : Derivation δ γ) : d.Writes I [] d := ⟨(List.append_nil _).symm, id⟩

lemma Writes.trans {d'' : Derivation δ γ} {ws' : List String} (h : d.Writes I ws d')
    (h' : d'.Writes I ws' d'') : d.Writes I (ws ++ ws') d'' :=
  ⟨by rw [h'.1, h.1, List.append_assoc], h'.2 ∘ h.2⟩

lemma writes_write (d : Derivation δ γ) (name : String) : d.Writes I [name] (d.write name) :=
  ⟨by simp [write], id⟩

/-- Texts of elements worked through in order are put together, and so is what they are texts of. -/
lemma Chain.exists_texts {Y : Element → List String → Prop}
    {S : List Element → List String → Prop} (nil : S [] [])
    (cons : ∀ {e es ws ws'}, Y e ws → S es ws' → S (e :: es) (ws ++ ws')) {es : List Element}
    (h : Chain (fun e d d' => ∃ ws, d.Writes I ws d' ∧ Y e ws) es d d') :
    ∃ ws, d.Writes I ws d' ∧ S es ws := by
  induction h with
  | nil d => exact ⟨[], .refl d, nil⟩
  | cons head _ ih =>
    obtain ⟨ws, hw, hy⟩ := head
    obtain ⟨ws', hw', hys⟩ := ih
    exact ⟨ws ++ ws', hw.trans hw', cons hy hys⟩

lemma pick_spec [IndexSource γ] {α : Type} {items : List α} {x : α}
    (h : d.pick items = some (x, d')) : x ∈ items ∧ d.Writes I [] d' := by
  unfold pick at h
  split at h
  · cases h
    exact ⟨List.getElem_mem _, .refl d⟩
  · cases h

end Derivation

/-- A property of advisers is kept when they are asked. -/
def Adviser.Keeps [Adviser δ] (I : δ → Prop) : Prop :=
  ∀ ⦃a e b a'⦄, I a → Adviser.ask a e = .ok (b, a') → I a'

/-- The answer of a guide is the decision of its strategy, which alone changes. -/
lemma Guide.ask_eq_ok_iff {σ : Type u} [NumberSource σ] {g g' : Guide σ} {e : Element} {b : Bool} :
    Adviser.ask g e = .ok (b, g') ↔
      (g.strategy.decide g.crawler e).outcome = .ok b ∧
        ({ g with strategy := (g.strategy.decide g.crawler e).source } : Guide σ) = g' := by
  have hask : Adviser.ask g e = (g.strategy.decide g.crawler e).outcome.map fun b =>
      (b, { g with strategy := (g.strategy.decide g.crawler e).source }) := rfl
  rw [hask]
  cases (g.strategy.decide g.crawler e).outcome <;> simp [Except.map]

namespace Derivation

variable [Adviser δ] {I : δ → Prop} {d d' : Derivation δ γ}

lemma writes_of_ask {e : Element} {b : Bool} {adviser : δ} (hI : Adviser.Keeps I)
    (h : Adviser.ask d.adviser e = .ok (b, adviser)) : d.Writes I [] { d with adviser } :=
  ⟨(List.append_nil _).symm, fun hd => hI hd h⟩

lemma approved_cons {e : Element} {es candidates : List Element}
    (h : d.approved (e :: es) = .ok (candidates, d')) :
    ∃ b adviser rest, Adviser.ask d.adviser e = .ok (b, adviser) ∧
      approved { d with adviser } es = .ok (rest, d') ∧
      candidates = if b then e :: rest else rest := by
  rw [approved] at h
  split at h
  · cases h
  · next b adviser ha =>
    split at h
    · cases h
    · next rest d₁ hr =>
      cases h
      exact ⟨b, adviser, rest, ha, hr, rfl⟩

lemma anyApproved_cons {e : Element} {es : List Element} {b : Bool}
    (h : d.anyApproved (e :: es) = .ok (b, d')) :
    ∃ b' adviser, Adviser.ask d.adviser e = .ok (b', adviser) ∧
      if b' then b = true ∧ d' = { d with adviser }
      else anyApproved { d with adviser } es = .ok (b, d') := by
  rw [anyApproved] at h
  split at h
  · cases h
  · next adviser ha =>
    cases h
    exact ⟨true, adviser, ha, rfl, rfl⟩
  · next adviser ha => exact ⟨false, adviser, ha, h⟩

lemma approvedSequences_cons {es : List Element} {ess candidates : List (List Element)}
    (h : d.approvedSequences (es :: ess) = .ok (candidates, d')) :
    ∃ b d₁ rest, d.anyApproved es = .ok (b, d₁) ∧ d₁.approvedSequences ess = .ok (rest, d') ∧
      candidates = if b then es :: rest else rest := by
  rw [approvedSequences] at h
  split at h
  · cases h
  · next b d₁ ha =>
    split at h
    · cases h
    · next rest d₂ hr =>
      cases h
      exact ⟨b, d₁, rest, ha, hr, rfl⟩

/-! ### What is picked -/

lemma approved_sublist {es candidates : List Element} (h : d.approved es = .ok (candidates, d')) :
    candidates.Sublist es := by
  induction es generalizing d candidates with
  | nil =>
    cases h
    exact .slnil
  | cons e es ih =>
    obtain ⟨b, adviser, rest, _, hr, rfl⟩ := approved_cons h
    cases b with
    | false => exact (ih hr).cons e
    | true => exact (ih hr).cons_cons e

lemma approvedSequences_sublist {ess candidates : List (List Element)}
    (h : d.approvedSequences ess = .ok (candidates, d')) : candidates.Sublist ess := by
  induction ess generalizing d candidates with
  | nil =>
    cases h
    exact .slnil
  | cons es ess ih =>
    obtain ⟨b, d₁, rest, _, hr, rfl⟩ := approvedSequences_cons h
    cases b with
    | false => exact (ih hr).cons es
    | true => exact (ih hr).cons_cons es

omit [Adviser δ] in
/-- The others are only picked from if there are no items. -/
lemma mem_or_mem_of_pick [IndexSource γ] {α : Type} {items others : List α} {x : α}
    (h : d.pick (orElse items others) = some (x, d')) : x ∈ items ∨ items = [] ∧ x ∈ others := by
  have hx := (pick_spec (I := fun _ => True) h).1
  rw [orElse] at hx
  split at hx
  · next hitems => exact .inr ⟨List.isEmpty_iff.mp hitems, hx⟩
  · exact .inl hx

lemma mem_of_pick_approved [IndexSource γ] {choices candidates : List Element} {e : Element}
    {d₁ d₂ : Derivation δ γ} (hc : d.approved choices = .ok (candidates, d₁))
    (hp : d₁.pick (orElse candidates choices) = some (e, d₂)) : e ∈ choices := by
  rcases mem_or_mem_of_pick hp with he | ⟨_, he⟩
  · exact (approved_sublist hc).subset he
  · exact he

/-- The alternative that is picked is one of the rule; if none is approved it is the first one. -/
lemma mem_of_pick_approvedSequences [IndexSource γ] {ess candidates : List (List Element)}
    {es : List Element} {d₁ d₂ : Derivation δ γ}
    (hc : d.approvedSequences ess = .ok (candidates, d₁))
    (hp : d₁.pick (orElse candidates (ess.take 1)) = some (es, d₂)) : es ∈ ess := by
  rcases mem_or_mem_of_pick hp with hes | ⟨_, hes⟩
  · exact (approvedSequences_sublist hc).subset hes
  · exact List.mem_of_mem_take hes

/-! ### What is written -/

lemma writes_of_approved (hI : Adviser.Keeps I) {es candidates : List Element}
    (h : d.approved es = .ok (candidates, d')) : d.Writes I [] d' := by
  induction es generalizing d candidates with
  | nil =>
    cases h
    exact .refl _
  | cons e es ih =>
    obtain ⟨b, adviser, rest, ha, hr, _⟩ := approved_cons h
    exact (writes_of_ask hI ha).trans (ih hr)

lemma writes_of_anyApproved (hI : Adviser.Keeps I) {es : List Element} {b : Bool}
    (h : d.anyApproved es = .ok (b, d')) : d.Writes I [] d' := by
  induction es generalizing d with
  | nil =>
    cases h
    exact .refl _
  | cons e es ih =>
    obtain ⟨b', adviser, ha, hb⟩ := anyApproved_cons h
    cases b' with
    | true =>
      obtain ⟨_, rfl⟩ := hb
      exact writes_of_ask hI ha
    | false => exact (writes_of_ask hI ha).trans (ih hb)

lemma writes_of_approvedSequences (hI : Adviser.Keeps I) {ess candidates : List (List Element)}
    (h : d.approvedSequences ess = .ok (candidates, d')) : d.Writes I [] d' := by
  induction ess generalizing d candidates with
  | nil =>
    cases h
    exact .refl _
  | cons es ess ih =>
    obtain ⟨b, d₁, rest, ha, hr, _⟩ := approvedSequences_cons h
    exact (writes_of_anyApproved hI ha).trans (ih hr)

end Derivation

namespace RuleTable

variable [Adviser δ] [IndexSource γ] {I : δ → Prop} {table : RuleTable} {depth : Nat}
  {e : Element} {d d' : Derivation δ γ}

/-- Before it goes on, a derivation writes the element's own token, if it has one. -/
lemma Expands.writes (hI : Adviser.Keeps I) {es : List Element} {d₁ : Derivation δ γ}
    (h : table.Expands e d es d₁) : d.Writes I e.ownTokens d₁ := by
  cases h with
  | literal id name => exact d.writes_write name
  | separator id name => exact d.writes_write name
  | foreign id kind name => exact .refl d
  | ruleRef id hr hc hp =>
    exact (Derivation.writes_of_approvedSequences hI hc).trans (Derivation.pick_spec hp).2
  | choice id name hc hp =>
    exact (Derivation.writes_of_approved hI hc).trans (Derivation.pick_spec hp).2
  | asked id name es hr ha => exact Derivation.writes_of_ask hI ha
  | group id name es d hr => exact .refl d

/-- A completed derivation has added a text, of which holds what passes from the texts of the
elements below, put together, to the element. -/
theorem exists_text_of_derive (hI : Adviser.Keeps I) {Y : Element → List String → Prop}
    {S : List Element → List String → Prop} (nil : S [] [])
    (cons : ∀ {e es ws ws'}, Y e ws → S es ws' → S (e :: es) (ws ++ ws'))
    (level : ∀ {e es ws} {d d₁ : Derivation δ γ}, table.Expands e d es d₁ → S es ws →
      Y e (e.ownTokens ++ ws))
    (h : table.derive depth e d = .going d') : ∃ ws, d.Writes I ws d' ∧ Y e ws := by
  refine derive_induction (P := fun e d d' => ∃ ws, d.Writes I ws d' ∧ Y e ws) ?_ h
  intro e d es d₁ d' he hes
  obtain ⟨ws, hw, hs⟩ := hes.exists_texts nil cons
  exact ⟨e.ownTokens ++ ws, (he.writes hI).trans hw, level he hs⟩

/-- A completed derivation adds tokens at the end, and keeps what asking keeps of its adviser. -/
theorem exists_writes (hI : Adviser.Keeps I) (h : table.derive depth e d = .going d') :
    ∃ ws, d.Writes I ws d' := by
  obtain ⟨ws, hw, _⟩ := exists_text_of_derive hI (Y := fun _ _ => True) (S := fun _ _ => True)
    trivial (fun _ _ => trivial) (fun _ _ => trivial) h
  exact ⟨ws, hw⟩

/-- What asking keeps of the adviser at the start holds wherever a derivation comes to. -/
lemma Calls.keeps {root : Element} {d₀ : Derivation δ γ} (h : table.Calls root d₀ e d)
    (hI : Adviser.Keeps I) (h₀ : I d₀.adviser) : I d.adviser := by
  induction h with
  | root => exact h₀
  | child _ hx hb ih =>
    apply hb.keeps (J := fun d => I d.adviser) _ ((hx.writes hI).2 ih)
    rintro e d d' ⟨depth, h⟩ hd
    obtain ⟨ws, hw⟩ := exists_writes hI h
    exact hw.2 hd

end RuleTable

end GrammarCoverage
