import GrammarCoverage.Generation.Derive
import Mathlib

/-!
# Derivations level by level

The derivation of an element asks and picks, writes a token or not, and goes on with elements in
order. What it does before it goes on is a relation with one rule for each way
(`RuleTable.Expands`), and a derivation that completes is such a level with completed derivations
below it (`RuleTable.derive_eq_going_iff`). Facts about completed derivations of any depth follow
from facts about one level (`RuleTable.derive_induction`). Completed or not, a derivation comes to
elements one after the other (`RuleTable.Calls`), and it can only be stopped at one of them.
-/

namespace GrammarCoverage

universe u v

variable {δ : Type u} {γ : Type v}

/-- A relation between states that holds along elements worked through in order. -/
inductive Derivation.Chain (P : Element → Derivation δ γ → Derivation δ γ → Prop) :
    List Element → Derivation δ γ → Derivation δ γ → Prop where
  | nil (d : Derivation δ γ) : Chain P [] d d
  | cons {e : Element} {es : List Element} {d d₁ d' : Derivation δ γ} (head : P e d d₁)
      (tail : Chain P es d₁ d') : Chain P (e :: es) d d'

lemma Derivation.Chain.imp {P Q : Element → Derivation δ γ → Derivation δ γ → Prop}
    {es : List Element} {d d' : Derivation δ γ} (h : Chain P es d d')
    (hPQ : ∀ e d d', P e d d' → Q e d d') : Chain Q es d d' := by
  induction h with
  | nil d => exact .nil d
  | cons head _ ih => exact .cons (hPQ _ _ _ head) ih

/-- What every element keeps of a state is kept along a chain. -/
lemma Derivation.Chain.keeps {P : Element → Derivation δ γ → Derivation δ γ → Prop}
    {J : Derivation δ γ → Prop} {es : List Element} {d d' : Derivation δ γ} (h : Chain P es d d')
    (hP : ∀ {e d d'}, P e d d' → J d → J d') (hd : J d) : J d' := by
  induction h with
  | nil d => exact hd
  | cons head _ ih => exact ih (hP head hd)

/-- A chain ends in one state, if every element comes to one state only. -/
lemma Derivation.Chain.unique {P : Element → Derivation δ γ → Derivation δ γ → Prop}
    {es : List Element} {d d₁ d₂ : Derivation δ γ} (h : Chain P es d d₁) (h' : Chain P es d d₂)
    (hP : ∀ e d d₁ d₂, P e d d₁ → P e d d₂ → d₁ = d₂) : d₁ = d₂ := by
  induction h with
  | nil d =>
    cases h'
    rfl
  | cons head _ ih =>
    obtain _ | ⟨head', tail'⟩ := h'
    rw [hP _ _ _ _ head' head] at tail'
    exact ih tail'

lemma Progress.forEach_eq_going_iff {work : Element → Derivation δ γ → Progress δ γ}
    {es : List Element} {d d' : Derivation δ γ} :
    forEach work es d = .going d' ↔
      Derivation.Chain (fun e d d' => work e d = .going d') es d d' := by
  induction es generalizing d with
  | nil =>
    constructor
    · intro h
      cases h
      exact .nil _
    · intro h
      cases h
      rfl
  | cons e es ih =>
    rw [forEach]
    cases hw : work e d with
    | stopped reason d₁ =>
      constructor
      · intro h
        cases h
      · rintro (_ | ⟨head, _⟩)
        rw [hw] at head
        cases head
    | going d₁ =>
      constructor
      · intro h
        exact .cons hw (ih.mp h)
      · rintro (_ | ⟨head, tail⟩)
        rw [hw] at head
        cases head
        exact ih.mpr tail

/-- Work through elements stops at one of them, after those before it have been worked through. -/
lemma Progress.exists_stopped_of_forEach {work : Element → Derivation δ γ → Progress δ γ}
    {es : List Element} {d d' : Derivation δ γ} {reason : Interruption}
    (h : forEach work es d = .stopped reason d') :
    ∃ before c after d₁, es = before ++ c :: after ∧
      Derivation.Chain (fun e d d' => work e d = .going d') before d d₁ ∧
      work c d₁ = .stopped reason d' := by
  induction es generalizing d with
  | nil => cases h
  | cons e es ih =>
    rw [forEach] at h
    cases hw : work e d with
    | stopped reason' d₁ =>
      rw [hw] at h
      cases h
      exact ⟨[], e, es, d, rfl, .nil d, hw⟩
    | going d₁ =>
      rw [hw] at h
      obtain ⟨before, c, after, d₂, rfl, hbefore, hc⟩ := ih h
      exact ⟨e :: before, c, after, d₂, rfl, .cons hw hbefore, hc⟩

lemma Progress.forEach_singleton (work : Element → Derivation δ γ → Progress δ γ) (e : Element)
    (d : Derivation δ γ) : forEach work [e] d = work e d := by
  rw [forEach]
  cases work e d with
  | going d' => rfl
  | stopped reason d' => rfl

namespace RuleTable

variable [Adviser δ] [IndexSource γ]

/-- What the derivation of an element comes to before it goes on with the elements below. -/
inductive Expands (table : RuleTable) :
    Element → Derivation δ γ → List Element → Derivation δ γ → Prop where
  | literal (id : Nat) (name : String) (d : Derivation δ γ) :
      Expands table (.literal id name) d [] (d.write name)
  | separator (id : Nat) (name : String) (d : Derivation δ γ) :
      Expands table (.separator id name) d [] (d.write name)
  | foreign (id : Nat) (kind : String) (name : Option String) (d : Derivation δ γ) :
      Expands table (.foreign id kind name) d [] d
  /-- One of the approved alternatives is picked, or the first one if none is. -/
  | ruleRef (id : Nat) {name : String} {rule : Rule} {d d₁ d₂ : Derivation δ γ}
      {candidates : List (List Element)} {es : List Element}
      (hr : table.get? name = some (some rule))
      (hc : d.approvedSequences rule.alternatives = .ok (candidates, d₁))
      (hp : d₁.pick (Derivation.orElse candidates (rule.alternatives.take 1)) = some (es, d₂)) :
      Expands table (.ruleRef id name) d es d₂
  /-- One of the approved choices is picked, or any of them if none is. -/
  | choice (id : Nat) (name : String) {choices : List Element} {d d₁ d₂ : Derivation δ γ}
      {candidates : List Element} {e : Element} (hc : d.approved choices = .ok (candidates, d₁))
      (hp : d₁.pick (Derivation.orElse candidates choices) = some (e, d₂)) :
      Expands table (.choice id name choices) d [e] d₂
  /-- A group is asked about if it may be left out, and entered if that is approved. -/
  | asked (id : Nat) (name : String) {repetition : Repetition} (es : List Element)
      {d : Derivation δ γ} {b : Bool} {adviser : δ} (hr : repetition.isOmittable = true)
      (ha : Adviser.ask d.adviser (.group id name repetition es) = .ok (b, adviser)) :
      Expands table (.group id name repetition es) d (if b then es else []) { d with adviser }
  | group (id : Nat) (name : String) {repetition : Repetition} (es : List Element)
      (d : Derivation δ γ) (hr : repetition.isOmittable = false) :
      Expands table (.group id name repetition es) d es d

variable {table : RuleTable} {depth : Nat} {e : Element} {d d' : Derivation δ γ}

/-- The first level of a derivation can be taken, unless it is stopped there. -/
lemma exists_expands_of_forall_stopped
    (h : ∀ reason d', table.derive (depth + 1) e d = .stopped reason d' → reason = .tooDeep) :
    ∃ es d₁, table.Expands e d es d₁ := by
  cases e with
  | literal id name => exact ⟨[], _, .literal id name d⟩
  | separator id name => exact ⟨[], _, .separator id name d⟩
  | foreign id kind name => exact ⟨[], _, .foreign id kind name d⟩
  | ruleRef id name =>
    cases hr : table.get? name with
    | none => cases h (.undefinedRule name) d (by simp only [derive, hr])
    | some rule? =>
      cases rule? with
      | none => cases h (.blankRule name) d (by simp only [derive, hr])
      | some rule =>
        cases hc : d.approvedSequences rule.alternatives with
        | error f => cases h (.fault f) d (by simp only [derive, hr, hc])
        | ok approved =>
          obtain ⟨candidates, d₁⟩ := approved
          cases hp : d₁.pick (Derivation.orElse candidates (rule.alternatives.take 1)) with
          | none => cases h .nothingToPick d₁ (by simp only [derive, hr, hc, hp])
          | some picked => exact ⟨picked.1, picked.2, .ruleRef id hr hc hp⟩
  | choice id name choices =>
    cases hc : d.approved choices with
    | error f => cases h (.fault f) d (by simp only [derive, hc])
    | ok approved =>
      obtain ⟨candidates, d₁⟩ := approved
      cases hp : d₁.pick (Derivation.orElse candidates choices) with
      | none => cases h .nothingToPick d₁ (by simp only [derive, hc, hp])
      | some picked => exact ⟨[picked.1], picked.2, .choice id name hc hp⟩
  | group id name repetition es =>
    cases hr : repetition.isOmittable with
    | false => exact ⟨es, d, .group id name es d hr⟩
    | true =>
      cases ha : Adviser.ask d.adviser (.group id name repetition es) with
      | error f => cases h (.fault f) d (by simp only [derive, hr, ha, if_true])
      | ok answer => exact ⟨_, _, .asked id name es hr ha⟩

/-- After its first level a derivation works through the elements below. -/
lemma Expands.derive_eq {es : List Element} {d₁ : Derivation δ γ} (h : table.Expands e d es d₁) :
    table.derive (depth + 1) e d = Progress.forEach (table.derive depth) es d₁ := by
  cases h with
  | literal id name => rfl
  | separator id name => rfl
  | foreign id kind name => rfl
  | ruleRef id hr hc hp => simp only [derive, hr, hc, hp]
  | choice id name hc hp => simp only [derive, hc, hp, Progress.forEach_singleton]
  | @asked id name repetition es d b adviser hr ha =>
    cases b with
    | false =>
      simp only [derive, hr, ha, if_true]
      rfl
    | true => simp only [derive, hr, ha, if_true]
  | group id name es d hr => simp [derive, hr]

lemma exists_expands_of_derive (h : table.derive (depth + 1) e d = .going d') :
    ∃ es d₁, table.Expands e d es d₁ ∧
      Progress.forEach (table.derive depth) es d₁ = .going d' := by
  obtain ⟨es, d₁, hx⟩ := exists_expands_of_forall_stopped fun reason d₁ h' => by
    rw [h] at h'
    cases h'
  exact ⟨es, d₁, hx, hx.derive_eq.symm.trans h⟩

/-- A derivation completes at a depth exactly when its first level goes on with derivations that
complete one level lower. -/
theorem derive_eq_going_iff :
    table.derive (depth + 1) e d = .going d' ↔
      ∃ es d₁, table.Expands e d es d₁ ∧
        Derivation.Chain (fun e d d' => table.derive depth e d = .going d') es d₁ d' := by
  constructor
  · intro h
    obtain ⟨es, d₁, he, hes⟩ := exists_expands_of_derive h
    exact ⟨es, d₁, he, Progress.forEach_eq_going_iff.mp hes⟩
  · rintro ⟨es, d₁, he, hes⟩
    rw [he.derive_eq]
    exact Progress.forEach_eq_going_iff.mpr hes

/-- What passes from the elements below to the element holds of every completed derivation. -/
theorem derive_induction {P : Element → Derivation δ γ → Derivation δ γ → Prop}
    (level : ∀ {e d es d₁ d'}, table.Expands e d es d₁ → Derivation.Chain P es d₁ d' → P e d d')
    (h : table.derive depth e d = .going d') : P e d d' := by
  induction depth generalizing e d d' with
  | zero => cases h
  | succ depth ih =>
    obtain ⟨es, d₁, he, hes⟩ := derive_eq_going_iff.mp h
    exact level he (hes.imp fun _ _ _ h => ih h)

/-- A derivation that completes within a depth comes to the same within any larger one. -/
lemma derive_mono {larger : Nat} (h : table.derive depth e d = .going d')
    (hle : depth ≤ larger) : table.derive larger e d = .going d' := by
  induction depth generalizing e d d' larger with
  | zero => cases h
  | succ depth ih =>
    obtain ⟨larger, rfl⟩ : ∃ n, larger = n + 1 := Nat.exists_eq_succ_of_ne_zero (by omega)
    obtain ⟨es, d₁, he, hes⟩ := derive_eq_going_iff.mp h
    apply derive_eq_going_iff.mpr
    exact ⟨es, d₁, he, hes.imp fun _ _ _ h => ih h (by omega)⟩

lemma Expands.unique {es es' : List Element} {d₁ d₂ : Derivation δ γ}
    (h : table.Expands e d es d₁) (h' : table.Expands e d es' d₂) : es = es' ∧ d₁ = d₂ := by
  cases h <;> cases h' <;> simp_all

/-- A derivation that completes comes to one state, whatever the bound on its depth. -/
lemma derive_unique {d₁ d₂ : Derivation δ γ} (h : ∃ depth, table.derive depth e d = .going d₁)
    (h' : ∃ depth, table.derive depth e d = .going d₂) : d₁ = d₂ := by
  obtain ⟨depth, h⟩ := h
  obtain ⟨depth', h'⟩ := h'
  have hleft := derive_mono h (Nat.le_max_left depth depth')
  have hright := derive_mono h' (Nat.le_max_right depth depth')
  rw [hleft] at hright
  cases hright
  rfl

/-! ### Calls -/

/-- The elements that a derivation from a root comes to, each with the state at that point: what is
below an element comes after what stands before it has been derived. -/
inductive Calls (table : RuleTable) (root : Element) (d₀ : Derivation δ γ) :
    Element → Derivation δ γ → Prop where
  | root : Calls table root d₀ root d₀
  | child {e c : Element} {before after : List Element} {d d₁ d₂ : Derivation δ γ}
      (he : Calls table root d₀ e d) (hx : table.Expands e d (before ++ c :: after) d₁)
      (hb : Derivation.Chain (fun e d d' => ∃ depth, table.derive depth e d = .going d')
        before d₁ d₂) : Calls table root d₀ c d₂

lemma Calls.trans {root : Element} {d₀ : Derivation δ γ} {c : Element} {d₁ : Derivation δ γ}
    (h : table.Calls root d₀ e d) (h' : table.Calls e d c d₁) : table.Calls root d₀ c d₁ := by
  induction h' with
  | root => exact h
  | child _ hx hb ih => exact .child ih hx hb

/-- If something else than the bound on its depth stops a derivation, then it has come to an element
whose first level cannot be taken. -/
theorem exists_call_of_stopped {reason : Interruption}
    (h : table.derive depth e d = .stopped reason d') (hreason : reason ≠ .tooDeep) :
    ∃ c d₁, table.Calls e d c d₁ ∧ ¬ ∃ es d₂, table.Expands c d₁ es d₂ := by
  induction depth generalizing e d with
  | zero =>
    cases h
    exact absurd rfl hreason
  | succ depth ih =>
    by_cases hx : ∃ es d₁, table.Expands e d es d₁
    · obtain ⟨es, d₁, hx⟩ := hx
      rw [hx.derive_eq] at h
      obtain ⟨before, c, after, d₂, rfl, hbefore, hc⟩ := Progress.exists_stopped_of_forEach h
      obtain ⟨x, d₃, hcalls, hstops⟩ := ih hc
      have hchild : table.Calls e d c d₂ :=
        .child .root hx (hbefore.imp fun _ _ _ h => ⟨depth, h⟩)
      exact ⟨x, d₃, hchild.trans hcalls, hstops⟩
    · exact ⟨e, d, .root, hx⟩

end RuleTable

end GrammarCoverage
