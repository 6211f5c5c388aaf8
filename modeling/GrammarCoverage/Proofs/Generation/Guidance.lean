import GrammarCoverage.Proofs.Generation.Safety
import GrammarCoverage.Proofs.Strategy.Coverage

/-!
# Guidance to unused literals

A strategy that decides by coverage approves an element without a draw if a discovery from it finds
an unused literal (`Guide.Watches.ask_of_wants`). The discoveries from an element and from what it
leads to are separate traversals, but they see the same paths: so something that the element leads
to is approved in the same way, and nothing that it leads to meets a fault
(`Crawler.Wants.exists_leads`, `Crawler.Wants.exists_discover`). Wherever a derivation comes to an
element that reaches an unused literal, the answers lead to one (`Guide.steered_of_watches`), and no
derivation is stopped at an element that is wanted (`Guide.exists_unwanted_of_stopped`).
-/

namespace GrammarCoverage

universe u v

/-! ### What a crawler wants -/

namespace Crawler

variable {c : Crawler} {e branch : Element} {found : NameSet}

/-- A crawler wants an element if a discovery from it succeeds and finds an unused literal. -/
def Wants (c : Crawler) (e : Element) : Prop :=
  ∃ found, c.scope.discover e = .ok found ∧ ∃ name ∈ found, c.Unused name

lemma wants_of_promises (he : c.scope.Promises c.Unused e) (hd : c.scope.discover e = .ok found) :
    c.Wants e := by
  obtain ⟨id, name, hr, hu⟩ := he
  exact ⟨found, hd, name, hr.mem_discover hd, hu⟩

lemma Wants.promises (h : c.Wants e) : c.scope.Promises c.Unused e := by
  obtain ⟨found, hd, name, hn, hu⟩ := h
  obtain ⟨id, hr⟩ := Scope.exists_reaches_of_mem_discover hd hn
  exact ⟨id, name, hr, hu⟩

/-- Nothing that a wanted element leads to has a fault below it. -/
lemma Wants.exists_discover (h : c.Wants e) (hl : c.table.Leads e branch) :
    ∃ found, c.scope.discover branch = .ok found := by
  obtain ⟨id, name, hr, _⟩ := h.promises
  obtain ⟨found, hd, _⟩ := h
  apply Scope.exists_discover
  intro x hx
  exact (Scope.Reaches.head hr.not_hides_root hl hx).not_faulty hd

lemma Wants.exists_leads (h : c.Wants e) (hn : ∀ id name, e ≠ .literal id name) :
    ∃ branch, c.table.Leads e branch ∧ c.Wants branch := by
  rcases h.promises.cases_head with ⟨id, name, rfl, _⟩ | ⟨branch, hl, hp⟩
  · exact absurd rfl (hn id name)
  · obtain ⟨found, hd⟩ := h.exists_discover hl
    exact ⟨branch, hl, wants_of_promises hp hd⟩

lemma Wants.not_barren (h : c.Wants e) : ¬ c.table.Barren e := by
  rcases h.promises.cases_head with ⟨id, name, rfl, _⟩ | ⟨branch, hl, _⟩
  · rintro ⟨⟩
  · exact hl.not_barren

lemma Wants.isSeparator_eq_false (h : c.Wants e) : e.isSeparator = false := by
  rcases h.promises.cases_head with ⟨id, name, rfl, _⟩ | ⟨branch, hl, _⟩
  · rfl
  · exact Bool.eq_false_iff.mpr fun hs => Scope.not_leads_of_isSeparator hs hl

end Crawler

/-! ### What steers a derivation -/

section

variable {δ : Type u} {γ : Type v} [Adviser δ]

/-- What has been approved of some items is not empty and holds every item with the property `W`, so
that the others are not picked from in its place. -/
structure Derivation.Favours {α : Type} (W : α → Prop) (items candidates others : List α) :
    Prop where
  ne_nil : candidates ≠ []
  mem : ∀ x ∈ items, W x → x ∈ candidates
  orElse_eq : orElse candidates others = candidates

lemma Derivation.Sifts.favours {α : Type} {W P : α → Prop} {items candidates : List α} {x : α}
    (h : Sifts W P items candidates) (hx : x ∈ items) (hw : W x) (others : List α) :
    Favours W items candidates others where
  ne_nil := List.ne_nil_of_mem (h.mem hx hw)
  mem _ := h.mem
  orElse_eq := by simp [orElse, List.ne_nil_of_mem (h.mem hx hw)]

namespace RuleTable

/-- At an element with something below that has the property `W`, the answers lead there: a group is
entered, and of choices and alternatives those with something that has the property are approved, so
that nothing else is picked in their place. -/
inductive Steered (table : RuleTable) (W : Element → Prop) : Element → Derivation δ γ → Prop where
  | group (id : Nat) (name : String) (repetition : Repetition) (es : List Element)
      {d : Derivation δ γ}
      (h : ∀ b adviser, Adviser.ask d.adviser (.group id name repetition es) = .ok (b, adviser) →
        b = true ∧ adviser = d.adviser) :
      Steered table W (.group id name repetition es) d
  | choice (id : Nat) (name : String) (choices : List Element) {d : Derivation δ γ}
      (h : ∀ candidates d', d.approved choices = .ok (candidates, d') →
        Derivation.Favours W choices candidates choices) :
      Steered table W (.choice id name choices) d
  | ruleRef (id : Nat) (name : String) {d : Derivation δ γ}
      (h : ∀ rule candidates d', table.get? name = some (some rule) →
        d.approvedSequences rule.alternatives = .ok (candidates, d') →
        Derivation.Favours (fun es => ∃ e ∈ es, W e) rule.alternatives candidates
          (rule.alternatives.take 1)) :
      Steered table W (.ruleRef id name) d

end RuleTable

end

/-! ### Guides that watch the coverage -/

namespace Guide

variable {σ : Type u} [NumberSource σ] {c : Crawler} {p : Probability} {e : Element} {g : Guide σ}

/-- A guide that decides by the coverage of a crawler, with a given chance. -/
inductive Watches (c : Crawler) (p : Probability) : Guide σ → Prop where
  | coverage (k : Nat) (source : σ) : Watches c p ⟨c, .coverage k source p⟩

/-- A wanted element is approved, and nothing is drawn. -/
lemma Watches.ask_of_wants (hg : g.Watches c p) (hw : c.Wants e) :
    Adviser.ask g e = .ok (true, g) := by
  cases hg with
  | coverage k source =>
    obtain ⟨found, hd, hu⟩ := hw
    obtain ⟨houtcome, hsource⟩ := (Coverage.decides_decide c p e source).of_unused hd hu
    apply ask_eq_ok_iff.mpr
    simp [Strategy.decide, houtcome, hsource]

lemma Watches.of_ask (hg : g.Watches c p) {b : Bool} {g' : Guide σ}
    (h : Adviser.ask g e = .ok (b, g')) :
    g'.Watches c p ∧ ∃ found, c.scope.discover e = .ok found := by
  cases hg with
  | coverage k source =>
    obtain ⟨found, hd, _, rfl⟩ := exists_discover_of_ask h
    exact ⟨.coverage k _, found, hd⟩

/-- Whatever is asked about is approved if it reaches an unused literal. -/
lemma between_of_watches (c : Crawler) (p : Probability) :
    Adviser.Between (fun g : Guide σ => g.Watches c p) (c.scope.Promises c.Unused)
      fun _ => True := by
  intro g e b g' hg h
  obtain ⟨hg', found, hd⟩ := hg.of_ask h
  refine ⟨hg', fun he => ?_, fun _ => trivial⟩
  rw [hg.ask_of_wants (Crawler.wants_of_promises he hd)] at h
  cases h
  rfl

lemma knows_of_watches (c : Crawler) (p : Probability) :
    Adviser.Knows (fun g : Guide σ => g.Watches c p)
      fun e => ∃ found, c.scope.discover e = .ok found := by
  rintro g e hg ⟨found, hd⟩
  cases hg with
  | coverage k source =>
    obtain ⟨b, hb⟩ := exists_outcome hd (.coverage k source p)
    exact ⟨b, _, ask_eq_ok_iff.mpr ⟨hb, rfl⟩, .coverage k _⟩

variable {γ : Type v} {d : Derivation (Guide σ) γ}

/-- The questions at an element that reaches an unused literal lead to one. -/
lemma steered_of_watches (hd : d.adviser.Watches c p) (he : c.scope.Promises c.Unused e)
    (hn : ∀ id name, e ≠ .literal id name) : c.table.Steered (c.scope.Promises c.Unused) e d := by
  obtain ⟨id, name, rfl, _⟩ | ⟨branch, hl, hp⟩ := he.cases_head
  · exact absurd rfl (hn id name)
  cases hl with
  | @group id name repetition es _ hmem =>
    refine .group id name repetition es fun b adviser h => ?_
    obtain ⟨_, found, hfound⟩ := hd.of_ask h
    rw [hd.ask_of_wants (Crawler.wants_of_promises he hfound)] at h
    cases h
    exact ⟨rfl, rfl⟩
  | @choice id name choices _ hmem =>
    refine .choice id name choices fun candidates d' h => ?_
    exact (Derivation.approved_sifts (between_of_watches c p) hd h).favours hmem hp choices
  | @ruleRef id name rule alternative _ hr ha hmem =>
    refine .ruleRef id name fun rule' candidates d' hr' h => ?_
    have hr : c.table.get? name = some (some rule) := hr
    rw [hr] at hr'
    cases hr'
    exact (Derivation.approvedSequences_sifts (between_of_watches c p) hd h).favours ha
      ⟨branch, hmem, hp⟩ _

variable [IndexSource γ]

/-- A derivation goes on at every element that is wanted. -/
lemma exists_expands_of_wants (hd : d.adviser.Watches c p) (hw : c.Wants e) :
    ∃ es d₁, c.table.Expands e d es d₁ := by
  obtain ⟨id, name, hr, _⟩ := hw.promises
  have ⟨found, hfound, _⟩ := hw
  obtain ⟨es, d₁, hx, _⟩ := RuleTable.exists_expands (knows_of_watches c p) ⟨found, hfound⟩
    (fun _ hl => hw.exists_discover hl) ((Scope.Reaches.root hr.not_hides_root).not_faulty hfound)
    hw.not_barren hd
  exact ⟨es, d₁, hx⟩

/-- If something else than the bound on its depth stops a derivation, then it has come to an element
that is not wanted. -/
lemma exists_unwanted_of_stopped {root : Element} {d₀ d' : Derivation (Guide σ) γ} {depth : Nat}
    {reason : Interruption} (h₀ : d₀.adviser.Watches c p)
    (h : c.table.derive depth root d₀ = .stopped reason d') (hreason : reason ≠ .tooDeep) :
    ∃ e d, c.table.Calls root d₀ e d ∧ ¬ c.Wants e := by
  obtain ⟨e, d, hcalls, hstops⟩ := RuleTable.exists_call_of_stopped h hreason
  have hd := hcalls.keeps (between_of_watches c p).keeps h₀
  exact ⟨e, d, hcalls, fun hw => hstops (exists_expands_of_wants hd hw)⟩

/-- **Coverage never steers into a dead end.** If an element other than a literal is approved since
it reaches an unused literal, then something that it leads to, and no separator, is approved too, in
the same state and without a draw, and no discovery from anything that it leads to meets a fault.
So, wherever a derivation comes to an element that reaches an unused literal, a group is not left
out, and at a choice or a reference something is approved, all that reaches an unused literal is
among it, and nothing else is picked in its place. A derivation that is stopped by something else
than the bound on its depth has come to an element that is not approved for such a literal. -/
theorem steered_of_calls (c : Crawler) (p : Probability) {e : Element}
    (he : c.scope.Promises c.Unused e) (hn : ∀ id name, e ≠ .literal id name) :
    (c.Wants e →
      (∃ branch, c.table.Leads e branch ∧ branch.isSeparator = false ∧
        ∀ (source : σ) (decision : Decision σ), Coverage.Decides c p branch source decision →
          decision.outcome = .ok true ∧ decision.source = source) ∧
      ∀ branch, c.table.Leads e branch → ∃ found, c.scope.discover branch = .ok found) ∧
    (∀ (root : Element) (d₀ d : Derivation (Guide σ) γ), d₀.adviser.Watches c p →
      c.table.Calls root d₀ e d →
      c.table.Steered (c.scope.Promises c.Unused) e d ∧
        (c.Wants e → ∃ es d₁, c.table.Expands e d es d₁)) ∧
    ∀ (root : Element) (d₀ d' : Derivation (Guide σ) γ) (depth : Nat) (reason : Interruption),
      d₀.adviser.Watches c p → c.table.derive depth root d₀ = .stopped reason d' →
      reason ≠ .tooDeep → ∃ e d, c.table.Calls root d₀ e d ∧ ¬ c.Wants e := by
  refine ⟨fun hw => ⟨?_, fun branch hl => hw.exists_discover hl⟩, ?_,
    fun root d₀ d' depth reason => exists_unwanted_of_stopped⟩
  · obtain ⟨branch, hl, hbranch⟩ := hw.exists_leads hn
    refine ⟨branch, hl, hbranch.isSeparator_eq_false, fun source decision hdecides => ?_⟩
    obtain ⟨found, hfound, hu⟩ := hbranch
    exact hdecides.of_unused hfound hu
  · intro root d₀ d h₀ hcalls
    have hd := hcalls.keeps (between_of_watches c p).keeps h₀
    exact ⟨steered_of_watches hd he hn, fun hw => exists_expands_of_wants hd hw⟩

/-- A crawler of lists of which one item is unused. -/
def unusedItem : Crawler where
  table := RuleTable.listing
  usage := .ofList [("a", .int 2), ("c", .int 0)]
  pruned := .empty

/-- A derivation of a list that watches the coverage. -/
def unusedItemStart : Derivation (Guide MersenneTwister) MersenneTwister where
  tokens := #[]
  adviser := ⟨unusedItem, .coverage 0 ⟨#[], 0⟩ .half⟩
  picker := ⟨#[], 0⟩

theorem steered_of_calls_unusedItem :
    unusedItem.Wants (.ruleRef 0 "list") ∧
    (∃ branch, unusedItem.table.Leads (.ruleRef 0 "list") branch ∧
      branch.isSeparator = false ∧
      ∀ (source : MersenneTwister) (decision : Decision MersenneTwister),
        Coverage.Decides unusedItem .half branch source decision →
          decision.outcome = .ok true ∧ decision.source = source) ∧
    unusedItem.table.Steered (unusedItem.scope.Promises unusedItem.Unused) (.ruleRef 0 "list")
      unusedItemStart ∧
    ∃ es d₁, unusedItem.table.Expands (.ruleRef 0 "list") unusedItemStart es d₁ := by
  have hw : unusedItem.Wants (.ruleRef 0 "list") :=
    ⟨.ofList ["a", "b", "c"], by cbv, "c", by simp, .int 0, by cbv, by cbv⟩
  obtain ⟨hbelow, hcalls, _⟩ := steered_of_calls (σ := MersenneTwister) (γ := MersenneTwister)
    unusedItem .half hw.promises (by simp)
  obtain ⟨hsteered, hexpands⟩ :=
    hcalls (.ruleRef 0 "list") unusedItemStart unusedItemStart (.coverage 0 _) .root
  exact ⟨hw, (hbelow hw).1, hsteered, hexpands hw⟩

end Guide

end GrammarCoverage
