import GrammarCoverage.Proofs.Generation.Sentence
import GrammarCoverage.Proofs.Generation.Steering
import GrammarCoverage.Proofs.Reachability.Discovery
import GrammarCoverage.Proofs.Strategy.Decision

/-!
# Derivations that nothing hinders

A derivation stays among the elements that its root reaches when nothing is pruned, and so do all
questions on its way. If nothing is missing there, neither a rule nor something to pick, then every
level can be taken (`RuleTable.exists_expands`), and only the bound on its depth ever stops a
derivation (`RuleTable.unhindered_derive`).
-/

namespace GrammarCoverage

universe u v

variable {δ : Type u} {γ : Type v}

/-- What leaves a derivation with nothing to pick from. -/
inductive RuleTable.Barren (table : RuleTable) : Element → Prop where
  /-- A choice may be without choices. -/
  | choice (id : Nat) (name : String) : Barren table (.choice id name [])
  /-- A reference may name a rule without alternatives. -/
  | ruleRef (id : Nat) {name : String} {rule : Rule} (hr : table.get? name = some (some rule))
      (ha : rule.alternatives = []) : Barren table (.ruleRef id name)

lemma RuleTable.Leads.not_barren {table : RuleTable} {e c : Element} (h : table.Leads e c) :
    ¬ table.Barren e := by
  intro hb
  cases hb with
  | choice id name => cases h with
    | choice hc => cases hc
  | ruleRef id hr ha => cases h with
    | ruleRef hr' ha' _ =>
      rw [hr] at hr'
      cases hr'
      rw [ha] at ha'
      cases ha'

/-- A set of elements that derivations do not leave, with nothing missing in it. -/
structure RuleTable.Complete (table : RuleTable) (U : Element → Prop) : Prop where
  closed : ∀ {e d}, U e → table.Leads e d → U d
  faultless : ∀ {e}, U e → ∀ cause, ¬ table.Faulty e cause
  fruitful : ∀ {e}, U e → ¬ table.Barren e

/-- Advisers with the property `I` have an answer about the elements with the property `U`. -/
def Adviser.Knows [Adviser δ] (I : δ → Prop) (U : Element → Prop) : Prop :=
  ∀ ⦃a e⦄, I a → U e → ∃ b a', Adviser.ask a e = .ok (b, a') ∧ I a'

namespace Derivation

variable {I : δ → Prop} {U : Element → Prop} {d : Derivation δ γ}

lemma exists_pick [IndexSource γ] {α : Type} (d : Derivation δ γ) (items : List α)
    {others : List α} (h : others ≠ []) :
    ∃ x d', d.pick (orElse items others) = some (x, d') := by
  have hpos : 0 < (orElse items others).length := by
    rw [orElse]
    split
    · exact List.length_pos_of_ne_nil h
    · next hitems => exact List.length_pos_of_ne_nil fun hnil => hitems (by simp [hnil])
  rw [pick, dif_pos hpos]
  exact ⟨_, _, rfl⟩

variable [Adviser δ]

lemma exists_approved (hI : Adviser.Knows I U) (hd : I d.adviser) {es : List Element}
    (hes : ∀ e ∈ es, U e) :
    ∃ candidates d', d.approved es = .ok (candidates, d') ∧ I d'.adviser := by
  induction es generalizing d with
  | nil => exact ⟨[], d, rfl, hd⟩
  | cons e es ih =>
    obtain ⟨b, adviser, ha, hadviser⟩ := hI hd (hes e List.mem_cons_self)
    obtain ⟨candidates, d', hr, hd'⟩ :=
      ih (d := { d with adviser }) hadviser fun c hc => hes c (List.mem_cons_of_mem _ hc)
    refine ⟨if b then e :: candidates else candidates, d', ?_, hd'⟩
    simp only [approved, ha, hr]

lemma exists_anyApproved (hI : Adviser.Knows I U) (hd : I d.adviser) {es : List Element}
    (hes : ∀ e ∈ es, U e) : ∃ b d', d.anyApproved es = .ok (b, d') ∧ I d'.adviser := by
  induction es generalizing d with
  | nil => exact ⟨false, d, rfl, hd⟩
  | cons e es ih =>
    obtain ⟨b, adviser, ha, hadviser⟩ := hI hd (hes e List.mem_cons_self)
    cases b with
    | true => exact ⟨true, { d with adviser }, by simp only [anyApproved, ha], hadviser⟩
    | false =>
      obtain ⟨b, d', hr, hd'⟩ :=
        ih (d := { d with adviser }) hadviser fun c hc => hes c (List.mem_cons_of_mem _ hc)
      exact ⟨b, d', by simp only [anyApproved, ha, hr], hd'⟩

lemma exists_approvedSequences (hI : Adviser.Knows I U) (hd : I d.adviser)
    {ess : List (List Element)} (hess : ∀ es ∈ ess, ∀ e ∈ es, U e) :
    ∃ candidates d', d.approvedSequences ess = .ok (candidates, d') ∧ I d'.adviser := by
  induction ess generalizing d with
  | nil => exact ⟨[], d, rfl, hd⟩
  | cons es ess ih =>
    obtain ⟨b, d₁, ha, hd₁⟩ := exists_anyApproved hI hd (hess es List.mem_cons_self)
    obtain ⟨candidates, d', hr, hd'⟩ := ih hd₁ fun cs hcs => hess cs (List.mem_cons_of_mem _ hcs)
    refine ⟨if b then es :: candidates else candidates, d', ?_, hd'⟩
    simp only [approvedSequences, ha, hr]

end Derivation

/-- A derivation goes on, or it is stopped by the bound on its depth alone. -/
inductive Progress.Unhindered (I : δ → Prop) : Progress δ γ → Prop where
  | going {d : Derivation δ γ} (hd : I d.adviser) : Unhindered I (.going d)
  | tooDeep (d : Derivation δ γ) : Unhindered I (.stopped .tooDeep d)

lemma Progress.Unhindered.eq_or {I : δ → Prop} {p : Progress δ γ} (h : p.Unhindered I) :
    (∃ d, p = .going d) ∨ ∃ d, p = .stopped .tooDeep d := by
  cases h with
  | going hd => exact .inl ⟨_, rfl⟩
  | tooDeep d => exact .inr ⟨d, rfl⟩

lemma Progress.unhindered_forEach {I : δ → Prop} {work : Element → Derivation δ γ → Progress δ γ}
    {es : List Element} {d : Derivation δ γ} (hd : I d.adviser)
    (hwork : ∀ e ∈ es, ∀ d, I d.adviser → (work e d).Unhindered I) :
    (forEach work es d).Unhindered I := by
  induction es generalizing d with
  | nil => exact .going hd
  | cons e es ih =>
    have hhead := hwork e List.mem_cons_self d hd
    rw [forEach]
    cases hw : work e d with
    | going d₁ =>
      rw [hw] at hhead
      cases hhead with
      | going hd₁ => exact ih hd₁ fun c hc => hwork c (List.mem_cons_of_mem _ hc)
    | stopped reason d₁ =>
      rw [hw] at hhead
      cases hhead with
      | tooDeep => exact .tooDeep d₁

namespace RuleTable

variable [Adviser δ] [IndexSource γ] {table : RuleTable} {I : δ → Prop} {U : Element → Prop}
  {e : Element} {d : Derivation δ γ}

/-- Where nothing is missing the first level of a derivation can be taken. -/
lemma exists_expands (hI : Adviser.Knows I U) (he : U e) (hbelow : ∀ c, table.Leads e c → U c)
    (hf : ∀ cause, ¬ table.Faulty e cause) (hb : ¬ table.Barren e) (hd : I d.adviser) :
    ∃ es d₁, table.Expands e d es d₁ ∧ I d₁.adviser := by
  cases e with
  | literal id name => exact ⟨[], _, .literal id name d, hd⟩
  | separator id name => exact ⟨[], _, .separator id name d, hd⟩
  | foreign id kind name => exact ⟨[], d, .foreign id kind name d, hd⟩
  | choice id name choices =>
    have hne : choices ≠ [] := by
      rintro rfl
      exact hb (.choice id name)
    obtain ⟨candidates, d₁, hc, hd₁⟩ :=
      Derivation.exists_approved hI hd fun c hc => hbelow c (.choice hc)
    obtain ⟨c, d₂, hp⟩ := d₁.exists_pick candidates hne
    exact ⟨[c], d₂, .choice id name hc hp, (Derivation.pick_spec hp).2.2 hd₁⟩
  | ruleRef id name =>
    obtain ⟨rule, hr⟩ := exists_rule hf
    have hne : rule.alternatives.take 1 ≠ [] := fun hnil =>
      hb (.ruleRef id hr (by simpa using hnil))
    obtain ⟨candidates, d₁, hc, hd₁⟩ := Derivation.exists_approvedSequences hI hd
      fun es hes c hc => hbelow c (.ruleRef hr hes hc)
    obtain ⟨es, d₂, hp⟩ := d₁.exists_pick candidates hne
    exact ⟨es, d₂, .ruleRef id hr hc hp, (Derivation.pick_spec hp).2.2 hd₁⟩
  | group id name repetition es =>
    cases hr : repetition.isOmittable with
    | false => exact ⟨es, d, .group id name es d hr, hd⟩
    | true =>
      obtain ⟨b, adviser, ha, hadviser⟩ := hI hd he
      exact ⟨_, _, .asked id name es hr ha, hadviser⟩

/-- Where nothing is missing, only the bound on its depth stops a derivation. -/
theorem unhindered_derive (hU : table.Complete U) (hI : Adviser.Knows I U) (depth : Nat)
    (he : U e) (hd : I d.adviser) : (table.derive depth e d).Unhindered I := by
  induction depth generalizing e d with
  | zero => exact .tooDeep d
  | succ depth ih =>
    obtain ⟨es, d₁, hexpands, hd₁⟩ := exists_expands hI he (fun _ => hU.closed he)
      (hU.faultless he) (hU.fruitful he) hd
    rw [hexpands.derive_eq]
    apply Progress.unhindered_forEach hd₁
    intro c hc d hd
    exact ih (hU.closed he (hexpands.leads hc)) hd

end RuleTable

/-! ### What a discovery clears -/

namespace Scope

variable {s : Scope} {root e : Element} {found : NameSet}

/-- If a discovery without pruning succeeds, and there is something to pick everywhere, then nothing
is missing among the reached elements. -/
lemma complete_of_discover {table : RuleTable}
    (h : table.unpruned.discover root = .ok found)
    (hb : ∀ e, table.unpruned.Reaches root e → ¬ table.Barren e) :
    table.Complete (table.unpruned.Reaches root) where
  closed he hd := .edge he hd not_hides_unpruned
  faultless he cause := he.not_faulty h cause
  fruitful he := hb _ he

/-- From an element that is reached without pruning, a discovery succeeds whatever is pruned. -/
lemma exists_discover_of_reaches
    (h : s.table.unpruned.discover root = .ok found)
    (he : s.table.unpruned.Reaches root e) : ∃ names, s.discover e = .ok names :=
  exists_discover fun _ hc => (he.trans hc.unpruned).not_faulty h

end Scope

namespace Guide

variable {σ : Type u} [NumberSource σ]

/-- A strategy answers about an element in which its discovery meets no fault. -/
lemma exists_outcome {c : Crawler} {e : Element} {found : NameSet}
    (h : c.scope.discover e = .ok found) (s : Strategy σ) :
    ∃ b, (s.decide c e).outcome = .ok b := by
  cases s with
  | full => exact ⟨true, rfl⟩
  | random source p => exact ⟨_, rfl⟩
  | external text answer => exact ⟨answer e, rfl⟩
  | coverage k source p =>
    have hd := Coverage.decides_decide c p e source
    by_cases hu : ∃ name ∈ found, c.Unused name
    · exact ⟨true, (hd.of_unused h hu).1⟩
    · exact ⟨_, (hd.of_used h hu).1⟩

/-- A guide answers about everything that a root reaches, if the discovery from the root without
pruning succeeds. -/
lemma knows_of_discover (c : Crawler) {root : Element} {found : NameSet}
    (h : c.table.unpruned.discover root = .ok found) :
    Adviser.Knows (fun g : Guide σ => g.crawler = c) (c.table.unpruned.Reaches root) := by
  rintro g e rfl he
  obtain ⟨names, hnames⟩ := Scope.exists_discover_of_reaches (s := g.crawler.scope) h he
  obtain ⟨b, hb⟩ := exists_outcome hnames g.strategy
  exact ⟨b, _, ask_eq_ok_iff.mpr ⟨hb, rfl⟩, rfl⟩

variable [IndexSource γ]

/-- **If a discovery without pruning succeeds at a root, and neither a choice nor a rule that the
root reaches is empty, then nothing fails in a derivation from the root**, whatever is pruned or
counted, whichever strategy decides, and however it draws and picks. At every depth the derivation
has completed, or only the bound on the depth has stopped it; so it completes or goes on. -/
theorem derive_unhindered {table : RuleTable} {d : Derivation (Guide σ) γ} {root : Element}
    {found : NameSet} (htable : d.adviser.crawler.table = table)
    (hfound : table.unpruned.discover root = .ok found)
    (hbarren : ∀ e, table.unpruned.Reaches root e → ¬ table.Barren e) :
    (∀ depth, (∃ d', table.derive depth root d = .going d') ∨
      ∃ d', table.derive depth root d = .stopped .tooDeep d') ∧
    ((∃ depth d', ∀ larger, depth ≤ larger → table.derive larger root d = .going d') ∨
      ∀ depth, ∃ d', table.derive depth root d = .stopped .tooDeep d') := by
  subst htable
  have hcomplete := Scope.complete_of_discover hfound hbarren
  have hknows := knows_of_discover (σ := σ) d.adviser.crawler hfound
  have hroot : d.adviser.crawler.table.unpruned.Reaches root root :=
    .root Scope.not_hides_unpruned
  have hall (depth : Nat) : (∃ d', d.adviser.crawler.table.derive depth root d = .going d') ∨
      ∃ d', d.adviser.crawler.table.derive depth root d = .stopped .tooDeep d' :=
    (RuleTable.unhindered_derive hcomplete hknows depth hroot rfl).eq_or
  refine ⟨hall, ?_⟩
  by_cases hcompletes : ∃ depth d', d.adviser.crawler.table.derive depth root d = .going d'
  · obtain ⟨depth, d', hd⟩ := hcompletes
    exact .inl ⟨depth, d', fun larger hle => RuleTable.derive_mono hd hle⟩
  · exact .inr fun depth => (hall depth).resolve_left fun h => hcompletes ⟨depth, h⟩

/-- A derivation of a list while the rule of lists is hidden and one item is unused. -/
def hiddenListing : Derivation (Guide MersenneTwister) MersenneTwister where
  tokens := #[]
  adviser :=
    ⟨⟨RuleTable.listing, .ofList [("a", .int 0)], .ofList ["list"], 0⟩, .coverage 0 ⟨#[], 0⟩ .half⟩
  picker := ⟨#[], 0⟩

theorem derive_unhindered_listing :
    (∀ e, RuleTable.listing.unpruned.Reaches (.ruleRef 0 "list") e →
      ¬ RuleTable.listing.Barren e) ∧
    ∀ depth, (∃ d, RuleTable.listing.derive depth (.ruleRef 0 "list") hiddenListing = .going d) ∨
      ∃ d, RuleTable.listing.derive depth (.ruleRef 0 "list") hiddenListing =
        .stopped .tooDeep d := by
  have hfound : RuleTable.listing.unpruned.discover (.ruleRef 0 "list") =
      .ok (.ofList ["a", "b", "c"]) := by
    cbv
  have hbarren : ∀ e, RuleTable.listing.unpruned.Reaches (.ruleRef 0 "list") e →
      ¬ RuleTable.listing.Barren e := by
    have hrules : RuleTable.listing.rules = [RuleTable.listRule] := rfl
    intro e he hb
    have hmem := he.mem_territory
    cases hb with
    | choice id name =>
      simp [Scope.territory, RuleTable.unpruned, hrules, RuleTable.listRule, Rule.elements,
        Element.parts, Element.partsAll] at hmem
    | ruleRef id hr ha =>
      have hrule := RuleTable.mem_rules_of_rule? (RuleTable.rule?_eq_some_iff.mpr hr)
      rw [hrules, List.mem_singleton] at hrule
      subst hrule
      cases ha
  have htable : hiddenListing.adviser.crawler.table = RuleTable.listing := rfl
  exact ⟨hbarren, (derive_unhindered htable hfound hbarren).1⟩

end Guide

end GrammarCoverage
