import GrammarCoverage.Proofs.Strategy.Monotonicity

/-!
# Derivations that end

If nothing is approved, then a derivation goes on only with what an element needs
(`RuleTable.Needs`): a group that may be left out needs nothing, and of a rule only the first
alternative is needed, so a recursive grammar may well come to an end. If no chain of needs is
infinite, then induction along the needs bounds the positions at which a derivation comes to an
element (`RuleTable.finite_positions`), and a bound on the depth is met only at a position of that
length (`RuleTable.exists_callsAt_of_tooDeep`).
-/

namespace GrammarCoverage

universe u v w

variable {δ : Type u} {γ : Type v}

/-- Advisers with the property `I` approve no element with the property `U`. -/
def Adviser.Declines [Adviser δ] (I : δ → Prop) (U : Element → Prop) : Prop :=
  ∀ ⦃a e b a'⦄, I a → Adviser.ask a e = .ok (b, a') → I a' ∧ (U e → b = false)

lemma Adviser.Declines.between [Adviser δ] {I : δ → Prop} {U : Element → Prop}
    (h : Adviser.Declines I U) : Adviser.Between I (fun _ => False) fun e => ¬ U e := by
  intro a e b a' ha hask
  obtain ⟨ha', hb⟩ := h ha hask
  refine ⟨ha', False.elim, fun htrue he => ?_⟩
  rw [hb he] at htrue
  cases htrue

lemma Adviser.Declines.keeps [Adviser δ] {I : δ → Prop} {U : Element → Prop}
    (h : Adviser.Declines I U) : Adviser.Keeps I := h.between.keeps

namespace RuleTable

variable {table : RuleTable} {e c : Element} {es : List Element}

/-! ### What an element needs -/

/-- What cannot be done without: all choices of a choice, since any of them may be picked, what is
in a group that may not be left out, and the first alternative of a rule. -/
inductive Needs (table : RuleTable) : Element → Element → Prop where
  | choice {id : Nat} {name : String} {choices : List Element} {c : Element} (hc : c ∈ choices) :
      Needs table (.choice id name choices) c
  | group {id : Nat} {name : String} {repetition : Repetition} {es : List Element} {c : Element}
      (hr : repetition = .once ∨ repetition = .oneOrMore) (hc : c ∈ es) :
      Needs table (.group id name repetition es) c
  | ruleRef {id : Nat} {name : String} {rule : Rule} {es : List Element} {c : Element}
      (hr : table.get? name = some (some rule)) (ha : rule.alternatives.head? = some es)
      (hc : c ∈ es) : Needs table (.ruleRef id name) c

/-- The sequences that the derivation of an element may go on with if nothing is approved. -/
def declined (table : RuleTable) : Element → List (List Element)
  | .literal .. | .separator .. | .foreign .. => [[]]
  | .choice _ _ choices => choices.map fun c => [c]
  | .group _ _ repetition es => if repetition.isOmittable then [[]] else [es]
  | .ruleRef _ name => ((table.rule? name).bind (·.alternatives.head?)).toList

/-- A group that may be left out is, and a reference goes on with the first alternative of its
rule. -/
def Spares (table : RuleTable) : Element → List Element → Prop
  | .group _ _ .optional _, es | .group _ _ .zeroOrMore _, es => es = []
  | .ruleRef _ name, es =>
    ∃ rule, table.get? name = some (some rule) ∧ rule.alternatives.head? = some es
  | _, _ => True

lemma mem_declined_ruleRef_iff {id : Nat} {name : String} :
    es ∈ table.declined (.ruleRef id name) ↔
      ∃ rule, table.get? name = some (some rule) ∧ rule.alternatives.head? = some es := by
  simp [declined, Option.bind_eq_some_iff, rule?_eq_some_iff]

lemma spares_of_mem_declined (hes : es ∈ table.declined e) : table.Spares e es := by
  cases e with
  | literal | separator | foreign | choice => trivial
  | group id name repetition inside =>
    cases repetition <;> simp_all [declined, Spares, Repetition.isOmittable]
  | ruleRef id name => exact mem_declined_ruleRef_iff.mp hes

lemma needs_of_mem_declined (hes : es ∈ table.declined e) (hc : c ∈ es) : table.Needs e c := by
  cases e with
  | literal | separator | foreign => simp_all [declined]
  | choice id name choices =>
    obtain ⟨x, hx, rfl⟩ := List.mem_map.mp hes
    rw [List.mem_singleton.mp hc]
    exact .choice hx
  | group id name repetition inside =>
    cases hr : repetition.isOmittable with
    | true => simp_all [declined]
    | false =>
      obtain rfl : es = inside := by simpa [declined, hr] using hes
      refine .group ?_ hc
      cases repetition <;> simp_all [Repetition.isOmittable]
  | ruleRef id name =>
    obtain ⟨rule, hr, ha⟩ := mem_declined_ruleRef_iff.mp hes
    exact .ruleRef hr ha hc

variable [Adviser δ] [IndexSource γ] {I : δ → Prop} {U : Element → Prop} {root : Element}
  {d d₁ d₂ d' : Derivation δ γ}

/-- If all that an element leads to is declined, and it is itself, then nothing else is picked than
what stands in for approved items. -/
lemma Expands.mem_declined (h : table.Expands e d es d₁) (hI : Adviser.Declines I U)
    (hd : I d.adviser) (he : U e) (hbelow : ∀ c, table.Leads e c → U c) :
    es ∈ table.declined e := by
  cases h with
  | literal | separator | foreign => exact List.mem_singleton_self _
  | @ruleRef id name rule d d₁ d₂ candidates es hr hc hp =>
    rcases Derivation.mem_or_mem_of_pick hp with hes | ⟨_, hes⟩
    · obtain ⟨hmem, c, hc, hn⟩ := (Derivation.approvedSequences_sifts hI.between hd hc).of_mem hes
      exact absurd (hbelow c (.ruleRef hr hmem hc)) hn
    · refine mem_declined_ruleRef_iff.mpr ⟨rule, hr, ?_⟩
      cases halternatives : rule.alternatives <;> simp_all
  | choice id name hc hp => exact List.mem_map_of_mem (Derivation.mem_of_pick_approved hc hp)
  | @asked id name repetition es d b adviser hr ha =>
    obtain ⟨_, hb⟩ := hI hd ha
    simp [declined, hr, hb he]
  | group id name es d hr => simp [declined, hr]

/-! ### Positions -/

/-- The elements that a derivation comes to, each at its position: the places, from the root on,
among the elements that a level goes on with. -/
inductive CallsAt (table : RuleTable) :
    List Nat → Element → Derivation δ γ → Element → Derivation δ γ → Prop where
  | root (e : Element) (d : Derivation δ γ) : CallsAt table [] e d e d
  | child {position : List Nat} {e c x : Element} {before after : List Element}
      {d d₁ d₂ d' : Derivation δ γ} (hx : table.Expands e d (before ++ c :: after) d₁)
      (hb : Derivation.Chain (fun e d d' => ∃ depth, table.derive depth e d = .going d')
        before d₁ d₂) (h : CallsAt table position c d₂ x d') :
      CallsAt table (before.length :: position) e d x d'

lemma CallsAt.calls {position : List Nat} (h : table.CallsAt position root d e d') :
    table.Calls root d e d' := by
  induction h with
  | root e d => exact .root
  | child hx hb _ ih => exact (Calls.child .root hx hb).trans ih

/-- A derivation stays among elements that nothing leads out of. -/
lemma Calls.of_closed (h : table.Calls root d e d') (hU : ∀ {e c}, U e → table.Leads e c → U c)
    (hroot : U root) : U e := by
  induction h with
  | root => exact hroot
  | child _ hx _ ih => exact hU ih (hx.leads (by simp))

/-- A derivation comes to one element at each position, and once. -/
lemma CallsAt.unique {position : List Nat} {e' : Element} (h : table.CallsAt position root d e d₁)
    (h' : table.CallsAt position root d e' d₂) : e = e' ∧ d₁ = d₂ := by
  generalize hp : position = position' at h'
  induction h generalizing position' with
  | root e d =>
    cases h' with
    | root => exact ⟨rfl, rfl⟩
    | child => cases hp
  | child hx hb _ ih =>
    cases h' with
    | root => cases hp
    | child hx' hb' h' =>
      obtain ⟨hlength, rfl⟩ := List.cons.inj hp
      obtain ⟨hes, rfl⟩ := hx.unique hx'
      obtain ⟨rfl, htail⟩ := List.append_inj hes hlength
      obtain ⟨rfl, _⟩ := List.cons.inj htail
      obtain rfl := hb.unique hb' fun _ _ _ _ => derive_unique
      exact ih _ rfl h'

/-- The bound on its depth stops a derivation only at a position as long as the bound. -/
lemma exists_callsAt_of_tooDeep {depth : Nat} (h : table.derive depth e d = .stopped .tooDeep d') :
    ∃ position c d₁, table.CallsAt position e d c d₁ ∧ position.length = depth := by
  induction depth generalizing e d with
  | zero => exact ⟨[], e, d, .root e d, rfl⟩
  | succ depth ih =>
    obtain ⟨es, d₁, hx⟩ := exists_expands_of_forall_stopped fun reason d h' => by
      rw [h] at h'
      cases h'
      rfl
    rw [hx.derive_eq] at h
    obtain ⟨before, c, after, d₂, rfl, hbefore, hc⟩ := Progress.exists_stopped_of_forEach h
    obtain ⟨position, x, d₃, hcall, hlength⟩ := ih hc
    refine ⟨before.length :: position, x, d₃, .child hx ?_ hcall, congrArg (· + 1) hlength⟩
    exact hbefore.imp fun _ _ _ h => ⟨depth, h⟩

/-- An element that a derivation comes to, with the state at that point. -/
structure Call (δ : Type u) (γ : Type v) where
  position : List Nat
  element : Element
  state : Derivation δ γ

/-- All that a derivation from a root comes to. -/
def callsFrom (table : RuleTable) (root : Element) (d : Derivation δ γ) : Set (Call δ γ) :=
  {call | table.CallsAt call.position root d call.element call.state}

/-- The positions at which derivations with the property `I` come to something. -/
def positions (table : RuleTable) (γ : Type v) [IndexSource γ] (I : δ → Prop) (root : Element) :
    Set (List Nat) :=
  {position | ∃ (d d' : Derivation δ γ) (e : Element), I d.adviser ∧
    table.CallsAt position root d e d'}

/-- A position is that of the root, or one below something that the root needs. -/
lemma positions_subset (hI : Adviser.Declines I U) (hU : ∀ {e c}, U e → table.Leads e c → U c)
    (hroot : U root) :
    table.positions γ I root ⊆ insert [] (⋃ es ∈ {es | es ∈ table.declined root},
      ⋃ i ∈ Set.Iio es.length, ⋃ c ∈ {c | c ∈ es ∧ U c}, (i :: ·) '' table.positions γ I c) := by
  rintro _ ⟨d, d', x, hd, _ | ⟨hx, hb, h⟩⟩
  · exact Set.mem_insert _ _
  · next position c before after d₁ d₂ =>
    have hes := hx.mem_declined hI hd hroot fun c hc => hU hroot hc
    have hc : c ∈ before ++ c :: after := by simp
    have hd₂ := (Calls.child .root hx hb).keeps hI.keeps hd
    have hposition : position ∈ table.positions γ I c := ⟨d₂, d', x, hd₂, h⟩
    refine Set.mem_insert_of_mem _ ?_
    simp only [Set.mem_iUnion]
    exact ⟨_, hes, before.length, by simp, c, ⟨hc, hU hroot (hx.leads hc)⟩, position,
      hposition, rfl⟩

/-- If no chain of needs is infinite then there are only finitely many positions. The induction is
along the needs, since the grammar itself may be recursive. -/
theorem finite_positions (hneeds : Acc (fun c e => table.Needs e c) root)
    (hI : Adviser.Declines I U) (hU : ∀ {e c}, U e → table.Leads e c → U c) (hroot : U root) :
    (table.positions γ I root).Finite := by
  induction hneeds with
  | intro root _ ih =>
    refine (Set.Finite.insert [] ?_).subset (positions_subset hI hU hroot)
    refine (List.finite_toSet _).biUnion fun es hes => (Set.finite_Iio _).biUnion fun i _ => ?_
    refine ((List.finite_toSet es).subset fun c hc => hc.1).biUnion fun c hc => ?_
    exact (ih c (needs_of_mem_declined hes hc.1) hc.2).image _

end RuleTable

/-! ### Guides that decline -/

namespace Guide

variable {σ : Type w} [NumberSource σ] {c : Crawler} {U : Element → Prop}

/-- A guide that approves none of the elements with the property `U`: chance is against all, the
chance is zero where nothing is wanted, or an answer from outside is always no. -/
inductive Declining (c : Crawler) (U : Element → Prop) : Guide σ → Prop where
  | random {source : σ} {p : Probability} (hp : 1 ≤ p.value)
      (hd : NumberSource.DrawsFractions source) : Declining c U ⟨c, .random source p⟩
  | coverage {k : Nat} {source : σ} {p : Probability} (hp : p.value ≤ 0)
      (hd : NumberSource.DrawsFractions source) (hw : ∀ e, U e → ¬ c.Wants e) :
      Declining c U ⟨c, .coverage k source p⟩
  | external (text : String) {answer : Element → Bool} (h : ∀ e, U e → answer e = false) :
      Declining c U ⟨c, .external text answer⟩

theorem declines_of_declining (c : Crawler) (U : Element → Prop) :
    Adviser.Declines (fun g : Guide σ => g.Declining c U) U := by
  intro g e b g' hg hask
  obtain ⟨houtcome, rfl⟩ := ask_eq_ok_iff.mp hask
  cases hg with
  | random hp hd =>
    exact ⟨.random hp hd.draw, fun _ => Strategy.decide_of_one_le_threshold hd hp houtcome⟩
  | coverage hp hd hw =>
    obtain ⟨found, hfound, _⟩ := exists_discover_of_ask hask
    refine ⟨.coverage hp (Coverage.decide_of_zero hp hd hfound).2 hw, fun he => ?_⟩
    exact Bool.eq_false_iff.mpr fun hb =>
      hw e he ((Strategy.decide_of_le_zero hd hp houtcome).mp hb)
  | external text h =>
    cases houtcome
    exact ⟨.external text h, h e⟩

end Guide

namespace RuleTable

variable {table : RuleTable} {root : Element}

/-- No chain of needs from an element goes on for ever. -/
def EndsNeeds (table : RuleTable) (root : Element) : Prop :=
  ¬ ∃ chain : Nat → Element, chain 0 = root ∧ ∀ n, table.Needs (chain n) (chain (n + 1))

lemma EndsNeeds.acc (h : table.EndsNeeds root) : Acc (fun c e => table.Needs e c) root := by
  by_contra hacc
  exact h (not_acc_iff_exists_descending_chain.mp hacc)

lemma EndsNeeds.of_acc (h : Acc (fun c e => table.Needs e c) root) : table.EndsNeeds root :=
  fun hchain => not_acc_iff_exists_descending_chain.mpr hchain h

variable [Adviser δ] [IndexSource γ] {I : δ → Prop}

/-- **A derivation of which every element is declined comes to an end, unless the needs of its root
do not.** The number of elements that it comes to is bounded, whatever its answers are drawn from
and however it picks, and a large enough bound on the depth does not stop it. No group that may be
left out is entered, and every reference is expanded to the first alternative of its rule. A guide
with a random strategy declines if the threshold is one, a guide by coverage if the chance is zero
and no discovery finds an unused literal, and a guide from outside if its answer is always no. -/
theorem ends_of_declines {σ : Type w} [NumberSource σ] (hneeds : table.EndsNeeds root)
    (hI : Adviser.Declines I (table.unpruned.Reaches root)) :
    (∃ bound : Nat, ∀ d : Derivation δ γ, I d.adviser →
      (table.callsFrom root d).encard ≤ bound) ∧
    (∃ depth, ∀ larger, depth ≤ larger → ∀ d d' : Derivation δ γ, I d.adviser →
      table.derive larger root d ≠ .stopped .tooDeep d') ∧
    (∀ d : Derivation δ γ, I d.adviser → ∀ call ∈ table.callsFrom root d, ∀ es d₁,
      table.Expands call.element call.state es d₁ → table.Spares call.element es) ∧
    ∀ c : Crawler, Adviser.Declines
      (fun g : Guide σ => g.Declining c (table.unpruned.Reaches root))
      (table.unpruned.Reaches root) := by
  have hclosed {e c : Element} (he : table.unpruned.Reaches root e) (hc : table.Leads e c) :
      table.unpruned.Reaches root c :=
    .edge he hc Scope.not_hides_unpruned
  have hroot : table.unpruned.Reaches root root := .root Scope.not_hides_unpruned
  have hfinite := finite_positions (γ := γ) hneeds.acc hI hclosed hroot
  refine ⟨?_, ?_, ?_, fun c => Guide.declines_of_declining c _⟩
  · refine ⟨hfinite.toFinset.card, fun d hd => ?_⟩
    rw [← hfinite.encard_eq_coe_toFinset_card]
    apply Set.encard_le_encard_of_injOn (f := Call.position)
    · exact fun call hcall => ⟨d, call.state, call.element, hd, hcall⟩
    · rintro ⟨position, e, d₁⟩ hcall ⟨_, e', d₂⟩ hcall' rfl
      obtain ⟨rfl, rfl⟩ := CallsAt.unique hcall hcall'
      rfl
  · obtain ⟨bound, hbound⟩ := (hfinite.image List.length).bddAbove
    refine ⟨bound + 1, fun larger hle d d' hd h => ?_⟩
    obtain ⟨position, c, d₁, hcall, hlength⟩ := exists_callsAt_of_tooDeep h
    have hposition : position.length ≤ bound :=
      hbound (Set.mem_image_of_mem _ ⟨d, d₁, c, hd, hcall⟩)
    omega
  · intro d hd call hcall es d₁ hx
    have hcalls := CallsAt.calls hcall
    have hcalled := hcalls.of_closed hclosed hroot
    exact spares_of_mem_declined
      (hx.mem_declined hI (hcalls.keeps hI.keeps hd) hcalled fun c hc => hclosed hcalled hc)

/-- A list refers to itself, but only from an alternative that it does not need. -/
lemma endsNeeds_listing : listing.EndsNeeds (.ruleRef 0 "list") := by
  refine .of_acc (.intro _ fun c hc => ?_)
  cases hc with
  | ruleRef hr ha hmem =>
    obtain rfl := Option.some.inj (Option.some.inj hr)
    cases ha
    rw [List.mem_singleton.mp hmem]
    exact .intro _ fun x hx => nomatch hx

/-- A derivation of a list against all chance. -/
def declinedListing : Derivation (Guide MersenneTwister) MersenneTwister where
  tokens := #[]
  adviser := ⟨.ofTable listing, .random ⟨#[], 0⟩ (Session.chance true)⟩
  picker := ⟨#[], 0⟩

theorem ends_of_declines_listing :
    listing.EndsNeeds (.ruleRef 0 "list") ∧
    (∃ bound : Nat, (listing.callsFrom (.ruleRef 0 "list") declinedListing).encard ≤ bound) ∧
    (∃ depth, ∀ larger, depth ≤ larger → ∀ d',
      listing.derive larger (.ruleRef 0 "list") declinedListing ≠ .stopped .tooDeep d') ∧
    ∃ d', listing.derive 2 (.ruleRef 0 "list") declinedListing = .going d' ∧
      d'.tokens = #["a"] := by
  have hd : declinedListing.adviser.Declining (.ofTable listing)
      (listing.unpruned.Reaches (.ruleRef 0 "list")) :=
    .random (by decide) (MersenneTwister.drawsDoubles _).drawsFractions
  obtain ⟨⟨bound, hbound⟩, ⟨depth, hdepth⟩, _, _⟩ :=
    ends_of_declines (σ := MersenneTwister) (γ := MersenneTwister) endsNeeds_listing
      (Guide.declines_of_declining (σ := MersenneTwister) (.ofTable listing) _)
  exact ⟨endsNeeds_listing, ⟨bound, hbound _ hd⟩,
    ⟨depth, fun larger hle d' => hdepth larger hle _ d' hd⟩, _, by cbv, by cbv⟩

end RuleTable

end GrammarCoverage
