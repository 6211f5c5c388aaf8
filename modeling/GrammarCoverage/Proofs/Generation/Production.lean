import GrammarCoverage.Proofs.Generation.Sentence
import GrammarCoverage.Proofs.Generation.Steering
import GrammarCoverage.Proofs.Random.Fractions

/-!
# What chance can produce

What a derivation can go on with at an element is given by the grammar alone
(`RuleTable.Offers`): an alternative without elements holds nothing that could be approved, so it is
used only as the first of its rule. An adviser whose answers are free can be led to everything that
is offered (`RuleTable.Offers.attainable`), level by level to every text that is put together from
offers (`RuleTable.Produces.exists_attainable`). The answers of a random strategy are free as long
as draws can exceed the threshold (`Guide.obeys_tossing`), and they can as long as it lies below the
greatest number of the 64-bit format that is less than one.
-/

namespace GrammarCoverage

universe u v

variable {δ : Type u} {γ : Type v}

open Stream'

namespace RuleTable

/-- What the derivation of an element can go on with. -/
inductive Offers (table : RuleTable) : Element → List Element → Prop where
  | literal (id : Nat) (name : String) : Offers table (.literal id name) []
  | separator (id : Nat) (name : String) : Offers table (.separator id name) []
  | foreign (id : Nat) (kind : String) (name : Option String) :
      Offers table (.foreign id kind name) []
  /-- One alternative of a rule; one without elements only if it is the first. -/
  | ruleRef (id : Nat) {name : String} {rule : Rule} {alternative : List Element}
      (hr : table.get? name = some (some rule)) (ha : alternative ∈ rule.alternatives)
      (hne : alternative ≠ [] ∨ rule.alternatives.head? = some alternative) :
      Offers table (.ruleRef id name) alternative
  | choice (id : Nat) (name : String) {choices : List Element} {e : Element} (he : e ∈ choices) :
      Offers table (.choice id name choices) [e]
  | group (id : Nat) (name : String) (repetition : Repetition) (es : List Element) :
      Offers table (.group id name repetition es) es
  | omitted (id : Nat) (name : String) {repetition : Repetition} (es : List Element)
      (hr : repetition = .optional ∨ repetition = .zeroOrMore) :
      Offers table (.group id name repetition es) []

mutual

/-- An element produces its own token, if it has one, and a text of elements that it offers. -/
inductive Produces (table : RuleTable) : Element → List String → Prop where
  | offer {e : Element} {es : List Element} {text : List String} (h : Offers table e es)
      (hes : ProducesAll table es text) : Produces table e (e.ownTokens ++ text)

/-- Elements produce their texts one after the other. -/
inductive ProducesAll (table : RuleTable) : List Element → List String → Prop where
  | nil : ProducesAll table [] []
  | cons {e : Element} {es : List Element} {text rest : List String}
      (head : Produces table e text) (tail : ProducesAll table es rest) :
      ProducesAll table (e :: es) (text ++ rest)

end

end RuleTable

/-! ### Nothing else is produced -/

/-- An alternative without elements is not approved. -/
lemma Derivation.ne_nil_of_mem_approvedSequences [Adviser δ] {d d' : Derivation δ γ}
    {ess candidates : List (List Element)} (h : d.approvedSequences ess = .ok (candidates, d'))
    {es : List Element} (hes : es ∈ candidates) : es ≠ [] := by
  have hI : Adviser.Between (fun _ : δ => True) (fun _ => False) (fun _ => True) :=
    fun _ _ _ _ _ _ => ⟨trivial, False.elim, fun _ => trivial⟩
  obtain ⟨_, e, he, _⟩ := (approvedSequences_sifts hI trivial h).of_mem hes
  exact List.ne_nil_of_mem he

namespace RuleTable

variable [Adviser δ] [IndexSource γ] {table : RuleTable} {e : Element} {es : List Element}
  {d d₁ : Derivation δ γ}

lemma Expands.offers (h : table.Expands e d es d₁) : table.Offers e es := by
  cases h with
  | literal id name => exact .literal id name
  | separator id name => exact .separator id name
  | foreign id kind name => exact .foreign id kind name
  | ruleRef id hr hc hp =>
    apply Offers.ruleRef id hr (Derivation.mem_of_pick_approvedSequences hc hp)
    rcases Derivation.mem_or_mem_of_pick hp with hes | ⟨_, hes⟩
    · exact .inl (Derivation.ne_nil_of_mem_approvedSequences hc hes)
    · right
      simpa [List.take_one, eq_comm] using hes
  | choice id name hc hp => exact .choice id name (Derivation.mem_of_pick_approved hc hp)
  | @asked id name repetition es d b adviser hr ha =>
    cases b with
    | false => exact .omitted id name es (Repetition.isOmittable_iff.mp hr)
    | true => exact .group id name repetition es
  | group id name es d hr => exact .group id name _ es

/-- A completed derivation has added a text that its element produces. -/
theorem exists_produces {depth : Nat} {d' : Derivation δ γ}
    (h : table.derive depth e d = .going d') :
    ∃ text, d'.tokens.toList = d.tokens.toList ++ text ∧ table.Produces e text := by
  have hkeeps : Adviser.Keeps fun _ : δ => True := fun _ _ _ _ _ _ => trivial
  obtain ⟨text, hw, hp⟩ := exists_text_of_derive hkeeps (S := table.ProducesAll) .nil .cons
    (fun he hes => .offer he.offers hes) h
  exact ⟨text, hw.1, hp⟩

end RuleTable

/-! ### Free answers and free picks -/

/-- Indices from a stream, brought below the bound by their remainder. -/
instance : IndexSource (Stream' Nat) where
  pick s n hn := (⟨s.head % n, Nat.mod_lt _ hn⟩, s.tail)

/-- Advisers that give the answers of a stream, whatever they are asked about. -/
def Adviser.Obeys [Adviser δ] (adviser : Stream' Bool → δ) : Prop :=
  ∀ answers e, Adviser.ask (adviser answers) e = .ok (answers.head, adviser answers.tail)

namespace Derivation

variable {adviser : Stream' Bool → δ} {text rest : List String}

/-- Some answers and picks lead on to where a text has been added, whatever has been written before
and whatever answers and picks come after them. -/
def Attainable (adviser : Stream' Bool → δ)
    (P : Derivation δ (Stream' Nat) → Derivation δ (Stream' Nat) → Prop) (text : List String) :
    Prop :=
  ∃ answers picks, ∀ (tokens : Array String) (more : Stream' Bool) (left : Stream' Nat),
    ∃ tokens',
      P ⟨tokens, adviser (answers ++ₛ more), picks ++ₛ left⟩ ⟨tokens', adviser more, left⟩ ∧
        tokens'.toList = tokens.toList ++ text

variable {P Q R : Derivation δ (Stream' Nat) → Derivation δ (Stream' Nat) → Prop}

lemma attainable_of_forall (h : ∀ d, P d d) : Attainable adviser P [] :=
  ⟨[], [], fun tokens _ _ => ⟨tokens, h _, by simp⟩⟩

lemma attainable_write (name : String) (h : ∀ d, P d (d.write name)) :
    Attainable adviser P [name] :=
  ⟨[], [], fun tokens _ _ => ⟨tokens.push name, h _, by simp⟩⟩

lemma Attainable.trans (h : Attainable adviser P text) (h' : Attainable adviser Q rest)
    (hR : ∀ {d d₁ d₂}, P d d₁ → Q d₁ d₂ → R d d₂) : Attainable adviser R (text ++ rest) := by
  obtain ⟨answers, picks, h⟩ := h
  obtain ⟨answers', picks', h'⟩ := h'
  refine ⟨answers ++ answers', picks ++ picks', fun tokens more left => ?_⟩
  obtain ⟨tokens₁, hP, htext⟩ := h tokens (answers' ++ₛ more) (picks' ++ₛ left)
  obtain ⟨tokens₂, hQ, hrest⟩ := h' tokens₁ more left
  refine ⟨tokens₂, ?_, by rw [hrest, htext, List.append_assoc]⟩
  rw [append_append_stream, append_append_stream]
  exact hR hP hQ

lemma Attainable.imp (h : Attainable adviser P text) (hQ : ∀ {d d'}, P d d' → Q d d') :
    Attainable adviser Q text := by
  obtain ⟨answers, picks, h⟩ := h
  refine ⟨answers, picks, fun tokens more left => ?_⟩
  obtain ⟨tokens', hP, htext⟩ := h tokens more left
  exact ⟨tokens', hQ hP, htext⟩

/-- Every item can be picked. -/
lemma attainable_pick {α : Type} {items : List α} {x : α} (hx : x ∈ items) :
    Attainable adviser (fun d d' => d.pick items = some (x, d')) [] := by
  obtain ⟨i, hi, rfl⟩ := List.mem_iff_getElem.mp hx
  refine ⟨[], [i], fun tokens more left => ⟨tokens, ?_, by simp⟩⟩
  have hpos : 0 < items.length := by omega
  show pick _ items = _
  rw [pick, dif_pos hpos]
  simp [IndexSource.pick, Nat.mod_eq_of_lt hi, tail_cons]

variable [Adviser δ]

/-- An element has been asked about. -/
def Asks (e : Element) (b : Bool) (d d' : Derivation δ γ) : Prop :=
  ∃ a, Adviser.ask d.adviser e = .ok (b, a) ∧ d' = { d with adviser := a }

lemma attainable_asks (ha : Adviser.Obeys adviser) (e : Element) (b : Bool) :
    Attainable adviser (Asks e b) [] :=
  ⟨[b], [], fun tokens _ _ => ⟨tokens, ⟨_, ha _ e, rfl⟩, by simp⟩⟩

lemma attainable_approved (ha : Adviser.Obeys adviser) (es : List Element) :
    Attainable adviser (fun d d' => d.approved es = .ok ([], d')) [] := by
  induction es with
  | nil => exact attainable_of_forall fun _ => rfl
  | cons e es ih =>
    apply (attainable_asks ha e false).trans ih
    rintro d d₁ d₂ ⟨a, hask, rfl⟩ h
    simp [approved, hask, h]

/-- With the same answer throughout, one of the elements is approved if that is the answer and
there is something to ask about. -/
lemma attainable_anyApproved (ha : Adviser.Obeys adviser) (b : Bool) (es : List Element) :
    Attainable adviser (fun d d' => d.anyApproved es = .ok (b && !es.isEmpty, d')) [] := by
  induction es with
  | nil => exact attainable_of_forall fun _ => by simp [anyApproved]
  | cons e es ih =>
    cases b with
    | false =>
      apply (attainable_asks ha e false).trans ih
      rintro d d₁ d₂ ⟨a, hask, rfl⟩ h
      simpa [anyApproved, hask] using h
    | true =>
      apply (attainable_asks ha e true).imp
      rintro d d' ⟨a, hask, rfl⟩
      simp [anyApproved, hask]

lemma attainable_approvedSequences (ha : Adviser.Obeys adviser) (b : Bool)
    (ess : List (List Element)) :
    Attainable adviser
      (fun d d' => d.approvedSequences ess = .ok (ess.filter (b && !·.isEmpty), d')) [] := by
  induction ess with
  | nil => exact attainable_of_forall fun _ => rfl
  | cons es ess ih =>
    apply (attainable_anyApproved ha b es).trans ih
    intro d d₁ d₂ hes h
    simp [approvedSequences, hes, h, List.filter_cons]

end Derivation

namespace RuleTable

open GrammarCoverage.Derivation

variable [Adviser δ] {adviser : Stream' Bool → δ} {table : RuleTable} {e : Element}
  {es : List Element} {text : List String}

/-- A derivation can be led to whatever an element offers. -/
lemma Offers.attainable (ha : Adviser.Obeys adviser) (h : table.Offers e es) :
    Attainable adviser (fun d d' => table.Expands e d es d') e.ownTokens := by
  cases h with
  | literal id name => exact attainable_write name fun d => .literal id name d
  | separator id name => exact attainable_write name fun d => .separator id name d
  | foreign id kind name => exact attainable_of_forall fun d => .foreign id kind name d
  | @ruleRef id name rule _ hr hmem hne =>
    obtain ⟨b, hpick⟩ : ∃ b, es ∈ orElse (rule.alternatives.filter (b && !·.isEmpty))
        (rule.alternatives.take 1) := by
      by_cases hnil : es = []
      · -- refusals leave only the first alternative to pick
        have hhead := hne.resolve_left fun h => h hnil
        exact ⟨false, by simp [orElse, List.take_one, hhead]⟩
      · have hcandidate : es ∈ rule.alternatives.filter (true && !·.isEmpty) := by
          simp [hmem, hnil]
        refine ⟨true, ?_⟩
        rwa [orElse, if_neg]
        simpa using List.ne_nil_of_mem hcandidate
    exact (attainable_approvedSequences ha b rule.alternatives).trans (attainable_pick hpick)
      fun hc hp => .ruleRef id hr hc hp
  | choice id name he =>
    exact (attainable_approved ha _).trans (attainable_pick he) fun hc hp => .choice id name hc hp
  | group id name repetition es =>
    cases hr : repetition.isOmittable with
    | false => exact attainable_of_forall fun d => .group id name es d hr
    | true =>
      apply (attainable_asks ha (.group id name repetition es) true).imp
      rintro d d' ⟨a, hask, rfl⟩
      exact .asked id name es hr hask
  | @omitted id name repetition es hr =>
    apply (attainable_asks ha (.group id name repetition es) false).imp
    rintro d d' ⟨a, hask, rfl⟩
    exact .asked id name es (Repetition.isOmittable_iff.mpr hr) hask

mutual

/-- A derivation can be led to every text that an element produces. -/
lemma Produces.exists_attainable (ha : Adviser.Obeys adviser) {e : Element} {text : List String} :
    table.Produces e text →
    ∃ depth, Attainable adviser (fun d d' => table.derive depth e d = .going d') text
  | .offer h hes => by
    obtain ⟨depth, hchain⟩ := hes.exists_attainable ha
    refine ⟨depth + 1, (h.attainable ha).trans hchain fun he hes => ?_⟩
    exact derive_eq_going_iff.mpr ⟨_, _, he, hes⟩

lemma ProducesAll.exists_attainable (ha : Adviser.Obeys adviser) {es : List Element}
    {text : List String} :
    table.ProducesAll es text →
    ∃ depth, Attainable adviser
      (Chain (fun e d d' => table.derive depth e d = .going d') es) text
  | .nil => ⟨0, attainable_of_forall fun d => .nil d⟩
  | .cons head tail => by
    obtain ⟨depth, hhead⟩ := head.exists_attainable ha
    obtain ⟨depth', htail⟩ := tail.exists_attainable ha
    refine ⟨max depth depth', hhead.trans htail fun h hes => ?_⟩
    apply Chain.cons (derive_mono h (le_max_left _ _))
    exact hes.imp fun _ _ _ h => derive_mono h (le_max_right _ _)

end

end RuleTable

/-! ### Answers by chance -/

/-- Numbers from a stream. -/
instance : NumberSource (Stream' Number) where
  draw s := (s.head, s.tail)

lemma NumberSource.drawsDoubles_map {α : Type} {f : α → Number}
    (hf : ∀ a, (f a).IsDouble ∧ 0 ≤ f a ∧ f a < 1) (s : Stream' α) : DrawsDoubles (s.map f) := by
  intro n
  induction n generalizing s with
  | zero => exact hf s.head
  | succ n ih => exact ih s.tail

namespace Guide

variable {c : Crawler} {p : Probability}

/-- A random strategy that draws the last number below one for each approval, and zero for each
refusal. -/
def tossing (c : Crawler) (p : Probability) (answers : Stream' Bool) : Guide (Stream' Number) :=
  ⟨c, .random (answers.map fun b => if b then Number.belowOne else 0) p⟩

lemma obeys_tossing (h : p.value < Number.belowOne) : Adviser.Obeys (tossing c p) := by
  intro answers e
  have hlow : ¬ p.value < 0 := Number.not_lt_of_le_zero (by decide) p.zero_le
  have hanswer : decide (p.value < if answers.head then Number.belowOne else 0) =
      answers.head := by
    cases answers.head with
    | false => exact decide_eq_false hlow
    | true => exact decide_eq_true h
  exact ask_eq_ok_iff.mpr ⟨congrArg Except.ok hanswer, rfl⟩

end Guide

namespace RuleTable

variable {c : Crawler} {p : Probability} {table : RuleTable}

/-- The numbers that the draws are made of. -/
lemma isDouble_ite (b : Bool) : let x := if b then Number.belowOne else 0
    x.IsDouble ∧ 0 ≤ x ∧ x < 1 := by
  cases b with
  | false => exact Number.fraction_mem (k := 0) (by decide)
  | true => exact Number.fraction_mem (k := 2 ^ 53 - 1) (by decide)

/-- Draws from the unit interval lead a random strategy to all that is attainable. -/
lemma exists_draws_of_attainable (h : p.value < Number.belowOne) {text : List String}
    {P : Derivation (Guide (Stream' Number)) (Stream' Nat) →
      Derivation (Guide (Stream' Number)) (Stream' Nat) → Prop}
    (hP : ∀ {adviser : Stream' Bool → Guide (Stream' Number)}, Adviser.Obeys adviser →
      Derivation.Attainable adviser P text) (written : Array String) :
    ∃ draws picks d, NumberSource.DrawsDoubles draws ∧
      P ⟨written, ⟨c, .random draws p⟩, picks⟩ d ∧
      d.tokens.toList = written.toList ++ text := by
  obtain ⟨answers, picks, hP⟩ := hP (Guide.obeys_tossing h)
  obtain ⟨tokens, hd, htext⟩ := hP written (Stream'.const true) (Stream'.const 0)
  exact ⟨_, _, _, NumberSource.drawsDoubles_map isDouble_ite _, hd, htext⟩

/-- **What a random strategy can produce, whatever is drawn and picked, is what the grammar
produces with alternatives that are not empty or come first.** So every alternative with an element
stays within reach, and one without elements is used only if it is the first of its rule. The draws
are numbers of the 64-bit format from `[0, 1)`, and the threshold is less than the last of them. -/
theorem exists_derive_random_iff (table : RuleTable) (c : Crawler)
    (h : p.value < Number.belowOne) (root : Element) (written : Array String) :
    (∀ text : List String,
      (∃ (draws : Stream' Number) (picks : Stream' Nat) (depth : Nat)
          (d : Derivation (Guide (Stream' Number)) (Stream' Nat)),
        NumberSource.DrawsDoubles draws ∧
        table.derive depth root ⟨written, ⟨c, .random draws p⟩, picks⟩ = .going d ∧
        d.tokens.toList = written.toList ++ text) ↔
      table.Produces root text) ∧
    (∀ (id : Nat) (name : String) (rule : Rule), table.get? name = some (some rule) →
      ∀ alternative ∈ rule.alternatives,
        (∃ (draws : Stream' Number) (picks : Stream' Nat)
            (d : Derivation (Guide (Stream' Number)) (Stream' Nat)),
          NumberSource.DrawsDoubles draws ∧
          table.Expands (.ruleRef id name) ⟨written, ⟨c, .random draws p⟩, picks⟩ alternative d) ↔
        alternative ≠ [] ∨ rule.alternatives.head? = some alternative) := by
  constructor
  · intro text
    constructor
    · rintro ⟨draws, picks, depth, d, -, hd, htext⟩
      obtain ⟨text', htext', hp⟩ := exists_produces hd
      rw [htext, List.append_cancel_left_eq] at htext'
      rwa [htext']
    · intro hp
      have hattainable : ∀ {adviser : Stream' Bool → Guide (Stream' Number)},
          Adviser.Obeys adviser → Derivation.Attainable adviser
            (fun d d' => ∃ depth, table.derive depth root d = .going d') text := by
        intro adviser hadviser
        obtain ⟨depth, h⟩ := hp.exists_attainable hadviser
        exact h.imp fun hd => ⟨depth, hd⟩
      obtain ⟨draws, picks, d, hdraws, ⟨depth, hd⟩, htext⟩ :=
        exists_draws_of_attainable h hattainable written
      exact ⟨draws, picks, depth, d, hdraws, hd, htext⟩
  · intro id name rule hr alternative ha
    constructor
    · rintro ⟨draws, picks, d, -, he⟩
      cases he.offers with
      | ruleRef _ hr' _ hne =>
        rw [hr] at hr'
        cases hr'
        exact hne
    · intro hne
      obtain ⟨draws, picks, d, hdraws, he, -⟩ := exists_draws_of_attainable h
        (fun hadviser => (Offers.ruleRef id hr ha hne).attainable hadviser) written
      exact ⟨draws, picks, d, hdraws, he⟩

/-- Items with an end in the middle: `item ::= "a" | | "b" item`. -/
def itemRule : Rule where
  name := "item"
  alternatives := [[.literal 2 "a"], [], [.literal 3 "b", .ruleRef 4 "item"]]

def items : RuleTable := .ofList [("item", some itemRule)]

lemma get?_items : items.get? "item" = some (some itemRule) := rfl

/-- Texts of items end with the first alternative, never with the empty one. -/
theorem exists_derive_random_iff_items :
    Probability.half.value < Number.belowOne ∧
    (∃ (draws : Stream' Number) (picks : Stream' Nat) (depth : Nat)
        (d : Derivation (Guide (Stream' Number)) (Stream' Nat)),
      NumberSource.DrawsDoubles draws ∧
      items.derive depth (.ruleRef 1 "item")
        ⟨#[], ⟨.ofTable items, .random draws .half⟩, picks⟩ = .going d ∧
      d.tokens.toList = ["b", "a"]) ∧
    ¬ ∃ (draws : Stream' Number) (picks : Stream' Nat)
        (d : Derivation (Guide (Stream' Number)) (Stream' Nat)),
      NumberSource.DrawsDoubles draws ∧
      items.Expands (.ruleRef 1 "item")
        ⟨#[], ⟨.ofTable items, .random draws .half⟩, picks⟩ [] d := by
  have hhalf : Probability.half.value < Number.belowOne := by decide +kernel
  obtain ⟨htexts, hreference⟩ :=
    exists_derive_random_iff items (.ofTable items) hhalf (.ruleRef 1 "item") #[]
  refine ⟨hhalf, ?_, fun h => ?_⟩
  · have hlast : items.Offers (.ruleRef 4 "item") [.literal 2 "a"] :=
      .ruleRef 4 get?_items (by simp [itemRule]) (by simp)
    have hfirst : items.Offers (.ruleRef 1 "item") [.literal 3 "b", .ruleRef 4 "item"] :=
      .ruleRef 1 get?_items (by simp [itemRule]) (by simp)
    have ha : items.Produces (.ruleRef 4 "item") ["a"] :=
      .offer hlast (.cons (.offer (.literal 2 "a") .nil) .nil)
    have hba : items.Produces (.ruleRef 1 "item") ["b", "a"] :=
      .offer hfirst (.cons (.offer (.literal 3 "b") .nil) (.cons ha .nil))
    exact (htexts ["b", "a"]).mpr hba
  · have hempty := (hreference 1 "item" itemRule get?_items [] (by simp [itemRule])).mp h
    simp [itemRule] at hempty

/-- The greatest threshold of the 64-bit format that is less than one. -/
def highest : Probability := ⟨Number.belowOne, by decide +kernel, by decide +kernel⟩

/-- A word that may be left out. -/
def aside : Element := .group 1 "" .optional [.literal 2 "x"]

/-- A threshold that is less than one may still be too high for every draw: the word is produced by
the grammar, but never approved. -/
theorem not_exists_derive_highest :
    0 < highest.value ∧ highest.value < 1 ∧ highest.value.IsDouble ∧
    items.Produces aside ["x"] ∧
    ¬ ∃ (draws : Stream' Number) (picks : Stream' Nat) (depth : Nat)
        (d : Derivation (Guide (Stream' Number)) (Stream' Nat)),
      NumberSource.DrawsDoubles draws ∧
      items.derive depth aside
        ⟨#[], ⟨.ofTable items, .random draws highest⟩, picks⟩ = .going d ∧
      d.tokens.toList = ["x"] := by
  obtain ⟨hdouble, -, hone⟩ := Number.fraction_mem (k := 2 ^ 53 - 1) (by decide)
  have hx : items.Produces (.literal 2 "x") ["x"] := .offer (.literal 2 "x") .nil
  refine ⟨by decide +kernel, hone, hdouble,
    .offer (.group 1 "" .optional _) (.cons hx .nil), ?_⟩
  rintro ⟨draws, picks, depth, d, hdraws, hd, htext⟩
  let guide : Guide (Stream' Number) := ⟨.ofTable items, .random draws highest⟩
  have hrefused : Adviser.ask guide aside =
      .ok (false, { guide with strategy := .random draws.tail highest }) := by
    refine Guide.ask_eq_ok_iff.mpr ⟨congrArg Except.ok ?_, rfl⟩
    exact decide_eq_false (hdraws.not_lt (by decide +kernel))
  cases depth with
  | zero => cases hd
  | succ depth =>
    have hleft : items.Expands aside ⟨#[], guide, picks⟩ _ _ :=
      .asked 1 "" [.literal 2 "x"] rfl hrefused
    rw [hleft.derive_eq] at hd
    cases hd
    cases htext

end RuleTable

end GrammarCoverage
