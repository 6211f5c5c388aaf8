import GrammarCoverage.Proofs.Generation.Writing
import GrammarCoverage.Strategy.Coverage

/-!
# Generated texts are sentences

The texts of an element are given by the grammar alone (`RuleTable.Yields`). What a derivation
writes is one of them, whoever answers its questions and however it picks, because a level goes on
only with elements that the grammar allows there (`RuleTable.Expands.yields`).
-/

namespace GrammarCoverage

universe u v

lemma Repetition.isOmittable_iff {r : Repetition} :
    r.isOmittable = true ↔ r = .optional ∨ r = .zeroOrMore := by
  cases r <;> simp [isOmittable]

namespace RuleTable

mutual

/-- An element yields a text. -/
inductive Yields (table : RuleTable) : Element → List String → Prop where
  | literal (id : Nat) (name : String) : Yields table (.literal id name) [name]
  | separator (id : Nat) (name : String) : Yields table (.separator id name) [name]
  /-- An object outside the model yields nothing. -/
  | foreign (id : Nat) (kind : String) (name : Option String) :
      Yields table (.foreign id kind name) []
  /-- A reference yields what one alternative of its rule yields. -/
  | ruleRef (id : Nat) {name : String} {rule : Rule} {alternative : List Element}
      {text : List String} (hr : table.get? name = some (some rule))
      (ha : alternative ∈ rule.alternatives) (h : YieldsAll table alternative text) :
      Yields table (.ruleRef id name) text
  | choice (id : Nat) (name : String) {choices : List Element} {e : Element}
      {text : List String} (he : e ∈ choices) (h : Yields table e text) :
      Yields table (.choice id name choices) text
  | group (id : Nat) (name : String) (repetition : Repetition) {es : List Element}
      {text : List String} (h : YieldsAll table es text) :
      Yields table (.group id name repetition es) text
  /-- Some groups may be left out. -/
  | omitted (id : Nat) (name : String) {repetition : Repetition} (es : List Element)
      (hr : repetition = .optional ∨ repetition = .zeroOrMore) :
      Yields table (.group id name repetition es) []

/-- Elements yield their texts one after the other. -/
inductive YieldsAll (table : RuleTable) : List Element → List String → Prop where
  | nil : YieldsAll table [] []
  | cons {e : Element} {es : List Element} {text rest : List String} (head : Yields table e text)
      (tail : YieldsAll table es rest) : YieldsAll table (e :: es) (text ++ rest)

end

variable {δ : Type u} {γ : Type v} {table : RuleTable} {e : Element} {es : List Element}
  {d d' : Derivation δ γ} {text : List String}

lemma yieldsAll_nil_iff : table.YieldsAll [] text ↔ text = [] := by
  constructor
  · intro h
    cases h
    rfl
  · rintro rfl
    exact .nil

lemma yieldsAll_singleton_iff : table.YieldsAll [e] text ↔ table.Yields e text := by
  constructor
  · intro h
    cases h with
    | cons head tail =>
      rw [yieldsAll_nil_iff.mp tail, List.append_nil]
      exact head
  · intro h
    simpa using YieldsAll.cons h .nil

variable [Adviser δ] [IndexSource γ]

/-- The own token of an element and a text of the elements that its derivation goes on with are a
text of the element. -/
lemma Expands.yields {d₁ : Derivation δ γ} (h : table.Expands e d es d₁)
    (hes : table.YieldsAll es text) : table.Yields e (e.ownTokens ++ text) := by
  cases h with
  | literal id name =>
    rw [yieldsAll_nil_iff.mp hes]
    exact .literal id name
  | separator id name =>
    rw [yieldsAll_nil_iff.mp hes]
    exact .separator id name
  | foreign id kind name =>
    rw [yieldsAll_nil_iff.mp hes]
    exact .foreign id kind name
  | ruleRef id hr hc hp =>
    exact .ruleRef id hr (Derivation.mem_of_pick_approvedSequences hc hp) hes
  | choice id name hc hp =>
    apply Yields.choice id name (Derivation.mem_of_pick_approved hc hp)
    exact yieldsAll_singleton_iff.mp hes
  | @asked id name repetition es d b adviser hr ha =>
    cases b with
    | false =>
      rw [yieldsAll_nil_iff.mp hes]
      exact .omitted id name es (Repetition.isOmittable_iff.mp hr)
    | true => exact .group id name repetition hes
  | @group id name repetition es d hr => exact .group id name repetition hes

omit [Adviser δ] [IndexSource γ] in
lemma exists_yieldsAll_of_chain {I : δ → Prop}
    (h : Derivation.Chain (fun e d d' => ∃ text, d.Writes I text d' ∧ table.Yields e text)
      es d d') : ∃ text, d.Writes I text d' ∧ table.YieldsAll es text :=
  h.exists_texts .nil .cons

/-- **A derivation that completes has added a text that its element yields**, whoever has answered
its questions and however it has picked. The answers may come from a list, so that they may depend
on anything. -/
theorem exists_yields {depth : Nat} (h : table.derive depth e d = .going d') :
    ∃ text, d'.tokens.toList = d.tokens.toList ++ text ∧ table.Yields e text := by
  have hkeeps : Adviser.Keeps fun _ : δ => True := fun _ _ _ _ _ _ => trivial
  suffices h : ∃ text, d.Writes (fun _ => True) text d' ∧ table.Yields e text by
    obtain ⟨text, hw, hy⟩ := h
    exact ⟨text, hw.1, hy⟩
  refine derive_induction
    (P := fun e d d' => ∃ text, d.Writes (fun _ => True) text d' ∧ table.Yields e text) ?_ h
  intro e d es d₁ d' he hes
  obtain ⟨text, hw, hy⟩ := exists_yieldsAll_of_chain hes
  exact ⟨e.ownTokens ++ text, (he.writes hkeeps).trans hw, he.yields hy⟩

/-- A list is one item, or an item with more items after it, each behind a comma. -/
def listRule : Rule := ⟨"list", [
  [.literal 1 "a"],
  [.choice 2 "" [.literal 3 "b", .literal 4 "c"],
    .group 5 "" .zeroOrMore [.separator 6 ",", .ruleRef 7 "list"]]]⟩

def listing : RuleTable := .ofList [("list", some listRule)]

/-- A derivation after one token, with answers that are written down beforehand. -/
def listingStart : Derivation (Guide Script) MersenneTwister where
  tokens := #["x"]
  adviser := ⟨.ofTable listing, .random ⟨[0, 1, 0, 1, 1, 1, 0, 0], 0⟩ .half⟩
  picker := ⟨#[], 0⟩

theorem exists_yields_listing :
    ∃ d, listing.derive 5 (.ruleRef 0 "list") listingStart = .going d ∧
      d.tokens.toList = ["x", "c", ",", "a"] ∧
      listing.Yields (.ruleRef 0 "list") ["c", ",", "a"] := by
  have hderive : ∃ d, listing.derive 5 (.ruleRef 0 "list") listingStart = .going d ∧
      d.tokens.toList = ["x", "c", ",", "a"] :=
    ⟨_, rfl, rfl⟩
  obtain ⟨d, hd, htokens⟩ := hderive
  obtain ⟨text, htext, hy⟩ := exists_yields hd
  have heq : ["c", ",", "a"] = text := by simpa [htokens, listingStart] using htext
  exact ⟨d, hd, htokens, heq ▸ hy⟩

end RuleTable

end GrammarCoverage
