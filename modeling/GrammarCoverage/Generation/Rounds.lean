import GrammarCoverage.Generation.Derive

/-!
# Rounds of generation

A round derives one text and then counts it: every distinct token that is tracked gets one use more.
The strategy reads the counts as they were before the round. A round that is stopped is not counted
and ends the rounds.
-/

namespace GrammarCoverage

universe u v

inductive RoundEnd where
  | finished
  /-- The derivation was stopped. -/
  | stopped (reason : Interruption)
  /-- The count of a token is no number. -/
  | uncountable (name : String)

/-- A round with the tokens it has written. -/
structure Round where
  tokens : List String
  ending : RoundEnd

namespace Crawler

/-- Count one more use of each tracked name of a list. -/
def incrementEach (c : Crawler) : List String → Except ChangeError Crawler
  | [] => .ok c
  | name :: rest =>
    if c.usage.contains name then
      match c.increment name with
      | .ok c => incrementEach c rest
      | .error e => .error e
    else incrementEach c rest

/-- Count a text: one more use for each distinct tracked token. -/
def countText (c : Crawler) (tokens : List String) : Except ChangeError Crawler :=
  c.incrementEach (NameSet.ofList tokens).names

/-- Track the literals that an element can reach, with no use so far. -/
def trackReachable (c : Crawler) (root : Element) : Except ModelFault Crawler :=
  (c.scope.discover root).map fun found =>
    found.names.foldl (fun c name => c.setUsage name (.int 0)) c

end Crawler

/-- What a generation is made of: a strategy that reads a crawler, and a source of indices. -/
structure Generation (σ : Type u) (γ : Type v) where
  guide : Guide σ
  picker : γ

namespace Generation

variable {σ : Type u} {γ : Type v} [NumberSource σ] [IndexSource γ]

/-- The depth to which texts are derived. -/
def depthLimit : Nat := 1000

/-- The derivation that stands at the start of a round. -/
def opening (g : Generation σ γ) : Derivation (Guide σ) γ := ⟨#[], g.guide, g.picker⟩

/-- One round within a depth: derive a text from the root and count it. -/
def roundWithin (depth : Nat) (g : Generation σ γ) (root : Element) : Round × Generation σ γ :=
  match g.guide.crawler.table.derive depth root g.opening with
  | .stopped reason d => (⟨d.tokens.toList, .stopped reason⟩, ⟨d.adviser, d.picker⟩)
  | .going d =>
    let tokens := d.tokens.toList
    match d.adviser.crawler.countText tokens with
    | .ok crawler => (⟨tokens, .finished⟩, ⟨{ d.adviser with crawler }, d.picker⟩)
    | .error (.missing name) | .error (.notANumber name) =>
      (⟨tokens, .uncountable name⟩, ⟨d.adviser, d.picker⟩)

def round (g : Generation σ γ) (root : Element) : Round × Generation σ γ :=
  g.roundWithin depthLimit root

/-- A number of rounds, up to the first that is not finished. -/
def rounds (g : Generation σ γ) (root : Element) : Nat → List Round × Generation σ γ
  | 0 => ([], g)
  | n + 1 =>
    match g.round root with
    | (⟨tokens, .finished⟩, g) =>
      let (rest, last) := rounds g root n
      (⟨tokens, .finished⟩ :: rest, last)
    | (r, g) => ([r], g)

end Generation

end GrammarCoverage
