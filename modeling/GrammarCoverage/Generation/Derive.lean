import GrammarCoverage.Strategy.Basic

/-!
# Deriving a text

A generation derives one text from an element: literals and separators are written, references and
choices pick one of the ways that the strategy approves, groups that may be left out are written
only if the strategy approves. It works with any party that answers questions about elements and
with any source of indices. The depth of the derivation is bounded by an argument, since a recursive
grammar may be expanded without end; a run that does not meet the bound is the same for all larger
ones.
-/

namespace GrammarCoverage

universe u v

/-- A party that answers whether an element should be expanded. -/
class Adviser (δ : Type u) where
  /-- The answer, and the party after it. -/
  ask : δ → Element → Except ModelFault (Bool × δ)

/-- A strategy that reads a crawler. -/
structure Guide (σ : Type u) where
  crawler : Crawler
  strategy : Strategy σ

instance {σ : Type u} [NumberSource σ] : Adviser (Guide σ) where
  ask g e :=
    let d := g.strategy.decide g.crawler e
    d.outcome.map fun b => (b, { g with strategy := d.source })

/-- Why a derivation stops before its end. -/
inductive Interruption where
  /-- A question met a fault of the model. -/
  | fault (f : ModelFault)
  /-- A reference names a rule that the table does not hold. -/
  | undefinedRule (name : String)
  /-- The table holds an entry without a rule. -/
  | blankRule (name : String)
  /-- There is nothing to pick from. -/
  | nothingToPick
  /-- The bound on the depth is met. -/
  | tooDeep
deriving DecidableEq

structure Derivation (δ : Type u) (γ : Type v) where
  /-- The tokens written so far, in order. -/
  tokens : Array String
  adviser : δ
  picker : γ

/-- A derivation that goes on, or has been stopped. -/
inductive Progress (δ : Type u) (γ : Type v) where
  | going (d : Derivation δ γ)
  | stopped (reason : Interruption) (d : Derivation δ γ)

namespace Derivation

variable {δ : Type u} {γ : Type v}

def write (d : Derivation δ γ) (token : String) : Derivation δ γ :=
  { d with tokens := d.tokens.push token }

variable [Adviser δ]

/-- The elements that are approved, each asked about in order. -/
def approved (d : Derivation δ γ) : List Element → Except ModelFault (List Element × Derivation δ γ)
  | [] => .ok ([], d)
  | e :: rest =>
    match Adviser.ask d.adviser e with
    | .error f => .error f
    | .ok (b, adviser) =>
      match approved { d with adviser } rest with
      | .error f => .error f
      | .ok (es, d) => .ok (if b then e :: es else es, d)

/-- Is one of the elements approved? They are asked about in order, up to the first that is. -/
def anyApproved (d : Derivation δ γ) : List Element → Except ModelFault (Bool × Derivation δ γ)
  | [] => .ok (false, d)
  | e :: rest =>
    match Adviser.ask d.adviser e with
    | .error f => .error f
    | .ok (true, adviser) => .ok (true, { d with adviser })
    | .ok (false, adviser) => anyApproved { d with adviser } rest

/-- The sequences that hold an approved element, in order. -/
def approvedSequences (d : Derivation δ γ) :
    List (List Element) → Except ModelFault (List (List Element) × Derivation δ γ)
  | [] => .ok ([], d)
  | es :: rest =>
    match d.anyApproved es with
    | .error f => .error f
    | .ok (b, d) =>
      match approvedSequences d rest with
      | .error f => .error f
      | .ok (ess, d) => .ok (if b then es :: ess else ess, d)

omit [Adviser δ] in
/-- Pick one of some items. -/
def pick {α : Type} [IndexSource γ] (d : Derivation δ γ) (items : List α) :
    Option (α × Derivation δ γ) :=
  if h : 0 < items.length then
    let (i, picker) := IndexSource.pick d.picker items.length h
    some (items[i], { d with picker })
  else none

/-- Some items, or others in their place if there are none. -/
def orElse {α : Type} (items others : List α) : List α := if items.isEmpty then others else items

end Derivation

variable {δ : Type u} {γ : Type v}

/-- Work through elements in order, up to the first that stops. -/
def Progress.forEach (work : Element → Derivation δ γ → Progress δ γ) :
    List Element → Derivation δ γ → Progress δ γ
  | [], d => .going d
  | e :: rest, d =>
    match work e d with
    | .going d => Progress.forEach work rest d
    | .stopped reason d => .stopped reason d

variable [Adviser δ] [IndexSource γ]

/-- Derive a text from an element, down to a depth. -/
def RuleTable.derive (table : RuleTable) : Nat → Element → Derivation δ γ → Progress δ γ
  | 0, _, d => .stopped .tooDeep d
  | _ + 1, .literal _ name, d => .going (d.write name)
  | _ + 1, .separator _ name, d => .going (d.write name)
  | _ + 1, .foreign .., d => .going d
  | depth + 1, .ruleRef _ name, d =>
    match table.get? name with
    | none => .stopped (.undefinedRule name) d
    | some none => .stopped (.blankRule name) d
    | some (some rule) =>
      match d.approvedSequences rule.alternatives with
      | .error f => .stopped (.fault f) d
      | .ok (candidates, d) =>
        match d.pick (Derivation.orElse candidates (rule.alternatives.take 1)) with
        | none => .stopped .nothingToPick d
        | some (es, d) => Progress.forEach (derive table depth) es d
  | depth + 1, .choice _ _ es, d =>
    match d.approved es with
    | .error f => .stopped (.fault f) d
    | .ok (candidates, d) =>
      match d.pick (Derivation.orElse candidates es) with
      | none => .stopped .nothingToPick d
      | some (e, d) => derive table depth e d
  | depth + 1, .group id name repetition es, d =>
    if repetition.isOmittable then
      match Adviser.ask d.adviser (.group id name repetition es) with
      | .error f => .stopped (.fault f) d
      | .ok (false, adviser) => .going { d with adviser }
      | .ok (true, adviser) => Progress.forEach (derive table depth) es { d with adviser }
    else Progress.forEach (derive table depth) es d

end GrammarCoverage
