import GrammarCoverage.Random.Source
import GrammarCoverage.Settings.Probability
import GrammarCoverage.Value.Outline

/-!
# Settings

What a strategy is built from: its name, the seed of its source of numbers, and two probabilities.
Settings come from a mapping whose keys are the names of the four settings; what is not given has
its default. A refusal shows what it refuses, as far as collections are not nested beyond a depth.
-/

namespace GrammarCoverage

/-- The settings of a strategy. -/
structure Settings where
  /-- The name under which the strategy is registered. -/
  strategy : Text.Content
  strategy_ne : !strategy.isEmpty
  /-- The seed of the source of numbers; without one any source will do. -/
  seed : Option Int
  /-- The random strategy expands an element when a draw exceeds this. -/
  randomThreshold : Probability
  /-- The chance that the coverage strategy expands an element whose literals are all used. -/
  fallbackProbability : Probability

namespace Settings

/-- The settings that hold where none are given. -/
def default : Settings where
  strategy := .string "coverage-aware"
  strategy_ne := by decide
  seed := none
  randomThreshold := .half
  fallbackProbability := .defaultFallback

def fieldNames : List String :=
  ["strategy", "seed", "random_threshold", "fallback_probability"]

/-! ### Checking -/

/-- Check the name of a strategy, which any text but the empty one may be. -/
def checkStrategy (v : Value) : Except SettingsError { name : Text.Content // !name.isEmpty } :=
  match v.content? with
  | none => .error (.badStrategy v)
  | some name => if h : !name.isEmpty then .ok ⟨name, h⟩ else .error (.badStrategy v)

def checkSeed : Value → Except SettingsError (Option Int)
  | .null => .ok none
  | .int n => .ok (some n)
  | v => .error (.badSeed v)

def seedValue : Option Int → Value
  | some n => .int n
  | none => .null

/-- The settings in a mapping of known keys, checked in order. What stands at a key is turned into a
value only when it is checked. -/
def ofKnown {α : Type} (value : α → Value) (entries : List (Value × α)) :
    Except SettingsError Settings := do
  let field (name : String) (otherwise : Value) : Value :=
    ((Outline.field? entries name).map value).getD otherwise
  let name ← checkStrategy (field "strategy" (.ofContent default.strategy))
  let seed ← checkSeed (field "seed" (seedValue default.seed))
  let randomThreshold ← Probability.ofValue "random_threshold"
    (field "random_threshold" default.randomThreshold.toValue)
  let fallbackProbability ← Probability.ofValue "fallback_probability"
    (field "fallback_probability" default.fallbackProbability.toValue)
  return ⟨name.1, name.2, seed, randomThreshold, fallbackProbability⟩

/-- The keys of a mapping that are not names of settings. -/
def unknownKeys {α : Type} (entries : List (Value × α)) : List Value :=
  (entries.map Prod.fst).filter fun k => !fieldNames.any fun name => k.sameKey (.text name)

/-- The settings in an outline, which has to be a mapping without unknown keys. -/
def ofOutline {α : Type} (depth : Nat) (value : α → Value) :
    Outline α → Except SettingsFailure Settings
  | .mapping entries =>
    match Value.sortKeys? (unknownKeys entries) with
    | none => .error (.unorderedKeys (unknownKeys entries))
    | some [] => (ofKnown value entries).mapError (SettingsError.toFailure depth)
    | some keys => .error ((SettingsError.unknownKeys keys).toFailure depth)
  | o => .error ((SettingsError.notAMapping o.typeName).toFailure depth)

/-- The settings in a value, which has to be a mapping without unknown keys. -/
def ofValue (depth : Nat) (v : Value) : Except SettingsFailure Settings :=
  ofOutline depth id v.outline

/-- The settings given one by one; a name that is not one of theirs is refused before all else. -/
def ofKeywords (depth : Nat) (entries : List (Value × Value)) : Except SettingsFailure Settings :=
  match unknownKeys entries with
  | [] => (ofKnown id entries).mapError (SettingsError.toFailure depth)
  | k :: _ => .error (.unknownKeyword k.plain)

/-- The default settings for a named strategy. -/
def forStrategy (name : String) : Except SettingsError Settings :=
  ofKnown id [(.text "strategy", .text name)]

/-! ### Views -/

/-- The settings with their values, in order. -/
def fields (c : Settings) : List (String × Value) :=
  [("strategy", .ofContent c.strategy), ("seed", seedValue c.seed),
    ("random_threshold", c.randomThreshold.toValue),
    ("fallback_probability", c.fallbackProbability.toValue)]

def toValue (c : Settings) : Value :=
  .mapping (c.fields.map fun f => (.text f.1, f.2))

def describe (c : Settings) : String :=
  "CrawlConfig(" ++ ", ".intercalate (c.fields.map fun f => f.1 ++ "=" ++ f.2.display) ++ ")"

def same (a b : Settings) : Bool :=
  a.strategy == b.strategy && a.seed == b.seed
    && a.randomThreshold.value.same b.randomThreshold.value
    && a.fallbackProbability.value.same b.fallbackProbability.value

/-- A new source of numbers for the seed. -/
def generator (c : Settings) : Generator := .ofSeed c.seed

end Settings

end GrammarCoverage
