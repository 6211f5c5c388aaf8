import GrammarCoverage.Proofs.Random.Fractions
import GrammarCoverage.Proofs.Value.Views
import GrammarCoverage.Settings.Basic

/-!
# Which settings are accepted

Each setting has a name, a default, and values that give it (`Settings.Field`). A value describes
settings if it is a mapping whose keys are names of settings, with a value that gives the setting at
each of its keys (`Settings.Describes`); exactly those values are accepted. The value that settings
are written as describes them.
-/

namespace GrammarCoverage

variable {ε ε' α β : Type} {e : ε} {x : Except ε α}

lemma bind_eq_ok_iff {f : α → Except ε β} {b : β} :
    x >>= f = .ok b ↔ ∃ a, x = .ok a ∧ f a = .ok b := by
  cases x <;> simp [bind, Except.bind]

lemma mapError_eq_ok_iff {f : ε → ε'} {a : α} : x.mapError f = .ok a ↔ x = .ok a := by
  cases x <;> simp [Except.mapError]

/-- The values that the text of a refusal shows. -/
def SettingsError.shown : SettingsError → List Value
  | .notANumber _ v | .outOfRange _ v | .badStrategy v | .badSeed v => [v]
  | .unknownKeys keys => keys
  | .notAMapping _ | .unreadable .. | .invalidYaml _ | .crawlerMissing _ | .other _ => []

/-! ### Chances -/

namespace Number

lemma zero_le_ofInt_iff {n : Int} : 0 ≤ ofInt n ↔ 0 ≤ n := by
  have hn : (Dyadic.ofInt n).toRat = n := Dyadic.toRat_intCast n
  rw [ofInt, zero_le_finite_iff, hn, Int.cast_nonneg_iff]

lemma finite_le_one_iff {x : Dyadic} : finite x ≤ 1 ↔ x.toRat ≤ 1 := by
  have hone : (Dyadic.ofInt (1 : ℕ)).toRat = 1 := Dyadic.toRat_natCast 1
  rw [← hone]
  exact le_finite.trans Dyadic.toRat_le_toRat_iff.symm

lemma ofInt_le_one_iff {n : Int} : ofInt n ≤ 1 ↔ n ≤ 1 := by
  have hn : (Dyadic.ofInt n).toRat = n := Dyadic.toRat_intCast n
  rw [ofInt, finite_le_one_iff, hn]
  norm_cast

end Number

namespace Value

/-- The chances among the values, with the numbers that they denote: integers and floating-point
numbers from 0 to 1. -/
inductive GivesChance : Value → Number → Prop where
  | int {n : Int} (h₀ : 0 ≤ n) (h₁ : n ≤ 1) : GivesChance (.int n) (.ofInt n)
  | finite {x : Dyadic} (h₀ : 0 ≤ x.toRat) (h₁ : x.toRat ≤ 1) :
      GivesChance (.float (.finite x)) (.finite x)
  | negativeZero : GivesChance (.float .negativeZero) .negativeZero

lemma givesChance_float {x : Number} (h₀ : 0 ≤ x) (h₁ : x ≤ 1) : GivesChance (.float x) x := by
  cases x with
  | finite x => exact .finite (Number.zero_le_finite_iff.mp h₀) (Number.finite_le_one_iff.mp h₁)
  | negativeZero => exact .negativeZero
  | infinity negative =>
    cases negative with
    | true => exact absurd h₀ (by decide)
    | false => exact absurd h₁ (by decide)
  | nan => exact absurd h₀ (by decide)

lemma GivesChance.number? {v : Value} {x : Number} (h : GivesChance v x) :
    Probability.number? v = some x ∧ 0 ≤ x ∧ x ≤ 1 := by
  cases h with
  | int h₀ h₁ => exact ⟨rfl, Number.zero_le_ofInt_iff.mpr h₀, Number.ofInt_le_one_iff.mpr h₁⟩
  | finite h₀ h₁ =>
    exact ⟨rfl, Number.zero_le_finite_iff.mpr h₀, Number.finite_le_one_iff.mpr h₁⟩
  | negativeZero => exact ⟨rfl, by decide, by decide⟩

lemma givesChance_of_number? {v : Value} {x : Number} (h : Probability.number? v = some x)
    (h₀ : 0 ≤ x) (h₁ : x ≤ 1) : GivesChance v x := by
  cases v with
  | int n =>
    cases h
    exact .int (Number.zero_le_ofInt_iff.mp h₀) (Number.ofInt_le_one_iff.mp h₁)
  | float y =>
    cases h
    exact givesChance_float h₀ h₁
  | _ => cases h

end Value

lemma Probability.ofValue_eq_ok_iff {name : String} {v : Value} {p : Probability} :
    ofValue name v = .ok p ↔ v.GivesChance p.value := by
  constructor
  · intro h
    rw [ofValue] at h
    cases hv : number? v with
    | none =>
      rw [hv] at h
      cases h
    | some x =>
      simp only [hv] at h
      split at h
      · next hx =>
        cases h
        exact Value.givesChance_of_number? hv hx.1 hx.2
      · cases h
  · intro h
    obtain ⟨hv, hx⟩ := h.number?
    simp only [ofValue, hv, dif_pos hx]

lemma Probability.shown_of_ofValue {name : String} {v : Value} {e : SettingsError}
    (h : ofValue name v = .error e) : e.shown = [v] := by
  rw [ofValue] at h
  split at h
  · cases h
    rfl
  · split at h <;> cases h
    rfl

lemma Probability.same_self (p : Probability) : p.value.same p.value = true := by
  obtain ⟨x, h₀, h₁⟩ := p
  cases Value.givesChance_float h₀ h₁ <;> simp [Number.same]

namespace Settings

/-! ### Single settings -/

/-- A setting. -/
structure Field (β : Type) where
  name : String
  /-- What it is where it is not given. -/
  otherwise : β
  /-- How it is written. -/
  write : β → Value
  check : Value → Except SettingsError β
  /-- Which values give it. -/
  Gives : Value → β → Prop
  check_eq_ok_iff : ∀ {v x}, check v = .ok x ↔ Gives v x
  shown_of_check : ∀ {v e}, check v = .error e → e.shown = [v]
  gives_write : ∀ x, Gives (write x) x

lemma checkStrategy_eq_ok_iff {v : Value} {name : { name : Text.Content // !name.isEmpty }} :
    checkStrategy v = .ok name ↔ v = .ofContent name := by
  obtain ⟨name, hname⟩ := name
  rw [checkStrategy]
  constructor
  · intro h
    cases v with
    | text s =>
      simp only [Value.content?] at h
      split at h
      · cases h
        rfl
      · cases h
    | illFormed codes =>
      simp only [Value.content?] at h
      split at h
      · cases h
        rfl
      · cases h
    | _ => cases h
  · rintro rfl
    cases name with
    | string s => simp only [Value.ofContent, Value.content?, dif_pos hname]
    | illFormed codes => simp only [Value.ofContent, Value.content?, dif_pos hname]

lemma shown_of_checkStrategy {v : Value} {e : SettingsError} (h : checkStrategy v = .error e) :
    e.shown = [v] := by
  rw [checkStrategy] at h
  split at h
  · cases h
    rfl
  · split at h <;> cases h
    rfl

lemma checkSeed_eq_ok_iff {v : Value} {seed : Option Int} :
    checkSeed v = .ok seed ↔ v = seedValue seed := by
  constructor
  · intro h
    cases v with
    | null | int n =>
      cases h
      rfl
    | _ => cases h
  · rintro rfl
    cases seed <;> rfl

lemma shown_of_checkSeed {v : Value} {e : SettingsError} (h : checkSeed v = .error e) :
    e.shown = [v] := by
  cases v <;> cases h <;> rfl

/-- The name of the strategy is given by every text but the empty one. -/
def strategyField : Field { name : Text.Content // !name.isEmpty } where
  name := "strategy"
  otherwise := ⟨default.strategy, default.strategy_ne⟩
  write name := .ofContent name
  check := checkStrategy
  Gives v name := v = .ofContent name
  check_eq_ok_iff := checkStrategy_eq_ok_iff
  shown_of_check := shown_of_checkStrategy
  gives_write _ := rfl

/-- The seed is given by every integer, and none by nothing. -/
def seedField : Field (Option Int) where
  name := "seed"
  otherwise := default.seed
  write := seedValue
  check := checkSeed
  Gives v seed := v = seedValue seed
  check_eq_ok_iff := checkSeed_eq_ok_iff
  shown_of_check := shown_of_checkSeed
  gives_write _ := rfl

/-- A probability is given by the numbers from 0 to 1. -/
def chanceField (name : String) (otherwise : Probability) : Field Probability where
  name := name
  otherwise := otherwise
  write := Probability.toValue
  check := Probability.ofValue name
  Gives v p := v.GivesChance p.value
  check_eq_ok_iff := Probability.ofValue_eq_ok_iff
  shown_of_check := Probability.shown_of_ofValue
  gives_write p := Value.givesChance_float p.zero_le p.le_one

def thresholdField : Field Probability := chanceField "random_threshold" default.randomThreshold

def fallbackField : Field Probability :=
  chanceField "fallback_probability" default.fallbackProbability

namespace Field

variable {f : Field β} {entries : List (Value × Value)} {x : β}

/-- What a mapping says of a setting. -/
inductive Reads (f : Field β) (entries : List (Value × Value)) : β → Prop where
  | given {v : Value} {x : β} (hv : Outline.Given entries f.name v) (hx : f.Gives v x) :
      Reads f entries x
  | absent (h : ∀ e ∈ entries, e.1 ≠ .text f.name) : Reads f entries f.otherwise

/-- A mapping gives a setting a value of its kind, or none. -/
def Accepts (f : Field β) (entries : List (Value × Value)) : Prop :=
  ∀ v, Outline.Given entries f.name v → ∃ x, f.Gives v x

/-- The value that is checked for a setting. -/
def value (f : Field β) (entries : List (Value × Value)) : Value :=
  (Outline.field? entries f.name).getD (f.write f.otherwise)

lemma reads_of_field? {v : Value} (h : Outline.field? entries f.name = some v)
    (hx : f.Gives v x) : f.Reads entries x :=
  .given (Outline.field?_eq_some_iff.mp h) hx

lemma reads_otherwise (h : Outline.field? entries f.name = none) :
    f.Reads entries f.otherwise :=
  .absent (Outline.field?_eq_none_iff.mp h)

lemma reads_iff_of_field?_eq_none (h : Outline.field? entries f.name = none) :
    f.Reads entries x ↔ x = f.otherwise := by
  constructor
  · intro hx
    cases hx with
    | given hv _ =>
      rw [Outline.field?_eq_some_iff.mpr hv] at h
      cases h
    | absent _ => rfl
  · rintro rfl
    exact reads_otherwise h

lemma reads_iff_of_field?_eq_some {v : Value} (h : Outline.field? entries f.name = some v) :
    f.Reads entries x ↔ f.Gives v x := by
  constructor
  · intro hx
    cases hx with
    | given hv hx =>
      obtain rfl := Option.some.inj (h.symm.trans (Outline.field?_eq_some_iff.mpr hv))
      exact hx
    | absent hv =>
      rw [Outline.field?_eq_none_iff.mpr hv] at h
      cases h
  · exact reads_of_field? h

lemma check_value_eq_ok_iff : f.check (f.value entries) = .ok x ↔ f.Reads entries x := by
  rw [value]
  cases h : Outline.field? entries f.name with
  | none =>
    -- the default is of the kind of its setting
    have hdefault : f.check (f.write f.otherwise) = .ok f.otherwise :=
      f.check_eq_ok_iff.mpr (f.gives_write f.otherwise)
    rw [Option.getD_none, hdefault, reads_iff_of_field?_eq_none h, Except.ok.injEq, eq_comm]
  | some v => rw [Option.getD_some, f.check_eq_ok_iff, reads_iff_of_field?_eq_some h]

lemma accepts_iff : f.Accepts entries ↔ ∃ x, f.Reads entries x := by
  simp only [Accepts, ← Outline.field?_eq_some_iff]
  cases h : Outline.field? entries f.name with
  | none => simp [reads_iff_of_field?_eq_none h]
  | some v => simp [reads_iff_of_field?_eq_some h]

end Field

/-! ### Mappings -/

variable {depth : Nat} {entries : List (Value × Value)} {c : Settings}

/-- All keys are names of settings. -/
def KnownKeys (entries : List (Value × Value)) : Prop :=
  ∀ e ∈ entries, ∃ name ∈ fieldNames, e.1 = .text name

/-- A mapping may stand for settings: it has no unknown keys, and every setting that it gives is of
its kind. -/
structure Acceptable (entries : List (Value × Value)) : Prop where
  keys : KnownKeys entries
  strategy : strategyField.Accepts entries
  seed : seedField.Accepts entries
  randomThreshold : thresholdField.Accepts entries
  fallbackProbability : fallbackField.Accepts entries

/-- What a mapping gives is what the settings are, and what it does not give is as by default. -/
structure Describes (entries : List (Value × Value)) (c : Settings) : Prop where
  keys : KnownKeys entries
  strategy : strategyField.Reads entries ⟨c.strategy, c.strategy_ne⟩
  seed : seedField.Reads entries c.seed
  randomThreshold : thresholdField.Reads entries c.randomThreshold
  fallbackProbability : fallbackField.Reads entries c.fallbackProbability

lemma acceptable_iff : Acceptable entries ↔ ∃ c, Describes entries c := by
  constructor
  · intro h
    obtain ⟨⟨name, hname⟩, hstrategy⟩ := Field.accepts_iff.mp h.strategy
    obtain ⟨seed, hseed⟩ := Field.accepts_iff.mp h.seed
    obtain ⟨p, hp⟩ := Field.accepts_iff.mp h.randomThreshold
    obtain ⟨q, hq⟩ := Field.accepts_iff.mp h.fallbackProbability
    exact ⟨⟨name, hname, seed, p, q⟩, h.keys, hstrategy, hseed, hp, hq⟩
  · rintro ⟨c, h⟩
    exact ⟨h.keys, Field.accepts_iff.mpr ⟨_, h.strategy⟩, Field.accepts_iff.mpr ⟨_, h.seed⟩,
      Field.accepts_iff.mpr ⟨_, h.randomThreshold⟩,
      Field.accepts_iff.mpr ⟨_, h.fallbackProbability⟩⟩

lemma ofKnown_eq (entries : List (Value × Value)) :
    ofKnown id entries = do
      let name ← strategyField.check (strategyField.value entries)
      let seed ← seedField.check (seedField.value entries)
      let p ← thresholdField.check (thresholdField.value entries)
      let q ← fallbackField.check (fallbackField.value entries)
      return ⟨name.1, name.2, seed, p, q⟩ := by
  simp only [ofKnown, Option.map_id, id_eq]
  rfl

lemma ofKnown_eq_ok_iff : ofKnown id entries = .ok c ↔
    strategyField.Reads entries ⟨c.strategy, c.strategy_ne⟩ ∧ seedField.Reads entries c.seed ∧
      thresholdField.Reads entries c.randomThreshold ∧
      fallbackField.Reads entries c.fallbackProbability := by
  simp only [ofKnown_eq, bind_eq_ok_iff, Field.check_value_eq_ok_iff]
  constructor
  · rintro ⟨name, hname, seed, hseed, p, hp, q, hq, h⟩
    cases h
    exact ⟨hname, hseed, hp, hq⟩
  · rintro ⟨hname, hseed, hp, hq⟩
    exact ⟨_, hname, _, hseed, _, hp, _, hq, rfl⟩

lemma unknownKeys_eq_nil_iff : unknownKeys entries = [] ↔ KnownKeys entries := by
  simp only [unknownKeys, List.filter_eq_nil_iff, List.forall_mem_map, Bool.not_eq_true',
    Bool.not_eq_false, List.any_eq_true, Value.sameKey_text_iff]
  rfl

lemma ofOutline_of_knownKeys (h : KnownKeys entries) : ofOutline depth id (.mapping entries) =
    (ofKnown id entries).mapError (SettingsError.toFailure depth) := by
  rw [ofOutline, unknownKeys_eq_nil_iff.mpr h, Value.sortKeys?_nil]

lemma knownKeys_of_ofOutline {o : Outline Value} (h : ofOutline depth id o = .ok c) :
    ∃ entries, o = .mapping entries ∧ KnownKeys entries := by
  cases o with
  | mapping entries =>
    refine ⟨entries, rfl, unknownKeys_eq_nil_iff.mp ?_⟩
    rw [ofOutline] at h
    split at h
    · cases h
    · next hs => exact Value.eq_nil_of_sortKeys? hs
    · cases h
  | nothing | other _ _ => cases h

lemma ofOutline_eq_ok_iff {o : Outline Value} :
    ofOutline depth id o = .ok c ↔ ∃ entries, o = .mapping entries ∧ Describes entries c := by
  constructor
  · intro h
    obtain ⟨entries, rfl, hkeys⟩ := knownKeys_of_ofOutline h
    rw [ofOutline_of_knownKeys hkeys, mapError_eq_ok_iff, ofKnown_eq_ok_iff] at h
    obtain ⟨hname, hseed, hp, hq⟩ := h
    exact ⟨entries, rfl, hkeys, hname, hseed, hp, hq⟩
  · rintro ⟨entries, rfl, h⟩
    rw [ofOutline_of_knownKeys h.keys, mapError_eq_ok_iff, ofKnown_eq_ok_iff]
    exact ⟨h.strategy, h.seed, h.randomThreshold, h.fallbackProbability⟩

lemma outline_eq_mapping_iff {v : Value} : v.outline = .mapping entries ↔ v = .mapping entries := by
  cases v <;> simp [Value.outline]

lemma ofValue_eq_ok_iff {v : Value} :
    ofValue depth v = .ok c ↔ ∃ entries, v = .mapping entries ∧ Describes entries c := by
  simp only [ofValue, ofOutline_eq_ok_iff, outline_eq_mapping_iff]

/-! ### Writing -/

/-- Settings are as the mapping says that they are written as. -/
lemma describes_fields (c : Settings) :
    Describes (c.fields.map fun f => (.text f.1, f.2)) c where
  keys := by
    intro e he
    obtain ⟨f, hf, rfl⟩ := List.mem_map.mp he
    have hname : f.1 ∈ c.fields.map Prod.fst := List.mem_map_of_mem hf
    exact ⟨f.1, hname, rfl⟩
  strategy := Field.reads_of_field? rfl (strategyField.gives_write ⟨c.strategy, c.strategy_ne⟩)
  seed := Field.reads_of_field? rfl (seedField.gives_write _)
  randomThreshold := Field.reads_of_field? rfl (thresholdField.gives_write _)
  fallbackProbability := Field.reads_of_field? rfl (fallbackField.gives_write _)

lemma same_self (c : Settings) : c.same c = true := by
  simp [same, Probability.same_self]

/-- **Exactly the mappings of valid settings are accepted, for what they give.** A value is accepted
if and only if it is a mapping, all of its keys are names of settings, and it gives to each setting
nothing or a value of its kind: to the strategy a text that is not empty, to the seed an integer or
nothing at all, to a probability a number from 0 to 1. The settings are then as given, with the
numbers that the probabilities denote, and as by default where nothing is given. Whatever settings
are written as is accepted, and gives the same settings again. None of this depends on how deeply
nested collections can be shown. -/
theorem ofValue_accepts (depth : Nat) (data : Value) :
    ((∃ c, ofValue depth data = .ok c) ↔
      ∃ entries, data = .mapping entries ∧ Acceptable entries) ∧
    (∀ c, ofValue depth data = .ok c ↔ ∃ entries, data = .mapping entries ∧ Describes entries c) ∧
    ∀ c : Settings, ofValue depth c.toValue = .ok c ∧ c.same c = true := by
  refine ⟨?_, fun c => ofValue_eq_ok_iff, fun c => ⟨?_, c.same_self⟩⟩
  · simp only [ofValue_eq_ok_iff, acceptable_iff]
    constructor
    · rintro ⟨c, entries, hdata, h⟩
      exact ⟨entries, hdata, c, h⟩
    · rintro ⟨entries, hdata, c, h⟩
      exact ⟨c, entries, hdata, h⟩
  · exact ofValue_eq_ok_iff.mpr ⟨_, rfl, c.describes_fields⟩

/-- A negative zero is a chance and stays negative, and an integer becomes the number it denotes. -/
example :
    ((ofValue 1 (.mapping [(.text "random_threshold", .float .negativeZero),
      (.text "fallback_probability", .int 1)])).toOption.map fun c =>
        (c.randomThreshold.value, c.fallbackProbability.value)) = some (.negativeZero, 1) := by
  decide +kernel

end Settings

end GrammarCoverage
