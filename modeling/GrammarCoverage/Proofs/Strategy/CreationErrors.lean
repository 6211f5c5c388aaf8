import GrammarCoverage.Proofs.Settings.Acceptance
import GrammarCoverage.Proofs.Strategy.Registration

/-!
# Errors of making strategies

To make the strategy of a name should fail for a name that is not registered, for a missing crawler,
and as the class of the name fails (`Registry.Promised`). It does so with one exception: a class
that is registered under the empty name, and is asked for without settings. The default settings
cannot hold that name, and the refusal of the name is passed on as it is.
-/

namespace GrammarCoverage

/-- A refusal for settings, with or without the name of a strategy. -/
inductive BuildError.IsOfSettings : BuildError → Prop where
  | settings (e : SettingsError) : IsOfSettings (.settings e)
  | refused (name reason : String) : IsOfSettings (.refused name reason)

/-- A class fails for nothing but settings. -/
def StrategyClass.FailsBySettings (c : StrategyClass) : Prop :=
  ∀ crawler? g settings e, c.build crawler? g settings = .error e → e.IsOfSettings

namespace Settings

lemma forStrategy_empty : forStrategy "" = .error (.badStrategy (.text "")) :=
  rfl

/-- The defaults hold every name but the empty one. -/
lemma forStrategy_cases (name : String) : name = "" ∨
    ∃ h, forStrategy name = .ok { default with strategy := .string name, strategy_ne := h } := by
  by_cases hname : name = ""
  · exact .inl hname
  · have hempty : !(Text.Content.string name).isEmpty := by
      simpa [Text.Content.isEmpty] using hname
    refine .inr ⟨hempty, ?_⟩
    rw [forStrategy, ofKnown_eq_ok_iff]
    exact ⟨Field.reads_of_field? rfl rfl, Field.reads_otherwise rfl, Field.reads_otherwise rfl,
      Field.reads_otherwise rfl⟩

end Settings

namespace Registry

variable {r : Registry} {name : String} {crawler? : Option Crawler} {source? : Option Generator}
  {settings? : Option Settings} {settings : Settings} {c : StrategyClass}
  {outcome : Except RegistryError Made}

/-- The settings that the strategy of a name is made with: those that are given, or else the
defaults under that name. -/
inductive Chosen (name : String) : Option Settings → Settings → Prop where
  | given (settings : Settings) : Chosen name (some settings) settings
  | byName (h : !(Text.Content.string name).isEmpty) :
      Chosen name none { Settings.default with strategy := .string name, strategy_ne := h }

lemma chosen_of_settingsFor (h : settingsFor name settings? = .ok settings) :
    Chosen name settings? settings := by
  cases settings? with
  | some given =>
    cases h
    exact .given settings
  | none =>
    rw [settingsFor, mapError_eq_ok_iff] at h
    rcases Settings.forStrategy_cases name with rfl | ⟨hname, hok⟩
    · rw [Settings.forStrategy_empty] at h
      cases h
    · obtain rfl := Except.ok.inj (hok.symm.trans h)
      exact .byName hname

/-- What making the strategy of a name may come to. -/
inductive Promised (r : Registry) (name : String) (crawler? : Option Crawler)
    (source? : Option Generator) (settings? : Option Settings) :
    Except RegistryError Made → Prop where
  | notFound (hname : name ∉ r.names) :
      Promised r name crawler? source? settings? (.error (.notFound (.string name) r.names))
  | crawlerMissing {c : StrategyClass} (hc : r.get name = .ok c)
      (hr : c.requiresCrawler = true) (hn : crawler? = none) :
      Promised r name crawler? source? settings? (.error (.refused name "a crawler is required"))
  /-- A refusal of the class that names a strategy is passed on. -/
  | passedOn {c : StrategyClass} {settings : Settings} {other reason : String}
      (hc : r.get name = .ok c) (hr : c.requiresCrawler = true → crawler?.isSome)
      (hs : Chosen name settings? settings)
      (hb : c.build crawler? (source?.getD settings.generator) settings =
        .error (.refused other reason)) :
      Promised r name crawler? source? settings? (.error (.refused other reason))
  /-- Any other refusal becomes one of the name, with the same text. -/
  | named {c : StrategyClass} {settings : Settings} {e : SettingsError}
      (hc : r.get name = .ok c) (hr : c.requiresCrawler = true → crawler?.isSome)
      (hs : Chosen name settings? settings)
      (hb : c.build crawler? (source?.getD settings.generator) settings = .error (.settings e)) :
      Promised r name crawler? source? settings? (.error (.refused name e.message))
  | made {c : StrategyClass} {settings : Settings} {strategy : Strategy Generator}
      (hc : r.get name = .ok c) (hr : c.requiresCrawler = true → crawler?.isSome)
      (hs : Chosen name settings? settings)
      (hb : c.build crawler? (source?.getD settings.generator) settings = .ok strategy) :
      Promised r name crawler? source? settings? (.ok ⟨c.name, strategy⟩)

/-- A strategy is to be made under the empty name, by default settings. -/
structure Nameless (r : Registry) (name : String) (crawler? : Option Crawler)
    (settings? : Option Settings) : Prop where
  name_eq : name = ""
  settings?_eq : settings? = none
  /-- The name is registered, and no crawler is missing. -/
  class_exists : ∃ c, r.get name = .ok c ∧ (c.requiresCrawler = true → crawler?.isSome)

lemma not_mem_names_iff : name ∉ r.names ↔ r.classes.get? name = none := by
  rw [mem_names_iff, contains, OrderedMap.contains_eq_isSome, Option.not_isSome_iff_eq_none]

lemma create_of_nameless (h : r.Nameless name crawler? settings?) :
    r.create name crawler? source? settings? = .error (.settings (.badStrategy (.text ""))) := by
  obtain ⟨rfl, rfl, c, hc, hr⟩ := h
  rw [get_eq_ok_iff] at hc
  have hway := r.creates_create "" crawler? source? none
  generalize r.create "" crawler? source? none = outcome at hway ⊢
  cases hway with
  | notFound hc' =>
    rw [hc'] at hc
    cases hc
  | crawlerMissing hc' hr' hn =>
    obtain rfl := Option.some.inj (hc.symm.trans hc')
    subst hn
    cases hr hr'
  | unsettled _ _ _ he =>
    rw [Settings.forStrategy_empty] at he
    cases he
    rfl
  | failed _ _ hs _ | made _ _ hs _ => cases hs

lemma promised_create (hclass : ∀ c, r.get name = .ok c → c.FailsBySettings)
    (h : ¬ r.Nameless name crawler? settings?) :
    r.Promised name crawler? source? settings? (r.create name crawler? source? settings?) := by
  have hway := r.creates_create name crawler? source? settings?
  generalize r.create name crawler? source? settings? = outcome at hway ⊢
  cases hway with
  | notFound hc => exact .notFound (not_mem_names_iff.mpr hc)
  | crawlerMissing hc hr hn => exact .crawlerMissing (get_eq_ok_iff.mpr hc) hr hn
  | unsettled hc hr hs he =>
    rcases Settings.forStrategy_cases name with rfl | ⟨hname, hok⟩
    · exact absurd ⟨rfl, hs, _, get_eq_ok_iff.mpr hc, hr⟩ h
    · rw [hok] at he
      cases he
  | failed hc hr hs hb =>
    have hget := get_eq_ok_iff.mpr hc
    cases hclass _ hget _ _ _ _ hb with
    | settings e => exact .named hget hr (chosen_of_settingsFor hs) hb
    | refused other reason => exact .passedOn hget hr (chosen_of_settingsFor hs) hb
  | made hc hr hs hb => exact .made (get_eq_ok_iff.mpr hc) hr (chosen_of_settingsFor hs) hb

lemma Promised.ne_settings (h : r.Promised name crawler? source? settings? outcome)
    (e : SettingsError) : outcome ≠ .error (.settings e) := by
  cases h <;> simp

lemma create_eq_notFound_iff : (∃ n available,
      r.create name crawler? source? settings? = .error (.notFound n available)) ↔
    name ∉ r.names := by
  rw [not_mem_names_iff]
  have hway := r.creates_create name crawler? source? settings?
  generalize r.create name crawler? source? settings? = outcome at hway
  cases hway with
  | notFound hc => exact iff_of_true ⟨_, _, rfl⟩ hc
  | crawlerMissing hc _ _ | unsettled hc _ _ _ | made hc _ _ _ => simp [hc]
  | @failed _ _ e hc _ _ _ => cases e <;> simp [hc, wrap]

/-- **Making a strategy fails as promised, but for the empty name.** Where the class of a name fails
for nothing but its settings, to make the strategy of the name comes to what is promised, whatever
is given along, unless the name is the empty one, is registered, lacks no crawler, and no settings
are given. Then the refusal of the name comes out as it is, not as one of the strategy. Only a name
that is not registered is not found. -/
theorem promised_create_iff (r : Registry) (name : String) (crawler? : Option Crawler)
    (source? : Option Generator) (settings? : Option Settings)
    (hclass : ∀ c, r.get name = .ok c → c.FailsBySettings) :
    (r.Promised name crawler? source? settings? (r.create name crawler? source? settings?) ↔
      ¬ r.Nameless name crawler? settings?) ∧
    (r.Nameless name crawler? settings? → r.create name crawler? source? settings? =
      .error (.settings (.badStrategy (.text "")))) ∧
    ((∃ n available, r.create name crawler? source? settings? =
      .error (.notFound n available)) ↔ name ∉ r.names) := by
  refine ⟨⟨fun hpromised hnameless => ?_, promised_create hclass⟩, create_of_nameless,
    create_eq_notFound_iff⟩
  exact hpromised.ne_settings _ (create_of_nameless hnameless)

/-- A class without a strategy for any settings. -/
def reluctant : StrategyClass where
  name := "Reluctant"
  requiresCrawler := false
  plain? _ := none
  build _ _ _ := .error (.settings (.other "not today"))

lemma failsBySettings_reluctant : reluctant.FailsBySettings := by
  rintro _ _ _ e ⟨⟩
  exact .settings _

lemma failsBySettings_full : StrategyClass.full.FailsBySettings := by
  rintro _ _ _ e ⟨⟩

/-- A registry whose first class is never made, and whose second one has the empty name. -/
def pair : Registry := empty.performAll [.attempt (.register "late" (.strategyClass reluctant)),
  .attempt (.register "" (.strategyClass .full))]

lemma failsBySettings_of_get_pair (h : pair.get name = .ok c) : c.FailsBySettings := by
  rw [get_eq_ok_iff] at h
  change ((OrderedMap.empty.insert "late" reluctant).insert "" .full).get? name = some c at h
  rw [OrderedMap.get?_insert, OrderedMap.get?_insert] at h
  split at h
  · exact Option.some.inj h ▸ failsBySettings_full
  · split at h
    · exact Option.some.inj h ▸ failsBySettings_reluctant
    · cases h

theorem promised_create_iff_pair :
    (∀ c, pair.get "late" = .ok c → c.FailsBySettings) ∧
    pair.Promised "late" none none none (pair.create "late" none none none) ∧
    pair.create "late" none none none = .error (.refused "late" "not today") := by
  have hclass : ∀ c, pair.get "late" = .ok c → c.FailsBySettings :=
    fun c hc => failsBySettings_of_get_pair hc
  refine ⟨hclass, ?_, rfl⟩
  rw [(promised_create_iff pair "late" none none none hclass).1]
  intro h
  exact absurd h.name_eq (by decide)

/-- Under the empty name even a class that never fails does not keep the promise. -/
theorem not_promised_create_pair :
    (∀ c, pair.get "" = .ok c → c.FailsBySettings) ∧ "" ∈ pair.names ∧
    ¬ pair.Promised "" none none none (pair.create "" none none none) ∧
    pair.create "" none none none = .error (.settings (.badStrategy (.text ""))) := by
  have herror : pair.create "" none none none = .error (.settings (.badStrategy (.text ""))) := rfl
  exact ⟨fun c hc => failsBySettings_of_get_pair hc, mem_names_iff.mpr rfl,
    fun h => h.ne_settings _ herror, herror⟩

end Registry

end GrammarCoverage
