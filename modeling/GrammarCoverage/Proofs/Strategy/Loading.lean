import GrammarCoverage.Strategy.Registry
import Mathlib

/-!
# How entry points load

What the loading of one entry point comes to, as a relation with one rule for each way in which it
can go (`Registry.Loads`). Most of what can go wrong is passed over. What is not
(`Registry.EntryPoint.Stops`) ends the loading, with the registry that the entry points before have
left (`Registry.exists_stops_of_failure`).
-/

namespace GrammarCoverage

namespace Registry

/-- An entry point stops the loading with an error, given which names are free. Its name cannot be
looked for; or the name is free, and then it asks the program to end, or it offers what is refused
but cannot be shown. -/
inductive EntryPoint.Stops (free : String → Prop) (e : EntryPoint) (error : ForeignError) :
    Prop where
  | nameless (hn : e.name = .error error)
  | exits {name : String} (hn : e.name = .ok name) (h : free name) (he : e.load = .error error)
      (hf : error.family = .exit)
  | unshowable {name : String} (hn : e.name = .ok name) (h : free name)
      (he : e.load = .ok (.other (.error error))) (hf : error.family ≠ .refusal)

/-- The ways in which the loading of one entry point can go. -/
inductive Loads (group : String) (l : Loading) (e : EntryPoint) : Loading → Prop where
  | ended {error : RegistryError} (hl : l.failure? = some error) : Loads group l e l
  | stopped {error : ForeignError} (asked : List String) (hl : l.failure? = none)
      (h : e.Stops (l.registry.contains · = false) error) :
      Loads group l e ⟨l.registry, l.events, asked, some (.foreign error)⟩
  | taken {name : String} (hl : l.failure? = none) (hn : e.name = .ok name)
      (h : l.registry.contains name = true) :
      Loads group l e ⟨l.registry, l.events ++ [.entryPointTaken name], l.asked, none⟩
  | failed {name : String} {error : ForeignError} (hl : l.failure? = none)
      (hn : e.name = .ok name) (h : l.registry.contains name = false)
      (he : e.load = .error error) (hf : error.family ≠ .exit) :
      Loads group l e
        ⟨l.registry, l.events ++ [.entryPointFailed name group], l.asked ++ [name], none⟩
  | rejected {name : String} {shown : Except ForeignError String} (hl : l.failure? = none)
      (hn : e.name = .ok name) (h : l.registry.contains name = false)
      (he : e.load = .ok (.other shown))
      (hs : ∀ error, shown = .error error → error.family = .refusal) :
      Loads group l e
        ⟨l.registry, l.events ++ [.entryPointRejected name], l.asked ++ [name], none⟩
  | registered {name : String} {c : StrategyClass} (hl : l.failure? = none)
      (hn : e.name = .ok name) (h : l.registry.contains name = false)
      (he : e.load = .ok (.strategyClass c)) :
      Loads group l e ⟨⟨l.registry.classes.insert name c⟩, l.events ++ [.registered name c.name],
        l.asked ++ [name], none⟩

variable {r : Registry} {group : String} {l l' : Loading} {e : EntryPoint}
  {entryPoints : List EntryPoint}

lemma EntryPoint.Stops.imp {free free' : String → Prop} {error : ForeignError}
    (h : e.Stops free error) (hfree : ∀ name, free name → free' name) : e.Stops free' error := by
  cases h with
  | nameless hn => exact .nameless hn
  | exits hn h he hf => exact .exits hn (hfree _ h) he hf
  | unshowable hn h he hf => exact .unshowable hn (hfree _ h) he hf

lemma loads_loadEntryPoint (group : String) (l : Loading) (e : EntryPoint) :
    Loads group l e (loadEntryPoint group l e) := by
  rw [loadEntryPoint]
  obtain ⟨r, events, asked, failure?⟩ := l
  cases failure? with
  | some error => exact .ended rfl
  | none =>
    simp only [Option.isSome_none, Bool.false_eq_true, if_false]
    cases hn : e.name with
    | error error => exact .stopped _ rfl (.nameless hn)
    | ok name =>
      by_cases h : r.contains name = true
      · simp only [if_pos h]
        exact .taken rfl hn h
      · simp only [if_neg h]
        have h := Bool.eq_false_of_not_eq_true h
        cases he : e.load with
        | error error =>
          by_cases hf : error.family = .exit
          · simp only [if_pos hf]
            exact .stopped _ rfl (.exits hn h he hf)
          · simp only [if_neg hf]
            exact .failed rfl hn h he hf
        | ok candidate =>
          cases candidate with
          | strategyClass c =>
            simp only [register, h]
            exact .registered rfl hn h he
          | other shown =>
            cases shown with
            | ok shown =>
              simp only [register, h]
              exact .rejected rfl hn h he fun _ hs => nomatch hs
            | error error =>
              simp only [register, h, Bool.false_eq_true, if_false]
              by_cases hf : error.family = .refusal
              · have hr : (RegistryError.foreign error).isRefusal = true := decide_eq_true hf
                simp only [hr, if_true]
                refine .rejected rfl hn h he fun _ hs => ?_
                cases hs
                exact hf
              · have hr : (RegistryError.foreign error).isRefusal = false := decide_eq_false hf
                simp only [hr, Bool.false_eq_true, if_false]
                exact .stopped _ rfl (.unshowable hn h he hf)

lemma loadEntryPoints_concat (r : Registry) (group : String) (entryPoints : List EntryPoint)
    (e : EntryPoint) :
    Loads group (r.loadEntryPoints group entryPoints) e
      (r.loadEntryPoints group (entryPoints ++ [e])) := by
  rw [loadEntryPoints, loadEntryPoints, List.foldl_append]
  exact loads_loadEntryPoint group _ e

/-- What stops the loading at an entry point whose name can be looked for. -/
lemma EntryPoint.stops_iff {free : String → Prop} {name : String} {error : ForeignError}
    (hn : e.name = .ok name) : e.Stops free error ↔ free name ∧
      (e.load = .error error ∧ error.family = .exit ∨
        e.load = .ok (.other (.error error)) ∧ error.family ≠ .refusal) := by
  constructor
  · intro h
    cases h with
    | nameless hn' => cases hn.symm.trans hn'
    | exits hn' h he hf =>
      cases hn.symm.trans hn'
      exact ⟨h, .inl ⟨he, hf⟩⟩
    | unshowable hn' h he hf =>
      cases hn.symm.trans hn'
      exact ⟨h, .inr ⟨he, hf⟩⟩
  · rintro ⟨h, ⟨he, hf⟩ | ⟨he, hf⟩⟩
    · exact .exits hn h he hf
    · exact .unshowable hn h he hf

/-- An entry point goes on with the loading exactly if it has not ended, and the entry point does
not stop it. -/
lemma Loads.failure?_eq_none_iff (h : Loads group l e l') :
    l'.failure? = none ↔
      l.failure? = none ∧ ∀ error, ¬ e.Stops (l.registry.contains · = false) error := by
  cases h with
  | ended hl => simp [hl]
  | stopped asked hl h => simpa using fun _ => ⟨_, h⟩
  | taken hl hn h => simp [hl, EntryPoint.stops_iff hn, h]
  | failed hl hn h he hf => simpa [hl, EntryPoint.stops_iff hn, h, he] using hf
  | rejected hl hn h he hs => simpa [hl, EntryPoint.stops_iff hn, h, he] using hs
  | registered hl hn h he => simp [hl, EntryPoint.stops_iff hn, he]

/-- A loading that has ended was stopped by one of the entry points, and has come to what those
before it come to. -/
lemma exists_stops_of_failure {failure : RegistryError}
    (h : (r.loadEntryPoints group entryPoints).failure? = some failure) :
    ∃ before e rest error, entryPoints = before ++ e :: rest ∧
      (r.loadEntryPoints group before).failure? = none ∧
      e.Stops ((r.loadEntryPoints group before).registry.contains · = false) error ∧
      failure = .foreign error ∧
      (r.loadEntryPoints group entryPoints).registry =
        (r.loadEntryPoints group before).registry := by
  induction entryPoints using List.reverseRecOn with
  | nil => cases h
  | append_singleton entryPoints e ih =>
    have hway := loadEntryPoints_concat r group entryPoints e
    generalize r.loadEntryPoints group (entryPoints ++ [e]) = l at h hway
    cases hway with
    | ended hl =>
      obtain ⟨before, e', rest, error, rfl, hstops⟩ := ih h
      exact ⟨before, e', rest ++ [e], error, by simp, hstops⟩
    | stopped asked hl hs =>
      cases h
      exact ⟨entryPoints, e, [], _, rfl, hl, hs, rfl, rfl⟩
    | taken _ _ _ | failed _ _ _ _ _ | rejected _ _ _ _ _ | registered _ _ _ _ => cases h

end Registry

end GrammarCoverage
