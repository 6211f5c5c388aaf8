import GrammarCoverage.Proofs.Strategy.Registration

/-!
# What entry points register

Entry points are loaded one after the other, and the registry that decides whether one is asked to
load is the one that those before it have left. In the end a name means what it meant before, or
else the first class that the list offers under it (`Registry.get?_loadEntryPoints`); an entry point
that fails or is refused does not stand in the way of a later one, unless it stops the loading. Once
all of them have been loaded none has anything left to register
(`Registry.registry_loadEntryPoints_of_settled`).
-/

namespace GrammarCoverage

namespace Registry

/-- The class that an entry point offers under a name, if it has that name and loads to a class. -/
def EntryPoint.offer? (name : String) (e : EntryPoint) : Option StrategyClass :=
  match e.name, e.load with
  | .ok other, .ok (.strategyClass c) => if other = name then some c else none
  | _, _ => none

/-- The first class that is offered under a name, in the order of the list. -/
def FirstOffer (entryPoints : List EntryPoint) (name : String) (c : StrategyClass) : Prop :=
  ∃ before e after, entryPoints = before ++ e :: after ∧ e.offer? name = some c ∧
    ∀ e' ∈ before, e'.offer? name = none

/-- A name is free after some entry points if it is not registered, and none of them offers a class
under it. -/
def FreeAfter (r : Registry) (before : List EntryPoint) (name : String) : Prop :=
  name ∉ r.names ∧ ∀ e ∈ before, e.offer? name = none

/-- Loading entry points as it should go: it returns, with the first class offered under each free
name, and nothing else, added to the registry. -/
structure LoadsAll (r : Registry) (group : String) (entryPoints : List EntryPoint) : Prop where
  returns : ∃ events,
    (r.perform (.loadEntryPoints group entryPoints)).outcome = .ok (.done events)
  keeps : ∀ name c, r.get name = .ok c →
    (r.perform (.loadEntryPoints group entryPoints)).registry.get name = .ok c
  adds : ∀ name, name ∉ r.names →
    (name ∈ (r.perform (.loadEntryPoints group entryPoints)).registry.names ↔
      ∃ e ∈ entryPoints, ∃ c, e.name = .ok name ∧ e.load = .ok (.strategyClass c)) ∧
    ∀ c, (r.perform (.loadEntryPoints group entryPoints)).registry.get name = .ok c ↔
      FirstOffer entryPoints name c
  /-- An entry point is asked to load exactly if its name is free in the registry that those before
  it have left. -/
  asks : ∀ before e rest name, entryPoints = before ++ e :: rest → e.name = .ok name →
    let now := r.loadEntryPoints group before
    (r.loadEntryPoints group (before ++ [e])).asked =
        now.asked ++ (if now.registry.contains name then [] else [name]) ∧
      (r.loadEntryPoints group (before ++ [e])).asked <+:
        (r.loadEntryPoints group entryPoints).asked
  /-- To load the same list again changes nothing. -/
  again : ∀ group', ∃ events,
    (r.perform (.loadEntryPoints group entryPoints)).registry.perform
        (.loadEntryPoints group' entryPoints) =
      ⟨.ok (.done events), (r.perform (.loadEntryPoints group entryPoints)).registry⟩

variable {r : Registry} {group : String} {l l' : Loading} {e : EntryPoint} {name : String}
  {c : StrategyClass} {entryPoints before after : List EntryPoint} {error : ForeignError}

/-! ### One entry point -/

lemma EntryPoint.offer?_eq_some_iff :
    e.offer? name = some c ↔ e.name = .ok name ∧ e.load = .ok (.strategyClass c) := by
  rw [offer?]
  split
  · next other c' hn he => simp [hn, he]
  · next h => simpa using fun hn he => h name c hn he

/-- What a name means already goes before what an entry point offers under it. -/
lemma Loads.get? (h : Loads group l e l') (hl' : l'.failure? = none) (name : String) :
    l'.registry.classes.get? name = (l.registry.classes.get? name).or (e.offer? name) := by
  cases h with
  | ended hl => simp [hl'] at hl
  | stopped _ _ _ => cases hl'
  | @taken other _ hn h =>
    cases hc : l.registry.classes.get? name with
    | some c => rfl
    | none =>
      cases ho : e.offer? name with
      | none => rfl
      | some c =>
        rw [(EntryPoint.offer?_eq_some_iff.mp ho).1] at hn
        cases hn
        simp [contains, OrderedMap.contains_eq_isSome, hc] at h
  | failed _ hn h he _ | rejected _ hn h he _ => simp [EntryPoint.offer?, hn, he]
  | @registered other c _ hn h he =>
    have h : l.registry.classes.get? other = none := by
      simpa [contains, OrderedMap.contains_eq_isSome] using h
    simp only [OrderedMap.get?_insert, EntryPoint.offer?, hn, he]
    split
    · next hname => simp [← hname, h]
    · simp

lemma Loads.asked (h : Loads group l e l') (hl' : l'.failure? = none) (hn : e.name = .ok name) :
    l'.asked = l.asked ++ if l.registry.contains name then [] else [name] := by
  cases h with
  | ended hl => simp [hl'] at hl
  | stopped _ _ _ => cases hl'
  | taken _ hn' h | failed _ hn' h _ _ | rejected _ hn' h _ _ | registered _ hn' h _ =>
    cases hn.symm.trans hn'
    simp [h]

lemma Loads.asked_mono (h : Loads group l e l') (hl' : l'.failure? = none) :
    l.asked <+: l'.asked := by
  cases h with
  | ended _ | taken _ _ _ => exact List.prefix_rfl
  | stopped _ _ _ => cases hl'
  | failed _ _ _ _ _ | rejected _ _ _ _ _ | registered _ _ _ _ => exact List.prefix_append _ _

/-- An entry point is settled if it does not stop the loading, and offers no class under a free
name. -/
def Settled (r : Registry) (e : EntryPoint) : Prop :=
  (∀ error, ¬ e.Stops (r.contains · = false) error) ∧
    ∀ name c, e.offer? name = some c → r.contains name = true

lemma Loads.of_settled (h : Loads group l e l') (hl : l.failure? = none)
    (hs : l.registry.Settled e) : l'.failure? = none ∧ l'.registry = l.registry := by
  refine ⟨h.failure?_eq_none_iff.mpr ⟨hl, hs.1⟩, ?_⟩
  cases h with
  | ended _ | stopped _ _ _ | taken _ _ _ | failed _ _ _ _ _ | rejected _ _ _ _ _ => rfl
  | registered _ hn h he =>
    have htaken := hs.2 _ _ (EntryPoint.offer?_eq_some_iff.mpr ⟨hn, he⟩)
    simp [h] at htaken

/-! ### A list of entry points -/

lemma failure?_of_concat (h : (r.loadEntryPoints group (entryPoints ++ [e])).failure? = none) :
    (r.loadEntryPoints group entryPoints).failure? = none :=
  ((loadEntryPoints_concat r group entryPoints e).failure?_eq_none_iff.mp h).1

lemma get?_loadEntryPoints (h : (r.loadEntryPoints group entryPoints).failure? = none)
    (name : String) :
    (r.loadEntryPoints group entryPoints).registry.classes.get? name =
      (r.classes.get? name).or (entryPoints.findSome? (·.offer? name)) := by
  -- from the end, since the last entry point finds the registry that the others have left
  induction entryPoints using List.reverseRecOn with
  | nil => simp [loadEntryPoints]
  | append_singleton entryPoints e ih =>
    rw [(loadEntryPoints_concat r group entryPoints e).get? h, ih (failure?_of_concat h),
      List.findSome?_append, List.findSome?_singleton, Option.or_assoc]

lemma findSome?_offer?_eq_some_iff :
    entryPoints.findSome? (·.offer? name) = some c ↔ FirstOffer entryPoints name c :=
  List.findSome?_eq_some_iff

lemma freeAfter_iff (h : (r.loadEntryPoints group entryPoints).failure? = none) :
    (r.loadEntryPoints group entryPoints).registry.contains name = false ↔
      r.FreeAfter entryPoints name := by
  rw [contains, OrderedMap.contains_eq_isSome, get?_loadEntryPoints h, FreeAfter, mem_names_iff,
    contains, OrderedMap.contains_eq_isSome]
  simp

/-- A loading goes through exactly if no entry point stops it. -/
lemma failure?_eq_none_iff : (r.loadEntryPoints group entryPoints).failure? = none ↔
    ∀ before e rest error, entryPoints = before ++ e :: rest →
      ¬ e.Stops (r.FreeAfter before) error := by
  induction entryPoints using List.reverseRecOn with
  | nil => exact iff_of_true rfl fun before e rest error h => by simp at h
  | append_singleton entryPoints last ih =>
    rw [(loadEntryPoints_concat r group entryPoints last).failure?_eq_none_iff]
    constructor
    · rintro ⟨hfailure, hlast⟩ before e rest error hsplit hs
      rcases List.eq_nil_or_concat' rest with rfl | ⟨rest, e', rfl⟩
      · obtain ⟨rfl, hlast'⟩ := List.append_inj' hsplit rfl
        cases hlast'
        exact hlast error (hs.imp fun _ => (freeAfter_iff hfailure).mpr)
      · rw [← List.cons_append, ← List.append_assoc] at hsplit
        exact ih.mp hfailure before e rest error (List.append_inj' hsplit rfl).1 hs
    · intro h
      have hfailure := ih.mpr fun before e rest error hsplit =>
        h before e (rest ++ [last]) error (by simp [hsplit])
      refine ⟨hfailure, fun error hs => h entryPoints last [] error rfl ?_⟩
      exact hs.imp fun _ => (freeAfter_iff hfailure).mp

lemma settled_loadEntryPoints (h : (r.loadEntryPoints group entryPoints).failure? = none)
    (he : e ∈ entryPoints) : (r.loadEntryPoints group entryPoints).registry.Settled e := by
  constructor
  · intro error hs
    obtain ⟨before, rest, rfl⟩ := List.append_of_mem he
    refine failure?_eq_none_iff.mp h before e rest error rfl (hs.imp fun name hname => ?_)
    obtain ⟨hfree, hoffers⟩ := (freeAfter_iff h).mp hname
    exact ⟨hfree, fun e' he' => hoffers e' (List.mem_append_left _ he')⟩
  · intro name c ho
    rw [contains, OrderedMap.contains_eq_isSome, get?_loadEntryPoints h, Option.isSome_or,
      Bool.or_eq_true_iff]
    exact .inr (List.findSome?_isSome_iff.mpr ⟨e, he, Option.isSome_of_eq_some ho⟩)

lemma registry_loadEntryPoints_of_settled (group : String)
    (hs : ∀ e ∈ entryPoints, r.Settled e) :
    (r.loadEntryPoints group entryPoints).failure? = none ∧
      (r.loadEntryPoints group entryPoints).registry = r := by
  induction entryPoints using List.reverseRecOn with
  | nil => exact ⟨rfl, rfl⟩
  | append_singleton entryPoints e ih =>
    obtain ⟨hfailure, hsame⟩ := ih fun e' he' => hs e' (List.mem_append_left _ he')
    have hlast : r.Settled e := hs e (by simp)
    rw [← hsame] at hlast
    obtain ⟨hfailure, hregistry⟩ :=
      (loadEntryPoints_concat r group entryPoints e).of_settled hfailure hlast
    exact ⟨hfailure, hregistry.trans hsame⟩

/-- Those who have been asked are not asked less for what comes later. -/
lemma asked_mono (h : (r.loadEntryPoints group (before ++ after)).failure? = none) :
    (r.loadEntryPoints group before).asked <+:
      (r.loadEntryPoints group (before ++ after)).asked := by
  induction after using List.reverseRecOn with
  | nil => simp
  | append_singleton after e ih =>
    rw [← List.append_assoc] at h ⊢
    exact (ih (failure?_of_concat h)).trans
      ((loadEntryPoints_concat r group (before ++ after) e).asked_mono h)

lemma failure?_of_append (h : (r.loadEntryPoints group (before ++ after)).failure? = none) :
    (r.loadEntryPoints group before).failure? = none := by
  rw [failure?_eq_none_iff] at h ⊢
  intro before' e rest error hsplit
  exact h before' e (rest ++ after) error (by simp [hsplit])

lemma perform_of_failure?_eq_none
    (h : (r.loadEntryPoints group entryPoints).failure? = none) :
    r.perform (.loadEntryPoints group entryPoints) =
      ⟨.ok (.done (r.loadEntryPoints group entryPoints).events),
        (r.loadEntryPoints group entryPoints).registry⟩ := by
  simp only [perform, h]

/-- A loading that is not stopped goes as it should. -/
lemma loadsAll_of_failure?_eq_none
    (h : (r.loadEntryPoints group entryPoints).failure? = none) :
    r.LoadsAll group entryPoints := by
  have hperform := perform_of_failure?_eq_none h
  have hget (name : String) := get?_loadEntryPoints h name
  constructor
  · exact ⟨_, congrArg Performed.outcome hperform⟩
  · intro name c hc
    rw [get_eq_ok_iff] at hc ⊢
    rw [hperform, hget, hc, Option.some_or]
  · intro name hname
    have hfree : r.classes.get? name = none := by
      simpa [mem_names_iff, contains, OrderedMap.contains_eq_isSome] using hname
    have hafter := (hget name).trans (by rw [hfree, Option.none_or])
    rw [hperform]
    refine ⟨?_, fun c => ?_⟩
    · rw [mem_names_iff, contains, OrderedMap.contains_eq_isSome, hafter,
        List.findSome?_isSome_iff]
      simp only [Option.isSome_iff_exists, EntryPoint.offer?_eq_some_iff]
    · rw [get_eq_ok_iff, hafter, findSome?_offer?_eq_some_iff]
  · rintro before e rest name rfl hn
    rw [List.append_cons before e rest] at h ⊢
    exact ⟨(loadEntryPoints_concat r group before e).asked (failure?_of_append h) hn,
      asked_mono h⟩
  · intro group'
    rw [hperform]
    obtain ⟨hfailure, hsame⟩ := registry_loadEntryPoints_of_settled group'
      fun e he => settled_loadEntryPoints h he
    rw [perform_of_failure?_eq_none hfailure, hsame]
    exact ⟨_, rfl⟩

lemma LoadsAll.failure?_eq_none (h : r.LoadsAll group entryPoints) :
    (r.loadEntryPoints group entryPoints).failure? = none := by
  obtain ⟨events, houtcome⟩ := h.returns
  cases hf : (r.loadEntryPoints group entryPoints).failure? with
  | none => rfl
  | some failure => simp [perform, hf] at houtcome

/-- **Loading entry points adds the first class offered under each free name, and nothing else,
exactly if none of them stops it.** Then it returns; a name that is registered keeps its class; any
other is registered exactly if some entry point offers a class under it, with the class of the first
that does, whatever others of that name come to; an entry point is asked to load exactly if its name
is free at that moment; and to load the same list again changes nothing. An entry point stops the
loading if its name cannot be looked for, or if its name is free and it asks the program to end or
offers something that cannot be shown. Then the loading fails with that error, and has gone as it
should for the entry points before, and no further. -/
theorem loadEntryPoints_registers (r : Registry) (group : String)
    (entryPoints : List EntryPoint) :
    (r.LoadsAll group entryPoints ↔ ∀ before e rest error, entryPoints = before ++ e :: rest →
      ¬ e.Stops (r.FreeAfter before) error) ∧
    ∀ failure, (r.perform (.loadEntryPoints group entryPoints)).outcome = .error failure →
      ∃ before e rest error, entryPoints = before ++ e :: rest ∧
        e.Stops (r.FreeAfter before) error ∧ failure = .foreign error ∧
        r.LoadsAll group before ∧
        (r.perform (.loadEntryPoints group entryPoints)).registry =
          (r.perform (.loadEntryPoints group before)).registry := by
  refine ⟨⟨fun h => failure?_eq_none_iff.mp h.failure?_eq_none,
    fun h => loadsAll_of_failure?_eq_none (failure?_eq_none_iff.mpr h)⟩, fun failure h => ?_⟩
  cases hf : (r.loadEntryPoints group entryPoints).failure? with
  | none => simp [perform, hf] at h
  | some failure' =>
    obtain rfl : failure' = failure := by simpa [perform, hf] using h
    obtain ⟨before, e, rest, error, hsplit, hbefore, hs, hfailure, hregistry⟩ :=
      exists_stops_of_failure hf
    exact ⟨before, e, rest, error, hsplit, hs.imp fun _ => (freeAfter_iff hbefore).mp, hfailure,
      loadsAll_of_failure?_eq_none hbefore, hregistry⟩

/-- A failure does not stand in the way of a later offer, and the first offer stands. -/
example : (empty.loadEntryPoints defaultGroup [⟨.ok "a", .error ⟨"ImportError", .ordinary⟩⟩,
    ⟨.ok "b", .ok (.other (.ok "3"))⟩, ⟨.ok "a", .ok (.strategyClass .full)⟩,
    ⟨.ok "a", .ok (.strategyClass .random)⟩]).asked = ["a", "b", "a"] := by
  cbv

/-- An entry point that offers a number with too many digits to be shown, before one that offers a
class. -/
def hugeFirst : List EntryPoint := [⟨.ok "huge", .ok (.other (.error ⟨"ValueError", .ordinary⟩))⟩,
  ⟨.ok "full", .ok (.strategyClass .full)⟩]

/-- What cannot be shown is not passed over, and what comes after it is not registered. -/
theorem not_loadsAll_hugeFirst :
    ¬ empty.LoadsAll defaultGroup hugeFirst ∧
    (empty.perform (.loadEntryPoints defaultGroup hugeFirst)).outcome =
      .error (.foreign ⟨"ValueError", .ordinary⟩) ∧
    (empty.perform (.loadEntryPoints defaultGroup hugeFirst)).registry.names = [] := by
  have herror : (empty.perform (.loadEntryPoints defaultGroup hugeFirst)).outcome =
      .error (.foreign ⟨"ValueError", .ordinary⟩) := by
    rfl
  refine ⟨fun h => ?_, herror, by cbv⟩
  obtain ⟨events, houtcome⟩ := h.returns
  cases herror.symm.trans houtcome

end Registry

end GrammarCoverage
