import GrammarCoverage.Proofs.OrderedMap
import GrammarCoverage.Proofs.Strategy.Creation
import GrammarCoverage.Proofs.Strategy.Loading

/-!
# What names mean

A registry, asked whatever it may be asked, keeps to its history: the changes that have succeeded so
far, in order. A name means the class of its latest registration, unless it has been freed since
(`Registry.Standing`). Of all operations only the loading of entry points can fail after it has made
changes, and then it has made those of the entry points before the one that stops it.
-/

namespace GrammarCoverage

namespace Registry

/-! ### Operations -/

/-- An attempt to change the meaning of a name. -/
inductive Attempt where
  | register (name : String) (candidate : Candidate)
  | deregister (name : String)

/-- What can be asked of a registry. -/
inductive Operation where
  | attempt (a : Attempt)
  | get (name : String)
  | create (name : String) (crawler? : Option Crawler) (source? : Option Generator)
      (settings? : Option Settings)
  | build (settings : Settings) (crawler? : Option Crawler)
  | names
  | contains (name : String)
  | size
  | loadEntryPoints (group : String) (entryPoints : List EntryPoint)

/-- What a registry answers, unless it fails. -/
inductive Answer where
  | done (events : List Event)
  | strategyClass (c : StrategyClass)
  | made (m : Made)
  | names (names : List String)
  | truth (b : Bool)
  | size (n : Nat)

/-- What an operation comes to, and the registry after it. -/
structure Performed where
  outcome : Except RegistryError Answer
  registry : Registry

def attempt (r : Registry) : Attempt → Except RegistryError (Registry × Event)
  | .register name candidate => r.register name candidate
  | .deregister name => r.deregister name

def perform (r : Registry) : Operation → Performed
  | .attempt a =>
    match r.attempt a with
    | .ok (r', event) => ⟨.ok (.done [event]), r'⟩
    | .error e => ⟨.error e, r⟩
  | .get name => ⟨(r.get name).map .strategyClass, r⟩
  | .create name crawler? source? settings? =>
    ⟨(r.create name crawler? source? settings?).map .made, r⟩
  | .build settings crawler? => ⟨(r.build settings crawler?).map .made, r⟩
  | .names => ⟨.ok (.names r.names), r⟩
  | .contains name => ⟨.ok (.truth (r.contains name)), r⟩
  | .size => ⟨.ok (.size r.size), r⟩
  | .loadEntryPoints group entryPoints =>
    let l := r.loadEntryPoints group entryPoints
    ⟨match l.failure? with
      | none => .ok (.done l.events)
      | some e => .error e, l.registry⟩

def performAll (r : Registry) (ops : List Operation) : Registry :=
  ops.foldl (fun r op => (r.perform op).registry) r

/-! ### Histories -/

/-- A change in what a name means. -/
inductive Change where
  | registered (name : String) (c : StrategyClass)
  | freed (name : String)

def Change.name : Change → String
  | .registered name _ => name
  | .freed name => name

/-- The entry points that a loading gets through, up to the one that stops it. -/
def Loading.passed (group : String) (l : Loading) : List EntryPoint → List EntryPoint
  | [] => []
  | e :: entryPoints =>
    let l' := loadEntryPoint group l e
    if l'.failure?.isSome then [] else e :: passed group l' entryPoints

variable {r r' : Registry} {name : String} {c : StrategyClass} {changes : List Change}
  {change : Change} {event : Event} {a : Attempt} {attempts : List Attempt} {op : Operation}

def apply (r : Registry) : Change → Registry
  | .registered name c => ⟨r.classes.insert name c⟩
  | .freed name => ⟨r.classes.erase name⟩

lemma get_eq_ok_iff : r.get name = .ok c ↔ r.classes.get? name = some c := by
  rw [get]
  cases r.classes.get? name <;> simp

lemma contains_iff : r.contains name = true ↔ ∃ c, r.get name = .ok c := by
  simp only [contains, OrderedMap.contains_eq_isSome, get_eq_ok_iff, Option.isSome_iff_exists]

lemma mem_names_iff : name ∈ r.names ↔ r.contains name = true := by
  rw [names, List.mem_mergeSort, contains, OrderedMap.contains, List.contains_iff_mem]

end Registry

end GrammarCoverage
