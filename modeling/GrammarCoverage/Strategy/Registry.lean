import GrammarCoverage.Strategy.Class

/-!
# The registry of strategies

A registry finds classes of strategies by name. A name is registered at most once until it is freed,
only classes of strategies are registered, and an operation on one name that fails leaves the
registry as it was. Entry points are declared elsewhere and are registered in the order of their
list; one that does not load, or is refused, is passed over. An error of another kind ends the
loading, and what has been registered by then stays.
-/

namespace GrammarCoverage

/-- What is offered for registration. -/
inductive Candidate where
  | strategyClass (c : StrategyClass)
  /-- Anything else, as messages show it, or the error that showing it ends in. -/
  | other (shown : Except ForeignError String)

/-- Why an operation of a registry fails. -/
inductive RegistryError where
  /-- No class has that name; these names are taken. -/
  | notFound (name : Text.Content) (available : List String)
  | taken (name : String)
  /-- What is offered is not a class of strategies. -/
  | notAStrategy (shown name : String)
  /-- The strategy of that name cannot be made for a given reason. -/
  | refused (name reason : String)
  /-- The settings that the name alone gives are invalid. -/
  | settings (error : SettingsError)
  /-- The class leaves the decision open. -/
  | notInstantiable (className : String)
  /-- An error of another kind, from outside the library. -/
  | foreign (error : ForeignError)

namespace RegistryError

/-- The text for a name, given as messages show it, that no class has. -/
def notFoundText (shown : String) (available : List String) : String :=
  let names := ", ".intercalate available
  "Strategy " ++ shown ++ " is not registered. Available strategies: "
    ++ (if names.isEmpty then "<none>" else names) ++ "."

/-- The text for a name, given as messages show it, that is in use. -/
def takenText (shown : String) : String :=
  "Strategy " ++ shown ++ " is already registered. "
    ++ "Use a unique name or deregister the existing entry first."

/-- The text for a strategy that cannot be made; its name is given as messages show it. -/
def refusedText (shown reason : String) : String :=
  "Cannot create strategy " ++ shown ++ ": " ++ reason

def message : RegistryError → String
  | .notFound name available => notFoundText name.quoted available
  | .taken name => takenText (Text.quoted name)
  | .notAStrategy shown name =>
    "Cannot register " ++ shown ++ " under " ++ Text.quoted name
      ++ ": it must be a subclass of CrawlStrategy."
  | .refused name reason => refusedText (Text.quoted name) reason
  | .settings error => error.message
  | .notInstantiable className => "Cannot instantiate " ++ className
  | .foreign error => error.kind

/-- Is an error of a kind that a refusal to register has? -/
def isRefusal : RegistryError → Bool
  | .taken _ | .notAStrategy .. | .notInstantiable _ => true
  | .notFound .. | .refused .. | .settings _ => false
  | .foreign error => error.family = .refusal

end RegistryError

/-- Classes of strategies by name. -/
structure Registry where
  classes : OrderedMap String StrategyClass

namespace Registry

def empty : Registry := ⟨.empty⟩

def names (r : Registry) : List String := r.classes.keys.mergeSort (fun a b => decide (a ≤ b))

def contains (r : Registry) (name : String) : Bool := r.classes.contains name

def size (r : Registry) : Nat := r.classes.size

def describe (r : Registry) : String :=
  "StrategyRegistry(strategies=" ++ (Value.list (r.names.map Value.text)).display ++ ")"

/-! ### Registration -/

/-- Register a candidate under a free name. -/
def register (r : Registry) (name : String) (candidate : Candidate) :
    Except RegistryError (Registry × Event) :=
  if r.contains name then .error (.taken name)
  else match candidate with
    | .other (.ok shown) => .error (.notAStrategy shown name)
    | .other (.error e) => .error (.foreign e)
    | .strategyClass c => .ok (⟨r.classes.insert name c⟩, .registered name c.name)

/-- The failure to find a name. -/
def missing (r : Registry) (name : Text.Content) : RegistryError := .notFound name r.names

def deregister (r : Registry) (name : String) : Except RegistryError (Registry × Event) :=
  if r.contains name then .ok (⟨r.classes.erase name⟩, .deregistered name)
  else .error (r.missing (.string name))

/-- The registry with the three classes of the library. -/
def default : Registry where
  classes := .ofList [("full", .full), ("random", .random), ("coverage-aware", .coverage)]

/-! ### Making strategies -/

def get (r : Registry) (name : String) : Except RegistryError StrategyClass :=
  match r.classes.get? name with
  | some c => .ok c
  | none => .error (r.missing (.string name))

/-- How a failure to make the strategy of a name is passed on. -/
def wrap (name : String) : BuildError → RegistryError
  | .settings error => .refused name error.message
  | .refused name reason => .refused name reason
  | .notInstantiable className => .notInstantiable className
  | .foreign error => .foreign error

/-- The settings to use where none are given. -/
def settingsFor (name : String) : Option Settings → Except RegistryError Settings
  | some settings => .ok settings
  | none => (Settings.forStrategy name).mapError .settings

/-- Make the strategy of a name. Without settings the defaults are used, without a source of numbers
the one of the settings. -/
def create (r : Registry) (name : String) (crawler? : Option Crawler) (source? : Option Generator)
    (settings? : Option Settings) : Except RegistryError Made := do
  let c ← r.get name
  if c.requiresCrawler && crawler?.isNone then
    throw (.refused name "a crawler is required")
  let settings ← settingsFor name settings?
  let source := source?.getD settings.generator
  let strategy ← (c.build crawler? source settings).mapError (wrap name)
  return ⟨c.name, strategy⟩

/-- Make the strategy that settings name. Names are registered as strings, so none is ill-formed. -/
def build (r : Registry) (settings : Settings) (crawler? : Option Crawler) :
    Except RegistryError Made :=
  match settings.strategy with
  | .string name => r.create name crawler? none (some settings)
  | .illFormed codes => .error (r.missing (.illFormed codes))

/-! ### Entry points -/

/-- A strategy that is declared elsewhere. -/
structure EntryPoint where
  /-- Its name, or the error that looking for it ends in. -/
  name : Except ForeignError String
  /-- What loading it gives. -/
  load : Except ForeignError Candidate

/-- What loading a list of entry points comes to. -/
structure Loading where
  registry : Registry
  events : List Event := []
  /-- The names of the entry points that were asked to load, in order. -/
  asked : List String := []
  /-- The error that has ended the loading before the end of the list. -/
  failure? : Option RegistryError := none

/-- Load one entry point, unless its name is taken or the loading has ended. -/
def loadEntryPoint (group : String) (l : Loading) (e : EntryPoint) : Loading :=
  if l.failure?.isSome then l
  else
    match e.name with
    | .error error => { l with failure? := some (.foreign error) }
    | .ok name =>
      if l.registry.contains name then { l with events := l.events ++ [.entryPointTaken name] }
      else
        let l := { l with asked := l.asked ++ [name] }
        match e.load with
        | .error error =>
          if error.family = .exit then { l with failure? := some (.foreign error) }
          else { l with events := l.events ++ [.entryPointFailed name group] }
        | .ok candidate =>
          match l.registry.register name candidate with
          | .ok (registry, event) => { l with registry, events := l.events ++ [event] }
          | .error error =>
            if error.isRefusal then { l with events := l.events ++ [.entryPointRejected name] }
            else { l with failure? := some error }

def loadEntryPoints (r : Registry) (group : String) (entryPoints : List EntryPoint) : Loading :=
  entryPoints.foldl (loadEntryPoint group) { registry := r }

/-- The group whose entry points are loaded where none is named. -/
def defaultGroup : String := "gcrawl.strategies"

end Registry

end GrammarCoverage
