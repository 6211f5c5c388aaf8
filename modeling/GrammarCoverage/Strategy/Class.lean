import GrammarCoverage.Settings.Basic
import GrammarCoverage.Strategy.Basic

/-!
# Classes of strategies

A class is what a strategy is made by: from a crawler, a source of numbers and settings, or, where
the class allows it, from nothing. The three classes of the library are here, and they check a
chance that comes from settings once more; classes from outside are made with `StrategyClass.simple`
or given field by field.
-/

namespace GrammarCoverage

/-- What an error from outside the library passes for where errors are caught. -/
inductive ForeignError.Family where
  /-- It is of the kind of a refusal to register. -/
  | refusal
  /-- It is an ordinary error of some other kind. -/
  | ordinary
  /-- It is no ordinary error, but asks the program to end. -/
  | exit
deriving DecidableEq

/-- An error of a kind from outside the library. -/
structure ForeignError where
  kind : String
  family : ForeignError.Family

/-- Why a class does not make a strategy. -/
inductive BuildError where
  /-- The settings do not suit. -/
  | settings (error : SettingsError)
  /-- The strategy of that name cannot be made for a given reason. -/
  | refused (name reason : String)
  /-- The class leaves the decision open, or needs more than it was given. -/
  | notInstantiable (className : String)
  /-- An error of another kind, from a class outside the library. -/
  | foreign (error : ForeignError)

/-! ### Strategies made directly -/

/-- A random strategy with a threshold that has to be checked; the default is a fair coin. -/
def Strategy.ofThreshold (g : Generator) (threshold? : Option Value) :
    Except SettingsError (Strategy Generator) :=
  match threshold? with
  | none => .ok (.random g .half)
  | some v => (Probability.ofValue "threshold" v).map (.random g)

/-- A strategy that decides by the coverage of a crawler, with a chance that has to be checked. -/
def Strategy.ofFallback (crawler : Crawler) (g : Generator) (fallback? : Option Value) :
    Except SettingsError (Strategy Generator) :=
  match fallback? with
  | none => .ok (.coverage crawler.id g .defaultFallback)
  | some v => (Probability.ofValue "fallback_probability" v).map (.coverage crawler.id g)

/-! ### Classes -/

/-- A strategy that has been made, with the name of its class. -/
structure Made where
  className : String
  strategy : Strategy Generator

/-- What strategies are made by. -/
structure StrategyClass where
  name : String
  /-- Is the class refused without a crawler? -/
  requiresCrawler : Bool
  /-- Make a strategy from nothing but a source of numbers, if the class allows it. -/
  plain? : Generator → Option (Strategy Generator)
  /-- Make a strategy from a crawler, a source of numbers and settings. -/
  build : Option Crawler → Generator → Settings → Except BuildError (Strategy Generator)

namespace StrategyClass

/-- Make a strategy of a class from nothing but a source of numbers. -/
def instantiate (c : StrategyClass) (g : Generator) : Except BuildError (Strategy Generator) :=
  match c.plain? g with
  | some s => .ok s
  | none => .error (.notInstantiable c.name)

/-- A class that takes no notice of crawler and settings. -/
def simple (name : String) (requiresCrawler : Bool) (strategy? : Option (Strategy Generator)) :
    StrategyClass where
  name := name
  requiresCrawler := requiresCrawler
  plain? _ := strategy?
  build _ _ _ := match strategy? with
    | some s => .ok s
    | none => .error (.notInstantiable name)

def full : StrategyClass := simple "FullCrawl" false (some .full)

def random : StrategyClass where
  name := "RandomCrawl"
  requiresCrawler := false
  plain? g := some (.random g .half)
  build _ g settings :=
    (Strategy.ofThreshold g (some settings.randomThreshold.toValue)).mapError .settings

/-- Make a coverage strategy; it cannot do without a crawler. -/
def buildCoverage (crawler? : Option Crawler) (g : Generator) (settings : Settings) :
    Except BuildError (Strategy Generator) :=
  match crawler? with
  | none => .error (.settings (.crawlerMissing "CoverageAwareCrawl"))
  | some crawler =>
    (Strategy.ofFallback crawler g (some settings.fallbackProbability.toValue)).mapError .settings

def coverage : StrategyClass where
  name := "CoverageAwareCrawl"
  requiresCrawler := true
  plain? _ := none
  build := buildCoverage

/-- The class that all others specialise; it leaves the decision open. -/
def base : StrategyClass := simple "CrawlStrategy" false none

end StrategyClass

end GrammarCoverage
