import GrammarCoverage.Generation.Rounds
import GrammarCoverage.Strategy.Registry

/-!
# A first run

A small grammar of queries, a strategy that prefers unused literals, and eight texts. The lines show
the version, the rules, the texts, and the literals that no text has used.
-/

namespace GrammarCoverage

def version : String := "0.1.0"

namespace Quickstart

def rules : List Rule := [
  ⟨"select_stmt", [[
    .literal 1 "SELECT", .ruleRef 2 "column_list", .literal 3 "FROM", .literal 4 "t",
    .group 5 "" .optional [.literal 6 "WHERE", .ruleRef 7 "predicate"]]]⟩,
  ⟨"column_list", [
    [.literal 8 "*"],
    [.choice 9 "" [.literal 10 "a", .literal 11 "b"],
      .group 12 "" .zeroOrMore
        [.separator 13 ",", .choice 14 "" [.literal 15 "a", .literal 16 "b"]]]]⟩,
  ⟨"predicate", [
    [.literal 17 "a", .choice 18 "" [.literal 19 "=", .literal 20 "<"], .literal 21 "1"],
    [.literal 22 "NOT", .ruleRef 23 "predicate"]]⟩]

def root : Element := .ruleRef 24 "select_stmt"

def roundCount : Nat := 8

/-- The lines before the texts. -/
def heading : List String :=
  ("grammar-crawl version: " ++ version) :: rules.map fun r => "  " ++ r.render

/-- The line after the texts. -/
def closing (c : Crawler) : String :=
  let unused := c.unusedNames
  "Unused literals: " ++
    (if unused.isEmpty then "none" else (Value.list (unused.map Value.text)).display)

/-- The lines of a run with the strategy of given settings, or the text of a failure. -/
def linesWith (settings : Settings) : Except String (List String) := do
  let table ← (RuleTable.ofRules rules).mapError ModelFault.message
  let crawler ← ((Crawler.ofTable table).trackReachable root).mapError ModelFault.message
  let made ← (Registry.default.build settings (some crawler)).mapError RegistryError.message
  let picker := MersenneTwister.ofSeed (settings.seed.getD 0)
  let (rounds, last) :=
    (⟨⟨crawler, made.strategy⟩, picker⟩ : Generation Generator MersenneTwister).rounds root
      roundCount
  return heading ++ rounds.map (fun r => " ".intercalate r.tokens) ++ [closing last.guide.crawler]

def settings : Settings := { Settings.default with seed := some 7 }

/-- The lines of the run; a failure is told in its place. -/
def lines : List String :=
  match linesWith settings with
  | .ok lines => lines
  | .error text => [text]

end Quickstart

end GrammarCoverage
