import GrammarCoverage.Quickstart

/-!
# Command line

The program takes no arguments and prints the lines of a first run.
-/

/-- Print the lines of a first run. -/
def main : IO Unit := GrammarCoverage.Quickstart.lines.forM IO.println
