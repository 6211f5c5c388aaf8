import GrammarCoverage.Failure
import GrammarCoverage.Grammar.Identity
import GrammarCoverage.Main
import GrammarCoverage.Proofs.Reachability.Trail
import GrammarCoverage.Proofs.Reachability.Turns
import GrammarCoverage.Session
import GrammarCoverage.Settings.File
import GrammarCoverage.Text.Quoted
import GrammarCoverage.Proofs.Reachability.Discovery
import GrammarCoverage.Proofs.Generation.Expansion
import GrammarCoverage.Proofs.Generation.Writing
import GrammarCoverage.Proofs.Reachability.Descent
import GrammarCoverage.Proofs.Generation.Steering
import GrammarCoverage.Proofs.Random.Fractions
import GrammarCoverage.Proofs.Strategy.Coverage
import GrammarCoverage.Proofs.Generation.Counting
import GrammarCoverage.Proofs.Generation.Progress
import GrammarCoverage.Proofs.Reachability.Work
import GrammarCoverage.Proofs.Strategy.Decision
import GrammarCoverage.Proofs.Generation.Sentence
import GrammarCoverage.Proofs.Generation.Safety
import GrammarCoverage.Proofs.Generation.Vocabulary
import GrammarCoverage.Proofs.Strategy.Creation
import GrammarCoverage.Proofs.Strategy.Interleaving
import GrammarCoverage.Proofs.OrderedMap
import GrammarCoverage.Proofs.Generation.Snapshot
import GrammarCoverage.Proofs.Generation.Rounds
import GrammarCoverage.Proofs.Generation.Bookkeeping
import GrammarCoverage.Proofs.Strategy.Registration
import GrammarCoverage.Proofs.Reachability.Likeness
import GrammarCoverage.Proofs.Reachability.Lineage
import GrammarCoverage.Proofs.Generation.Production
import GrammarCoverage.Proofs.Generation.Guidance
import GrammarCoverage.Proofs.Reachability.Agreement
import GrammarCoverage.Proofs.Strategy.Locality
import GrammarCoverage.Proofs.Strategy.Pruning
import GrammarCoverage.Proofs.Strategy.Coupling
import GrammarCoverage.Proofs.Strategy.Monotonicity
import GrammarCoverage.Proofs.Strategy.EntryPoints
import GrammarCoverage.Proofs.Value.Views
import GrammarCoverage.Proofs.Yaml.Copies
import GrammarCoverage.Proofs.Settings.Acceptance
import GrammarCoverage.Proofs.Strategy.CreationErrors
import GrammarCoverage.Proofs.Settings.Files
import GrammarCoverage.Proofs.Settings.Refusal
import GrammarCoverage.Proofs.Settings.Sections
import GrammarCoverage.Proofs.Strategy.Ways
import GrammarCoverage.Proofs.Generation.Ending
import GrammarCoverage.Proofs.Strategy.Reports
import GrammarCoverage.Proofs.Grammar.Rendering
import GrammarCoverage.Proofs.Reachability.Indexing
import GrammarCoverage.Proofs.Reachability.Ascent
