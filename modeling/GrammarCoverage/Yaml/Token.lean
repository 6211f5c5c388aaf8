import GrammarCoverage.Text.Content

/-!
# Tokens

The tokens of a document. The structure of blocks, which the text gives by indentation, is explicit
in them: a block begins with a token for its kind and ends with one of its own, and the indicators
of keys and values are there even where the text leaves them out.
-/

namespace GrammarCoverage.Yaml

/-- A token of a document. -/
inductive Token where
  /-- The directive that gives the version of the format. -/
  | versionDirective (major minor : Nat)
  /-- The directive that gives a handle for tags its expansion. -/
  | tagDirective (handle expansion : String)
  /-- A directive without meaning. -/
  | otherDirective
  | documentStart
  | documentEnd
  | blockSequenceStart
  | blockMappingStart
  | blockEnd
  | flowSequenceStart
  | flowSequenceEnd
  | flowMappingStart
  | flowMappingEnd
  | blockEntry
  | flowEntry
  | key
  | value
  | alias (name : String)
  | anchor (name : String)
  /-- A tag; without a handle the rest is the whole tag. -/
  | tag (handle : Option String) (rest : String)
  | scalar (content : Text.Content) (isPlain : Bool)
deriving DecidableEq

end GrammarCoverage.Yaml
