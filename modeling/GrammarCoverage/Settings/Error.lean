import GrammarCoverage.Value.Printer

/-!
# Errors of settings

Why settings are refused. Most refusals are about a value or a file and have a text of their own; a
few happen before that, while keys are put in order or passed on.
-/

namespace GrammarCoverage

/-- Why a file cannot be read. -/
inductive ReadError where
  | noSuchFile | notADirectory | isADirectory | nameTooLong
deriving DecidableEq

/-- The number and the words of a reading error. -/
def ReadError.text : ReadError → String
  | .noSuchFile => "[Errno 2] No such file or directory"
  | .notADirectory => "[Errno 20] Not a directory"
  | .isADirectory => "[Errno 21] Is a directory"
  | .nameTooLong => "[Errno 36] File name too long"

/-- Why settings are invalid. -/
inductive SettingsError where
  /-- A probability is no number. -/
  | notANumber (name : String) (value : Value)
  /-- A probability is not between 0 and 1. -/
  | outOfRange (name : String) (value : Value)
  /-- The strategy is no text or the empty one. -/
  | badStrategy (value : Value)
  /-- The seed is no integer. -/
  | badSeed (value : Value)
  /-- The settings are no mapping. -/
  | notAMapping (typeName : String)
  /-- There are settings of unknown names. -/
  | unknownKeys (keys : List Value)
  /-- The file cannot be read. -/
  | unreadable (path : String) (reason : ReadError)
  /-- The file is no YAML. -/
  | invalidYaml (path : String)
  /-- A strategy needs a crawler to be built. -/
  | crawlerMissing (className : String)
  /-- Any other reason, in words. -/
  | other (text : String)

def SettingsError.message : SettingsError → String
  | .notANumber name value => name ++ " must be a number, got " ++ value.display
  | .outOfRange name value => name ++ " must be between 0 and 1, got " ++ value.display
  | .badStrategy value => "strategy must be a non-empty string, got " ++ value.display
  | .badSeed value => "seed must be an integer or null, got " ++ value.display
  | .notAMapping typeName => "Expected a mapping of settings, got " ++ typeName
  | .unknownKeys keys =>
    "Unknown config key(s): " ++ ", ".intercalate (keys.map Value.plain)
  | .unreadable path reason =>
    "Cannot read config file " ++ path ++ ": " ++ reason.text ++ ": " ++ Text.quoted path
  | .invalidYaml path => "Invalid YAML in " ++ path
  | .crawlerMissing className => className ++ " requires a crawler"
  | .other text => text

/-- What stands against showing the values in the text of a refusal, where collections are followed
down to a depth. -/
def SettingsError.obstacle? (depth : Nat) : SettingsError → Option Value.Obstacle
  | .notANumber _ value | .outOfRange _ value | .badStrategy value | .badSeed value =>
    value.obstacle? depth
  | .unknownKeys keys => Value.obstacleInItems? depth keys
  | .notAMapping _ | .unreadable .. | .invalidYaml _ | .crawlerMissing _ | .other _ => none

/-- Why settings could not be made of a mapping. -/
inductive SettingsFailure where
  /-- A value is refused. -/
  | invalid (error : SettingsError)
  /-- A value would be refused, but cannot be shown. -/
  | unshowable (obstacle : Value.Obstacle)
  /-- The unknown keys have no common order to be listed in. -/
  | unorderedKeys (keys : List Value)
  /-- A setting of unknown name was given directly. -/
  | unknownKeyword (name : String)

/-- The failure that a refusal comes to, where collections are followed down to a depth. -/
def SettingsError.toFailure (depth : Nat) (e : SettingsError) : SettingsFailure :=
  match e.obstacle? depth with
  | some o => .unshowable o
  | none => .invalid e

/-- Fields of records are read only; this is the refusal to assign one. -/
structure ReadOnlyField where
  name : String

def ReadOnlyField.message (f : ReadOnlyField) : String :=
  "cannot assign to field " ++ Text.quoted f.name

end GrammarCoverage
