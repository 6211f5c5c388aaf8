import GrammarCoverage.Value.Basic

/-!
# Outlines

What can be said of a value without looking far into it: whether it is nothing at all, the entries
of a mapping, and of anything else the type and whether it counts as absent.
-/

namespace GrammarCoverage

/-- A value from outside; what stands at the keys of a mapping may be given in any way. -/
inductive Outline (α : Type) where
  | nothing
  | mapping (entries : List (Value × α))
  | other (typeName : String) (isBlank : Bool)

namespace Outline

variable {α : Type}

def typeName : Outline α → String
  | .nothing => Value.null.typeName
  | .mapping _ => (Value.mapping []).typeName
  | .other typeName _ => typeName

/-- Does a value count as absent where a section of settings is expected? -/
def isBlank : Outline α → Bool
  | .nothing => true
  | .mapping entries => entries.isEmpty
  | .other _ isBlank => isBlank

/-- What stands at a text key. -/
def field? (entries : List (Value × α)) (name : String) : Option α :=
  (entries.find? (·.1.sameKey (.text name))).map Prod.snd

end Outline

def Value.outline : Value → Outline Value
  | .null => .nothing
  | .mapping entries => .mapping entries
  | v => .other v.typeName v.isBlank

end GrammarCoverage
