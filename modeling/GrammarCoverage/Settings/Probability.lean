import GrammarCoverage.Settings.Error

/-!
# Probabilities

A probability is a number between 0 and 1. A value is one if it is an integer or a floating-point
number in that range; booleans are not numbers here, and integers are compared exactly, however
large they are.
-/

namespace GrammarCoverage

/-- A number between 0 and 1. -/
structure Probability where
  value : Number
  zero_le : 0 ≤ value
  le_one : value ≤ 1

namespace Probability

/-- The numbers among the values. -/
def number? : Value → Option Number
  | .int n => some (.ofInt n)
  | .float x => some x
  | _ => none

/-- Check that the value of a setting is a probability. -/
def ofValue (name : String) (value : Value) : Except SettingsError Probability :=
  match number? value with
  | none => .error (.notANumber name value)
  | some x =>
    if h : 0 ≤ x ∧ x ≤ 1 then .ok ⟨x, h.1, h.2⟩
    else .error (.outOfRange name value)

def toValue (p : Probability) : Value := .float p.value

/-- A probability is accepted as it is when it is checked again. -/
@[simp]
theorem ofValue_toValue (name : String) (p : Probability) : ofValue name p.toValue = .ok p :=
  dif_pos ⟨p.zero_le, p.le_one⟩

def text (p : Probability) : String := p.value.text

/-- A fair coin. -/
def half : Probability := ⟨.ofDecimal false 5 (-1), by decide +kernel, by decide +kernel⟩

/-- The chance that an element is expanded although all its literals are used. -/
def defaultFallback : Probability :=
  ⟨.ofDecimal false 33 (-2), by decide +kernel, by decide +kernel⟩

end Probability

end GrammarCoverage
