/-!
# Numbers

The numbers of the 64-bit binary floating-point format, held exactly, and the integers that they are
compared with: a finite number is a dyadic rational, and beside those stand the negative zero, the
two infinities and the undefined result `nan`. Comparison is that of the real numbers, with both
zeros equal and `nan` incomparable.
-/

namespace GrammarCoverage

/-- A number of a binary floating-point format. -/
inductive Number where
  /-- A dyadic rational; zero is the positive one. -/
  | finite (value : Dyadic)
  | negativeZero
  | infinity (negative : Bool)
  | nan
deriving DecidableEq

namespace Number

/-- The integers are numbers. -/
def ofInt (n : Int) : Number := .finite (.ofInt n)

instance : OfNat Number n := ⟨ofInt n⟩

/-- The rational value of a finite number. -/
def toDyadic? : Number → Option Dyadic
  | .finite x => some x
  | .negativeZero => some 0
  | .infinity _ | .nan => none

/-- Is one number less than another? -/
def blt : Number → Number → Bool
  | .nan, _ | _, .nan => false
  | .infinity a, .infinity b => a && !b
  | .infinity a, _ => a
  | _, .infinity b => !b
  | x, y => (x.toDyadic?.getD 0) < (y.toDyadic?.getD 0)

/-- Do two numbers denote the same extended real? -/
def same : Number → Number → Bool
  | .nan, _ | _, .nan => false
  | .infinity a, .infinity b => a == b
  | .infinity _, _ | _, .infinity _ => false
  | x, y => (x.toDyadic?.getD 0) == (y.toDyadic?.getD 0)

instance : LT Number := ⟨fun x y => x.blt y = true⟩

instance : LE Number := ⟨fun x y => (x.blt y || x.same y) = true⟩

instance (x y : Number) : Decidable (x < y) := inferInstanceAs (Decidable (x.blt y = true))

instance (x y : Number) : Decidable (x ≤ y) :=
  inferInstanceAs (Decidable ((x.blt y || x.same y) = true))

def neg : Number → Number
  | .finite x => if x = 0 then .negativeZero else .finite (-x)
  | .negativeZero => .finite 0
  | .infinity a => .infinity !a
  | .nan => .nan

instance : Neg Number := ⟨neg⟩

theorem blt_finite {x y : Dyadic} : blt (.finite x) (.finite y) = true ↔ x < y := by
  unfold blt
  exact decide_eq_true_iff

theorem same_finite {x y : Dyadic} : same (.finite x) (.finite y) = true ↔ x = y := by
  unfold same
  exact beq_iff_eq

theorem lt_finite {x y : Dyadic} : Number.finite x < .finite y ↔ x < y := blt_finite

theorem le_finite {x y : Dyadic} : Number.finite x ≤ .finite y ↔ x ≤ y := by
  show (Number.blt _ _ || Number.same _ _) = true ↔ _
  rw [Bool.or_eq_true, blt_finite, same_finite]
  exact Std.le_iff_lt_or_eq.symm

end Number

end GrammarCoverage
