import GrammarCoverage.Random.Source
import Mathlib

/-!
# Draws from the unit interval

A chance is compared with draws from `[0, 1)`. No such draw is below a chance of zero, and none that
is a number of the 64-bit format exceeds the last such number below one (`Number.belowOne`). The
Mersenne Twister draws numbers of this format from this interval in whatever state it is.
-/

namespace GrammarCoverage

universe u

namespace Number

variable {x y z : Number}

lemma lt_iff : x < y ↔ x.blt y = true := Iff.rfl

lemma le_iff : x ≤ y ↔ x.blt y = true ∨ x.same y = true := Bool.or_eq_true_iff

/-! Numbers are not linearly ordered, for the sake of `nan`, but comparisons still compose. -/

lemma lt_of_lt_of_le (hxy : x < y) (hyz : y ≤ z) : x < z := by
  rw [lt_iff] at hxy ⊢
  rw [le_iff] at hyz
  cases x <;> cases y <;> cases z <;> simp [blt, same, toDyadic?] at hxy hyz ⊢ <;>
    grind [Std.le_iff_lt_or_eq]

lemma lt_of_le_of_lt (hxy : x ≤ y) (hyz : y < z) : x < z := by
  rw [le_iff] at hxy
  rw [lt_iff] at hyz ⊢
  cases x <;> cases y <;> cases z <;> simp [blt, same, toDyadic?] at hxy hyz ⊢ <;>
    grind [Std.le_iff_lt_or_eq]

lemma lt_irrefl (x : Number) : ¬ x < x := by
  rw [lt_iff]
  cases x <;> simp [blt, toDyadic?] <;> exact decide_eq_false Std.lt_irrefl

/-- No number from zero on is below one up to zero. -/
lemma not_lt_of_le_zero (hp : y ≤ 0) (hx : 0 ≤ x) : ¬ x < y :=
  fun h => lt_irrefl x (lt_of_lt_of_le (lt_of_lt_of_le h hp) hx)

lemma zero_le_finite_iff {x : Dyadic} : 0 ≤ finite x ↔ 0 ≤ x.toRat :=
  le_finite.trans Dyadic.toRat_le_toRat_iff.symm

lemma finite_lt_one_iff {x : Dyadic} : finite x < 1 ↔ x.toRat < 1 := by
  have hone : (Dyadic.ofInt (1 : ℕ)).toRat = 1 := Dyadic.toRat_natCast 1
  rw [← hone]
  exact lt_finite.trans Dyadic.toRat_lt_toRat_iff.symm

/-! ### The 64-bit format -/

/-- The numbers of the 64-bit format. A finite one is an integer of at most 53 bits times a power of
two. -/
def IsDouble : Number → Prop
  | .finite x => ∃ m e : Int, m.natAbs < 2 ^ 53 ∧ -1074 ≤ e ∧ e ≤ 971 ∧ x.toRat = m * 2 ^ e
  | .negativeZero | .infinity _ | .nan => True

/-- The greatest number of the 64-bit format that is less than one. -/
def belowOne : Number := .finite (.ofIntWithPrec (2 ^ 53 - 1) 53)

/-- A number of 53 bits, all of them behind the point, is a fraction of the 64-bit format. -/
lemma fraction_mem {k : Nat} (hk : k < 2 ^ 53) :
    (finite (.ofIntWithPrec k 53)).IsDouble ∧
      0 ≤ finite (.ofIntWithPrec k 53) ∧ finite (.ofIntWithPrec k 53) < 1 := by
  have hrat : (Dyadic.ofIntWithPrec k 53).toRat = (k : Int) * 2 ^ (-53 : Int) :=
    Dyadic.toRat_ofIntWithPrec_eq_mul_two_pow
  refine ⟨⟨k, -53, hk, by decide, by decide, hrat⟩, ?_, ?_⟩
  · apply zero_le_finite_iff.mpr
    rw [hrat]
    positivity
  · apply finite_lt_one_iff.mpr
    rw [hrat, zpow_neg, ← div_eq_mul_inv, div_lt_one (by positivity)]
    exact_mod_cast hk

/-- A number of at most 53 bits times a power of two that is less than one is so by `2 ^ -53`. -/
lemma mul_zpow_le {m e : Int} (hm : m.natAbs < 2 ^ 53) (h : (m : ℚ) * 2 ^ e < 1) :
    (m : ℚ) * 2 ^ e ≤ (2 ^ 53 - 1) * 2 ^ (-53 : Int) := by
  have hm : (m : ℚ) ≤ 2 ^ 53 - 1 := by
    have hm : m ≤ 2 ^ 53 - 1 := by omega
    exact_mod_cast hm
  rcases le_or_gt e (-53) with he | he
  · calc (m : ℚ) * 2 ^ e ≤ (2 ^ 53 - 1) * 2 ^ e := by gcongr
      _ ≤ (2 ^ 53 - 1) * 2 ^ (-53 : Int) := by
        gcongr
        norm_num
  · -- counted in units of `2 ^ -53` it is an integer
    obtain ⟨k, hk⟩ := Int.eq_ofNat_of_zero_le (show 0 ≤ e + 53 by omega)
    have hpow : (2 : ℚ) ^ e = 2 ^ k * 2 ^ (-53 : Int) := by
      rw [show e = k + -53 by omega, zpow_add₀ two_ne_zero, zpow_natCast]
    have hunits : (m : ℚ) * 2 ^ k < 2 ^ 53 := by
      rw [hpow, ← mul_assoc, zpow_neg, ← div_eq_mul_inv, div_lt_one (by positivity)] at h
      exact_mod_cast h
    have hunits : m * 2 ^ k ≤ 2 ^ 53 - 1 := Int.le_sub_one_of_lt (by exact_mod_cast hunits)
    rw [hpow, ← mul_assoc]
    gcongr
    exact_mod_cast hunits

/-- Less than one means, in the 64-bit format, at most the number next to it. -/
lemma le_belowOne (hx : x.IsDouble) (h : x < 1) : x ≤ belowOne := by
  cases x with
  | finite v =>
    obtain ⟨m, e, hm, -, -, hv⟩ := hx
    have h := finite_lt_one_iff.mp h
    apply le_finite.mpr
    rw [← Dyadic.toRat_le_toRat_iff, Dyadic.toRat_ofIntWithPrec_eq_mul_two_pow, hv]
    rw [hv] at h
    exact_mod_cast mul_zpow_le hm h
  | negativeZero => decide +kernel
  | infinity negative =>
    cases negative with
    | false => exact absurd h (by decide)
    | true => decide
  | nan => exact absurd h (by decide)

end Number

namespace NumberSource

variable {σ : Type u} [NumberSource σ] {source : σ}

/-- The state of a source after some draws. -/
def after (source : σ) : Nat → σ
  | 0 => source
  | n + 1 => after (draw source).2 n

/-- All numbers that a source gives out from now on lie in `[0, 1)`. -/
def DrawsFractions (source : σ) : Prop :=
  ∀ n, 0 ≤ (draw (after source n)).1 ∧ (draw (after source n)).1 < 1

/-- They are of the 64-bit format, too. -/
def DrawsDoubles (source : σ) : Prop :=
  ∀ n, (draw (after source n)).1.IsDouble ∧
    0 ≤ (draw (after source n)).1 ∧ (draw (after source n)).1 < 1

lemma DrawsDoubles.drawsFractions (h : DrawsDoubles source) : DrawsFractions source :=
  fun n => (h n).2

lemma DrawsFractions.draw (h : DrawsFractions source) : DrawsFractions (draw source).2 :=
  fun n => h (n + 1)

lemma after_after (source : σ) (k m : Nat) : after (after source k) m = after source (k + m) := by
  induction k generalizing source with
  | zero => rw [after, Nat.zero_add]
  | succ k ih => rw [Nat.succ_add, after, after, ih]

lemma DrawsFractions.after (h : DrawsFractions source) (k : Nat) :
    DrawsFractions (after source k) := by
  intro n
  rw [after_after]
  exact h (k + n)

lemma DrawsFractions.not_lt (h : DrawsFractions source) {p : Number} (hp : p ≤ 0) :
    ¬ (NumberSource.draw source).1 < p :=
  Number.not_lt_of_le_zero hp (h 0).1

/-- No draw exceeds the greatest number of the 64-bit format below one. -/
lemma DrawsDoubles.not_lt (h : DrawsDoubles source) {p : Number} (hp : Number.belowOne ≤ p) :
    ¬ p < (NumberSource.draw source).1 := by
  intro hlt
  obtain ⟨hdouble, -, hone⟩ := h 0
  have hbelow : p < Number.belowOne :=
    Number.lt_of_lt_of_le hlt (Number.le_belowOne hdouble hone)
  exact Number.lt_irrefl p (Number.lt_of_lt_of_le hbelow hp)

end NumberSource

namespace MersenneTwister

/-- The top bits of a word are a number of so many bits. -/
lemma toNat_shiftRight_lt (w : UInt32) {k : UInt32} (hk : k < 32) :
    (w >>> k).toNat < 2 ^ (32 - k.toNat) := by
  have hk' : k.toNat < 32 := hk
  rw [UInt32.toNat_shiftRight, Nat.mod_eq_of_lt hk', Nat.shiftRight_eq_div_pow]
  apply Nat.div_lt_of_lt_mul
  rw [← pow_add, Nat.add_sub_cancel' hk'.le]
  exact w.toNat_lt

/-- A uniform number has 53 bits, all of them behind the point. -/
lemma uniform_mem (high low : UInt32) :
    (uniform high low).IsDouble ∧ 0 ≤ uniform high low ∧ uniform high low < 1 := by
  have hhigh : (high >>> 5).toNat < 2 ^ 27 := toNat_shiftRight_lt high (by decide)
  have hlow : (low >>> 6).toNat < 2 ^ 26 := toNat_shiftRight_lt low (by decide)
  exact Number.fraction_mem (by omega)

lemma drawsDoubles (g : MersenneTwister) : NumberSource.DrawsDoubles g :=
  fun _ => uniform_mem _ _

end MersenneTwister

namespace Generator

open NumberSource

lemma drawsFractions_twister (g : MersenneTwister) (drawn : Nat) :
    DrawsFractions (⟨.twister g, drawn⟩ : Generator) := by
  intro n
  induction n generalizing g drawn with
  | zero => exact (MersenneTwister.drawsDoubles g).drawsFractions 0
  | succ n ih => exact ih g.draw.2 (drawn + 1)

lemma drawsFractions_script {numbers : List Number} (h : ∀ x ∈ numbers, 0 ≤ x ∧ x < 1)
    (position drawn : Nat) :
    DrawsFractions (⟨.script ⟨numbers, position⟩, drawn⟩ : Generator) := by
  intro n
  induction n generalizing position drawn with
  | zero =>
    show 0 ≤ numbers.getD position 0 ∧ numbers.getD position 0 < 1
    rw [List.getD_eq_getElem?_getD]
    cases hx : numbers[position]? with
    | none => decide
    | some x => exact h x (List.mem_of_getElem? hx)
  | succ n ih => exact ih _ _

end Generator

end GrammarCoverage
