import Mathlib.Algebra.Order.Ring.Nat
import TemplateBlocks.Decimal.Binary64

/-!
# Counts as numbers

A count is rounded to a positive number exactly when it is positive (`Binary64.isPositive_ofNat`).
Below two to the power of 53 it fits the significand of a double-precision number, so it is rounded
to itself and read back (`Binary64.toNat_ofNat`).
-/

namespace TemplateBlocks.Binary64

/-! ### Positive counts -/

/-- A count is positive as a number exactly when it is one. -/
theorem isPositive_ofNat (n : Nat) : (ofNat n).isPositive = true ↔ 0 < n := by
  have hrank : (roundRank n 1).val ≠ 0 ↔ 0 < n := by
    unfold roundRank
    by_cases hn : n = 0
    · simp [hn, zeroRank]
    · have hexp : -53 ≤ quotientExponent n 1 := by
        unfold quotientExponent
        have hone : Nat.log2 1 = 0 := by decide
        simp only [hone]
        split <;> omega
      have hshift : 0 < (quotientExponent n 1 + 1074).toNat * binade :=
        Nat.mul_pos (by omega) (by decide)
      have hlast : 0 < infiniteRank := by decide
      simp only [hn, if_false]
      omega
  simpa [ofNat, isPositive] using hrank

/-! ### Shifting -/

theorem scaled_ofNat (num den shift : Nat) :
    scaled num den shift = (num, den * Nat.pow 2 shift) := by
  simp [scaled]

theorem scaled_neg (num shift : Nat) :
    scaled num 1 (-(shift : Int)) = (num * Nat.pow 2 shift, 1) := by
  cases shift with
  | zero => simp [scaled]
  | succ shift =>
    have hneg : ¬ (0 : Int) ≤ -((shift + 1 : Nat) : Int) := by omega
    rw [scaled, if_neg hneg, Int.neg_neg, Int.toNat_natCast]

theorem roundHalfEven_one (num : Nat) : roundHalfEven num 1 = num := by
  simp [roundHalfEven, Nat.mod_one]

/-! ### Ranks of counts -/

/-- How far a count is shifted to fill the significand. -/
def countShift (n : Nat) : Nat := 52 - n.log2

section Count

variable {n : Nat} (hpos : n ≠ 0) (hn : n < Nat.pow 2 53)

include hpos hn

theorem log2_le : n.log2 ≤ 52 := Nat.le_of_lt_succ ((Nat.log2_lt hpos).2 hn)

/-- The shifted count is a full significand. -/
theorem shifted_bounds :
    binade ≤ n * Nat.pow 2 (countShift n) ∧ n * Nat.pow 2 (countShift n) < 2 * binade := by
  have hlog := log2_le hpos hn
  have hlow := Nat.log2_self_le hpos
  have hhigh := Nat.lt_log2_self (n := n)
  have hshift : 0 < 2 ^ countShift n := Nat.pow_pos (by decide)
  have hexact : 2 ^ n.log2 * 2 ^ countShift n = binade := by
    rw [← Nat.pow_add, countShift, Nat.add_sub_cancel' hlog]
    rfl
  constructor
  · calc
      binade = 2 ^ n.log2 * 2 ^ countShift n := hexact.symm
      _ ≤ n * 2 ^ countShift n := Nat.mul_le_mul_right _ hlow
  · calc
      n * 2 ^ countShift n < 2 ^ (n.log2 + 1) * 2 ^ countShift n :=
        Nat.mul_lt_mul_of_pos_right hhigh hshift
      _ = 2 * binade := by rw [Nat.pow_succ, Nat.mul_comm (2 ^ n.log2), Nat.mul_assoc, hexact]

theorem quotientExponent_count : quotientExponent n 1 = -(countShift n : Int) := by
  have hlog := log2_le hpos hn
  have hone : Nat.log2 1 = 0 := by decide
  have hexp : (n.log2 : Int) - (Nat.log2 1 : Nat) - 52 = -(countShift n : Int) := by
    unfold countShift
    omega
  have hfull := (shifted_bounds hpos hn).1
  simp only [quotientExponent, hexp, scaled_neg, Nat.div_one, if_neg (Nat.not_lt.2 hfull)]
  unfold countShift
  omega

/-- **The rank of a count**: its shifted significand, in the binade of its shift. -/
theorem val_roundRank_count : (roundRank n 1).val =
    n * Nat.pow 2 (countShift n) + (1074 - countShift n) * binade := by
  have hhigh := (shifted_bounds hpos hn).2
  have hle : countShift n ≤ 52 := Nat.sub_le _ _
  have hbinade : (-(countShift n : Int) + 1074).toNat = 1074 - countShift n := by omega
  have hfinite : n * Nat.pow 2 (countShift n) + (1074 - countShift n) * binade ≤ infiniteRank := by
    unfold infiniteRank binade at *
    omega
  simp only [roundRank, if_neg hpos, quotientExponent_count hpos hn, scaled_neg, roundHalfEven_one,
    hbinade]
  exact Nat.min_eq_left hfinite

end Count

/-- **A count below two to the power of 53 is read back.** -/
theorem toNat_ofNat {n : Nat} (hn : n < Nat.pow 2 53) : (ofNat n).toNat = n := by
  by_cases hpos : n = 0
  · subst hpos
    decide +kernel
  obtain ⟨hlow, hhigh⟩ := shifted_bounds hpos hn
  have hle : countShift n ≤ 52 := Nat.sub_le _ _
  have hdigits : significand (roundRank n 1).val = n * Nat.pow 2 (countShift n) := by
    rw [val_roundRank_count hpos hn]
    unfold significand
    unfold binade at *
    split <;> omega
  have hexp : -exponent (roundRank n 1).val = countShift n := by
    rw [val_roundRank_count hpos hn]
    unfold exponent
    unfold binade at *
    split <;> omega
  have hratio : ratio (roundRank n 1).val =
      (n * Nat.pow 2 (countShift n), 1 * Nat.pow 2 (countShift n)) := by
    rw [ratio, hdigits, hexp, scaled_ofNat]
  have hshift : 0 < Nat.pow 2 (countShift n) := Nat.pow_pos (by decide)
  have hcount : n ≤ greatestCount := Nat.le_trans (Nat.le_of_lt hn) (by decide)
  simp only [ofNat, toNat, hratio, Nat.one_mul]
  rw [Nat.mul_div_cancel _ hshift, Nat.min_eq_left hcount]

end TemplateBlocks.Binary64
