import StoreClient.Number.Binary32.Decimal
import Mathlib.Algebra.Order.Ring.Nat

/-!
# Rounding what needs no rounding

A decimal number is read by rounding an exact quotient. This file proves that the
quotient which is a magnitude exactly is rounded to that magnitude, in particular the
exact decimal value of a magnitude.
-/

namespace StoreClient.Binary32

/-- A quotient without a rest is not rounded. -/
theorem roundQuotient_mul {den : Nat} (h : 0 < den) (q : Nat) :
    roundQuotient (q * den) den = q := by
  simp [roundQuotient, Nat.mul_div_cancel q h, h]

/-- A number of `2 ^ (23 + e)` units and more, below the next power of two, has a
logarithm of `23 + e`. -/
theorem log2_mul_pow {f : Nat} (hf : f < exponentBit) (e : Nat) :
    ((exponentBit + f) * 2 ^ e).log2 = 23 + e := by
  have hbit : exponentBit = 2 ^ 23 := rfl
  have hpos : 0 < 2 ^ e := Nat.two_pow_pos e
  have hne : (exponentBit + f) * 2 ^ e ≠ 0 := Nat.mul_ne_zero (by omega) hpos.ne'
  refine (Nat.log2_eq_iff hne).mpr ⟨?_, ?_⟩
  · rw [pow_add, ← hbit]
    exact Nat.mul_le_mul_right _ (Nat.le_add_right _ _)
  · rw [show 23 + e + 1 = 24 + e by omega, pow_add]
    refine Nat.mul_lt_mul_of_pos_right ?_ hpos
    rw [show (2 : Nat) ^ 24 = exponentBit + exponentBit from rfl]
    omega

/-- A magnitude below the lowest exponent is as many units as its fraction says. -/
theorem units_of_lt {m : Nat} (h : m < exponentBit) : units m = m := by
  simp [units, Nat.div_eq_of_lt h, Nat.mod_eq_of_lt h]

/-- A magnitude from the lowest exponent on is a fraction scaled by its exponent. -/
theorem units_of_le {m : Nat} (h : exponentBit ≤ m) :
    units m = (exponentBit + m % exponentBit) * 2 ^ (m / exponentBit - 1) := by
  have hexponent : m / exponentBit ≠ 0 := by
    have := Nat.div_pos h (by decide)
    omega
  simp [units, hexponent]

/-- A quotient that is a magnitude exactly is rounded to that magnitude. -/
theorem nearest_of_units {num den m : Nat} (hden : 0 < den) (hm : m ≤ infinity)
    (h : num * Nat.pow 2 149 = units m * den) : nearest num den = m := by
  unfold nearest
  simp only [h, Nat.mul_div_cancel _ hden, Nat.pow_eq]
  by_cases hsmall : m < exponentBit
  · have hdropped : m.log2 - 23 = 0 := by
      by_cases hzero : m = 0
      · simp [hzero]
      · have := (Nat.log2_lt hzero).mpr (show m < 2 ^ 23 from hsmall)
        omega
    rw [units_of_lt hsmall, hdropped, pow_zero, mul_one, roundQuotient_mul hden]
    omega
  · have hfraction : m % exponentBit < exponentBit := Nat.mod_lt m (by decide)
    obtain ⟨e, he⟩ : ∃ e, m / exponentBit = e + 1 :=
      Nat.exists_eq_succ_of_ne_zero (Nat.div_pos (Nat.not_lt.mp hsmall) (by decide)).ne'
    have hsplit : e * exponentBit + (exponentBit + m % exponentBit) = m := by
      rw [← Nat.add_assoc, ← Nat.succ_mul, Nat.succ_eq_add_one, ← he]
      exact Nat.div_add_mod' m exponentBit
    rw [units_of_le (Nat.not_lt.mp hsmall), he, Nat.add_sub_cancel, log2_mul_pow hfraction,
      Nat.add_sub_cancel_left, Nat.mul_assoc, Nat.mul_comm (2 ^ _) den,
      roundQuotient_mul (Nat.mul_pos hden (Nat.two_pow_pos _)), hsplit]
    exact min_eq_left hm

/-- A magnitude above zero has a unit at least. -/
theorem units_pos {m : Nat} (h : 0 < m) : 0 < units m := by
  by_cases hsmall : m < exponentBit
  · rwa [units_of_lt hsmall]
  · rw [units_of_le (Nat.not_lt.mp hsmall)]
    exact Nat.mul_pos (Nat.add_pos_left (by decide) _) (Nat.two_pow_pos _)

/-- A power of five has at least twice as many bits as its exponent. -/
theorem le_log2_of_five_pow {n k : Nat} (h : 5 ^ k ≤ n) : 2 * k ≤ n.log2 := by
  have hpow : 2 ^ (2 * k) ≤ n := by
    rw [pow_mul]
    exact (Nat.pow_le_pow_left (by decide) k).trans h
  exact (Nat.le_log2 ((Nat.two_pow_pos _).trans_le hpow).ne').mpr hpow

/-- The exact value of a magnitude above zero rounds to that magnitude. -/
theorem nearest_exactDecimal {m : Nat} (hpos : 0 < m) (hm : m ≤ infinity) :
    (exactDecimal m).nearest = m := by
  have hlog : 2 * 149 ≤ (exactDecimal m).coefficient.log2 :=
    le_log2_of_five_pow (Nat.le_mul_of_pos_left _ (units_pos hpos))
  have hne : (exactDecimal m).coefficient ≠ 0 := by
    intro hzero
    rw [hzero] at hlog
    cases hlog
  have hexponent : (exactDecimal m).exponent = -149 := rfl
  unfold Decimal.nearest
  rw [if_neg hne, if_neg (by omega), if_neg (by omega), hexponent]
  refine nearest_of_units (Nat.pow_pos (by decide)) hm ?_
  change units m * 5 ^ 149 * 10 ^ 0 * 2 ^ 149 = units m * 10 ^ 149
  rw [pow_zero, Nat.mul_one, Nat.mul_assoc, ← Nat.mul_pow]

end StoreClient.Binary32
