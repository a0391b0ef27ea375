import Mathlib.Data.Nat.Bitwise
import Mathlib.Tactic.Ring

/-!
# Long division

The digits of a quotient are found from the highest place to the lowest: a digit is set when the
multiple of the divisor at its place still fits into the remainder, and is then taken off.
Signed numbers are divided by their magnitudes.
-/

namespace Clocked

/-- The digit of the quotient at a place of the divisor. -/
theorem div_place (dividend : Nat) {place : Nat} (positive : 0 < place) :
    dividend / place =
      2 * (dividend / (2 * place)) + (decide (place ≤ dividend % (2 * place))).toNat := by
  have whole := Nat.div_add_mod dividend (2 * place)
  have below := Nat.mod_lt dividend (Nat.mul_pos two_pos positive)
  rw [Nat.div_eq_iff positive]
  generalize dividend / (2 * place) = quotient at *
  generalize dividend % (2 * place) = remainder at *
  have doubled : 2 * place * quotient = 2 * quotient * place := by ring
  by_cases fits : place ≤ remainder
  · rw [decide_eq_true fits, Bool.toNat_true, Nat.add_mul, Nat.one_mul]
    omega
  · rw [decide_eq_false fits, Bool.toNat_false, Nat.add_zero]
    omega

/-- What the digit leaves. -/
theorem mod_place (dividend place : Nat) :
    dividend % place =
      if place ≤ dividend % (2 * place) then dividend % (2 * place) - place
      else dividend % (2 * place) := by
  rcases Nat.eq_zero_or_pos place with rfl | positive
  · simp
  · have below := Nat.mod_lt dividend (Nat.mul_pos two_pos positive)
    have same : dividend % (2 * place) % place = dividend % place :=
      Nat.mod_mod_of_dvd dividend (Nat.dvd_mul_left place 2)
    rw [← same]
    generalize dividend % (2 * place) = remainder at *
    split
    next fits =>
      rw [Nat.mod_eq_sub_mod fits, Nat.mod_eq_of_lt (by omega)]
    next small => exact Nat.mod_eq_of_lt (by omega)

/-- A signed quotient. -/
theorem tdiv_eq_natAbs (dividend divisor : Int) :
    dividend.tdiv divisor =
      if (decide (dividend < 0) ^^ decide (divisor < 0)) = true then
        -((dividend.natAbs / divisor.natAbs : Nat) : Int)
      else ((dividend.natAbs / divisor.natAbs : Nat) : Int) := by
  cases dividend with
  | ofNat dividend =>
      cases divisor with
      | ofNat divisor => rfl
      | negSucc divisor => exact (if_pos (by simp [Int.negSucc_lt_zero])).symm
  | negSucc dividend =>
      cases divisor with
      | ofNat divisor => exact (if_pos (by simp [Int.negSucc_lt_zero])).symm
      | negSucc divisor => exact (if_neg (by simp [Int.negSucc_lt_zero])).symm

/-- A signed remainder. -/
theorem tmod_eq_natAbs (dividend divisor : Int) :
    dividend.tmod divisor =
      if decide (dividend < 0) = true then -((dividend.natAbs % divisor.natAbs : Nat) : Int)
      else ((dividend.natAbs % divisor.natAbs : Nat) : Int) := by
  cases dividend with
  | ofNat dividend =>
      cases divisor with
      | ofNat divisor => rfl
      | negSucc divisor => rfl
  | negSucc dividend =>
      rw [if_pos (decide_eq_true (Int.negSucc_lt_zero dividend))]
      cases divisor with
      | ofNat divisor => rfl
      | negSucc divisor => rfl

end Clocked
