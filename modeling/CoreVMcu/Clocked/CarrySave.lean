import Mathlib.Algebra.BigOperators.Group.Finset.Basic
import Mathlib.Algebra.BigOperators.Intervals
import Mathlib.Tactic.Ring

/-!
# Carry-save addition

A row of full adders takes three words to a word of sums and a word of carries.  Rows that
each drop the lowest sum and halve the others add up all their inputs, one position further
for each row.
-/

namespace Clocked.CarrySave

open Finset

variable {w : Nat}

/-- The carries of a row of full adders. -/
def carries (carry sum row : BitVec w) : BitVec w := (sum &&& row) ||| (carry &&& (sum ^^^ row))

/-- The sums of a row of full adders. -/
def sums (carry sum row : BitVec w) : BitVec w := carry ^^^ sum ^^^ row

theorem fullAdder (carry sum row : Bool) :
    (carry ^^ sum ^^ row).toNat + 2 * ((sum && row) || (carry && (sum ^^ row))).toNat =
      carry.toNat + sum.toNat + row.toNat := by
  cases carry <;> cases sum <;> cases row <;> rfl

theorem toNat_eq_cons (word : BitVec (w + 1)) :
    word.toNat = word.msb.toNat * 2 ^ w + (word.setWidth w).toNat := by
  conv_lhs => rw [← BitVec.cons_msb_setWidth word]
  rw [BitVec.toNat_cons', Nat.shiftLeft_eq]

/-- A row of full adders keeps the sum of its words. -/
theorem sums_add_twice_carries (carry sum row : BitVec w) :
    (sums carry sum row).toNat + 2 * (carries carry sum row).toNat =
      carry.toNat + sum.toNat + row.toNat := by
  induction w with
  | zero => simp [BitVec.of_length_zero]
  | succ w inductionHypothesis =>
      have lower := inductionHypothesis (carry.setWidth w) (sum.setWidth w) (row.setWidth w)
      have high := fullAdder carry.msb sum.msb row.msb
      have sumsSplit := toNat_eq_cons (sums carry sum row)
      have carriesSplit := toNat_eq_cons (carries carry sum row)
      have carrySplit := toNat_eq_cons carry
      have sumSplit := toNat_eq_cons sum
      have rowSplit := toNat_eq_cons row
      simp only [sums, carries, BitVec.msb_xor, BitVec.msb_or, BitVec.msb_and, BitVec.setWidth_xor,
        BitVec.setWidth_or, BitVec.setWidth_and] at lower sumsSplit carriesSplit ⊢
      rw [sumsSplit, carriesSplit, carrySplit, sumSplit, rowSplit]
      calc _ = ((carry.msb ^^ sum.msb ^^ row.msb).toNat +
              2 * ((sum.msb && row.msb) || (carry.msb && (sum.msb ^^ row.msb))).toNat) * 2 ^ w +
            ((carry.setWidth w ^^^ sum.setWidth w ^^^ row.setWidth w).toNat +
              2 * (sum.setWidth w &&& row.setWidth w |||
                carry.setWidth w &&& (sum.setWidth w ^^^ row.setWidth w)).toNat) := by ring
        _ = _ := by
          rw [high, lower]
          ring

/-- Rows that each drop a bit and hold half of what is left add up their inputs. -/
theorem rows_total {dropped held input : Nat → Nat} (n : Nat)
    (row : ∀ j < n, dropped j + 2 * held (j + 1) = held j + input j) :
    ∑ j ∈ range n, dropped j * 2 ^ j + held n * 2 ^ n =
      held 0 + ∑ j ∈ range n, input j * 2 ^ j := by
  induction n with
  | zero => simp
  | succ n inductionHypothesis =>
      have before := inductionHypothesis fun j inside => row j (Nat.lt_succ_of_lt inside)
      have last := row n (Nat.lt_succ_self n)
      rw [sum_range_succ, sum_range_succ]
      calc ∑ j ∈ range n, dropped j * 2 ^ j + dropped n * 2 ^ n + held (n + 1) * 2 ^ (n + 1)
          = ∑ j ∈ range n, dropped j * 2 ^ j + (dropped n + 2 * held (n + 1)) * 2 ^ n := by ring
        _ = (∑ j ∈ range n, dropped j * 2 ^ j + held n * 2 ^ n) + input n * 2 ^ n := by
            rw [last]
            ring
        _ = held 0 + (∑ j ∈ range n, input j * 2 ^ j + input n * 2 ^ n) := by
            rw [before]
            ring

end Clocked.CarrySave
