import Mathlib.Algebra.Group.Nat.Defs
import Mathlib.Data.Nat.Bits

/-!
# Counters in registers

A register counts up or down by one, and the distance to a limit counts modulo its
width.  A register that toggles holds the parity of a count.
-/

namespace Clocked

variable {width : Nat} {count limit : BitVec (width + 1)}

theorem toNat_one (width : Nat) : (1 : BitVec (width + 1)).toNat = 1 :=
  Nat.mod_eq_of_lt (Nat.one_lt_two_pow (Nat.succ_ne_zero width))

theorem toNat_pos_of_ne {width : Nat} {count : BitVec width} (notZero : count ≠ 0) :
    0 < count.toNat :=
  Nat.pos_of_ne_zero fun zero => notZero (BitVec.eq_of_toNat_eq (by simpa using zero))

theorem toNat_pred (positive : 0 < count.toNat) : (count - 1).toNat = count.toNat - 1 := by
  rw [BitVec.toNat_sub_of_le, toNat_one]
  rw [BitVec.le_def, toNat_one]
  exact positive

theorem toNat_pred_add_one (notZero : count ≠ 0) : (count - 1).toNat + 1 = count.toNat := by
  have positive := toNat_pos_of_ne notZero
  rw [toNat_pred positive, Nat.sub_add_cancel positive]

theorem toNat_succ (room : count.toNat + 1 < 2 ^ (width + 1)) :
    (count + 1).toNat = count.toNat + 1 := by
  rw [BitVec.toNat_add, toNat_one, Nat.mod_eq_of_lt room]

theorem toNat_succ_of_lt (limit : BitVec (width + 1)) (below : count.toNat < limit.toNat) :
    (count + 1).toNat = count.toNat + 1 :=
  toNat_succ (Nat.lt_of_le_of_lt below limit.isLt)

/-- A counter that has not reached a limit comes one nearer to it. -/
theorem toNat_distance (before : count ≠ limit) :
    (limit - (count + 1)).toNat + 1 = (limit - count).toNat := by
  rw [← BitVec.sub_sub]
  apply toNat_pred_add_one
  intro zero
  rw [BitVec.sub_eq_iff_eq_add] at zero
  exact before (zero.trans (BitVec.zero_add count)).symm

/-! ## Counters that start again -/

section Wraps

variable {n limit : Nat}

theorem succ_inside (pos : 0 < limit) (inside : n % limit ≠ limit - 1) :
    (n + 1) % limit = n % limit + 1 ∧ (n + 1) / limit = n / limit := by
  have small : n % limit + 1 < limit := by
    have below := Nat.mod_lt n pos
    omega
  have split : n + 1 = limit * (n / limit) + (n % limit + 1) := by
    rw [← Nat.add_assoc, Nat.div_add_mod]
  have quotient : (n + 1) / limit = n / limit := by
    rw [split, Nat.mul_add_div pos, Nat.div_eq_of_lt small, Nat.add_zero]
  refine ⟨?_, quotient⟩
  rw [split, Nat.mul_add_mod, Nat.mod_eq_of_lt small]

theorem succ_last (pos : 0 < limit) (last : n % limit = limit - 1) :
    (n + 1) % limit = 0 ∧ (n + 1) / limit = n / limit + 1 := by
  have split : n + 1 = limit * (n / limit) + limit := by
    have whole := Nat.div_add_mod n limit
    omega
  constructor
  · rw [split, Nat.mul_add_mod, Nat.mod_self]
  · rw [split, Nat.mul_add_div pos, Nat.div_self pos]

theorem ofNat_beq_ofNat {width a b : Nat} (left : a < 2 ^ width) (right : b < 2 ^ width) :
    (BitVec.ofNat width a == BitVec.ofNat width b) = decide (a = b) := by
  rw [Bool.eq_iff_iff, beq_iff_eq, decide_eq_true_eq, ← BitVec.toNat_inj, BitVec.toNat_ofNat,
    BitVec.toNat_ofNat, Nat.mod_eq_of_lt left, Nat.mod_eq_of_lt right]

/-- A register that counts modulo a limit. -/
theorem wraps_next {width : Nat} (pos : 0 < limit) (fits : limit ≤ 2 ^ width) :
    (if BitVec.ofNat width (n % limit) == BitVec.ofNat width (limit - 1) then 0
      else BitVec.ofNat width (n % limit) + 1) = BitVec.ofNat width ((n + 1) % limit) := by
  have below := Nat.mod_lt n pos
  rw [ofNat_beq_ofNat (Nat.lt_of_lt_of_le below fits) (by omega)]
  cases (inferInstance : Decidable (n % limit = limit - 1)) with
  | isTrue last =>
      rw [if_pos (decide_eq_true last), (succ_last pos last).1]
      rfl
  | isFalse inside =>
      rw [if_neg (by rw [decide_eq_false inside]; exact Bool.false_ne_true),
        (succ_inside pos inside).1, BitVec.ofNat_add]
      rfl

end Wraps

/-! ## Parities -/

section Parities

variable {early late : Nat}

/-- A count that is behind another one, and is of another parity, is less. -/
theorem lt_of_bodd_ne (behind : early ≤ late) (differ : early.bodd ≠ late.bodd) : early < late :=
  Nat.lt_of_le_of_ne behind fun same => differ (congrArg Nat.bodd same)

/-- A count that is at most one behind another one, and is of the same parity, is equal. -/
theorem eq_of_bodd_eq (behind : early ≤ late) (close : late ≤ early + 1)
    (same : early.bodd = late.bodd) : early = late := by
  rcases Nat.lt_or_eq_of_le behind with less | equal
  · have next : late = early + 1 := Nat.le_antisymm close less
    rw [next, Nat.bodd_succ] at same
    exact ((Bool.eq_not_self _).mp same).elim
  · exact equal

/-- A count that is at most one behind another one is equal to it if its parity is. -/
theorem bodd_beq_of_close (behind : early ≤ late) (close : late ≤ early + 1) :
    (early.bodd == late.bodd) = decide (early = late) := by
  rw [Bool.beq_eq_decide_eq, decide_eq_decide]
  exact ⟨eq_of_bodd_eq behind close, congrArg Nat.bodd⟩

/-- What a count is after its register has followed another one. -/
def follow (early late : Nat) : Nat := if early.bodd = late.bodd then early else early + 1

theorem bodd_follow (early late : Nat) : (follow early late).bodd = late.bodd := by
  rw [follow]
  split
  · assumption
  · rename_i differ
    rw [Nat.bodd_succ, Bool.eq_not.mpr differ, Bool.not_not]

theorem follow_le (behind : early ≤ late) : follow early late ≤ late := by
  rw [follow]
  split
  · exact behind
  · rename_i differ
    exact lt_of_bodd_ne behind differ

theorem le_follow (early late : Nat) : early ≤ follow early late := by
  rw [follow]
  split
  · exact Nat.le_refl early
  · exact Nat.le_succ early

theorem follow_of_close (behind : early ≤ late) (close : late ≤ early + 1) :
    follow early late = late := by
  rw [follow]
  split
  · rename_i same
    exact eq_of_bodd_eq behind close same
  · rename_i differ
    exact Nat.le_antisymm (lt_of_bodd_ne behind differ) close

end Parities

end Clocked
