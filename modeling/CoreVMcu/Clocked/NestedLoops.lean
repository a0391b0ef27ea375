import CoreVMcu.Clocked.Counters
import Mathlib.Data.BitVec

/-!
# Two nested loops over addresses

The inner loop goes on from the address at which the round of the outer loop began, by a step
of its own; the outer loop goes on from the beginning of its round by another step.  The rounds
are numbered through, and the address of a round is a function of its number.
-/

namespace Clocked

/-- The start of the loops, the step of each, and the last round of each. -/
structure NestedLoops (width : Nat) where
  start : BitVec width
  innerStep : BitVec width
  outerStep : BitVec width
  innerLast : Nat
  outerLast : Nat

namespace NestedLoops

variable {width : Nat} (loops : NestedLoops width)

/-- The number of rounds. -/
def total : Nat := (loops.innerLast + 1) * (loops.outerLast + 1)

/-- The inner loop in a round. -/
def inner (round : Nat) : Nat := round % (loops.innerLast + 1)

/-- The outer loop in a round. -/
def outer (round : Nat) : Nat := round / (loops.innerLast + 1)

/-- The address at which the outer loop is in a round. -/
def base (round : Nat) : BitVec width :=
  loops.start + BitVec.ofNat width (loops.outer round) * loops.outerStep

/-- The address of a round. -/
def address (round : Nat) : BitVec width :=
  loops.base round + BitVec.ofNat width (loops.inner round) * loops.innerStep

/-- The addresses of all rounds. -/
def addresses : List (BitVec width) := (List.range loops.total).map loops.address

variable {loops} {round : Nat}

theorem total_pos : 0 < loops.total := Nat.mul_pos (Nat.succ_pos _) (Nat.succ_pos _)

theorem length_addresses : loops.addresses.length = loops.total := by
  rw [addresses, List.length_map, List.length_range]

theorem inner_le (round : Nat) : loops.inner round ≤ loops.innerLast :=
  Nat.le_of_lt_succ (Nat.mod_lt _ (Nat.succ_pos _))

theorem outer_le (inside : round < loops.total) : loops.outer round ≤ loops.outerLast :=
  Nat.le_of_lt_succ (Nat.div_lt_of_lt_mul inside)

/-- Both loops are in their last round exactly in the last round of all. -/
theorem last_iff (round : Nat) :
    loops.inner round = loops.innerLast ∧ loops.outer round = loops.outerLast ↔
      round + 1 = loops.total := by
  have whole : loops.total = (loops.innerLast + 1) * loops.outerLast + loops.innerLast + 1 := by
    rw [total, Nat.mul_succ, Nat.add_assoc]
  have split : (loops.innerLast + 1) * loops.outer round + loops.inner round = round :=
    Nat.div_add_mod round _
  rw [whole]
  constructor
  · rintro ⟨inner, outer⟩
    rw [inner, outer] at split
    rw [split]
  · intro last
    have position := Nat.succ.inj last
    constructor
    · rw [inner, position, Nat.mul_add_mod, Nat.mod_eq_of_lt (Nat.lt_succ_self _)]
    · rw [outer, position, Nat.mul_add_div (Nat.succ_pos _),
        Nat.div_eq_of_lt (Nat.lt_succ_self _), Nat.add_zero]

@[simp] theorem inner_zero : loops.inner 0 = 0 := Nat.zero_mod _

@[simp] theorem outer_zero : loops.outer 0 = 0 := Nat.zero_div _

theorem base_zero : loops.base 0 = loops.start := by
  rw [base, outer_zero]
  exact (congrArg _ (zero_mul _)).trans (add_zero _)

theorem address_zero : loops.address 0 = loops.start := by
  rw [address, base_zero, inner_zero]
  exact (congrArg _ (zero_mul _)).trans (add_zero _)

/-- One step further than a number of steps. -/
theorem ofNat_succ_mul (n : Nat) (amount : BitVec width) :
    BitVec.ofNat width (n + 1) * amount = BitVec.ofNat width n * amount + amount := by
  rw [BitVec.ofNat_add, add_mul]
  exact congrArg _ (one_mul amount)

section Inside

variable (inside : loops.inner round ≠ loops.innerLast)
include inside

theorem inner_succ : loops.inner (round + 1) = loops.inner round + 1 :=
  (succ_inside (Nat.succ_pos _) inside).1

theorem outer_succ : loops.outer (round + 1) = loops.outer round :=
  (succ_inside (Nat.succ_pos _) inside).2

theorem base_succ : loops.base (round + 1) = loops.base round := by
  rw [base, outer_succ inside, base]

theorem address_succ : loops.address (round + 1) = loops.address round + loops.innerStep := by
  rw [address, base_succ inside, inner_succ inside, ofNat_succ_mul, ← add_assoc]
  rfl

end Inside

section EndOfRound

variable (ends : loops.inner round = loops.innerLast)
include ends

theorem inner_next : loops.inner (round + 1) = 0 := (succ_last (Nat.succ_pos _) ends).1

theorem outer_next : loops.outer (round + 1) = loops.outer round + 1 :=
  (succ_last (Nat.succ_pos _) ends).2

theorem base_next : loops.base (round + 1) = loops.base round + loops.outerStep := by
  rw [base, outer_next ends, ofNat_succ_mul, ← add_assoc]
  rfl

theorem address_next : loops.address (round + 1) = loops.base round + loops.outerStep := by
  rw [address, base_next ends, inner_next ends]
  exact (congrArg _ (zero_mul _)).trans (add_zero _)

end EndOfRound

end NestedLoops

end Clocked
