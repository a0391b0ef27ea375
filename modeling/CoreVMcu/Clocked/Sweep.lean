import CoreVMcu.Clocked.Counters

/-!
# Sweeps

A position that moves by one place at each event over a range of `span + 1` places.  A
sawtooth starts again behind the last place, a triangle turns at both ends.
-/

namespace Clocked

variable {span k : Nat}

/-- The position of a sawtooth after `k` events. -/
def sawtooth (span k : Nat) : Nat := k % (span + 1)

/-- The position of a triangle after `k` events. -/
def triangle (span k : Nat) : Nat := min (k % (2 * span)) (2 * span - k % (2 * span))

/-- The last move of a triangle was downwards. -/
def falling (span k : Nat) : Bool := k != 0 && (k % (2 * span) == 0 || span < k % (2 * span))

example : (List.range 8).map (triangle 3) = [0, 1, 2, 3, 2, 1, 0, 1] := by decide

theorem sawtooth_zero (span : Nat) : sawtooth span 0 = 0 := Nat.zero_mod _

theorem triangle_zero (span : Nat) : triangle span 0 = 0 := by
  rw [triangle, Nat.zero_mod, Nat.zero_min]

theorem falling_zero (span : Nat) : falling span 0 = false := rfl

theorem falling_iff :
    falling span k = true ↔ k ≠ 0 ∧ (k % (2 * span) = 0 ∨ span < k % (2 * span)) := by
  rw [falling, Bool.and_eq_true, bne_iff_ne, Bool.or_eq_true, beq_iff_eq, decide_eq_true_iff]

theorem rising_iff :
    falling span k = false ↔ k = 0 ∨ 0 < k % (2 * span) ∧ k % (2 * span) ≤ span := by
  rw [← Bool.not_eq_true, falling_iff]
  omega

theorem sawtooth_le (span k : Nat) : sawtooth span k ≤ span :=
  Nat.le_of_lt_succ (Nat.mod_lt k (Nat.succ_pos span))

theorem triangle_le (span k : Nat) : triangle span k ≤ span := by
  rw [triangle]
  omega

theorem sawtooth_last (last : sawtooth span k = span) : sawtooth span (k + 1) = 0 :=
  (succ_last (Nat.succ_pos span) last).1

theorem sawtooth_inside (inside : sawtooth span k ≠ span) :
    sawtooth span (k + 1) = sawtooth span k + 1 :=
  (succ_inside (Nat.succ_pos span) inside).1

/-! ## Triangles -/

section Triangle

variable (moves : 0 < span)

include moves

/-- The phase of a triangle goes on or starts again. -/
theorem phase_succ : (k + 1) % (2 * span) =
    if k % (2 * span) = 2 * span - 1 then 0 else k % (2 * span) + 1 := by
  have period : 0 < 2 * span := Nat.mul_pos Nat.two_pos moves
  split
  · next last => exact (succ_last period last).1
  · next inside => exact (succ_inside period inside).1

theorem phase_lt (k : Nat) : k % (2 * span) < 2 * span :=
  Nat.mod_lt k (Nat.mul_pos Nat.two_pos moves)

/-- A triangle turns at its last place. -/
theorem triangle_turns (last : triangle span k = span) :
    triangle span (k + 1) = span - 1 ∧ falling span (k + 1) = true := by
  have phase := phase_succ (k := k) moves
  have below := phase_lt moves k
  rw [triangle] at last
  have middle : k % (2 * span) = span := by omega
  rw [middle] at phase
  refine ⟨?_, falling_iff.2 ⟨Nat.succ_ne_zero k, ?_⟩⟩
  · rw [triangle, phase]
    split <;> omega
  · rw [phase]
    split
    · next => exact Or.inl rfl
    · next => exact Or.inr (Nat.lt_succ_self span)

/-- A triangle turns back at its first place. -/
theorem triangle_turnsBack (first : triangle span k = 0) :
    triangle span (k + 1) = 1 ∧ falling span (k + 1) = false := by
  have phase := phase_succ (k := k) moves
  have below := phase_lt moves k
  rw [triangle] at first
  have start : k % (2 * span) = 0 := by omega
  rw [start, if_neg (by omega)] at phase
  refine ⟨?_, rising_iff.2 (Or.inr ?_)⟩
  · rw [triangle, phase]
    omega
  · rw [phase]
    exact ⟨Nat.one_pos, moves⟩

theorem triangle_rises (up : falling span k = false) (inside : triangle span k ≠ span) :
    triangle span (k + 1) = triangle span k + 1 ∧ falling span (k + 1) = false := by
  have phase := phase_succ (k := k) moves
  rw [triangle] at inside
  have early : k % (2 * span) < span := by
    rcases rising_iff.1 up with zero | ⟨-, upTo⟩
    · rw [zero, Nat.zero_mod]
      exact moves
    · omega
  rw [if_neg (by omega)] at phase
  refine ⟨?_, rising_iff.2 (Or.inr ?_)⟩
  · rw [triangle, triangle, phase]
    omega
  · rw [phase]
    exact ⟨Nat.succ_pos _, early⟩

theorem triangle_falls (down : falling span k = true) (inside : triangle span k ≠ 0) :
    triangle span (k + 1) = triangle span k - 1 ∧ falling span (k + 1) = true := by
  have phase := phase_succ (k := k) moves
  have below := phase_lt moves k
  rw [triangle] at inside
  have late : span < k % (2 * span) := by
    rcases (falling_iff.1 down).2 with zero | beyond
    · omega
    · exact beyond
  refine ⟨?_, falling_iff.2 ⟨Nat.succ_ne_zero k, ?_⟩⟩
  · rw [triangle, triangle, phase]
    split <;> omega
  · rw [phase]
    split
    · next => exact Or.inl rfl
    · next => exact Or.inr (Nat.lt_succ_of_lt late)

end Triangle

end Clocked
