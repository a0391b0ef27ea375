import Mathlib.Algebra.Ring.Periodic
import Mathlib.Data.Nat.Count

/-!
# Periodic actions

A state on which one action after the other is performed, where the actions repeat with some
period.  The states repeat from the first time on at which they meet themselves one period later.
-/

namespace Clocked

open Function

universe u

variable {State : Type u} {act : Nat → State → State} {state : State} {period : Nat}

/-- The state after the first actions. -/
def actedOn (act : Nat → State → State) (state : State) : Nat → State
  | 0 => state
  | k + 1 => act k (actedOn act state k)

/-- States that meet themselves one period later do so ever after. -/
theorem actedOn_repeats (periodic : Periodic act period) {j k : Nat}
    (meets : actedOn act state (j + period) = actedOn act state j) (later : j ≤ k) :
    actedOn act state (k + period) = actedOn act state k := by
  induction later with
  | refl => exact meets
  | step _ inductionHypothesis =>
    rw [Nat.succ_eq_add_one, Nat.add_right_comm, actedOn, actedOn, inductionHypothesis, periodic]

/-- An action that forgets the state makes it meet itself. -/
theorem actedOn_repeats_of_forgets (periodic : Periodic act period) {i k : Nat}
    (inside : i < period) (forgets : ∀ x y, act i x = act i y) (later : period ≤ k) :
    actedOn act state (k + period) = actedOn act state k := by
  apply actedOn_repeats periodic _ (Nat.le_trans inside later)
  rw [Nat.succ_eq_add_one, Nat.add_right_comm, actedOn, actedOn, periodic]
  exact forgets _ _

/-- Actions that do nothing. -/
theorem actedOn_id (idle : ∀ i x, act i x = x) (k : Nat) : actedOn act state k = state := by
  induction k with
  | zero => rfl
  | succ k inductionHypothesis => rw [actedOn, idle, inductionHypothesis]

/-- What some actions do to a part of the state is decided by this part. -/
theorem map_actedOn {Part : Type u} (part : State → Part) {act' : Nat → Part → Part}
    (decides : ∀ i x, part (act i x) = act' i (part x)) (k : Nat) :
    part (actedOn act state k) = actedOn act' (part state) k := by
  induction k with
  | zero => rfl
  | succ k inductionHypothesis => rw [actedOn, actedOn, decides, inductionHypothesis]

/-! ## One action at marked places -/

section Marked

variable {marked : Nat → Prop} [DecidablePred marked]

/-- The same action at all marked places and none elsewhere. -/
theorem actedOn_eq_iterate {action : State → State}
    (acts : ∀ i x, act i x = if marked i then action x else x) (k : Nat) :
    actedOn act state k = action^[Nat.count marked k] state := by
  induction k with
  | zero => rfl
  | succ k inductionHypothesis =>
    rw [actedOn, acts, inductionHypothesis, Nat.count_succ]
    split
    · rw [iterate_succ_apply']
    · rfl

/-- Every period has the same number of marked places. -/
theorem count_add_period (periodic : Periodic marked period) (k : Nat) :
    Nat.count marked (k + period) = Nat.count marked k + Nat.count marked period := by
  induction k with
  | zero => rw [Nat.count_zero, Nat.zero_add, Nat.zero_add]
  | succ k inductionHypothesis =>
    have same : marked (k + period) ↔ marked k := iff_of_eq (periodic k)
    rw [Nat.add_right_comm, Nat.count_succ, Nat.count_succ, inductionHypothesis]
    simp only [same]
    omega

/-- It does not matter where a period begins. -/
theorem count_shifted (periodic : Periodic marked period) (start : Nat) :
    Nat.count (fun i => marked (start + i)) period = Nat.count marked period := by
  have whole := count_add_period periodic start
  rw [Nat.count_add] at whole
  exact Nat.add_left_cancel whole

end Marked

end Clocked
