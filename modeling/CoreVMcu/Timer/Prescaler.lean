import CoreVMcu.Clocked.Counters
import CoreVMcu.Timer.Halves
import CoreVMcu.Timer.Mode64

/-!
# The prescalers of the timer unit

A prescaler counts the ticks of its source and enables the counter in the cycle after it
has reached its target, whether there is a tick in that cycle or not.
-/

namespace CoreVMcu.Timer

open Clocked

namespace TimerUnit

variable (timer : TimerUnit) (input : TimerInput)

/-- The counter of a half is enabled for one increment. -/
def countEnable : Side → Bool
  | .low => (timer.enables input).countLo
  | .high => (timer.enables input).countHi

/-- The counter of a half is reset. -/
def resetCount : Side → Bool
  | .low => timer.resetCountLo input
  | .high => timer.resetCountHi input

/-- A tick of the source: a cycle of the system clock or an edge of the reference clock,
in which the timer is not stopped. -/
def sourceTick (onRefClk : Bool) : Bool :=
  if onRefClk then timer.refClkEdge input else !input.stoptimer

/-- The half counts with its prescaler, on the given source and with the given value. -/
structure Prescales (side : Side) (onRefClk : Bool) (value : BitVec 8) (timer : TimerUnit)
    (input : TimerInput) : Prop where
  enabled : (timer.half side).cfg.getLsbD enableBit = true
  prescaled : (timer.half side).cfg.getLsbD prescalerEnBit = true
  source : (timer.half side).cfg.getLsbD refClkEnBit = onRefClk
  value : (timer.half side).cfg.extractLsb' 8 8 = value
  noReset : (timer.half side).softReset (timer.halfInput input side) = false
  ownCounter : side = .high → timer.mode64 = false

/-- The prescaler is at zero and its flag says whether that is its target. -/
def Fresh (side : Side) (value : BitVec 8) (timer : TimerUnit) : Prop :=
  (timer.half side).prescaler = { count := 0, targetReached := value == 0 }

instance (side : Side) (value : BitVec 8) (timer : TimerUnit) :
    Decidable (timer.Fresh side value) := inferInstanceAs (Decidable (_ = _))

end TimerUnit

section Ticks

variable (timer : TimerUnit) (schedule : Nat → TimerInput) (onRefClk : Bool)

/-- There is a tick in a cycle. -/
def tickAt (n : Nat) : Bool := (unitAt timer schedule n).sourceTick (schedule n) onRefClk

/-- The number of ticks before a cycle. -/
def ticksBefore : Nat → Nat
  | 0 => 0
  | n + 1 => ticksBefore n + (tickAt timer schedule onRefClk n).toNat

/-- The tick of a cycle completes a group of `value + 1` ticks. -/
def dueAt (value : BitVec 8) (n : Nat) : Bool :=
  tickAt timer schedule onRefClk n &&
    (ticksBefore timer schedule onRefClk n + 1) % (value.toNat + 1) == 0

/-- The counter is enabled with the tick that completes a group of `value + 1` ticks, and
moves by one then and at no other time, unless it is reset or written. -/
def CountsGroup (side : Side) (value : BitVec 8) (n : Nat) : Prop :=
  (unitAt timer schedule n).countEnable (schedule n) side =
    dueAt timer schedule onRefClk value n ∧
  ((unitAt timer schedule (n + 1)).half side).counter.count =
    if (unitAt timer schedule n).resetCount (schedule n) side then 0
    else if (schedule n).writesTo (.of side .val) then (schedule n).pwdata
    else if dueAt timer schedule onRefClk value n then
      ((unitAt timer schedule n).half side).counter.count + 1
    else ((unitAt timer schedule n).half side).counter.count

/-- What an earlier count leaves in the prescaler.  The flag clears it, in the first cycle,
or in the second one if the count is at the target and has no tick. -/
def leftOver (side : Side) (value : BitVec 8) : Nat :=
  let prescaler := (timer.half side).prescaler
  if prescaler.targetReached || (prescaler.count == value.setWidth 32 &&
      !tickAt timer schedule onRefClk 0) then 0
  else prescaler.count.toNat

/-- All ticks of a group but one have come, the last of them in the cycle before.  In the
first group what is left over comes on top of the ticks. -/
def awaitsLast (side : Side) (value : BitVec 8) : Nat → Bool
  -- the flag and the count of the start decide in the first two cycles
  | 0 => (timer.half side).prescaler.targetReached
  | 1 =>
      let prescaler := (timer.half side).prescaler
      (if prescaler.targetReached then 0
        else if tickAt timer schedule onRefClk 0 then prescaler.count + 1
        else prescaler.count) == value.setWidth 32
  | n + 2 =>
      let ticks := ticksBefore timer schedule onRefClk (n + 2)
      (value == 0 || tickAt timer schedule onRefClk (n + 1)) &&
        (if ticks ≤ value.toNat then leftOver timer schedule onRefClk side value + ticks
          else ticks % (value.toNat + 1)) == value.toNat

/-- The last tick of a group comes exactly when it is awaited and the timer is not
stopped. -/
def CompletesAtOnce (side : Side) (value : BitVec 8) (n : Nat) : Prop :=
  (awaitsLast timer schedule onRefClk side value n && !(schedule n).stoptimer) =
    dueAt timer schedule onRefClk value n

instance (side : Side) (value : BitVec 8) (n : Nat) :
    Decidable (CountsGroup timer schedule onRefClk side value n) :=
  inferInstanceAs (Decidable (_ ∧ _))

instance (side : Side) (value : BitVec 8) (n : Nat) :
    Decidable (CompletesAtOnce timer schedule onRefClk side value n) :=
  inferInstanceAs (Decidable (_ = _))

end Ticks

/-- The tick after all but one of a group completes it. -/
theorem lastOfGroup (ticks group : Nat) :
    ((ticks + 1) % (group + 1) == 0) = decide (ticks % (group + 1) = group) := by
  cases (inferInstance : Decidable (ticks % (group + 1) = group)) with
  | isTrue last => rw [(succ_last (Nat.succ_pos group) last).1, decide_eq_true last]; rfl
  | isFalse inside => rw [(succ_inside (Nat.succ_pos group) inside).1, decide_eq_false inside]; rfl

namespace TimerUnit

variable {side : Side} {onRefClk : Bool} {value : BitVec 8} {timer : TimerUnit}
variable {input : TimerInput}

/-- The counter moves by one exactly when it is enabled, unless it is reset or written. -/
theorem step_count (timer : TimerUnit) (input : TimerInput) (side : Side) :
    ((timer.step input).half side).counter.count =
      if timer.resetCount input side then 0
      else if input.writesTo (.of side .val) then input.pwdata
      else if timer.countEnable input side then (timer.half side).counter.count + 1
      else (timer.half side).counter.count := by
  cases side <;> rfl

/-- The counter is enabled by the flag of the prescaler. -/
theorem Prescales.countEnable (prescales : Prescales side onRefClk value timer input) :
    timer.countEnable input side =
      ((timer.half side).prescaler.targetReached && !input.stoptimer) := by
  have enables : ((timer.half side).enables (timer.halfInput input side)).1 =
      ((timer.half side).prescaler.targetReached && !input.stoptimer) := by
    rw [TimerHalf.enables, prescales.enabled, prescales.prescaled]
    cases (timer.half side).cfg.getLsbD refClkEnBit <;> rfl
  cases side with
  | low => exact enables_low.1.trans enables
  | high => exact (enables_high (prescales.ownCounter rfl)).1.trans enables

/-- The prescaler counts the ticks and starts again behind its target. -/
theorem Prescales.step_prescaler (prescales : Prescales side onRefClk value timer input) :
    ((timer.step input).half side).prescaler =
      let count :=
        if (timer.half side).prescaler.targetReached then 0
        else if timer.sourceTick input onRefClk then (timer.half side).prescaler.count + 1
        else (timer.half side).prescaler.count
      { count := count, targetReached := count == value.setWidth 32 } := by
  have steps : ((timer.step input).half side).prescaler =
      (timer.half side).prescaler.step
        ((timer.half side).prescalerInput (timer.halfInput input side)) := by
    cases side with
    | low => exact step_prescaler_low
    | high => exact congrArg TimerHalf.prescaler (step_high (prescales.ownCounter rfl))
  have enable : ((timer.half side).enables (timer.halfInput input side)).2 =
      timer.sourceTick input onRefClk := by
    rw [TimerHalf.enables, prescales.enabled, prescales.prescaled, prescales.source, sourceTick]
    cases onRefClk with
    | false => rfl
    | true =>
        change (timer.refClkEdge input && !input.stoptimer) = timer.refClkEdge input
        rw [refClkEdge]
        cases input.stoptimer <;> simp
  have reset : (timer.half side).resetPrescaler (timer.halfInput input side) =
      (timer.half side).prescaler.targetReached := by
    rw [TimerHalf.resetPrescaler, prescales.noReset, prescales.prescaled, Bool.false_or,
      Bool.true_and]
  rw [steps, PrescalerCounter.step, PrescalerCounter.next, TimerHalf.prescalerInput, enable, reset,
    prescalerTarget, prescales.value, Bool.or_self]
  rfl

theorem zero_beq_target (value : BitVec 8) :
    ((0 : BitVec 32) == value.setWidth 32) = (value == 0) := by
  rw [Bool.eq_iff_iff, beq_iff_eq, beq_iff_eq, ← BitVec.toNat_inj, ← BitVec.toNat_inj,
    BitVec.toNat_setWidth_of_le (by decide)]
  exact eq_comm

/-- The prescaler after some ticks of a group, of which the last one came in the cycle
before or not. -/
structure AtTick (side : Side) (value : BitVec 8) (ticks : Nat) (ticked : Bool)
    (timer : TimerUnit) : Prop where
  inside : ticks ≤ value.toNat
  before : ticks < value.toNat →
    (timer.half side).prescaler.count.toNat = ticks ∧
      (timer.half side).prescaler.targetReached = false
  last : ticks = value.toNat →
    (timer.half side).prescaler.targetReached = (value == 0 || ticked) ∧
      ((timer.half side).prescaler.targetReached = false →
        (timer.half side).prescaler.count = 0)

theorem Fresh.atTick (fresh : Fresh side value timer) (ticked : Bool) :
    AtTick side value 0 ticked timer := by
  rw [Fresh] at fresh
  refine ⟨Nat.zero_le _, ?_, ?_⟩
  · intro positive
    rw [fresh]
    refine ⟨rfl, beq_eq_false_iff_ne.mpr fun zero => ?_⟩
    rw [zero] at positive
    exact absurd positive (Nat.lt_irrefl 0)
  · intro zero
    rw [fresh, BitVec.eq_of_toNat_eq (y := 0) zero.symm]
    exact ⟨rfl, fun _ => rfl⟩

variable {ticks : Nat} {ticked : Bool}

/-- The flag of the prescaler says that the last tick of the group is awaited. -/
theorem AtTick.targetReached (at' : AtTick side value ticks ticked timer) :
    (timer.half side).prescaler.targetReached =
      ((value == 0 || ticked) && decide (ticks = value.toNat)) := by
  cases (inferInstance : Decidable (ticks = value.toNat)) with
  | isTrue all => rw [(at'.last all).1, decide_eq_true all, Bool.and_true]
  | isFalse some =>
      rw [(at'.before (Nat.lt_of_le_of_ne at'.inside some)).2, decide_eq_false some, Bool.and_false]

/-- When all ticks of a group but one have come, the prescaler is fresh in the next cycle. -/
theorem AtTick.restarts (at' : AtTick side value ticks ticked timer)
    (prescales : Prescales side onRefClk value timer input)
    (completes : ((timer.half side).prescaler.targetReached && !input.stoptimer) =
      (timer.sourceTick input onRefClk && decide (ticks = value.toNat)))
    (all : ticks = value.toNat) : Fresh side value (timer.step input) := by
  have count : (if (timer.half side).prescaler.targetReached then 0
      else if timer.sourceTick input onRefClk then (timer.half side).prescaler.count + 1
      else (timer.half side).prescaler.count) = 0 := by
    cases reached : (timer.half side).prescaler.targetReached with
    | true => rw [if_pos rfl]
    | false =>
        rw [reached, Bool.false_and, decide_eq_true all, Bool.and_true] at completes
        rw [← completes, if_neg Bool.false_ne_true, if_neg Bool.false_ne_true]
        exact (at'.last all).2 reached
  rw [Fresh, prescales.step_prescaler]
  dsimp only
  rw [count, zero_beq_target]

/-- A cycle of the prescaler. -/
theorem AtTick.step (at' : AtTick side value ticks ticked timer)
    (prescales : Prescales side onRefClk value timer input)
    (completes : ((timer.half side).prescaler.targetReached && !input.stoptimer) =
      (timer.sourceTick input onRefClk && decide (ticks = value.toNat))) :
    AtTick side value ((ticks + (timer.sourceTick input onRefClk).toNat) % (value.toNat + 1))
      (timer.sourceTick input onRefClk) (timer.step input) := by
  have inside := at'.inside
  have small := value.isLt
  have target : (value.setWidth 32).toNat = value.toNat := BitVec.toNat_setWidth_of_le (by decide)
  cases (inferInstance : Decidable (ticks = value.toNat)) with
  | isTrue all =>
      have fresh := at'.restarts prescales completes all
      cases timer.sourceTick input onRefClk with
      | true =>
          rw [all, Bool.toNat_true, Nat.mod_self]
          exact fresh.atTick true
      | false =>
          rw [all, Bool.toNat_false, Nat.add_zero, Nat.mod_eq_of_lt (Nat.lt_succ_self _)]
          rw [Fresh] at fresh
          refine ⟨Nat.le_refl _, fun below => absurd below (Nat.lt_irrefl _), fun _ => ?_⟩
          rw [fresh]
          exact ⟨(Bool.or_false _).symm, fun _ => rfl⟩
  | isFalse some =>
      have below := Nat.lt_of_le_of_ne inside some
      obtain ⟨count, notReached⟩ := at'.before below
      have next := prescales.step_prescaler
      rw [notReached, if_neg Bool.false_ne_true] at next
      cases tick : timer.sourceTick input onRefClk with
      | true =>
          rw [tick, if_pos rfl] at next
          have counted : ((timer.half side).prescaler.count + 1).toNat = ticks + 1 := by
            rw [toNat_succ (by omega), count]
          rw [Bool.toNat_true, Nat.mod_eq_of_lt (by omega)]
          refine ⟨below, fun goesOn => ?_, fun ends => ?_⟩
          · rw [next]
            refine ⟨counted, beq_eq_false_iff_ne.mpr fun same => ?_⟩
            have values := congrArg BitVec.toNat same
            rw [counted, target] at values
            omega
          · rw [next]
            have reached : ((timer.half side).prescaler.count + 1 == value.setWidth 32) = true := by
              rw [beq_iff_eq, ← BitVec.toNat_inj, counted, target, ends]
            exact ⟨reached.trans (Bool.or_true _).symm, fun no => absurd (reached.symm.trans no)
              Bool.noConfusion⟩
      | false =>
          rw [tick, if_neg Bool.false_ne_true] at next
          rw [Bool.toNat_false, Nat.add_zero, Nat.mod_eq_of_lt (by omega)]
          refine ⟨inside, fun _ => ?_, fun all => absurd all some⟩
          rw [next]
          refine ⟨count, beq_eq_false_iff_ne.mpr fun same => ?_⟩
          have values := congrArg BitVec.toNat same
          rw [count, target] at values
          exact some values

/-! ## Counts that are left over -/

theorem sourceTick_of_stop (stopped : input.stoptimer = true) :
    timer.sourceTick input onRefClk = false := by
  rw [sourceTick, refClkEdge, stopped, Bool.not_true, Bool.and_false]
  exact ite_self false

variable {left : Nat}

/-- The prescaler in the first group of ticks when a count was left over.  It is ahead of the
ticks until it is at its target, from which it can start again only while the timer is
stopped; then it is behind. -/
inductive OutOfStep (side : Side) (value : BitVec 8) (left ticks : Nat) (ticked : Bool)
    (timer : TimerUnit) : Prop
  | ahead (inside : ticks ≤ value.toNat)
      (count : (timer.half side).prescaler.count = BitVec.ofNat 32 (left + ticks))
      (reached : (timer.half side).prescaler.targetReached = decide (left + ticks = value.toNat))
      (atTarget : left + ticks = value.toNat → 0 < ticks ∧ ticked = true)
  | behind (inside : ticks ≤ value.toNat) (less : left < value.toNat)
      (count : (timer.half side).prescaler.count.toNat + value.toNat = left + ticks)
      (notReached : (timer.half side).prescaler.targetReached = false)
      (rests : (timer.half side).prescaler.count = 0 → ticked = false)

theorem OutOfStep.inside (out : OutOfStep side value left ticks ticked timer) :
    ticks ≤ value.toNat := by
  cases out with
  | ahead inside => exact inside
  | behind inside => exact inside

/-- The flag is set with the tick that takes the count to the target. -/
theorem OutOfStep.targetReached (out : OutOfStep side value left ticks ticked timer) :
    (timer.half side).prescaler.targetReached =
      ((value == 0 || ticked) && decide (left + ticks = value.toNat)) := by
  cases out with
  | ahead _ _ reached atTarget =>
      rw [reached]
      cases (inferInstance : Decidable (left + ticks = value.toNat)) with
      | isTrue all => rw [(atTarget all).2, Bool.or_true, Bool.true_and]
      | isFalse some => rw [decide_eq_false some, Bool.and_false]
  | behind _ less count notReached rests =>
      rw [notReached]
      cases (inferInstance : Decidable (left + ticks = value.toNat)) with
      | isTrue all =>
          have zero : (timer.half side).prescaler.count = 0 :=
            BitVec.eq_of_toNat_eq (Nat.add_eq_right.mp (count.trans all))
          have positive : value ≠ 0 := fun none => by
            rw [none] at less
            exact Nat.not_lt_zero left less
          rw [rests zero, beq_eq_false_iff_ne.mpr positive, Bool.or_self, Bool.false_and]
      | isFalse some => rw [decide_eq_false some, Bool.and_false]

theorem ofNat_beq_target (positive : 0 < left) (fits : left < 2 ^ 32)
    (inside : ticks ≤ value.toNat) :
    (BitVec.ofNat 32 (left + ticks) == value.setWidth 32) =
      decide (left + ticks = value.toNat) := by
  have small := value.isLt
  rw [Bool.eq_iff_iff, beq_iff_eq, decide_eq_true_iff, ← BitVec.toNat_inj, BitVec.toNat_ofNat,
    BitVec.toNat_setWidth_of_le (by decide)]
  omega

section Step

variable (prescales : Prescales side onRefClk value timer input)
variable (completes : ((timer.half side).prescaler.targetReached && !input.stoptimer) =
  (timer.sourceTick input onRefClk && decide (ticks = value.toNat)))

/-- Without the flag a group is not completed. -/
theorem inside_step (completes : ((timer.half side).prescaler.targetReached && !input.stoptimer) =
      (timer.sourceTick input onRefClk && decide (ticks = value.toNat)))
    (notReached : (timer.half side).prescaler.targetReached = false)
    (inside : ticks ≤ value.toNat) :
    ticks + (timer.sourceTick input onRefClk).toNat ≤ value.toNat := by
  rw [notReached, Bool.false_and] at completes
  cases tick : timer.sourceTick input onRefClk with
  | false => exact inside
  | true =>
      rw [tick, Bool.true_and] at completes
      exact Nat.lt_of_le_of_ne inside (of_decide_eq_false completes.symm)

include prescales completes

/-- A flag that no tick follows is taken back while the timer is stopped. -/
theorem fresh_of_reached (reached : (timer.half side).prescaler.targetReached = true)
    (some : ticks ≠ value.toNat) :
    timer.sourceTick input onRefClk = false ∧ Fresh side value (timer.step input) := by
  rw [reached, decide_eq_false some, Bool.and_false, Bool.true_and] at completes
  refine ⟨sourceTick_of_stop (by simpa using completes), ?_⟩
  rw [Fresh, prescales.step_prescaler, reached, if_pos rfl]
  dsimp only
  rw [zero_beq_target]

/-- A count that is ahead of the ticks goes on with them. -/
theorem ahead_step (positive : 0 < left) (fits : left < 2 ^ 32) (inside : ticks ≤ value.toNat)
    (count : (timer.half side).prescaler.count = BitVec.ofNat 32 (left + ticks))
    (notReached : (timer.half side).prescaler.targetReached = false)
    (moves : left + ticks = value.toNat → timer.sourceTick input onRefClk = true) :
    OutOfStep side value left (ticks + (timer.sourceTick input onRefClk).toNat)
      (timer.sourceTick input onRefClk) (timer.step input) := by
  have insideNext := inside_step completes notReached inside
  have next := prescales.step_prescaler
  rw [notReached, if_neg Bool.false_ne_true, count] at next
  have counted : (if timer.sourceTick input onRefClk then BitVec.ofNat 32 (left + ticks) + 1
      else BitVec.ofNat 32 (left + ticks)) =
      BitVec.ofNat 32 (left + (ticks + (timer.sourceTick input onRefClk).toNat)) := by
    cases timer.sourceTick input onRefClk with
    | false => rfl
    | true => exact (BitVec.ofNat_add (left + ticks) 1).symm
  rw [counted] at next
  refine .ahead insideNext ?_ ?_ ?_
  · rw [next]
  · rw [next]
    exact ofNat_beq_target positive fits insideNext
  · intro all
    cases tick : timer.sourceTick input onRefClk with
    | true => exact ⟨Nat.succ_pos ticks, rfl⟩
    | false =>
        rw [tick] at all moves
        exact absurd (moves all) Bool.false_ne_true

/-- A cycle of a prescaler that is out of step. -/
theorem OutOfStep.step (out : OutOfStep side value left ticks ticked timer)
    (positive : 0 < left) (fits : left < 2 ^ 32) :
    OutOfStep side value left (ticks + (timer.sourceTick input onRefClk).toNat)
      (timer.sourceTick input onRefClk) (timer.step input) := by
  cases out with
  | ahead inside count reached atTarget =>
      cases (inferInstance : Decidable (left + ticks = value.toNat)) with
      | isTrue all =>
          have moved := (atTarget all).1
          rw [decide_eq_true all] at reached
          obtain ⟨noTick, fresh⟩ := fresh_of_reached prescales completes reached (by omega)
          rw [Fresh] at fresh
          rw [noTick]
          refine .behind inside (by omega) ?_ ?_ fun _ => rfl
          · rw [fresh]
            exact (Nat.zero_add _).trans all.symm
          · rw [fresh]
            refine beq_eq_false_iff_ne.mpr fun zero => ?_
            rw [zero] at inside
            exact absurd moved (Nat.not_lt.mpr inside)
      | isFalse some =>
          rw [decide_eq_false some] at reached
          exact ahead_step prescales completes positive fits inside count reached
            fun all => absurd all some
  | behind inside less count notReached rests =>
      have insideNext := inside_step completes notReached inside
      have small := value.isLt
      have next := prescales.step_prescaler
      rw [notReached, if_neg Bool.false_ne_true] at next
      have counted : (if timer.sourceTick input onRefClk then (timer.half side).prescaler.count + 1
          else (timer.half side).prescaler.count).toNat =
          (timer.half side).prescaler.count.toNat + (timer.sourceTick input onRefClk).toNat := by
        cases timer.sourceTick input onRefClk with
        | false => rfl
        | true => exact toNat_succ (by omega)
      refine .behind insideNext less ?_ ?_ ?_
      · rw [next]
        dsimp only
        rw [counted]
        omega
      · rw [next]
        refine beq_eq_false_iff_ne.mpr fun same => ?_
        have values := congrArg BitVec.toNat same
        rw [counted, BitVec.toNat_setWidth_of_le (by decide)] at values
        omega
      · rw [next]
        intro zero
        have values := congrArg BitVec.toNat zero
        rw [counted] at values
        exact Bool.toNat_eq_zero.mp (Nat.add_eq_zero_iff.mp values).2

end Step

end TimerUnit

/-! ## Runs -/

section Runs

variable {side : Side} {onRefClk : Bool} {value : BitVec 8} {timer : TimerUnit}
variable {schedule : Nat → TimerInput}

/-- What the counter counts is decided by its enable. -/
theorem countsGroup_iff (timer : TimerUnit) (schedule : Nat → TimerInput) (onRefClk : Bool)
    (side : Side) (value : BitVec 8) (n : Nat) :
    CountsGroup timer schedule onRefClk side value n ↔
      (unitAt timer schedule n).countEnable (schedule n) side =
        dueAt timer schedule onRefClk value n := by
  constructor
  · intro counts
    exact counts.1
  · intro enabled
    refine ⟨enabled, ?_⟩
    rw [unitAt_succ, TimerUnit.step_count, enabled]

/-- The prescaler behind a cycle: in step with the ticks, at its target with no tick yet, or
out of step with a count that was left over. -/
inductive Follows (timer : TimerUnit) (schedule : Nat → TimerInput) (onRefClk : Bool)
    (side : Side) (value : BitVec 8) (n : Nat) : Prop
  | inStep (nothing : leftOver timer schedule onRefClk side value = 0)
      (at' : TimerUnit.AtTick side value
        (ticksBefore timer schedule onRefClk (n + 1) % (value.toNat + 1))
        (tickAt timer schedule onRefClk n) (unitAt timer schedule (n + 1)))
  | atTarget (first : n = 0) (nothing : leftOver timer schedule onRefClk side value = 0)
      (positive : 0 ≠ value.toNat) (noTick : ticksBefore timer schedule onRefClk (n + 1) = 0)
      (reached : ((unitAt timer schedule (n + 1)).half side).prescaler.targetReached = true)
  | outOfStep (left : 0 < leftOver timer schedule onRefClk side value)
      (out : TimerUnit.OutOfStep side value (leftOver timer schedule onRefClk side value)
        (ticksBefore timer schedule onRefClk (n + 1)) (tickAt timer schedule onRefClk n)
        (unitAt timer schedule (n + 1)))

theorem leftOver_lt (timer : TimerUnit) (schedule : Nat → TimerInput) (onRefClk : Bool)
    (side : Side) (value : BitVec 8) : leftOver timer schedule onRefClk side value < 2 ^ 32 := by
  rw [leftOver]
  split
  · exact Nat.two_pow_pos 32
  · exact BitVec.isLt _

theorem dueAt_eq (timer : TimerUnit) (schedule : Nat → TimerInput) (onRefClk : Bool)
    (value : BitVec 8) (n : Nat) : dueAt timer schedule onRefClk value n =
      (tickAt timer schedule onRefClk n &&
        decide (ticksBefore timer schedule onRefClk n % (value.toNat + 1) = value.toNat)) := by
  rw [dueAt, lastOfGroup]

/-- Behind a cycle in which the prescaler follows the ticks, the flag is set when the last
tick is awaited. -/
theorem Follows.targetReached {n : Nat}
    (prescales : TimerUnit.Prescales side onRefClk value timer (schedule 0))
    (follows : Follows timer schedule onRefClk side value n) :
    ((unitAt timer schedule (n + 1)).half side).prescaler.targetReached =
      awaitsLast timer schedule onRefClk side value (n + 1) := by
  cases n with
  | zero =>
      rw [unitAt_succ]
      exact congrArg PrescalerCounter.targetReached prescales.step_prescaler
  | succ n =>
      rw [awaitsLast]
      cases follows with
      | inStep nothing at' =>
          have ticks : (if ticksBefore timer schedule onRefClk (n + 2) ≤ value.toNat then
              leftOver timer schedule onRefClk side value +
                ticksBefore timer schedule onRefClk (n + 2)
              else ticksBefore timer schedule onRefClk (n + 2) % (value.toNat + 1)) =
              ticksBefore timer schedule onRefClk (n + 2) % (value.toNat + 1) := by
            split
            · next first => rw [nothing, Nat.zero_add, Nat.mod_eq_of_lt (Nat.lt_succ_of_le first)]
            · rfl
          rw [ticks]
          exact at'.targetReached
      | atTarget first => exact absurd first (Nat.succ_ne_zero n)
      | outOfStep left out =>
          rw [if_pos out.inside]
          exact out.targetReached

/-- A set flag is cleared in the first cycle. -/
theorem follows_of_reached
    (prescales : TimerUnit.Prescales side onRefClk value timer (schedule 0))
    (completes : ((timer.half side).prescaler.targetReached && !(schedule 0).stoptimer) =
      (timer.sourceTick (schedule 0) onRefClk && decide (0 = value.toNat)))
    (reached : (timer.half side).prescaler.targetReached = true) :
    Follows timer schedule onRefClk side value 0 := by
  have nothing : leftOver timer schedule onRefClk side value = 0 := by
    rw [leftOver, reached, Bool.true_or, if_pos rfl]
  cases (inferInstance : Decidable (0 = value.toNat)) with
  | isTrue none =>
      refine .inStep nothing ?_
      have fresh : TimerUnit.Fresh side value (timer.step (schedule 0)) := by
        rw [TimerUnit.Fresh, prescales.step_prescaler, reached, if_pos rfl]
        dsimp only
        rw [TimerUnit.zero_beq_target]
      rw [unitAt_succ, ← none, Nat.mod_one]
      exact fresh.atTick _
  | isFalse some =>
      obtain ⟨noTick, fresh⟩ := TimerUnit.fresh_of_reached prescales completes reached some
      refine .inStep nothing ?_
      have still : ticksBefore timer schedule onRefClk 1 = 0 :=
        (Nat.zero_add _).trans (congrArg Bool.toNat noTick)
      rw [unitAt_succ, still, Nat.zero_mod]
      exact fresh.atTick _

theorem leftOver_of_zero (zero : (timer.half side).prescaler.count = 0) :
    leftOver timer schedule onRefClk side value = 0 := by
  rw [leftOver, zero]
  exact ite_self 0

/-- A prescaler that is at zero goes on as after a reset. -/
theorem follows_of_zero
    (prescales : TimerUnit.Prescales side onRefClk value timer (schedule 0))
    (completes : ((timer.half side).prescaler.targetReached && !(schedule 0).stoptimer) =
      (timer.sourceTick (schedule 0) onRefClk && decide (0 = value.toNat)))
    (notReached : (timer.half side).prescaler.targetReached = false)
    (zero : (timer.half side).prescaler.count = 0) :
    Follows timer schedule onRefClk side value 0 := by
  have nothing : leftOver timer schedule onRefClk side value = 0 := leftOver_of_zero zero
  cases (inferInstance : Decidable (0 = value.toNat)) with
  | isTrue none =>
      rw [notReached, Bool.false_and, decide_eq_true none, Bool.and_true] at completes
      have fresh : TimerUnit.Fresh side value (timer.step (schedule 0)) := by
        rw [TimerUnit.Fresh, prescales.step_prescaler, notReached, ← completes, zero]
        dsimp only
        rw [if_neg Bool.false_ne_true, if_neg Bool.false_ne_true, TimerUnit.zero_beq_target]
      refine .inStep nothing ?_
      rw [unitAt_succ, ← none, Nat.mod_one]
      exact fresh.atTick _
  | isFalse some =>
      have notZero : (value == 0) = false :=
        beq_eq_false_iff_ne.mpr fun none => some (congrArg BitVec.toNat none).symm
      have fresh : TimerUnit.Fresh side value timer := by
        rw [TimerUnit.Fresh, notZero, ← notReached, ← zero]
      have next := (fresh.atTick false).step prescales completes
      refine .inStep nothing ?_
      rw [unitAt_succ]
      exact next

/-- A count that was left over is at the target or out of step. -/
theorem follows_of_left
    (prescales : TimerUnit.Prescales side onRefClk value timer (schedule 0))
    (completes : ((timer.half side).prescaler.targetReached && !(schedule 0).stoptimer) =
      (timer.sourceTick (schedule 0) onRefClk && decide (0 = value.toNat)))
    (notReached : (timer.half side).prescaler.targetReached = false)
    (notZero : (timer.half side).prescaler.count ≠ 0) :
    Follows timer schedule onRefClk side value 0 := by
  have left : leftOver timer schedule onRefClk side value =
      if (timer.half side).prescaler.count == value.setWidth 32 &&
        !tickAt timer schedule onRefClk 0 then 0
      else (timer.half side).prescaler.count.toNat := by
    rw [leftOver, notReached, Bool.false_or]
  cases atTarget : (timer.half side).prescaler.count == value.setWidth 32 &&
      !tickAt timer schedule onRefClk 0 with
  | true =>
      rw [atTarget, if_pos rfl] at left
      rw [Bool.and_eq_true, beq_iff_eq, Bool.not_eq_true'] at atTarget
      obtain ⟨same, noTick⟩ := atTarget
      refine .atTarget rfl left ?_ ((Nat.zero_add _).trans (congrArg Bool.toNat noTick)) ?_
      · intro none
        rw [same, BitVec.eq_of_toNat_eq (x := value) (y := 0) none.symm] at notZero
        exact notZero rfl
      · have tick : timer.sourceTick (schedule 0) onRefClk = false := noTick
        rw [unitAt_succ]
        change ((timer.step (schedule 0)).half side).prescaler.targetReached = true
        rw [prescales.step_prescaler, notReached, tick]
        exact beq_iff_eq.mpr same
  | false =>
      rw [atTarget, if_neg Bool.false_ne_true] at left
      have positive : 0 < leftOver timer schedule onRefClk side value := by
        rw [left]
        exact toNat_pos_of_ne notZero
      refine .outOfStep positive ?_
      have count : (timer.half side).prescaler.count =
          BitVec.ofNat 32 (leftOver timer schedule onRefClk side value + 0) := by
        rw [left, Nat.add_zero, BitVec.ofNat_toNat, BitVec.setWidth_eq]
      have next := TimerUnit.ahead_step prescales completes positive (leftOver_lt ..)
        (Nat.zero_le _) count notReached ?_
      · rw [unitAt_succ]
        exact next
      · intro all
        rw [left, Nat.add_zero] at all
        have same : (timer.half side).prescaler.count = value.setWidth 32 := by
          rw [← BitVec.toNat_inj, BitVec.toNat_setWidth_of_le (by decide)]
          exact all
        rw [same, beq_self_eq_true, Bool.true_and, Bool.not_eq_false'] at atTarget
        exact atTarget

/-- The first cycle. -/
theorem follows_first (prescales : TimerUnit.Prescales side onRefClk value timer (schedule 0))
    (atOnce : CompletesAtOnce timer schedule onRefClk side value 0) :
    Follows timer schedule onRefClk side value 0 := by
  have completes := atOnce
  rw [CompletesAtOnce, dueAt_eq, ticksBefore, Nat.zero_mod] at completes
  cases reached : (timer.half side).prescaler.targetReached with
  | true => exact follows_of_reached prescales completes reached
  | false =>
      cases (inferInstance : Decidable ((timer.half side).prescaler.count = 0)) with
      | isTrue zero => exact follows_of_zero prescales completes reached zero
      | isFalse some => exact follows_of_left prescales completes reached some

/-- A later cycle. -/
theorem Follows.step {n : Nat} (follows : Follows timer schedule onRefClk side value n)
    (prescales : TimerUnit.Prescales side onRefClk value (unitAt timer schedule (n + 1))
      (schedule (n + 1)))
    (completes : (((unitAt timer schedule (n + 1)).half side).prescaler.targetReached &&
      !(schedule (n + 1)).stoptimer) = dueAt timer schedule onRefClk value (n + 1)) :
    Follows timer schedule onRefClk side value (n + 1) := by
  rw [dueAt_eq] at completes
  cases follows with
  | inStep nothing at' =>
      have next := at'.step prescales completes
      rw [Nat.mod_add_mod, ← unitAt_succ] at next
      exact .inStep nothing next
  | atTarget first nothing positive noTick reached =>
      rw [noTick, Nat.zero_mod] at completes
      obtain ⟨tick, fresh⟩ := TimerUnit.fresh_of_reached prescales completes reached positive
      have still : ticksBefore timer schedule onRefClk (n + 2) = 0 := by
        rw [ticksBefore, noTick, tickAt, tick]
        rfl
      refine .inStep nothing ?_
      rw [still, Nat.zero_mod, unitAt_succ]
      exact fresh.atTick _
  | outOfStep left out =>
      rw [Nat.mod_eq_of_lt (Nat.lt_succ_of_le out.inside)] at completes
      have next := out.step prescales completes left (leftOver_lt ..)
      rw [← unitAt_succ] at next
      exact .outOfStep left next

theorem follows_run (n : Nat)
    (prescales : ∀ m < n + 1,
      (unitAt timer schedule m).Prescales side onRefClk value (schedule m))
    (atOnce : ∀ m < n + 1, CompletesAtOnce timer schedule onRefClk side value m) :
    Follows timer schedule onRefClk side value n := by
  have start : TimerUnit.Prescales side onRefClk value timer (schedule 0) :=
    prescales 0 (Nat.succ_pos n)
  induction n with
  | zero => exact follows_first start (atOnce 0 Nat.one_pos)
  | succ n inductionHypothesis =>
      have follows := inductionHypothesis (fun m before => prescales m (Nat.lt_succ_of_lt before))
        (fun m before => atOnce m (Nat.lt_succ_of_lt before))
      have completes := atOnce (n + 1) (Nat.lt_succ_self (n + 1))
      rw [CompletesAtOnce, ← follows.targetReached start] at completes
      exact follows.step (prescales (n + 1) (Nat.lt_succ_self (n + 1))) completes

/-- As long as the groups are completed at once, the flag says when the last tick is
awaited. -/
theorem awaitsLast_run (n : Nat)
    (prescales : ∀ m < n, (unitAt timer schedule m).Prescales side onRefClk value (schedule m))
    (atOnce : ∀ m < n, CompletesAtOnce timer schedule onRefClk side value m) :
    ((unitAt timer schedule n).half side).prescaler.targetReached =
      awaitsLast timer schedule onRefClk side value n := by
  cases n with
  | zero => rfl
  | succ n => exact (follows_run n prescales atOnce).targetReached (prescales 0 (Nat.succ_pos n))

/-- As long as a half counts with its prescaler, the counter counts once for each group of
`value + 1` ticks and at no other time if and only if each group is completed at once. -/
theorem prescaler_countsGroups_iff (cycles : Nat)
    (prescales : ∀ n < cycles, TimerUnit.Prescales side onRefClk value (unitAt timer schedule n)
      (schedule n)) :
    (∀ n < cycles, CountsGroup timer schedule onRefClk side value n) ↔
      ∀ n < cycles, CompletesAtOnce timer schedule onRefClk side value n := by
  have now (n : Nat) (inside : n < cycles)
      (atOnce : ∀ m < n, CompletesAtOnce timer schedule onRefClk side value m) :
      CountsGroup timer schedule onRefClk side value n ↔
        CompletesAtOnce timer schedule onRefClk side value n := by
    have flag := awaitsLast_run n
      (fun m before => prescales m (Nat.lt_trans before inside)) atOnce
    rw [countsGroup_iff, (prescales n inside).countEnable, flag]
    exact Iff.rfl
  constructor
  · intro counts n
    induction n using Nat.strongRecOn with
    | ind n inductionHypothesis =>
        intro inside
        exact (now n inside fun m before =>
          inductionHypothesis m before (Nat.lt_trans before inside)).mp (counts n inside)
  · intro atOnce n inside
    exact (now n inside fun m before => atOnce m (Nat.lt_trans before inside)).mpr
      (atOnce n inside)

end Runs

/-- The low half is configured and reset. -/
def configuredLow (cfg : BitVec 32) : TimerUnit :=
  timerMachine.run [writing 0x0 (cfg ||| 2), atRefClk false]

/-- The system clock is divided by three. -/
theorem dividedByThree_countsGroups :
    (∀ n < 9,
      TimerUnit.Prescales .low false 2 (unitAt (configuredLow 0x241) (fun _ => atRefClk false) n)
        (atRefClk false)) ∧
      ∀ n < 9, CountsGroup (configuredLow 0x241) (fun _ => atRefClk false) false .low 2 n :=
  have prescales : ∀ n < 9, TimerUnit.Prescales .low false 2
      (unitAt (configuredLow 0x241) (fun _ => atRefClk false) n) (atRefClk false) := by
    intro n inside
    have all : ∀ n < 9,
        ((unitAt (configuredLow 0x241) (fun _ => atRefClk false) n).half .low).cfg = 0x241 := by
      decide +kernel
    have cfg := all n inside
    refine ⟨?_, ?_, ?_, ?_, ?_, fun high => nomatch high⟩
    · rw [cfg]; rfl
    · rw [cfg]; rfl
    · rw [cfg]; rfl
    · rw [cfg]; rfl
    · rw [TimerHalf.softReset, cfg]; rfl
  ⟨prescales, (prescaler_countsGroups_iff 9 prescales).mpr (by decide +kernel)⟩

/-- With a divider of two, one edge of the reference clock is counted, in a cycle that has
none; and a half that is enabled without a reset counts with the first tick of four. -/
theorem oneEdge_not_countsGroup :
    (TimerUnit.Fresh .low 1 (configuredLow 0x1C1) ∧
      ticksBefore (configuredLow 0x1C1) (fun _ => atRefClk true) true 5 = 1 ∧
      ((unitAt (configuredLow 0x1C1) (fun _ => atRefClk true) 5).half .low).counter.count = 1 ∧
      ¬∀ n < 5, CountsGroup (configuredLow 0x1C1) (fun _ => atRefClk true) true .low 1 n) ∧
    ((timerMachine.run [atRefClk false, writing 0x0 0x341, atRefClk false]).half .low).counter.count
      = 1 := by
  decide +kernel

end CoreVMcu.Timer
