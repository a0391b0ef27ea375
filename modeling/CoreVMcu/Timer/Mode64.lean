import Mathlib.Tactic.MkIffOfInductiveProp
import CoreVMcu.Timer.TimerUnit

/-!
# The 64-bit mode of the timer unit

The two halves are one counter as long as the high half is enabled exactly when the
low half overflows.  With the reference clock the enable of the high half is derived
from a delayed edge.
-/

namespace CoreVMcu.Timer

open Clocked

theorem toNat_halves (hi lo : BitVec 32) :
    (hi ++ lo).toNat = hi.toNat * 2 ^ 32 + lo.toNat := by
  rw [BitVec.toNat_append, ← Nat.shiftLeft_add_eq_or_of_lt lo.isLt, Nat.shiftLeft_eq]

/-- Incrementing a number of two halves carries into the high one. -/
theorem append_add_one (hi lo : BitVec 32) :
    (hi ++ lo) + 1#(32 + 32) = (if lo = 0xFFFFFFFF then hi + 1 else hi) ++ (lo + 1) := by
  have below := lo.isLt
  have belowHi := hi.isLt
  have one : (1 : BitVec 32).toNat = 1 := rfl
  have one64 : (1#(32 + 32)).toNat = 1 := rfl
  have ones : lo = 0xFFFFFFFF ↔ lo.toNat = 2 ^ 32 - 1 := by
    rw [← BitVec.toNat_inj]
    rfl
  apply BitVec.eq_of_toNat_eq
  rw [BitVec.toNat_add, toNat_halves, toNat_halves, BitVec.toNat_add, one, one64]
  split
  · next full =>
      rw [ones] at full
      rw [BitVec.toNat_add, one]
      omega
  · next notFull =>
      rw [ones] at notFull
      omega

/-- The high halves of equal numbers are equal. -/
theorem append_left_inj {hi other : BitVec 32} (lo : BitVec 32) :
    hi ++ lo = other ++ lo ↔ hi = other := by
  rw [← BitVec.toNat_inj, ← BitVec.toNat_inj, toNat_halves, toNat_halves]
  omega

theorem add_one_ne (hi : BitVec 32) : hi + 1 ≠ hi := by
  intro same
  have values := congrArg BitVec.toNat same
  have one : (1 : BitVec 32).toNat = 1 := rfl
  rw [BitVec.toNat_add, one] at values
  have below := hi.isLt
  omega

/-! ## One cycle -/

namespace TimerUnit

variable {timer : TimerUnit} {input : TimerInput}

/-- `{s_timer_val_hi, s_timer_val_lo}`. -/
def value (timer : TimerUnit) : BitVec 64 := timer.counterHi.count ++ timer.counterLo.count

/-- A count tick of the low half. -/
def tick (timer : TimerUnit) (input : TimerInput) : Bool := (timer.enables input).countLo

/-- The timer is in its 64-bit mode, no register is written and no counter is reset,
neither by software nor on a compare. -/
@[mk_iff]
structure Undisturbed (timer : TimerUnit) (input : TimerInput) : Prop where
  mode64 : timer.mode64 = true
  noWrite : input.writes = false
  keepsLo : timer.resetCountLo input = false
  keepsHi : timer.resetCountHi input = false

/-- The value counts the ticks of its low half. -/
def CountsTicks (timer : TimerUnit) (input : TimerInput) : Prop :=
  (timer.step input).value = if timer.tick input then timer.value + 1#64 else timer.value

/-- When the running timer is about to carry with the reference clock, no edge is seen
without a prescaler, and with one the delayed edge comes with the tick. -/
def CarriesWithTick (timer : TimerUnit) (input : TimerInput) : Prop :=
  timer.cfgLo.getLsbD enableBit = true → timer.cfgLo.getLsbD refClkEnBit = true →
    timer.loAllOnes = true → input.stoptimer = false →
    if timer.cfgLo.getLsbD prescalerEnBit then
      timer.prescalerLo.targetReached = true → timer.refClkEdgeDel input = true
    else timer.refClkEdge input = false ∧ timer.refClkEdgeDel input = false

instance (timer : TimerUnit) (input : TimerInput) : Decidable (timer.Undisturbed input) :=
  decidable_of_iff _ (undisturbed_iff timer input).symm

instance (timer : TimerUnit) (input : TimerInput) : Decidable (timer.CarriesWithTick input) :=
  inferInstanceAs (Decidable (_ → _ → _ → _ → _))

instance (timer : TimerUnit) (input : TimerInput) : Decidable (timer.CountsTicks input) :=
  inferInstanceAs (Decidable (_ = _))

theorem writesTo_eq_false (noWrite : input.writes = false) (addr : WriteAddr) :
    input.writesTo addr = false := by
  rw [TimerInput.writesTo, noWrite, Bool.false_and]

/-- The halves move with their enables. -/
theorem Undisturbed.step_value (undisturbed : timer.Undisturbed input) :
    (timer.step input).value =
      (if (timer.enables input).countHi then timer.counterHi.count + 1
        else timer.counterHi.count) ++
      (if (timer.enables input).countLo then timer.counterLo.count + 1
        else timer.counterLo.count) := by
  obtain ⟨-, noWrite, keepsLo, keepsHi⟩ := undisturbed
  simp only [value, step, UnitCounter.step, UnitCounter.next, keepsLo, keepsHi,
    writesTo_eq_false noWrite, Bool.false_eq_true, if_false]

/-- The value counts the ticks when the high half is enabled exactly with a carry. -/
theorem Undisturbed.countsTicks_iff (undisturbed : timer.Undisturbed input) :
    timer.CountsTicks input ↔
      (timer.enables input).countHi = ((timer.enables input).countLo && timer.loAllOnes) := by
  have carried := append_add_one timer.counterHi.count timer.counterLo.count
  change (_ : BitVec 64) = _ at carried
  rw [CountsTicks, undisturbed.step_value, tick, value, carried, loAllOnes]
  cases (timer.enables input).countLo with
  | false =>
      rw [if_neg Bool.false_ne_true, if_neg Bool.false_ne_true, append_left_inj, Bool.false_and]
      cases (timer.enables input).countHi with
      | false => exact ⟨fun _ => rfl, fun _ => rfl⟩
      | true => exact ⟨fun same => absurd same (add_one_ne _), fun same => nomatch same⟩
  | true =>
      rw [if_pos rfl, if_pos rfl, append_left_inj, Bool.true_and]
      cases (timer.enables input).countHi with
      | false =>
          by_cases full : timer.counterLo.count = 0xFFFFFFFF
          · simp [full]
          · simp
      | true =>
          by_cases full : timer.counterLo.count = 0xFFFFFFFF
          · simp
          · simp

/-- Which is so unless the reference clock carries at another time than it ticks. -/
theorem enables_carry_iff (mode64 : timer.mode64 = true) :
    ((timer.enables input).countHi = ((timer.enables input).countLo && timer.loAllOnes)) ↔
      timer.CarriesWithTick input := by
  have edges : (timer.refClkEdge input && timer.refClkEdgeDel input) = false := by
    simp only [refClkEdge, refClkEdgeDel]
    cases timer.refClk1 <;> cases timer.refClk2 <;> simp
  rw [enables, mode64, if_pos rfl, enables64, CarriesWithTick]
  generalize timer.refClkEdge input = edge at edges
  generalize timer.refClkEdgeDel input = edgeDel at edges
  generalize timer.prescalerLo.targetReached = reached
  cases timer.cfgLo.getLsbD enableBit <;> cases timer.cfgLo.getLsbD prescalerEnBit <;>
    cases timer.cfgLo.getLsbD refClkEnBit <;> cases timer.loAllOnes <;> cases input.stoptimer <;>
    cases edge <;> cases edgeDel <;> cases reached <;> simp_all

end TimerUnit

/-! ## Runs -/

/-- From every reachable state, in every run without writes, resets or compare clears:
the value counts the ticks in every cycle if and only if every carry comes with its
tick. -/
theorem timer64_countsTicks_iff (before inputs : List TimerInput)
    (undisturbed : timerMachine.AlwaysFrom TimerUnit.Undisturbed (timerMachine.run before) inputs) :
    timerMachine.AlwaysFrom TimerUnit.CountsTicks (timerMachine.run before) inputs ↔
      timerMachine.AlwaysFrom TimerUnit.CarriesWithTick (timerMachine.run before) inputs := by
  generalize timerMachine.run before = timer at undisturbed
  induction inputs generalizing timer with
  | nil => exact Iff.rfl
  | cons input inputs inductionHypothesis =>
      obtain ⟨now, later⟩ := undisturbed
      exact and_congr (now.countsTicks_iff.trans (TimerUnit.enables_carry_iff now.mode64))
        (inductionHypothesis _ later)

/-- A cycle without bus access at a level of the reference clock. -/
def atRefClk (refClk : Bool) : TimerInput :=
  { psel := false, penable := false, pwrite := false, paddr := 0, pwdata := 0, refClk := refClk
    stoptimer := false, eventLo := false, eventHi := false }

/-- A write of a register. -/
def writing (paddr : BitVec 6) (value : BitVec 32) : TimerInput :=
  { atRefClk false with
    psel := true, penable := true, pwrite := true, paddr := paddr, pwdata := value }

/-- The low half is about to overflow in the 64-bit mode, on the bus clock. -/
def beforeCarry : List TimerInput := [writing 0x8 0xFFFFFFFE, writing 0x0 0x80000001]

/-- The same on the reference clock. -/
def beforeRefClkCarry : List TimerInput := [writing 0x8 0xFFFFFFFE, writing 0x0 0x80000081]

/-- On the bus clock the halves carry together. -/
theorem timer64_countsTicks_busClk :
    timerMachine.AlwaysFrom TimerUnit.Undisturbed (timerMachine.run beforeCarry)
        (List.replicate 3 (atRefClk false)) ∧
      timerMachine.AlwaysFrom TimerUnit.CountsTicks (timerMachine.run beforeCarry)
        (List.replicate 3 (atRefClk false)) :=
  have undisturbed : timerMachine.AlwaysFrom TimerUnit.Undisturbed (timerMachine.run beforeCarry)
      (List.replicate 3 (atRefClk false)) := by
    decide +kernel
  ⟨undisturbed, (timer64_countsTicks_iff beforeCarry _ undisturbed).mpr (by decide +kernel)⟩

/-- One edge of the reference clock takes `0x00000000FFFFFFFE` to `0x00000001FFFFFFFF`. -/
theorem timer64_skips_refClk :
    timerMachine.AlwaysFrom TimerUnit.Undisturbed (timerMachine.run beforeRefClkCarry)
        (List.replicate 4 (atRefClk true)) ∧
      (timerMachine.run beforeRefClkCarry).value = 0x00000000FFFFFFFE ∧
      (timerMachine.run (beforeRefClkCarry ++ List.replicate 4 (atRefClk true))).value =
        0x00000001FFFFFFFF ∧
      ¬timerMachine.AlwaysFrom TimerUnit.CountsTicks (timerMachine.run beforeRefClkCarry)
        (List.replicate 4 (atRefClk true)) := by
  decide +kernel

end CoreVMcu.Timer
