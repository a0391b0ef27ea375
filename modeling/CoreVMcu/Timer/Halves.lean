import CoreVMcu.Clocked.TwoRuns
import CoreVMcu.Timer.TimerUnit

/-!
# The halves of the timer unit

In the 32-bit mode `apb_timer_unit` is two timers that share the bus, the reference clock
and the stop input.  The low half is a timer of its own; the high half is one that the
low half can disable.
-/

namespace CoreVMcu.Timer

open Clocked

/-- A register of one half that can be written. -/
inductive HalfReg where
  | cfg
  | val
  | cmp
  | start
  | reset
  deriving DecidableEq, Repr

/-- Registers of one half. -/
@[ext] structure TimerHalf where
  cfg : BitVec 32
  cmp : BitVec 32
  prescaler : PrescalerCounter
  counter : UnitCounter
  deriving DecidableEq, Repr

/-- What one half gets in a cycle: the write access to it, its event, the edge of the
reference clock and the stop input. -/
structure HalfInput where
  access : Option (HalfReg × BitVec 32)
  event : Bool
  refClkEdge : Bool
  stoptimer : Bool
  deriving DecidableEq, Repr

namespace HalfInput

variable (input : HalfInput)

/-- A register is written. -/
def writesTo (reg : HalfReg) : Bool := input.access.any fun access => access.1 == reg

/-- The value of a register after the access. -/
def written (reg : HalfReg) (old : BitVec 32) : BitVec 32 :=
  match input.access with
  | some (addressed, data) => if addressed == reg then data else old
  | none => old

end HalfInput

namespace TimerHalf

variable (half : TimerHalf) (input : HalfInput)

/-- A half that counts by itself: the enables of its counter and of its prescaler. -/
def enables : Bool × Bool :=
  if half.cfg.getLsbD enableBit then
    if !half.cfg.getLsbD prescalerEnBit && !half.cfg.getLsbD refClkEnBit then
      (!input.stoptimer, false)
    else if !half.cfg.getLsbD prescalerEnBit && half.cfg.getLsbD refClkEnBit then
      (input.refClkEdge && !input.stoptimer, false)
    else if half.cfg.getLsbD prescalerEnBit && half.cfg.getLsbD refClkEnBit then
      (half.prescaler.targetReached && !input.stoptimer, input.refClkEdge && !input.stoptimer)
    else (half.prescaler.targetReached && !input.stoptimer, !input.stoptimer)
  else (false, false)

/-- A reset by software. -/
def softReset : Bool := half.cfg.getLsbD resetBit || input.writesTo .reset

/-- The counter is reset. -/
def resetCount : Bool :=
  half.softReset input || half.cfg.getLsbD cmpClrBit && half.counter.targetReached

/-- The prescaler is reset. -/
def resetPrescaler : Bool :=
  half.softReset input || half.cfg.getLsbD prescalerEnBit && half.prescaler.targetReached

/-- The configuration as it is written. -/
def cfgWritten : BitVec 32 := input.written .cfg half.cfg

/-- The half is enabled by its event or by software. -/
def isStarted : Bool :=
  input.event && (half.cfgWritten input).getLsbD iemBit || input.writesTo .start

/-- The half disables itself at its target. -/
def endsOneShot : Bool :=
  (half.cfgWritten input).getLsbD oneShotBit && half.counter.targetReached

/-- The configuration after a cycle in which the half is disabled from outside or not. -/
def cfgNext (disabled : Bool) : BitVec 32 :=
  let enabled :=
    if half.isStarted input then writeBit (half.cfgWritten input) enableBit true
    else if half.endsOneShot input then writeBit (half.cfgWritten input) enableBit false
    else if disabled then writeBit (half.cfgWritten input) enableBit false
    else half.cfgWritten input
  if half.resetCount input then writeBit enabled resetBit false else enabled

/-- What the counter gets. -/
def counterInput : CounterInput where
  write := input.writesTo .val
  value := input.written .val 0
  reset := half.resetCount input
  enable := (half.enables input).1
  compare := half.cmp

/-- What the prescaler gets. -/
def prescalerInput : CounterInput where
  write := false
  value := 0
  reset := half.resetPrescaler input
  enable := (half.enables input).2
  compare := TimerUnit.prescalerTarget half.cfg

/-- One clock edge. -/
def step (disabled : Bool) : TimerHalf where
  cfg := half.cfgNext input disabled
  cmp := input.written .cmp half.cmp
  prescaler := half.prescaler.step (half.prescalerInput input)
  counter := half.counter.step (half.counterInput input)

/-- The interrupt of the half. -/
def irq : Bool := half.counter.targetReached && half.cfg.getLsbD irqBit

end TimerHalf

/-- Writing a bit leaves the others. -/
theorem getLsbD_writeBit (register : BitVec 32) {bit other : Nat} (value : Bool)
    (apart : other ≠ bit) (inside : other < 32) :
    (writeBit register bit value).getLsbD other = register.getLsbD other := by
  have clear : (1#32 <<< bit).getLsbD other = false := by
    rw [BitVec.getLsbD_shiftLeft, BitVec.getLsbD_one]
    cases before : decide (other < bit) with
    | true => simp
    | false =>
        have after := of_decide_eq_false before
        simp
        omega
  rw [writeBit]
  cases value with
  | true => rw [if_pos rfl, BitVec.getLsbD_or, clear, Bool.or_false]
  | false =>
      rw [if_neg Bool.false_ne_true, BitVec.getLsbD_and, BitVec.getLsbD_not, clear,
        decide_eq_true inside, Bool.not_false, Bool.and_true, Bool.and_true]

/-! ## The halves of the unit -/

/-- One of the two halves. -/
inductive Side where
  | low
  | high
  deriving DecidableEq, Repr

/-- The address of a register of a half. -/
def WriteAddr.of : Side → HalfReg → WriteAddr
  | .low, .cfg => .cfgLo
  | .low, .val => .valLo
  | .low, .cmp => .cmpLo
  | .low, .start => .startLo
  | .low, .reset => .resetLo
  | .high, .cfg => .cfgHi
  | .high, .val => .valHi
  | .high, .cmp => .cmpHi
  | .high, .start => .startHi
  | .high, .reset => .resetHi

/-- The half and the register that an address belongs to. -/
def WriteAddr.target : WriteAddr → Side × HalfReg
  | .cfgLo => (.low, .cfg)
  | .valLo => (.low, .val)
  | .cmpLo => (.low, .cmp)
  | .startLo => (.low, .start)
  | .resetLo => (.low, .reset)
  | .cfgHi => (.high, .cfg)
  | .valHi => (.high, .val)
  | .cmpHi => (.high, .cmp)
  | .startHi => (.high, .start)
  | .resetHi => (.high, .reset)

theorem WriteAddr.eq_of_iff (addr : WriteAddr) (side : Side) (reg : HalfReg) :
    addr = .of side reg ↔ addr.target = (side, reg) := by
  constructor
  · rintro rfl
    cases side <;> cases reg <;> rfl
  · intro target
    cases addr <;> cases target <;> rfl

/-- The event input of a half. -/
def TimerInput.event (input : TimerInput) : Side → Bool
  | .low => input.eventLo
  | .high => input.eventHi

/-- The write access to a half. -/
def TimerInput.access (input : TimerInput) (side : Side) : Option (HalfReg × BitVec 32) :=
  if input.writes then
    match decodeAddr input.paddr with
    | some addr => if addr.target.1 = side then some (addr.target.2, input.pwdata) else none
    | none => none
  else none

namespace TimerUnit

variable (timer : TimerUnit) (input : TimerInput)

/-- The registers of a half. -/
def half : Side → TimerHalf
  | .low =>
      { cfg := timer.cfgLo, cmp := timer.cmpLo, prescaler := timer.prescalerLo
        counter := timer.counterLo }
  | .high =>
      { cfg := timer.cfgHi, cmp := timer.cmpHi, prescaler := timer.prescalerHi
        counter := timer.counterHi }

/-- What a half gets. -/
def halfInput (side : Side) : HalfInput where
  access := input.access side
  event := input.event side
  refClkEdge := timer.refClkEdge input
  stoptimer := input.stoptimer

/-- The one-shot of the low half disables the high one, when both are at their targets. -/
def disablesHigh : Bool :=
  ((timer.half .low).cfgWritten (timer.halfInput input .low)).getLsbD oneShotBit &&
    timer.bothReached

/-- The interrupt of a half: `irq_lo_o` or `irq_hi_o`. -/
def irq : Side → Bool
  | .low => timer.irqLo
  | .high => timer.irqHi

variable {timer input}

/-- A half sees the accesses to its registers. -/
theorem halfInput_writesTo (side : Side) (reg : HalfReg) :
    (timer.halfInput input side).writesTo reg = input.writesTo (.of side reg) := by
  rw [HalfInput.writesTo, halfInput, TimerInput.access, TimerInput.writesTo]
  cases input.writes with
  | false => rfl
  | true =>
      rw [if_pos rfl, Bool.true_and]
      cases decodeAddr input.paddr with
      | none => rfl
      | some addr =>
          rw [Bool.eq_iff_iff, beq_iff_eq, Option.some.injEq, WriteAddr.eq_of_iff]
          dsimp only
          split
          · next same => simp [Prod.ext_iff, same]
          · next other => simp [Prod.ext_iff, other]

/-- A written register of a half takes the data of the bus. -/
theorem halfInput_written (side : Side) (reg : HalfReg) (old : BitVec 32) :
    (timer.halfInput input side).written reg old =
      if input.writesTo (.of side reg) then input.pwdata else old := by
  rw [← @halfInput_writesTo timer, HalfInput.written, HalfInput.writesTo, halfInput,
    TimerInput.access]
  cases input.writes with
  | false => rfl
  | true =>
      rw [if_pos rfl]
      cases decodeAddr input.paddr with
      | none => rfl
      | some addr =>
          dsimp only
          cases (inferInstance : Decidable (addr.target.1 = side)) with
          | isTrue same => simp [same]
          | isFalse other => simp [other]

/-- The low half counts as a half does, in both modes. -/
theorem enables_low :
    (timer.enables input).countLo = ((timer.half .low).enables (timer.halfInput input .low)).1 ∧
    (timer.enables input).prescalerLo =
      ((timer.half .low).enables (timer.halfInput input .low)).2 := by
  rw [enables]
  cases timer.mode64 with
  | false => exact ⟨rfl, rfl⟩
  | true =>
      rw [if_pos rfl]
      cases enabled : timer.cfgLo.getLsbD enableBit <;>
        cases prescaled : timer.cfgLo.getLsbD prescalerEnBit <;>
        cases onRefClk : timer.cfgLo.getLsbD refClkEnBit <;>
        simp [enables64, TimerHalf.enables, half, halfInput, enabled, prescaled, onRefClk]

/-- The high half does so in the 32-bit mode. -/
theorem enables_high (mode32 : timer.mode64 = false) :
    (timer.enables input).countHi = ((timer.half .high).enables (timer.halfInput input .high)).1 ∧
    (timer.enables input).prescalerHi =
      ((timer.half .high).enables (timer.halfInput input .high)).2 := by
  rw [enables, mode32, if_neg Bool.false_ne_true]
  exact ⟨rfl, rfl⟩

theorem softReset_low :
    (timer.half .low).softReset (timer.halfInput input .low) = timer.softResetLo input := by
  rw [TimerHalf.softReset, halfInput_writesTo]
  rfl

theorem softReset_high :
    (timer.half .high).softReset (timer.halfInput input .high) = timer.softResetHi input := by
  rw [TimerHalf.softReset, halfInput_writesTo]
  rfl

theorem resetPrescaler_low :
    (timer.half .low).resetPrescaler (timer.halfInput input .low) =
      timer.resetPrescalerLo input := by
  rw [TimerHalf.resetPrescaler, softReset_low]
  rfl

theorem resetPrescaler_high :
    (timer.half .high).resetPrescaler (timer.halfInput input .high) =
      timer.resetPrescalerHi input := by
  rw [TimerHalf.resetPrescaler, softReset_high]
  rfl

/-- The value on the bus matters to a counter only when it is written. -/
theorem counter_step_written (counter : UnitCounter) (side : Side) (reset enable : Bool)
    (compare : BitVec 32) :
    counter.step
        { write := (timer.halfInput input side).writesTo .val
          value := (timer.halfInput input side).written .val 0
          reset := reset, enable := enable, compare := compare } =
      counter.step
        { write := input.writesTo (.of side .val), value := input.pwdata, reset := reset
          enable := enable, compare := compare } := by
  rw [halfInput_writesTo, halfInput_written]
  cases input.writesTo (.of side .val) <;> rfl

/-- The prescaler of the low half steps as that of a half, in both modes. -/
theorem step_prescaler_low :
    (timer.step input).prescalerLo =
      timer.prescalerLo.step ((timer.half .low).prescalerInput (timer.halfInput input .low)) := by
  rw [TimerHalf.prescalerInput, resetPrescaler_low, ← enables_low.2]
  rfl

/-- In the 32-bit mode the low half steps as a half that nothing else disables. -/
theorem step_low (mode32 : timer.mode64 = false) :
    (timer.step input).half .low = (timer.half .low).step (timer.halfInput input .low) false := by
  have reset : (timer.half .low).resetCount (timer.halfInput input .low) =
      timer.resetCountLo input := by
    rw [TimerHalf.resetCount, softReset_low, resetCountLo, mode32, if_neg Bool.false_ne_true]
    rfl
  ext1
  · rw [TimerHalf.step, TimerHalf.cfgNext, TimerHalf.isStarted, TimerHalf.endsOneShot,
      TimerHalf.cfgWritten, halfInput_written, halfInput_writesTo, reset]
    change timer.cfgLoNext input = _
    rw [cfgLoNext, mode32, if_neg Bool.false_ne_true, if_neg Bool.false_ne_true]
    rfl
  · rw [TimerHalf.step, halfInput_written]
    rfl
  · exact step_prescaler_low
  · rw [TimerHalf.step, TimerHalf.counterInput, counter_step_written, reset, ← enables_low.1]
    rfl

/-- The bits of the low configuration that the unit does not change are the written ones. -/
theorem getLsbD_cfgLoNext (timer : TimerUnit) (input : TimerInput) {bit : Nat}
    (notEnable : bit ≠ enableBit) (notReset : bit ≠ resetBit) (inside : bit < 32) :
    (timer.cfgLoNext input).getLsbD bit =
      ((timer.half .low).cfgWritten (timer.halfInput input .low)).getLsbD bit := by
  have enable (register : BitVec 32) (value : Bool) :=
    getLsbD_writeBit register value notEnable inside
  have reset (register : BitVec 32) (value : Bool) :=
    getLsbD_writeBit register value notReset inside
  rw [TimerHalf.cfgWritten, halfInput_written, cfgLoNext, apply_ite (BitVec.getLsbD · bit),
    reset, ite_self, apply_ite (BitVec.getLsbD · bit), apply_ite (BitVec.getLsbD · bit), enable,
    enable, ite_self, ite_self]
  rfl

/-- In the 32-bit mode the high half steps as a half that the low one can disable. -/
theorem step_high (mode32 : timer.mode64 = false) :
    (timer.step input).half .high =
      (timer.half .high).step (timer.halfInput input .high) (timer.disablesHigh input) := by
  have reset : (timer.half .high).resetCount (timer.halfInput input .high) =
      timer.resetCountHi input := by
    rw [TimerHalf.resetCount, softReset_high, resetCountHi, mode32, if_neg Bool.false_ne_true]
    rfl
  ext1
  · rw [TimerHalf.step, TimerHalf.cfgNext, TimerHalf.isStarted, TimerHalf.endsOneShot,
      TimerHalf.cfgWritten, halfInput_written, halfInput_writesTo, reset, disablesHigh,
      ← getLsbD_cfgLoNext timer input (by decide) (by decide) (by decide)]
    change timer.cfgHiNext input = _
    rw [cfgHiNext, mode32, Bool.not_false, Bool.true_and, Bool.true_and]
    rfl
  · rw [TimerHalf.step, halfInput_written]
    rfl
  · rw [TimerHalf.step, TimerHalf.prescalerInput, resetPrescaler_high, ← (enables_high mode32).2]
    rfl
  · rw [TimerHalf.step, TimerHalf.counterInput, counter_step_written, reset,
      ← (enables_high mode32).1]
    rfl

/-- In the 32-bit mode each half has its own interrupt. -/
theorem irq_half (mode32 : timer.mode64 = false) (side : Side) :
    timer.irq side = (timer.half side).irq := by
  cases side with
  | low =>
      change timer.irqLo = _
      rw [irqLo, mode32, Bool.not_false, if_pos rfl]
      rfl
  | high =>
      change timer.irqHi = _
      rw [irqHi, mode32, Bool.not_false, Bool.true_and]
      rfl

end TimerUnit

/-! ## Schedules -/

/-- The unit in a cycle of a schedule. -/
def unitAt (timer : TimerUnit) (schedule : Nat → TimerInput) (n : Nat) : TimerUnit :=
  timerMachine.runFrom timer (inputsUpTo schedule n)

theorem unitAt_succ (timer : TimerUnit) (schedule : Nat → TimerInput) (n : Nat) :
    unitAt timer schedule (n + 1) = (unitAt timer schedule n).step (schedule n) := by
  rw [unitAt, inputsUpTo_succ, Machine.runFrom_snoc]
  rfl

end CoreVMcu.Timer
