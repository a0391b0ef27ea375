import CoreVMcu.Timer.Halves
import CoreVMcu.Timer.Mode64

/-!
# Independence of the two timers

In the 32-bit mode nothing that is done with the high timer is seen by the low one.  The
other way round, the one-shot of the low timer takes the enable of the high one away when
both are at their targets.
-/

namespace CoreVMcu.Timer

open Clocked

namespace TimerHalf

variable (half : TimerHalf) (input : HalfInput)

/-- A disable from outside makes a difference: the half is enabled, and is neither started
nor ended by its own one-shot. -/
def yields : Bool :=
  !half.isStarted input && !half.endsOneShot input &&
    (half.cfgWritten input).getLsbD enableBit

variable {half input}

theorem getLsbD_enable_cfgNext (disabled : Bool) :
    (half.cfgNext input disabled).getLsbD enableBit =
      if half.isStarted input then true
      else if half.endsOneShot input then false
      else if disabled then false
      else (half.cfgWritten input).getLsbD enableBit := by
  have reset (register : BitVec 32) :=
    @getLsbD_writeBit register resetBit enableBit false (by decide) (by decide)
  have on (register : BitVec 32) : (writeBit register enableBit true).getLsbD enableBit = true := by
    rw [writeBit, if_pos rfl, BitVec.getLsbD_or, enableBit]
    simp
  have off (register : BitVec 32) :
      (writeBit register enableBit false).getLsbD enableBit = false := by
    rw [writeBit, if_neg Bool.false_ne_true, BitVec.getLsbD_and, enableBit]
    simp
  rw [cfgNext, apply_ite (BitVec.getLsbD · enableBit), reset, ite_self,
    apply_ite (BitVec.getLsbD · enableBit), apply_ite (BitVec.getLsbD · enableBit),
    apply_ite (BitVec.getLsbD · enableBit), on, off]

/-- Writing the value that a bit has changes nothing. -/
theorem writeBit_clear {register : BitVec 32} (off : register.getLsbD enableBit = false) :
    writeBit register enableBit false = register := by
  apply BitVec.eq_of_getLsbD_eq
  intro other inside
  cases (inferInstance : Decidable (other = enableBit)) with
  | isFalse apart => exact getLsbD_writeBit register false apart inside
  | isTrue same =>
      rw [same, off, writeBit, if_neg Bool.false_ne_true, BitVec.getLsbD_and, off, Bool.false_and]

/-- A half that does not yield steps as if nothing disabled it. -/
theorem step_disabled (disabled : Bool) :
    half.step input disabled = half.step input (disabled && half.yields input) := by
  have cfg : half.cfgNext input disabled = half.cfgNext input (disabled && half.yields input) := by
    rw [cfgNext, cfgNext, yields]
    cases half.isStarted input with
    | true => rfl
    | false =>
        cases half.endsOneShot input with
        | true => rfl
        | false =>
            cases enabled : (half.cfgWritten input).getLsbD enableBit with
            | true => rw [Bool.not_false, Bool.and_true, Bool.and_true, Bool.and_true]
            | false =>
                rw [Bool.and_false, Bool.and_false, writeBit_clear enabled, ite_self]
                rfl
  rw [step, step, cfg]

/-- A half that yields shows whether it is disabled. -/
theorem disabled_of_cfgNext {disabled other : Bool}
    (same : half.cfgNext input disabled = half.cfgNext input other) :
    (disabled && half.yields input) = (other && half.yields input) := by
  have enables : (half.cfgNext input disabled).getLsbD enableBit =
      (half.cfgNext input other).getLsbD enableBit := by
    rw [same]
  rw [getLsbD_enable_cfgNext, getLsbD_enable_cfgNext] at enables
  rw [yields]
  cases started : half.isStarted input with
  | true => simp
  | false =>
      cases ended : half.endsOneShot input with
      | true => simp
      | false =>
          cases enabled : (half.cfgWritten input).getLsbD enableBit with
          | false => simp
          | true =>
              rw [started, ended, enabled] at enables
              cases disabled <;> cases other <;> simp at enables ⊢

end TimerHalf

/-! ## What is seen of a timer -/

/-- The configuration, the counter value and the interrupt of a half. -/
structure Observed where
  cfg : BitVec 32
  cmp : BitVec 32
  value : BitVec 32
  irq : Bool
  deriving DecidableEq, Repr

namespace TimerUnit

variable (timer : TimerUnit) (input : TimerInput)

def observed (side : Side) : Observed :=
  { cfg := (timer.half side).cfg, cmp := (timer.half side).cmp
    value := (timer.half side).counter.count, irq := timer.irq side }

/-- The one-shot of the low half takes the enable of the high one away. -/
def disturbsHigh : Bool :=
  timer.disablesHigh input && (timer.half .high).yields (timer.halfInput input .high)

end TimerUnit

/-- The same accesses to a half and the same inputs of it. -/
structure SameInputs (side : Side) (input other : TimerInput) : Prop where
  access : input.access side = other.access side
  event : input.event side = other.event side
  refClk : input.refClk = other.refClk
  stoptimer : input.stoptimer = other.stoptimer

/-- The same registers of a half, and the same levels of the reference clock seen. -/
structure SameHalf (side : Side) (left right : TimerUnit) : Prop where
  half : left.half side = right.half side
  refClk0 : left.refClk0 = right.refClk0
  refClk1 : left.refClk1 = right.refClk1
  refClk2 : left.refClk2 = right.refClk2

namespace SameHalf

variable {side : Side} {left right : TimerUnit} {input other : TimerInput}

theorem halfInput (same : SameHalf side left right) (inputs : SameInputs side input other) :
    left.halfInput input side = right.halfInput other side := by
  rw [TimerUnit.halfInput, TimerUnit.halfInput, inputs.access, inputs.event, inputs.stoptimer,
    TimerUnit.refClkEdge, TimerUnit.refClkEdge, same.refClk1, same.refClk2, inputs.stoptimer]

theorem observed (same : SameHalf side left right) (leftMode : left.mode64 = false)
    (rightMode : right.mode64 = false) : left.observed side = right.observed side := by
  rw [TimerUnit.observed, TimerUnit.observed, TimerUnit.irq_half leftMode,
    TimerUnit.irq_half rightMode, same.half]

/-- The halves go on alike when they step alike. -/
theorem step (same : SameHalf side left right) (inputs : SameInputs side input other)
    (half : (left.step input).half side = (right.step other).half side) :
    SameHalf side (left.step input) (right.step other) :=
  ⟨half, inputs.refClk, same.refClk0, same.refClk1⟩

theorem step_low (same : SameHalf .low left right) (inputs : SameInputs .low input other)
    (leftMode : left.mode64 = false) (rightMode : right.mode64 = false) :
    SameHalf .low (left.step input) (right.step other) := by
  refine same.step inputs ?_
  rw [TimerUnit.step_low leftMode, TimerUnit.step_low rightMode, same.half, same.halfInput inputs]

/-- The high halves go on alike when the low ones disturb them alike. -/
theorem step_high (same : SameHalf .high left right) (inputs : SameInputs .high input other)
    (leftMode : left.mode64 = false) (rightMode : right.mode64 = false)
    (disturbed : left.disturbsHigh input = right.disturbsHigh other) :
    SameHalf .high (left.step input) (right.step other) := by
  refine same.step inputs ?_
  rw [TimerUnit.disturbsHigh, TimerUnit.disturbsHigh, ← same.halfInput inputs, ← same.half]
    at disturbed
  rw [TimerUnit.step_high leftMode, TimerUnit.step_high rightMode, ← same.half,
    ← same.halfInput inputs, TimerHalf.step_disabled, disturbed, ← TimerHalf.step_disabled]

/-- And only then is the same configuration seen. -/
theorem disturbed_of_cfg (same : SameHalf .high left right)
    (inputs : SameInputs .high input other)
    (leftMode : left.mode64 = false) (rightMode : right.mode64 = false)
    (cfg : ((left.step input).observed .high).cfg = ((right.step other).observed .high).cfg) :
    left.disturbsHigh input = right.disturbsHigh other := by
  change ((left.step input).half .high).cfg = ((right.step other).half .high).cfg at cfg
  rw [TimerUnit.step_high leftMode, TimerUnit.step_high rightMode, ← same.half,
    ← same.halfInput inputs] at cfg
  rw [TimerUnit.disturbsHigh, TimerUnit.disturbsHigh, ← same.halfInput inputs, ← same.half]
  exact TimerHalf.disabled_of_cfgNext cfg

end SameHalf

/-! ## Two runs -/

/-- Both halves are in the 32-bit mode in every cycle. -/
def StaysMode32 (timer : TimerUnit) (schedule : Nat → TimerInput) : Prop :=
  ∀ n, (unitAt timer schedule n).mode64 = false

/-- The mode stays as long as the writes of the low configuration leave it. -/
theorem staysMode32_of_writes {timer : TimerUnit} {schedule : Nat → TimerInput}
    (start : timer.mode64 = false)
    (writes : ∀ n, (schedule n).writesTo .cfgLo = true →
      (schedule n).pwdata.getLsbD mode64Bit = false) : StaysMode32 timer schedule := by
  intro n
  induction n with
  | zero => exact start
  | succ n inductionHypothesis =>
      rw [unitAt_succ]
      refine (TimerUnit.getLsbD_cfgLoNext _ _ (by decide) (by decide) (by decide)).trans ?_
      rw [TimerHalf.cfgWritten, TimerUnit.halfInput_written]
      split
      · next written => exact writes n written
      · exact inductionHypothesis

section TwoRuns

variable {left right : TimerUnit} {schedule other : Nat → TimerInput}

theorem sameHalf_low (leftMode : StaysMode32 left schedule) (rightMode : StaysMode32 right other)
    (same : SameHalf .low left right) (inputs : ∀ n, SameInputs .low (schedule n) (other n))
    (n : Nat) : SameHalf .low (unitAt left schedule n) (unitAt right other n) := by
  induction n with
  | zero => exact same
  | succ n inductionHypothesis =>
      rw [unitAt_succ, unitAt_succ]
      exact inductionHypothesis.step_low (inputs n) (leftMode n) (rightMode n)

theorem sameHalf_high (leftMode : StaysMode32 left schedule) (rightMode : StaysMode32 right other)
    (same : SameHalf .high left right) (inputs : ∀ n, SameInputs .high (schedule n) (other n))
    (n : Nat)
    (disturbed : ∀ m < n, (unitAt left schedule m).disturbsHigh (schedule m) =
      (unitAt right other m).disturbsHigh (other m)) :
    SameHalf .high (unitAt left schedule n) (unitAt right other n) := by
  induction n with
  | zero => exact same
  | succ n inductionHypothesis =>
      rw [unitAt_succ, unitAt_succ]
      exact (inductionHypothesis fun m before => disturbed m (Nat.lt_succ_of_lt before)).step_high
        (inputs n) (leftMode n) (rightMode n) (disturbed n (Nat.lt_succ_self n))

/-- In any two runs in the 32-bit mode, whatever is done with the high timer, the low one
shows the same; and whatever is done with the low timer, the high one shows the same if and
only if the one-shot of the low timer disturbs it in the same cycles. -/
theorem timers_independent_iff (leftMode : StaysMode32 left schedule)
    (rightMode : StaysMode32 right other) :
    (SameHalf .low left right → (∀ n, SameInputs .low (schedule n) (other n)) →
      ∀ n, (unitAt left schedule n).observed .low = (unitAt right other n).observed .low) ∧
    (SameHalf .high left right → (∀ n, SameInputs .high (schedule n) (other n)) →
      ((∀ n, (unitAt left schedule n).observed .high = (unitAt right other n).observed .high) ↔
        ∀ n, (unitAt left schedule n).disturbsHigh (schedule n) =
          (unitAt right other n).disturbsHigh (other n))) := by
  constructor
  · intro same inputs n
    exact (sameHalf_low leftMode rightMode same inputs n).observed (leftMode n) (rightMode n)
  · intro same inputs
    constructor
    · intro seen n
      induction n using Nat.strongRecOn with
      | ind n inductionHypothesis =>
          have now := sameHalf_high leftMode rightMode same inputs n inductionHypothesis
          have next := congrArg Observed.cfg (seen (n + 1))
          rw [unitAt_succ, unitAt_succ] at next
          exact now.disturbed_of_cfg (inputs n) (leftMode n) (rightMode n) next
    · intro disturbed n
      exact (sameHalf_high leftMode rightMode same inputs n fun m _ => disturbed m).observed
        (leftMode n) (rightMode n)

end TwoRuns

/-- The high timer is enabled, and then a value is written to the low configuration. -/
def enablesHigh (cfgLo : BitVec 32) : Nat → TimerInput :=
  thenQuiet [writing 0x4 1, writing 0x0 cfgLo] (atRefClk false)

theorem enablesHigh_mode32 {cfgLo : BitVec 32} (mode32 : cfgLo.getLsbD mode64Bit = false) :
    StaysMode32 .reset (enablesHigh cfgLo) := by
  apply staysMode32_of_writes
  · rfl
  · intro n written
    match n with
    | 0 => exact absurd (show false = true from written) Bool.false_ne_true
    | 1 => exact mode32
    | n + 2 => exact absurd (show false = true from written) Bool.false_ne_true

theorem enablesHigh_sameInputs (cfgLo other : BitVec 32) (n : Nat) :
    SameInputs .high (enablesHigh cfgLo n) (enablesHigh other n) := by
  match n with
  | 0 => exact ⟨rfl, rfl, rfl, rfl⟩
  | 1 => exact ⟨rfl, rfl, rfl, rfl⟩
  | n + 2 => exact ⟨rfl, rfl, rfl, rfl⟩

/-- The low timer is disabled in one run and enabled in the other. -/
theorem enablesHigh_independent :
    ((∀ n, (unitAt .reset (enablesHigh 0) n).observed .high =
        (unitAt .reset (enablesHigh 1) n).observed .high) ↔
      ∀ n, (unitAt .reset (enablesHigh 0) n).disturbsHigh (enablesHigh 0 n) =
        (unitAt .reset (enablesHigh 1) n).disturbsHigh (enablesHigh 1 n)) :=
  (timers_independent_iff (enablesHigh_mode32 (by decide)) (enablesHigh_mode32 (by decide))).2
    ⟨rfl, rfl, rfl, rfl⟩ (enablesHigh_sameInputs 0 1)

/-- A one-shot of the low timer disables the high timer, which is enabled in the other
run. -/
theorem lowOneShot_not_independent :
    (StaysMode32 .reset (enablesHigh 0x20) ∧ StaysMode32 .reset (enablesHigh 0) ∧
        ∀ n, SameInputs .high (enablesHigh 0x20 n) (enablesHigh 0 n)) ∧
      ((unitAt .reset (enablesHigh 0x20) 2).observed .high).cfg = 0 ∧
      ((unitAt .reset (enablesHigh 0) 2).observed .high).cfg = 1 ∧
      ¬∀ n, (unitAt .reset (enablesHigh 0x20) n).observed .high =
        (unitAt .reset (enablesHigh 0) n).observed .high := by
  refine ⟨⟨enablesHigh_mode32 (by decide), enablesHigh_mode32 (by decide),
    enablesHigh_sameInputs 0x20 0⟩, by decide +kernel, by decide +kernel, fun same => ?_⟩
  have two := same 2
  revert two
  decide +kernel

end CoreVMcu.Timer
