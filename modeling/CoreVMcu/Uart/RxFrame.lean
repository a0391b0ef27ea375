import CoreVMcu.Uart.Frame
import CoreVMcu.Uart.Rx

/-!
# The receiver reads the frame

The receiver sees the line three cycles late, looks at it from half a unit after its
fall on, and reads every unit of the frame once, a half of a unit after its beginning.
-/

namespace CoreVMcu.Uart

open Clocked

/-- The cycles from the fall of the line to the first period. -/
def UartConfig.half (config : UartConfig) : Nat := config.div.toNat / 2

/-- A byte without the bits that are not sent. -/
def reduced (config : UartConfig) (byte : BitVec 8) : BitVec 8 :=
  (byte.setWidth config.dataBits).setWidth 8

/-- The first data bits of a byte have been read. -/
structure HasRead (config : UartConfig) (byte : BitVec 8) (count : Nat) (data : BitVec 8) :
    Prop where
  read : ∀ place, place < count →
    data.getLsbD (config.dataBits - count + place) = byte.getLsbD place
  clear : 0 < count → ∀ place, config.dataBits ≤ place → data.getLsbD place = false

section Data

variable {config : UartConfig} {byte data : BitVec 8} {count : Nat}

theorem getLsbD_shiftIn (config : UartConfig) (bit : Bool) (data : BitVec 8) (place : Nat) :
    (shiftIn config bit data).getLsbD place =
      if place + 1 = config.dataBits then bit
      else decide (place + 1 < config.dataBits) && data.getLsbD (place + 1) := by
  unfold shiftIn UartConfig.dataBits targetBits
  split <;> simp [BitVec.getLsbD_cons, Nat.add_comm 1] <;> grind

/-- Reading the next data bit. -/
theorem HasRead.next (hasRead : HasRead config byte count data) (more : count < config.dataBits) :
    HasRead config byte (count + 1) (shiftIn config (byte.getLsbD count) data) := by
  constructor
  · intro place before
    rw [getLsbD_shiftIn]
    rcases Nat.lt_or_eq_of_le (Nat.le_of_lt_succ before) with earlier | last
    · rw [if_neg (by omega), decide_eq_true (by omega), Bool.true_and, ← hasRead.read place earlier]
      congr 1
      omega
    · rw [if_pos (by omega), last]
  · intro _ place outside
    rw [getLsbD_shiftIn, if_neg (by omega), decide_eq_false (by omega), Bool.false_and]

theorem hasRead_zero (config : UartConfig) (byte data : BitVec 8) : HasRead config byte 0 data :=
  ⟨fun _ before => absurd before (Nat.not_lt_zero _), fun positive => absurd positive (by decide)⟩

/-- All data bits have been read. -/
theorem HasRead.all (hasRead : HasRead config byte config.dataBits data) :
    data = reduced config byte := by
  apply BitVec.eq_of_getLsbD_eq
  intro place inside
  rw [reduced, BitVec.getLsbD_setWidth, BitVec.getLsbD_setWidth, decide_eq_true inside,
    Bool.true_and]
  rcases Nat.lt_or_ge place config.dataBits with sent | notSent
  · rw [decide_eq_true sent, Bool.true_and, ← hasRead.read place sent, Nat.sub_self, Nat.zero_add]
  · rw [decide_eq_false (Nat.not_lt_of_le notSent), Bool.false_and]
    exact hasRead.clear config.dataBits_pos place notSent

end Data

/-! ## Times of the receiver -/

/-- The registers of the line at a time of a frame. -/
structure LineSync (config : UartConfig) (byte : BitVec 8) (time : Nat) (uart : UartRx) :
    Prop where
  sync0 : uart.sync0 = frameLine config byte (time - 1)
  sync1 : uart.sync1 = frameLine config byte (time - 2)
  sync2 : uart.sync2 = frameLine config byte (time - 3)

/-- The state of the receiver during the reading of a unit. -/
def rxStateAt (config : UartConfig) (unit : Nat) : RxState :=
  if unit ≤ config.dataBits then .data
  else if unit < config.unitsBeforeStop then .parity
  else .stopBit

/-- The receiver is at a phase of the reading of a unit. -/
structure RxUnit (config : UartConfig) (byte : BitVec 8) (unit phase : Nat) (uart : UartRx) :
    Prop where
  started : 1 ≤ unit
  inFrame : unit ≤ config.unitsBeforeStop
  state : uart.state = rxStateAt config unit
  regData : HasRead config byte (min (unit - 1) config.dataBits) uart.regData
  regBitCount :
    uart.regBitCount.toNat = if unit ≤ config.dataBits then unit - 1 else 0
  parityBit : uart.parityBit = parityUpTo byte (min (unit - 1) config.dataBits)
  errorParity : uart.errorParity = false
  baud : BaudAt config phase uart.baudCnt uart.bitDone

/-- The receiver waits for the line to fall. -/
structure RxIdle (uart : UartRx) : Prop where
  state : uart.state = .idle
  regBitCount : uart.regBitCount = 0
  bitDone : uart.bitDone = false

/-- The receiver waits for half a unit. -/
structure RxStart (config : UartConfig) (time : Nat) (uart : UartRx) : Prop where
  fallen : 4 ≤ time
  inHalf : time ≤ config.half + 4
  state : uart.state = .startBit
  regBitCount : uart.regBitCount = 0
  errorParity : uart.errorParity = false
  baudCnt : uart.baudCnt.toNat = if time = config.half + 4 then 0 else time - 3
  bitDone : uart.bitDone = decide (time = config.half + 4)

/-- The last cycle of the reading of a frame. -/
def UartConfig.readTime (config : UartConfig) : Nat :=
  config.half + 4 + config.unitsBeforeStop * config.period

/-- The receiver at a time of the frame of a byte. -/
inductive RxAt (config : UartConfig) (byte : BitVec 8) : Nat → UartRx → Prop where
  | before {time : Nat} {uart : UartRx} (early : time ≤ 3) (idle : RxIdle uart)
      (count : 2 ≤ time → uart.baudCnt = 0) : RxAt config byte time uart
  | start {time : Nat} {uart : UartRx} (start : RxStart config time uart) :
      RxAt config byte time uart
  | unit {time unit phase : Nat} {uart : UartRx} (now : RxUnit config byte unit phase uart)
      (isTime : time + config.period = config.half + 5 + unit * config.period + phase) :
      RxAt config byte time uart
  | after {time : Nat} {uart : UartRx} (done : config.readTime < time) (idle : RxIdle uart) :
      RxAt config byte time uart

/-- What the receiver hands over in a cycle. -/
structure Hands (uart : UartRx) (input : RxInput) (valid : Bool) : Prop where
  rxValid : (uart.signals input).rxValid = valid
  errParity : (uart.signals input).errParity = false

section Waiting

variable {config : UartConfig} {byte : BitVec 8} {time : Nat} {uart : UartRx} {input : RxInput}

/-- While the line does not fall an idle receiver stays idle. -/
theorem RxIdle.step_waits (idle : RxIdle uart) (high : uart.rxFall = false)
    (input : RxInput) :
    RxIdle (uart.step input) ∧ (uart.step input).baudCnt = 0 ∧ Hands uart input false := by
  have signals : uart.signals input = uart.defaults := by
    rw [UartRx.signals, idle.state]
    simp only [UartRx.idle, high, Bool.false_eq_true, if_false]
  refine ⟨⟨?_, ?_, ?_⟩, ?_, ?_, ?_⟩
  · simp [UartRx.step, signals, UartRx.defaults, idle.state]
  · simp [UartRx.step, signals, UartRx.defaults, idle.regBitCount]
  · simp [UartRx.step, signals, UartRx.defaults]
  · simp [UartRx.step, signals, UartRx.defaults]
  · rw [signals]; rfl
  · rw [signals]; rfl

theorem half_pos (divides : 2 ≤ config.div.toNat) : 0 < config.half :=
  Nat.div_pos divides (by decide)

theorem toNat_half (config : UartConfig) : (config.div >>> 1).toNat = config.half :=
  BitVec.toNat_ushiftRight ..

/-- The count is compared with half of the divider. -/
theorem eq_half_iff (count : BitVec 16) :
    (count == config.div >>> 1) = decide (count.toNat = config.half) := by
  rw [Bool.eq_iff_iff, beq_iff_eq, decide_eq_true_iff, ← BitVec.toNat_inj, toNat_half]

/-- The line falls. -/
theorem RxIdle.step_falls (idle : RxIdle uart) (divides : 2 ≤ config.div.toNat)
    (enabled : config.en = true) (configured : input.config = config)
    (falls : uart.rxFall = true) (zero : uart.baudCnt = 0) :
    RxStart config 4 (uart.step input) ∧ Hands uart input false := by
  have signals : uart.signals input =
      { uart.defaults with
        stateNext := .startBit, baudgenEn := true, startBit := true, errClear := true } := by
    rw [UartRx.signals, idle.state]
    simp only [UartRx.idle, falls, if_true]
  have positive := half_pos divides
  have notWraps : (uart.baudCnt == config.div >>> 1) = false := by
    rw [eq_half_iff, zero]
    exact decide_eq_false (Nat.ne_of_lt positive)
  refine ⟨⟨Nat.le_refl 4, Nat.le_add_left 4 _, ?_, ?_, ?_, ?_, ?_⟩, ?_, ?_⟩
  · simp only [UartRx.step, signals, configured, enabled, if_true]
  · simp only [UartRx.step, signals]
    exact idle.regBitCount
  · simp only [UartRx.step, signals, if_true]
  · rw [if_neg (by omega)]
    simp only [UartRx.step, signals, UartRx.baudTarget, configured, notWraps, if_true,
      Bool.false_eq_true, if_false]
    rw [zero]
    rfl
  · rw [decide_eq_false (by omega)]
    simp only [UartRx.step, signals, UartRx.baudTarget, configured, notWraps, if_true,
      Bool.and_false]
  · rw [signals]; rfl
  · rw [signals]; rfl

/-- A cycle in which the receiver waits for half a unit. -/
theorem RxStart.step (start : RxStart config time uart) (divides : 2 ≤ config.div.toNat)
    (enabled : config.en = true) (configured : input.config = config) (byte : BitVec 8) :
    RxAt config byte (time + 1) (uart.step input) ∧ Hands uart input false := by
  have positive := half_pos divides
  have bitCount := start.regBitCount
  have period : config.period = config.div.toNat + 1 := rfl
  by_cases ends : time = config.half + 4
  · have done : uart.bitDone = true := by
      rw [start.bitDone]
      exact decide_eq_true ends
    have zero : uart.baudCnt = 0 := by
      apply BitVec.eq_of_toNat_eq
      rw [start.baudCnt, if_pos ends]
      rfl
    have notWraps : (uart.baudCnt == config.div >>> 1) = false := by
      rw [eq_half_iff, zero]
      exact decide_eq_false (Nat.ne_of_lt positive)
    have signals : uart.signals input =
        { uart.defaults with
          parityBitNext := false, baudgenEn := true, startBit := true, stateNext := .data } := by
      rw [UartRx.signals, start.state]
      simp only [UartRx.startBit, done, if_true]
    have first := config.dataBits_pos
    have now : RxUnit config byte 1 0 (uart.step input) := by
      refine ⟨Nat.le_refl 1, ?_, ?_, hasRead_zero .., ?_, ?_, ?_, ?_, ?_, ?_⟩
      · unfold UartConfig.unitsBeforeStop
        omega
      · simp only [UartRx.step, signals, configured, enabled, if_true]
        rw [rxStateAt, if_pos (Nat.succ_le_of_lt first)]
      · rw [if_pos (Nat.succ_le_of_lt first)]
        simp only [UartRx.step, signals]
        exact congrArg BitVec.toNat bitCount
      · simp only [UartRx.step, signals, done, if_true, Nat.sub_self, Nat.zero_min]
        rfl
      · simp only [UartRx.step, signals]
        exact start.errorParity
      · omega
      · rw [if_neg (by omega)]
        simp only [UartRx.step, signals, UartRx.baudTarget, configured, notWraps, if_true,
          Bool.false_eq_true, if_false]
        rw [zero]
        rfl
      · rw [decide_eq_false (by omega)]
        simp only [UartRx.step, signals, UartRx.baudTarget, configured, notWraps, if_true,
          Bool.and_false]
    exact ⟨.unit now (by omega), by rw [signals]; rfl, by rw [signals]; rfl⟩
  · have notDone : uart.bitDone = false := by
      rw [start.bitDone]
      exact decide_eq_false ends
    have count := start.baudCnt
    have fallen := start.fallen
    have inHalf := start.inHalf
    rw [if_neg ends] at count
    have wraps : (uart.baudCnt == config.div >>> 1) = decide (time + 1 = config.half + 4) := by
      rw [eq_half_iff, decide_eq_decide]
      omega
    have signals : uart.signals input =
        { uart.defaults with
          parityBitNext := false, baudgenEn := true, startBit := true } := by
      rw [UartRx.signals, start.state]
      simp only [UartRx.startBit, notDone, Bool.false_eq_true, if_false]
    refine ⟨.start ⟨by omega, by omega, ?_, ?_, ?_, ?_, ?_⟩, ?_, ?_⟩
    · simp only [UartRx.step, signals, configured, enabled, if_true]
      exact start.state
    · simp only [UartRx.step, signals]
      exact bitCount
    · simp only [UartRx.step, signals]
      exact start.errorParity
    · simp only [UartRx.step, signals, UartRx.baudTarget, configured, wraps, if_true,
        decide_eq_true_eq]
      split
      · rfl
      · rw [toNat_succ_of_lt config.div (by unfold UartConfig.half at *; omega), count]
        omega
    · simp only [UartRx.step, signals, UartRx.baudTarget, configured, wraps, if_true,
        Bool.true_and]
    · rw [signals]; rfl
    · rw [signals]; rfl

end Waiting

section Units

variable {config : UartConfig} {byte : BitVec 8} {unit phase : Nat} {uart : UartRx}
variable {input : RxInput}

/-- A frame is being read. -/
def UartRx.reads (uart : UartRx) : Prop :=
  uart.state = .data ∨ uart.state = .parity ∨ uart.state = .stopBit

theorem RxUnit.reads (now : RxUnit config byte unit phase uart) : uart.reads := by
  unfold UartRx.reads
  rw [now.state, rxStateAt]
  repeat' split
  all_goals simp

/-- Inside a unit nothing but the counter of cycles changes. -/
theorem rxSignals_inside (reads : uart.reads) (inside : uart.bitDone = false)
    (input : RxInput) :
    (uart.signals input).stateNext = uart.state ∧ (uart.signals input).sampleData = false ∧
      (uart.signals input).regBitCountNext = uart.regBitCount ∧
      (uart.signals input).setErrorParity = false ∧ Hands uart input false := by
  rcases reads with state | state | state
  · have signals : uart.signals input =
        { uart.defaults with
          baudgenEn := true, parityBitNext := uart.parityBit ^^ uart.sync2
          regDataNext := shiftIn input.config uart.sync2 uart.regData } := by
      rw [UartRx.signals, state]
      simp only [UartRx.data, inside, Bool.false_eq_true, if_false]
    exact ⟨by rw [signals]; rfl, by rw [signals]; rfl, by rw [signals]; rfl, by rw [signals]; rfl,
      by rw [signals]; rfl, by rw [signals]; rfl⟩
  · have signals : uart.signals input = { uart.defaults with baudgenEn := true } := by
      rw [UartRx.signals, state]
      simp only [UartRx.parity, inside, Bool.false_eq_true, if_false]
    exact ⟨by rw [signals]; rfl, by rw [signals]; rfl, by rw [signals]; rfl, by rw [signals]; rfl,
      by rw [signals]; rfl, by rw [signals]; rfl⟩
  · have signals : uart.signals input = { uart.defaults with baudgenEn := true } := by
      rw [UartRx.signals, state]
      simp only [UartRx.stopBit, inside, Bool.false_eq_true, if_false]
    exact ⟨by rw [signals]; rfl, by rw [signals]; rfl, by rw [signals]; rfl, by rw [signals]; rfl,
      by rw [signals]; rfl, by rw [signals]; rfl⟩

/-- While a frame is read the counter of cycles is compared with the divider. -/
theorem rxSignals_baud (reads : uart.reads) (input : RxInput) :
    (uart.signals input).baudgenEn = true ∧ (uart.signals input).startBit = false ∧
      (uart.signals input).errClear = false := by
  rcases reads with state | state | state
  · simp only [UartRx.signals, state, UartRx.data]
    split
    · split <;> exact ⟨rfl, rfl, rfl⟩
    · exact ⟨rfl, rfl, rfl⟩
  · simp only [UartRx.signals, state, UartRx.parity]
    split <;> exact ⟨rfl, rfl, rfl⟩
  · simp only [UartRx.signals, state, UartRx.stopBit]
    split
    · split <;> exact ⟨rfl, rfl, rfl⟩
    · exact ⟨rfl, rfl, rfl⟩

theorem RxUnit.baud_next (now : RxUnit config byte unit phase uart)
    (divides : 1 ≤ config.div.toNat) (configured : input.config = config) :
    BaudAt config (nextPhase config phase) (uart.step input).baudCnt (uart.step input).bitDone := by
  have next := now.baud.next divides
  obtain ⟨baudgenEn, startBit, _⟩ := rxSignals_baud now.reads input
  simp only [UartRx.step, UartRx.baudTarget, baudgenEn, startBit, configured, if_true,
    Bool.true_and, Bool.false_eq_true, if_false]
  exact next

/-- A cycle inside a unit. -/
theorem RxUnit.step_inside (now : RxUnit config byte unit phase uart)
    (divides : 1 ≤ config.div.toNat) (enabled : config.en = true)
    (configured : input.config = config) (inside : phase + 1 < config.period) :
    RxUnit config byte unit (phase + 1) (uart.step input) ∧ Hands uart input false := by
  have notDone := now.baud.done_inside inside
  obtain ⟨stateNext, sampleData, bitCountNext, noError, hands⟩ :=
    rxSignals_inside now.reads notDone input
  obtain ⟨_, _, errClear⟩ := rxSignals_baud now.reads input
  have baud := now.baud_next divides configured
  rw [nextPhase, if_neg (Nat.ne_of_lt inside)] at baud
  refine ⟨⟨now.started, now.inFrame, ?_, ?_, ?_, ?_, ?_, baud⟩, hands⟩
  · rw [← now.state, ← stateNext]
    simp only [UartRx.step, configured, enabled, if_true]
  · simp only [UartRx.step, sampleData, Bool.false_eq_true, if_false]
    exact now.regData
  · rw [← now.regBitCount, ← bitCountNext]
    rfl
  · simp only [UartRx.step, notDone, Bool.false_eq_true, if_false]
    exact now.parityBit
  · simp only [UartRx.step, errClear, noError, Bool.false_eq_true, if_false, Bool.false_or]
    exact now.errorParity

/-- The last data bit is read. -/
theorem RxUnit.lastBit_iff (now : RxUnit config byte unit phase uart)
    (inData : unit ≤ config.dataBits) :
    (uart.regBitCount == targetBits config) = decide (unit = config.dataBits) := by
  have count := now.regBitCount
  have started := now.started
  rw [if_pos inData] at count
  rw [Bool.eq_iff_iff, beq_iff_eq, decide_eq_true_iff, ← BitVec.toNat_inj, count,
    UartConfig.dataBits]
  omega

/-- A data bit is read at the end of its reading. -/
theorem RxUnit.step_data (now : RxUnit config byte unit phase uart)
    (divides : 1 ≤ config.div.toNat) (enabled : config.en = true)
    (configured : input.config = config) (ends : phase + 1 = config.period)
    (inData : unit ≤ config.dataBits) (reads : uart.sync2 = byte.getLsbD (unit - 1)) :
    RxUnit config byte (unit + 1) 0 (uart.step input) ∧ Hands uart input false := by
  have started := now.started
  have done := now.baud.done_end ends
  have baud := now.baud_next divides configured
  have bits := config.dataBits_le
  have state : uart.state = .data := by rw [now.state, rxStateAt, if_pos inData]
  have signals : uart.signals input =
      { uart.defaults with
        baudgenEn := true, parityBitNext := uart.parityBit ^^ uart.sync2
        regDataNext := shiftIn config uart.sync2 uart.regData, sampleData := true
        regBitCountNext :=
          if unit = config.dataBits then 0 else uart.regBitCount + 1
        stateNext :=
          if unit = config.dataBits then if config.parityEn then .parity else .stopBit
          else .data } := by
    rw [UartRx.signals, state]
    simp only [UartRx.data, done, configured, now.lastBit_iff inData, if_true, decide_eq_true_eq]
    split
    · rfl
    · rw [← state]
      rfl
  have parity := now.parityBit
  have hasRead := now.regData
  rw [Nat.min_eq_left (by omega)] at parity hasRead
  have next := hasRead.next (by omega)
  rw [Nat.sub_add_cancel started] at next
  rw [nextPhase, if_pos ends] at baud
  refine ⟨⟨Nat.le_add_left 1 unit, ?_, ?_, ?_, ?_, ?_, ?_, baud⟩, ?_, ?_⟩
  · unfold UartConfig.unitsBeforeStop
    omega
  · simp only [UartRx.step, signals, configured, enabled, if_true]
    unfold rxStateAt UartConfig.unitsBeforeStop
    by_cases last : unit = config.dataBits
    · rw [if_pos last, if_neg (show ¬unit + 1 ≤ config.dataBits by omega)]
      cases config.parityEn with
      | true =>
          rw [if_pos rfl, if_pos]
          change unit + 1 < 1 + config.dataBits + 1
          omega
      | false =>
          rw [if_neg Bool.false_ne_true, if_neg]
          change ¬unit + 1 < 1 + config.dataBits + 0
          omega
    · rw [if_neg last, if_pos (by omega)]
  · simp only [UartRx.step, signals, if_true, reads]
    rw [Nat.add_sub_cancel, Nat.min_eq_left inData]
    exact next
  · have count := now.regBitCount
    rw [if_pos inData] at count
    simp only [UartRx.step, signals]
    by_cases last : unit = config.dataBits
    · rw [if_pos last, if_neg (by omega)]
      rfl
    · rw [if_neg last, if_pos (by omega), BitVec.toNat_add, count, Nat.mod_eq_of_lt]
      · change unit - 1 + 1 = unit + 1 - 1
        omega
      · change unit - 1 + 1 < 8
        omega
  · simp only [UartRx.step, signals, done, if_true, reads, parity]
    rw [Nat.add_sub_cancel, Nat.min_eq_left inData]
    obtain ⟨earlier, rfl⟩ := Nat.exists_eq_add_of_le' started
    rfl
  · simp only [UartRx.step, signals]
    exact now.errorParity
  · rw [signals]; rfl
  · rw [signals]; rfl

/-- The parity bit is read and agrees. -/
theorem RxUnit.step_parity (now : RxUnit config byte unit phase uart)
    (divides : 1 ≤ config.div.toNat) (enabled : config.en = true)
    (configured : input.config = config) (ends : phase + 1 = config.period)
    (beyond : config.dataBits < unit) (before : unit < config.unitsBeforeStop)
    (reads : uart.sync2 = parityUpTo byte config.dataBits) :
    RxUnit config byte (unit + 1) 0 (uart.step input) ∧ Hands uart input false := by
  have done := now.baud.done_end ends
  have baud := now.baud_next divides configured
  have state : uart.state = .parity := by
    rw [now.state, rxStateAt, if_neg (Nat.not_le_of_lt beyond), if_pos before]
  have parity := now.parityBit
  have hasRead := now.regData
  rw [Nat.min_eq_right (by omega)] at parity hasRead
  have agrees : (uart.parityBit != uart.sync2) = false := by
    rw [parity, reads, bne_self_eq_false]
  have signals : uart.signals input =
      { uart.defaults with baudgenEn := true, setErrorParity := false, stateNext := .stopBit } := by
    rw [UartRx.signals, state]
    simp only [UartRx.parity, done, agrees, if_true]
  have parityBits := Bool.toNat_le config.parityEn
  have reached : unit + 1 = config.unitsBeforeStop := by
    unfold UartConfig.unitsBeforeStop at before ⊢
    omega
  rw [nextPhase, if_pos ends] at baud
  refine ⟨⟨Nat.le_add_left 1 unit, Nat.le_of_eq reached, ?_, ?_, ?_, ?_, ?_, baud⟩, ?_, ?_⟩
  · simp only [UartRx.step, signals, configured, enabled, if_true]
    rw [rxStateAt, if_neg (by omega), if_neg (by omega)]
  · rw [Nat.min_eq_right (by omega)]
    simp only [UartRx.step, signals]
    exact hasRead
  · have count := now.regBitCount
    rw [if_neg (by omega)] at count ⊢
    rw [← count]
    simp only [UartRx.step, signals]
    rfl
  · rw [Nat.min_eq_right (by omega)]
    simp only [UartRx.step, signals, done, if_true]
    exact parity
  · simp only [UartRx.step, signals]
    exact now.errorParity
  · rw [signals]; rfl
  · rw [signals]; rfl

/-- The byte is handed over at the end of the reading of the stop bit. -/
theorem RxUnit.step_stopBit (now : RxUnit config byte config.unitsBeforeStop phase uart)
    (divides : 2 ≤ config.div.toNat) (enabled : config.en = true)
    (configured : input.config = config) (ends : phase + 1 = config.period) :
    RxIdle (uart.step input) ∧ Hands uart input true ∧ uart.regData = reduced config byte := by
  have beyond : config.dataBits < config.unitsBeforeStop := by
    unfold UartConfig.unitsBeforeStop
    omega
  have done := now.baud.done_end ends
  have baud := now.baud_next (Nat.le_of_succ_le divides) configured
  have state : uart.state = .stopBit := by
    rw [now.state, rxStateAt, if_neg (Nat.not_le_of_lt beyond), if_neg (Nat.lt_irrefl _)]
  have signals : uart.signals input =
      { uart.defaults with
        baudgenEn := true, stateNext := .idle, rxValid := true, errOverflow := !input.rxReady
        charEvent := input.rxReady } := by
    rw [UartRx.signals, state]
    simp only [UartRx.stopBit, done, now.errorParity, if_true, Bool.not_false]
  have hasRead := now.regData
  have count := now.regBitCount
  have period : 1 < config.period := Nat.succ_lt_succ (Nat.lt_of_succ_lt divides)
  rw [Nat.min_eq_right (by omega)] at hasRead
  rw [if_neg (by omega)] at count
  rw [nextPhase, if_pos ends] at baud
  refine ⟨⟨?_, ?_, baud.done_inside period⟩, ⟨?_, ?_⟩, hasRead.all⟩
  · simp only [UartRx.step, signals, configured, enabled, if_true]
  · simp only [UartRx.step, signals]
    exact BitVec.eq_of_toNat_eq count
  · rw [signals]
  · rw [signals]; rfl

end Units

/-! ## One cycle of the receiver -/

section Step

variable {config : UartConfig} {byte : BitVec 8} {time : Nat} {uart : UartRx} {input : RxInput}

theorem LineSync.step (sync : LineSync config byte time uart) (enabled : config.en = true)
    (configured : input.config = config) (line : input.rx = frameLine config byte time) :
    LineSync config byte (time + 1) (uart.step input) := by
  constructor
  · simp only [UartRx.step, configured, enabled, Bool.not_true, Bool.false_or]
    exact line
  · simp only [UartRx.step, configured, enabled, Bool.not_true, Bool.false_or]
    exact sync.sync0
  · simp only [UartRx.step, configured, enabled, Bool.not_true, Bool.false_or]
    exact sync.sync1

/-- The unit that is read at the end of its reading. -/
theorem LineSync.reads (sync : LineSync config byte time uart) (divides : 2 ≤ config.div.toNat)
    {unit phase : Nat} (ends : phase + 1 = config.period)
    (isTime : time + config.period = config.half + 5 + unit * config.period + phase) :
    uart.sync2 = frameBit config byte unit := by
  have positive := half_pos divides
  have inUnit : config.half - 1 < config.period := by
    unfold UartConfig.half UartConfig.period
    omega
  have moment : time - 3 = 2 + unit * config.period + (config.half - 1) := by omega
  rw [sync.sync2, moment, frameLine_unit inUnit]

/-- What a cycle of the receiver does at a time of a frame. -/
structure Receives (config : UartConfig) (byte : BitVec 8) (time : Nat) (uart : UartRx)
    (input : RxInput) : Prop where
  position : RxAt config byte (time + 1) (uart.step input)
  hands : Hands uart input (decide (time = config.readTime))
  data : time = config.readTime → uart.regData = reduced config byte

theorem RxAt.receives (now : RxAt config byte time uart) (started : 1 ≤ time)
    (sync : LineSync config byte time uart) (divides : 2 ≤ config.div.toNat)
    (enabled : config.en = true) (configured : input.config = config) :
    Receives config byte time uart input := by
  have divides' : 1 ≤ config.div.toNat := Nat.le_of_succ_le divides
  have period : config.period = config.div.toNat + 1 := rfl
  have positive := half_pos divides
  cases now with
  | before early idle count =>
      have notRead : ¬time = config.readTime := by
        unfold UartConfig.readTime
        omega
      rcases Nat.lt_or_eq_of_le early with earlier | third
      · have high : uart.rxFall = false := by
          have zero : time - 2 = 0 := by omega
          rw [UartRx.rxFall, sync.sync1, zero, frameLine_zero]
          rfl
        obtain ⟨idleNext, zero, hands⟩ := idle.step_waits high input
        refine ⟨.before (by omega) idleNext fun _ => zero, ?_, fun read => absurd read notRead⟩
        rw [decide_eq_false notRead]
        exact hands
      · have falls : uart.rxFall = true := by
          rw [UartRx.rxFall, sync.sync1, sync.sync2, third]
          simp
        obtain ⟨start, hands⟩ :=
          idle.step_falls divides enabled configured falls (count (by omega))
        refine ⟨?_, ?_, fun read => absurd read notRead⟩
        · rw [third]
          exact .start start
        · rw [decide_eq_false notRead]
          exact hands
  | start start =>
      have inHalf := start.inHalf
      have first : 0 < config.unitsBeforeStop := by
        unfold UartConfig.unitsBeforeStop
        omega
      have room := Nat.mul_pos first config.period_pos
      have notRead : ¬time = config.readTime := by
        unfold UartConfig.readTime
        omega
      obtain ⟨next, hands⟩ := start.step divides enabled configured byte
      refine ⟨next, ?_, fun read => absurd read notRead⟩
      rw [decide_eq_false notRead]
      exact hands
  | @unit unit phase _ now isTime =>
      have inUnit := now.baud.inUnit
      have inFrame := now.inFrame
      have room := Nat.mul_le_mul_right config.period inFrame
      rcases Nat.lt_or_eq_of_le (Nat.succ_le_of_lt inUnit) with inside | ends
      · have notRead : ¬time = config.readTime := by
          unfold UartConfig.readTime
          omega
        obtain ⟨next, hands⟩ := now.step_inside divides' enabled configured inside
        refine ⟨.unit next (by omega), ?_, fun read => absurd read notRead⟩
        rw [decide_eq_false notRead]
        exact hands
      · have reads := sync.reads divides ends isTime
        rcases Nat.lt_or_eq_of_le inFrame with before | stop
        · have further := Nat.mul_le_mul_right config.period (Nat.succ_le_of_lt before)
          rw [Nat.succ_mul] at further
          have notRead : ¬time = config.readTime := by
            unfold UartConfig.readTime
            omega
          have isNext : time + 1 + config.period =
              config.half + 5 + (unit + 1) * config.period + 0 := by
            rw [Nat.add_mul, Nat.one_mul]
            omega
          have started' := now.started
          rw [frameBit, if_neg (Nat.ne_of_gt started')] at reads
          rcases Nat.lt_or_ge config.dataBits unit with beyond | inData
          · rw [if_neg (Nat.not_le_of_lt beyond), if_pos before] at reads
            obtain ⟨next, hands⟩ :=
              now.step_parity divides' enabled configured ends beyond before reads
            refine ⟨.unit next isNext, ?_, fun read => absurd read notRead⟩
            rw [decide_eq_false notRead]
            exact hands
          · rw [if_pos inData] at reads
            obtain ⟨next, hands⟩ := now.step_data divides' enabled configured ends inData reads
            refine ⟨.unit next isNext, ?_, fun read => absurd read notRead⟩
            rw [decide_eq_false notRead]
            exact hands
        · subst stop
          obtain ⟨idle, hands, data⟩ := now.step_stopBit divides enabled configured ends
          have read : time = config.readTime := by
            unfold UartConfig.readTime
            omega
          refine ⟨.after (by omega) idle, ?_, fun _ => data⟩
          rw [decide_eq_true read]
          exact hands
  | after done idle =>
      have notRead : ¬time = config.readTime := Nat.ne_of_gt done
      have high : uart.rxFall = false := by
        rw [UartRx.rxFall, sync.sync1, frameLine_stop]
        · rfl
        · unfold UartConfig.readTime at done
          omega
      obtain ⟨idleNext, _, hands⟩ := idle.step_waits high input
      refine ⟨.after (Nat.lt_succ_of_lt done) idleNext, ?_, fun read => absurd read notRead⟩
      rw [decide_eq_false notRead]
      exact hands

end Step

end CoreVMcu.Uart
