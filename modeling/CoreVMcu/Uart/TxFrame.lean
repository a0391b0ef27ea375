import CoreVMcu.Uart.Frame

/-!
# The transmitter sends the frame

At every time of a frame the registers of the transmitter are a function of the byte
and of the unit that is on the line.
-/

namespace CoreVMcu.Uart

/-- The state of the transmitter during a unit. -/
def txStateAt (config : UartConfig) (unit : Nat) : TxState :=
  if unit = 0 then .startBit
  else if unit ≤ config.dataBits then .data
  else if unit < config.unitsBeforeStop then .parity
  else if unit = config.unitsBeforeStop then .stopBitFirst
  else .stopBitLast

/-- The transmitter is at a phase of a unit of the frame of a byte. -/
structure TxUnit (config : UartConfig) (byte : BitVec 8) (unit phase : Nat) (uart : UartTx) :
    Prop where
  inFrame : unit < config.units
  state : uart.state = txStateAt config unit
  regData : unit ≤ config.dataBits → ∀ place, unit - 1 + place < 8 →
    uart.regData.getLsbD place = byte.getLsbD (unit - 1 + place)
  regBitCount :
    uart.regBitCount.toNat = if unit ≤ config.dataBits then unit - 1 else 0
  parityBit :
    1 ≤ unit → uart.parityBit = parityUpTo byte (min (unit - 1) config.dataBits)
  baud : BaudAt config phase uart.baudCnt uart.bitDone

/-- The transmitter waits for a byte. -/
structure TxIdle (uart : UartTx) : Prop where
  state : uart.state = .idle
  regBitCount : uart.regBitCount = 0
  bitDone : uart.bitDone = false

/-- The transmitter is at a time of the frame of a byte.  In the first cycle the
counter of cycles has not started yet. -/
inductive TxAt (config : UartConfig) (byte : BitVec 8) : Nat → UartTx → Prop where
  | opening {uart : UartTx} (state : uart.state = .startBit) (regData : uart.regData = byte)
      (regBitCount : uart.regBitCount = 0) (baudCnt : uart.baudCnt = 0)
      (bitDone : uart.bitDone = false) : TxAt config byte 1 uart
  | unit {unit phase : Nat} {uart : UartTx} (now : TxUnit config byte unit phase uart) :
      TxAt config byte (2 + unit * config.period + phase) uart

section Step

variable {config : UartConfig} {byte : BitVec 8} {unit phase : Nat} {uart : UartTx}
variable {input : TxInput}

/-- Inside a unit nothing but the counter of cycles changes. -/
theorem signals_inside (busy : uart.state ≠ .idle) (inside : uart.bitDone = false)
    (input : TxInput) :
    (uart.signals input).stateNext = uart.state ∧ (uart.signals input).sampleData = false ∧
      (uart.signals input).regBitCountNext = uart.regBitCount ∧
      (uart.signals input).baudgenEn = true := by
  cases state : uart.state with
  | idle => exact absurd state busy
  | startBit =>
      simp [UartTx.signals, state, UartTx.startBit, inside, UartTx.defaults]
  | data => simp [UartTx.signals, state, UartTx.data, inside, UartTx.defaults]
  | parity => simp [UartTx.signals, state, UartTx.parity, inside, UartTx.defaults]
  | stopBitFirst => simp [UartTx.signals, state, UartTx.stopBitFirst, inside, UartTx.defaults]
  | stopBitLast => simp [UartTx.signals, state, UartTx.stopBitLast, inside, UartTx.defaults]

theorem txStateAt_ne_idle (config : UartConfig) (unit : Nat) : txStateAt config unit ≠ .idle := by
  unfold txStateAt
  repeat' split
  all_goals exact nofun

/-- While a frame is sent the counter of cycles runs. -/
theorem signals_baudgenEn (busy : uart.state ≠ .idle) :
    (uart.signals input).baudgenEn = true := by
  cases state : uart.state with
  | idle => exact absurd state busy
  | startBit =>
      simp only [UartTx.signals, state, UartTx.startBit]
      split <;> rfl
  | data =>
      simp only [UartTx.signals, state, UartTx.data]
      split
      · split <;> rfl
      · rfl
  | parity =>
      simp only [UartTx.signals, state, UartTx.parity]
      split <;> rfl
  | stopBitFirst =>
      simp only [UartTx.signals, state, UartTx.stopBitFirst]
      split <;> rfl
  | stopBitLast =>
      simp only [UartTx.signals, state, UartTx.stopBitLast]
      split <;> rfl

theorem TxUnit.busy (now : TxUnit config byte unit phase uart) : uart.state ≠ .idle := by
  rw [now.state]
  exact txStateAt_ne_idle config unit

/-- The counter of cycles after a cycle of a frame. -/
theorem TxUnit.baud_next (now : TxUnit config byte unit phase uart)
    (divides : 1 ≤ config.div.toNat) (configured : input.config = config) :
    BaudAt config (nextPhase config phase) (uart.step input).baudCnt (uart.step input).bitDone := by
  have next := now.baud.next divides
  simp only [UartTx.step, signals_baudgenEn now.busy, configured, if_true, Bool.true_and]
  exact next

/-- A cycle inside a unit. -/
theorem TxUnit.step_inside (now : TxUnit config byte unit phase uart)
    (divides : 1 ≤ config.div.toNat) (enabled : config.en = true)
    (configured : input.config = config) (inside : phase + 1 < config.period) :
    TxUnit config byte unit (phase + 1) (uart.step input) := by
  have notDone := now.baud.done_inside inside
  obtain ⟨stateNext, sampleData, bitCountNext, _⟩ := signals_inside now.busy notDone input
  have baud := now.baud_next divides configured
  rw [nextPhase, if_neg (Nat.ne_of_lt inside)] at baud
  have data : (uart.step input).regData = uart.regData := by
    simp only [UartTx.step, sampleData, Bool.false_eq_true, if_false]
  refine ⟨now.inFrame, ?_, ?_, ?_, ?_, baud⟩
  · rw [← now.state, ← stateNext]
    simp only [UartTx.step, configured, enabled, if_true]
  · rw [data]
    exact now.regData
  · rw [← now.regBitCount, ← bitCountNext]
    rfl
  · intro started
    rw [← now.parityBit started]
    simp only [UartTx.step, notDone, Bool.false_eq_true, if_false]

/-- The end of the start bit. -/
theorem TxUnit.step_startBit (now : TxUnit config byte 0 phase uart)
    (divides : 1 ≤ config.div.toNat) (enabled : config.en = true)
    (configured : input.config = config) (ends : phase + 1 = config.period) :
    TxUnit config byte 1 0 (uart.step input) := by
  have done := now.baud.done_end ends
  have baud := now.baud_next divides configured
  have state : uart.state = .startBit := now.state
  have signals : uart.signals input =
      { uart.defaults with
        tx := false, parityBitNext := false, baudgenEn := true, stateNext := .data } := by
    rw [UartTx.signals, state]
    simp only [UartTx.startBit, done, if_true]
  have first := config.dataBits_pos
  rw [nextPhase, if_pos ends] at baud
  refine ⟨?_, ?_, fun _ => ?_, ?_, fun _ => ?_, baud⟩
  · unfold UartConfig.units UartConfig.unitsBeforeStop
    omega
  · simp only [UartTx.step, signals, configured, enabled, if_true]
    rw [txStateAt, if_neg (by decide), if_pos (Nat.succ_le_of_lt first)]
  · have data : (uart.step input).regData = uart.regData := by
      simp only [UartTx.step, signals]
      rfl
    rw [data]
    exact now.regData (Nat.zero_le _)
  · simp only [UartTx.step, signals]
    rw [if_pos (Nat.succ_le_of_lt first)]
    exact now.regBitCount
  · simp only [UartTx.step, signals, done, if_true, Nat.sub_self, Nat.zero_min]
    rfl

/-- The last data bit is on the line. -/
theorem TxUnit.lastBit_iff (now : TxUnit config byte unit phase uart) (started : 1 ≤ unit)
    (inData : unit ≤ config.dataBits) :
    (uart.regBitCount == targetBits config) = decide (unit = config.dataBits) := by
  have count := now.regBitCount
  rw [if_pos inData] at count
  rw [Bool.eq_iff_iff, beq_iff_eq, decide_eq_true_iff, ← BitVec.toNat_inj, count,
    UartConfig.dataBits]
  omega

theorem TxUnit.dataState (now : TxUnit config byte unit phase uart) (started : 1 ≤ unit)
    (inData : unit ≤ config.dataBits) : uart.state = .data := by
  rw [now.state, txStateAt, if_neg (Nat.ne_of_gt started), if_pos inData]

/-- The bit of the byte that is on the line. -/
theorem TxUnit.currentBit (now : TxUnit config byte unit phase uart) (started : 1 ≤ unit)
    (inData : unit ≤ config.dataBits) :
    uart.regData.getLsbD 0 = byte.getLsbD (unit - 1) := by
  have bound := config.dataBits_le
  exact now.regData inData 0 (by omega)

/-- The parity after a data bit. -/
theorem TxUnit.parity_next (now : TxUnit config byte unit phase uart) (started : 1 ≤ unit)
    (inData : unit ≤ config.dataBits) :
    (uart.parityBit ^^ uart.regData.getLsbD 0) = parityUpTo byte (min unit config.dataBits) := by
  have parity := now.parityBit started
  rw [Nat.min_eq_left (by omega)] at parity
  rw [Nat.min_eq_left inData, parity, now.currentBit started inData]
  obtain ⟨earlier, rfl⟩ := Nat.exists_eq_add_of_le' started
  rfl

/-- The end of a data bit that is not the last one. -/
theorem TxUnit.step_data (now : TxUnit config byte unit phase uart)
    (divides : 1 ≤ config.div.toNat) (enabled : config.en = true)
    (configured : input.config = config) (ends : phase + 1 = config.period)
    (started : 1 ≤ unit) (more : unit < config.dataBits) :
    TxUnit config byte (unit + 1) 0 (uart.step input) := by
  have inData := Nat.le_of_lt more
  have done := now.baud.done_end ends
  have baud := now.baud_next divides configured
  have state := now.dataState started inData
  have notLast : (uart.regBitCount == targetBits config) = false := by
    rw [now.lastBit_iff started inData]
    exact decide_eq_false (Nat.ne_of_lt more)
  have signals : uart.signals input =
      { uart.defaults with
        tx := uart.regData.getLsbD 0, baudgenEn := true
        parityBitNext := uart.parityBit ^^ uart.regData.getLsbD 0
        regBitCountNext := uart.regBitCount + 1, sampleData := true } := by
    rw [UartTx.signals, state]
    simp only [UartTx.data, done, configured, notLast, if_true, Bool.false_eq_true, if_false]
  have parity := now.parity_next started inData
  rw [nextPhase, if_pos ends] at baud
  refine ⟨?_, ?_, fun _ => ?_, ?_, fun _ => ?_, baud⟩
  · unfold UartConfig.units UartConfig.unitsBeforeStop
    omega
  · simp only [UartTx.step, signals, configured, enabled, if_true]
    rw [txStateAt, if_neg (Nat.succ_ne_zero _), if_pos (Nat.succ_le_of_lt more)]
    exact state
  · intro place inside
    have data : (uart.step input).regData = shiftOut uart.regData := by
      simp only [UartTx.step, signals, if_true]
      rfl
    have shifted := now.regData inData (place + 1) (by omega)
    rw [data, getLsbD_shiftOut _ (by omega), shifted]
    congr 1
    omega
  · have count := now.regBitCount
    have bound := (targetBits config).isLt
    have bits : config.dataBits = (targetBits config).toNat + 1 := rfl
    rw [if_pos inData] at count
    rw [if_pos (Nat.succ_le_of_lt more)]
    simp only [UartTx.step, signals]
    rw [BitVec.toNat_add, count, Nat.mod_eq_of_lt]
    · change unit - 1 + 1 = unit + 1 - 1
      omega
    · change unit - 1 + 1 < 8
      omega
  · simp only [UartTx.step, signals, done, if_true]
    exact parity

/-- The end of the last data bit. -/
theorem TxUnit.step_lastData (now : TxUnit config byte unit phase uart)
    (divides : 1 ≤ config.div.toNat) (enabled : config.en = true)
    (configured : input.config = config) (ends : phase + 1 = config.period)
    (started : 1 ≤ unit) (last : unit = config.dataBits) :
    TxUnit config byte (unit + 1) 0 (uart.step input) := by
  have inData := Nat.le_of_eq last
  have done := now.baud.done_end ends
  have baud := now.baud_next divides configured
  have isLast : (uart.regBitCount == targetBits config) = true := by
    rw [now.lastBit_iff started inData]
    exact decide_eq_true last
  have signals : uart.signals input =
      { uart.defaults with
        tx := uart.regData.getLsbD 0, baudgenEn := true
        parityBitNext := uart.parityBit ^^ uart.regData.getLsbD 0
        regBitCountNext := 0
        stateNext := if config.parityEn then .parity else .stopBitFirst } := by
    rw [UartTx.signals, now.dataState started inData]
    simp only [UartTx.data, done, configured, isLast, if_true]
  have parity := now.parity_next started inData
  have beyond : ¬unit + 1 ≤ config.dataBits := by omega
  rw [nextPhase, if_pos ends] at baud
  refine ⟨?_, ?_, fun inside => absurd inside beyond, ?_, fun _ => ?_, baud⟩
  · unfold UartConfig.units UartConfig.unitsBeforeStop
    omega
  · simp only [UartTx.step, signals, configured, enabled, if_true]
    rw [txStateAt, if_neg (Nat.succ_ne_zero _), if_neg beyond, UartConfig.unitsBeforeStop, last]
    cases config.parityEn with
    | true =>
        rw [if_pos rfl, if_pos]
        change config.dataBits + 1 < 1 + config.dataBits + 1
        omega
    | false =>
        rw [if_neg Bool.false_ne_true, if_neg, if_pos]
        · exact Nat.add_comm ..
        · change ¬config.dataBits + 1 < 1 + config.dataBits + 0
          omega
  · rw [if_neg beyond]
    simp only [UartTx.step, signals]
    rfl
  · simp only [UartTx.step, signals, done, if_true]
    exact parity

/-- The end of the parity bit. -/
theorem TxUnit.step_parity (now : TxUnit config byte unit phase uart)
    (divides : 1 ≤ config.div.toNat) (enabled : config.en = true)
    (configured : input.config = config) (ends : phase + 1 = config.period)
    (beyond : config.dataBits < unit) (before : unit < config.unitsBeforeStop) :
    TxUnit config byte (unit + 1) 0 (uart.step input) := by
  have done := now.baud.done_end ends
  have baud := now.baud_next divides configured
  have state : uart.state = .parity := by
    rw [now.state, txStateAt, if_neg (Nat.ne_of_gt (Nat.zero_lt_of_lt beyond)),
      if_neg (Nat.not_le_of_lt beyond), if_pos before]
  have signals : uart.signals input =
      { uart.defaults with
        tx := uart.parityBit, baudgenEn := true, stateNext := .stopBitFirst } := by
    rw [UartTx.signals, state]
    simp only [UartTx.parity, done, if_true]
  have parityBits := Bool.toNat_le config.parityEn
  have reached : unit + 1 = config.unitsBeforeStop := by
    unfold UartConfig.unitsBeforeStop at before ⊢
    omega
  rw [nextPhase, if_pos ends] at baud
  refine ⟨?_, ?_, fun inside => absurd inside (by omega), ?_, fun _ => ?_, baud⟩
  · unfold UartConfig.units
    omega
  · simp only [UartTx.step, signals, configured, enabled, if_true]
    rw [txStateAt, if_neg (Nat.succ_ne_zero _), if_neg (by omega), if_neg (by omega),
      if_pos reached]
  · have count := now.regBitCount
    rw [if_neg (by omega)] at count ⊢
    rw [← count]
    simp only [UartTx.step, signals]
    rfl
  · have parity := now.parityBit (by omega)
    rw [Nat.min_eq_right (by omega)] at parity ⊢
    simp only [UartTx.step, signals, done, if_true]
    exact parity

/-- The end of the first of two stop bits. -/
theorem TxUnit.step_stopBit (now : TxUnit config byte config.unitsBeforeStop phase uart)
    (divides : 1 ≤ config.div.toNat) (enabled : config.en = true)
    (configured : input.config = config) (ends : phase + 1 = config.period)
    (two : config.stopBits = true) :
    TxUnit config byte (config.unitsBeforeStop + 1) 0 (uart.step input) := by
  have beyond : config.dataBits < config.unitsBeforeStop := by
    unfold UartConfig.unitsBeforeStop
    omega
  have done := now.baud.done_end ends
  have baud := now.baud_next divides configured
  have state : uart.state = .stopBitFirst := by
    rw [now.state, txStateAt, if_neg (Nat.ne_of_gt (Nat.zero_lt_of_lt beyond)),
      if_neg (Nat.not_le_of_lt beyond), if_neg (Nat.lt_irrefl _), if_pos rfl]
  have signals : uart.signals input =
      { uart.defaults with baudgenEn := true, stateNext := .stopBitLast } := by
    rw [UartTx.signals, state]
    simp only [UartTx.stopBitFirst, done, configured, two, if_true]
  rw [nextPhase, if_pos ends] at baud
  refine ⟨?_, ?_, fun inside => absurd inside (by omega), ?_, fun _ => ?_, baud⟩
  · rw [UartConfig.units, two]
    exact Nat.lt_succ_self _
  · simp only [UartTx.step, signals, configured, enabled, if_true]
    rw [txStateAt, if_neg (Nat.succ_ne_zero _), if_neg (by omega), if_neg (by omega),
      if_neg (by omega)]
  · have count := now.regBitCount
    rw [if_neg (by omega)] at count ⊢
    rw [← count]
    simp only [UartTx.step, signals]
    rfl
  · have parity := now.parityBit (by omega)
    rw [Nat.min_eq_right (by omega)] at parity ⊢
    simp only [UartTx.step, signals, done, if_true]
    exact parity

/-- The end of the frame. -/
theorem TxUnit.step_lastUnit (now : TxUnit config byte unit phase uart)
    (enabled : config.en = true) (configured : input.config = config)
    (ends : phase + 1 = config.period) (divides : 1 ≤ config.div.toNat)
    (last : unit + 1 = config.units) : TxIdle (uart.step input) := by
  have done := now.baud.done_end ends
  have baud := now.baud_next divides configured
  have beyond : config.dataBits < config.unitsBeforeStop := by
    unfold UartConfig.unitsBeforeStop
    omega
  have stop : config.unitsBeforeStop ≤ unit := by
    unfold UartConfig.units at last
    omega
  have count := now.regBitCount
  rw [if_neg (by omega)] at count
  have zero : uart.regBitCount = 0 := BitVec.eq_of_toNat_eq count
  have signals : (uart.signals input).stateNext = .idle ∧
      (uart.signals input).regBitCountNext = uart.regBitCount := by
    have state := now.state
    rw [txStateAt, if_neg (by omega), if_neg (by omega), if_neg (by omega)] at state
    cases two : config.stopBits with
    | false =>
        rw [UartConfig.units, two] at last
        rw [if_pos (by simpa using last)] at state
        simp [UartTx.signals, state, UartTx.stopBitFirst, done, configured, two, UartTx.defaults]
    | true =>
        rw [UartConfig.units, two] at last
        have second : unit ≠ config.unitsBeforeStop := by
          change unit + 1 = config.unitsBeforeStop + 1 + 1 at last
          omega
        rw [if_neg second] at state
        simp [UartTx.signals, state, UartTx.stopBitLast, done, UartTx.defaults]
  have period : 1 < config.period := Nat.succ_lt_succ divides
  rw [nextPhase, if_pos ends] at baud
  refine ⟨?_, ?_, baud.done_inside period⟩
  · simp only [UartTx.step, signals.1, configured, enabled, if_true]
  · rw [← zero, ← signals.2]
    rfl

end Step

/-! ## Times of a frame -/

/-- The time at which the transmitter is idle again. -/
def UartConfig.frameTime (config : UartConfig) : Nat := 2 + config.units * config.period

section Time

variable {config : UartConfig} {byte : BitVec 8} {time : Nat} {uart : UartTx} {input : TxInput}

/-- The line at a time of a frame. -/
theorem TxAt.line (now : TxAt config byte time uart) (input : TxInput) :
    uart.line input = frameLine config byte time := by
  cases now with
  | opening state regData regBitCount baudCnt bitDone =>
      rw [UartTx.line, UartTx.signals, state]
      simp only [UartTx.startBit, bitDone, Bool.false_eq_true, if_false, frameLine_one]
  | @unit unit phase uart now =>
      rw [frameLine_unit now.baud.inUnit, frameBit]
      have state := now.state
      rw [UartTx.line, UartTx.signals, state]
      unfold txStateAt
      by_cases start : unit = 0
      · simp only [if_pos start, UartTx.startBit]
        split <;> rfl
      · have started : 1 ≤ unit := Nat.pos_of_ne_zero start
        rw [if_neg start, if_neg start]
        by_cases inData : unit ≤ config.dataBits
        · rw [if_pos inData, if_pos inData, ← now.currentBit started inData]
          simp only [UartTx.data]
          split
          · split <;> rfl
          · rfl
        · rw [if_neg inData, if_neg inData]
          by_cases before : unit < config.unitsBeforeStop
          · have parity := now.parityBit started
            rw [Nat.min_eq_right (by omega)] at parity
            rw [if_pos before, if_pos before, ← parity]
            simp only [UartTx.parity]
            split <;> rfl
          · rw [if_neg before, if_neg before]
            by_cases first : unit = config.unitsBeforeStop
            · simp only [if_pos first, UartTx.stopBitFirst]
              split <;> rfl
            · simp only [if_neg first, UartTx.stopBitLast]
              split <;> rfl

/-- A cycle at the end of a unit goes on with the next unit. -/
theorem TxUnit.step_end {unit phase : Nat} (now : TxUnit config byte unit phase uart)
    (divides : 1 ≤ config.div.toNat) (enabled : config.en = true)
    (configured : input.config = config) (ends : phase + 1 = config.period)
    (more : unit + 1 < config.units) : TxUnit config byte (unit + 1) 0 (uart.step input) := by
  rcases Nat.eq_zero_or_pos unit with rfl | started
  · exact now.step_startBit divides enabled configured ends
  · rcases Nat.lt_trichotomy unit config.dataBits with inside | last | beyond
    · exact now.step_data divides enabled configured ends started inside
    · exact now.step_lastData divides enabled configured ends started last
    · rcases Nat.lt_or_ge unit config.unitsBeforeStop with before | stop
      · exact now.step_parity divides enabled configured ends beyond before
      · have stopBits := Bool.toNat_le config.stopBits
        have two : config.stopBits.toNat = 1 := by
          unfold UartConfig.units at more
          omega
        have first : unit = config.unitsBeforeStop := by
          unfold UartConfig.units at more
          omega
        subst first
        exact now.step_stopBit divides enabled configured ends (Bool.toNat_eq_one.mp two)

/-- A cycle of a frame goes on with the frame or ends it. -/
theorem TxAt.step (divides : 1 ≤ config.div.toNat) (enabled : config.en = true)
    (configured : input.config = config) (now : TxAt config byte time uart) :
    (time + 1 < config.frameTime ∧ TxAt config byte (time + 1) (uart.step input)) ∨
      (time + 1 = config.frameTime ∧ TxIdle (uart.step input)) := by
  cases now with
  | opening state regData regBitCount baudCnt bitDone =>
      have busy : uart.state ≠ .idle := by
        rw [state]
        exact nofun
      have notWraps : (uart.baudCnt == config.div) = false := by
        refine beq_eq_false_iff_ne.mpr fun wraps => ?_
        rw [← wraps, baudCnt] at divides
        exact absurd divides (by decide)
      have units : 0 < config.units := by
        unfold UartConfig.units
        omega
      obtain ⟨stateNext, sampleData, bitCountNext, baudgenEn⟩ :=
        signals_inside busy bitDone input
      have period : 1 < config.period := Nat.succ_lt_succ divides
      have first : TxUnit config byte 0 0 (uart.step input) := by
        refine ⟨units, ?_, fun _ place _ => ?_, ?_, fun started => absurd started (by decide),
          config.period_pos, ?_, ?_⟩
        · simp only [UartTx.step, configured, enabled, if_true, stateNext, state]
          rfl
        · simp only [UartTx.step, sampleData, Bool.false_eq_true, if_false, regData, Nat.zero_sub,
            Nat.zero_add]
        · simp only [UartTx.step, bitCountNext, regBitCount]
          rfl
        · rw [if_neg (Nat.ne_of_lt period)]
          simp only [UartTx.step, baudgenEn, configured, notWraps, if_true, Bool.false_eq_true,
            if_false]
          rw [baudCnt]
          rfl
        · rw [decide_eq_false (Nat.ne_of_lt period)]
          simp only [UartTx.step, configured, notWraps, Bool.and_false]
      refine Or.inl ⟨?_, ?_⟩
      · have room := Nat.mul_le_mul units (Nat.le_of_lt period)
        unfold UartConfig.frameTime
        omega
      · have now := TxAt.unit first
        rw [Nat.zero_mul] at now
        exact now
  | @unit unit phase uart now =>
      have inFrame := now.inFrame
      have inUnit := now.baud.inUnit
      rcases Nat.lt_or_eq_of_le (Nat.succ_le_of_lt inUnit) with inside | ends
      · have room := Nat.mul_le_mul_right config.period (Nat.succ_le_of_lt inFrame)
        rw [Nat.succ_mul] at room
        refine Or.inl ⟨?_, TxAt.unit (now.step_inside divides enabled configured inside)⟩
        unfold UartConfig.frameTime
        omega
      · have time : 2 + unit * config.period + phase + 1 =
            2 + (unit + 1) * config.period + 0 := by
          rw [Nat.add_mul, Nat.one_mul]
          omega
        rw [time]
        rcases Nat.lt_or_eq_of_le (Nat.succ_le_of_lt inFrame) with more | last
        · have room := Nat.mul_lt_mul_of_pos_right more config.period_pos
          exact Or.inl ⟨Nat.add_lt_add_left room 2,
            TxAt.unit (now.step_end divides enabled configured ends more)⟩
        · refine Or.inr ⟨?_, now.step_lastUnit enabled configured ends divides last⟩
          rw [UartConfig.frameTime, ← last]
          rfl

/-- An idle transmitter drives the line high. -/
theorem TxIdle.line (idle : TxIdle uart) (input : TxInput) : uart.line input = true := by
  rw [UartTx.line, UartTx.signals, idle.state]
  simp only [UartTx.idle]
  split <;> rfl

theorem TxIdle.txReady (idle : TxIdle uart) (input : TxInput) :
    (uart.signals input).txReady = input.config.en := by
  rw [UartTx.signals, idle.state]
  simp only [UartTx.idle]
  split <;> rfl

theorem TxIdle.step_waits (idle : TxIdle uart) (waits : input.txValid = false) :
    TxIdle (uart.step input) := by
  have signals : uart.signals input = { uart.defaults with txReady := input.config.en } := by
    rw [UartTx.signals, idle.state]
    simp only [UartTx.idle, waits, Bool.false_eq_true, if_false]
  constructor
  · simp [UartTx.step, signals, UartTx.defaults, idle.state]
  · simp [UartTx.step, signals, UartTx.defaults, idle.regBitCount]
  · simp [UartTx.step, signals, UartTx.defaults]

/-- A byte that is there starts its frame. -/
theorem TxIdle.step_starts (idle : TxIdle uart) (enabled : config.en = true)
    (configured : input.config = config) (valid : input.txValid = true) :
    TxAt config input.txData 1 (uart.step input) := by
  have signals : uart.signals input =
      { uart.defaults with
        txReady := input.config.en, stateNext := .startBit, sampleData := true
        regDataNext := input.txData } := by
    rw [UartTx.signals, idle.state]
    simp only [UartTx.idle, valid, if_true]
  apply TxAt.opening
  · simp [UartTx.step, signals, configured, enabled]
  · simp [UartTx.step, signals]
  · simp [UartTx.step, signals, UartTx.defaults, idle.regBitCount]
  · simp [UartTx.step, signals, UartTx.defaults]
  · simp [UartTx.step, signals, UartTx.defaults]

end Time

end CoreVMcu.Uart
