import CoreVMcu.Clocked.Counters
import CoreVMcu.Clocked.TwoRuns
import CoreVMcu.Uart.RxFrame
import CoreVMcu.Uart.TxFrame
import Mathlib.Data.Nat.Find

/-!
# Frames after the module was disabled

While the module is disabled the state machines go to rest, but the counter of the
data bits keeps its value.  The next frame is compared with the one after a hardware
reset: in lockstep, two frames end together only if they have equally many data bits.
-/

namespace CoreVMcu.Uart

open Clocked

/-- The transmitter from reset. -/
def txMachine : Machine UartTx TxInput where
  init := .reset
  step := UartTx.step

/-- The receiver from reset. -/
def rxMachine : Machine UartRx RxInput where
  init := .reset
  step := UartRx.step

/-- The output ports of the transmitter. -/
structure TxOutputs where
  tx : Bool
  busy : Bool
  txReady : Bool
  deriving DecidableEq, Repr

def UartTx.outputs (uart : UartTx) (input : TxInput) : TxOutputs :=
  { tx := uart.line input, busy := uart.busy, txReady := (uart.signals input).txReady }

/-- The output ports of the receiver; the data is looked at when it is valid. -/
structure RxOutputs where
  busy : Bool
  rxData : Option (BitVec 8)
  errParity : Bool
  errOverflow : Bool
  charEvent : Bool
  deriving DecidableEq, Repr

def UartRx.outputs (uart : UartRx) (input : RxInput) : RxOutputs :=
  let signals := uart.signals input
  { busy := uart.busy
    rxData := if signals.rxValid then some uart.regData else none
    errParity := signals.errParity
    errOverflow := signals.errOverflow
    charEvent := signals.charEvent }

/-- What is transmitted from a state on is what is transmitted after a hardware reset. -/
def UartTx.TransmitsAfresh (uart : UartTx) (schedule : Nat → TxInput) : Prop :=
  txMachine.Alike UartTx.outputs uart .reset schedule

/-- What is received from a state on is what is received after a hardware reset. -/
def UartRx.ReceivesAfresh (uart : UartRx) (schedule : Nat → RxInput) : Prop :=
  rxMachine.Alike UartRx.outputs uart .reset schedule

section Transmitter

variable {config : UartConfig} {uart left right : UartTx} {input : TxInput}

/-- The registers of two transmitters that will send the same. -/
inductive TxSame (left right : UartTx) : Prop where
  | idle (leftState : left.state = .idle) (rightState : right.state = .idle)
      (regBitCount : left.regBitCount = right.regBitCount)
  | starting (state : left.state = .startBit)
      (others : ∃ parityBit, right = { left with parityBit })
  | same (equal : left = right)

theorem TxSame.outputs (same : TxSame left right) (input : TxInput) :
    left.outputs input = right.outputs input := by
  cases same with
  | idle leftState rightState regBitCount =>
      simp only [UartTx.outputs, UartTx.line, UartTx.signals, UartTx.busy, leftState, rightState,
        UartTx.idle]
      split <;> rfl
  | starting state others =>
      obtain ⟨parityBit, rfl⟩ := others
      simp only [UartTx.outputs, UartTx.line, UartTx.signals, UartTx.busy, state, UartTx.startBit]
      split <;> rfl
  | same equal => rw [equal]

/-- The registers of an idle transmitter after a cycle. -/
theorem step_txIdle (state : uart.state = .idle) (enabled : input.config.en = true) :
    uart.step input =
      { uart with
        state := if input.txValid then .startBit else .idle
        regData := if input.txValid then input.txData else uart.regData
        baudCnt := 0, bitDone := false } := by
  simp only [UartTx.step, UartTx.signals, state, UartTx.idle, enabled, if_true]
  cases input.txValid <;> simp [UartTx.defaults, state]

theorem TxSame.step (same : TxSame left right) (enabled : input.config.en = true) :
    TxSame (left.step input) (right.step input) := by
  cases same with
  | idle leftState rightState regBitCount =>
      rw [step_txIdle leftState enabled, step_txIdle rightState enabled]
      cases input.txValid with
      | false => exact .idle rfl rfl regBitCount
      | true =>
          refine .starting rfl ⟨right.parityBit, ?_⟩
          rw [regBitCount]
          rfl
  | starting state others =>
      obtain ⟨parityBit, rfl⟩ := others
      cases done : left.bitDone with
      | false =>
          refine .starting ?_ ⟨parityBit, ?_⟩
          · simp [UartTx.step, UartTx.signals, state, UartTx.startBit, done, enabled,
              UartTx.defaults]
          · simp [UartTx.step, UartTx.signals, state, UartTx.startBit, done, UartTx.defaults]
      | true =>
          apply TxSame.same
          simp [UartTx.step, UartTx.signals, state, UartTx.startBit, done, UartTx.defaults]
  | same equal => exact .same (congrArg (UartTx.step · input) equal)

/-- The units that a transmitter has left to send. -/
def UartTx.remaining (config : UartConfig) (uart : UartTx) : Nat :=
  let dataBits := (targetBits config - uart.regBitCount).toNat + 1
  let stopBits := 1 + config.stopBits.toNat
  match uart.state with
  | .idle => 0
  | .startBit => 1 + dataBits + config.parityEn.toNat + stopBits
  | .data => dataBits + config.parityEn.toNat + stopBits
  | .parity => 1 + stopBits
  | .stopBitFirst => stopBits
  | .stopBitLast => 1

/-- A unit is sent whenever the counter of cycles says so. -/
theorem UartTx.remaining_step (busy : uart.state ≠ .idle) (enabled : config.en = true)
    (configured : input.config = config) :
    uart.remaining config = (uart.step input).remaining config + uart.bitDone.toNat := by
  have nextState : (uart.step input).state = (uart.signals input).stateNext := by
    rw [UartTx.step, configured, enabled, if_pos rfl]
  have nextCount : (uart.step input).regBitCount = (uart.signals input).regBitCountNext := rfl
  unfold UartTx.remaining
  rw [nextState, nextCount]
  cases done : uart.bitDone with
  | false =>
      obtain ⟨stateNext, _, regBitCountNext, _⟩ := signals_inside busy done input
      rw [stateNext, regBitCountNext]
      rfl
  | true =>
      cases state : uart.state with
      | idle => exact absurd state busy
      | startBit =>
          simp only [UartTx.signals, state, UartTx.startBit, done, if_true, UartTx.defaults,
            Bool.toNat_true]
          omega
      | data =>
          cases last : uart.regBitCount == targetBits config with
          | true =>
              simp only [UartTx.signals, state, UartTx.data, done, if_true, configured, last,
                UartTx.defaults]
              rw [beq_iff_eq.mp last, BitVec.sub_self]
              cases config.parityEn <;> simp <;> omega
          | false =>
              have distance := toNat_distance (beq_eq_false_iff_ne.mp last)
              simp only [UartTx.signals, state, UartTx.data, done, if_true, configured, last,
                Bool.false_eq_true, if_false, UartTx.defaults, Bool.toNat_true]
              omega
      | parity =>
          simp only [UartTx.signals, state, UartTx.parity, done, if_true, UartTx.defaults,
            Bool.toNat_true]
          omega
      | stopBitFirst =>
          simp only [UartTx.signals, state, UartTx.stopBitFirst, done, if_true, UartTx.defaults,
            configured]
          cases config.stopBits <;> rfl
      | stopBitLast =>
          simp only [UartTx.signals, state, UartTx.stopBitLast, done, if_true, UartTx.defaults]
          rfl

/-- The cycles to the next unit, at most. -/
def cyclesLeft (limit baudCnt : BitVec 16) (bitDone : Bool) : Nat :=
  if bitDone then 0 else (limit - baudCnt).toNat + 1

theorem cyclesLeft_le (limit baudCnt : BitVec 16) (bitDone : Bool) :
    cyclesLeft limit baudCnt bitDone ≤ 2 ^ 16 := by
  have bound := (limit - baudCnt).isLt
  unfold cyclesLeft
  split <;> omega

/-- The counter of cycles comes nearer to the end of a unit. -/
theorem cyclesLeft_next (limit baudCnt : BitVec 16) :
    cyclesLeft limit (if baudCnt == limit then 0 else baudCnt + 1) (baudCnt == limit) <
      cyclesLeft limit baudCnt false := by
  unfold cyclesLeft
  cases wraps : baudCnt == limit with
  | true => exact Nat.succ_pos _
  | false =>
      have distance := toNat_distance (beq_eq_false_iff_ne.mp wraps)
      simp only [Bool.false_eq_true, if_false]
      omega

/-- Units and cycles that are left, in one number. -/
def rankOf (units cycles : Nat) : Nat := units * (2 ^ 16 + 1) + cycles

theorem rankOf_lt_of_units {units unitsNext cycles cyclesNext : Nat}
    (fewer : units = unitsNext + 1) (bound : cyclesNext ≤ 2 ^ 16) :
    rankOf unitsNext cyclesNext < rankOf units cycles := by
  unfold rankOf
  omega

theorem rankOf_lt_of_cycles {units unitsNext cycles cyclesNext : Nat}
    (same : units = unitsNext) (fewer : cyclesNext < cycles) :
    rankOf unitsNext cyclesNext < rankOf units cycles := by
  unfold rankOf
  omega

theorem step_txBaud (busy : uart.state ≠ .idle) (configured : input.config = config) :
    (uart.step input).baudCnt = (if uart.baudCnt == config.div then 0 else uart.baudCnt + 1) ∧
      (uart.step input).bitDone = (uart.baudCnt == config.div) := by
  simp only [UartTx.step, signals_baudgenEn busy, configured, if_true, Bool.true_and, and_self]

theorem UartTx.busy_iff : uart.busy = true ↔ uart.state ≠ .idle := by
  rw [UartTx.busy, bne_iff_ne]

/-- A frame under way. -/
def txTask (enabled : config.en = true) :
    txMachine.Task (fun input => input.config = config) where
  busy := UartTx.busy
  remaining := UartTx.remaining config
  rank uart := rankOf (uart.remaining config) (cyclesLeft config.div uart.baudCnt uart.bitDone)
  lockstep left right := left.baudCnt = right.baudCnt ∧ left.bitDone = right.bitDone
  atRest uart rests := by
    have idle : uart.state = .idle := by simpa [UartTx.busy] using rests
    rw [UartTx.remaining, idle]
  lowers uart input configured busy _ := by
    rw [UartTx.busy_iff] at busy
    have units := uart.remaining_step busy enabled configured
    have baud := step_txBaud busy configured
    cases done : uart.bitDone with
    | true =>
        rw [done] at units
        exact rankOf_lt_of_units units (cyclesLeft_le ..)
    | false =>
        rw [done] at units
        refine rankOf_lt_of_cycles units ?_
        change cyclesLeft config.div (uart.step input).baudCnt (uart.step input).bitDone < _
        rw [baud.1, baud.2]
        exact cyclesLeft_next ..
  advances left right input configured lockstep busyLeft busyRight := by
    rw [UartTx.busy_iff] at busyLeft busyRight
    have leftUnits := left.remaining_step busyLeft enabled configured
    have rightUnits := right.remaining_step busyRight enabled configured
    have leftBaud := step_txBaud busyLeft configured
    have rightBaud := step_txBaud busyRight configured
    rw [← lockstep.2] at rightUnits
    rw [← lockstep.1] at rightBaud
    exact ⟨_, leftUnits, rightUnits, leftBaud.1.trans rightBaud.1.symm,
      leftBaud.2.trans rightBaud.2.symm⟩

/-- Before the first byte the transmitter waits, with the counter of the data bits it had. -/
theorem runFrom_txWaits {schedule : Nat → TxInput} (enabled : config.en = true)
    (configured : ∀ n, (schedule n).config = config) (state : uart.state = .idle) {n : Nat}
    (waits : ∀ m < n, (schedule m).txValid = false) :
    (txMachine.runFrom uart (inputsUpTo schedule n)).state = .idle ∧
      (txMachine.runFrom uart (inputsUpTo schedule n)).regBitCount = uart.regBitCount := by
  induction n with
  | zero => exact ⟨state, rfl⟩
  | succ n inductionHypothesis =>
      have before := inductionHypothesis fun m earlier => waits m (Nat.lt_succ_of_lt earlier)
      have en : (schedule n).config.en = true := by rw [configured, enabled]
      have next := step_txIdle before.1 en
      rw [waits n (Nat.lt_succ_self n)] at next
      rw [inputsUpTo_succ, Machine.runFrom_snoc]
      change (UartTx.step _ _).state = _ ∧ (UartTx.step _ _).regBitCount = _
      rw [next]
      exact ⟨rfl, before.2⟩

/-- An idle transmitter sends its next frame as after a reset exactly when it has not kept
a count of data bits. -/
theorem transmitsAfresh_iff {schedule : Nat → TxInput} (enabled : config.en = true)
    (configured : ∀ n, (schedule n).config = config)
    (offered : ∃ n, (schedule n).txValid = true) (state : uart.state = .idle) :
    uart.TransmitsAfresh schedule ↔ uart.regBitCount = 0 := by
  constructor
  · intro alike
    have valid := Nat.find_spec offered
    have waits : ∀ m < Nat.find offered, (schedule m).txValid = false :=
      fun m earlier => Bool.eq_false_iff.mpr (Nat.find_min offered earlier)
    have waited := runFrom_txWaits enabled configured state waits
    have waitedReset := @runFrom_txWaits config .reset schedule enabled configured rfl _ waits
    have begins : ∀ {uart : UartTx}, uart.state = .idle →
        txMachine.step uart (schedule (Nat.find offered)) =
          { uart with
            state := .startBit, regData := (schedule (Nat.find offered)).txData
            baudCnt := 0, bitDone := false } := by
      intro uart state
      have en : (schedule (Nat.find offered)).config.en = true := by rw [configured, enabled]
      have next := step_txIdle state en
      rw [valid] at next
      exact next
    have begun := (alike.after (Nat.find offered)).later
    rw [Nat.add_zero, begins waited.1, begins waitedReset.1] at begun
    have left := (txTask enabled).remaining_eq
      (fun _ _ _ same => congrArg TxOutputs.busy same)
      (fun n => configured _) begun ⟨rfl, rfl⟩ rfl
    change 1 + ((targetBits config - _).toNat + 1) + _ + _ =
      1 + ((targetBits config - _).toNat + 1) + _ + _ at left
    rw [waited.2, waitedReset.2] at left
    have same : targetBits config - uart.regBitCount =
        targetBits config - UartTx.reset.regBitCount := BitVec.eq_of_toNat_eq (by omega)
    exact (BitVec.sub_right_inj _).mp same
  · intro zero
    exact @Machine.alike_of_relation _ _ _ txMachine UartTx.outputs uart .reset schedule TxSame
      (fun input => input.config = config) (fun _ _ input _ same => TxSame.outputs same input)
      (fun _ _ input allowed same => TxSame.step same (by rw [allowed, enabled]))
      configured (.idle state rfl zero)

end Transmitter

/-! ## The receiver -/

section Receiver

variable {config : UartConfig} {uart left right : UartRx} {input : RxInput}

/-- The registers of two receivers that will receive the same: the data bits of earlier
frames have not been shifted out yet, but do not matter. -/
inductive RxSame (config : UartConfig) (left right : UartRx) : Prop where
  | idle (state : left.state = .idle) (zero : left.regBitCount = 0)
      (baudCnt : left.rxFall = true → left.baudCnt = right.baudCnt)
      (others : ∃ regData parityBit baudCnt bitDone errorParity,
        right = { left with regData, parityBit, baudCnt, bitDone, errorParity })
  | starting (state : left.state = .startBit) (zero : left.regBitCount = 0)
      (others : ∃ regData parityBit, right = { left with regData, parityBit })
  | reading (state : left.state = .data) (others : ∃ regData, right = { left with regData } ∧
      ∀ place, 0 < left.regBitCount.toNat →
        config.dataBits ≤ place + left.regBitCount.toNat →
        left.regData.getLsbD place = regData.getLsbD place)
  | same (equal : left = right)

/-- Up to the last data bit nothing is handed over. -/
theorem rxOutputs_early (early : uart.state = .idle ∨ uart.state = .startBit ∨ uart.state = .data)
    (input : RxInput) :
    uart.outputs input =
      { busy := uart.busy, rxData := none, errParity := false, errOverflow := false
        charEvent := false } := by
  rcases early with state | state | state
  · simp only [UartRx.outputs, UartRx.signals, state, UartRx.idle]
    split <;> rfl
  · simp only [UartRx.outputs, UartRx.signals, state, UartRx.startBit]
    split <;> rfl
  · simp only [UartRx.outputs, UartRx.signals, state, UartRx.data]
    split
    · split <;> rfl
    · rfl

theorem RxSame.outputs (same : RxSame config left right) (input : RxInput) :
    left.outputs input = right.outputs input := by
  cases same with
  | idle state zero baudCnt others =>
      obtain ⟨regData, parityBit, baudCnt, bitDone, errorParity, equal⟩ := others
      have rightState : right.state = .idle := equal ▸ state
      rw [rxOutputs_early (.inl state), rxOutputs_early (.inl rightState), equal]
      rfl
  | starting state zero others =>
      obtain ⟨regData, parityBit, equal⟩ := others
      have rightState : right.state = .startBit := equal ▸ state
      rw [rxOutputs_early (.inr (.inl state)), rxOutputs_early (.inr (.inl rightState)), equal]
      rfl
  | reading state others =>
      obtain ⟨regData, equal, agree⟩ := others
      have rightState : right.state = .data := equal ▸ state
      rw [rxOutputs_early (.inr (.inr state)), rxOutputs_early (.inr (.inr rightState)), equal]
      rfl
  | same equal => rw [equal]

/-- The registers of the line after a cycle. -/
def UartRx.shifted (uart : UartRx) (input : RxInput) : UartRx :=
  { uart with sync0 := input.rx, sync1 := uart.sync0, sync2 := uart.sync1 }

/-- The registers of an idle receiver after a cycle. -/
theorem step_rxIdle (state : uart.state = .idle) (enabled : input.config.en = true)
    (high : uart.rxFall = false) :
    uart.step input = { uart.shifted input with baudCnt := 0, bitDone := false } := by
  simp only [UartRx.step, UartRx.signals, state, UartRx.idle, high, enabled]
  simp [UartRx.defaults, UartRx.shifted, state]

theorem step_rxFalls (state : uart.state = .idle) (enabled : input.config.en = true)
    (falls : uart.rxFall = true) :
    uart.step input =
      { uart.shifted input with
        state := .startBit
        baudCnt := if uart.baudCnt == input.config.div >>> 1 then 0 else uart.baudCnt + 1
        bitDone := uart.baudCnt == input.config.div >>> 1, errorParity := false } := by
  simp only [UartRx.step, UartRx.signals, state, UartRx.idle, falls, enabled]
  simp [UartRx.defaults, UartRx.shifted, UartRx.baudTarget]

theorem step_rxStart (state : uart.state = .startBit) (enabled : input.config.en = true) :
    uart.step input =
      { uart.shifted input with
        state := if uart.bitDone then .data else .startBit
        parityBit := if uart.bitDone then false else uart.parityBit
        baudCnt := if uart.baudCnt == input.config.div >>> 1 then 0 else uart.baudCnt + 1
        bitDone := uart.baudCnt == input.config.div >>> 1 } := by
  simp only [UartRx.step, UartRx.signals, state, UartRx.startBit, enabled]
  cases uart.bitDone <;> simp [UartRx.defaults, UartRx.shifted, UartRx.baudTarget, state]

theorem step_rxData (state : uart.state = .data) (enabled : input.config.en = true) :
    uart.step input =
      { uart.shifted input with
        state :=
          if uart.bitDone && uart.regBitCount == targetBits input.config then
            if input.config.parityEn then .parity else .stopBit
          else .data
        regData :=
          if uart.bitDone then shiftIn input.config uart.sync2 uart.regData else uart.regData
        regBitCount :=
          if uart.bitDone then
            if uart.regBitCount == targetBits input.config then 0 else uart.regBitCount + 1
          else uart.regBitCount
        parityBit := if uart.bitDone then uart.parityBit ^^ uart.sync2 else uart.parityBit
        baudCnt := if uart.baudCnt == input.config.div then 0 else uart.baudCnt + 1
        bitDone := uart.baudCnt == input.config.div } := by
  simp only [UartRx.step, UartRx.signals, state, UartRx.data, enabled]
  cases uart.bitDone with
  | false => simp [UartRx.defaults, UartRx.shifted, UartRx.baudTarget, state]
  | true =>
      cases uart.regBitCount == targetBits input.config <;>
        simp [UartRx.defaults, UartRx.shifted, UartRx.baudTarget, state]

/-- A data bit is shifted in over bits that agree as far as they were read. -/
theorem shiftIn_agree {bit : Bool} {data other : BitVec 8} {count : Nat}
    (agree : ∀ place, 0 < count → config.dataBits ≤ place + count →
      data.getLsbD place = other.getLsbD place)
    {place : Nat} (read : config.dataBits ≤ place + (count + 1)) :
    (shiftIn config bit data).getLsbD place = (shiftIn config bit other).getLsbD place := by
  rw [getLsbD_shiftIn, getLsbD_shiftIn]
  split
  · rfl
  · next notLast =>
      cases Nat.lt_or_ge (place + 1) config.dataBits with
      | inl inside => rw [agree (place + 1) (by omega) (by omega)]
      | inr outside =>
          rw [decide_eq_false (Nat.not_lt_of_le outside), Bool.false_and, Bool.false_and]

theorem RxSame.step (same : RxSame config left right) (enabled : config.en = true)
    (configured : input.config = config) :
    RxSame config (left.step input) (right.step input) := by
  have en : input.config.en = true := configured ▸ enabled
  cases same with
  | idle state zero baudCnt others =>
      obtain ⟨regData, parityBit, baudCntRight, bitDone, errorParity, equal⟩ := others
      have rightState : right.state = .idle := equal ▸ state
      have sameFall : right.rxFall = left.rxFall := by rw [equal]; rfl
      cases falls : left.rxFall with
      | false =>
          rw [step_rxIdle state en falls, step_rxIdle rightState en (sameFall.trans falls), equal]
          exact .idle state zero (fun _ => rfl) ⟨_, _, _, _, _, rfl⟩
      | true =>
          rw [step_rxFalls state en falls, step_rxFalls rightState en (sameFall.trans falls),
            baudCnt falls, equal]
          exact .starting rfl zero ⟨_, _, rfl⟩
  | starting state zero others =>
      obtain ⟨regData, parityBit, equal⟩ := others
      have rightState : right.state = .startBit := equal ▸ state
      rw [step_rxStart state en, step_rxStart rightState en, equal]
      cases done : left.bitDone with
      | false => exact .starting rfl zero ⟨_, _, rfl⟩
      | true =>
          refine .reading rfl ⟨_, rfl, fun place positive => absurd positive ?_⟩
          change ¬0 < left.regBitCount.toNat
          rw [zero]
          exact Nat.lt_irrefl 0
  | reading state others =>
      obtain ⟨regData, equal, agree⟩ := others
      have rightState : right.state = .data := equal ▸ state
      rw [step_rxData state en, step_rxData rightState en, equal]
      cases done : left.bitDone with
      | false => exact .reading rfl ⟨_, rfl, agree⟩
      | true =>
          cases last : left.regBitCount == targetBits input.config with
          | true =>
              have count : left.regBitCount.toNat + 1 = config.dataBits := by
                rw [beq_iff_eq.mp last, configured]
                rfl
              have data : shiftIn input.config left.sync2 left.regData =
                  shiftIn input.config left.sync2 regData := by
                apply BitVec.eq_of_getLsbD_eq
                intro place _
                rw [configured]
                exact shiftIn_agree agree (by omega)
              apply RxSame.same
              simp [UartRx.shifted, data]
          | false =>
              refine .reading rfl ⟨_, rfl, fun place positive read => ?_⟩
              change 0 < (left.regBitCount + 1).toNat at positive
              change config.dataBits ≤ place + (left.regBitCount + 1).toNat at read
              change (shiftIn input.config left.sync2 left.regData).getLsbD place =
                (shiftIn input.config left.sync2 regData).getLsbD place
              have counted : (left.regBitCount + 1).toNat = left.regBitCount.toNat + 1 := by
                apply toNat_succ
                have below := left.regBitCount.isLt
                apply Nat.lt_of_le_of_ne (Nat.succ_le_of_lt below)
                intro wraps
                have top : left.regBitCount = 7 := BitVec.eq_of_toNat_eq (Nat.succ.inj wraps)
                rw [top] at positive
                exact absurd positive (by decide)
              rw [counted] at read
              rw [configured]
              exact shiftIn_agree agree read
  | same equal => exact .same (congrArg (UartRx.step · input) equal)

/-- The units that a receiver has left to read. -/
def UartRx.remaining (config : UartConfig) (uart : UartRx) : Nat :=
  let dataBits := (targetBits config - uart.regBitCount).toNat + 1
  match uart.state with
  | .idle => 0
  | .startBit => 1 + dataBits + config.parityEn.toNat + 1
  | .data => dataBits + config.parityEn.toNat + 1
  | .parity => 2
  | .stopBit => 1

/-- The divider that the counter of cycles is compared with. -/
def UartRx.limit (config : UartConfig) (uart : UartRx) : BitVec 16 :=
  if uart.state = .startBit then config.div >>> 1 else config.div

theorem UartRx.busy_iff : uart.busy = true ↔ uart.state ≠ .idle := by
  rw [UartRx.busy, bne_iff_ne]

/-- Inside a frame the counter of cycles runs. -/
theorem step_rxBaud (busy : uart.state ≠ .idle) (configured : input.config = config) :
    (uart.step input).baudCnt =
        (if uart.baudCnt == uart.limit config then 0 else uart.baudCnt + 1) ∧
      (uart.step input).bitDone = (uart.baudCnt == uart.limit config) := by
  cases state : uart.state with
  | idle => exact absurd state busy
  | startBit =>
      have baud : (uart.signals input).baudgenEn = true ∧ (uart.signals input).startBit = true := by
        simp only [UartRx.signals, state, UartRx.startBit]
        split <;> exact ⟨rfl, rfl⟩
      simp [UartRx.step, UartRx.baudTarget, UartRx.limit, baud, state, configured]
  | data | parity | stopBit =>
      have reads : uart.reads := by simp [UartRx.reads, state]
      have baud := rxSignals_baud reads input
      simp [UartRx.step, UartRx.baudTarget, UartRx.limit, baud, state, configured]

/-- The start bit ends with its last cycle, and no frame goes back to it. -/
theorem rxStartBit_iff (busy : uart.state ≠ .idle) (enabled : input.config.en = true) :
    (uart.step input).state = .startBit ↔ uart.state = .startBit ∧ uart.bitDone = false := by
  cases state : uart.state with
  | idle => exact absurd state busy
  | startBit =>
      rw [step_rxStart state enabled]
      cases uart.bitDone <;> simp
  | data =>
      rw [step_rxData state enabled]
      (repeat' split) <;> simp
  | parity =>
      simp only [UartRx.step, UartRx.signals, state, UartRx.parity, enabled, if_true]
      split <;> simp [UartRx.defaults, state]
  | stopBit =>
      simp only [UartRx.step, UartRx.signals, state, UartRx.stopBit, enabled, if_true]
      (repeat' split) <;> simp [UartRx.defaults, state]

/-- A unit is read whenever the counter of cycles says so. -/
theorem UartRx.remaining_step (busy : uart.state ≠ .idle) (enabled : config.en = true)
    (configured : input.config = config) :
    uart.remaining config = (uart.step input).remaining config + uart.bitDone.toNat := by
  have en : input.config.en = true := configured ▸ enabled
  cases state : uart.state with
  | idle => exact absurd state busy
  | startBit =>
      rw [step_rxStart state en]
      cases done : uart.bitDone with
      | false => simp [UartRx.remaining, state, UartRx.shifted]
      | true =>
          simp only [UartRx.remaining, state, UartRx.shifted, if_true, Bool.toNat_true]
          omega
  | data =>
      rw [step_rxData state en]
      cases done : uart.bitDone with
      | false => simp [UartRx.remaining, state]
      | true =>
          cases last : uart.regBitCount == targetBits input.config with
          | true =>
              have target : targetBits config - uart.regBitCount = 0 := by
                rw [beq_iff_eq.mp last, configured, BitVec.sub_self]
                rfl
              simp only [UartRx.remaining, state, target, configured]
              cases config.parityEn <;> rfl
          | false =>
              have distance := toNat_distance (beq_eq_false_iff_ne.mp last)
              rw [configured] at distance
              simp only [UartRx.remaining, state, if_true, Bool.true_and,
                Bool.false_eq_true, if_false, Bool.toNat_true]
              omega
  | parity =>
      have next : (uart.step input).state = if uart.bitDone then .stopBit else .parity := by
        simp only [UartRx.step, UartRx.signals, state, UartRx.parity, en, if_true]
        cases uart.bitDone <;> simp [UartRx.defaults, state]
      rw [UartRx.remaining, state, UartRx.remaining, next]
      cases uart.bitDone <;> rfl
  | stopBit =>
      have next : (uart.step input).state = if uart.bitDone then .idle else .stopBit := by
        simp only [UartRx.step, UartRx.signals, state, UartRx.stopBit, en, if_true]
        cases uart.bitDone <;> cases uart.errorParity <;> simp [UartRx.defaults, state]
      rw [UartRx.remaining, state, UartRx.remaining, next]
      cases uart.bitDone <;> rfl

/-- A frame being read.  Two frames advance together if their start bits end together. -/
def rxTask (enabled : config.en = true) :
    rxMachine.Task (fun input => input.config = config) where
  busy := UartRx.busy
  remaining := UartRx.remaining config
  rank uart :=
    rankOf (uart.remaining config) (cyclesLeft (uart.limit config) uart.baudCnt uart.bitDone)
  lockstep left right :=
    left.baudCnt = right.baudCnt ∧ left.bitDone = right.bitDone ∧
      (left.state = .startBit ↔ right.state = .startBit)
  atRest uart rests := by
    have idle : uart.state = .idle := by simpa [UartRx.busy] using rests
    rw [UartRx.remaining, idle]
  lowers uart input configured busy _ := by
    rw [UartRx.busy_iff] at busy
    have units := uart.remaining_step busy enabled configured
    have baud := step_rxBaud busy configured
    cases done : uart.bitDone with
    | true =>
        rw [done] at units
        exact rankOf_lt_of_units units (cyclesLeft_le ..)
    | false =>
        rw [done] at units
        have sameLimit : (uart.step input).limit config = uart.limit config := by
          have en : input.config.en = true := configured ▸ enabled
          have start := rxStartBit_iff busy en
          rw [done] at start
          rw [UartRx.limit, UartRx.limit]
          exact if_congr (by simpa using start) rfl rfl
        refine rankOf_lt_of_cycles units ?_
        change cyclesLeft ((uart.step input).limit config) (uart.step input).baudCnt
          (uart.step input).bitDone < _
        rw [baud.1, baud.2, sameLimit]
        exact cyclesLeft_next ..
  advances left right input configured lockstep busyLeft busyRight := by
    rw [UartRx.busy_iff] at busyLeft busyRight
    have leftUnits := left.remaining_step busyLeft enabled configured
    have rightUnits := right.remaining_step busyRight enabled configured
    have leftBaud := step_rxBaud busyLeft configured
    have rightBaud := step_rxBaud busyRight configured
    have sameLimit : right.limit config = left.limit config := by
      rw [UartRx.limit, UartRx.limit]
      exact if_congr lockstep.2.2.symm rfl rfl
    rw [← lockstep.2.1] at rightUnits
    rw [← lockstep.1, sameLimit] at rightBaud
    refine ⟨_, leftUnits, rightUnits, leftBaud.1.trans rightBaud.1.symm,
      leftBaud.2.trans rightBaud.2.symm, ?_⟩
    change (left.step input).state = .startBit ↔ (right.step input).state = .startBit
    rw [rxStartBit_iff busyLeft (configured ▸ enabled),
      rxStartBit_iff busyRight (configured ▸ enabled), lockstep.2.1, lockstep.2.2]

/-- The receiver waits for a falling edge; the line was high in the last cycles. -/
structure RxQuiet (count : BitVec 3) (uart : UartRx) : Prop where
  state : uart.state = .idle
  sync0 : uart.sync0 = true
  sync1 : uart.sync1 = true
  sync2 : uart.sync2 = true
  regBitCount : uart.regBitCount = count

/-- Before the line falls the receiver waits, with the counter of the data bits it had. -/
theorem runFrom_rxQuiet {schedule : Nat → RxInput} {count : BitVec 3} (enabled : config.en = true)
    (configured : ∀ n, (schedule n).config = config) (quiet : RxQuiet count uart) {n : Nat}
    (high : ∀ m < n, (schedule m).rx = true) :
    RxQuiet count (rxMachine.runFrom uart (inputsUpTo schedule n)) := by
  induction n with
  | zero => exact quiet
  | succ n inductionHypothesis =>
      have before := inductionHypothesis fun m earlier => high m (Nat.lt_succ_of_lt earlier)
      have en : (schedule n).config.en = true := by rw [configured, enabled]
      have next := step_rxIdle before.state en (by rw [UartRx.rxFall, before.sync1]; rfl)
      rw [inputsUpTo_succ, Machine.runFrom_snoc]
      change RxQuiet count (UartRx.step _ _)
      rw [next]
      exact ⟨before.state, high n (Nat.lt_succ_self n), before.sync0, before.sync1,
        before.regBitCount⟩

/-- The receiver is at the first cycle of a start bit. -/
structure RxBegun (config : UartConfig) (count : BitVec 3) (uart : UartRx) : Prop where
  state : uart.state = .startBit
  regBitCount : uart.regBitCount = count
  baudCnt : uart.baudCnt = if (0 : BitVec 16) == config.div >>> 1 then 0 else 0 + 1
  bitDone : uart.bitDone = ((0 : BitVec 16) == config.div >>> 1)

/-- Three cycles after the line has fallen the start bit begins. -/
theorem RxQuiet.falls {first second third : RxInput} {count : BitVec 3}
    (quiet : RxQuiet count uart) (enabled : config.en = true)
    (firstConfig : first.config = config) (secondConfig : second.config = config)
    (thirdConfig : third.config = config) (low : first.rx = false) :
    RxBegun config count (((uart.step first).step second).step third) := by
  have firstEn : first.config.en = true := firstConfig ▸ enabled
  have secondEn : second.config.en = true := secondConfig ▸ enabled
  have thirdEn : third.config.en = true := thirdConfig ▸ enabled
  have firstStep := step_rxIdle quiet.state firstEn (by rw [UartRx.rxFall, quiet.sync1]; rfl)
  have firstState : (uart.step first).state = .idle := by
    rw [firstStep]
    exact quiet.state
  have secondStep := step_rxIdle firstState secondEn
    (by rw [firstStep]; simp [UartRx.rxFall, UartRx.shifted, quiet.sync0])
  have secondState : ((uart.step first).step second).state = .idle := by
    rw [secondStep]
    exact firstState
  have thirdStep := step_rxFalls secondState thirdEn
    (by rw [secondStep, firstStep]; simp [UartRx.rxFall, UartRx.shifted, quiet.sync0, low])
  rw [thirdStep, secondStep, firstStep, thirdConfig]
  exact ⟨rfl, quiet.regBitCount, rfl, rfl⟩

/-- Start bits that begin together and whose frames end together lead to equally many
data bits. -/
theorem RxBegun.count_eq {schedule : Nat → RxInput} {count other : BitVec 3}
    (begunLeft : RxBegun config count left) (begunRight : RxBegun config other right)
    (enabled : config.en = true) (configured : ∀ n, (schedule n).config = config)
    (alike : rxMachine.Alike UartRx.outputs left right schedule) : count = other := by
  have busy : left.busy = true := by
    rw [UartRx.busy, begunLeft.state]
    rfl
  have units := (rxTask enabled).remaining_eq (fun _ _ _ same => congrArg RxOutputs.busy same)
    configured alike
    ⟨begunLeft.baudCnt.trans begunRight.baudCnt.symm,
      begunLeft.bitDone.trans begunRight.bitDone.symm,
      iff_of_true begunLeft.state begunRight.state⟩ busy
  change UartRx.remaining config left = UartRx.remaining config right at units
  simp only [UartRx.remaining, begunLeft.state, begunRight.state, begunLeft.regBitCount,
    begunRight.regBitCount] at units
  have same : targetBits config - count = targetBits config - other :=
    BitVec.eq_of_toNat_eq (by omega)
  exact (BitVec.sub_right_inj _).mp same

/-- An idle receiver that has seen the line high receives the next frame as after a reset
exactly when it has not kept a count of data bits. -/
theorem receivesAfresh_iff {schedule : Nat → RxInput} {count : BitVec 3}
    (enabled : config.en = true) (configured : ∀ n, (schedule n).config = config)
    (falls : ∃ n, (schedule n).rx = false) (quiet : RxQuiet count uart) :
    uart.ReceivesAfresh schedule ↔ count = 0 := by
  have quietReset : RxQuiet 0 UartRx.reset := ⟨rfl, rfl, rfl, rfl, rfl⟩
  constructor
  · intro alike
    have low := Nat.find_spec falls
    have high : ∀ m < Nat.find falls, (schedule m).rx = true :=
      fun m earlier => by simpa using Nat.find_min falls earlier
    have begun : ∀ {uart : UartRx} {count : BitVec 3}, RxQuiet count uart → _ :=
      fun quiet => (runFrom_rxQuiet enabled configured quiet high).falls enabled
        (configured _) (configured (Nat.find falls + 1)) (configured (Nat.find falls + 2)) low
    exact (begun quiet).count_eq (begun quietReset) enabled (fun n => configured _)
      (alike.after (Nat.find falls)).later.later.later
  · intro zero
    subst zero
    have noFall : ¬uart.rxFall = true := by
      rw [UartRx.rxFall, quiet.sync1]
      exact Bool.false_ne_true
    have start : RxSame config uart .reset :=
      .idle quiet.state quiet.regBitCount (fun fall => absurd fall noFall)
        ⟨0xFF, false, 0, false, false, by
          rw [quiet.state, quiet.sync0, quiet.sync1, quiet.sync2, quiet.regBitCount]
          rfl⟩
    exact @Machine.alike_of_relation _ _ _ rxMachine UartRx.outputs uart .reset schedule
      (RxSame config) (fun input => input.config = config)
      (fun _ _ input _ same => RxSame.outputs same input)
      (fun _ _ input allowed same => RxSame.step same enabled allowed) configured start

end Receiver

/-! ## After the module was disabled -/

theorem step_txDisabled (uart : UartTx) {off : TxInput} (disabled : off.config.en = false) :
    (uart.step off).state = .idle := by
  rw [UartTx.step, disabled, if_neg Bool.false_ne_true]

theorem step_rxDisabled (uart : UartRx) {off : RxInput} (disabled : off.config.en = false) :
    RxQuiet (uart.step off).regBitCount (uart.step off) := by
  constructor <;> simp [UartRx.step, disabled]

/-- After any run that ends in a cycle in which the module is disabled, the next frame is
transmitted, respectively received, as after a hardware reset exactly when the counter of
the data bits is zero. -/
theorem uart_framesAfresh_iff (config : UartConfig) (enabled : config.en = true) :
    (∀ (before : List TxInput) (off : TxInput) (schedule : Nat → TxInput),
      off.config.en = false → (∀ n, (schedule n).config = config) →
        (∃ n, (schedule n).txValid = true) →
        ((txMachine.run (before ++ [off])).TransmitsAfresh schedule ↔
          (txMachine.run (before ++ [off])).regBitCount = 0)) ∧
    (∀ (before : List RxInput) (off : RxInput) (schedule : Nat → RxInput),
      off.config.en = false → (∀ n, (schedule n).config = config) →
        (∃ n, (schedule n).rx = false) →
        ((rxMachine.run (before ++ [off])).ReceivesAfresh schedule ↔
          (rxMachine.run (before ++ [off])).regBitCount = 0)) := by
  constructor
  · intro before off schedule disabled configured offered
    rw [Machine.run_snoc]
    exact transmitsAfresh_iff enabled configured offered (step_txDisabled _ disabled)
  · intro before off schedule disabled configured falls
    rw [Machine.run_snoc]
    exact receivesAfresh_iff enabled configured falls (step_rxDisabled _ disabled)

/-- Eight data bits without parity, three cycles each. -/
def eightBits (en : Bool) : UartConfig :=
  { en, div := 2, parityEn := false, bits := 3, stopBits := false }

/-- A byte is offered to the transmitter all the time. -/
def offering (en : Bool) : TxInput := { config := eightBits en, txData := 0x55, txValid := true }

/-- The line is high in the first cycle and low from then on. -/
def falling (en : Bool) (n : Nat) : RxInput :=
  { config := eightBits en, rx := n == 0, rxReady := true }

/-- Frames that were aborted in the start bit leave no count of data bits. -/
theorem abortedStart_afresh :
    (txMachine.run (List.replicate 3 (offering true) ++ [offering false])).TransmitsAfresh
        (fun _ => offering true) ∧
      (rxMachine.run ((List.range 5).map (falling true) ++ [falling false 0])).ReceivesAfresh
        (falling true) :=
  ⟨((uart_framesAfresh_iff (eightBits true) rfl).1 _ _ _ rfl (fun _ => rfl) ⟨0, rfl⟩).mpr
      (by decide),
    ((uart_framesAfresh_iff (eightBits true) rfl).2 _ _ _ rfl (fun _ => rfl) ⟨1, rfl⟩).mpr
      (by decide)⟩

/-- Frames that were aborted among the data bits make the next frame shorter. -/
theorem abortedData_not_afresh :
    ¬(txMachine.run (List.replicate 9 (offering true) ++ [offering false])).TransmitsAfresh
        (fun _ => offering true) ∧
      ¬(rxMachine.run ((List.range 11).map (falling true) ++ [falling false 0])).ReceivesAfresh
        (falling true) := by
  constructor
  · intro afresh
    exact absurd (congrArg TxOutputs.busy (afresh 29)) (by decide)
  · intro afresh
    exact absurd (congrArg RxOutputs.busy (afresh 32)) (by decide)

end CoreVMcu.Uart
