import CoreVMcu.Spi.RxBackPressure

/-!
# Completed commands

The interpreter leaves a command only when the serializer is done with it: whenever it
does not wait for the serializer, both directions rest.  What they leave behind is in
the registers that they share, and in the flag of a transfer in both directions, which
is still set in the first cycle after such a transfer.
-/

namespace CoreVMcu.Spi

open Clocked

/-- The interpreter and the serializer from reset. -/
def spimMachine : Machine SpiMaster MasterInput where
  init := .reset
  step := SpiMaster.step

section Quiet

namespace TxRx
variable (txRx : TxRx) (input : TxRxInput)

/-- The transmitter ends a word after those that are counted. -/
def txEndsCount : Bool := txRx.bitsDone && txRx.counterHi == 0

/-- The transmitter takes a data word with the next one that it sends. -/
def txLoads : Bool := !(txRx.txEndsCount && txRx.txIsLast) && (txRx.bitsDone && txRx.transfDone)

/-- The receiver sees a clock. -/
def rxCounts : Bool := !txRx.fullDuplex input || (txRx.txSignals input).clken

/-- The receiver ends a word. -/
def rxEndsWord : Bool := txRx.rxCounts input && (txRx.rxClken && txRx.bitsDone)

end TxRx

variable {txRx : TxRx} {input : TxRxInput}

/-- What the transmitter drives while it sends and nothing starts. -/
theorem txSignals_sending (sends : txRx.txState = .send) (quiet : input.tx.start = false) :
    txRx.txSignals input =
      { txRx.txDefaults with
        stateNext :=
          if txRx.txEndsCount && txRx.txIsLast then .idle
          else if txRx.txLoads && !input.txDataValid then .waitData
          else .send
        dataReady := txRx.txLoads && input.txDataValid
        done := txRx.txEndsCount && txRx.txIsLast
        clken := true
        shiftReg := if txRx.txLoads && input.txDataValid then input.txData else txRx.txShiftReg
        driving := true
        mode := TxRx.sendMode input
        isLast := if txRx.txEndsCount then !txRx.txIsLast else txRx.txIsLast
        counterHi := if txRx.bitsDone then countedDown txRx.counterHi else txRx.counterHi
        counterBits := txRx.nextBits input.tx.qpi
        counterTransf := if txRx.bitsDone then txRx.nextTransf else txRx.counterTransf
        sampleHi := txRx.bitsDone && !(txRx.counterHi == 0)
        sampleBits := true
        sampleTransf := txRx.bitsDone } := by
  rw [TxRx.txSignals, sends]
  by_cases zero : txRx.counterHi = 0#16 <;> cases bits : txRx.bitsDone <;>
    cases last : txRx.txIsLast <;> cases full : txRx.transfDone <;>
    cases valid : input.txDataValid <;>
    simp [TxRx.txSending, TxRx.txEndsCount, TxRx.txLoads, TxRx.load, countedDown, zero, bits, last,
      full, valid, quiet, sends, TxRx.txDefaults]

/-- What the receiver drives while it receives and nothing starts. -/
theorem rxSignals_receiving (receives : txRx.rxState = .receive) (quiet : input.rx.start = false) :
    txRx.rxSignals input =
      { txRx.rxDefaults with
        stateNext :=
          if txRx.rxEndsWord input && txRx.counterHi == 0 && txRx.rxIsLast then .idle else .receive
        clken := true
        done := txRx.rxEndsWord input && txRx.counterHi == 0 && txRx.rxIsLast
        data := if txRx.rxEndsWord input && txRx.transfDone then txRx.dataRx input else 0
        dataValid := txRx.rxEndsWord input && txRx.transfDone
        mode := TxRx.receiveMode input
        shiftReg := txRx.dataRx input
        isLast :=
          if txRx.rxEndsWord input && txRx.counterHi == 0 then !txRx.rxIsLast else txRx.rxIsLast
        counterHi := if txRx.rxEndsWord input then countedDown txRx.counterHi else txRx.counterHi
        counterBits :=
          if txRx.rxCounts input then txRx.nextBits input.rx.qpi else txRx.counterBits
        counterTransf := if txRx.rxEndsWord input then txRx.nextTransf else txRx.counterTransf
        sampleHi := txRx.rxEndsWord input && !(txRx.counterHi == 0)
        sampleBits := true
        sampleTransf := txRx.rxEndsWord input } := by
  have counts : (!txRx.fullDuplex input || (txRx.txSignals input).clken) = txRx.rxCounts input :=
    rfl
  have ends : txRx.rxEndsWord input =
      (txRx.rxCounts input && (txRx.rxClken && txRx.bitsDone)) := rfl
  rw [TxRx.rxSignals, receives]
  change txRx.rxReceiving input = _
  rw [TxRx.rxReceiving, counts]
  by_cases counted : txRx.rxCounts input = true
  · rw [counted, Bool.true_and] at ends
    rw [counted, ← ends]
    by_cases zero : txRx.counterHi = 0#16 <;> by_cases ended : txRx.rxEndsWord input = true <;>
      by_cases last : txRx.rxIsLast = true <;>
      simp [zero, ended, last, quiet, receives, TxRx.rxDefaults, countedDown]
  · have inside : txRx.rxEndsWord input = false := by
      rw [ends, Bool.eq_false_iff.mpr counted]
      rfl
    simp [counted, inside, receives, TxRx.rxDefaults]

/-- A transmitter that is busy is done with the last bit of the last word. -/
theorem txSignals_ends (input : TxRxInput) (busy : txRx.txState ≠ .idle)
    (quiet : input.tx.start = false) :
    (txRx.txSignals input).done =
        ((txRx.txSignals input).clken && txRx.txEndsCount && txRx.txIsLast) ∧
      (txRx.txSignals input).isLast =
        if (txRx.txSignals input).clken && txRx.txEndsCount then !txRx.txIsLast
        else txRx.txIsLast := by
  cases state : txRx.txState with
  | idle => exact absurd state busy
  | send =>
      rw [txSignals_sending state quiet]
      exact ⟨rfl, rfl⟩
  | waitData =>
      have waiting : txRx.txSignals input = txRx.txWaitData input := by rw [TxRx.txSignals, state]
      rw [waiting, TxRx.txWaitData]
      split <;> exact ⟨rfl, rfl⟩

/-- A receiver that follows the transmitter ends a word in a clock that ends one there. -/
theorem clken_of_rxEndsWord (full : txRx.isFul = true) (ends : txRx.rxEndsWord input = true) :
    (txRx.txSignals input).clken = true ∧ txRx.bitsDone = true := by
  rw [TxRx.rxEndsWord, TxRx.rxCounts, TxRx.fullDuplex, full, Bool.or_true, Bool.not_true,
    Bool.false_or, Bool.and_eq_true, Bool.and_eq_true] at ends
  exact ⟨ends.1, ends.2.2⟩

/-- The flag of a transfer in both directions stays while the receiver is in use. -/
theorem step_isFul (full : txRx.isFul = true) (txQuiet : input.tx.start = false)
    (rxQuiet : input.rx.start = false) (receives : txRx.rxState = .receive) :
    (txRx.step input).isFul = true := by
  have busy : (txRx.rxSignals input).idle = false := by
    rw [rxSignals_receiving receives rxQuiet]
    rfl
  change (if _ then _ else _) = true
  rw [txQuiet, Bool.false_and, if_neg Bool.false_ne_true, busy, Bool.and_false,
    if_neg Bool.false_ne_true, full]

end Quiet

/-! ## Stages of the master -/

/-- Stages of a master: between commands, during a command in one direction, and during a
command in both, of which the transmitter may be done before the receiver. -/
inductive CommandStage (master : SpiMaster) : Prop where
  | rests (state : master.ctrl.state.Free) (isDummy : master.ctrl.isDummy = false)
      (txState : master.txRx.txState = .idle) (rxState : master.txRx.rxState = .idle)
  | sends (state : master.ctrl.state = .waitDone) (isDummy : master.ctrl.isDummy = false)
      (isFul : master.ctrl.isFul = false) (txState : master.txRx.txState ≠ .idle)
      (rxState : master.txRx.rxState = .idle)
  | receives (state : master.ctrl.state = .waitDone) (isFul : master.ctrl.isFul = false)
      (txState : master.txRx.txState = .idle) (rxState : master.txRx.rxState = .receive)
  | checks (state : master.ctrl.state = .waitCheck) (isDummy : master.ctrl.isDummy = false)
      (txState : master.txRx.txState = .idle) (rxState : master.txRx.rxState = .receive)
  | both (state : master.ctrl.state = .waitDone) (isDummy : master.ctrl.isDummy = false)
      (isFul : master.ctrl.isFul = true) (full : master.txRx.isFul = true)
      (rxDone : master.ctrl.rxDone = false) (txDone : master.ctrl.txDone = false)
      (txState : master.txRx.txState ≠ .idle) (rxState : master.txRx.rxState = .receive)
      (last : master.txRx.rxIsLast = true → master.txRx.txIsLast = true)
  | stands (state : master.ctrl.state = .waitDone) (isDummy : master.ctrl.isDummy = false)
      (isFul : master.ctrl.isFul = true) (full : master.txRx.isFul = true)
      (rxDone : master.ctrl.rxDone = false) (txState : master.txRx.txState = .idle)
      (rxState : master.txRx.rxState = .receive)

section Cycle

variable {master : SpiMaster} {input : MasterInput}

/-- Nothing starts while the interpreter waits for the serializer. -/
theorem quiet_waitDone (state : master.ctrl.state = .waitDone) (input : MasterInput) :
    (master.txRxInput input).tx.start = false ∧ (master.txRxInput input).rx.start = false := by
  rw [txRxInput_waitDone state input]
  exact ⟨rfl, rfl⟩

theorem quiet_waitCheck (state : master.ctrl.state = .waitCheck) (input : MasterInput) :
    (master.txRxInput input).tx.start = false ∧ (master.txRxInput input).rx.start = false := by
  obtain ⟨tx, rx⟩ := txRxInput_waitCheck state input
  rw [tx, rx]
  exact ⟨rfl, rfl⟩

theorem step_txState_resting (rests : master.txRx.txState = .idle)
    (quiet : (master.txRxInput input).tx.start = false) :
    (master.step input).txRx.txState = .idle := by
  change (master.txRx.txSignals (master.txRxInput input)).stateNext = .idle
  rw [txSignals_resting rests quiet]
  exact rests

theorem step_rxState_resting (rests : master.txRx.rxState = .idle)
    (quiet : (master.txRxInput input).rx.start = false) :
    (master.step input).txRx.rxState = .idle := by
  change (master.txRx.rxSignals (master.txRxInput input)).stateNext = .idle
  rw [rxSignals_resting rests quiet]
  exact rests

/-- A command that only sends is over when the transmitter is done. -/
theorem done_sends (state : master.ctrl.state = .waitDone) (isFul : master.ctrl.isFul = false)
    (rxState : master.txRx.rxState = .idle) (input : MasterInput) :
    master.ctrl.done (master.ctrlInput input) =
      (master.txRx.txSignals (master.txRxInput input)).done := by
  rw [done_single isFul]
  simp only [SpiMaster.output, rxSignals_resting rxState (quiet_waitDone state input).2]
  exact Bool.or_false _

/-- A command that only receives is over when the receiver is done. -/
theorem done_receives (state : master.ctrl.state = .waitDone) (isFul : master.ctrl.isFul = false)
    (txState : master.txRx.txState = .idle) (input : MasterInput) :
    master.ctrl.done (master.ctrlInput input) =
      (master.txRx.rxSignals (master.txRxInput input)).done := by
  rw [done_single isFul]
  simp only [SpiMaster.output, txSignals_resting txState (quiet_waitDone state input).1]
  exact Bool.false_or _

theorem CommandStage.step_sends (state : master.ctrl.state = .waitDone)
    (isDummy : master.ctrl.isDummy = false) (isFul : master.ctrl.isFul = false)
    (txState : master.txRx.txState ≠ .idle) (rxState : master.txRx.rxState = .idle) :
    CommandStage (master.step input) := by
  obtain ⟨txQuiet, rxQuiet⟩ := quiet_waitDone state input
  have rxNext := step_rxState_resting rxState rxQuiet
  have ends := txSignals_done_iff txState txQuiet
  have stateNext := step_waitDone_state input state
  have dummyNext := step_waitDone_isDummy input state
  rw [isDummy, ite_self] at dummyNext
  rw [done_sends state isFul rxState] at stateNext
  cases isDone : (master.txRx.txSignals (master.txRxInput input)).done with
  | true =>
      rw [isDone, if_pos rfl] at stateNext
      exact .rests (not_busy stateNext) dummyNext (ends.mp isDone) rxNext
  | false =>
      rw [isDone, if_neg Bool.false_ne_true] at stateNext
      refine .sends stateNext dummyNext ((step_waitDone_isFul input state).trans isFul) ?_ rxNext
      intro rests
      rw [ends.mpr rests] at isDone
      cases isDone

theorem CommandStage.step_receives (state : master.ctrl.state = .waitDone)
    (isFul : master.ctrl.isFul = false) (txState : master.txRx.txState = .idle)
    (rxState : master.txRx.rxState = .receive) : CommandStage (master.step input) := by
  obtain ⟨txQuiet, rxQuiet⟩ := quiet_waitDone state input
  have txNext := step_txState_resting txState txQuiet
  have stateNext := step_waitDone_state input state
  have dummyNext := step_waitDone_isDummy input state
  rw [done_receives state isFul txState] at stateNext dummyNext
  cases isDone : (master.txRx.rxSignals (master.txRxInput input)).done with
  | true =>
      rw [isDone, if_pos rfl] at stateNext dummyNext
      exact .rests (not_busy stateNext) dummyNext txNext
        ((rxSignals_done_iff rxState rxQuiet).mp isDone)
  | false =>
      rw [isDone, if_neg Bool.false_ne_true] at stateNext
      exact .receives stateNext ((step_waitDone_isFul input state).trans isFul) txNext
        (rxSignals_stays rxState rxQuiet isDone)

/-- The interpreter leaves a check when the receiver is done. -/
theorem step_waitCheck_state (input : MasterInput) (state : master.ctrl.state = .waitCheck) :
    (master.step input).ctrl.state =
      if (master.txRx.rxSignals (master.txRxInput input)).done then .idle else .waitCheck := by
  change (master.signals input).stateNext = _
  rw [SpiMaster.signals, SpimCtrl.signals, state]
  change (master.ctrl.waitCheck (master.ctrlInput input)).stateNext = _
  rw [SpimCtrl.waitCheck]
  change (if (master.txRx.rxSignals (master.txRxInput input)).done = true then _ else _ :
    CtrlSignals).stateNext = _
  split
  · rfl
  · exact state

theorem step_waitCheck_isDummy (input : MasterInput) (state : master.ctrl.state = .waitCheck)
    (isDummy : master.ctrl.isDummy = false) : (master.step input).ctrl.isDummy = false := by
  change (master.signals input).isDummy = false
  rw [SpiMaster.signals, SpimCtrl.signals, state]
  change (master.ctrl.waitCheck (master.ctrlInput input)).isDummy = false
  rw [SpimCtrl.waitCheck]
  split
  · rfl
  · exact isDummy

theorem CommandStage.step_checks (state : master.ctrl.state = .waitCheck)
    (isDummy : master.ctrl.isDummy = false) (txState : master.txRx.txState = .idle)
    (rxState : master.txRx.rxState = .receive) : CommandStage (master.step input) := by
  obtain ⟨txQuiet, rxQuiet⟩ := quiet_waitCheck state input
  have txNext := step_txState_resting txState txQuiet
  have stateNext := step_waitCheck_state input state
  have dummyNext := step_waitCheck_isDummy input state isDummy
  cases isDone : (master.txRx.rxSignals (master.txRxInput input)).done with
  | true =>
      rw [isDone, if_pos rfl] at stateNext
      exact .rests (not_busy stateNext) dummyNext txNext
        ((rxSignals_done_iff rxState rxQuiet).mp isDone)
  | false =>
      rw [isDone, if_neg Bool.false_ne_true] at stateNext
      exact .checks stateNext dummyNext txNext (rxSignals_stays rxState rxQuiet isDone)

theorem CommandStage.step_stands (state : master.ctrl.state = .waitDone)
    (isDummy : master.ctrl.isDummy = false) (isFul : master.ctrl.isFul = true)
    (full : master.txRx.isFul = true) (rxDone : master.ctrl.rxDone = false)
    (txState : master.txRx.txState = .idle) (rxState : master.txRx.rxState = .receive) :
    CommandStage (master.step input) := by
  obtain ⟨txQuiet, rxQuiet⟩ := quiet_waitDone state input
  have rx := rxSignals_stands rxState full txState txQuiet
  have goesOn : master.ctrl.done (master.ctrlInput input) = false := by
    rw [SpimCtrl.done, isFul, if_pos rfl, Bool.and_eq_false_iff]
    right
    rw [rxDone, Bool.or_false]
    change (master.txRx.rxSignals (master.txRxInput input)).done = false
    rw [rx]
    rfl
  have stateNext := step_waitDone_state input state
  have dummyNext := step_waitDone_isDummy input state
  rw [goesOn, if_neg Bool.false_ne_true] at stateNext dummyNext
  refine .stands stateNext (dummyNext.trans isDummy)
    ((step_waitDone_isFul input state).trans isFul) (step_isFul full txQuiet rxQuiet rxState) ?_
    (step_txState_resting txState txQuiet) ?_
  · change (master.txRx.rxSignals (master.txRxInput input)).done = false
    rw [rx]
    rfl
  · change (master.txRx.rxSignals (master.txRxInput input)).stateNext = .receive
    rw [rx]
    exact rxState

/-- A cycle of a transfer in both directions: the transmitter is done with the receiver or
before it. -/
theorem CommandStage.step_both (state : master.ctrl.state = .waitDone)
    (isDummy : master.ctrl.isDummy = false) (isFul : master.ctrl.isFul = true)
    (full : master.txRx.isFul = true) (rxDone : master.ctrl.rxDone = false)
    (txDone : master.ctrl.txDone = false) (txState : master.txRx.txState ≠ .idle)
    (rxState : master.txRx.rxState = .receive)
    (last : master.txRx.rxIsLast = true → master.txRx.txIsLast = true) :
    CommandStage (master.step input) := by
  obtain ⟨txQuiet, rxQuiet⟩ := quiet_waitDone state input
  have stateNext := step_waitDone_state input state
  have dummyNext := step_waitDone_isDummy input state
  rw [isDummy, ite_self] at dummyNext
  have fulNext := (step_waitDone_isFul input state).trans isFul
  have fullNext : (master.step input).txRx.isFul = true := step_isFul full txQuiet rxQuiet rxState
  have done : master.ctrl.done (master.ctrlInput input) =
      ((master.txRx.txSignals (master.txRxInput input)).done &&
        (master.txRx.rxSignals (master.txRxInput input)).done) := by
    rw [SpimCtrl.done, isFul, if_pos rfl, rxDone, txDone, Bool.or_false, Bool.or_false]
    rfl
  have txNext : (master.step input).txRx.txState =
    (master.txRx.txSignals (master.txRxInput input)).stateNext := rfl
  have txEnds := txSignals_done_iff txState txQuiet
  have rxEnds := rxSignals_done_iff rxState rxQuiet
  obtain ⟨txIsDone, txIsLast⟩ := txSignals_ends (master.txRxInput input) txState txQuiet
  have rx := rxSignals_receiving rxState rxQuiet
  have rxIsDone := congrArg RxSignals.done rx
  have rxIsLast := congrArg RxSignals.isLast rx
  simp only at rxIsDone rxIsLast
  have clocks : (master.txRx.rxEndsWord (master.txRxInput input) && master.txRx.counterHi == 0) =
      true → ((master.txRx.txSignals (master.txRxInput input)).clken &&
        master.txRx.txEndsCount) = true := by
    intro ends
    rw [Bool.and_eq_true] at ends
    obtain ⟨clocked, bits⟩ := clken_of_rxEndsWord full ends.1
    rw [clocked, TxRx.txEndsCount, bits, ends.2]
    rfl
  have together : (master.txRx.rxSignals (master.txRxInput input)).done = true →
      (master.txRx.txSignals (master.txRxInput input)).done = true := by
    intro ends
    rw [rxIsDone, Bool.and_eq_true] at ends
    rw [txIsDone, clocks ends.1, last ends.2]
    rfl
  cases rxOver : (master.txRx.rxSignals (master.txRxInput input)).done with
  | true =>
      rw [done, together rxOver, rxOver] at stateNext
      exact .rests (not_busy stateNext) dummyNext (txEnds.mp (together rxOver)) (rxEnds.mp rxOver)
  | false =>
      have rxNext : (master.step input).txRx.rxState = .receive :=
        rxSignals_stays rxState rxQuiet rxOver
      rw [done, rxOver, Bool.and_false, if_neg Bool.false_ne_true] at stateNext
      cases txOver : (master.txRx.txSignals (master.txRxInput input)).done with
      | true =>
          exact .stands stateNext dummyNext fulNext fullNext rxOver (txEnds.mp txOver) rxNext
      | false =>
          have busyNext : (master.step input).txRx.txState ≠ .idle := by
            intro rests
            rw [txEnds.mpr rests] at txOver
            cases txOver
          refine .both stateNext dummyNext fulNext fullNext rxOver txOver busyNext rxNext ?_
          change (master.txRx.rxSignals (master.txRxInput input)).isLast = true →
            (master.txRx.txSignals (master.txRxInput input)).isLast = true
          rw [txIsLast, rxIsLast]
          rw [txIsDone] at txOver
          cases bits : (master.txRx.txSignals (master.txRxInput input)).clken &&
              master.txRx.txEndsCount with
          | true =>
              rw [bits, Bool.true_and] at txOver
              rw [if_pos rfl, txOver]
              exact fun _ => rfl
          | false =>
              have inside : (master.txRx.rxEndsWord (master.txRxInput input) &&
                  master.txRx.counterHi == 0) = false := by
                rw [Bool.eq_false_iff]
                intro ends
                rw [clocks ends] at bits
                cases bits
              rw [inside, if_neg Bool.false_ne_true, if_neg Bool.false_ne_true]
              exact last

end Cycle

/-! ## Commands that start -/

/-- The transfer that a command asks the transmitter for. -/
def transmission (command : BitVec 32) : TransferSetup :=
  match spiCmd command with
  | some .sendCmd =>
      { start := true, size := 0, bitsword := cdWordsize command, wordtransf := 0
        lsbfirst := false, qpi := cdCfgQpi command }
  | some .fullDupl => fullDuplSetup command
  | _ => rxDataSetup command

/-- The transfer that a command asks the receiver for. -/
def reception (command : BitVec 32) : TransferSetup :=
  match spiCmd command with
  | some .dummy =>
      { start := true, size := 0, bitsword := cdWordsize command, wordtransf := 0
        lsbfirst := false, qpi := cdCfgQpi command }
  | some .rxCheck =>
      { start := true, size := 0
        bitsword := (cdWordsize command).extractLsb' 0 4 |>.setWidth 5
        wordtransf := 0, lsbfirst := cdCfgLsb command, qpi := cdCfgQpi command }
  | some .fullDupl => fullDuplSetup command
  | _ => rxDataSetup command

/-- The interpreter during a command. -/
structure SpimCtrl.InCommand (ctrl : SpimCtrl) (state : CtrlState) (isDummy isFul qpi : Bool) :
    Prop where
  state : ctrl.state = state
  isDummy : ctrl.isDummy = isDummy
  isFul : ctrl.isFul = isFul
  qpi : ctrl.qpi = qpi

/-- A command word that the interpreter decodes in a cycle. -/
structure Accepts (master : SpiMaster) (input : MasterInput) (command : BitVec 32) : Prop where
  idle : master.ctrl.state = .idle
  available : master.ctrl.cmdAvailable (master.ctrlInput input) = true
  word : master.ctrl.word (master.ctrlInput input) = command

namespace Accepts

variable {master : SpiMaster} {input : MasterInput} {command : BitVec 32}

theorem signals (accepts : Accepts master input command) :
    master.signals input = SpimCtrl.execute master.ctrl.taken command := by
  rw [signals_decoded accepts.idle accepts.available, accepts.word]

/-- What the serializer gets with a command. -/
theorem txRxInput (accepts : Accepts master input command) :
    master.txRxInput input =
      { tx := (SpimCtrl.execute master.ctrl.taken command).tx
        txData := (SpimCtrl.execute master.ctrl.taken command).txData
        txDataValid := (SpimCtrl.execute master.ctrl.taken command).txDataValid
        rx := (SpimCtrl.execute master.ctrl.taken command).rx
        sdi := input.sdi } := by
  rw [SpiMaster.txRxInput, ← signals_eq_setup (not_busy accepts.idle), accepts.signals]

theorem ctrl_step (accepts : Accepts master input command) {state : CtrlState}
    {isDummy isFul qpi : Bool}
    (stateNext : (SpimCtrl.execute master.ctrl.taken command).stateNext = state)
    (dummyNext : (SpimCtrl.execute master.ctrl.taken command).isDummy = isDummy)
    (fulNext : (SpimCtrl.execute master.ctrl.taken command).isFul = isFul)
    (update : (SpimCtrl.execute master.ctrl.taken command).updateQpi = true)
    (qpiNext : (SpimCtrl.execute master.ctrl.taken command).qpi = qpi) :
    (master.step input).ctrl.InCommand state isDummy isFul qpi := by
  have signals := accepts.signals
  refine ⟨?_, ?_, ?_, ?_⟩
  · change (master.signals input).stateNext = _
    rw [signals, stateNext]
  · change (master.signals input).isDummy = _
    rw [signals, dummyNext]
  · change (master.signals input).isFul = _
    rw [signals, fulNext]
  · change (if (master.signals input).updateQpi then (master.signals input).qpi else _) = _
    rw [signals, update, if_pos rfl, qpiNext]

/-- A command that only sends. -/
theorem sends (accepts : Accepts master input command) (isDummy : master.ctrl.isDummy = false)
    (cmd : spiCmd command = some .sendCmd ∨ spiCmd command = some .txData) :
    (master.txRxInput input).tx = transmission command ∧
      (master.txRxInput input).rx.start = false ∧
        (master.step input).ctrl.InCommand .waitDone false false (transmission command).qpi := by
  obtain ⟨_, rx, dummy, ful, -⟩ := taken_fields master.ctrl
  have same := dummy.trans isDummy
  rw [accepts.txRxInput]
  rcases cmd with cmd | cmd
  · rw [transmission, cmd]
    refine ⟨?_, ?_, accepts.ctrl_step ?_ ?_ ?_ ?_ ?_⟩ <;> rw [SpimCtrl.execute, cmd]
    · exact congrArg TransferSetup.start rx
    · exact same
    · exact ful
  · rw [transmission, cmd]
    refine ⟨?_, ?_, accepts.ctrl_step ?_ ?_ ?_ ?_ ?_⟩ <;> rw [SpimCtrl.execute, cmd]
    · rfl
    · exact congrArg TransferSetup.start rx
    · exact same
    · exact ful
    · rfl

/-- A command in both directions. -/
theorem both (accepts : Accepts master input command) (isDummy : master.ctrl.isDummy = false)
    (cmd : spiCmd command = some .fullDupl) :
    (master.txRxInput input).tx = transmission command ∧
      (master.txRxInput input).rx = transmission command ∧
        (master.step input).ctrl.InCommand .waitDone false true false := by
  obtain ⟨-, -, dummy, -⟩ := taken_fields master.ctrl
  have same := dummy.trans isDummy
  rw [accepts.txRxInput, transmission, cmd]
  refine ⟨?_, ?_, accepts.ctrl_step ?_ ?_ ?_ ?_ ?_⟩ <;> rw [SpimCtrl.execute, cmd]
  · rfl
  · rfl
  · exact same

/-- A command that only receives. -/
theorem receives (accepts : Accepts master input command) (isDummy : master.ctrl.isDummy = false)
    (cmd : spiCmd command = some .dummy ∨ spiCmd command = some .rxData) :
    (master.txRxInput input).tx.start = false ∧
      (master.txRxInput input).rx = reception command ∧
        (master.step input).ctrl.InCommand .waitDone (spiCmd command == some .dummy) false
          (reception command).qpi := by
  obtain ⟨tx, _, dummy, ful, -⟩ := taken_fields master.ctrl
  have same := dummy.trans isDummy
  rw [accepts.txRxInput]
  rcases cmd with cmd | cmd
  · rw [reception, cmd]
    refine ⟨?_, ?_, accepts.ctrl_step ?_ ?_ ?_ ?_ ?_⟩ <;> rw [SpimCtrl.execute, cmd]
    · exact congrArg TransferSetup.start tx
    · rfl
    · exact ful
  · rw [reception, cmd]
    refine ⟨?_, ?_, accepts.ctrl_step ?_ ?_ ?_ ?_ ?_⟩ <;> rw [SpimCtrl.execute, cmd]
    · exact congrArg TransferSetup.start tx
    · rfl
    · exact same
    · exact ful
    · rfl

/-- A check of received bits. -/
theorem checks (accepts : Accepts master input command) (isDummy : master.ctrl.isDummy = false)
    (cmd : spiCmd command = some .rxCheck) :
    (master.txRxInput input).tx.start = false ∧
      (master.txRxInput input).rx = reception command ∧
        (master.step input).ctrl.InCommand .waitCheck false false (reception command).qpi := by
  obtain ⟨tx, -, dummy, ful, -⟩ := taken_fields master.ctrl
  have same := dummy.trans isDummy
  rw [accepts.txRxInput, reception, cmd]
  refine ⟨?_, ?_, accepts.ctrl_step ?_ ?_ ?_ ?_ ?_⟩ <;> rw [SpimCtrl.execute, cmd]
  · exact congrArg TransferSetup.start tx
  · exact same
  · exact ful

end Accepts

theorem transmission_start (command : BitVec 32) : (transmission command).start = true := by
  rw [transmission]
  split <;> rfl

theorem reception_start (command : BitVec 32) : (reception command).start = true := by
  rw [reception]
  split <;> rfl

section Runs

variable {master : SpiMaster} {input : MasterInput}

/-- A cycle between commands in which no transfer starts. -/
theorem CommandStage.step_quiet (state : master.ctrl.state.Free)
    (isDummy : master.ctrl.isDummy = false)
    (txState : master.txRx.txState = .idle) (rxState : master.txRx.rxState = .idle)
    (other : ¬Decodes master.ctrl (master.ctrlInput input)) : CommandStage (master.step input) := by
  have quiet : (master.signals input).StartsNothing := signals_startsNothing state isDummy other
  have same : master.signals input = master.setup input := signals_eq_setup state
  refine .rests quiet.stateNext quiet.isDummy (step_txState_resting txState ?_)
    (step_rxState_resting rxState ?_)
  · rw [SpiMaster.txRxInput, ← same]
    exact quiet.txStart
  · rw [SpiMaster.txRxInput, ← same]
    exact quiet.rxStart

/-- A transfer in both directions starts with the same count of words. -/
theorem step_both_start {txRx : TxRx} {input : TxRxInput} (txState : txRx.txState = .idle)
    (rxState : txRx.rxState = .idle) (txStart : input.tx.start = true)
    (rxStart : input.rx.start = true) (size : input.tx.size = input.rx.size) :
    (txRx.step input).isFul = true ∧ (txRx.txSignals input).done = false ∧
      (txRx.rxSignals input).done = false ∧
        (txRx.step input).rxIsLast = (txRx.step input).txIsLast := by
  have rx : (txRx.rxSignals input).isLast = decide (input.rx.size = 0) ∧
      (txRx.rxSignals input).done = false := by
    simp [TxRx.rxSignals, rxState, TxRx.rxWaiting, rxStart, TxRx.rxDefaults]
  have tx : (txRx.txSignals input).isLast = decide (input.tx.size = 0) ∧
      (txRx.txSignals input).done = false := by
    simp [TxRx.txSignals, txState, TxRx.txWaiting, txStart, TxRx.load, TxRx.txDefaults]
    split <;> simp
  refine ⟨?_, tx.2, rx.2, ?_⟩
  · change (if _ then _ else _) = true
    rw [txStart, rxStart]
    rfl
  · change (txRx.rxSignals input).isLast = (txRx.txSignals input).isLast
    rw [rx.1, tx.1, size]

/-- A cycle in which a command is decoded that uses the serializer. -/
theorem CommandStage.step_accepts {command : BitVec 32} (isDummy : master.ctrl.isDummy = false)
    (txState : master.txRx.txState = .idle) (rxState : master.txRx.rxState = .idle)
    (accepts : Accepts master input command) (transfers : Transfers (spiCmd command)) :
    CommandStage (master.step input) := by
  have sends : spiCmd command = some .sendCmd ∨ spiCmd command = some .txData →
      CommandStage (master.step input) := by
    intro cmd
    obtain ⟨tx, rxQuiet, ctrl⟩ := accepts.sends isDummy cmd
    exact .sends ctrl.state ctrl.isDummy ctrl.isFul
      (step_txStart txState (by rw [tx, transmission_start])) (step_rxState_resting rxState rxQuiet)
  have receives : spiCmd command = some .dummy ∨ spiCmd command = some .rxData →
      CommandStage (master.step input) := by
    intro cmd
    obtain ⟨txQuiet, rx, ctrl⟩ := accepts.receives isDummy cmd
    exact .receives ctrl.state ctrl.isFul (step_txState_resting txState txQuiet)
      (step_rxStart rxState (by rw [rx, reception_start]))
  rcases transfers with cmd | cmd | cmd | cmd | cmd | cmd
  · exact sends (.inl cmd)
  · exact sends (.inr cmd)
  · exact receives (.inl cmd)
  · obtain ⟨txQuiet, rx, ctrl⟩ := accepts.checks isDummy cmd
    exact .checks ctrl.state ctrl.isDummy (step_txState_resting txState txQuiet)
      (step_rxStart rxState (by rw [rx, reception_start]))
  · exact receives (.inr cmd)
  · obtain ⟨tx, rx, ctrl⟩ := accepts.both isDummy cmd
    have txStart := transmission_start command
    rw [← tx] at txStart
    have rxStart := transmission_start command
    rw [← rx] at rxStart
    obtain ⟨full, txDone, rxDone, last⟩ := step_both_start txState rxState txStart rxStart
      (by rw [tx, rx])
    refine .both ctrl.state ctrl.isDummy ctrl.isFul full rxDone txDone
      (step_txStart txState txStart) (step_rxStart rxState rxStart) ?_
    intro rxLast
    exact last.symm.trans rxLast

/-- Every cycle leads from a stage to a stage. -/
theorem CommandStage.step (stage : CommandStage master) (input : MasterInput) :
    CommandStage (master.step input) := by
  cases stage with
  | rests state isDummy txState rxState =>
      by_cases decodes : Decodes master.ctrl (master.ctrlInput input)
      · obtain ⟨idle, available, transfers⟩ := decodes
        exact .step_accepts isDummy txState rxState ⟨idle, available, rfl⟩ transfers
      · exact .step_quiet state isDummy txState rxState decodes
  | sends state isDummy isFul txState rxState =>
      exact .step_sends state isDummy isFul txState rxState
  | receives state isFul txState rxState => exact .step_receives state isFul txState rxState
  | checks state isDummy txState rxState => exact .step_checks state isDummy txState rxState
  | both state isDummy isFul full rxDone txDone txState rxState last =>
      exact .step_both state isDummy isFul full rxDone txDone txState rxState last
  | stands state isDummy isFul full rxDone txState rxState =>
      exact .step_stands state isDummy isFul full rxDone txState rxState

theorem run_stage (inputs : List MasterInput) : CommandStage (spimMachine.run inputs) :=
  Machine.run_invariant (.rests trivial rfl rfl rfl) (fun _ input stage => stage.step input) inputs

/-- Between commands both directions of the serializer rest. -/
structure Rests (master : SpiMaster) : Prop where
  isDummy : master.ctrl.isDummy = false
  txState : master.txRx.txState = .idle
  rxState : master.txRx.rxState = .idle

/-- A command is completed when the interpreter no longer waits for it. -/
theorem CommandStage.rests_of_free (stage : CommandStage master) (free : master.ctrl.state.Free) :
    Rests master := by
  cases stage with
  | rests _ isDummy txState rxState => exact ⟨isDummy, txState, rxState⟩
  | sends state | receives state | checks state | both state | stands state =>
      rw [state] at free
      exact free.elim

theorem run_rests {inputs : List MasterInput} (idle : (spimMachine.run inputs).ctrl.state = .idle) :
    Rests (spimMachine.run inputs) :=
  (run_stage inputs).rests_of_free (not_busy idle)

end Runs

end CoreVMcu.Spi
