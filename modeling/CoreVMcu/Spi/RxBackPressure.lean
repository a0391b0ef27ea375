import CoreVMcu.Spi.RxOnly
import CoreVMcu.Spi.LoopbackStep

/-!
# Words received under back-pressure

The ready of the receiving FIFO is not looked at.  Commands that start with an empty
transfer and fill whole ones hand over every data word that is complete on the line
when the FIFO is ready at that moment.
-/

namespace CoreVMcu.Spi

open Clocked

section OneDirection

variable {txRx : TxRx} {input : TxRxInput}

/-- A receiver that rests and is not started. -/
theorem rxSignals_resting (rests : txRx.rxState = .idle) (quiet : input.rx.start = false) :
    txRx.rxSignals input = { txRx.rxDefaults with idle := true } := by
  simp [TxRx.rxSignals, rests, TxRx.rxWaiting, quiet]

/-- A transmitter that rests and is not started. -/
theorem txSignals_resting (rests : txRx.txState = .idle) (quiet : input.tx.start = false) :
    txRx.txSignals input = { txRx.txDefaults with idle := true } := by
  simp [TxRx.txSignals, rests, TxRx.txWaiting, quiet]

theorem rxState_resting (rests : txRx.rxState = .idle) (quiet : input.rx.start = false) :
    (txRx.step input).rxState = .idle := by
  change (txRx.rxSignals input).stateNext = .idle
  rw [rxSignals_resting rests quiet]
  exact rests

theorem txState_resting (rests : txRx.txState = .idle) (quiet : input.tx.start = false) :
    (txRx.step input).txState = .idle := by
  change (txRx.txSignals input).stateNext = .idle
  rw [txSignals_resting rests quiet]
  exact rests

theorem load_clken (input : TxRxInput) (signals : TxSignals) :
    (TxRx.load input signals).clken = signals.clken := by
  rw [TxRx.load]
  split <;> rfl

/-- The line is clocked while the transmitter sends. -/
theorem txSending_clken (txRx : TxRx) (input : TxRxInput) :
    (txRx.txSending input).clken = true := by
  simp only [TxRx.txSending]
  split
  · split
    · split
      · rw [load_clken]
      · rfl
    · split
      · rw [load_clken]
      · rfl
  · split
    · split
      · rw [load_clken]
      · rfl
    · rfl

/-- The transmitter rests again when it is done. -/
theorem txSignals_done_iff (busy : txRx.txState ≠ .idle) (quiet : input.tx.start = false) :
    (txRx.txSignals input).done = true ↔ (txRx.txSignals input).stateNext = .idle := by
  cases state : txRx.txState with
  | idle => exact absurd state busy
  | send =>
      simp only [TxRx.txSignals, state, TxRx.txSending, quiet, TxRx.load, TxRx.txDefaults]
      cases txRx.bitsDone && txRx.counterHi == 0 <;> cases txRx.txIsLast <;>
        cases txRx.bitsDone <;> cases txRx.transfDone <;> cases input.txDataValid <;> simp
  | waitData =>
      simp only [TxRx.txSignals, state, TxRx.txWaitData, TxRx.txDefaults]
      cases input.txDataValid <;> simp

/-- The receiver rests again when it is done. -/
theorem rxSignals_done_iff (busy : txRx.rxState = .receive) (quiet : input.rx.start = false) :
    (txRx.rxSignals input).done = true ↔ (txRx.rxSignals input).stateNext = .idle := by
  simp only [TxRx.rxSignals, busy, TxRx.rxReceiving, quiet, TxRx.rxDefaults]
  cases !txRx.fullDuplex input || (txRx.txSignals input).clken <;>
    cases txRx.rxClken && txRx.bitsDone <;> cases txRx.rxIsLast <;>
    by_cases zero : txRx.counterHi = 0#16 <;> simp [zero]

theorem rxSignals_stays (busy : txRx.rxState = .receive) (quiet : input.rx.start = false)
    (goesOn : (txRx.rxSignals input).done = false) :
    (txRx.rxSignals input).stateNext = .receive := by
  cases state : (txRx.rxSignals input).stateNext with
  | receive => rfl
  | idle =>
      rw [(rxSignals_done_iff busy quiet).mpr state] at goesOn
      cases goesOn

/-- A receiver that waits for the clock of a resting transmitter stands still. -/
theorem rxSignals_stands (busy : txRx.rxState = .receive) (full : txRx.isFul = true)
    (rests : txRx.txState = .idle) (quiet : input.tx.start = false) :
    txRx.rxSignals input =
      { txRx.rxDefaults with
        mode := TxRx.receiveMode input, clken := true, sampleBits := true
        shiftReg := txRx.dataRx input } := by
  have stopped : (txRx.txSignals input).clken = false := by
    rw [txSignals_resting rests quiet]
    rfl
  simp [TxRx.rxSignals, busy, TxRx.rxReceiving, TxRx.fullDuplex, full, stopped]

end OneDirection

section WaitDone

variable {master : SpiMaster} {input : MasterInput}

/-- What the serializer gets while the interpreter waits for it. -/
theorem txRxInput_waitDone (state : master.ctrl.state = .waitDone) (input : MasterInput) :
    master.txRxInput input =
      { tx := master.ctrl.defaults.tx
        txData := input.udmaTxData
        txDataValid := input.udmaTxDataValid
        rx := master.ctrl.defaults.rx
        sdi := input.sdi } := by
  rw [SpiMaster.txRxInput, SpiMaster.setup, SpimCtrl.signals, state]
  simp only [SpimCtrl.waitDone]
  split <;> rfl

theorem txRxInput_waitCheck (state : master.ctrl.state = .waitCheck) (input : MasterInput) :
    (master.txRxInput input).tx = master.ctrl.defaults.tx ∧
      (master.txRxInput input).rx = master.ctrl.defaults.rx := by
  rw [SpiMaster.txRxInput, SpiMaster.setup, SpimCtrl.signals, state]
  simp only [SpimCtrl.waitCheck]
  split <;> exact ⟨rfl, rfl⟩

/-- The interpreter while it waits for the serializer. -/
theorem signals_waitDone (state : master.ctrl.state = .waitDone) (input : MasterInput) :
    master.signals input =
      { master.ctrl.defaults with
        txData := input.udmaTxData
        txDataValid := input.udmaTxDataValid
        udmaTxDataReady := (master.output input).txDataReady
        udmaRxData := (master.output input).rxData
        udmaRxDataValid := !master.ctrl.isDummy && (master.output input).rxDataValid
        rxDataReady := input.udmaRxDataReady
        stateNext := if master.ctrl.done (master.ctrlInput input) then .idle else .waitDone
        isDummy :=
          if master.ctrl.done (master.ctrlInput input) then false else master.ctrl.isDummy } := by
  rw [SpiMaster.signals, SpimCtrl.signals, state]
  simp only [SpimCtrl.waitDone]
  split
  · rfl
  · simp only [SpimCtrl.defaults, state]
    rfl

/-- One direction is in use: the command ends when it is done. -/
theorem done_single (single : master.ctrl.isFul = false) (input : MasterInput) :
    master.ctrl.done (master.ctrlInput input) =
      ((master.output input).txDone || (master.output input).rxDone) := by
  rw [SpimCtrl.done, single]
  rfl

/-- The interpreter leaves a command with the end of it. -/
theorem step_waitDone_state (input : MasterInput) (state : master.ctrl.state = .waitDone) :
    (master.step input).ctrl.state =
      if master.ctrl.done (master.ctrlInput input) then .idle else .waitDone := by
  change (master.signals input).stateNext = _
  rw [signals_waitDone state]

theorem step_waitDone_isDummy (input : MasterInput) (state : master.ctrl.state = .waitDone) :
    (master.step input).ctrl.isDummy =
      if master.ctrl.done (master.ctrlInput input) then false else master.ctrl.isDummy := by
  change (master.signals input).isDummy = _
  rw [signals_waitDone state]

theorem step_waitDone_isFul (input : MasterInput) (state : master.ctrl.state = .waitDone) :
    (master.step input).ctrl.isFul = master.ctrl.isFul := by
  change (master.signals input).isFul = _
  rw [signals_waitDone state]
  rfl

theorem step_waitDone_qpi (input : MasterInput) (state : master.ctrl.state = .waitDone) :
    (master.step input).ctrl.qpi = master.ctrl.qpi := by
  change (if (master.signals input).updateQpi then _ else _) = _
  rw [signals_waitDone state]
  rfl

end WaitDone

/-! ## Stages of the master -/

/-- The interpreter during a command that only receives. -/
structure SpimCtrl.InRead (ctrl : SpimCtrl) (command : BitVec 32) : Prop where
  state : ctrl.state = .waitDone
  isDummy : ctrl.isDummy = false
  isFul : ctrl.isFul = false
  qpi : ctrl.qpi = cdCfgQpi command

/-- The interpreter during a command in both directions. -/
structure SpimCtrl.InBoth (ctrl : SpimCtrl) : Prop where
  state : ctrl.state = .waitDone
  isDummy : ctrl.isDummy = false
  isFul : ctrl.isFul = true
  qpi : ctrl.qpi = false
  txDone : ctrl.txDone = false
  rxDone : ctrl.rxDone = false

/-- States in which the interpreter does not wait for the serializer. -/
def CtrlState.Free : CtrlState → Prop
  | .waitDone | .waitCheck => False
  | .idle | .waitEvent | .doRepeat | .waitCycle | .clearCs => True

/-- Nobody is under way that receives data. -/
def LineObserver.unused : LineObserver := { command := none, words := 0, bits := 0 }

/-- Stages of a master whose commands are well started. -/
inductive RxStage (line : RxLine) : Prop where
  | rests (state : line.master.ctrl.state.Free)
      (isDummy : line.master.ctrl.isDummy = false) (txState : line.master.txRx.txState = .idle)
      (rxState : line.master.txRx.rxState = .idle) (unused : line.observer = .unused)
  | sends (state : line.master.ctrl.state = .waitDone) (isDummy : line.master.ctrl.isDummy = false)
      (isFul : line.master.ctrl.isFul = false) (txState : line.master.txRx.txState ≠ .idle)
      (rxState : line.master.txRx.rxState = .idle) (unused : line.observer = .unused)
  | discards (state : line.master.ctrl.state = .waitDone)
      (isDummy : line.master.ctrl.isDummy = true) (isFul : line.master.ctrl.isFul = false)
      (txState : line.master.txRx.txState = .idle) (rxState : line.master.txRx.rxState = .receive)
      (unused : line.observer = .unused)
  | checks (state : line.master.ctrl.state = .waitCheck)
      (isDummy : line.master.ctrl.isDummy = false) (txState : line.master.txRx.txState = .idle)
      (rxState : line.master.txRx.rxState = .receive) (unused : line.observer = .unused)
  | reads (command : BitVec 32) (word bit : Nat) (ctrl : line.master.ctrl.InRead command)
      (whole : perTransfer command ∣ wordCount command)
      (clocks : lanes command ∣ wordBits command) (several : lanes command < wordBits command)
      (position : RxAt command word bit line.master.txRx) (aligned : lanes command ∣ bit)
      (clocked : line.master.txRx.rxClken = true ∨ bit = 0 ∧ word = 0)
      (observes : line.observer = { command := some command, words := word, bits := bit })
  | stands (command : BitVec 32) (ctrl : line.master.ctrl.InRead command)
      (isFul : line.master.txRx.isFul = true) (txState : line.master.txRx.txState = .idle)
      (rxState : line.master.txRx.rxState = .receive)
      (observes : line.observer = { command := some command, words := 0, bits := 0 })
  | both (command : BitVec 32) (word bit : Nat) (ctrl : line.master.ctrl.InBoth)
      (isFull : spiCmd command = some .fullDupl)
      (whole : perTransfer command ∣ wordCount command)
      (position : AtBit command word bit line.master.txRx)
      (active : line.master.txRx.txState = .waitData ∨
        line.master.txRx.txState = .send ∧ line.master.txRx.rxClken = true)
      (observes : line.observer = { command := some command, words := word, bits := bit })

theorem not_busy {state : CtrlState} (idle : state = .idle) : state.Free := by
  rw [idle]
  trivial

/-- What a cycle hands over, and where it leads. -/
structure RxCycle (line : RxLine) (input : MasterInput) : Prop where
  handed : line.wordReceived input = line.wordCompleted input
  leaves : line.LeavesNothing input
  next : RxStage (line.step input)

section Cycle

variable {line : RxLine} {input : MasterInput}

/-- Without a command that receives data, nothing is handed over and nothing is left. -/
theorem RxCycle.of_unused (unused : line.observer = .unused)
    (silent : (line.master.signals input).udmaRxDataValid = false)
    (next : RxStage (line.step input)) : RxCycle line input where
  handed := by
    rw [RxLine.wordReceived, SpiMaster.wordReceived, silent, RxLine.wordCompleted, unused]
    rfl
  leaves := by
    rw [RxLine.LeavesNothing, unused]
    intro command member
    cases member
  next := next

/-- A command that goes on leaves nothing. -/
theorem leavesNothing_of_stays (stays : line.ends input = false) : line.LeavesNothing input := by
  rw [RxLine.LeavesNothing, stays]
  intro _ _ ends
  cases ends

theorem observed_unused (unused : line.observer = .unused) :
    line.observed input = { command := line.starts input, words := 0, bits := 0 } := by
  rw [RxLine.observed, unused]
  rfl

/-- No command starts unless the interpreter is idle. -/
theorem starts_busy (busy : line.master.ctrl.state ≠ .idle) : line.starts input = none := by
  rw [RxLine.starts, if_neg fun starts => busy starts.1]

theorem observed_busy (input : MasterInput) (unused : line.observer = .unused)
    (busy : line.master.ctrl.state ≠ .idle) : (line.step input).observer = .unused := by
  change line.observed input = _
  rw [observed_unused unused, starts_busy busy]
  rfl

/-- A cycle of a command that only sends. -/
theorem cycle_sends (state : line.master.ctrl.state = .waitDone)
    (isDummy : line.master.ctrl.isDummy = false) (isFul : line.master.ctrl.isFul = false)
    (txState : line.master.txRx.txState ≠ .idle) (rxState : line.master.txRx.rxState = .idle)
    (unused : line.observer = .unused) : RxCycle line input := by
  have given := txRxInput_waitDone state input
  have txQuiet : (line.master.txRxInput input).tx.start = false := by rw [given]; rfl
  have rxQuiet : (line.master.txRxInput input).rx.start = false := by rw [given]; rfl
  have rx := rxSignals_resting rxState rxQuiet
  have signals := signals_waitDone state input
  have idle : line.master.ctrl.state ≠ .idle := by rw [state]; intro same; cases same
  have silent : (line.master.output input).rxDataValid = false := by
    rw [SpiMaster.output, rx]
    rfl
  have done : line.master.ctrl.done (line.master.ctrlInput input) =
      (line.master.txRx.txSignals (line.master.txRxInput input)).done := by
    rw [done_single isFul]
    simp only [SpiMaster.output, rx]
    exact Bool.or_false _
  refine .of_unused unused (by rw [signals, silent, Bool.and_false]) ?_
  have rxNext : (line.step input).master.txRx.rxState = .idle := rxState_resting rxState rxQuiet
  have observer := observed_busy input unused idle
  have dummyNext := step_waitDone_isDummy input state
  rw [isDummy, ite_self] at dummyNext
  have ends := txSignals_done_iff txState txQuiet
  have stateNext := step_waitDone_state input state
  rw [done] at stateNext
  cases isDone : (line.master.txRx.txSignals (line.master.txRxInput input)).done with
  | true =>
      rw [isDone, if_pos rfl] at stateNext
      exact .rests (not_busy stateNext) dummyNext (ends.mp isDone) rxNext observer
  | false =>
      rw [isDone, if_neg Bool.false_ne_true] at stateNext
      refine .sends stateNext dummyNext ((step_waitDone_isFul input state).trans isFul) ?_
        rxNext observer
      intro rests
      rw [ends.mpr rests] at isDone
      cases isDone

/-- A cycle of a command whose data is discarded. -/
theorem cycle_discards (state : line.master.ctrl.state = .waitDone)
    (isDummy : line.master.ctrl.isDummy = true) (isFul : line.master.ctrl.isFul = false)
    (txState : line.master.txRx.txState = .idle) (rxState : line.master.txRx.rxState = .receive)
    (unused : line.observer = .unused) : RxCycle line input := by
  have given := txRxInput_waitDone state input
  have txQuiet : (line.master.txRxInput input).tx.start = false := by rw [given]; rfl
  have rxQuiet : (line.master.txRxInput input).rx.start = false := by rw [given]; rfl
  have tx := txSignals_resting txState txQuiet
  have idle : line.master.ctrl.state ≠ .idle := by rw [state]; intro same; cases same
  have done : line.master.ctrl.done (line.master.ctrlInput input) =
      (line.master.txRx.rxSignals (line.master.txRxInput input)).done := by
    rw [done_single isFul]
    simp only [SpiMaster.output, tx]
    exact Bool.false_or _
  refine .of_unused unused (by rw [signals_waitDone state, isDummy]; rfl) ?_
  have txNext : (line.step input).master.txRx.txState = .idle := txState_resting txState txQuiet
  have observer := observed_busy input unused idle
  have dummyNext := step_waitDone_isDummy input state
  have stateNext := step_waitDone_state input state
  rw [done] at stateNext dummyNext
  cases isDone : (line.master.txRx.rxSignals (line.master.txRxInput input)).done with
  | true =>
      rw [isDone, if_pos rfl] at stateNext dummyNext
      exact .rests (not_busy stateNext) dummyNext txNext
        ((rxSignals_done_iff rxState rxQuiet).mp isDone) observer
  | false =>
      rw [isDone, if_neg Bool.false_ne_true] at stateNext dummyNext
      exact .discards stateNext (dummyNext.trans isDummy)
        ((step_waitDone_isFul input state).trans isFul)
        txNext (rxSignals_stays rxState rxQuiet isDone) observer

/-- A cycle of a check, which hands nothing over. -/
theorem cycle_checks (state : line.master.ctrl.state = .waitCheck)
    (isDummy : line.master.ctrl.isDummy = false) (txState : line.master.txRx.txState = .idle)
    (rxState : line.master.txRx.rxState = .receive) (unused : line.observer = .unused) :
    RxCycle line input := by
  obtain ⟨txGiven, rxGiven⟩ := txRxInput_waitCheck state input
  have txQuiet : (line.master.txRxInput input).tx.start = false := by rw [txGiven]; rfl
  have rxQuiet : (line.master.txRxInput input).rx.start = false := by rw [rxGiven]; rfl
  have tx := txSignals_resting txState txQuiet
  have idle : line.master.ctrl.state ≠ .idle := by rw [state]; intro same; cases same
  have signals : line.master.signals input =
      line.master.ctrl.waitCheck (line.master.ctrlInput input) := by
    rw [SpiMaster.signals, SpimCtrl.signals, state]
  have txNext : (line.step input).master.txRx.txState = .idle := txState_resting txState txQuiet
  have observer := observed_busy input unused idle
  refine .of_unused unused ?_ ?_
  · rw [signals, SpimCtrl.waitCheck]
    split <;> rfl
  · have dummyNext : (line.step input).master.ctrl.isDummy = false := by
      change (line.master.signals input).isDummy = false
      rw [signals, SpimCtrl.waitCheck]
      split
      · rfl
      · exact isDummy
    have stateNext : (line.step input).master.ctrl.state =
        if (line.master.txRx.rxSignals (line.master.txRxInput input)).done then .idle
        else .waitCheck := by
      change (line.master.signals input).stateNext = _
      rw [signals, SpimCtrl.waitCheck]
      change (if (line.master.txRx.rxSignals (line.master.txRxInput input)).done = true then
        _ else _ : CtrlSignals).stateNext = _
      split
      · rfl
      · exact state
    cases isDone : (line.master.txRx.rxSignals (line.master.txRxInput input)).done with
    | true =>
        rw [isDone, if_pos rfl] at stateNext
        exact .rests (not_busy stateNext) dummyNext txNext
          ((rxSignals_done_iff rxState rxQuiet).mp isDone) observer
    | false =>
        rw [isDone, if_neg Bool.false_ne_true] at stateNext
        exact .checks stateNext dummyNext txNext (rxSignals_stays rxState rxQuiet isDone) observer

/-- A cycle of a command whose clock is not started, because the serializer still
follows the transmitter. -/
theorem cycle_stands {command : BitVec 32} (ctrl : line.master.ctrl.InRead command)
    (isFul : line.master.txRx.isFul = true) (txState : line.master.txRx.txState = .idle)
    (rxState : line.master.txRx.rxState = .receive)
    (observes : line.observer = { command := some command, words := 0, bits := 0 }) :
    RxCycle line input := by
  have state := ctrl.state
  have given := txRxInput_waitDone state input
  have txQuiet : (line.master.txRxInput input).tx.start = false := by rw [given]; rfl
  have tx := txSignals_resting txState txQuiet
  have rx := rxSignals_stands rxState isFul txState txQuiet
  have stopped : line.clocked input = false := by
    rw [RxLine.clocked, TxRx.clken, TxRx.fullDuplex, isFul, Bool.or_true, if_pos rfl, tx]
    rfl
  have noEnd : line.endsWord input command = false := by
    rw [RxLine.endsWord, stopped, Bool.false_and]
  have goesOn : line.master.ctrl.done (line.master.ctrlInput input) = false := by
    rw [done_single ctrl.isFul]
    simp only [SpiMaster.output, tx, rx]
    rfl
  have stays : line.ends input = false := by
    rw [RxLine.ends, signals_waitDone state, goesOn]
    rfl
  refine ⟨?_, ?_, ?_⟩
  · rw [RxLine.wordReceived, SpiMaster.wordReceived, signals_waitDone state, RxLine.wordCompleted,
      observes]
    have silent : (line.master.output input).rxDataValid = false := by
      rw [SpiMaster.output, rx]
      rfl
    have incomplete : ¬line.endsData input command := by
      rw [RxLine.endsData, noEnd]
      intro both
      cases both.1
    simp only [silent, Bool.and_false, Bool.false_and, Bool.false_eq_true, if_false,
      if_neg incomplete]
  · exact leavesNothing_of_stays stays
  · have stateNext := step_waitDone_state input state
    have dummyNext := step_waitDone_isDummy input state
    rw [goesOn, if_neg Bool.false_ne_true] at stateNext dummyNext
    refine .stands command ⟨stateNext, dummyNext.trans ctrl.isDummy,
      (step_waitDone_isFul input state).trans ctrl.isFul,
      (step_waitDone_qpi input state).trans ctrl.qpi⟩
      ?_ ?_ ?_ ?_
    · change (line.master.txRx.step (line.master.txRxInput input)).isFul = true
      simp [TxRx.step, txQuiet, rx, isFul, TxRx.rxDefaults]
    · exact txState_resting txState txQuiet
    · change (line.master.txRx.rxSignals (line.master.txRxInput input)).stateNext = .receive
      rw [rx]
      exact rxState
    · change line.observed input = _
      simp only [RxLine.observed, observes, stays, RxLine.counted, noEnd, stopped,
        Bool.false_eq_true,
        if_false]

variable {command : BitVec 32} {word bit : Nat}

/-- The data word is handed over when it is complete. -/
theorem handed_of_complete (state : line.master.ctrl.state = .waitDone)
    (isDummy : line.master.ctrl.isDummy = false)
    (observes : line.observer = { command := some command, words := word, bits := bit })
    (valid : (line.master.output input).rxDataValid = true ↔ line.endsData input command)
    (data : (line.master.output input).rxDataValid = true →
      (line.master.output input).rxData = line.master.txRx.dataRx (line.master.txRxInput input))
    (takes : line.TakesWords input) : line.wordReceived input = line.wordCompleted input := by
  have ready : line.endsData input command → input.udmaRxDataReady = true :=
    takes.2 command (by rw [observes]; rfl)
  rw [RxLine.wordReceived, SpiMaster.wordReceived, signals_waitDone state, RxLine.wordCompleted,
    observes]
  simp only [isDummy, Bool.not_false, Bool.true_and]
  cases given : (line.master.output input).rxDataValid with
  | true =>
      have complete := valid.mp given
      rw [ready complete, Bool.true_and, if_pos rfl, if_pos complete, data given]
  | false =>
      have incomplete : ¬line.endsData input command := fun complete => by
        rw [valid.mpr complete] at given
        cases given
      rw [Bool.false_and, if_neg Bool.false_ne_true, if_neg incomplete]

/-- Nothing is handed over before a word ends. -/
theorem handed_of_silent (state : line.master.ctrl.state = .waitDone)
    (isDummy : line.master.ctrl.isDummy = false)
    (observes : line.observer = { command := some command, words := word, bits := bit })
    (silent : (line.master.output input).rxDataValid = false)
    (noEnd : line.endsWord input command = false) (takes : line.TakesWords input) :
    line.wordReceived input = line.wordCompleted input := by
  have quiet : (line.master.output input).rxDataValid ≠ true := Bool.eq_false_iff.mp silent
  refine handed_of_complete state isDummy observes ?_ (fun valid => absurd valid quiet) takes
  rw [RxLine.endsData, noEnd]
  exact ⟨fun valid => absurd valid quiet, fun both => absurd both.1 Bool.false_ne_true⟩

/-- The clocks of a command lead the observer on. -/
theorem endsWord_of_clocked (clocked : line.clocked input = true)
    (observes : line.observer = { command := some command, words := word, bits := bit })
    (inWord : bit + lanes command ≤ wordBits command) :
    line.endsWord input command = decide (bit + lanes command = wordBits command) := by
  rw [RxLine.endsWord, clocked, Bool.true_and, observes, decide_eq_decide]
  exact ⟨fun reached => Nat.le_antisymm inWord reached, fun reached => Nat.le_of_eq reached.symm⟩

/-- A data word is complete with the last word of a transfer. -/
theorem endsData_iff (clocked : line.clocked input = true)
    (observes : line.observer = { command := some command, words := word, bits := bit })
    (ends : bit + lanes command = wordBits command) :
    line.endsData input command ↔ word % perTransfer command + 1 = perTransfer command := by
  have reached := endsWord_of_clocked clocked observes (Nat.le_of_eq ends)
  rw [decide_eq_true ends] at reached
  rw [RxLine.endsData, reached, observes]
  exact (and_iff_right rfl).trans (begins_transfer_iff command word)

/-- What the serializer gets during a command that only receives. -/
theorem reads_inRead (ctrl : line.master.ctrl.InRead command) (input : MasterInput) :
    Reads command (line.master.txRxInput input) := by
  rw [txRxInput_waitDone ctrl.state]
  exact ⟨rfl, rfl, ctrl.qpi⟩

/-- The interpreter goes on with a command that only receives. -/
theorem inRead_step (ctrl : line.master.ctrl.InRead command)
    (goesOn : line.master.ctrl.done (line.master.ctrlInput input) = false) :
    (line.step input).master.ctrl.InRead command := by
  have stateNext := step_waitDone_state input ctrl.state
  have dummyNext := step_waitDone_isDummy input ctrl.state
  rw [goesOn, if_neg Bool.false_ne_true] at stateNext dummyNext
  exact ⟨stateNext, dummyNext.trans ctrl.isDummy,
    (step_waitDone_isFul input ctrl.state).trans ctrl.isFul,
    (step_waitDone_qpi input ctrl.state).trans ctrl.qpi⟩

/-- The observer goes on with a command. -/
theorem observed_goesOn (state : line.master.ctrl.state = .waitDone)
    (observes : line.observer = { command := some command, words := word, bits := bit })
    (goesOn : line.master.ctrl.done (line.master.ctrlInput input) = false) :
    line.ends input = false ∧ (line.step input).observer =
      { command := some command, words := (line.counted input command).1
        bits := (line.counted input command).2 } := by
  have stays : line.ends input = false := by
    rw [RxLine.ends, signals_waitDone state, goesOn]
    rfl
  refine ⟨stays, ?_⟩
  change line.observed input = _
  simp only [RxLine.observed, observes, stays, Bool.false_eq_true, if_false]

/-- The observer forgets a command that ends. -/
theorem observed_ends (state : line.master.ctrl.state = .waitDone)
    (observes : line.observer = { command := some command, words := word, bits := bit })
    (done : line.master.ctrl.done (line.master.ctrlInput input) = true) :
    (line.step input).observer = .unused := by
  have leaves : line.ends input = true := by
    rw [RxLine.ends, signals_waitDone state, done]
    rfl
  change line.observed input = _
  simp only [RxLine.observed, observes, leaves, if_true]
  rfl

/-- The cycle that ends a command: its data words are complete, and the master rests. -/
theorem RxCycle.of_lastCycle (state : line.master.ctrl.state = .waitDone)
    (observes : line.observer = { command := some command, words := word, bits := bit })
    (whole : perTransfer command ∣ wordCount command)
    (counted : line.counted input command = (wordCount command, 0))
    (done : line.master.ctrl.done (line.master.ctrlInput input) = true)
    (handed : line.wordReceived input = line.wordCompleted input)
    (txState : (line.step input).master.txRx.txState = .idle)
    (rxState : (line.step input).master.txRx.rxState = .idle) : RxCycle line input where
  handed := handed
  leaves := by
    intro other member _
    rw [observes] at member
    cases member
    rw [counted]
    exact ⟨rfl, Nat.mod_eq_zero_of_dvd whole⟩
  next := by
    have stateNext := step_waitDone_state input state
    have dummyNext := step_waitDone_isDummy input state
    rw [done, if_pos rfl] at stateNext dummyNext
    exact .rests (not_busy stateNext) dummyNext txState rxState (observed_ends state observes done)

/-- A cycle in which a word is clocked on one of several clocks. -/
theorem cycle_reads_inside (ctrl : line.master.ctrl.InRead command)
    (whole : perTransfer command ∣ wordCount command) (clocks : lanes command ∣ wordBits command)
    (several : lanes command < wordBits command)
    (position : RxAt command word bit line.master.txRx) (aligned : lanes command ∣ bit)
    (observes : line.observer = { command := some command, words := word, bits := bit })
    (more : bit + lanes command < wordBits command) (takes : line.TakesWords input) :
    RxCycle line input := by
  have reads := reads_inRead ctrl input
  have tx := position.txSignals reads
  have rx := position.rxSignals_inside reads more
  have clocked : line.clocked input = true := position.clken reads
  have goesOn : line.master.ctrl.done (line.master.ctrlInput input) = false := by
    rw [done_single ctrl.isFul]
    simp only [SpiMaster.output, tx, rx]
    rfl
  have noEnd := endsWord_of_clocked clocked observes (Nat.le_of_lt more)
  rw [decide_eq_false (Nat.ne_of_lt more)] at noEnd
  obtain ⟨stays, observer⟩ := observed_goesOn ctrl.state observes goesOn
  have fits : bit + lanes command + lanes command ≤ wordBits command := by
    obtain ⟨total, totalEq⟩ := clocks
    obtain ⟨steps, stepsEq⟩ := aligned
    rw [totalEq, stepsEq, ← Nat.mul_succ] at more ⊢
    rw [← Nat.mul_succ]
    exact Nat.mul_le_mul_left _ (Nat.lt_of_mul_lt_mul_left more)
  obtain ⟨next, rxClken⟩ := position.step_inside reads fits
  refine ⟨?_, ?_, ?_⟩
  · have silent : (line.master.output input).rxDataValid = false := by
      rw [SpiMaster.output, rx]
      rfl
    exact handed_of_silent ctrl.state ctrl.isDummy observes silent noEnd takes
  · exact leavesNothing_of_stays stays
  · refine .reads command word (bit + lanes command) (inRead_step ctrl goesOn) whole clocks several
      next (Nat.dvd_add aligned (Nat.dvd_refl _)) (Or.inl rxClken) ?_
    rw [observer, RxLine.counted, noEnd, if_neg Bool.false_ne_true, clocked, if_pos rfl, observes]

/-- A cycle that ends a word. -/
theorem cycle_reads_word (ctrl : line.master.ctrl.InRead command)
    (whole : perTransfer command ∣ wordCount command) (clocks : lanes command ∣ wordBits command)
    (several : lanes command < wordBits command)
    (position : RxAt command word bit line.master.txRx)
    (rxClken : line.master.txRx.rxClken = true)
    (observes : line.observer = { command := some command, words := word, bits := bit })
    (ends : bit + lanes command = wordBits command) (takes : line.TakesWords input) :
    RxCycle line input := by
  have reads := reads_inRead ctrl input
  have tx := position.txSignals reads
  have clocked : line.clocked input = true := position.clken reads
  have reached := endsWord_of_clocked clocked observes (Nat.le_of_eq ends)
  rw [decide_eq_true ends] at reached
  have counted : line.counted input command = (word + 1, 0) := by
    rw [RxLine.counted, reached, if_pos rfl, observes]
  have full : line.master.txRx.transfDone = true ↔ line.endsData input command := by
    rw [position.transfDone, decide_eq_true_iff, endsData_iff clocked observes ends]
  rcases Nat.lt_or_eq_of_le (Nat.succ_le_of_lt position.inside) with further | last
  · have rx := position.rxSignals_word reads rxClken ends further
    have goesOn : line.master.ctrl.done (line.master.ctrlInput input) = false := by
      rw [done_single ctrl.isFul]
      simp only [SpiMaster.output, tx, rx]
      rfl
    obtain ⟨stays, observer⟩ := observed_goesOn ctrl.state observes goesOn
    obtain ⟨next, rxClkenNext⟩ := position.step_word reads rxClken ends further
    refine ⟨?_, ?_, ?_⟩
    · refine handed_of_complete ctrl.state ctrl.isDummy observes ?_ ?_ takes
      · rw [SpiMaster.output, rx]
        exact full
      · intro valid
        rw [SpiMaster.output, rx] at valid ⊢
        exact if_pos valid
    · exact leavesNothing_of_stays stays
    · refine .reads command (word + 1) 0 (inRead_step ctrl goesOn) whole clocks several next
        (Nat.dvd_zero _) (Or.inl rxClkenNext) ?_
      rw [observer, counted]
  · have rx := position.rxSignals_last reads rxClken ends last
    have done : line.master.ctrl.done (line.master.ctrlInput input) = true := by
      rw [done_single ctrl.isFul]
      simp only [SpiMaster.output, tx, rx]
      rfl
    obtain ⟨txState, rxState⟩ := position.step_last reads rxClken ends last
    rw [show word + 1 = wordCount command from last] at counted
    refine .of_lastCycle ctrl.state observes whole counted done ?_ txState rxState
    refine handed_of_complete ctrl.state ctrl.isDummy observes ?_ ?_ takes
    · rw [SpiMaster.output, rx]
      exact full
    · intro valid
      rw [SpiMaster.output, rx] at valid ⊢
      exact if_pos valid

theorem continues_inBoth (ctrl : line.master.ctrl.InBoth) (input : MasterInput) :
    Continues (line.master.txRxInput input) := by
  rw [txRxInput_waitDone ctrl.state]
  exact ⟨rfl, rfl, ctrl.qpi, ctrl.qpi⟩

/-- A command in both directions ends when both are done. -/
theorem done_both (ctrl : line.master.ctrl.InBoth) (input : MasterInput) :
    line.master.ctrl.done (line.master.ctrlInput input) =
      ((line.master.output input).txDone && (line.master.output input).rxDone) := by
  rw [SpimCtrl.done, ctrl.isFul, ctrl.txDone, ctrl.rxDone, Bool.or_false, Bool.or_false, if_pos rfl]
  rfl

theorem inBoth_step (ctrl : line.master.ctrl.InBoth)
    {dataReady dataValid : Bool}
    (seen : AtBit.Seen line.master.txRx (line.master.txRxInput input) dataReady dataValid false) :
    line.master.ctrl.done (line.master.ctrlInput input) = false ∧
      (line.step input).master.ctrl.InBoth := by
  have goesOn : line.master.ctrl.done (line.master.ctrlInput input) = false := by
    rw [done_both ctrl, Bool.and_eq_false_iff]
    exact Or.inl seen.txDone
  have stateNext := step_waitDone_state input ctrl.state
  have dummyNext := step_waitDone_isDummy input ctrl.state
  rw [goesOn, if_neg Bool.false_ne_true] at stateNext dummyNext
  exact ⟨goesOn, stateNext, dummyNext.trans ctrl.isDummy,
    (step_waitDone_isFul input ctrl.state).trans ctrl.isFul,
    (step_waitDone_qpi input ctrl.state).trans ctrl.qpi, seen.txDone, seen.rxDone⟩

/-- The line has the clock of the transmitter. -/
theorem clocked_both (position : AtBit command word bit line.master.txRx) (input : MasterInput) :
    line.clocked input = (line.master.txRx.txSignals (line.master.txRxInput input)).clken := by
  rw [RxLine.clocked, TxRx.clken, position.follows, if_pos rfl]

/-- A cycle in which the transmitter waits for data. -/
theorem cycle_both_waits (ctrl : line.master.ctrl.InBoth)
    (isFull : spiCmd command = some .fullDupl) (whole : perTransfer command ∣ wordCount command)
    (position : AtBit command word bit line.master.txRx)
    (waits : line.master.txRx.txState = .waitData)
    (observes : line.observer = { command := some command, words := word, bits := bit })
    (takes : line.TakesWords input) : RxCycle line input := by
  obtain ⟨seen, next, txState, -, rxClken⟩ :=
    position.waitCycle (continues_inBoth ctrl input) waits
  obtain ⟨goesOn, ctrlNext⟩ := inBoth_step ctrl seen
  have stopped : line.clocked input = false := by
    rw [clocked_both position, AtBit.txSignals_wait waits, TxRx.txWaitData]
    split <;> rfl
  have noEnd : line.endsWord input command = false := by
    rw [RxLine.endsWord, stopped, Bool.false_and]
  obtain ⟨stays, observer⟩ := observed_goesOn ctrl.state observes goesOn
  refine ⟨?_, ?_, ?_⟩
  · exact handed_of_silent ctrl.state ctrl.isDummy observes seen.dataValid noEnd takes
  · exact leavesNothing_of_stays stays
  · refine .both command word bit ctrlNext isFull whole next ?_ ?_
    · cases offered : (line.master.txRxInput input).txDataValid with
      | true =>
          rw [offered, if_pos rfl] at txState
          exact Or.inr ⟨txState, rxClken⟩
      | false =>
          rw [offered, if_neg Bool.false_ne_true] at txState
          exact Or.inl txState
    · rw [observer, RxLine.counted, noEnd, stopped, if_neg Bool.false_ne_true,
        if_neg Bool.false_ne_true, observes]

/-- A cycle in which a bit is sent and received. -/
theorem cycle_both_sends (ctrl : line.master.ctrl.InBoth)
    (isFull : spiCmd command = some .fullDupl) (whole : perTransfer command ∣ wordCount command)
    (position : AtBit command word bit line.master.txRx)
    (sends : line.master.txRx.txState = .send) (clkenBefore : line.master.txRx.rxClken = true)
    (observes : line.observer = { command := some command, words := word, bits := bit })
    (takes : line.TakesWords input) : RxCycle line input := by
  have continues := continues_inBoth ctrl input
  have one := lanes_full isFull
  have inWord : bit + lanes command ≤ wordBits command := by
    rw [one]
    exact position.inWord
  have clocked : line.clocked input = true := by
    rw [clocked_both position, AtBit.txSignals_send sends, txSending_clken]
  have reached := endsWord_of_clocked clocked observes inWord
  rw [one] at reached
  rcases Nat.lt_or_eq_of_le (Nat.succ_le_of_lt position.inWord) with more | ends
  · obtain ⟨seen, next, txState, -, -, rxClken⟩ := position.insideCycle continues sends more
    obtain ⟨goesOn, ctrlNext⟩ := inBoth_step ctrl seen
    obtain ⟨stays, observer⟩ := observed_goesOn ctrl.state observes goesOn
    rw [decide_eq_false (Nat.ne_of_lt more)] at reached
    refine ⟨?_, ?_, ?_⟩
    · exact handed_of_silent ctrl.state ctrl.isDummy observes seen.dataValid reached takes
    · exact leavesNothing_of_stays stays
    · refine .both command word (bit + 1) ctrlNext isFull whole next (Or.inr ⟨txState, rxClken⟩) ?_
      rw [observer, RxLine.counted, reached, if_neg Bool.false_ne_true, clocked,
        if_pos rfl, observes,
        one]
  · have full : line.master.txRx.transfDone = true ↔ line.endsData input command := by
      rw [position.transfDone, decide_eq_true_iff,
        endsData_iff clocked observes (one.symm ▸ ends)]
    rw [decide_eq_true ends] at reached
    have counted : line.counted input command = (word + 1, 0) := by
      rw [RxLine.counted, reached, if_pos rfl, observes]
    rcases Nat.lt_or_eq_of_le (Nat.succ_le_of_lt position.inside) with further | last
    · obtain ⟨seen, data, next, txState, -, -, rxClken⟩ :=
        position.wordCycle continues sends clkenBefore ends further
      obtain ⟨goesOn, ctrlNext⟩ := inBoth_step ctrl seen
      obtain ⟨stays, observer⟩ := observed_goesOn ctrl.state observes goesOn
      refine ⟨?_, ?_, ?_⟩
      · refine handed_of_complete ctrl.state ctrl.isDummy observes ?_ ?_ takes
        · rw [← full]
          exact iff_of_eq (congrArg (· = true) seen.dataValid)
        · intro valid
          exact data (seen.dataValid.symm.trans valid)
      · exact leavesNothing_of_stays stays
      · refine .both command (word + 1) 0 ctrlNext isFull whole next ?_ ?_
        · change (line.step input).master.txRx.txState = _ at txState
          rw [txState]
          split
          · exact Or.inl rfl
          · exact Or.inr ⟨rfl, rxClken⟩
        · rw [observer, counted]
    · obtain ⟨seen, data, txState, rxState, -⟩ :=
        position.lastCycle whole continues sends clkenBefore ends last
      have done : line.master.ctrl.done (line.master.ctrlInput input) = true := by
        rw [done_both ctrl, Bool.and_eq_true]
        exact ⟨seen.txDone, seen.rxDone⟩
      have complete : line.endsData input command := by
        rw [endsData_iff clocked observes (one.symm ▸ ends)]
        exact ends_transfer whole last
      rw [show word + 1 = wordCount command from last] at counted
      refine .of_lastCycle ctrl.state observes whole counted done ?_ txState rxState
      refine handed_of_complete ctrl.state ctrl.isDummy observes ?_ ?_ takes
      · exact ⟨fun _ => complete, fun _ => seen.dataValid⟩
      · intro _
        exact data

end Cycle

/-! ## Between commands -/

/-- Signals that start nothing and hand nothing over. -/
structure CtrlSignals.StartsNothing (signals : CtrlSignals) : Prop where
  stateNext : signals.stateNext.Free
  isDummy : signals.isDummy = false
  txStart : signals.tx.start = false
  rxStart : signals.rx.start = false
  silent : signals.udmaRxDataValid = false

section Resting

variable {line : RxLine} {input : MasterInput} {ctrl : SpimCtrl}

/-- What the interpreter drives before a command is decoded. -/
theorem taken_fields (ctrl : SpimCtrl) :
    ctrl.taken.tx = ctrl.defaults.tx ∧ ctrl.taken.rx = ctrl.defaults.rx ∧
      ctrl.taken.isDummy = ctrl.isDummy ∧ ctrl.taken.isFul = false ∧
      ctrl.taken.udmaRxDataValid = false ∧ ctrl.taken.txDataValid = false ∧
      ctrl.taken.stateNext = ctrl.state := by
  simp only [SpimCtrl.taken]
  split
  · exact ⟨rfl, rfl, rfl, rfl, rfl, rfl, rfl⟩
  · split
    · exact ⟨rfl, rfl, rfl, rfl, rfl, rfl, rfl⟩
    · split <;> exact ⟨rfl, rfl, rfl, rfl, rfl, rfl, rfl⟩

/-- The signals of an interpreter that does not wait for the serializer do not depend
on it. -/
theorem signals_eq_setup {master : SpiMaster} (state : master.ctrl.state.Free) :
    master.signals input = master.setup input := by
  cases kind : master.ctrl.state with
  | waitDone | waitCheck =>
      rw [kind] at state
      exact state.elim
  | idle | waitEvent | doRepeat =>
      simp only [SpiMaster.signals, SpiMaster.setup, SpimCtrl.signals, kind]
      rfl
  | waitCycle | clearCs =>
      simp only [SpiMaster.signals, SpiMaster.setup, SpimCtrl.signals, kind]

/-- The commands that use the serializer. -/
def Transfers (cmd : Option SpiCmd) : Prop :=
  cmd = some .sendCmd ∨ cmd = some .txData ∨ cmd = some .dummy ∨ cmd = some .rxCheck ∨
    cmd = some .rxData ∨ cmd = some .fullDupl

/-- Other commands start nothing. -/
theorem execute_startsNothing {base : CtrlSignals} (quiet : base.StartsNothing)
    {word : BitVec 32} (other : ¬Transfers (spiCmd word)) :
    (SpimCtrl.execute base word).StartsNothing := by
  cases cmd : spiCmd word with
  | none =>
      rw [SpimCtrl.execute, cmd]
      exact quiet
  | some code =>
      rw [cmd] at other
      cases code with
      | sendCmd | txData | dummy | rxCheck | rxData | fullDupl =>
          exact absurd (by simp [Transfers]) other
      | cfg | sot | rpt =>
          rw [SpimCtrl.execute, cmd]
          exact { quiet with stateNext := trivial }
      | wait =>
          rw [SpimCtrl.execute, cmd]
          simp only
          split
          · exact { quiet with stateNext := trivial }
          · split
            · exact { quiet with stateNext := trivial }
            · exact quiet
      | eot =>
          rw [SpimCtrl.execute, cmd]
          simp only
          split <;> exact { quiet with stateNext := trivial }
      | rptEnd | setupUca | setupUcs =>
          rw [SpimCtrl.execute, cmd]
          exact quiet

/-- The interpreter decodes a command that uses the serializer. -/
def Decodes (ctrl : SpimCtrl) (input : CtrlInput) : Prop :=
  ctrl.state = .idle ∧ ctrl.cmdAvailable input = true ∧ Transfers (spiCmd (ctrl.word input))

/-- An interpreter that decodes no such command starts nothing. -/
theorem signals_startsNothing (state : ctrl.state.Free) (isDummy : ctrl.isDummy = false)
    {input : CtrlInput} (other : ¬Decodes ctrl input) :
    (ctrl.signals input).StartsNothing := by
  have defaults : ctrl.defaults.StartsNothing := ⟨state, isDummy, rfl, rfl, rfl⟩
  cases kind : ctrl.state with
  | waitDone | waitCheck =>
      rw [kind] at state
      exact state.elim
  | idle =>
      simp only [SpimCtrl.signals, kind, SpimCtrl.idle]
      split
      · next available =>
          obtain ⟨tx, rx, dummy, _, silent, _, same⟩ := taken_fields ctrl
          refine execute_startsNothing ⟨?_, dummy.trans isDummy, ?_, ?_, silent⟩
            fun transfers => other ⟨kind, available, transfers⟩
          · rw [same]
            exact state
          · rw [tx]
            rfl
          · rw [rx]
            rfl
      · exact { defaults with }
  | waitEvent | waitCycle =>
      simp only [SpimCtrl.signals, kind]
      split
      · exact { defaults with stateNext := trivial }
      · exact defaults
  | clearCs =>
      simp only [SpimCtrl.signals, kind]
      exact { defaults with stateNext := trivial }
  | doRepeat =>
      simp only [SpimCtrl.signals, kind, SpimCtrl.doRepeat]
      split
      · split
        · exact { defaults with stateNext := trivial }
        · exact { defaults with }
      · exact defaults

/-- A cycle between commands in which no transfer starts. -/
theorem cycle_quiet
    (state : line.master.ctrl.state.Free)
    (isDummy : line.master.ctrl.isDummy = false) (txState : line.master.txRx.txState = .idle)
    (rxState : line.master.txRx.rxState = .idle) (unused : line.observer = .unused)
    (other : ¬Decodes line.master.ctrl (line.master.ctrlInput input)) : RxCycle line input := by
  have quiet := signals_startsNothing state isDummy other
  have same : line.master.signals input = line.master.setup input := signals_eq_setup state
  change (line.master.signals input).StartsNothing at quiet
  have txQuiet : (line.master.txRxInput input).tx.start = false := by
    rw [SpiMaster.txRxInput, ← same]
    exact quiet.txStart
  have rxQuiet : (line.master.txRxInput input).rx.start = false := by
    rw [SpiMaster.txRxInput, ← same]
    exact quiet.rxStart
  have none : line.starts input = none := by
    rw [RxLine.starts, if_neg]
    rintro ⟨idle, available, receives⟩
    refine other ⟨idle, available, ?_⟩
    rcases receives with read | full
    · rw [Transfers, read]
      decide
    · rw [Transfers, full]
      decide
  refine .of_unused unused quiet.silent (.rests quiet.stateNext quiet.isDummy
    (txState_resting txState txQuiet) (rxState_resting rxState rxQuiet) ?_)
  change line.observed input = _
  rw [observed_unused unused, none]
  rfl

/-- The signals of a cycle in which a command is decoded. -/
theorem signals_decoded {master : SpiMaster} (idle : master.ctrl.state = .idle)
    (available : master.ctrl.cmdAvailable (master.ctrlInput input) = true) :
    master.signals input =
      SpimCtrl.execute master.ctrl.taken (master.ctrl.word (master.ctrlInput input)) := by
  rw [SpiMaster.signals, SpimCtrl.signals, idle]
  simp only [SpimCtrl.idle]
  rw [if_pos available]

/-- A cycle in which a transfer starts hands nothing over. -/
theorem RxCycle.of_start (unused : line.observer = .unused)
    (silent : (line.master.signals input).udmaRxDataValid = false)
    (next : (line.step input).observer = { command := line.starts input, words := 0, bits := 0 } →
      RxStage (line.step input)) : RxCycle line input :=
  .of_unused unused silent (next (observed_unused unused))

/-- The transmitter is active after it is started. -/
theorem step_txStart {txRx : TxRx} {input : TxRxInput} (rests : txRx.txState = .idle)
    (starts : input.tx.start = true) : (txRx.step input).txState ≠ .idle := by
  change (txRx.txSignals input).stateNext ≠ .idle
  simp only [TxRx.txSignals, rests, TxRx.txWaiting, starts, if_true, TxRx.load]
  split <;> (intro same; cases same)

/-- The receiver is active after it is started. -/
theorem step_rxStart {txRx : TxRx} {input : TxRxInput} (rests : txRx.rxState = .idle)
    (starts : input.rx.start = true) : (txRx.step input).rxState = .receive := by
  change (txRx.rxSignals input).stateNext = .receive
  simp [TxRx.rxSignals, rests, TxRx.rxWaiting, starts]

/-- The setup of a command that only receives. -/
def rxDataSetup (command : BitVec 32) : TransferSetup :=
  { start := true, size := cdSizeLong command, bitsword := cdWordsize command
    wordtransf := wordstransf command, lsbfirst := cdCfgLsb command, qpi := cdCfgQpi command }

/-- A command that only receives starts at its first bit, unless the serializer still
follows the transmitter. -/
theorem step_rxData {command : BitVec 32} {txRx : TxRx} {input : TxRxInput}
    (isRx : spiCmd command = some .rxData) (txState : txRx.txState = .idle)
    (rxState : txRx.rxState = .idle) (txQuiet : input.tx.start = false)
    (setup : input.rx = rxDataSetup command) (started : RxLine.WellStarted txRx command) :
    (txRx.step input).txState = .idle ∧ (txRx.step input).rxState = .receive ∧
      ((txRx.step input).isFul = true ∨ RxAt command 0 0 (txRx.step input)) := by
  have tx := txSignals_resting txState txQuiet
  have rx : txRx.rxSignals input =
      { txRx.rxDefaults with
        mode := TxRx.receiveMode input, sampleIn := true, stateNext := .receive
        counterBits := firstBit (cdCfgQpi command), sampleBits := true
        isLast := decide (cdSizeLong command = 0) } := by
    simp [TxRx.rxSignals, rxState, TxRx.rxWaiting, setup, rxDataSetup]
  have txNext : (txRx.step input).txState = .idle := by
    rw [TxRx.step, tx]
    exact txState
  have rxNext : (txRx.step input).rxState = .receive := by rw [TxRx.step, rx]
  refine ⟨txNext, rxNext, ?_⟩
  have isFul : (txRx.step input).isFul = txRx.isFul := by
    simp [TxRx.step, txQuiet, rx, TxRx.rxDefaults]
  cases full : txRx.isFul with
  | true => exact Or.inl (isFul.trans full)
  | false =>
      right
      have sampled : ∀ {Field : Type} (field : TransferSetup → Field) (value : Field),
          txRx.sampled input field value = field (rxDataSetup command) := by
        intro Field field value
        simp [TxRx.sampled, tx, rx, setup, TxRx.txDefaults]
      have isLast : decide (cdSizeLong command = 0) = decide (0 + 1 = wordCount command) := by
        rw [decide_eq_decide, ← BitVec.toNat_inj]
        change (cdSizeLong command).toNat = 0 ↔ 0 + 1 = (cdSizeLong command).toNat + 1
        omega
      refine ⟨isRx, txNext, rxNext, isFul.trans full, sampled .., sampled .., wordCount_pos command,
        ?_, ?_, ?_, ?_, ?_⟩
      · rw [Nat.zero_add]
        exact Nat.le_of_lt (started.several isRx)
      · rw [← isLast, TxRx.step, rx]
      · rw [Nat.sub_zero, ← sizeCount_toNat]
        exact congrArg BitVec.toNat (sampled (fun setup => sizeCount setup.size) _)
      · rw [Nat.zero_add, ← toNat_firstBit isRx, TxRx.step, tx, rx]
        rfl
      · rw [Nat.zero_mod, TxRx.step, tx, rx]
        exact congrArg BitVec.toNat started.fresh

/-- The command that starts, if it receives data. -/
theorem starts_decoded (idle : line.master.ctrl.state = .idle)
    (available : line.master.ctrl.cmdAvailable (line.master.ctrlInput input) = true)
    {cmd : SpiCmd}
    (decoded : spiCmd (line.master.ctrl.word (line.master.ctrlInput input)) = some cmd) :
    line.starts input =
      if cmd = .rxData ∨ cmd = .fullDupl then
        some (line.master.ctrl.word (line.master.ctrlInput input))
      else none := by
  simp only [RxLine.starts, idle, available, decoded, true_and, Option.some.injEq]

/-- A cycle in which a command is decoded that uses the serializer. -/
theorem cycle_decodes (idle : line.master.ctrl.state = .idle)
    (isDummy : line.master.ctrl.isDummy = false) (txState : line.master.txRx.txState = .idle)
    (rxState : line.master.txRx.rxState = .idle) (unused : line.observer = .unused)
    (available : line.master.ctrl.cmdAvailable (line.master.ctrlInput input) = true)
    (transfers : Transfers (spiCmd (line.master.ctrl.word (line.master.ctrlInput input))))
    (takes : line.TakesWords input) : RxCycle line input := by
  have signals := signals_decoded idle available
  have setup := (signals_eq_setup (not_busy idle)).symm.trans signals
  have txGiven : (line.master.txRxInput input).tx = _ := congrArg CtrlSignals.tx setup
  have rxGiven : (line.master.txRxInput input).rx = _ := congrArg CtrlSignals.rx setup
  have dataGiven : (line.master.txRxInput input).txDataValid = _ :=
    congrArg CtrlSignals.txDataValid setup
  obtain ⟨txTaken, rxTaken, dummyTaken, fulTaken, silentTaken, noDataTaken, -⟩ :=
    taken_fields line.master.ctrl
  have stateNext : (line.step input).master.ctrl.state =
      (line.master.signals input).stateNext := rfl
  have dummyNext : (line.step input).master.ctrl.isDummy =
      (line.master.signals input).isDummy := rfl
  have fulNext : (line.step input).master.ctrl.isFul = (line.master.signals input).isFul := rfl
  have qpiNext : (line.step input).master.ctrl.qpi =
      if (line.master.signals input).updateQpi then (line.master.signals input).qpi
      else line.master.ctrl.qpi := rfl
  have txRxNext : (line.step input).master.txRx =
      line.master.txRx.step (line.master.txRxInput input) :=
    rfl
  rw [signals] at stateNext dummyNext fulNext qpiNext
  have quietTx : line.master.ctrl.taken.tx.start = false := by rw [txTaken]; rfl
  have quietRx : line.master.ctrl.taken.rx.start = false := by rw [rxTaken]; rfl
  rcases transfers with cmd | cmd | cmd | cmd | cmd | cmd
  · have starts := starts_decoded idle available cmd
    rw [SpimCtrl.execute, cmd] at stateNext dummyNext fulNext signals txGiven rxGiven dataGiven
    refine .of_start unused (by rw [signals]; exact silentTaken) fun observer => ?_
    have rxQuiet : (line.master.txRxInput input).rx.start = false := by rw [rxGiven]; exact quietRx
    exact .sends stateNext (dummyNext.trans (dummyTaken.trans isDummy)) (fulNext.trans fulTaken)
      (step_txStart txState (by rw [txGiven])) (rxState_resting rxState rxQuiet)
      (observer.trans (by rw [starts]; rfl))
  · have starts := starts_decoded idle available cmd
    rw [SpimCtrl.execute, cmd] at stateNext dummyNext fulNext signals txGiven rxGiven dataGiven
    refine .of_start unused (by rw [signals]; exact silentTaken) fun observer => ?_
    have rxQuiet : (line.master.txRxInput input).rx.start = false := by rw [rxGiven]; exact quietRx
    exact .sends stateNext (dummyNext.trans (dummyTaken.trans isDummy)) (fulNext.trans fulTaken)
      (step_txStart txState (by rw [txGiven])) (rxState_resting rxState rxQuiet)
      (observer.trans (by rw [starts]; rfl))
  · have starts := starts_decoded idle available cmd
    rw [SpimCtrl.execute, cmd] at stateNext dummyNext fulNext signals txGiven rxGiven dataGiven
    refine .of_start unused (by rw [signals]; exact silentTaken) fun observer => ?_
    have txQuiet : (line.master.txRxInput input).tx.start = false := by rw [txGiven]; exact quietTx
    exact .discards stateNext dummyNext (fulNext.trans fulTaken) (txState_resting txState txQuiet)
      (step_rxStart rxState (by rw [rxGiven])) (observer.trans (by rw [starts]; rfl))
  · have starts := starts_decoded idle available cmd
    rw [SpimCtrl.execute, cmd] at stateNext dummyNext fulNext signals txGiven rxGiven dataGiven
    refine .of_start unused (by rw [signals]; exact silentTaken) fun observer => ?_
    have txQuiet : (line.master.txRxInput input).tx.start = false := by rw [txGiven]; exact quietTx
    exact .checks stateNext (dummyNext.trans (dummyTaken.trans isDummy))
      (txState_resting txState txQuiet) (step_rxStart rxState (by rw [rxGiven]))
      (observer.trans (by rw [starts]; rfl))
  · have starts := starts_decoded idle available cmd
    rw [if_pos (Or.inl rfl)] at starts
    have started := takes.1 _ starts
    rw [SpimCtrl.execute, cmd]
      at stateNext dummyNext fulNext qpiNext signals txGiven rxGiven dataGiven
    refine .of_start unused (by rw [signals]; exact silentTaken) fun observer => ?_
    have ctrl : (line.step input).master.ctrl.InRead
        (line.master.ctrl.word (line.master.ctrlInput input)) :=
      ⟨stateNext, dummyNext.trans (dummyTaken.trans isDummy), fulNext.trans fulTaken, qpiNext⟩
    rw [starts] at observer
    obtain ⟨txNext, rxNext, position⟩ := step_rxData cmd txState rxState
      (by rw [txGiven]; exact quietTx) rxGiven started
    rcases position with follows | position
    · exact .stands _ ctrl follows txNext rxNext observer
    · exact .reads _ 0 0 ctrl started.whole started.clocks (started.several cmd) position
        (Nat.dvd_zero _) (Or.inr ⟨rfl, rfl⟩) observer
  · have starts := starts_decoded idle available cmd
    rw [if_pos (Or.inr rfl)] at starts
    have started := takes.1 _ starts
    rw [SpimCtrl.execute, cmd]
      at stateNext dummyNext fulNext qpiNext signals txGiven rxGiven dataGiven
    refine .of_start unused (by rw [signals]; exact silentTaken) fun observer => ?_
    rw [starts] at observer
    have rest : AtRest line.master.txRx := ⟨txState, rxState, started.fresh⟩
    have setup : Starts (line.master.ctrl.word (line.master.ctrlInput input))
        (line.master.txRxInput input) :=
      ⟨txGiven, rxGiven, dataGiven.trans noDataTaken⟩
    have seen := rest.seen_start setup
    obtain ⟨position, waits⟩ := rest.step_start setup
    exact .both _ 0 0 ⟨stateNext, dummyNext.trans (dummyTaken.trans isDummy), fulNext, qpiNext,
      seen.txDone, seen.rxDone⟩ cmd started.whole position (Or.inl waits) observer

end Resting

/-- What one cycle of a well-used master does. -/
theorem RxStage.cycle {line : RxLine} (stage : RxStage line) {input : MasterInput}
    (takes : line.TakesWords input) : RxCycle line input := by
  cases stage with
  | rests state isDummy txState rxState unused =>
      by_cases decodes : Decodes line.master.ctrl (line.master.ctrlInput input)
      · obtain ⟨idle, available, transfers⟩ := decodes
        exact cycle_decodes idle isDummy txState rxState unused available transfers takes
      · exact cycle_quiet state isDummy txState rxState unused decodes
  | sends state isDummy isFul txState rxState unused =>
      exact cycle_sends state isDummy isFul txState rxState unused
  | discards state isDummy isFul txState rxState unused =>
      exact cycle_discards state isDummy isFul txState rxState unused
  | checks state isDummy txState rxState unused =>
      exact cycle_checks state isDummy txState rxState unused
  | reads command word bit ctrl whole clocks several position aligned clocked observes =>
      rcases Nat.lt_or_eq_of_le position.inWord with more | ends
      · exact cycle_reads_inside ctrl whole clocks several position aligned observes more takes
      · have notFirst : line.master.txRx.rxClken = true := by
          rcases clocked with clocked | ⟨first, _⟩
          · exact clocked
          · rw [first, Nat.zero_add] at ends
            exact absurd ends (Nat.ne_of_lt several)
        exact cycle_reads_word ctrl whole clocks several position notFirst observes ends takes
  | stands command ctrl isFul txState rxState observes =>
      exact cycle_stands ctrl isFul txState rxState observes
  | both command word bit ctrl isFull whole position active observes =>
      rcases active with waits | ⟨sends, clocked⟩
      · exact cycle_both_waits ctrl isFull whole position waits observes takes
      · exact cycle_both_sends ctrl isFull whole position sends clocked observes takes

/-- The words completed on the line and those handed over, oldest first. -/
def wordsCompleted (inputs : List MasterInput) : List (BitVec 32) :=
  rxLineMachine.observed RxLine.wordCompleted inputs

def wordsHandedOver (inputs : List MasterInput) : List (BitVec 32) :=
  rxLineMachine.observed RxLine.wordReceived inputs

/-- In every run in which commands that receive data are well started and the FIFO is
ready whenever a data word is complete: exactly the words completed on the line are
handed over, in order, and a command leaves nothing behind. -/
theorem spim_losesNothing (inputs : List MasterInput)
    (takes : rxLineMachine.Always RxLine.TakesWords inputs) :
    wordsHandedOver inputs = wordsCompleted inputs ∧
      rxLineMachine.Always RxLine.LeavesNothing inputs := by
  have stages : wordsHandedOver inputs = wordsCompleted inputs ∧
      rxLineMachine.Always RxLine.LeavesNothing inputs ∧ RxStage (rxLineMachine.run inputs) := by
    refine Machine.run_induction (motive := fun inputs line =>
      wordsHandedOver inputs = wordsCompleted inputs ∧
        rxLineMachine.Always RxLine.LeavesNothing inputs ∧ RxStage line) ?_ ?_ inputs takes
    · exact ⟨rfl, Machine.always_nil .., .rests trivial rfl rfl rfl rfl⟩
    · rintro inputs input _ ⟨same, leaves, stage⟩ takes
      have cycle := stage.cycle takes
      refine ⟨?_, (Machine.always_snoc ..).mpr ⟨leaves, cycle.leaves⟩, cycle.next⟩
      rw [wordsHandedOver, wordsCompleted, Machine.observed_snoc, Machine.observed_snoc,
        cycle.handed]
      exact congrArg (· ++ _) same
  exact ⟨stages.1, stages.2.1⟩

/-- A cycle with a command, or with a high line and a FIFO that is ready or not. -/
def readCycle (command : Option (BitVec 32)) (ready : Bool) : MasterInput :=
  { event := 0, udmaCmd := command.getD 0, udmaCmdValid := command.isSome, udmaTxData := 0
    udmaTxDataValid := false, udmaRxDataReady := ready, sdi := ⟨false, true, false, false⟩ }

/-- While a command is underway, no other one starts. -/
theorem takesWords_busy {line : RxLine} {input : MasterInput}
    (busy : line.master.ctrl.state = .waitDone)
    (ready : ∀ command ∈ line.observer.command, line.endsData input command →
      input.udmaRxDataReady = true) : line.TakesWords input := by
  refine ⟨?_, ready⟩
  rw [starts_busy (by simp [busy])]
  exact nofun

/-- A clock of a read with its bit. -/
def bitCycle (bit ready : Bool) : MasterInput :=
  { readCycle none ready with sdi := ⟨false, bit, false, false⟩ }

/-- Two words of two bits.  The FIFO is ready for the last bit of each only. -/
def stalledRead : List MasterInput :=
  [readCycle (some 0x70010001) false, bitCycle true false, bitCycle false true,
    bitCycle false false, bitCycle true true]

theorem stalledRead_takes : rxLineMachine.Always RxLine.TakesWords stalledRead := by
  have busy : ∀ n ∈ [1, 2, 3, 4],
      (rxLineMachine.run (stalledRead.take n)).master.ctrl.state = .waitDone := by
    decide +kernel
  have read : ∀ n ∈ [1, 3],
      (rxLineMachine.run (stalledRead.take n)).observer.command = some 0x70010001 := by
    decide +kernel
  have inside : ∀ n ∈ [1, 3],
      ¬(rxLineMachine.run (stalledRead.take n)).endsData (bitCycle (n == 1) false) 0x70010001 := by
    decide +kernel
  refine ⟨⟨?_, ?_⟩, takesWords_busy (busy 1 (by decide)) ?_,
    takesWords_busy (busy 2 (by decide)) fun _ _ _ => rfl, takesWords_busy (busy 3 (by decide)) ?_,
    takesWords_busy (busy 4 (by decide)) fun _ _ _ => rfl, trivial⟩
  · have starts : rxLineMachine.init.starts (readCycle (some 0x70010001) false) =
        some 0x70010001 := rfl
    rw [starts]
    intro command isStarted
    cases isStarted
    exact ⟨rfl, by decide, by decide, by decide⟩
  · intro command isObserved
    cases isObserved
  · intro command isObserved ends
    cases (read 1 (by decide)).symm.trans isObserved
    exact absurd ends (inside 1 (by decide))
  · intro command isObserved ends
    cases (read 3 (by decide)).symm.trans isObserved
    exact absurd ends (inside 3 (by decide))

/-- Both words are handed over. -/
theorem stalledRead_handedOver : wordsHandedOver stalledRead = [2, 1] := by
  have completed : wordsCompleted stalledRead = [2, 1] := by decide +kernel
  exact (spim_losesNothing stalledRead stalledRead_takes).1.trans completed

/-- One word of two bits. -/
def twoBits (ready : Bool) : List MasterInput :=
  [readCycle (some 0x70010000) true, readCycle none true, readCycle none ready]

/-- The command is set up. -/
def twoBitsStarted : RxLine where
  master :=
    { ctrl := { SpimCtrl.reset with state := .waitDone }
      txRx := { TxRx.reset with rxState := .receive, rxIsLast := true, bitsword := 1 } }
  observer := { command := some 0x70010000, words := 0, bits := 0 }

/-- The first bit is read. -/
def twoBitsRead : RxLine where
  master :=
    { ctrl := twoBitsStarted.master.ctrl
      txRx :=
        { twoBitsStarted.master.txRx with rxClken := true, counterBits := 1, rxShiftReg := 2 } }
  observer := { command := some 0x70010000, words := 0, bits := 1 }

theorem twoBits_start :
    rxLineMachine.step rxLineMachine.init (readCycle (some 0x70010000) true) = twoBitsStarted := rfl

theorem twoBits_read : rxLineMachine.step twoBitsStarted (readCycle none true) = twoBitsRead := rfl

theorem twoBits_completed (ready : Bool) : wordsCompleted (twoBits ready) = [3] := by
  rw [wordsCompleted, Machine.observed, twoBits, Machine.observedFrom, twoBits_start,
    Machine.observedFrom, twoBits_read]
  cases ready <;> decide

/-- A word for which the FIFO is not ready is lost. -/
theorem twoBits_lost :
    wordsCompleted (twoBits false) = [3] ∧ wordsHandedOver (twoBits false) = [] := by
  refine ⟨twoBits_completed false, ?_⟩
  rw [wordsHandedOver, Machine.observed, twoBits, Machine.observedFrom, twoBits_start,
    Machine.observedFrom, twoBits_read]
  decide +kernel

end CoreVMcu.Spi
