import CoreVMcu.Spi.Ctrl

/-!
# What a cycle of the SPI interpreter does to its loop

The registers of a repeat block change when its commands are recorded and when
they are replayed.  Everything else that a command does leaves them alone.
-/

namespace CoreVMcu.Spi

open Clocked CoreVMcu.Udma

namespace CtrlSignals

/-- What the state machine drives for the loop. -/
structure Loop where
  udmaCmdReady : Bool
  isReplay : Bool
  setupReplay : Bool
  rptNum : BitVec 16
  updateRpt : Bool
  clrRptBuf : Bool
  replayBufferOutReady : Bool
  setFirstReply : Bool
  clrFirstReply : Bool
  updateChkResult : Bool
  chkResult : Bool

def loop (signals : CtrlSignals) : Loop :=
  { udmaCmdReady := signals.udmaCmdReady
    isReplay := signals.isReplay
    setupReplay := signals.setupReplay
    rptNum := signals.rptNum
    updateRpt := signals.updateRpt
    clrRptBuf := signals.clrRptBuf
    replayBufferOutReady := signals.replayBufferOutReady
    setFirstReply := signals.setFirstReply
    clrFirstReply := signals.clrFirstReply
    updateChkResult := signals.updateChkResult
    chkResult := signals.chkResult }

end CtrlSignals

namespace SpimCtrl

/-- Only the start of a block reaches into the loop. -/
theorem execute_loop {word : BitVec 32} (notRpt : spiCmd word ≠ some .rpt) (base : CtrlSignals) :
    (execute base word).loop = base.loop := by
  cases cmd : spiCmd word with
  | none => rw [execute, cmd]
  | some code =>
      cases code with
      | rpt => exact absurd cmd notRpt
      | wait =>
          rw [execute, cmd]
          simp only
          split <;> [rfl; split <;> rfl]
      | rptEnd | setupUca | setupUcs => rw [execute, cmd]
      | _ =>
          rw [execute, cmd]
          rfl

theorem execute_udmaCmdReady (base : CtrlSignals) (word : BitVec 32) :
    (execute base word).udmaCmdReady = base.udmaCmdReady := by
  by_cases rpt : spiCmd word = some .rpt
  · rw [execute, rpt]
  · exact congrArg CtrlSignals.Loop.udmaCmdReady (execute_loop rpt base)

/-- Where a command other than the start of a block leads. -/
structure LeadsTo (word : BitVec 32) (signals : CtrlSignals) : Prop where
  notRepeat : signals.stateNext ≠ .doRepeat
  checks : signals.stateNext = .waitCheck → spiCmd word = some .rxCheck
  counts : signals.stateNext = .waitCycle → signals.cntStart = true

theorem execute_leadsTo {word : BitVec 32} (notRpt : spiCmd word ≠ some .rpt) {base : CtrlSignals}
    (baseIdle : base.stateNext = .idle) : LeadsTo word (execute base word) := by
  have idle : LeadsTo word base := by constructor <;> rw [baseIdle] <;> exact nofun
  cases cmd : spiCmd word with
  | none =>
      rw [execute, cmd]
      exact idle
  | some code =>
      cases code with
      | rpt => exact absurd cmd notRpt
      | cfg | sot =>
          rw [execute, cmd]
          exact ⟨nofun, nofun, fun _ => rfl⟩
      | sendCmd | dummy | txData | rxData | fullDupl =>
          rw [execute, cmd]
          exact ⟨nofun, nofun, nofun⟩
      | rxCheck =>
          rw [execute, cmd]
          exact ⟨nofun, fun _ => cmd, nofun⟩
      | wait =>
          rw [execute, cmd]
          simp only
          split
          · exact ⟨nofun, nofun, nofun⟩
          · split
            · exact ⟨nofun, nofun, fun _ => rfl⟩
            · exact idle
      | eot =>
          rw [execute, cmd]
          constructor <;> simp only <;> split <;> exact nofun
      | rptEnd | setupUca | setupUcs =>
          rw [execute, cmd]
          exact idle

section Step

variable {ctrl : SpimCtrl} {input : CtrlInput}

theorem taken_stateNext (ctrl : SpimCtrl) : ctrl.taken.stateNext = ctrl.state := by
  unfold taken
  simp only
  split
  · rfl
  · split
    · rfl
    · split <;> rfl

/-- A command is being executed. -/
def busy (ctrl : SpimCtrl) : Bool :=
  match ctrl.state with
  | .idle | .doRepeat => false
  | _ => true

/-- The registers of the loop, but for the result of a check. -/
structure SameLoop (next ctrl : SpimCtrl) : Prop where
  isReplay : next.isReplay = ctrl.isReplay
  rptNum : next.rptNum = ctrl.rptNum
  firstReplay : next.firstReplay = ctrl.firstReplay
  replayBuffer : next.replayBuffer = ctrl.replayBuffer

/-- What is driven for the loop when nothing is done with it. -/
theorem sameLoop_of_signals (isReplay : (ctrl.signals input).isReplay = ctrl.isReplay)
    (updateRpt : (ctrl.signals input).updateRpt = false)
    (clrFirst : (ctrl.signals input).clrFirstReply = false)
    (setFirst : (ctrl.signals input).setFirstReply = false)
    (setupReplay : (ctrl.signals input).setupReplay = false)
    (clrRptBuf : (ctrl.signals input).clrRptBuf = false)
    (outReady : (ctrl.signals input).replayBufferOutReady = false) :
    SameLoop (ctrl.step input) ctrl := by
  constructor
  · exact isReplay
  · simp [step, updateRpt]
  · simp [step, clrFirst, setFirst]
  · simp [step, nextReplayBuffer, setupReplay, clrRptBuf, outReady, IoGenericFifo.step]

/-- A command that is being executed leaves the loop alone. -/
theorem step_busy (busy : ctrl.busy = true) (input : CtrlInput) :
    SameLoop (ctrl.step input) ctrl := by
  have same : (ctrl.signals input).loop =
      { ctrl.defaults.loop with
        updateChkResult := (ctrl.signals input).updateChkResult
        chkResult := (ctrl.signals input).chkResult } := by
    cases state : ctrl.state with
    | idle | doRepeat => simp [SpimCtrl.busy, state] at busy
    | waitDone =>
        simp only [signals, state, waitDone]
        split <;> rfl
    | waitCheck =>
        simp only [signals, state, waitCheck]
        split <;> rfl
    | waitEvent | waitCycle =>
        simp only [signals, state]
        split <;> rfl
    | clearCs =>
        simp only [signals, state]
        rfl
  simp only [CtrlSignals.loop, CtrlSignals.Loop.mk.injEq] at same
  obtain ⟨-, isReplay, setup, -, update, clear, ready, set, clr, -⟩ := same
  exact sameLoop_of_signals isReplay update clr set setup clear ready

/-- It is over some time, and only a check changes the result of a check. -/
theorem step_busy_state (busy : ctrl.busy = true) (input : CtrlInput) :
    ((ctrl.step input).state = ctrl.state ∨ (ctrl.step input).state = .idle) ∧
      (ctrl.state ≠ .waitCheck → (ctrl.step input).chkResult = ctrl.chkResult) := by
  have states : (ctrl.step input).state = (ctrl.signals input).stateNext := rfl
  have checks : (ctrl.step input).chkResult =
      if (ctrl.signals input).updateChkResult then (ctrl.signals input).chkResult
      else ctrl.chkResult := rfl
  rw [states, checks]
  cases state : ctrl.state with
  | idle | doRepeat => simp [SpimCtrl.busy, state] at busy
  | waitDone =>
      simp only [signals, state, waitDone]
      split
      · exact ⟨Or.inr rfl, fun _ => rfl⟩
      · exact ⟨Or.inl state, fun _ => rfl⟩
  | waitCheck =>
      simp only [signals, state, waitCheck]
      split
      · exact ⟨Or.inr rfl, fun notCheck => absurd rfl notCheck⟩
      · exact ⟨Or.inl state, fun notCheck => absurd rfl notCheck⟩
  | waitEvent | waitCycle =>
      simp only [signals, state]
      split
      · exact ⟨Or.inr rfl, fun _ => rfl⟩
      · exact ⟨Or.inl state, fun _ => rfl⟩
  | clearCs =>
      rw [signals, state]
      exact ⟨Or.inr rfl, fun _ => rfl⟩

/-- Without a command an idle interpreter and one that records a block wait. -/
theorem step_waiting (waits : ctrl.state = .idle ∧ ctrl.cmdAvailable input = false ∨
      ctrl.state = .doRepeat ∧ input.udmaCmdValid = false) :
    SameLoop (ctrl.step input) ctrl ∧ (ctrl.step input).state = ctrl.state ∧
      (ctrl.step input).chkResult = ctrl.chkResult := by
  rcases waits with ⟨state, nothing⟩ | ⟨state, nothing⟩
  · have signals : ctrl.signals input = { ctrl.defaults with isFul := false } := by
      simp [SpimCtrl.signals, state, idle, nothing]
    refine ⟨sameLoop_of_signals ?_ ?_ ?_ ?_ ?_ ?_ ?_, ?_, ?_⟩
    all_goals simp only [step, signals]
    all_goals rfl
  · have signals : ctrl.signals input = ctrl.defaults := by
      simp [SpimCtrl.signals, state, doRepeat, nothing]
    refine ⟨sameLoop_of_signals ?_ ?_ ?_ ?_ ?_ ?_ ?_, ?_, ?_⟩
    all_goals simp only [step, signals]
    all_goals rfl

/-- A command of the stream is executed. -/
theorem step_command (state : ctrl.state = .idle) (noReplay : ctrl.isReplay = false)
    (valid : input.udmaCmdValid = true) (notRpt : spiCmd input.udmaCmd ≠ some .rpt) :
    SameLoop (ctrl.step input) ctrl ∧ LeadsTo input.udmaCmd (ctrl.signals input) ∧
      (ctrl.step input).chkResult = ctrl.chkResult := by
  have word : ctrl.word input = input.udmaCmd := by simp [SpimCtrl.word, noReplay]
  have taken : ctrl.taken = { ctrl.defaults with isFul := false, udmaCmdReady := true } := by
    simp [SpimCtrl.taken, noReplay]
  have signals : ctrl.signals input = execute ctrl.taken input.udmaCmd := by
    simp [SpimCtrl.signals, state, idle, cmdAvailable, noReplay, valid, word]
  have loop := execute_loop notRpt ctrl.taken
  rw [← signals, taken] at loop
  simp only [CtrlSignals.loop, CtrlSignals.Loop.mk.injEq] at loop
  obtain ⟨-, isReplay, setup, -, update, clear, ready, set, clr, updateChk, -⟩ := loop
  refine ⟨sameLoop_of_signals isReplay update clr set setup clear ready, ?_, ?_⟩
  · rw [signals]
    exact execute_leadsTo notRpt ((taken_stateNext ctrl).trans state)
  · simp only [step, updateChk]
    rfl

/-- A block begins. -/
theorem step_rpt (state : ctrl.state = .idle) (noReplay : ctrl.isReplay = false)
    (valid : input.udmaCmdValid = true) (isRpt : spiCmd input.udmaCmd = some .rpt) :
    (ctrl.step input).state = .doRepeat ∧ (ctrl.step input).isReplay = false ∧
      (ctrl.step input).rptNum = cdSizeLong input.udmaCmd ∧
      (ctrl.step input).firstReplay = true ∧
      (ctrl.step input).chkResult = ctrl.chkResult ∧
      IoGenericFifo.Represents replayBufferDepth (ctrl.step input).replayBuffer [] := by
  have word : ctrl.word input = input.udmaCmd := by simp [SpimCtrl.word, noReplay]
  have signals : ctrl.signals input =
      { ctrl.defaults with
        isFul := false, udmaCmdReady := true, updateRpt := true, clrRptBuf := true
        rptNum := cdSizeLong input.udmaCmd, setFirstReply := true, stateNext := .doRepeat
        updateStatus := true, status := .none } := by
    simp [SpimCtrl.signals, state, idle, cmdAvailable, noReplay, valid, word, execute, isRpt,
      SpimCtrl.taken]
  rw [step, signals]
  refine ⟨rfl, noReplay, rfl, rfl, rfl, ?_⟩
  constructor
  · exact Nat.zero_le _
  · simp [nextReplayBuffer, IoGenericFifo.step]
  · simp [nextReplayBuffer, IoGenericFifo.step]
  · simp [nextReplayBuffer, IoGenericFifo.step]
  · exact .nil

/-- A command of the block is recorded. -/
theorem step_record (state : ctrl.state = .doRepeat) (noReplay : ctrl.isReplay = false)
    (valid : input.udmaCmdValid = true) (notEnd : spiCmd input.udmaCmd ≠ some .rptEnd)
    {queue : List (Bool × BitVec 32)}
    (buffer : IoGenericFifo.Represents replayBufferDepth ctrl.replayBuffer queue)
    (room : queue.length < replayBufferDepth) :
    (ctrl.step input).state = .doRepeat ∧ (ctrl.step input).isReplay = false ∧
      (ctrl.step input).rptNum = ctrl.rptNum ∧ (ctrl.step input).firstReplay = false ∧
      (ctrl.step input).chkResult = ctrl.chkResult ∧
      IoGenericFifo.Represents replayBufferDepth (ctrl.step input).replayBuffer
        (queue ++ [(ctrl.firstReplay, input.udmaCmd)]) := by
  have word : ctrl.word input = input.udmaCmd := by simp [SpimCtrl.word, noReplay]
  have signals : ctrl.signals input =
      { ctrl.defaults with clrFirstReply := true, udmaCmdReady := true, setupReplay := true } := by
    simp [SpimCtrl.signals, state, doRepeat, valid, word, notEnd]
  have recorded := buffer.step true (ctrl.firstReplay, input.udmaCmd) false
  rw [Bool.false_and, Bool.toNat_false, List.drop_zero, Bool.true_and,
    if_pos (buffer.ready_iff.mpr room)] at recorded
  rw [step, signals]
  refine ⟨state, noReplay, rfl, rfl, rfl, ?_⟩
  simpa [nextReplayBuffer, noReplay, valid, defaults] using recorded

/-- The block ends and its replay begins. -/
theorem step_rptEnd (state : ctrl.state = .doRepeat) (noReplay : ctrl.isReplay = false)
    (valid : input.udmaCmdValid = true) (isEnd : spiCmd input.udmaCmd = some .rptEnd) :
    (ctrl.step input).state = .idle ∧ (ctrl.step input).isReplay = true ∧
      (ctrl.step input).rptNum = ctrl.rptNum ∧ (ctrl.step input).chkResult = ctrl.chkResult ∧
      (ctrl.step input).replayBuffer = ctrl.replayBuffer := by
  have word : ctrl.word input = input.udmaCmd := by simp [SpimCtrl.word, noReplay]
  have signals : ctrl.signals input =
      { ctrl.defaults with
        clrFirstReply := true, udmaCmdReady := true, isReplay := true, stateNext := .idle } := by
    simp [SpimCtrl.signals, state, doRepeat, valid, word, isEnd, defaults]
  rw [step, signals]
  refine ⟨rfl, rfl, rfl, rfl, ?_⟩
  simp [nextReplayBuffer, noReplay, defaults, IoGenericFifo.step]

/-- What is driven for the loop with a replayed command. -/
theorem taken_loop (replays : ctrl.isReplay = true) :
    ctrl.taken.loop =
      { ctrl.defaults.loop with
        isReplay := !ctrl.leavesLoop
        updateRpt := !ctrl.leavesLoop && ctrl.firstOfBlock
        rptNum :=
          if !ctrl.leavesLoop && ctrl.firstOfBlock then ctrl.rptNum - 1 else ctrl.rptNum
        replayBufferOutReady := true
        updateChkResult := ctrl.leavesLoop } := by
  simp only [SpimCtrl.taken, replays, Bool.not_true, Bool.false_eq_true, if_false]
  cases ctrl.leavesLoop with
  | true => rfl
  | false =>
      cases ctrl.firstOfBlock with
      | true => simp [CtrlSignals.loop, defaults, replays]
      | false => simp [CtrlSignals.loop, defaults, replays]

/-- A command is replayed.  It is put back into the FIFO unless the FIFO is full, and
it is executed also when it ends the loop. -/
theorem step_replay (state : ctrl.state = .idle) (replays : ctrl.isReplay = true)
    {first : Bool} {word : BitVec 32} {rest : List (Bool × BitVec 32)}
    (buffer : IoGenericFifo.Represents replayBufferDepth ctrl.replayBuffer ((first, word) :: rest))
    (notRpt : spiCmd word ≠ some .rpt) (input : CtrlInput) :
    (ctrl.step input).isReplay = !((ctrl.rptNum == 0 && first) || ctrl.chkResult) ∧
      (ctrl.step input).rptNum =
        (if !((ctrl.rptNum == 0 && first) || ctrl.chkResult) && first then ctrl.rptNum - 1
        else ctrl.rptNum) ∧
      (ctrl.step input).chkResult = false ∧
      LeadsTo word (ctrl.signals input) ∧
      IoGenericFifo.Represents replayBufferDepth (ctrl.step input).replayBuffer
        (rest ++ if rest.length + 1 < replayBufferDepth then [(first, word)] else []) := by
  have isFirst : ctrl.firstOfBlock = first := by rw [firstOfBlock, buffer.data_eq]
  have nonempty : ctrl.replayBuffer.valid = true := by rw [buffer.valid_eq]; rfl
  have leaves : ctrl.leavesLoop = ((ctrl.rptNum == 0 && first) || ctrl.chkResult) := by
    rw [leavesLoop, isFirst]
  have signals : ctrl.signals input = execute ctrl.taken word := by
    simp [SpimCtrl.signals, state, idle, cmdAvailable, replays, nonempty, SpimCtrl.word,
      buffer.data_eq]
  have loop := execute_loop notRpt ctrl.taken
  rw [← signals, taken_loop replays, leaves, isFirst] at loop
  simp only [CtrlSignals.loop, CtrlSignals.Loop.mk.injEq] at loop
  obtain ⟨-, isReplay, setup, rptNum, update, clear, ready, -, -, updateChk, chk⟩ := loop
  refine ⟨isReplay, ?_, ?_, ?_, ?_⟩
  · simp only [step, update, rptNum]
    split <;> rfl
  · simp only [step, updateChk, chk]
    split
    · rfl
    · next stays =>
        rw [Bool.not_eq_true, Bool.or_eq_false_iff] at stays
        exact stays.2
  · rw [signals]
    exact execute_leadsTo notRpt ((taken_stateNext ctrl).trans state)
  · have circulated := buffer.step true (first, word) true
    rw [nonempty, Bool.and_self, Bool.toNat_true, List.drop_one, List.tail_cons,
      Bool.true_and] at circulated
    have full : (ctrl.replayBuffer.ready replayBufferDepth = true) ↔
        rest.length + 1 < replayBufferDepth := buffer.ready_iff
    simp only [full] at circulated
    simp only [step, nextReplayBuffer, setup, clear, ready, replays, nonempty, buffer.data_eq]
    exact circulated

end Step

end SpimCtrl

end CoreVMcu.Spi
