import CoreVMcu.Spi.LoopStep

/-!
# The repeat block of the SPI interpreter

The body of a block should be executed as often as the block says, and what follows
it once.  The replayed command that ends the loop is executed all the same, so the
first command of the body is executed once more.  A body that fills the FIFO loses
its first command, and with it the end of the loop.  Only a matched check from
before the block ends the loop at its very first command, which is the whole of a
body of one command that is to be executed once.
-/

namespace CoreVMcu.Spi

open Clocked CoreVMcu.Udma

/-- A command stream with a repeat block in front: a count that is not zero, a body of
one to six commands with no block and no check inside, and the commands behind it as far as
the next `RPT`, which is not among them: a later block is another stream, from the state that
this one leaves. -/
structure RepeatBlock where
  rpt : BitVec 32
  body : List (BitVec 32)
  rptEnd : BitVec 32
  after : List (BitVec 32)
  isRpt : spiCmd rpt = some .rpt
  counts : cdSizeLong rpt ≠ 0
  nonempty : body ≠ []
  fits : body.length ≤ replayBufferDepth
  bodyCmd : ∀ word ∈ body,
    spiCmd word ≠ some .rpt ∧ spiCmd word ≠ some .rptEnd ∧ spiCmd word ≠ some .rxCheck
  isEnd : spiCmd rptEnd = some .rptEnd
  afterCmd : ∀ word ∈ after, spiCmd word ≠ some .rpt

namespace RepeatBlock

/-- How often the body is to be executed. -/
def times (block : RepeatBlock) : Nat := (cdSizeLong block.rpt).toNat

/-- The commands of the stream. -/
def stream (block : RepeatBlock) : List (BitVec 32) :=
  block.rpt :: block.body ++ block.rptEnd :: block.after

/-- The commands that are to be executed. -/
def expected (block : RepeatBlock) : List (BitVec 32) :=
  (List.replicate block.times block.body).flatten ++ block.after

theorem length_expected (block : RepeatBlock) :
    block.expected.length = block.times * block.body.length + block.after.length := by
  simp [expected, List.map_replicate]

theorem times_pos (block : RepeatBlock) : 0 < block.times := by
  have notZero := block.counts
  rw [times]
  refine Nat.pos_of_ne_zero fun zero => notZero ?_
  exact BitVec.eq_of_toNat_eq zero

end RepeatBlock

/-! ## Runs of the interpreter on a stream -/

namespace SpimCtrl

/-- The interpreter takes the next command of the stream. -/
def takesCommand (ctrl : SpimCtrl) : Bool :=
  match ctrl.state with
  | .idle => !ctrl.isReplay
  | .doRepeat => true
  | _ => false

/-- The command taken from the stream in a cycle. -/
def consumedCmd (ctrl : SpimCtrl) (input : CtrlInput) : List (BitVec 32) :=
  if (ctrl.signals input).udmaCmdReady && input.udmaCmdValid then [input.udmaCmd] else []

/-- The command executed in a cycle; the start of a block only sets up its replay. -/
def executedCmd (ctrl : SpimCtrl) (input : CtrlInput) : List (BitVec 32) :=
  if ctrl.state = .idle ∧ ctrl.cmdAvailable input = true ∧
      spiCmd (ctrl.word input) ≠ some .rpt then
    [ctrl.word input]
  else []

end SpimCtrl

/-- The interpreter from some state. -/
def spimCtrlFrom (start : SpimCtrl) : Machine SpimCtrl CtrlInput where
  init := start
  step := SpimCtrl.step

section Runs

variable (start : SpimCtrl) (schedule : Nat → CtrlInput) (n : Nat)

/-- The state in a cycle of a schedule. -/
def stateAt : SpimCtrl := (spimCtrlFrom start).run (inputsUpTo schedule n)

/-- The commands taken before a cycle. -/
def consumedBefore : List (BitVec 32) :=
  (spimCtrlFrom start).observed SpimCtrl.consumedCmd (inputsUpTo schedule n)

/-- The commands executed before a cycle. -/
def executedBefore : List (BitVec 32) :=
  (spimCtrlFrom start).observed SpimCtrl.executedCmd (inputsUpTo schedule n)

end Runs

/-- A schedule presents the commands of a stream in their order, each of them some
time after the interpreter is ready for it, and completes, some time, whatever the
interpreter waits for. -/
structure Presents (start : SpimCtrl) (schedule : Nat → CtrlInput) (stream : List (BitVec 32)) :
    Prop where
  inOrder : ∀ n, (schedule n).udmaCmdValid = true →
    stream[(consumedBefore start schedule n).length]? = some (schedule n).udmaCmd
  offers : ∀ n, (stateAt start schedule n).takesCommand = true →
    (consumedBefore start schedule n).length < stream.length →
    ∃ m, n ≤ m ∧ (schedule m).udmaCmdValid = true
  completes : ∀ n, (stateAt start schedule n).state = .waitDone →
    ∃ m, n ≤ m ∧ (stateAt start schedule m).done (schedule m) = true
  checks : ∀ n, (stateAt start schedule n).state = .waitCheck →
    ∃ m, n ≤ m ∧ (schedule m).rxDone = true
  happens : ∀ n, (stateAt start schedule n).state = .waitEvent →
    ∃ m, n ≤ m ∧ (stateAt start schedule m).event (schedule m) = true

/-- The commands of a block are executed: those that are expected, in their order, all
of them and no other. -/
structure Repeats (start : SpimCtrl) (schedule : Nat → CtrlInput) (block : RepeatBlock) : Prop where
  inOrder : ∀ n, executedBefore start schedule n <+: block.expected
  allOfThem : ∃ n, executedBefore start schedule n = block.expected

/-! ## What is taken and executed in a cycle -/

namespace SpimCtrl

variable {ctrl : SpimCtrl} {input : CtrlInput}

theorem consumedCmd_eq (ctrl : SpimCtrl) (input : CtrlInput) :
    ctrl.consumedCmd input =
      if ctrl.takesCommand && input.udmaCmdValid then [input.udmaCmd] else [] := by
  have ready : input.udmaCmdValid = true →
      (ctrl.signals input).udmaCmdReady = ctrl.takesCommand := by
    intro valid
    cases state : ctrl.state with
    | idle =>
        cases replays : ctrl.isReplay with
        | false =>
            simp [signals, state, idle, cmdAvailable, replays, valid, execute_udmaCmdReady, taken,
              takesCommand]
        | true =>
            simp only [signals, state, idle, takesCommand, replays]
            split
            · have loop := congrArg CtrlSignals.Loop.udmaCmdReady (taken_loop replays)
              rw [execute_udmaCmdReady]
              exact loop
            · rfl
    | doRepeat =>
        simp only [signals, state, doRepeat, valid, takesCommand, if_true]
        split <;> rfl
    | waitDone =>
        simp only [signals, state, waitDone, takesCommand]
        split <;> rfl
    | waitCheck =>
        simp only [signals, state, waitCheck, takesCommand]
        split <;> rfl
    | waitEvent | waitCycle =>
        simp only [signals, state, takesCommand]
        split <;> rfl
    | clearCs => simp [signals, state, takesCommand, defaults]
  cases valid : input.udmaCmdValid with
  | false => simp [consumedCmd, valid]
  | true => rw [consumedCmd, ready valid, valid]

theorem executedCmd_of_not_idle (notIdle : ctrl.state ≠ .idle) : ctrl.executedCmd input = [] := by
  rw [executedCmd, if_neg (fun both => notIdle both.1)]

end SpimCtrl

end CoreVMcu.Spi
