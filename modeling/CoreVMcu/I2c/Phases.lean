import CoreVMcu.Clocked.Counters
import CoreVMcu.I2c.Reference
import Mathlib.Tactic.IntervalCases
import Mathlib.Tactic.Ring

/-!
# Phases of the I2C controller

Each state of the controller stands at a point of an instruction: some of its
commands were issued, some bits were answered, and the rest of the stream will be
executed from a place of the reference interpreter.  Every cycle leads from a
phase to a phase.
-/

namespace CoreVMcu.I2c

open Clocked

/-- The command bytes taken along a run. -/
def consumedBytes (inputs : List I2cInput) : List (BitVec 8) :=
  i2cMachine.observed I2cControl.consumedByte inputs

/-- The bus commands issued along a run. -/
def issuedOperations (inputs : List I2cInput) : List BusOperation :=
  i2cMachine.observed I2cControl.issuedOperation inputs

/-- The bytes that `data_rx` takes along a run. -/
def pushedBytes (inputs : List I2cInput) : List (BitVec 8) :=
  i2cMachine.observed I2cControl.pushedByte inputs

/-- The bits with which the bus answers along a run. -/
def busAnswers (inputs : List I2cInput) : List Bool :=
  i2cMachine.observed I2cControl.busAnswer inputs

/-- No software reset. -/
def NotReset (_ : I2cControl) (input : I2cInput) : Prop := input.swRst = false

/-- The byte of a skipped command is valid in the cycle after the repeat count,
and the command has no operand. -/
def SkipsWholeCommand (control : I2cControl) (input : I2cInput) : Prop :=
  control.cs = .skipCmd → input.dataTxValid = true ∧ operandBytes input.dataTx = 0

instance (control : I2cControl) (input : I2cInput) : Decidable (NotReset control input) :=
  inferInstanceAs (Decidable (_ = _))

instance (control : I2cControl) (input : I2cInput) :
    Decidable (SkipsWholeCommand control input) :=
  inferInstanceAs (Decidable (_ → _ ∧ _))

variable {control : I2cControl} {input : I2cInput}

/-! ## Bytes and bits -/

theorem toNat_shiftIn (data : BitVec 8) (bit : Bool) :
    (shiftIn data bit).toNat = (2 * data.toNat + bit.toNat) % 256 := by
  revert data bit
  decide

theorem toNat_foldl_shiftIn (bits : List Bool) (data : BitVec 8) :
    (bits.foldl shiftIn data).toNat =
      bits.foldl (fun value bit => 2 * value + bit.toNat) data.toNat % 256 := by
  have congruent : ∀ value : Nat, value % 256 = data.toNat →
      (bits.foldl shiftIn data).toNat =
        bits.foldl (fun value bit => 2 * value + bit.toNat) value % 256 := by
    induction bits generalizing data with
    | nil =>
        intro value same
        exact same.symm
    | cons bit bits inductionHypothesis =>
        intro value same
        refine inductionHypothesis (shiftIn data bit) (2 * value + bit.toNat) ?_
        rw [toNat_shiftIn, ← same]
        omega
  exact congruent _ (Nat.mod_eq_of_lt data.isLt)

theorem foldl_double_add (bits : List Bool) (value : Nat) :
    bits.foldl (fun value bit => 2 * value + bit.toNat) value =
      2 ^ bits.length * value + bits.foldl (fun value bit => 2 * value + bit.toNat) 0 := by
  induction bits generalizing value with
  | nil => simp
  | cons bit bits inductionHypothesis =>
      simp only [List.foldl_cons, List.length_cons]
      rw [inductionHypothesis, inductionHypothesis (2 * 0 + bit.toNat), Nat.pow_succ]
      ring

/-- Eight shifted bits replace whatever the register held. -/
theorem foldl_shiftIn_eight {bits : List Bool} (eight : bits.length = 8) (data : BitVec 8) :
    bits.foldl shiftIn data = byteOf bits := by
  apply BitVec.eq_of_toNat_eq
  rw [toNat_foldl_shiftIn, foldl_double_add, eight, byteOf, BitVec.toNat_ofNat]
  omega

theorem getMsbD_shiftIn (data : BitVec 8) (bit : Bool) (i : Nat) (inside : i < 7) :
    (shiftIn data bit).getMsbD i = data.getMsbD (i + 1) := by
  have low : i + 1 < 8 := Nat.succ_lt_succ inside
  have below : 6 - i < 7 := by omega
  rw [shiftIn, BitVec.getMsbD_append, if_neg (Nat.not_le.mpr inside), BitVec.getMsbD_eq_getLsbD,
    BitVec.getMsbD_eq_getLsbD, BitVec.getLsbD_extractLsb', decide_eq_true inside,
    decide_eq_true low, Nat.zero_add, Bool.true_and, Bool.true_and, decide_eq_true below,
    Bool.true_and, Nat.sub_add_eq]
  congr 1
  omega

theorem extractLsb'_append_high (high low : BitVec 8) :
    (high ++ low).extractLsb' 8 8 = high := by
  ext i inside
  rw [← BitVec.getLsbD_eq_getElem, BitVec.getLsbD_extractLsb', BitVec.getLsbD_append,
    if_neg (by omega), Nat.add_sub_cancel_left, decide_eq_true inside, Bool.true_and,
    BitVec.getLsbD_eq_getElem]

theorem two_le_toNat {count : BitVec 8} (notZero : count ≠ 0) (notOne : count ≠ 1) :
    2 ≤ count.toNat := by
  have zero : count.toNat ≠ 0 := fun same => notZero (BitVec.eq_of_toNat_eq same)
  have one : count.toNat ≠ 1 := fun same => notOne (BitVec.eq_of_toNat_eq same)
  omega

theorem getLsbD_seven (data : BitVec 8) : data.getLsbD 7 = data.getMsbD 0 := by
  simp [BitVec.getMsbD]

theorem operations_read_getElem? (nack : Bool) (k : Nat) (inside : k ≤ 8) :
    (Instruction.read nack).operations[k]? =
      some (if k = 8 then .write nack else .read) := by
  interval_cases k <;> rfl

theorem operations_write_getElem? (byte : BitVec 8) (k : Nat) (inside : k ≤ 8) :
    (Instruction.write byte).operations[k]? =
      some (if k = 8 then .read else .write (byte.getMsbD k)) := by
  interval_cases k <;> rfl

/-! ## Instructions in progress -/

/-- What a run has done: `completed` instructions, and of the one in progress the
`started` commands with the bits `recent`ly answered to them. -/
structure History (completed : List Instruction) (started : List BusOperation)
    (recent : List Bool) (issued : List BusOperation) (pushed : List (BitVec 8))
    (answers : List Bool) : Prop where
  issued : issued = completed.flatMap Instruction.operations ++ started
  answers : ∃ before, before.length = (completed.flatMap Instruction.operations).length ∧
    answers = before ++ recent ∧ pushed = stored completed before

namespace History

variable {completed : List Instruction} {started issued : List BusOperation}
variable {recent answers : List Bool} {pushed : List (BitVec 8)} {instruction : Instruction}

theorem issue (history : History completed started recent issued pushed answers)
    (operation : BusOperation) :
    History completed (started ++ [operation]) recent (issued ++ [operation]) pushed answers where
  issued := by rw [history.issued, List.append_assoc]
  answers := history.answers

theorem answer (history : History completed started recent issued pushed answers) (bit : Bool) :
    History completed started (recent ++ [bit]) issued pushed (answers ++ [bit]) where
  issued := history.issued
  answers := by
    obtain ⟨before, covers, rfl, stores⟩ := history.answers
    exact ⟨before, covers, List.append_assoc .., stores⟩

/-- All commands of an instruction were issued and answered. -/
theorem complete (history : History completed started recent issued pushed answers)
    (all : started = instruction.operations) (answered : recent.length = started.length) :
    History (completed ++ [instruction]) [] [] issued (pushed ++ stored [instruction] recent)
      answers where
  issued := by
    rw [history.issued, all, List.flatMap_append, List.flatMap_singleton, List.append_nil]
  answers := by
    obtain ⟨before, covers, rfl, rfl⟩ := history.answers
    refine ⟨before ++ recent, ?_, (List.append_nil _).symm, ?_⟩
    · rw [List.length_append, covers, answered, all, List.flatMap_append, List.length_append,
        List.flatMap_singleton]
    · rw [stored_append completed [instruction] before recent covers]

end History

/-- The commands of an instruction are issued up to those that the bit counter
counts, and the last one waits for its acknowledge. -/
structure Executing (control : I2cControl) (instruction : Instruction)
    (started : List BusOperation) (recent : List Bool) : Prop where
  left : control.bits.toNat < instruction.operations.length
  commands : started =
    instruction.operations.take (instruction.operations.length - control.bits.toNat)
  answered : recent.length + 1 = started.length

/-- The states of the controller: the commands of the instruction in progress, the
bits answered to them, and what the coming bytes of the stream execute. -/
inductive Phase (control : I2cControl) :
    List BusOperation → List Bool → (List (BitVec 8) → List Instruction) → Prop where
  | command (cs : control.cs = .waitInCmd) (bits : control.bits = 0) :
      Phase control [] [] (execute (.command (control.rptNum.toNat + 1)))
  | event (cs : control.cs = .waitEv) (bits : control.bits = 0) :
      Phase control [] [] (execute (.command (control.rptNum.toNat + 1)))
  | writeData (cs : control.cs = .getData) :
      Phase control [] [] (execute (.writeData (control.rptNum.toNat + 1)))
  | waitCount (cs : control.cs = .getWait) :
      Phase control [] [] (execute (.waitCount (control.rptNum.toNat + 1)))
  | repeatCount (cs : control.cs = .getRpt) (bits : control.bits = 0) :
      Phase control [] [] (execute .repeatCount)
  | dividerMsb (cs : control.cs = .getCfgMsb) (bits : control.bits = 0) :
      Phase control [] [] (execute (.dividerMsb (control.rptNum.toNat + 1)))
  | dividerLsb {msb : BitVec 8} (cs : control.cs = .getCfgLsb) (bits : control.bits = 0)
      (high : control.divNum.extractLsb' 8 8 = msb) :
      Phase control [] [] (execute (.dividerLsb msb (control.rptNum.toNat + 1)))
  | skipped (cs : control.cs = .skipCmd) (bits : control.bits = 0)
      (noRepeat : control.rptNum = 0) : Phase control [] [] (execute .skippedCommand)
  | waiting (instruction : Instruction) {started : List BusOperation} {recent : List Bool}
      (cs : control.cs = .cmdDone) (executing : Executing control instruction started recent)
      (simple : instruction = .start ∨ instruction = .stop ∨ ∃ cycles, instruction = .wait cycles) :
      Phase control started recent
        (fun stream => instruction :: execute (.command (control.rptNum.toNat + 1)) stream)
  | reading {started : List BusOperation} {recent : List Bool} (cs : control.cs = .read)
      (executing : Executing control (.read control.rdAck) started recent)
      (collected : ∃ old, control.data = recent.foldl shiftIn old) :
      Phase control started recent
        (fun stream => List.replicate (control.rptNum.toNat + 1) (.read control.rdAck) ++
          execute (.command 1) stream)
  | storing {recent : List Bool} (cs : control.cs = .storeData) (bits : control.bits = 0)
      (answered : recent.length = 9) (collected : control.data = byteOf (recent.take 8)) :
      Phase control (Instruction.read control.rdAck).operations recent
        (fun stream => List.replicate (control.rptNum.toNat + 1) (.read control.rdAck) ++
          execute (.command 1) stream)
  | writing (byte : BitVec 8) {started : List BusOperation} {recent : List Bool}
      (cs : control.cs = .write) (executing : Executing control (.write byte) started recent)
      (shifted : ∀ i < control.bits.toNat,
        control.data.getMsbD i = byte.getMsbD (i + (8 - control.bits.toNat))) :
      Phase control started recent
        (fun stream => .write byte ::
          execute (.afterWrite (control.rptNum.toNat + 1)) stream)

/-- The controller follows the reference interpreter. -/
structure Tracks (control : I2cControl) (consumed : List (BitVec 8))
    (issued : List BusOperation) (pushed : List (BitVec 8)) (answers : List Bool)
    (completed : List Instruction) (started : List BusOperation) (recent : List Bool)
    (resume : List (BitVec 8) → List Instruction) : Prop where
  history : History completed started recent issued pushed answers
  phase : Phase control started recent resume
  program : ∀ stream, program (consumed ++ stream) = completed ++ resume stream
  divNum : control.cs ≠ .getCfgLsb → control.divNum = divider completed

/-- Some history explains the run so far. -/
def Follows (control : I2cControl) (consumed : List (BitVec 8)) (issued : List BusOperation)
    (pushed : List (BitVec 8)) (answers : List Bool) : Prop :=
  ∃ completed started recent resume,
    Tracks control consumed issued pushed answers completed started recent resume

theorem follows_reset : Follows .reset [] [] [] [] :=
  ⟨[], [], [], _,
    { history := ⟨rfl, [], rfl, rfl, rfl⟩
      phase := .command rfl rfl
      program := fun _ => rfl
      divNum := fun _ => rfl }⟩

namespace Executing

variable {instruction : Instruction} {started : List BusOperation} {recent : List Bool}
variable {next : I2cControl}

/-- An acknowledge is followed by the next command. -/
theorem advance (executing : Executing control instruction started recent)
    (positive : control.bits ≠ 0) (counted : next.bits = control.bits - 1)
    {operation : BusOperation}
    (isNext : instruction.operations[instruction.operations.length - control.bits.toNat]? =
      some operation) (bit : Bool) :
    Executing next instruction (started ++ [operation]) (recent ++ [bit]) := by
  have pred := toNat_pred_add_one positive
  have left := executing.left
  have count : instruction.operations.length - next.bits.toNat =
      instruction.operations.length - control.bits.toNat + 1 := by
    rw [counted]
    omega
  refine ⟨by rw [counted]; omega, ?_, ?_⟩
  · rw [count, List.take_add_one, isNext, executing.commands]
    rfl
  · rw [List.length_append, List.length_append, ← executing.answered]
    rfl

/-- The first command of an instruction. -/
theorem first {operation : BusOperation}
    (counted : next.bits.toNat + 1 = instruction.operations.length)
    (isFirst : instruction.operations[0]? = some operation) :
    Executing next instruction [operation] [] := by
  refine ⟨by omega, ?_, rfl⟩
  rw [← counted, Nat.add_sub_cancel_left, List.take_one, List.head?_eq_getElem?, isFirst]
  rfl

/-- With no command left the last one was issued. -/
theorem last (executing : Executing control instruction started recent)
    (zero : control.bits = 0) : started = instruction.operations := by
  rw [executing.commands, zero]
  exact List.take_of_length_le (by simp)

theorem length_started (executing : Executing control instruction started recent) :
    started.length = instruction.operations.length - control.bits.toNat := by
  rw [executing.commands, List.length_take]
  omega

end Executing

/-- What a cycle without a software reset does, in terms of what the state machine
drives. -/
structure Drives (control : I2cControl) (input : I2cInput) (signals : ControlSignals) : Prop where
  step : control.step input =
    { cs := signals.ns
      rptNum := if signals.sampleRpt then signals.rptNum else control.rptNum
      data := signals.data
      bits := signals.bits
      rdAck := signals.rdAck
      divNum := if signals.sampleDiv then signals.divNum else control.divNum
      busy := input.busBusy
      al := input.busAl
      evSel := if signals.sampleEv then input.dataTx.extractLsb' 0 2 else control.evSel }
  consumed : control.consumedByte input =
    if signals.dataTxReady && input.dataTxValid then [input.dataTx] else []
  pushed : control.pushedByte input =
    if signals.dataRxValid && input.dataRxReady then [control.data] else []
  issued : control.issuedOperation input =
    if signals.busIfCmdValid then
      signals.busIfCmd.operation
        (if control.cs = .read then control.rdAck else signals.data.getLsbD 7)
    else []

theorem drives_of_signals (notReset : input.swRst = false) {signals : ControlSignals}
    (driven : control.signals input = signals) : Drives control input signals := by
  subst driven
  constructor <;>
    simp only [I2cControl.step, I2cControl.consumedByte, I2cControl.pushedByte,
      I2cControl.issuedOperation, I2cControl.coreTxd, I2cControl.dataTxReady,
      I2cControl.dataRxValid, notReset, Bool.false_or, Bool.false_eq_true, if_false]

variable {consumed pushed : List (BitVec 8)} {issued started : List BusOperation}
variable {answers recent : List Bool} {completed : List Instruction}
variable {resume : List (BitVec 8) → List Instruction}

/-- A taken byte moves from the coming stream to the taken bytes. -/
theorem Tracks.take
    (tracks : Tracks control consumed issued pushed answers completed started recent resume)
    (byte : BitVec 8) (stream : List (BitVec 8)) :
    I2c.program (consumed ++ [byte] ++ stream) = completed ++ resume (byte :: stream) := by
  rw [List.append_assoc, List.singleton_append, tracks.program]

/-- The registers that the interpretation depends on. -/
structure SameProgress (next control : I2cControl) : Prop where
  cs : next.cs = control.cs
  rptNum : next.rptNum = control.rptNum
  data : next.data = control.data
  bits : next.bits = control.bits
  rdAck : next.rdAck = control.rdAck
  divNum : next.divNum = control.divNum

theorem Executing.mono {next : I2cControl} {instruction : Instruction}
    (executing : Executing control instruction started recent) (same : SameProgress next control) :
    Executing next instruction started recent :=
  ⟨same.bits ▸ executing.left, same.bits ▸ executing.commands, executing.answered⟩

theorem Phase.mono {next : I2cControl} (phase : Phase control started recent resume)
    (same : SameProgress next control) : Phase next started recent resume := by
  cases phase with
  | command cs bits => exact same.rptNum ▸ .command (same.cs.trans cs) (same.bits.trans bits)
  | event cs bits => exact same.rptNum ▸ .event (same.cs.trans cs) (same.bits.trans bits)
  | writeData cs => exact same.rptNum ▸ .writeData (same.cs.trans cs)
  | waitCount cs => exact same.rptNum ▸ .waitCount (same.cs.trans cs)
  | repeatCount cs bits => exact .repeatCount (same.cs.trans cs) (same.bits.trans bits)
  | dividerMsb cs bits =>
      exact same.rptNum ▸ .dividerMsb (same.cs.trans cs) (same.bits.trans bits)
  | dividerLsb cs bits high =>
      exact same.rptNum ▸
        .dividerLsb (same.cs.trans cs) (same.bits.trans bits) (same.divNum ▸ high)
  | skipped cs bits noRepeat =>
      exact .skipped (same.cs.trans cs) (same.bits.trans bits) (same.rptNum.trans noRepeat)
  | waiting instruction cs executing simple =>
      exact same.rptNum ▸ .waiting instruction (same.cs.trans cs) (executing.mono same) simple
  | reading cs executing collected =>
      rw [← same.rptNum, ← same.rdAck]
      exact .reading (same.cs.trans cs) (same.rdAck ▸ executing.mono same) (same.data ▸ collected)
  | storing cs bits answered collected =>
      rw [← same.rptNum, ← same.rdAck]
      exact .storing (same.cs.trans cs) (same.bits.trans bits) answered
        (same.data.trans collected)
  | writing byte cs executing shifted =>
      rw [← same.rptNum]
      refine .writing byte (same.cs.trans cs) (executing.mono same) ?_
      rw [same.bits, same.data]
      exact shifted

/-- A cycle in which the state machine waits. -/
theorem Tracks.stall
    (tracks : Tracks control consumed issued pushed answers completed started recent resume)
    {next : I2cControl} (same : SameProgress next control) :
    Tracks next consumed issued pushed answers completed started recent resume where
  history := tracks.history
  phase := tracks.phase.mono same
  program := tracks.program
  divNum := fun notLsb => same.divNum.trans (tracks.divNum (same.cs ▸ notLsb))

/-- The run with one more cycle follows the reference interpreter. -/
def FollowsStep (control : I2cControl) (input : I2cInput) (consumed : List (BitVec 8))
    (issued : List BusOperation) (pushed : List (BitVec 8)) (answers : List Bool) : Prop :=
  Follows (control.step input) (consumed ++ control.consumedByte input)
    (issued ++ control.issuedOperation input) (pushed ++ control.pushedByte input)
    (answers ++ control.busAnswer input)

theorem busAnswer_of_not_awaitsAck (idle : control.awaitsAck = false) :
    control.busAnswer input = [] := by
  simp [I2cControl.busAnswer, idle]

theorem busAnswer_of_not_cmdDone (pending : input.cmdDone = false) :
    control.busAnswer input = [] := by
  simp [I2cControl.busAnswer, pending]

/-- A cycle in which nothing is taken, issued or stored. -/
theorem Tracks.followsStep_stall
    (tracks : Tracks control consumed issued pushed answers completed started recent resume)
    (notReset : input.swRst = false) (ready valid : Bool)
    (driven : control.signals input =
      { control.defaults with dataTxReady := ready, dataRxValid := valid })
    (noByte : (ready && input.dataTxValid) = false)
    (noStore : (valid && input.dataRxReady) = false) (noAnswer : control.busAnswer input = []) :
    FollowsStep control input consumed issued pushed answers := by
  have drives := drives_of_signals notReset driven
  refine ⟨completed, started, recent, resume, ?_⟩
  rw [drives.step, drives.consumed, drives.issued, drives.pushed, noAnswer, noByte, noStore]
  simp only [I2cControl.defaults, Bool.false_eq_true, if_false, List.append_nil]
  exact tracks.stall ⟨rfl, rfl, rfl, rfl, rfl, rfl⟩

/-- A cycle in which a bus command is still under way. -/
theorem Tracks.followsStep_pending
    (tracks : Tracks control consumed issued pushed answers completed started recent resume)
    (notReset : input.swRst = false) (awaits : control.awaitsAck = true)
    (pending : input.cmdDone = false) :
    FollowsStep control input consumed issued pushed answers :=
  tracks.followsStep_stall notReset false false (control.signals_of_pending awaits pending)
    rfl rfl (busAnswer_of_not_cmdDone pending)

/-- A cycle in which a byte is taken and nothing else is done. -/
theorem followsStep_take (notReset : input.swRst = false) {signals : ControlSignals}
    (completed : List Instruction) (later : List (BitVec 8) → List Instruction)
    (driven : control.signals input = signals) (ready : signals.dataTxReady = true)
    (silent : signals.busIfCmdValid = false) (keeps : signals.dataRxValid = false)
    (valid : input.dataTxValid = true) (noAnswer : control.busAnswer input = [])
    (tracks : Tracks (control.step input) (consumed ++ [input.dataTx]) issued pushed answers
      completed [] [] later) :
    FollowsStep control input consumed issued pushed answers := by
  have drives := drives_of_signals notReset driven
  refine ⟨completed, [], [], later, ?_⟩
  rw [drives.consumed, drives.issued, drives.pushed, noAnswer, ready, silent, keeps, valid]
  simp only [Bool.and_self, Bool.false_and, if_true, Bool.false_eq_true, if_false, List.append_nil]
  exact tracks

theorem Tracks.step_writeData (notReset : input.swRst = false)
    (tracks : Tracks control consumed issued pushed answers completed [] []
      (execute (.writeData (control.rptNum.toNat + 1))))
    (cs : control.cs = .getData) : FollowsStep control input consumed issued pushed answers := by
  have noAnswer : control.busAnswer input = [] :=
    busAnswer_of_not_awaitsAck (by simp [I2cControl.awaitsAck, cs])
  cases valid : input.dataTxValid with
  | false =>
      exact tracks.followsStep_stall notReset true false
        (by simp [I2cControl.signals, cs, I2cControl.getData, valid, I2cControl.defaults])
        (by simp [valid]) rfl noAnswer
  | true =>
      have drives := drives_of_signals notReset (control.signals_getData cs valid)
      refine ⟨completed, [.write (input.dataTx.getLsbD 7)], [],
        fun stream => .write input.dataTx ::
          execute (.afterWrite (control.rptNum.toNat + 1)) stream, ?_⟩
      rw [drives.step, drives.consumed, drives.issued, drives.pushed, noAnswer]
      simp only [I2cControl.defaults, valid, cs, Bool.and_self, Bool.false_and, if_true,
        Bool.false_eq_true, if_false, List.append_nil, BusCmd.operation, reduceCtorEq]
      refine { history := tracks.history.issue _, phase := ?_, program := ?_, divNum := ?_ }
      · refine .writing input.dataTx rfl (.first rfl ?_) fun i _ => rfl
        rw [operations_write_getElem? _ 0 (by decide), getLsbD_seven]
        rfl
      · exact tracks.take input.dataTx
      · exact fun _ => tracks.divNum (by simp [cs])

theorem Tracks.step_waitCount (notReset : input.swRst = false)
    (tracks : Tracks control consumed issued pushed answers completed [] []
      (execute (.waitCount (control.rptNum.toNat + 1))))
    (cs : control.cs = .getWait) : FollowsStep control input consumed issued pushed answers := by
  have noAnswer : control.busAnswer input = [] :=
    busAnswer_of_not_awaitsAck (by simp [I2cControl.awaitsAck, cs])
  cases valid : input.dataTxValid with
  | false =>
      exact tracks.followsStep_stall notReset true false
        (by simp [I2cControl.signals, cs, I2cControl.getWait, valid, I2cControl.defaults])
        (by simp [valid]) rfl noAnswer
  | true =>
      have drives := drives_of_signals notReset (control.signals_getWait cs valid)
      refine ⟨completed, [.wait], [], fun stream => .wait input.dataTx ::
          execute (.command (control.rptNum.toNat + 1)) stream, ?_⟩
      rw [drives.step, drives.consumed, drives.issued, drives.pushed, noAnswer]
      simp only [I2cControl.defaults, valid, Bool.and_self, Bool.false_and, if_true,
        Bool.false_eq_true, if_false, List.append_nil, BusCmd.operation]
      refine
        { history := tracks.history.issue _
          phase := .waiting (.wait input.dataTx) rfl (.first ?_ ?_) (.inr (.inr ⟨_, rfl⟩))
          program := tracks.take input.dataTx
          divNum := fun _ => tracks.divNum (by simp [cs]) }
      · rw [Instruction.operations, List.length_replicate]
      · rw [Instruction.operations, List.getElem?_replicate_of_lt (Nat.succ_pos _)]

theorem Tracks.step_repeatCount (notReset : input.swRst = false)
    (tracks : Tracks control consumed issued pushed answers completed [] []
      (execute .repeatCount))
    (cs : control.cs = .getRpt) (bits : control.bits = 0) :
    FollowsStep control input consumed issued pushed answers := by
  have noAnswer : control.busAnswer input = [] :=
    busAnswer_of_not_awaitsAck (by simp [I2cControl.awaitsAck, cs])
  cases valid : input.dataTxValid with
  | false =>
      exact tracks.followsStep_stall notReset true false
        (by simp [I2cControl.signals, cs, I2cControl.getRpt, valid, I2cControl.defaults])
        (by simp [valid]) rfl noAnswer
  | true =>
      by_cases zero : input.dataTx = 0
      · have driven : control.signals input =
            { control.defaults with
              dataTxReady := true, sampleRpt := true, rptNum := 0, ns := .skipCmd } := by
          simp [I2cControl.signals, cs, I2cControl.getRpt, valid, zero]
        refine followsStep_take notReset completed (execute .skippedCommand)
          driven rfl rfl rfl valid noAnswer ?_
        rw [(drives_of_signals notReset driven).step]
        refine
          { history := tracks.history
            phase := .skipped rfl bits rfl
            program := ?_
            divNum := fun _ => tracks.divNum (by simp [cs]) }
        intro stream
        rw [tracks.take input.dataTx, execute, if_pos zero]
      · have driven : control.signals input =
            { control.defaults with
              dataTxReady := true, sampleRpt := true, rptNum := input.dataTx - 1
              ns := .waitInCmd } := by
          simp only [I2cControl.signals, cs, I2cControl.getRpt, valid, if_true, beq_iff_eq, zero,
            if_false]
        refine followsStep_take notReset completed
          (execute (.command ((input.dataTx - 1).toNat + 1))) driven rfl rfl rfl valid noAnswer ?_
        rw [(drives_of_signals notReset driven).step]
        refine
          { history := tracks.history
            phase := .command rfl bits
            program := ?_
            divNum := fun _ => tracks.divNum (by simp [cs]) }
        intro stream
        rw [tracks.take input.dataTx, execute, if_neg zero, toNat_pred_add_one zero]

theorem Tracks.step_dividerMsb (notReset : input.swRst = false)
    (tracks : Tracks control consumed issued pushed answers completed [] []
      (execute (.dividerMsb (control.rptNum.toNat + 1))))
    (cs : control.cs = .getCfgMsb) (bits : control.bits = 0) :
    FollowsStep control input consumed issued pushed answers := by
  have noAnswer : control.busAnswer input = [] :=
    busAnswer_of_not_awaitsAck (by simp [I2cControl.awaitsAck, cs])
  cases valid : input.dataTxValid with
  | false =>
      exact tracks.followsStep_stall notReset true false
        (by simp [I2cControl.signals, cs, I2cControl.getCfgMsb, valid, I2cControl.defaults])
        (by simp [valid]) rfl noAnswer
  | true =>
      have driven : control.signals input =
          { control.defaults with
            dataTxReady := true, sampleDiv := true
            divNum := input.dataTx ++ control.divNum.extractLsb' 0 8, ns := .getCfgLsb } := by
        simp [I2cControl.signals, cs, I2cControl.getCfgMsb, valid]
      refine followsStep_take notReset completed
        (execute (.dividerLsb input.dataTx (control.rptNum.toNat + 1))) driven rfl rfl rfl valid
        noAnswer ?_
      rw [(drives_of_signals notReset driven).step]
      exact
        { history := tracks.history
          phase := .dividerLsb rfl bits (extractLsb'_append_high ..)
          program := tracks.take input.dataTx
          divNum := fun notLsb => absurd rfl notLsb }

theorem Tracks.step_dividerLsb (notReset : input.swRst = false)
    {msb : BitVec 8}
    (tracks : Tracks control consumed issued pushed answers completed [] []
      (execute (.dividerLsb msb (control.rptNum.toNat + 1))))
    (cs : control.cs = .getCfgLsb) (bits : control.bits = 0)
    (high : control.divNum.extractLsb' 8 8 = msb) :
    FollowsStep control input consumed issued pushed answers := by
  have noAnswer : control.busAnswer input = [] :=
    busAnswer_of_not_awaitsAck (by simp [I2cControl.awaitsAck, cs])
  cases valid : input.dataTxValid with
  | false =>
      exact tracks.followsStep_stall notReset true false
        (by simp [I2cControl.signals, cs, I2cControl.getCfgLsb, valid, I2cControl.defaults])
        (by simp [valid]) rfl noAnswer
  | true =>
      have driven : control.signals input =
          { control.defaults with
            dataTxReady := true, sampleDiv := true
            divNum := msb ++ input.dataTx, ns := .waitInCmd } := by
        simp [I2cControl.signals, cs, I2cControl.getCfgLsb, valid, high]
      refine followsStep_take notReset (completed ++ [.config (msb ++ input.dataTx)])
        (execute (.command (control.rptNum.toNat + 1))) driven rfl rfl rfl valid noAnswer ?_
      rw [(drives_of_signals notReset driven).step]
      refine
        { history := ?_
          phase := .command rfl bits
          program := ?_
          divNum := fun _ => (divider_snoc_config ..).symm }
      · rw [← List.append_nil pushed, ← stored_nil [.config _]]
        exact tracks.history.complete rfl rfl
      · intro stream
        rw [tracks.take input.dataTx, execute, List.append_assoc, List.singleton_append]

theorem Tracks.step_skipped (notReset : input.swRst = false)
    (tracks : Tracks control consumed issued pushed answers completed [] []
      (execute .skippedCommand))
    (cs : control.cs = .skipCmd) (bits : control.bits = 0) (noRepeat : control.rptNum = 0)
    (skips : SkipsWholeCommand control input) :
    FollowsStep control input consumed issued pushed answers := by
  obtain ⟨valid, noOperand⟩ := skips cs
  have noAnswer : control.busAnswer input = [] :=
    busAnswer_of_not_awaitsAck (by simp [I2cControl.awaitsAck, cs])
  have driven : control.signals input =
      { control.defaults with dataTxReady := true, ns := .waitInCmd } := by
    simp [I2cControl.signals, cs, I2cControl.skipCmd]
  refine followsStep_take notReset completed (execute (.command (control.rptNum.toNat + 1)))
    driven rfl rfl rfl valid noAnswer ?_
  rw [(drives_of_signals notReset driven).step]
  refine
    { history := tracks.history
      phase := .command rfl bits
      program := ?_
      divNum := fun _ => tracks.divNum (by simp [cs]) }
  intro stream
  rw [tracks.take input.dataTx, execute, noOperand, noRepeat]
  rfl

theorem Tracks.step_event (notReset : input.swRst = false)
    (tracks : Tracks control consumed issued pushed answers completed [] []
      (execute (.command (control.rptNum.toNat + 1))))
    (cs : control.cs = .waitEv) (bits : control.bits = 0) :
    FollowsStep control input consumed issued pushed answers := by
  have noAnswer : control.busAnswer input = [] :=
    busAnswer_of_not_awaitsAck (by simp [I2cControl.awaitsAck, cs])
  cases event : control.event input with
  | false =>
      exact tracks.followsStep_stall notReset false false
        (by simp [I2cControl.signals, cs, I2cControl.waitEv, event, I2cControl.defaults])
        rfl rfl noAnswer
  | true =>
      have driven : control.signals input = { control.defaults with ns := .waitInCmd } := by
        simp [I2cControl.signals, cs, I2cControl.waitEv, event, bits]
      have drives := drives_of_signals notReset driven
      refine ⟨completed, [], [], execute (.command (control.rptNum.toNat + 1)), ?_⟩
      rw [drives.step, drives.consumed, drives.issued, drives.pushed, noAnswer]
      simp only [I2cControl.defaults, Bool.false_and, Bool.false_eq_true, if_false,
        List.append_nil]
      exact
        { history := tracks.history
          phase := .command rfl bits
          program := tracks.program
          divNum := fun _ => tracks.divNum (by simp [cs]) }

theorem Tracks.step_storing (notReset : input.swRst = false)
    (tracks : Tracks control consumed issued pushed answers completed
      (Instruction.read control.rdAck).operations recent
      (fun stream => List.replicate (control.rptNum.toNat + 1) (.read control.rdAck) ++
        execute (.command 1) stream))
    (cs : control.cs = .storeData) (bits : control.bits = 0) (answered : recent.length = 9)
    (collected : control.data = byteOf (recent.take 8)) :
    FollowsStep control input consumed issued pushed answers := by
  have noAnswer : control.busAnswer input = [] :=
    busAnswer_of_not_awaitsAck (by simp [I2cControl.awaitsAck, cs])
  have stores : stored [.read control.rdAck] recent = [control.data] := by
    simp [stored, answered, collected]
  have history := tracks.history.complete rfl answered
  rw [stores] at history
  cases ready : input.dataRxReady with
  | false =>
      exact tracks.followsStep_stall notReset false true
        (control.signals_storeData_full cs ready) rfl (by simp [ready]) noAnswer
  | true =>
      by_cases noRepeat : control.rptNum = 0
      · have drives := drives_of_signals notReset
          (control.signals_storeData_last cs ready noRepeat)
        refine ⟨completed ++ [.read control.rdAck], [], [],
          execute (.command (control.rptNum.toNat + 1)), ?_⟩
        rw [drives.step, drives.consumed, drives.issued, drives.pushed, noAnswer]
        simp only [I2cControl.defaults, ready, Bool.and_self, Bool.false_and, if_true,
          Bool.false_eq_true, if_false, List.append_nil]
        refine
          { history := history
            phase := .command rfl bits
            program := ?_
            divNum := ?_ }
        · intro stream
          rw [tracks.program, noRepeat, List.append_assoc]
          rfl
        · intro _
          rw [tracks.divNum (by simp [cs]), divider_snoc _ _ (by simp)]
      · have drives := drives_of_signals notReset
          (control.signals_storeData_more cs ready noRepeat)
        refine ⟨completed ++ [.read control.rdAck], [.read], [],
          fun stream => List.replicate ((control.rptNum - 1).toNat + 1) (.read control.rdAck) ++
            execute (.command 1) stream, ?_⟩
        rw [drives.step, drives.consumed, drives.issued, drives.pushed, noAnswer]
        simp only [I2cControl.defaults, ready, Bool.and_self, Bool.false_and, if_true,
          Bool.false_eq_true, if_false, List.append_nil, BusCmd.operation]
        refine
          { history := history.issue _
            phase := .reading rfl (.first rfl rfl) ⟨_, rfl⟩
            program := ?_
            divNum := ?_ }
        · intro stream
          rw [tracks.program, toNat_pred_add_one noRepeat, List.replicate_succ, List.append_assoc]
          rfl
        · intro _
          rw [tracks.divNum (by simp [cs]), divider_snoc _ _ (by simp)]

theorem busAnswer_of_cmdDone (waits : control.awaitsAck = true) (done : input.cmdDone = true) :
    control.busAnswer input = [input.coreRxd] := by
  simp [I2cControl.busAnswer, waits, done]

theorem ne_getCfgLsb_of_awaitsAck (awaits : control.awaitsAck = true) :
    control.cs ≠ .getCfgLsb := by
  intro cs
  rw [I2cControl.awaitsAck, cs] at awaits
  cases awaits

/-- An acknowledged command is followed by the next one of its instruction. -/
theorem Tracks.followsStep_issue (notReset : input.swRst = false)
    (tracks : Tracks control consumed issued pushed answers completed started recent resume)
    (awaits : control.awaitsAck = true) (done : input.cmdDone = true) (cmd : BusCmd)
    (data bits : BitVec 8) {operation : BusOperation}
    (driven : control.signals input =
      { control.defaults with
        busIfCmd := cmd, busIfCmdValid := true, data := data, bits := bits })
    (issues : cmd.operation (if control.cs = .read then control.rdAck else data.getLsbD 7) =
      [operation])
    (phase : ∀ next : I2cControl, next.cs = control.cs → next.rptNum = control.rptNum →
      next.rdAck = control.rdAck → next.data = data → next.bits = bits →
        Phase next (started ++ [operation]) (recent ++ [input.coreRxd]) resume) :
    FollowsStep control input consumed issued pushed answers := by
  have drives := drives_of_signals notReset driven
  refine ⟨completed, started ++ [operation], recent ++ [input.coreRxd], resume, ?_⟩
  rw [drives.step, drives.consumed, drives.issued, drives.pushed, busAnswer_of_cmdDone awaits done]
  simp only [I2cControl.defaults, Bool.false_and, Bool.false_eq_true, if_false, if_true,
    List.append_nil, issues]
  exact
    { history := (tracks.history.answer _).issue _
      phase := phase _ rfl rfl rfl rfl rfl
      program := tracks.program
      divNum := fun _ => tracks.divNum (ne_getCfgLsb_of_awaitsAck awaits) }

/-- With its last command acknowledged, an instruction that stores nothing is completed. -/
theorem Tracks.followsStep_complete (notReset : input.swRst = false) {instruction : Instruction}
    (tracks : Tracks control consumed issued pushed answers completed started recent resume)
    (awaits : control.awaitsAck = true) (done : input.cmdDone = true)
    (executing : Executing control instruction started recent) (zero : control.bits = 0)
    (noRead : ∀ nack, instruction ≠ .read nack) (noConfig : ∀ value, instruction ≠ .config value)
    (bits rptNum : BitVec 8) (sampleRpt : Bool) (ns : ControlState)
    (driven : control.signals input =
      { control.defaults with bits := bits, rptNum := rptNum, sampleRpt := sampleRpt, ns := ns })
    (later : List (BitVec 8) → List Instruction)
    (phase : ∀ next : I2cControl, next.cs = ns → next.bits = bits →
      next.rptNum = (if sampleRpt then rptNum else control.rptNum) → Phase next [] [] later)
    (continues : ∀ stream, resume stream = instruction :: later stream) :
    FollowsStep control input consumed issued pushed answers := by
  have drives := drives_of_signals notReset driven
  have noStore : stored [instruction] (recent ++ [input.coreRxd]) = [] := by
    cases instruction with
    | read nack => exact absurd rfl (noRead nack)
    | _ => simp [stored]
  have history := (tracks.history.answer input.coreRxd).complete (executing.last zero)
    (by rw [List.length_append, ← executing.answered]; rfl)
  rw [noStore, List.append_nil] at history
  refine ⟨completed ++ [instruction], [], [], later, ?_⟩
  rw [drives.step, drives.consumed, drives.issued, drives.pushed, busAnswer_of_cmdDone awaits done]
  simp only [I2cControl.defaults, Bool.false_and, Bool.false_eq_true, if_false, List.append_nil]
  refine { history := history, phase := phase _ rfl rfl rfl, program := ?_, divNum := ?_ }
  · intro stream
    rw [tracks.program, continues, List.append_assoc, List.singleton_append]
  · intro _
    rw [tracks.divNum (ne_getCfgLsb_of_awaitsAck awaits), divider_snoc _ _ noConfig]

theorem Tracks.step_waiting (notReset : input.swRst = false) {instruction : Instruction}
    (tracks : Tracks control consumed issued pushed answers completed started recent
      (fun stream => instruction :: execute (.command (control.rptNum.toNat + 1)) stream))
    (cs : control.cs = .cmdDone) (executing : Executing control instruction started recent)
    (simple : instruction = .start ∨ instruction = .stop ∨ ∃ cycles, instruction = .wait cycles) :
    FollowsStep control input consumed issued pushed answers := by
  have awaits : control.awaitsAck = true := by rw [I2cControl.awaitsAck, cs]
  cases done : input.cmdDone with
  | false => exact tracks.followsStep_pending notReset awaits done
  | true =>
      by_cases zero : control.bits = 0
      · have driven := control.signals_cmdDone_last done cs zero
        refine tracks.followsStep_complete notReset awaits done executing zero ?_ ?_ control.bits
          control.rptNum false .waitInCmd driven
          (execute (.command (control.rptNum.toNat + 1))) ?_ fun _ => rfl
        · obtain rfl | rfl | ⟨cycles, rfl⟩ := simple <;> exact fun _ => Instruction.noConfusion
        · obtain rfl | rfl | ⟨cycles, rfl⟩ := simple <;> exact fun _ => Instruction.noConfusion
        · intro next nextCs nextBits rptNum
          have rptNum : next.rptNum = control.rptNum := rptNum
          rw [← rptNum]
          exact .command nextCs (nextBits.trans zero)
      · have driven := control.signals_cmdDone_more done cs zero
        have positive : 0 < control.bits.toNat :=
          Nat.pos_of_ne_zero fun none => zero (BitVec.eq_of_toNat_eq none)
        have left := executing.left
        -- Only a wait has more than one command.
        have next : instruction.operations[instruction.operations.length - control.bits.toNat]? =
            some .wait := by
          obtain rfl | rfl | ⟨cycles, rfl⟩ := simple
          · simp only [Instruction.operations, List.length_singleton] at left
            omega
          · simp only [Instruction.operations, List.length_singleton] at left
            omega
          · rw [Instruction.operations, List.length_replicate,
              List.getElem?_replicate_of_lt (by omega)]
        refine tracks.followsStep_issue notReset awaits done .wait control.data (control.bits - 1)
          (driven.trans (by rw [I2cControl.defaults, cs])) rfl ?_
        intro after sameCs rptNum _ _ counted
        rw [← rptNum]
        exact .waiting instruction (sameCs.trans cs) (executing.advance zero counted next _) simple

theorem Tracks.step_reading (notReset : input.swRst = false)
    (tracks : Tracks control consumed issued pushed answers completed started recent
      (fun stream => List.replicate (control.rptNum.toNat + 1) (.read control.rdAck) ++
        execute (.command 1) stream))
    (cs : control.cs = .read)
    (executing : Executing control (.read control.rdAck) started recent)
    (collected : ∃ old, control.data = recent.foldl shiftIn old) :
    FollowsStep control input consumed issued pushed answers := by
  have awaits : control.awaitsAck = true := by rw [I2cControl.awaitsAck, cs]
  cases done : input.cmdDone with
  | false => exact tracks.followsStep_pending notReset awaits done
  | true =>
      have left : control.bits.toNat < 9 := executing.left
      obtain ⟨old, collected⟩ := collected
      have shifted : shiftIn control.data input.coreRxd =
          (recent ++ [input.coreRxd]).foldl shiftIn old := by
        rw [List.foldl_append, ← collected]
        rfl
      by_cases zero : control.bits = 0
      · have drives := drives_of_signals notReset (control.signals_read_last done cs zero)
        have length : started.length = 9 - control.bits.toNat := executing.length_started
        have eight : recent.length = 8 := by
          have answered := executing.answered
          rw [length, zero] at answered
          exact Nat.succ.inj answered
        refine ⟨completed, started, recent ++ [input.coreRxd],
          fun stream => List.replicate (control.rptNum.toNat + 1) (.read control.rdAck) ++
            execute (.command 1) stream, ?_⟩
        rw [drives.step, drives.consumed, drives.issued, drives.pushed,
          busAnswer_of_cmdDone awaits done]
        simp only [I2cControl.defaults, Bool.false_and, Bool.false_eq_true, if_false,
          List.append_nil]
        refine
          { history := tracks.history.answer input.coreRxd
            phase := ?_
            program := tracks.program
            divNum := fun _ => tracks.divNum (by simp [cs]) }
        rw [executing.last zero]
        refine .storing rfl zero (by rw [List.length_append, eight]; rfl) ?_
        rw [List.take_append_of_le_length (Nat.le_of_eq eight.symm),
          List.take_of_length_le (Nat.le_of_eq eight), ← foldl_shiftIn_eight eight old]
        exact collected
      · -- eight bits are read, and then the acknowledge is written
        have phase : ∀ {operation : BusOperation} (after : I2cControl),
            (Instruction.read control.rdAck).operations[9 - control.bits.toNat]? = some operation →
            after.cs = control.cs → after.rptNum = control.rptNum → after.rdAck = control.rdAck →
            after.data = shiftIn control.data input.coreRxd → after.bits = control.bits - 1 →
              Phase after (started ++ [operation]) (recent ++ [input.coreRxd])
                (fun stream => List.replicate (control.rptNum.toNat + 1) (.read control.rdAck) ++
                  execute (.command 1) stream) := by
          intro operation after next sameCs rptNum rdAck data counted
          have advanced := executing.advance zero counted next input.coreRxd
          rw [← rptNum, ← rdAck] at *
          exact .reading (sameCs.trans cs) advanced ⟨old, data.trans shifted⟩
        have driven := control.signals_read_more done cs zero
        by_cases one : control.bits = 1
        · rw [if_pos one] at driven
          refine tracks.followsStep_issue notReset awaits done .write
            (shiftIn control.data input.coreRxd) (control.bits - 1)
            (driven.trans (by rw [I2cControl.defaults, cs])) (by rw [cs]; rfl)
            fun after => phase after ?_
          rw [one]
          rfl
        · rw [if_neg one] at driven
          refine tracks.followsStep_issue notReset awaits done .read
            (shiftIn control.data input.coreRxd) (control.bits - 1)
            (driven.trans (by rw [I2cControl.defaults, cs])) rfl fun after => phase after ?_
          have two : 2 ≤ control.bits.toNat := two_le_toNat zero one
          rw [operations_read_getElem? _ _ (by omega), if_neg (by omega)]

theorem Tracks.step_writing (notReset : input.swRst = false) {byte : BitVec 8}
    (tracks : Tracks control consumed issued pushed answers completed started recent
      (fun stream => .write byte :: execute (.afterWrite (control.rptNum.toNat + 1)) stream))
    (cs : control.cs = .write) (executing : Executing control (.write byte) started recent)
    (shifted : ∀ i < control.bits.toNat,
      control.data.getMsbD i = byte.getMsbD (i + (8 - control.bits.toNat))) :
    FollowsStep control input consumed issued pushed answers := by
  have awaits : control.awaitsAck = true := by rw [I2cControl.awaitsAck, cs]
  cases done : input.cmdDone with
  | false => exact tracks.followsStep_pending notReset awaits done
  | true =>
      have left : control.bits.toNat < 9 := executing.left
      by_cases zero : control.bits = 0
      · by_cases noRepeat : control.rptNum = 0
        · have driven := control.signals_write_once done cs zero noRepeat
          refine tracks.followsStep_complete notReset awaits done executing zero
            (fun _ => Instruction.noConfusion) (fun _ => Instruction.noConfusion) control.bits
            control.rptNum false .waitInCmd driven
            (execute (.command (control.rptNum.toNat + 1))) ?_ ?_
          · intro next nextCs nextBits rptNum
            have rptNum : next.rptNum = control.rptNum := rptNum
            rw [← rptNum]
            exact .command nextCs (nextBits.trans zero)
          · intro stream
            rw [noRepeat]
            rfl
        · have driven := control.signals_write_again done cs zero noRepeat
          have again : Expects.afterWrite (control.rptNum.toNat + 1) =
              .writeData ((control.rptNum - 1).toNat + 1) := by
            have pred := toNat_pred_add_one noRepeat
            rw [Expects.afterWrite, if_neg (by omega), pred, Nat.add_sub_cancel]
          refine tracks.followsStep_complete notReset awaits done executing zero
            (fun _ => Instruction.noConfusion) (fun _ => Instruction.noConfusion) 8
            (control.rptNum - 1) true .getData driven
            (execute (.writeData ((control.rptNum - 1).toNat + 1))) ?_ ?_
          · intro next nextCs _ rptNum
            have rptNum : next.rptNum = control.rptNum - 1 := rptNum
            rw [← rptNum]
            exact .writeData nextCs
          · intro stream
            rw [again]
      · have pred := toNat_pred_add_one zero
        have next_shifted : ∀ i < (control.bits - 1).toNat,
            (shiftIn control.data false).getMsbD i =
              byte.getMsbD (i + (8 - (control.bits - 1).toNat)) := by
          intro i inside
          rw [getMsbD_shiftIn _ _ _ (by omega), shifted (i + 1) (by omega)]
          congr 1
          omega
        -- eight bits are written, and then the acknowledge is read
        have phase : ∀ {operation : BusOperation} (after : I2cControl),
            (Instruction.write byte).operations[9 - control.bits.toNat]? = some operation →
            after.cs = control.cs → after.rptNum = control.rptNum → after.rdAck = control.rdAck →
            after.data = shiftIn control.data false → after.bits = control.bits - 1 →
              Phase after (started ++ [operation]) (recent ++ [input.coreRxd])
                (fun stream => .write byte ::
                  execute (.afterWrite (control.rptNum.toNat + 1)) stream) := by
          intro operation after next sameCs rptNum _ data counted
          have advanced := executing.advance zero counted next input.coreRxd
          rw [← rptNum]
          refine .writing byte (sameCs.trans cs) advanced ?_
          rw [counted, data]
          exact next_shifted
        have driven := control.signals_write_more done cs zero
        by_cases one : control.bits = 1
        · rw [if_pos one] at driven
          refine tracks.followsStep_issue notReset awaits done .read (shiftIn control.data false)
            (control.bits - 1) (driven.trans (by rw [I2cControl.defaults, cs])) rfl
            fun after => phase after ?_
          rw [one]
          rfl
        · rw [if_neg one] at driven
          have two : 2 ≤ control.bits.toNat := two_le_toNat zero one
          have sent : (shiftIn control.data false).getLsbD 7 =
              byte.getMsbD (9 - control.bits.toNat) := by
            rw [getLsbD_seven, next_shifted 0 (by omega)]
            congr 1
            omega
          refine tracks.followsStep_issue notReset awaits done .write (shiftIn control.data false)
            (control.bits - 1) (driven.trans (by rw [I2cControl.defaults, cs])) (by rw [cs]; rfl)
            fun after => phase after ?_
          rw [operations_write_getElem? _ _ (by omega), if_neg (by omega), sent]
          rfl

/-- A command byte was decoded: what the state machine does next is a phase from
which the rest of the stream is executed. -/
theorem Tracks.followsStep_decoded (notReset : input.swRst = false)
    (tracks : Tracks control consumed issued pushed answers completed [] [] resume)
    (cs : control.cs = .waitInCmd) (valid : input.dataTxValid = true)
    (cmd : BusCmd) (issues rdAck : Bool) (bits : BitVec 8) (sampleEv : Bool) (ns : ControlState)
    (driven : control.decoded (decode input.dataTx) =
      { control.defaults with
        dataTxReady := true, busIfCmd := cmd, busIfCmdValid := issues, rdAck := rdAck
        bits := bits, sampleEv := sampleEv, ns := ns })
    (later : List (BitVec 8) → List Instruction)
    (phase : ∀ next : I2cControl, next.cs = ns → next.rptNum = control.rptNum →
      next.bits = bits → next.rdAck = rdAck →
      Phase next (if issues then cmd.operation (control.data.getLsbD 7) else []) [] later)
    (continues : ∀ stream, resume (input.dataTx :: stream) = later stream) :
    FollowsStep control input consumed issued pushed answers := by
  have noAnswer : control.busAnswer input = [] :=
    busAnswer_of_not_awaitsAck (by simp [I2cControl.awaitsAck, cs])
  have signals : control.signals input = control.decoded (decode input.dataTx) := by
    simp only [I2cControl.signals, cs, I2cControl.waitInCmd, valid, if_true]
  have drives := drives_of_signals notReset (signals.trans driven)
  refine ⟨completed, if issues then cmd.operation (control.data.getLsbD 7) else [], [], later, ?_⟩
  rw [drives.step, drives.consumed, drives.issued, drives.pushed, noAnswer]
  simp only [I2cControl.defaults, valid, cs, Bool.and_self, Bool.false_and, if_true,
    Bool.false_eq_true, if_false, List.append_nil, reduceCtorEq]
  refine
    { history := ?_
      phase := phase _ rfl rfl rfl rfl
      program := ?_
      divNum := fun _ => tracks.divNum (by simp [cs]) }
  · obtain ⟨issued, answers⟩ := tracks.history
    exact ⟨by rw [issued, List.append_nil], answers⟩
  · intro stream
    rw [tracks.take, continues]

theorem Tracks.step_command (notReset : input.swRst = false)
    (tracks : Tracks control consumed issued pushed answers completed [] []
      (execute (.command (control.rptNum.toNat + 1))))
    (cs : control.cs = .waitInCmd) (bits : control.bits = 0) :
    FollowsStep control input consumed issued pushed answers := by
  cases valid : input.dataTxValid with
  | false =>
      exact tracks.followsStep_stall notReset true false
        (by simp [I2cControl.signals, cs, I2cControl.waitInCmd, valid, I2cControl.defaults])
        (by simp [valid]) rfl
        (busAnswer_of_not_awaitsAck (by simp [I2cControl.awaitsAck, cs]))
  | true =>
      -- The same arguments for every code: the command issued, if any, and the next state.
      cases command : decode input.dataTx with
      | none =>
          refine tracks.followsStep_decoded notReset cs valid .none false control.rdAck control.bits
            false .waitInCmd (by rw [command, ← cs]; rfl)
            (execute (.command (control.rptNum.toNat + 1))) ?_ ?_
          · intro next cs rptNum sameBits _
            exact rptNum ▸ .command cs (sameBits.trans bits)
          · intro stream
            simp only [execute, command]
      | some code =>
          cases code with
          | start =>
              refine tracks.followsStep_decoded notReset cs valid .start true control.rdAck
                control.bits false .cmdDone (by rw [command]; rfl)
                (fun stream => .start :: execute (.command (control.rptNum.toNat + 1)) stream) ?_ ?_
              · intro next cs rptNum sameBits _
                rw [← rptNum]
                exact .waiting .start cs (.first (by rw [sameBits, bits]; rfl) rfl) (by simp)
              · intro stream
                simp only [execute, command]
          | stop =>
              refine tracks.followsStep_decoded notReset cs valid .stop true control.rdAck
                control.bits false .cmdDone (by rw [command]; rfl)
                (fun stream => .stop :: execute (.command (control.rptNum.toNat + 1)) stream) ?_ ?_
              · intro next cs rptNum sameBits _
                rw [← rptNum]
                exact .waiting .stop cs (.first (by rw [sameBits, bits]; rfl) rfl) (by simp)
              · intro stream
                simp only [execute, command]
          | rdAck =>
              refine tracks.followsStep_decoded notReset cs valid .read true false 8 false .read
                (by rw [command]; rfl)
                (fun stream => List.replicate (control.rptNum.toNat + 1) (.read false) ++
                  execute (.command 1) stream) ?_ ?_
              · intro next cs rptNum sameBits rdAck
                change Phase next [.read] [] _
                rw [← rptNum, ← rdAck]
                exact .reading cs (.first (by rw [sameBits]; rfl) rfl) ⟨_, rfl⟩
              · intro stream
                simp only [execute, command]
          | rdNack =>
              refine tracks.followsStep_decoded notReset cs valid .read true true 8 false .read
                (by rw [command]; rfl)
                (fun stream => List.replicate (control.rptNum.toNat + 1) (.read true) ++
                  execute (.command 1) stream) ?_ ?_
              · intro next cs rptNum sameBits rdAck
                change Phase next [.read] [] _
                rw [← rptNum, ← rdAck]
                exact .reading cs (.first (by rw [sameBits]; rfl) rfl) ⟨_, rfl⟩
              · intro stream
                simp only [execute, command]
          | wr =>
              refine tracks.followsStep_decoded notReset cs valid .none false control.rdAck
                control.bits false .getData (by rw [command]; rfl)
                (execute (.writeData (control.rptNum.toNat + 1))) ?_ ?_
              · intro next cs rptNum sameBits _
                exact rptNum ▸ .writeData cs
              · intro stream
                simp only [execute, command]
          | wait =>
              refine tracks.followsStep_decoded notReset cs valid .none false control.rdAck
                control.bits false .getWait (by rw [command]; rfl)
                (execute (.waitCount (control.rptNum.toNat + 1))) ?_ ?_
              · intro next cs rptNum sameBits _
                exact rptNum ▸ .waitCount cs
              · intro stream
                simp only [execute, command]
          | rpt =>
              refine tracks.followsStep_decoded notReset cs valid .none false control.rdAck
                control.bits false .getRpt (by rw [command]; rfl)
                (execute .repeatCount) ?_ ?_
              · intro next cs rptNum sameBits _
                exact .repeatCount cs (sameBits.trans bits)
              · intro stream
                simp only [execute, command]
          | cfg =>
              refine tracks.followsStep_decoded notReset cs valid .none false control.rdAck
                control.bits false .getCfgMsb (by rw [command]; rfl)
                (execute (.dividerMsb (control.rptNum.toNat + 1))) ?_ ?_
              · intro next cs rptNum sameBits _
                exact rptNum ▸ .dividerMsb cs (sameBits.trans bits)
              · intro stream
                simp only [execute, command]
          | waitEv =>
              refine tracks.followsStep_decoded notReset cs valid .none false control.rdAck
                control.bits true .waitEv (by rw [command]; rfl)
                (execute (.command (control.rptNum.toNat + 1))) ?_ ?_
              · intro next cs rptNum sameBits _
                exact rptNum ▸ .event cs (sameBits.trans bits)
              · intro stream
                simp only [execute, command]

/-- Every cycle keeps the controller with the reference interpreter. -/
theorem Follows.step (notReset : input.swRst = false) (skips : SkipsWholeCommand control input)
    (follows : Follows control consumed issued pushed answers) :
    FollowsStep control input consumed issued pushed answers := by
  obtain ⟨completed, started, recent, resume, tracks⟩ := follows
  cases tracks.phase with
  | command cs bits => exact tracks.step_command notReset cs bits
  | event cs bits => exact tracks.step_event notReset cs bits
  | writeData cs => exact tracks.step_writeData notReset cs
  | waitCount cs => exact tracks.step_waitCount notReset cs
  | repeatCount cs bits => exact tracks.step_repeatCount notReset cs bits
  | dividerMsb cs bits => exact tracks.step_dividerMsb notReset cs bits
  | dividerLsb cs bits high => exact tracks.step_dividerLsb notReset cs bits high
  | skipped cs bits noRepeat => exact tracks.step_skipped notReset cs bits noRepeat skips
  | waiting instruction cs executing simple =>
      exact tracks.step_waiting notReset cs executing simple
  | reading cs executing collected => exact tracks.step_reading notReset cs executing collected
  | storing cs bits answered collected =>
      exact tracks.step_storing notReset cs bits answered collected
  | writing byte cs executing shifted => exact tracks.step_writing notReset cs executing shifted

theorem follows_run (inputs : List I2cInput)
    (always : i2cMachine.Always
      (fun control input => NotReset control input ∧ SkipsWholeCommand control input) inputs) :
    Follows (i2cMachine.run inputs) (consumedBytes inputs) (issuedOperations inputs)
      (pushedBytes inputs) (busAnswers inputs) := by
  refine Machine.run_induction (motive := fun inputs control =>
    Follows control (consumedBytes inputs) (issuedOperations inputs) (pushedBytes inputs)
      (busAnswers inputs)) ?_ ?_ inputs always
  · exact follows_reset
  · intro inputs input _ follows allowed
    simp only [consumedBytes, issuedOperations, pushedBytes, busAnswers, Machine.observed_snoc]
    exact follows.step allowed.1 allowed.2

end CoreVMcu.I2c
