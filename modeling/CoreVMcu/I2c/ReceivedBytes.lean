import CoreVMcu.I2c.Phases

/-!
# Where received bytes come from

An observer of the ports follows the byte reads: the bits that answer the read
commands issued since the last command byte, the answer to the acknowledge bit that
follows eight of them, and the byte that is then due on `data_rx`.  A software reset
abandons the byte read in progress.
-/

namespace CoreVMcu.I2c

open Clocked

/-- A byte read as it is seen at the ports. -/
structure ByteRead where
  /-- The last command byte taken was `RD_ACK` or `RD_NACK`. -/
  ofRead : Bool
  /-- The bus command that waits for its answer. -/
  awaited : Option BusOperation
  /-- The answers to the read commands since that command byte or the last byte. -/
  bits : List Bool
  /-- The acknowledge bit was sent after eight of them. -/
  acknowledged : Bool
  deriving DecidableEq, Repr

namespace ByteRead

/-- No byte is read. -/
def idle : ByteRead := { ofRead := false, awaited := none, bits := [], acknowledged := false }

/-- The byte that is due on `data_rx` is stored. -/
def completes (read : ByteRead) (input : I2cInput) : Bool :=
  read.acknowledged && input.dataRxReady

/-- Once the byte is stored, the next read of the instruction can begin. -/
def store (read : ByteRead) (input : I2cInput) : ByteRead :=
  if read.completes input then { read with bits := [], acknowledged := false } else read

/-- The answer to the awaited bus command. -/
def answer (read : ByteRead) (bit : Bool) : ByteRead :=
  match read.awaited with
  | some .read => { read with awaited := none, bits := read.bits ++ [bit] }
  | some (.write _) =>
      { read with awaited := none, acknowledged := read.ofRead && read.bits.length == 8 }
  | _ => { read with awaited := none }

/-- A byte is taken from the command stream. -/
def take (_ : ByteRead) (byte : BitVec 8) : ByteRead :=
  { idle with ofRead := decode byte == some .rdAck || decode byte == some .rdNack }

/-- A bus command is issued. -/
def issue (read : ByteRead) (operation : BusOperation) : ByteRead :=
  { read with awaited := some operation }

/-- What is seen in one cycle. -/
def step (read : ByteRead) (control : I2cControl) (input : I2cInput) : ByteRead :=
  if input.swRst then idle
  else
    let answered := (control.busAnswer input).foldl answer (read.store input)
    let taken := (control.consumedByte input).foldl take answered
    (control.issuedOperation input).foldl issue taken

end ByteRead

/-- The controller with the observer of its byte reads. -/
structure ObservedControl where
  control : I2cControl
  read : ByteRead
  deriving DecidableEq, Repr

namespace ObservedControl

/-- One cycle. -/
def step (observed : ObservedControl) (input : I2cInput) : ObservedControl :=
  { control := observed.control.step input
    read := observed.read.step observed.control input }

/-- The byte read that completes in a cycle. -/
def completedRead (observed : ObservedControl) (input : I2cInput) : List ByteRead :=
  if observed.read.completes input then [observed.read] else []

end ObservedControl

/-- The observed controller from reset. -/
def observedMachine : Machine ObservedControl I2cInput where
  init := { control := .reset, read := .idle }
  step := ObservedControl.step

/-- The byte reads that complete along a run. -/
def completedReads (inputs : List I2cInput) : List ByteRead :=
  observedMachine.observed ObservedControl.completedRead inputs

/-- The same cycle without the software reset. -/
def I2cInput.withoutReset (input : I2cInput) : I2cInput := { input with swRst := false }

/-- The bytes taken from `data_rx` come from the bus only. -/
structure ReceivesFromBus (inputs : List I2cInput) : Prop where
  /-- At any time the bytes taken are those of the completed reads. -/
  counted : ∀ n, (pushedBytes (inputs.take n)).length = (completedReads (inputs.take n)).length
  pushed : ∀ n, pushedBytes (inputs.take n) =
    (completedReads (inputs.take n)).map fun read => byteOf read.bits
  /-- A completed read has eight answers to read commands of one read instruction. -/
  eightBits : ∀ read ∈ completedReads inputs, read.ofRead = true ∧ read.bits.length = 8
  /-- No byte is taken that would not be taken without the software reset. -/
  notByReset : i2cMachine.Always
    (fun control input => control.pushedByte input = control.pushedByte input.withoutReset) inputs

/-- `data_rx` takes no byte in a software reset unless one was due. -/
def ResetTakesNothing (control : I2cControl) (input : I2cInput) : Prop :=
  input.swRst = true → input.dataRxReady = true → control.cs = .storeData

instance (control : I2cControl) (input : I2cInput) :
    Decidable (ResetTakesNothing control input) :=
  inferInstanceAs (Decidable (_ → _ → _))

variable {control : I2cControl} {input : I2cInput} {read : ByteRead}

/-- What the observer has seen in each state of the controller. -/
inductive Sees (control : I2cControl) (read : ByteRead) : Prop where
  | reading (cs : control.cs = .read) (ofRead : read.ofRead = true)
      (awaited : read.awaited =
        some (if control.bits = 0 then .write control.rdAck else .read))
      (counted : read.bits.length + control.bits.toNat = 8)
      (collected : ∃ old, control.data = read.bits.foldl shiftIn old)
      (notYet : read.acknowledged = false)
  | storing (cs : control.cs = .storeData) (ofRead : read.ofRead = true)
      (eight : read.bits.length = 8) (collected : control.data = byteOf read.bits)
      (acknowledged : read.acknowledged = true)
  | writing (cs : control.cs = .write) (nothing : read.bits = [])
      (awaited : control.bits ≠ 0 → ∃ bit, read.awaited = some (.write bit))
      (notYet : read.acknowledged = false)
  | waiting (cs : control.cs = .cmdDone)
      (awaited : ∀ bit, read.awaited ≠ some (.write bit)) (notYet : read.acknowledged = false)
  | free (takes : control.awaitsAck = false) (notStoring : control.cs ≠ .storeData)
      (notYet : read.acknowledged = false)

theorem awaits_noWrite {operation : BusOperation} (awaited : read.awaited = some operation)
    (noWrite : ∀ bit, operation ≠ .write bit) : ∀ bit, read.awaited ≠ some (.write bit) := by
  intro bit same
  exact noWrite bit (Option.some.inj (awaited.symm.trans same))

/-! ## One cycle -/

@[simp] theorem ByteRead.store_of_notYet (notYet : read.acknowledged = false) :
    read.store input = read := by
  simp [ByteRead.store, ByteRead.completes, notYet]

theorem ByteRead.store_of_notReady (notReady : input.dataRxReady = false) :
    read.store input = read := by
  simp [ByteRead.store, ByteRead.completes, notReady]

/-- What the observer sees in a cycle, in terms of what the state machine drives. -/
theorem ByteRead.step_of_drives (notReset : input.swRst = false) {signals : ControlSignals}
    (drives : Drives control input signals) (quiet : control.busAnswer input = [])
    (noByte : signals.dataTxReady = false) (noCommand : signals.busIfCmdValid = false) :
    read.step control input = read.store input := by
  rw [ByteRead.step, notReset, if_neg Bool.false_ne_true, quiet, drives.consumed,
    drives.issued, noByte, noCommand]
  rfl

/-- The byte that a cycle takes from the command stream, if any, begins anew. -/
theorem ByteRead.notYet_take (notReset : input.swRst = false)
    (quiet : control.busAnswer input = []) (notYet : read.acknowledged = false) :
    (read.step control input).acknowledged = false := by
  rw [ByteRead.step, notReset, if_neg Bool.false_ne_true, quiet, List.foldl_nil,
    ByteRead.store_of_notYet notYet]
  have taken : ((control.consumedByte input).foldl ByteRead.take read).acknowledged = false := by
    rw [I2cControl.consumedByte]
    split
    · rfl
    · exact notYet
  have issued : ∀ (operations : List BusOperation) (before : ByteRead),
      (operations.foldl ByteRead.issue before).acknowledged = before.acknowledged := by
    intro operations
    induction operations with
    | nil => exact fun _ => rfl
    | cons operation operations inductionHypothesis =>
        intro before
        exact inductionHypothesis (before.issue operation)
  exact (issued _ _).trans taken

/-- A state that asks for no answer is left for another one of this kind. -/
theorem Sees.free_step (notReset : input.swRst = false) (takes : control.awaitsAck = false)
    (notYet : read.acknowledged = false)
    (takesNext : (control.step input).awaitsAck = false)
    (notStoring : (control.step input).cs ≠ .storeData) :
    Sees (control.step input) (read.step control input) :=
  .free takesNext notStoring
    (ByteRead.notYet_take notReset (busAnswer_of_not_awaitsAck takes) notYet)

/-- What is seen depends on four registers only. -/
theorem Sees.mono {next : I2cControl} (sees : Sees control read) (cs : next.cs = control.cs)
    (bits : next.bits = control.bits) (data : next.data = control.data)
    (rdAck : next.rdAck = control.rdAck) : Sees next read := by
  cases sees with
  | reading at_ ofRead awaited counted collected notYet =>
      exact .reading (cs.trans at_) ofRead (by rw [bits, rdAck]; exact awaited)
        (by rw [bits]; exact counted) (by rw [data]; exact collected) notYet
  | storing at_ ofRead eight collected acknowledged =>
      exact .storing (cs.trans at_) ofRead eight (data.trans collected) acknowledged
  | writing at_ nothing awaited notYet =>
      exact .writing (cs.trans at_) nothing (by rw [bits]; exact awaited) notYet
  | waiting at_ awaited notYet => exact .waiting (cs.trans at_) awaited notYet
  | free takes notStoring notYet =>
      refine .free ?_ (by rw [cs]; exact notStoring) notYet
      rw [I2cControl.awaitsAck, cs]
      exact takes

/-- A cycle in which the state machine waits. -/
theorem Sees.stall (sees : Sees control read) (notReset : input.swRst = false)
    (driven : control.signals input = control.defaults) (quiet : control.busAnswer input = [])
    (kept : read.store input = read) :
    Sees (control.step input) (read.step control input) := by
  have drives := drives_of_signals notReset driven
  rw [ByteRead.step_of_drives notReset drives quiet rfl rfl, kept, drives.step]
  exact sees.mono rfl rfl rfl rfl

/-- `ST_READ` with an acknowledge: a bit of the byte, or the acknowledge bit. -/
theorem Sees.step_read (notReset : input.swRst = false) (done : input.cmdDone = true)
    (cs : control.cs = .read) (ofRead : read.ofRead = true)
    (awaited : read.awaited = some (if control.bits = 0 then .write control.rdAck else .read))
    (counted : read.bits.length + control.bits.toNat = 8)
    (collected : ∃ old, control.data = read.bits.foldl shiftIn old)
    (notYet : read.acknowledged = false) :
    Sees (control.step input) (read.step control input) := by
  have answers : control.busAnswer input = [input.coreRxd] := by
    simp [I2cControl.busAnswer, I2cControl.awaitsAck, cs, done]
  obtain ⟨old, collected⟩ := collected
  cases (inferInstance : Decidable (control.bits = 0)) with
  | isTrue last =>
      have drives := drives_of_signals notReset (control.signals_read_last done cs last)
      have eight : read.bits.length = 8 := by simpa [last] using counted
      have seen : read.step control input =
          { read with awaited := none, acknowledged := true } := by
        rw [if_pos last] at awaited
        simp [ByteRead.step, notReset, answers, drives.consumed, drives.issued,
          I2cControl.defaults, notYet, ByteRead.answer, awaited, ofRead, eight]
      rw [seen, drives.step]
      exact .storing rfl ofRead eight
        (collected.trans (foldl_shiftIn_eight eight old)) rfl
  | isFalse more =>
      have pred := toNat_pred_add_one more
      have drives := drives_of_signals notReset (control.signals_read_more done cs more)
      have last : control.bits = 1 ↔ control.bits - 1 = 0 := by
        constructor <;> intro at_
        · rw [at_]; rfl
        · apply BitVec.eq_of_toNat_eq
          rw [← pred, at_]
          rfl
      have seen : read.step control input =
          { read with
            awaited := some (if control.bits - 1 = 0 then .write control.rdAck else .read)
            bits := read.bits ++ [input.coreRxd] } := by
        rw [if_neg more] at awaited
        simp only [ByteRead.step, notReset, Bool.false_eq_true, if_false, answers,
          drives.consumed, drives.issued, I2cControl.defaults, Bool.false_and, if_true,
          List.foldl_cons, List.foldl_nil, ByteRead.store_of_notYet notYet, ByteRead.answer,
          awaited, cs, last]
        split <;> rfl
      rw [seen, drives.step]
      refine .reading rfl ofRead rfl ?_ ⟨old, ?_⟩ notYet
      · change (read.bits ++ [input.coreRxd]).length + (control.bits - 1).toNat = 8
        rw [List.length_append, List.length_singleton]
        omega
      · change shiftIn control.data input.coreRxd = _
        rw [collected, List.foldl_append]
        rfl

/-- `ST_STORE_DATA` with a ready receiver: the next byte of the instruction, or none. -/
theorem Sees.step_stored (notReset : input.swRst = false) (ready : input.dataRxReady = true)
    (cs : control.cs = .storeData) (ofRead : read.ofRead = true)
    (acknowledged : read.acknowledged = true) :
    Sees (control.step input) (read.step control input) := by
  have quiet : control.busAnswer input = [] :=
    busAnswer_of_not_awaitsAck (by simp [I2cControl.awaitsAck, cs])
  have stored : read.store input = { read with bits := [], acknowledged := false } := by
    simp [ByteRead.store, ByteRead.completes, acknowledged, ready]
  cases (inferInstance : Decidable (control.rptNum = 0)) with
  | isTrue last =>
      have drives := drives_of_signals notReset (control.signals_storeData_last cs ready last)
      rw [ByteRead.step_of_drives notReset drives quiet rfl rfl, stored, drives.step]
      exact .free rfl (fun same => ControlState.noConfusion same) rfl
  | isFalse more =>
      have drives := drives_of_signals notReset (control.signals_storeData_more cs ready more)
      have seen : read.step control input =
          { read with awaited := some .read, bits := [], acknowledged := false } := by
        rw [ByteRead.step, notReset, if_neg Bool.false_ne_true, quiet, List.foldl_nil, stored,
          drives.consumed, drives.issued]
        rfl
      rw [seen, drives.step]
      exact .reading rfl ofRead rfl rfl ⟨control.data, rfl⟩ rfl

/-- `ST_WRITE` with an acknowledge: no bit of a byte read. -/
theorem Sees.step_write (notReset : input.swRst = false) (done : input.cmdDone = true)
    (cs : control.cs = .write) (nothing : read.bits = [])
    (awaited : control.bits ≠ 0 → ∃ bit, read.awaited = some (.write bit))
    (notYet : read.acknowledged = false) :
    Sees (control.step input) (read.step control input) := by
  have answers : control.busAnswer input = [input.coreRxd] := by
    simp [I2cControl.busAnswer, I2cControl.awaitsAck, cs, done]
  have answered : (read.answer input.coreRxd).acknowledged = false := by
    rw [ByteRead.answer]
    split
    · exact notYet
    · simp [nothing]
    · exact notYet
  cases (inferInstance : Decidable (control.bits = 0)) with
  | isTrue last =>
      cases (inferInstance : Decidable (control.rptNum = 0)) with
      | isTrue once =>
          have drives := drives_of_signals notReset
            (control.signals_write_once done cs last once)
          rw [drives.step]
          refine .free rfl (fun same => ControlState.noConfusion same) ?_
          simpa [ByteRead.step, notReset, answers, drives.consumed, drives.issued,
            I2cControl.defaults, notYet] using answered
      | isFalse again =>
          have drives := drives_of_signals notReset
            (control.signals_write_again done cs last again)
          rw [drives.step]
          refine .free rfl (fun same => ControlState.noConfusion same) ?_
          simpa [ByteRead.step, notReset, answers, drives.consumed, drives.issued,
            I2cControl.defaults, notYet] using answered
  | isFalse more =>
      obtain ⟨bit, awaited⟩ := awaited more
      have answered : read.answer input.coreRxd = { read with awaited := none } := by
        simp [ByteRead.answer, awaited, nothing, notYet]
      have seen : ∀ {signals : ControlSignals}, control.signals input = signals →
          signals.dataTxReady = false → ∀ {operation : BusOperation},
          control.issuedOperation input = [operation] →
          read.step control input = { read with awaited := some operation } := by
        intro signals driven noByte operation issued
        rw [ByteRead.step, notReset, if_neg Bool.false_ne_true, answers, issued,
          (drives_of_signals notReset driven).consumed, noByte, ByteRead.store_of_notYet notYet]
        change (read.answer input.coreRxd).issue operation = _
        rw [answered]
        rfl
      have driven := control.signals_write_more done cs more
      cases (inferInstance : Decidable (control.bits = 1)) with
      | isTrue one =>
          rw [if_pos one] at driven
          have drives := drives_of_signals notReset driven
          rw [seen driven rfl drives.issued, drives.step]
          refine .writing rfl nothing (fun notLast => absurd ?_ notLast) notYet
          change control.bits - 1 = 0
          rw [one]
          rfl
      | isFalse several =>
          rw [if_neg several] at driven
          have drives := drives_of_signals notReset driven
          rw [seen driven rfl drives.issued, drives.step]
          exact .writing rfl nothing (fun _ => ⟨_, rfl⟩) notYet

/-- `ST_CMD_DONE` with an acknowledge: the next wait, or none. -/
theorem Sees.step_cmdDone (notReset : input.swRst = false) (done : input.cmdDone = true)
    (cs : control.cs = .cmdDone) (awaited : ∀ bit, read.awaited ≠ some (.write bit))
    (notYet : read.acknowledged = false) :
    Sees (control.step input) (read.step control input) := by
  have answers : control.busAnswer input = [input.coreRxd] := by
    simp [I2cControl.busAnswer, I2cControl.awaitsAck, cs, done]
  have answered : (read.answer input.coreRxd).acknowledged = false := by
    rw [ByteRead.answer]
    split
    · exact notYet
    · next bit isWrite => exact absurd isWrite (awaited bit)
    · exact notYet
  cases (inferInstance : Decidable (control.bits = 0)) with
  | isTrue last =>
      have drives := drives_of_signals notReset (control.signals_cmdDone_last done cs last)
      rw [drives.step]
      refine .free rfl (fun same => ControlState.noConfusion same) ?_
      simpa [ByteRead.step, notReset, answers, drives.consumed, drives.issued,
        I2cControl.defaults, notYet] using answered
  | isFalse more =>
      have drives := drives_of_signals notReset (control.signals_cmdDone_more done cs more)
      have seen : read.step control input = (read.answer input.coreRxd).issue .wait := by
        rw [ByteRead.step, notReset, if_neg Bool.false_ne_true, answers, drives.issued,
          drives.consumed, ByteRead.store_of_notYet notYet]
        rfl
      rw [seen, drives.step]
      exact .waiting rfl (awaits_noWrite rfl fun _ same => BusOperation.noConfusion same) answered

/-- A byte is taken from the command stream, and a bus command may be issued. -/
theorem ByteRead.step_taking (notReset : input.swRst = false) {signals : ControlSignals}
    (drives : Drives control input signals) (quiet : control.busAnswer input = [])
    (ready : signals.dataTxReady = true) (valid : input.dataTxValid = true) :
    read.step control input =
      (control.issuedOperation input).foldl issue (read.take input.dataTx) := by
  rw [ByteRead.step, notReset, if_neg Bool.false_ne_true, quiet, drives.consumed, ready, valid]
  rfl

/-- `ST_WAIT_IN_CMD` with a valid command byte. -/
theorem Sees.step_command (notReset : input.swRst = false) (valid : input.dataTxValid = true)
    (cs : control.cs = .waitInCmd) (notYet : read.acknowledged = false) :
    Sees (control.step input) (read.step control input) := by
  have takes : control.awaitsAck = false := by rw [I2cControl.awaitsAck, cs]
  have quiet : control.busAnswer input = [] := busAnswer_of_not_awaitsAck takes
  have driven : control.signals input = control.decoded (decode input.dataTx) := by
    simp [I2cControl.signals, cs, I2cControl.waitInCmd, valid]
  have drives := drives_of_signals notReset driven
  have ready : (control.decoded (decode input.dataTx)).dataTxReady = true := by
    unfold I2cControl.decoded
    split <;> rfl
  cases code : decode input.dataTx with
  | none =>
      rw [code] at drives
      refine free_step notReset takes notYet ?_ ?_
      · rw [drives.step, I2cControl.awaitsAck]
        simp [I2cControl.decoded, I2cControl.defaults, cs]
      · rw [drives.step]
        simp [I2cControl.decoded, I2cControl.defaults, cs]
  | some command =>
      rw [code] at drives ready
      cases command with
      | start | stop =>
          rw [ByteRead.step_taking notReset drives quiet ready valid, drives.issued, drives.step]
          exact .waiting rfl (awaits_noWrite rfl fun _ same => BusOperation.noConfusion same) rfl
      | rdAck | rdNack =>
          rw [ByteRead.step_taking notReset drives quiet ready valid, drives.issued, drives.step]
          refine .reading rfl ?_ rfl rfl ⟨control.data, rfl⟩ rfl
          change (decode input.dataTx == some .rdAck || decode input.dataTx == some .rdNack) = true
          rw [code]
          rfl
      | wr | wait | rpt | cfg | waitEv =>
          refine free_step notReset takes notYet ?_ ?_
          · rw [drives.step]
            rfl
          · rw [drives.step]
            exact fun same => ControlState.noConfusion same

/-- A state in which neither an answer is awaited nor a byte is due. -/
theorem Sees.step_free (notReset : input.swRst = false) (takes : control.awaitsAck = false)
    (notStoring : control.cs ≠ .storeData) (notYet : read.acknowledged = false) :
    Sees (control.step input) (read.step control input) := by
  have quiet : control.busAnswer input = [] := busAnswer_of_not_awaitsAck takes
  have next : (control.step input).cs = (control.signals input).ns := by
    rw [I2cControl.step, notReset, if_neg Bool.false_ne_true]
  have elsewhere : ∀ {cs : ControlState}, (control.signals input).ns = cs →
      cs ∉ [.cmdDone, .read, .write, .storeData] →
      Sees (control.step input) (read.step control input) := by
    intro cs ns outside
    rw [ns] at next
    refine free_step notReset takes notYet ?_ ?_
    · rw [I2cControl.awaitsAck, next]
      cases cs <;> simp_all
    · rw [next]
      exact fun storing => outside (by simp [storing])
  cases cs : control.cs with
  | waitInCmd =>
      cases valid : input.dataTxValid with
      | true => exact step_command notReset valid cs notYet
      | false =>
          exact @elsewhere .waitInCmd
            (by simp [I2cControl.signals, cs, I2cControl.waitInCmd, valid, I2cControl.defaults])
            (by decide)
  | getData =>
      cases valid : input.dataTxValid with
      | false =>
          exact @elsewhere .getData
            (by simp [I2cControl.signals, cs, I2cControl.getData, valid, I2cControl.defaults])
            (by decide)
      | true =>
          have drives := drives_of_signals notReset (control.signals_getData cs valid)
          rw [ByteRead.step_taking notReset drives quiet rfl valid, drives.issued, drives.step]
          exact .writing rfl rfl (fun _ => ⟨_, rfl⟩) rfl
  | getWait =>
      cases valid : input.dataTxValid with
      | false =>
          exact @elsewhere .getWait
            (by simp [I2cControl.signals, cs, I2cControl.getWait, valid, I2cControl.defaults])
            (by decide)
      | true =>
          have drives := drives_of_signals notReset (control.signals_getWait cs valid)
          rw [ByteRead.step_taking notReset drives quiet rfl valid, drives.issued, drives.step]
          exact .waiting rfl (awaits_noWrite rfl fun _ same => BusOperation.noConfusion same) rfl
  | waitEv =>
      have stays : (control.signals input).ns = .waitEv ∨
          (control.signals input).ns = .waitInCmd := by
        simp only [I2cControl.signals, cs, I2cControl.waitEv]
        (repeat' split) <;> simp [I2cControl.defaults, cs]
      rcases stays with ns | ns
      · exact elsewhere ns (by decide)
      · exact elsewhere ns (by decide)
  | getRpt =>
      have stays : (control.signals input).ns = .getRpt ∨
          (control.signals input).ns = .skipCmd ∨ (control.signals input).ns = .waitInCmd := by
        simp only [I2cControl.signals, cs, I2cControl.getRpt]
        (repeat' split) <;> simp [I2cControl.defaults, cs]
      rcases stays with ns | ns | ns
      · exact elsewhere ns (by decide)
      · exact elsewhere ns (by decide)
      · exact elsewhere ns (by decide)
  | getCfgMsb =>
      have stays : (control.signals input).ns = .getCfgMsb ∨
          (control.signals input).ns = .getCfgLsb := by
        simp only [I2cControl.signals, cs, I2cControl.getCfgMsb]
        split <;> simp [I2cControl.defaults, cs]
      rcases stays with ns | ns
      · exact elsewhere ns (by decide)
      · exact elsewhere ns (by decide)
  | getCfgLsb =>
      have stays : (control.signals input).ns = .getCfgLsb ∨
          (control.signals input).ns = .waitInCmd := by
        simp only [I2cControl.signals, cs, I2cControl.getCfgLsb]
        split <;> simp [I2cControl.defaults, cs]
      rcases stays with ns | ns
      · exact elsewhere ns (by decide)
      · exact elsewhere ns (by decide)
  | skipCmd | getWaitEv =>
      exact @elsewhere .waitInCmd
        (by simp [I2cControl.signals, cs, I2cControl.skipCmd]) (by decide)
  | cmdDone | read | write => rw [I2cControl.awaitsAck, cs] at takes; cases takes
  | storeData => exact absurd cs notStoring

/-- Every cycle keeps what the observer has seen. -/
theorem Sees.step (sees : Sees control read) (input : I2cInput) :
    Sees (control.step input) (read.step control input) := by
  cases reset : input.swRst with
  | true =>
      rw [I2cControl.step, ByteRead.step, reset, if_pos rfl, if_pos rfl]
      exact .free rfl (fun same => ControlState.noConfusion same) rfl
  | false =>
      have waits : control.awaitsAck = true → input.cmdDone = false →
          read.acknowledged = false → Sees (control.step input) (read.step control input) := by
        intro awaits pending notYet
        exact sees.stall reset (control.signals_of_pending awaits pending)
          (busAnswer_of_not_cmdDone pending) (ByteRead.store_of_notYet notYet)
      cases sees with
      | reading cs ofRead awaited counted collected notYet =>
          cases done : input.cmdDone with
          | true => exact step_read reset done cs ofRead awaited counted collected notYet
          | false =>
              exact waits (by rw [I2cControl.awaitsAck, cs]) done notYet
      | storing cs ofRead eight collected acknowledged =>
          cases ready : input.dataRxReady with
          | true => exact step_stored reset ready cs ofRead acknowledged
          | false =>
              have drives := drives_of_signals reset (control.signals_storeData_full cs ready)
              have quiet : control.busAnswer input = [] :=
                busAnswer_of_not_awaitsAck (by rw [I2cControl.awaitsAck, cs])
              rw [ByteRead.step_of_drives reset drives quiet rfl rfl,
                ByteRead.store_of_notReady ready, drives.step]
              exact .storing cs ofRead eight collected acknowledged
      | writing cs nothing awaited notYet =>
          cases done : input.cmdDone with
          | true => exact step_write reset done cs nothing awaited notYet
          | false =>
              exact waits (by rw [I2cControl.awaitsAck, cs]) done notYet
      | waiting cs awaited notYet =>
          cases done : input.cmdDone with
          | true => exact step_cmdDone reset done cs awaited notYet
          | false =>
              exact waits (by rw [I2cControl.awaitsAck, cs]) done notYet
      | free takes notStoring notYet => exact step_free reset takes notStoring notYet

/-! ## Runs -/

theorem sees_run (inputs : List I2cInput) :
    Sees (observedMachine.run inputs).control (observedMachine.run inputs).read :=
  Machine.run_invariant
    (motive := fun observed : ObservedControl => Sees observed.control observed.read)
    (.free rfl ControlState.noConfusion rfl) (fun _ input sees => sees.step input) inputs

/-- The observer does not disturb the controller. -/
@[simp] theorem observedMachine_control (inputs : List I2cInput) :
    (observedMachine.run inputs).control = i2cMachine.run inputs := by
  induction inputs using List.reverseRecOn with
  | nil => rfl
  | append_singleton inputs input inductionHypothesis =>
      rw [Machine.run_snoc, Machine.run_snoc, ← inductionHypothesis]
      rfl

/-- The state machine offers a byte in `ST_STORE_DATA` only. -/
theorem dataRxValid_iff (control : I2cControl) (input : I2cInput) :
    (control.signals input).dataRxValid = true ↔ control.cs = .storeData := by
  cases cs : control.cs with
  | storeData =>
      simp only [I2cControl.signals, cs, I2cControl.storeData]
      (repeat' split) <;> simp
  | waitInCmd =>
      simp only [I2cControl.signals, cs, I2cControl.waitInCmd]
      unfold I2cControl.decoded
      (repeat' split) <;> simp [I2cControl.defaults]
  | cmdDone | waitEv | read | getData | skipCmd | getRpt | getCfgMsb | getCfgLsb | getWait
    | write | getWaitEv =>
      simp only [I2cControl.signals, cs, I2cControl.cmdDone, I2cControl.waitEv, I2cControl.read,
        I2cControl.getData, I2cControl.skipCmd, I2cControl.getRpt, I2cControl.getCfgMsb,
        I2cControl.getCfgLsb, I2cControl.getWait, I2cControl.write]
      (repeat' split) <;> simp [I2cControl.defaults]

theorem pushedByte_withoutReset (control : I2cControl) (input : I2cInput) :
    control.pushedByte input.withoutReset =
      if control.cs = .storeData ∧ input.dataRxReady = true then [control.data] else [] := by
  have offered : control.dataRxValid input.withoutReset = decide (control.cs = .storeData) := by
    rw [Bool.eq_iff_iff, decide_eq_true_iff, ← dataRxValid_iff control input.withoutReset]
    simp [I2cControl.dataRxValid, I2cInput.withoutReset]
  rw [I2cControl.pushedByte, offered]
  simp [I2cInput.withoutReset]

/-- What a cycle takes without a software reset is the byte of the read that it
completes. -/
theorem Sees.pushed (sees : Sees control read) (input : I2cInput) :
    control.pushedByte input.withoutReset =
      (ObservedControl.completedRead ⟨control, read⟩ input).map fun read => byteOf read.bits := by
  rw [pushedByte_withoutReset, ObservedControl.completedRead, ByteRead.completes]
  cases sees with
  | storing cs ofRead eight collected acknowledged =>
      cases ready : input.dataRxReady <;> simp [cs, acknowledged, collected]
  | reading cs ofRead awaited counted collected notYet => simp [cs, notYet]
  | writing cs nothing awaited notYet => simp [cs, notYet]
  | waiting cs awaited notYet => simp [cs, notYet]
  | free takes notStoring notYet => simp [notStoring, notYet]

/-- The software reset makes no difference to what is taken exactly when it takes
nothing of its own. -/
theorem pushedByte_withoutReset_iff (control : I2cControl) (input : I2cInput) :
    control.pushedByte input = control.pushedByte input.withoutReset ↔
      ResetTakesNothing control input := by
  have offered := dataRxValid_iff control input
  rw [pushedByte_withoutReset, I2cControl.pushedByte, I2cControl.dataRxValid]
  constructor
  · intro same reset ready
    rw [reset, ready] at same
    cases (inferInstance : Decidable (control.cs = .storeData)) with
    | isTrue storing => exact storing
    | isFalse notStoring => simp [notStoring] at same
  · intro allowed
    cases reset : input.swRst with
    | false => simp only [Bool.false_or, Bool.and_eq_true, offered]
    | true =>
        cases ready : input.dataRxReady with
        | false => simp
        | true => simp [allowed reset ready]

/-- The byte of a completed read has eight bits of one read instruction. -/
theorem Sees.completed (sees : Sees control read) (completes : read.completes input = true) :
    read.ofRead = true ∧ read.bits.length = 8 := by
  have acknowledged : read.acknowledged = true := by
    rw [ByteRead.completes, Bool.and_eq_true] at completes
    exact completes.1
  cases sees with
  | storing cs ofRead eight collected _ => exact ⟨ofRead, eight⟩
  | reading cs ofRead awaited counted collected notYet
    | writing cs nothing awaited notYet | waiting cs awaited notYet
    | free takes notStoring notYet =>
      rw [acknowledged] at notYet
      cases notYet

theorem completedReads_eightBits (inputs : List I2cInput) :
    ∀ read ∈ completedReads inputs, read.ofRead = true ∧ read.bits.length = 8 := by
  induction inputs using List.reverseRecOn with
  | nil => exact fun _ inside => absurd inside List.not_mem_nil
  | append_singleton inputs input inductionHypothesis =>
      intro read inside
      rw [completedReads, Machine.observed_snoc] at inside
      rcases List.mem_append.mp inside with earlier | now
      · exact inductionHypothesis read earlier
      · rw [ObservedControl.completedRead] at now
        split at now
        · next completes =>
            rw [List.mem_singleton.mp now]
            exact (sees_run inputs).completed completes
        · cases now

/-- The bytes taken are those of the completed reads, while no reset takes another. -/
theorem pushedBytes_eq (inputs : List I2cInput)
    (allowed : i2cMachine.Always ResetTakesNothing inputs) :
    pushedBytes inputs = (completedReads inputs).map fun read => byteOf read.bits := by
  induction inputs using List.reverseRecOn with
  | nil => rfl
  | append_singleton inputs input inductionHypothesis =>
      rw [Machine.always_snoc] at allowed
      have pushed := (sees_run inputs).pushed input
      rw [observedMachine_control, ← (pushedByte_withoutReset_iff _ _).mpr allowed.2] at pushed
      rw [pushedBytes, completedReads, Machine.observed_snoc, Machine.observed_snoc,
        List.map_append, pushed]
      exact congrArg (· ++ _) (inductionHypothesis allowed.1)

/-- The received bytes come from the bus exactly when no software reset finds the
receiver ready unless a byte was due. -/
theorem i2cControl_receivesFromBus_iff (inputs : List I2cInput) :
    ReceivesFromBus inputs ↔ i2cMachine.Always ResetTakesNothing inputs := by
  have sameCycles : i2cMachine.Always (fun control input =>
      control.pushedByte input = control.pushedByte input.withoutReset) inputs ↔
      i2cMachine.Always ResetTakesNothing inputs :=
    Machine.always_congr
      (fun before input => pushedByte_withoutReset_iff (i2cMachine.run before) input) inputs
  constructor
  · exact fun receives => sameCycles.mp receives.notByReset
  · intro allowed
    have upTo : ∀ n, pushedBytes (inputs.take n) =
        (completedReads (inputs.take n)).map fun read => byteOf read.bits := by
      intro n
      rw [← List.take_append_drop n inputs] at allowed
      exact pushedBytes_eq _ allowed.of_append
    exact ⟨fun n => by rw [upTo n, List.length_map], upTo, completedReads_eightBits inputs,
      sameCycles.mpr allowed⟩

/-- A software reset while the receiver is ready and no byte was read. -/
def readyReset : I2cInput :=
  { extEvents := 0, dataTx := 0, dataTxValid := false, dataRxReady := true, swRst := true
    cmdDone := false, coreRxd := false, busBusy := false, busAl := false }

/-- A software reset after hardware reset pushes a byte that no read returned. -/
theorem readyReset_not_receivesFromBus : ¬ReceivesFromBus [readyReset] := by
  intro receives
  exact absurd (receives.counted 1) (by decide)

end CoreVMcu.I2c
