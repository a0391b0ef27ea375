import CoreVMcu.I2c.Phases

/-!
# The I2C controller against the reference interpreter

The controller issues the bus commands and stores the bytes of the instructions
that its stream executes, whatever the delays of the stream, of the bus and of
`data_rx` are, as long as every command after a repeat count of zero is valid in
the next cycle and has no operand: `ST_SKIP_CMD` lasts one cycle and drops one
byte at most.
-/

namespace CoreVMcu.I2c

open Clocked

/-- The controller waits for a byte of the stream. -/
def I2cControl.asksForByte (control : I2cControl) : Bool :=
  match control.cs with
  | .waitInCmd | .getData | .skipCmd | .getRpt | .getCfgMsb | .getCfgLsb | .getWait => true
  | _ => false

/-- Number of answers after which the controller asks for a byte: acknowledges of the
bus, events and bytes that `data_rx` takes. -/
def I2cControl.remaining (control : I2cControl) : Nat :=
  match control.cs with
  | .cmdDone | .waitEv | .write => control.bits.toNat + 1
  | .read => control.bits.toNat + 2 + 10 * control.rptNum.toNat
  | .storeData => 1 + 10 * control.rptNum.toNat
  | .getWaitEv => 1
  | _ => 0

/-- Whatever the controller waits for besides bytes is there. -/
def I2cInput.answers (input : I2cInput) : Bool :=
  input.cmdDone && input.dataRxReady && input.extEvents == 0xF

/-- The run issues and stores what the reference interpreter does for the bytes
taken so far: no more at any time, and no less whenever the controller asks for a
byte, which it does again after finitely many answers.  The bit of a write is held
until its acknowledge. -/
structure FollowsReference (inputs : List I2cInput) : Prop where
  issued : issuedOperations inputs <+:
    (program (consumedBytes inputs)).flatMap Instruction.operations
  pushed : pushedBytes inputs <+: stored (program (consumedBytes inputs)) (busAnswers inputs)
  answered : (busAnswers inputs).length + (i2cMachine.run inputs).awaitsAck.toNat =
    (issuedOperations inputs).length
  held : ∀ input bit, (i2cMachine.run inputs).awaitsAck = true → input.cmdDone = false →
    (issuedOperations inputs).getLast? = some (.write bit) →
    (i2cMachine.run inputs).coreTxd input = bit
  settled : (i2cMachine.run inputs).asksForByte = true →
    issuedOperations inputs =
        (program (consumedBytes inputs)).flatMap Instruction.operations ∧
      pushedBytes inputs = stored (program (consumedBytes inputs)) (busAnswers inputs)
  divided : (i2cMachine.run inputs).cs = .waitInCmd →
    (i2cMachine.run inputs).divNum = divider (program (consumedBytes inputs))
  progress : ∀ later, (∀ input ∈ later, input.swRst = false) →
    (i2cMachine.run inputs).remaining ≤ later.countP I2cInput.answers →
    ∃ first, first <+: later ∧ (i2cMachine.run (inputs ++ first)).asksForByte = true

variable {control : I2cControl} {input : I2cInput}

/-- `data_tx_ready_o` outside of a software reset. -/
theorem dataTxReady_eq (notReset : input.swRst = false) :
    control.dataTxReady input = control.asksForByte := by
  rw [I2cControl.dataTxReady, notReset, Bool.false_or]
  unfold I2cControl.signals I2cControl.asksForByte
  cases control.cs with
  | waitInCmd =>
      simp only [I2cControl.waitInCmd]
      split
      · unfold I2cControl.decoded
        split <;> rfl
      · rfl
  | cmdDone => simp only [I2cControl.cmdDone]; split <;> [rfl; split <;> rfl]
  | waitEv => simp only [I2cControl.waitEv]; split <;> [rfl; split <;> rfl]
  | read => simp only [I2cControl.read]; split <;> [rfl; split <;> [rfl; split <;> rfl]]
  | storeData => simp only [I2cControl.storeData]; split <;> [(split <;> rfl); rfl]
  | getData => simp only [I2cControl.getData]; split <;> rfl
  | skipCmd => rfl
  | getRpt => simp only [I2cControl.getRpt]; split <;> [(split <;> rfl); rfl]
  | getCfgMsb => simp only [I2cControl.getCfgMsb]; split <;> rfl
  | getCfgLsb => simp only [I2cControl.getCfgLsb]; split <;> rfl
  | getWait => simp only [I2cControl.getWait]; split <;> rfl
  | write =>
      simp only [I2cControl.write]
      split <;> [rfl; split <;> [rfl; split <;> [rfl; split <;> rfl]]]
  | getWaitEv => rfl

/-! ## Progress -/

theorem event_of_answers (answers : input.answers = true) : control.event input = true := by
  simp only [I2cInput.answers, Bool.and_eq_true, beq_iff_eq] at answers
  have all : ∀ sel : BitVec 2, (0xF : BitVec 4).getLsbD sel.toNat = true := by decide
  rw [I2cControl.event, answers.2]
  exact all control.evSel

/-- An answer brings the controller closer to asking for a byte. -/
theorem remaining_step (notReset : input.swRst = false) (busy : control.asksForByte = false) :
    (control.step input).remaining + input.answers.toNat ≤ control.remaining := by
  have atMostOne : input.answers.toNat ≤ 1 := Bool.toNat_le _
  have noAck : input.cmdDone = false → input.answers.toNat = 0 := fun pending => by
    simp [I2cInput.answers, pending]
  have noStore : input.dataRxReady = false → input.answers.toNat = 0 := fun pending => by
    simp [I2cInput.answers, pending]
  have noEvent : control.event input = false → input.answers.toNat = 0 := fun pending => by
    cases answers : input.answers with
    | false => rfl
    | true => exact absurd ((event_of_answers answers).symm.trans pending) (by simp)
  have pending (waits : control.awaitsAck = true) (pending : input.cmdDone = false) :
      (control.step input).remaining + input.answers.toNat ≤ control.remaining := by
    rw [I2cControl.step, notReset, if_neg Bool.false_ne_true,
      control.signals_of_pending waits pending, noAck pending]
    exact Nat.le_refl _
  cases cs : control.cs with
  | cmdDone =>
      cases done : input.cmdDone with
      | false => exact pending (by rw [I2cControl.awaitsAck, cs]) done
      | true =>
          by_cases zero : control.bits = 0
          · rw [I2cControl.step, notReset, control.signals_cmdDone_last done cs zero]
            simp [I2cControl.remaining, cs, zero, atMostOne]
          · have pred := toNat_pred_add_one zero
            rw [I2cControl.step, notReset, control.signals_cmdDone_more done cs zero]
            simp only [I2cControl.remaining, cs, Bool.false_eq_true, if_false]
            omega
  | waitEv =>
      cases event : control.event input with
      | false =>
          simp [I2cControl.remaining, I2cControl.step, notReset, I2cControl.signals, cs,
            I2cControl.waitEv, event, I2cControl.defaults, noEvent]
      | true =>
          by_cases zero : control.bits = 0
          · simp [I2cControl.remaining, I2cControl.step, notReset, I2cControl.signals, cs,
              I2cControl.waitEv, event, zero, atMostOne]
          · have pred := toNat_pred_add_one zero
            simp only [I2cControl.remaining, I2cControl.step, notReset, I2cControl.signals, cs,
              I2cControl.waitEv, event, Bool.true_and, beq_iff_eq, zero, if_false, if_true,
              Bool.false_eq_true]
            omega
  | read =>
      cases done : input.cmdDone with
      | false => exact pending (by rw [I2cControl.awaitsAck, cs]) done
      | true =>
          by_cases zero : control.bits = 0
          · rw [I2cControl.step, notReset, control.signals_read_last done cs zero]
            simp [I2cControl.remaining, cs, zero, I2cControl.defaults]
            omega
          · have pred := toNat_pred_add_one zero
            rw [I2cControl.step, notReset, control.signals_read_more done cs zero]
            simp only [I2cControl.remaining, cs, Bool.false_eq_true, if_false, I2cControl.defaults]
            omega
  | storeData =>
      cases ready : input.dataRxReady with
      | false =>
          rw [I2cControl.step, notReset, control.signals_storeData_full cs ready, noStore ready]
          exact Nat.le_refl _
      | true =>
          by_cases noRepeat : control.rptNum = 0
          · rw [I2cControl.step, notReset, control.signals_storeData_last cs ready noRepeat]
            simp [I2cControl.remaining, cs, noRepeat, atMostOne]
          · have pred := toNat_pred_add_one noRepeat
            have eight : (8 : BitVec 8).toNat = 8 := rfl
            rw [I2cControl.step, notReset, control.signals_storeData_more cs ready noRepeat]
            simp only [I2cControl.remaining, cs, Bool.false_eq_true, if_false, if_true]
            omega
  | write =>
      cases done : input.cmdDone with
      | false => exact pending (by rw [I2cControl.awaitsAck, cs]) done
      | true =>
          by_cases zero : control.bits = 0
          · by_cases noRepeat : control.rptNum = 0
            · rw [I2cControl.step, notReset, control.signals_write_once done cs zero noRepeat]
              simp [I2cControl.remaining, cs, zero, noRepeat, atMostOne]
            · rw [I2cControl.step, notReset, control.signals_write_again done cs zero noRepeat]
              simp only [I2cControl.remaining, cs, Bool.false_eq_true, if_false]
              omega
          · have pred := toNat_pred_add_one zero
            rw [I2cControl.step, notReset, control.signals_write_more done cs zero]
            simp only [I2cControl.remaining, cs, Bool.false_eq_true, if_false]
            omega
  | getWaitEv =>
      simp [I2cControl.remaining, I2cControl.step, notReset, I2cControl.signals, cs, atMostOne]
  | _ => simp [I2cControl.asksForByte, cs] at busy

theorem progress_runFrom (later : List I2cInput) (control : I2cControl)
    (notReset : ∀ input ∈ later, input.swRst = false)
    (enough : control.remaining ≤ later.countP I2cInput.answers) :
    ∃ first, first <+: later ∧ (i2cMachine.runFrom control first).asksForByte = true := by
  induction later generalizing control with
  | nil =>
      refine ⟨[], List.nil_prefix, ?_⟩
      have nothing : control.remaining = 0 := Nat.le_zero.mp enough
      revert nothing
      unfold I2cControl.remaining
      simp only [Machine.runFrom, List.foldl_nil, I2cControl.asksForByte]
      cases control.cs <;> simp
  | cons input later inductionHypothesis =>
      cases asks : control.asksForByte with
      | true => exact ⟨[], List.nil_prefix, asks⟩
      | false =>
          have closer := remaining_step (notReset input (List.mem_cons_self ..)) asks
          rw [List.countP_cons] at enough
          have step : (control.step input).remaining ≤ later.countP I2cInput.answers := by
            cases answers : input.answers with
            | false => simp [answers] at closer enough; omega
            | true => simp [answers] at closer enough; omega
          obtain ⟨first, isPrefix, reached⟩ := inductionHypothesis (control.step input)
            (fun other member => notReset other (List.mem_cons_of_mem _ member)) step
          exact ⟨input :: first, List.cons_prefix_cons.mpr ⟨rfl, isPrefix⟩, reached⟩

/-! ## Every phase is a point of the reference interpretation -/

variable {consumed pushed : List (BitVec 8)} {issued started : List BusOperation}
variable {answers recent : List Bool} {completed : List Instruction}
variable {resume : List (BitVec 8) → List Instruction}

/-- The started commands are the first ones of what is executed next. -/
theorem Phase.started_prefix (phase : Phase control started recent resume) :
    started <+: (resume []).flatMap Instruction.operations := by
  cases phase with
  | waiting instruction cs executing simple =>
      rw [executing.commands, List.flatMap_cons]
      exact (List.take_prefix ..).trans (List.prefix_append ..)
  | reading cs executing collected =>
      simp only [executing.commands, List.replicate_succ, List.cons_append, List.flatMap_cons]
      exact (List.take_prefix ..).trans (List.prefix_append ..)
  | storing cs bits answered collected =>
      simp only [List.replicate_succ, List.cons_append, List.flatMap_cons]
      exact List.prefix_append ..
  | writing byte cs executing shifted =>
      rw [executing.commands, List.flatMap_cons]
      exact (List.take_prefix ..).trans (List.prefix_append ..)
  | _ => exact List.nil_prefix

/-- Every started command was answered, but for the one the controller waits for. -/
theorem Phase.answered (phase : Phase control started recent resume) :
    recent.length + control.awaitsAck.toNat = started.length := by
  cases phase with
  | waiting instruction cs executing simple =>
      simpa [I2cControl.awaitsAck, cs] using executing.answered
  | reading cs executing collected =>
      simpa [I2cControl.awaitsAck, cs] using executing.answered
  | storing cs bits answered collected => simp [I2cControl.awaitsAck, cs, answered]
  | writing byte cs executing shifted =>
      simpa [I2cControl.awaitsAck, cs] using executing.answered
  | command cs | event cs | writeData cs | waitCount cs | repeatCount cs | dividerMsb cs
    | dividerLsb cs | skipped cs => simp [I2cControl.awaitsAck, cs]

/-- A controller that asks for a byte is between two instructions. -/
theorem Phase.settled (phase : Phase control started recent resume)
    (asks : control.asksForByte = true) : started = [] ∧ recent = [] ∧ resume [] = [] := by
  cases phase with
  | event cs => simp [I2cControl.asksForByte, cs] at asks
  | waiting instruction cs => simp [I2cControl.asksForByte, cs] at asks
  | reading cs => simp [I2cControl.asksForByte, cs] at asks
  | storing cs => simp [I2cControl.asksForByte, cs] at asks
  | writing byte cs => simp [I2cControl.asksForByte, cs] at asks
  | _ => exact ⟨rfl, rfl, rfl⟩

/-- The last started command is the one at the position that the bit counter gives. -/
theorem Executing.getLast?_started {instruction : Instruction}
    (executing : Executing control instruction started recent) :
    started.getLast? =
      instruction.operations[instruction.operations.length - control.bits.toNat - 1]? := by
  have left := executing.left
  rw [executing.commands, List.getLast?_take, if_neg (by omega),
    List.getElem?_eq_getElem (by omega)]
  rfl

/-- The bit of a write is presented until its acknowledge. -/
theorem Phase.held (phase : Phase control started recent resume)
    (waits : control.awaitsAck = true) (pending : input.cmdDone = false) {bit : Bool}
    (last : started.getLast? = some (.write bit)) : control.coreTxd input = bit := by
  cases phase with
  | waiting instruction cs executing simple =>
      rw [executing.getLast?_started] at last
      have member := List.mem_of_getElem? last
      obtain rfl | rfl | ⟨cycles, rfl⟩ := simple <;>
        simp [Instruction.operations] at member
  | reading cs executing collected =>
      rw [executing.getLast?_started, length_operations_read,
        operations_read_getElem? _ _ (by omega)] at last
      rw [I2cControl.coreTxd, if_pos cs]
      split at last <;> simp_all
  | writing byte cs executing shifted =>
      have left : control.bits.toNat < 9 := executing.left
      rw [executing.getLast?_started, length_operations_write,
        operations_write_getElem? _ _ (by omega)] at last
      have signals : control.signals input = control.defaults := by
        simp [I2cControl.signals, cs, I2cControl.write, pending]
      rw [I2cControl.coreTxd, signals, cs, if_neg (by decide), getLsbD_seven]
      split at last
      · simp at last
      · next notLast =>
          have same : byte.getMsbD (9 - control.bits.toNat - 1) = bit := by simpa using last
          rw [← same]
          change control.data.getMsbD 0 = _
          rw [shifted 0 (by omega), Nat.zero_add]
          congr 1
          omega
  | command cs | event cs | writeData cs | waitCount cs | repeatCount cs | dividerMsb cs
    | dividerLsb cs | skipped cs | storing cs => simp [I2cControl.awaitsAck, cs] at waits

theorem followsReference_of_follows {inputs : List I2cInput}
    (follows : Follows (i2cMachine.run inputs) (consumedBytes inputs) (issuedOperations inputs)
      (pushedBytes inputs) (busAnswers inputs)) : FollowsReference inputs := by
  obtain ⟨completed, started, recent, resume, tracks⟩ := follows
  obtain ⟨issued, before, covers, answers, pushed⟩ := tracks.history
  have program : program (consumedBytes inputs) = completed ++ resume [] := by
    have now := tracks.program []
    rwa [List.append_nil] at now
  have answered := tracks.phase.answered
  constructor
  · rw [issued, program, List.flatMap_append]
    exact List.prefix_append_right_inj _ |>.mpr tracks.phase.started_prefix
  · rw [pushed, program, answers, stored_append _ _ _ _ covers]
    exact List.prefix_append ..
  · rw [answers, issued, List.length_append, List.length_append, covers]
    omega
  · intro input bit waits pending last
    refine tracks.phase.held waits pending ?_
    rw [waits] at answered
    have some : started ≠ [] := fun none => by simp [none] at answered
    rw [issued, List.getLast?_append_of_ne_nil _ some] at last
    exact last
  · intro asks
    obtain ⟨rfl, rfl, atEnd⟩ := tracks.phase.settled asks
    rw [atEnd, List.append_nil] at program
    rw [program, issued, pushed, answers, List.append_nil, List.append_nil]
    exact ⟨rfl, rfl⟩
  · intro cs
    obtain ⟨-, -, atEnd⟩ := tracks.phase.settled (by simp [I2cControl.asksForByte, cs])
    rw [program, atEnd, List.append_nil]
    exact tracks.divNum (by simp [cs])
  · intro later notReset enough
    obtain ⟨first, isPrefix, asks⟩ :=
      progress_runFrom later (i2cMachine.run inputs) notReset enough
    exact ⟨first, isPrefix, by rw [Machine.run_append]; exact asks⟩

/-- Without a software reset, and with skipped commands that are valid at once and
have no operand, the controller follows the reference interpreter. -/
theorem i2cControl_followsReference (inputs : List I2cInput)
    (allowed : i2cMachine.Always
      (fun control input => NotReset control input ∧ SkipsWholeCommand control input) inputs) :
    FollowsReference inputs :=
  followsReference_of_follows (follows_run inputs allowed)

/-- A cycle in which the stream offers a byte, or none. -/
def offer (byte : Option (BitVec 8)) : I2cInput :=
  { extEvents := 0, dataTx := byte.getD 0, dataTxValid := byte.isSome, dataRxReady := true
    swRst := false, cmdDone := true, coreRxd := true, busBusy := false, busAl := false }

/-- A skipped write leaves its data byte, which is then executed as a stop.  A
skipped command that comes one cycle late is executed. -/
theorem skippedWrite_lateSkip_not_followsReference :
    ¬ FollowsReference
        [offer (some 0xC0), offer (some 0), offer (some 0x80), offer (some 0x20)] ∧
      ¬ FollowsReference
        [offer (some 0xC0), offer (some 0), offer none, offer (some 0x00)] := by
  constructor
  · intro follows
    exact absurd follows.issued (by decide +kernel)
  · intro follows
    exact absurd follows.issued (by decide +kernel)

/-- A skipped start, a read that is executed twice, and a stop. -/
theorem skippedStart_repeatedRead_followsReference :
    FollowsReference
      ([0xC0, 0, 0x00, 0xC0, 2, 0x40].map (fun byte => offer (some byte)) ++
        List.replicate 20 (offer none) ++ [offer (some 0x20)]) :=
  i2cControl_followsReference _ (by decide +kernel)

end CoreVMcu.I2c
