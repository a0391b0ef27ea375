import CoreVMcu.Spi.Check

/-!
# Exact checks

A check is exact when its transfer starts afresh and what an earlier transfer has left
above its bits compares as zeros do.  Its result is kept until a replayed command is
taken: a block whose replay starts with a result that is still set ends at once.
-/

namespace CoreVMcu.Spi

open Clocked CoreVMcu.Udma

/-- Some cycles are those of a check: the interpreter waits up to the last of them and goes on
then, the line is read once for each clock of the word, the result is that of the word that is
read, and in a block that the check does not leave by itself a match ends the replay: after the
command that follows none is replayed until another block has been recorded. -/
structure CheckedAs (master : SpiMaster) (first : MasterInput) (command : BitVec 32)
    (rest : List MasterInput) : Prop where
  busy : spimMachine.AlwaysFrom (SpiMaster.InState .waitCheck) (master.step first) rest
  completes : (spimMachine.runFrom master (first :: rest)).ctrl.state = .idle
  reads : (spimMachine.observedFrom SpiMaster.linesSampled master (first :: rest)).length =
    (reception command).wordClocks
  result : (spimMachine.runFrom master (first :: rest)).ctrl.chkResult =
    compares (cdCfgChkType command) (cdCfgCheck command) ((reception command).wordRead
      (spimMachine.observedFrom SpiMaster.linesSampled master (first :: rest)))
  endsBlock : (master.step first).ctrl.isReplay = true →
    (spimMachine.runFrom master (first :: rest)).ctrl.chkResult = true →
    ∀ next later,
      spimMachine.AlwaysFrom (fun later _ => later.ctrl.state ≠ .doRepeat)
          ((spimMachine.runFrom master (first :: rest)).step next) later →
        (spimMachine.runFrom ((spimMachine.runFrom master (first :: rest)).step next)
          later).ctrl.isReplay = false

/-- Whatever comes from the line, the check comes to its end in that way. -/
def ChecksExactly (master : SpiMaster) (first : MasterInput) (command : BitVec 32) : Prop :=
  ∀ schedule : Nat → MasterInput, ∃ n, CheckedAs master first command (inputsUpTo schedule n)

/-- The serializer does not follow the transmitter, counts from zero, takes several whole clocks
for the word and has the places of the transmitter, and what is left of earlier words does not
change the comparison. -/
structure ChecksAfresh (txRx : TxRx) (command : BitVec 32) : Prop where
  isFul : txRx.isFul = false
  counterTransf : txRx.counterTransf = 0
  whole : (reception command).lanes ∣ (reception command).wordBits
  several : 1 < (reception command).wordClocks
  inPlace : (reception command).InPlace
  harmless : Harmless (cdCfgChkType command) (cdCfgCheck command)
    (txRx.rxShiftReg.extractLsb' 0 16) (reception command).wordBits

section Check

variable {master : SpiMaster} {first : MasterInput} {command : BitVec 32}

theorem execute_isReplay (base : CtrlSignals) (word : BitVec 32) :
    (SpimCtrl.execute base word).isReplay = base.isReplay := by
  by_cases rpt : spiCmd word = some .rpt
  · rw [SpimCtrl.execute, rpt]
  · exact congrArg CtrlSignals.Loop.isReplay (SpimCtrl.execute_loop rpt base)

/-- The replay goes on unless the loop is left. -/
theorem Accepts.isReplay (accepts : Accepts master first command) :
    (master.step first).ctrl.isReplay = (master.ctrl.isReplay && !master.ctrl.leavesLoop) := by
  change (master.signals first).isReplay = _
  rw [accepts.signals, execute_isReplay]
  cases replays : master.ctrl.isReplay with
  | true => exact congrArg CtrlSignals.Loop.isReplay (SpimCtrl.taken_loop replays)
  | false =>
      rw [SpimCtrl.taken, replays]
      exact replays

/-- The comparison that a check asks for. -/
theorem Accepts.checkFields (accepts : Accepts master first command)
    (checks : spiCmd command = some .rxCheck) :
    (master.step first).ctrl.chkType = cdCfgChkType command ∧
      (master.step first).ctrl.chk = cdCfgCheck command := by
  have update : (master.signals first).updateChk = true := by
    rw [accepts.signals, SpimCtrl.execute, checks]
  constructor
  · change (if (master.signals first).updateChk then
      cdCfgChkType (master.ctrl.word (master.ctrlInput first)) else _) = _
    rw [update, accepts.word]
    rfl
  · change (if (master.signals first).updateChk then
      cdCfgCheck (master.ctrl.word (master.ctrlInput first)) else _) = _
    rw [update, accepts.word]
    rfl

/-- A replayed command is put back, or the buffer was full: there is a next command. -/
theorem Accepts.replayValid (accepts : Accepts master first command)
    (notRpt : spiCmd command ≠ some .rpt) (replays : master.ctrl.isReplay = true) :
    (master.step first).ctrl.replayBuffer.valid = true := by
  have available := accepts.available
  rw [SpimCtrl.cmdAvailable, replays, if_pos rfl] at available
  have loop := SpimCtrl.execute_loop notRpt master.ctrl.taken
  rw [← accepts.signals, SpimCtrl.taken_loop replays] at loop
  simp only [CtrlSignals.loop, CtrlSignals.Loop.mk.injEq] at loop
  obtain ⟨-, -, setup, -, -, clear, ready, -⟩ := loop
  have elements : (master.step first).ctrl.replayBuffer.elements =
      if master.ctrl.replayBuffer.full replayBufferDepth then
        master.ctrl.replayBuffer.elements - 1
      else master.ctrl.replayBuffer.elements := by
    change (master.ctrl.nextReplayBuffer (master.ctrlInput first)
      (master.signals first)).elements = _
    rw [SpimCtrl.nextReplayBuffer, setup, clear, ready, replays, available]
    simp [SpimCtrl.defaults, IoGenericFifo.step, available]
  rw [IoGenericFifo.valid, bne_iff_ne] at available ⊢
  rw [elements]
  split
  · next full =>
      rw [IoGenericFifo.full, beq_iff_eq] at full
      rw [full]
      decide
  · exact available

/-- A replayed command that is taken with the result of a check ends the replay. -/
theorem leaves_checked (state : master.ctrl.state = .idle) (replays : master.ctrl.isReplay = true)
    (valid : master.ctrl.replayBuffer.valid = true) (checked : master.ctrl.chkResult = true)
    (next : MasterInput) : (master.step next).ctrl.isReplay = false := by
  have accepts : Accepts master next (master.ctrl.word (master.ctrlInput next)) := by
    refine ⟨state, ?_, rfl⟩
    rw [SpimCtrl.cmdAvailable, replays]
    exact valid
  rw [accepts.isReplay, SpimCtrl.leavesLoop, checked, Bool.or_true]
  exact Bool.and_false _

/-- A replay that is over stays so in every state but the recording of a block. -/
theorem replayOver_step (isOver : master.ctrl.isReplay = false)
    (elsewhere : master.ctrl.state ≠ .doRepeat) (next : MasterInput) :
    (master.step next).ctrl.isReplay = false := by
  cases state : master.ctrl.state with
  | idle =>
      cases available : master.ctrl.cmdAvailable (master.ctrlInput next) with
      | false => exact (SpimCtrl.step_waiting (.inl ⟨state, available⟩)).1.isReplay.trans isOver
      | true =>
          have accepts : Accepts master next _ := ⟨state, available, rfl⟩
          rw [accepts.isReplay, isOver, Bool.false_and]
  | doRepeat => exact absurd state elsewhere
  | waitDone | waitCheck | waitEvent | waitCycle | clearCs =>
      exact (SpimCtrl.step_busy (by rw [SpimCtrl.busy, state]) _).isReplay.trans isOver

/-- No command is replayed until another block has been recorded. -/
theorem replayOver_runFrom (isOver : master.ctrl.isReplay = false) {inputs : List MasterInput}
    (elsewhere : spimMachine.AlwaysFrom (fun later _ => later.ctrl.state ≠ .doRepeat) master
      inputs) : (spimMachine.runFrom master inputs).ctrl.isReplay = false := by
  induction inputs generalizing master with
  | nil => exact isOver
  | cons next inputs inductionHypothesis =>
      obtain ⟨now, later⟩ := elsewhere
      exact inductionHypothesis (replayOver_step isOver now next) later

/-- A check that starts afresh. -/
theorem checkedAs_of_afresh (accepts : Accepts master first command) (rests : Rests master)
    (checks : spiCmd command = some .rxCheck) (afresh : ChecksAfresh master.txRx command)
    {rest : List MasterInput} (all : rest.length = (reception command).wordClocks) :
    CheckedAs master first command rest := by
  have start := accepts.checkStart rests checks
  have one := reception_oneWord checks
  have position := start.hears.receives afresh.whole (start.isFul.trans afresh.isFul)
    (.inr afresh.several)
  rw [afresh.counterTransf] at position
  obtain ⟨idle, busy, pulses⟩ := start.ctrl.ends position afresh.whole one.packs
    (all.trans one.clocks.symm)
  have lines : spimMachine.observedFrom SpiMaster.linesSampled master (first :: rest) =
      rest.map MasterInput.sdi := by
    rw [Machine.observedFrom, SpiMaster.linesSampled, start.silent]
    exact observed_linesSampled pulses
  have kept := runFrom_keepsCheck busy
  refine ⟨busy, idle, ?_, ?_, ?_⟩
  · rw [lines, List.length_map, all]
  · have result := start.ctrl.compares position one afresh.whole afresh.inPlace all
    obtain ⟨chkType, chk⟩ := accepts.checkFields checks
    rw [chkType, chk, start.shift, compares_low afresh.harmless,
      TransferSetup.lowBits_wordRead] at result
    rw [lines]
    exact result
  · intro replays checked next later elsewhere
    have before : master.ctrl.isReplay = true := by
      rw [accepts.isReplay, Bool.and_eq_true] at replays
      exact replays.1
    refine replayOver_runFrom (leaves_checked idle ?_ ?_ checked next) elsewhere
    · exact kept.isReplay.trans replays
    · rw [kept.replayBuffer]
      exact accepts.replayValid (by rw [checks]; decide) before

/-- While the serializer follows the transmitter, the check is not over. -/
theorem checksExactly_isFul (accepts : Accepts master first command) (rests : Rests master)
    (checks : spiCmd command = some .rxCheck) (exactly : ChecksExactly master first command) :
    master.txRx.isFul = false := by
  have start := accepts.checkStart rests checks
  rw [Bool.eq_false_iff]
  intro full
  have stands : StandsStill .waitCheck (reception command).qpi (master.step first) :=
    ⟨start.ctrl, start.hears.txState, start.hears.rxState, start.isFul.trans full⟩
  obtain ⟨n, checked⟩ := exactly fun _ => lineCycle false
  have later := (stands.runFrom (inputsUpTo (fun _ => lineCycle false) n)).ctrl.state
  exact absurd (later.symm.trans checked.completes) (by decide)

/-- A check is over after the cycles that it takes. -/
theorem checksExactly_length (accepts : Accepts master first command) (rests : Rests master)
    (checks : spiCmd command = some .rxCheck)
    (whole : (reception command).lanes ∣ (reception command).wordBits)
    (exactly : ChecksExactly master first command) (schedule : Nat → MasterInput) :
    1 < (reception command).wordClocks ∧
      CheckedAs master first command (inputsUpTo schedule (reception command).wordClocks) ∧
        spimMachine.observedFrom SpiMaster.linesSampled master
            (first :: inputsUpTo schedule (reception command).wordClocks) =
          (inputsUpTo schedule (reception command).wordClocks).map MasterInput.sdi := by
  have start := accepts.checkStart rests checks
  have one := reception_oneWord checks
  have isFul := checksExactly_isFul accepts rests checks exactly
  obtain ⟨n, checked⟩ := exactly schedule
  obtain ⟨m, takes⟩ : ∃ m, m = if 1 < (reception command).wordClocks then
      (reception command).clocks else (reception command).clocks + 1 := ⟨_, rfl⟩
  have length : (inputsUpTo schedule m).length = m := by
    rw [inputsUpTo, List.length_map, List.length_range]
  obtain ⟨idle, busy, pulses⟩ := start.completes whole one.packs isFul (length.trans takes)
  have same := completes_unique (by decide) checked.busy checked.completes busy idle
  rw [same] at checked
  have lines : spimMachine.observedFrom SpiMaster.linesSampled master
      (first :: inputsUpTo schedule m) = (inputsUpTo schedule m).map MasterInput.sdi := by
    rw [Machine.observedFrom, SpiMaster.linesSampled, start.silent]
    exact observed_linesSampled pulses
  have reads := checked.reads
  rw [lines, List.length_map, length] at reads
  rw [reads] at checked lines takes
  refine ⟨?_, checked, lines⟩
  by_contra single
  rw [if_neg single, one.clocks] at takes
  exact absurd takes (Nat.ne_of_lt (Nat.lt_succ_self _))

/-- Lines that a word is read from. -/
def TransferSetup.linesOf (setup : TransferSetup) (word : BitVec 16) (clock : Nat) : DataLines :=
  let bit (lane : Nat) := word.getLsbD (setup.place 0 clock lane)
  if setup.qpi then ⟨bit 0, bit 1, bit 2, bit 3⟩ else ⟨false, bit 0, false, false⟩

theorem TransferSetup.lane_linesOf (setup : TransferSetup) (word : BitVec 16) (clock : Nat)
    {lane : Nat} (inside : lane < setup.lanes) :
    (setup.linesOf word clock).lane setup.qpi lane = word.getLsbD (setup.place 0 clock lane) := by
  rw [TransferSetup.lanes] at inside
  rw [TransferSetup.linesOf]
  cases quad : setup.qpi with
  | true =>
      rw [quad, if_pos rfl] at inside
      have four : lane = 0 ∨ lane = 1 ∨ lane = 2 ∨ lane = 3 := by omega
      rcases four with rfl | rfl | rfl | rfl <;> rfl
  | false =>
      rw [quad, if_neg Bool.false_ne_true, Nat.lt_one_iff] at inside
      rw [inside]
      rfl

theorem TransferSetup.wordRead_linesOf {setup : TransferSetup} (one : setup.OneWord)
    (whole : setup.lanes ∣ setup.wordBits) (word : BitVec 16) :
    setup.wordRead ((List.range setup.wordClocks).map (setup.linesOf word)) =
      lowBits setup.wordBits word := by
  apply BitVec.eq_of_getLsbD_eq
  intro place inside
  rw [TransferSetup.wordRead, getLsbD_ofBits inside, getLsbD_lowBits]
  by_cases low : place < setup.wordBits
  · obtain ⟨inWord, there⟩ := TransferSetup.place_group one whole 0 low
    have clock := TransferSetup.group_lt inWord
    have length : ((List.range setup.wordClocks).map (setup.linesOf word)).length =
        setup.wordClocks := by rw [List.length_map, List.length_range]
    rw [List.getD_eq_getElem _ _ (by rw [length]; exact clock), List.getElem_map,
      List.getElem_range, TransferSetup.lane_linesOf _ _ _ (Nat.mod_lt _ (setup.lanes_pos)), there]
  · rw [decide_eq_false low, Bool.false_and, Bool.false_and]

/-- What is left above the word that fits the value may not change the comparison. -/
theorem checksExactly_harmless (accepts : Accepts master first command) (rests : Rests master)
    (checks : spiCmd command = some .rxCheck) (transf : master.txRx.counterTransf = 0)
    (whole : (reception command).lanes ∣ (reception command).wordBits)
    (inPlace : (reception command).InPlace) (exactly : ChecksExactly master first command) :
    Harmless (cdCfgChkType command) (cdCfgCheck command)
      (master.txRx.rxShiftReg.extractLsb' 0 16) (reception command).wordBits := by
  have start := accepts.checkStart rests checks
  have one := reception_oneWord checks
  have isFul := checksExactly_isFul accepts rests checks exactly
  obtain ⟨schedule, same⟩ : ∃ schedule : Nat → MasterInput, schedule = fun clock =>
      { lineCycle false with sdi := (reception command).linesOf (cdCfgCheck command) clock } :=
    ⟨_, rfl⟩
  obtain ⟨several, checked, lines⟩ :=
    checksExactly_length accepts rests checks whole exactly schedule
  have position := start.hears.receives whole (start.isFul.trans isFul) (.inr several)
  rw [transf] at position
  have length : (inputsUpTo schedule (reception command).wordClocks).length =
      (reception command).wordClocks := by rw [inputsUpTo, List.length_map, List.length_range]
  have sampled : (inputsUpTo schedule (reception command).wordClocks).map MasterInput.sdi =
      (List.range (reception command).wordClocks).map
        ((reception command).linesOf (cdCfgCheck command)) := by
    rw [inputsUpTo, List.map_map, same]
    rfl
  have result := checked.result
  rw [lines, sampled, TransferSetup.wordRead_linesOf one whole] at result
  have compared := start.ctrl.compares position one whole inPlace length
  obtain ⟨chkType, chk⟩ := accepts.checkFields checks
  rw [chkType, chk, start.shift, TransferSetup.lowBits_wordRead, sampled,
    TransferSetup.wordRead_linesOf one whole] at compared
  exact compared.symm.trans result

/-- A check of whole clocks that counts from zero, in the places of the transmitter. -/
theorem checksExactly_iff (accepts : Accepts master first command) (rests : Rests master)
    (checks : spiCmd command = some .rxCheck) (transf : master.txRx.counterTransf = 0)
    (whole : (reception command).lanes ∣ (reception command).wordBits)
    (inPlace : (reception command).InPlace) :
    ChecksExactly master first command ↔
      master.txRx.isFul = false ∧ 1 < (reception command).wordClocks ∧
        Harmless (cdCfgChkType command) (cdCfgCheck command)
          (master.txRx.rxShiftReg.extractLsb' 0 16) (reception command).wordBits := by
  constructor
  · intro exactly
    exact ⟨checksExactly_isFul accepts rests checks exactly,
      (checksExactly_length accepts rests checks whole exactly fun _ => lineCycle false).1,
      checksExactly_harmless accepts rests checks transf whole inPlace exactly⟩
  · rintro ⟨isFul, several, harmless⟩ schedule
    refine ⟨(reception command).wordClocks, ?_⟩
    apply checkedAs_of_afresh accepts rests checks
      ⟨isFul, transf, whole, several, inPlace, harmless⟩
    rw [inputsUpTo, List.length_map, List.length_range]

end Check

/-! ## Blocks -/

section Blocks

variable (master : SpiMaster) (input : MasterInput)

/-- A check is decoded. -/
def SpiMaster.checks : Bool :=
  decide (master.ctrl.state = .idle) && master.ctrl.cmdAvailable (master.ctrlInput input) &&
    spiCmd (master.ctrl.word (master.ctrlInput input)) == some .rxCheck

/-- A check of a block is decoded whose replay goes on. -/
def SpiMaster.checksInside : Bool :=
  master.checks input && (master.step input).ctrl.isReplay

/-- The replay of a block starts. -/
def SpiMaster.startsReplay : Bool :=
  decide (master.ctrl.state = .doRepeat) && input.udmaCmdValid &&
    spiCmd (master.ctrl.word (master.ctrlInput input)) == some .rptEnd

end Blocks

namespace SpimCtrl

/-- The result of a check ends a block that is not at its end. -/
def cutsShort (ctrl : SpimCtrl) : Bool :=
  decide (ctrl.state = .idle) && ctrl.isReplay && ctrl.replayBuffer.valid && ctrl.chkResult &&
    !(ctrl.rptNum == 0 && ctrl.firstOfBlock)

/-- The next replayed command leaves the loop anyway, or there is none. -/
def AtEnd (ctrl : SpimCtrl) : Prop :=
  ctrl.replayBuffer.valid = true → (ctrl.rptNum == 0 && ctrl.firstOfBlock) = true

instance (ctrl : SpimCtrl) : Decidable ctrl.AtEnd :=
  inferInstanceAs (Decidable (_ → _))

/-- In a replay no result is set and no check under way, or the loop is over at once. -/
def Unspoilt (ctrl : SpimCtrl) : Prop :=
  ctrl.isReplay = true →
    (ctrl.chkResult = false ∧ ctrl.state ≠ .waitCheck) ∨ (ctrl.state = .idle ∧ ctrl.AtEnd)

theorem Unspoilt.not_cutsShort {ctrl : SpimCtrl} (unspoilt : ctrl.Unspoilt) :
    ctrl.cutsShort = false := by
  rw [Bool.eq_false_iff]
  intro cuts
  simp only [cutsShort, Bool.and_eq_true, decide_eq_true_eq, Bool.not_eq_true'] at cuts
  obtain ⟨⟨⟨⟨-, replays⟩, valid⟩, checked⟩, goesOn⟩ := cuts
  rcases unspoilt replays with ⟨none, -⟩ | ⟨-, atEnd⟩
  · rw [none] at checked
    cases checked
  · rw [atEnd valid] at goesOn
    cases goesOn

end SpimCtrl

section Blocks

variable {master : SpiMaster} {input : MasterInput}

/-- Only the result of a check that leaves the loop is taken back with a command. -/
theorem Accepts.chkResult {command : BitVec 32} (accepts : Accepts master input command)
    (goesOn : (master.step input).ctrl.isReplay = true) :
    (master.step input).ctrl.chkResult = false := by
  rw [accepts.isReplay, Bool.and_eq_true, Bool.not_eq_true'] at goesOn
  obtain ⟨replays, stays⟩ := goesOn
  have update : (master.signals input).updateChkResult = false := by
    rw [accepts.signals]
    have taken := congrArg CtrlSignals.Loop.updateChkResult (SpimCtrl.taken_loop replays)
    rw [stays] at taken
    by_cases rpt : spiCmd command = some .rpt
    · rw [SpimCtrl.execute, rpt]
      exact taken
    · exact (congrArg CtrlSignals.Loop.updateChkResult (SpimCtrl.execute_loop rpt _)).trans taken
  change (if (master.signals input).updateChkResult then _ else master.ctrl.chkResult) = false
  rw [update, if_neg Bool.false_ne_true]
  rw [SpimCtrl.leavesLoop, Bool.or_eq_false_iff] at stays
  exact stays.2

/-- Only a check leads to the wait for its result. -/
theorem Accepts.checks_of_waitCheck {command : BitVec 32} (accepts : Accepts master input command)
    (waits : (master.step input).ctrl.state = .waitCheck) : master.checks input = true := by
  have state : (SpimCtrl.execute master.ctrl.taken command).stateNext = .waitCheck := by
    rw [← accepts.signals]
    exact waits
  have isCheck : spiCmd command = some .rxCheck := by
    by_cases rpt : spiCmd command = some .rpt
    · rw [SpimCtrl.execute, rpt] at state
      cases state
    · exact (SpimCtrl.execute_leadsTo rpt
        ((SpimCtrl.taken_stateNext _).trans accepts.idle)).checks state
  rw [SpiMaster.checks, accepts.idle, accepts.available, accepts.word, isCheck]
  rfl

/-- The replay of a block starts with the result that is there. -/
theorem unspoilt_of_startsReplay (starts : master.startsReplay input = true)
    (clean : master.ctrl.chkResult = false ∨ master.ctrl.AtEnd) :
    (master.step input).ctrl.Unspoilt := by
  simp only [SpiMaster.startsReplay, Bool.and_eq_true, decide_eq_true_eq, beq_iff_eq] at starts
  obtain ⟨⟨state, valid⟩, isEnd⟩ := starts
  have signals : master.signals input =
      { master.ctrl.defaults with
        clrFirstReply := true, udmaCmdReady := true, isReplay := true, stateNext := .idle } := by
    have given : (master.ctrlInput input).udmaCmdValid = true := valid
    rw [SpiMaster.signals, SpimCtrl.signals, state]
    change master.ctrl.doRepeat (master.ctrlInput input) = _
    rw [SpimCtrl.doRepeat, if_pos given, if_pos isEnd]
    rfl
  have idle : (master.step input).ctrl.state = .idle := by
    change (master.signals input).stateNext = _
    rw [signals]
  have chkResult : (master.step input).ctrl.chkResult = master.ctrl.chkResult := by
    change (if (master.signals input).updateChkResult then _ else _) = _
    rw [signals]
    rfl
  have rptNum : (master.step input).ctrl.rptNum = master.ctrl.rptNum := by
    change (if (master.signals input).updateRpt then _ else _) = _
    rw [signals]
    rfl
  have buffer : (master.step input).ctrl.replayBuffer = master.ctrl.replayBuffer := by
    change master.ctrl.nextReplayBuffer (master.ctrlInput input) (master.signals input) = _
    rw [signals]
    simp [SpimCtrl.nextReplayBuffer, SpimCtrl.defaults, IoGenericFifo.step]
  intro _
  rcases clean with none | atEnd
  · left
    rw [chkResult, idle]
    exact ⟨none, by decide⟩
  · right
    refine ⟨idle, ?_⟩
    rw [SpimCtrl.AtEnd, SpimCtrl.firstOfBlock, buffer, rptNum]
    exact atEnd

/-- A cycle in which no replay starts and no check is decoded inside a block. -/
theorem SpimCtrl.Unspoilt.step (unspoilt : master.ctrl.Unspoilt)
    (notStart : master.startsReplay input = false)
    (notInside : master.checksInside input = false) : (master.step input).ctrl.Unspoilt := by
  intro replays
  -- The loop may be as it was, with the result of a check that is not under way.
  have same : SpimCtrl.SameLoop (master.step input).ctrl master.ctrl →
      (master.step input).ctrl.state = master.ctrl.state →
      (master.step input).ctrl.chkResult = master.ctrl.chkResult →
      ((master.step input).ctrl.chkResult = false ∧ (master.step input).ctrl.state ≠ .waitCheck) ∨
        ((master.step input).ctrl.state = .idle ∧ (master.step input).ctrl.AtEnd) := by
    intro loop state chkResult
    rw [chkResult, state, SpimCtrl.AtEnd, SpimCtrl.firstOfBlock, loop.replayBuffer, loop.rptNum]
    exact unspoilt (loop.isReplay.symm.trans replays)
  by_cases idle : master.ctrl.state = .idle
  · cases available : master.ctrl.cmdAvailable (master.ctrlInput input) with
    | true =>
        have accepts : Accepts master input (master.ctrl.word (master.ctrlInput input)) :=
          ⟨idle, available, rfl⟩
        left
        refine ⟨accepts.chkResult replays, ?_⟩
        intro waits
        rw [SpiMaster.checksInside, accepts.checks_of_waitCheck waits, replays] at notInside
        cases notInside
    | false =>
        obtain ⟨loop, state, chkResult⟩ :=
          SpimCtrl.step_waiting (.inl ⟨idle, available⟩)
        exact same loop state chkResult
  · by_cases repeats : master.ctrl.state = .doRepeat
    · cases valid : (master.ctrlInput input).udmaCmdValid with
      | true =>
          have notEnd : ¬spiCmd (master.ctrl.word (master.ctrlInput input)) = some .rptEnd := by
            intro isEnd
            have given : input.udmaCmdValid = true := valid
            rw [SpiMaster.startsReplay, repeats, given, isEnd] at notStart
            cases notStart
          have signals : master.signals input =
              { master.ctrl.defaults with
                clrFirstReply := true, udmaCmdReady := true, setupReplay := true } := by
            rw [SpiMaster.signals, SpimCtrl.signals, repeats]
            change master.ctrl.doRepeat (master.ctrlInput input) = _
            rw [SpimCtrl.doRepeat, if_pos valid, if_neg notEnd]
          have before : master.ctrl.isReplay = true := by
            rw [← replays]
            change _ = (master.signals input).isReplay
            rw [signals]
            rfl
          have state : (master.step input).ctrl.state = .doRepeat := by
            change (master.signals input).stateNext = _
            rw [signals]
            exact repeats
          have chkResult : (master.step input).ctrl.chkResult = master.ctrl.chkResult := by
            change (if (master.signals input).updateChkResult then _ else _) = _
            rw [signals]
            rfl
          rcases unspoilt before with ⟨none, -⟩ | ⟨isIdle, -⟩
          · left
            rw [chkResult, state]
            exact ⟨none, by decide⟩
          · exact absurd isIdle idle
      | false =>
          obtain ⟨loop, state, chkResult⟩ :=
            SpimCtrl.step_waiting (.inr ⟨repeats, valid⟩)
          exact same loop state chkResult
    · have busy : master.ctrl.busy = true := by
        rw [SpimCtrl.busy]
        split
        · next state => exact absurd state idle
        · next state => exact absurd state repeats
        · rfl
      have loop := SpimCtrl.step_busy busy (master.ctrlInput input)
      obtain ⟨states, result⟩ := SpimCtrl.step_busy_state busy (master.ctrlInput input)
      rcases unspoilt (loop.isReplay.symm.trans replays) with ⟨none, notCheck⟩ | ⟨isIdle, -⟩
      · left
        refine ⟨(result notCheck).trans none, ?_⟩
        rcases states with stays | ended
        · exact fun waits => notCheck (stays.symm.trans waits)
        · exact fun waits => absurd (ended.symm.trans waits) (by decide)
      · exact absurd isIdle idle

end Blocks

/-! ## Runs -/

/-- In a cycle of which a check is decoded it starts afresh, and where the replay of a block
starts no result is set, unless the loop is over at once. -/
structure StartsClean (master : SpiMaster) (input : MasterInput) : Prop where
  check : master.checks input = true →
    ChecksAfresh master.txRx (master.ctrl.word (master.ctrlInput input))
  replay : master.startsReplay input = true →
    master.ctrl.chkResult = false ∨ master.ctrl.AtEnd

/-- A check that is decoded in a cycle is exact. -/
def ExactCheck (master : SpiMaster) (input : MasterInput) : Prop :=
  master.checks input = true →
    ChecksExactly master input (master.ctrl.word (master.ctrlInput input))

/-- Every check of a run is exact, and a block that is cut short had a check in its own replay. -/
structure ChecksOwn (inputs : List MasterInput) : Prop where
  exact : spimMachine.Always ExactCheck inputs
  own : ∀ before later, inputs = before ++ later →
    (spimMachine.run before).ctrl.cutsShort = true →
    spimMachine.raisedSince SpiMaster.checksInside SpiMaster.startsReplay before = true

/-- Before the first check of a replay, no result is set in it. -/
theorem raised_or_unspoilt {inputs : List MasterInput}
    (clean : spimMachine.Always StartsClean inputs) :
    spimMachine.raisedSince SpiMaster.checksInside SpiMaster.startsReplay inputs = true ∨
      (spimMachine.run inputs).ctrl.Unspoilt := by
  induction inputs using List.reverseRecOn with
  | nil => exact .inr nofun
  | append_singleton inputs input inductionHypothesis =>
      rw [Machine.always_snoc] at clean
      rw [Machine.raisedSince_snoc, Machine.run_snoc]
      cases starts : (spimMachine.run inputs).startsReplay input with
      | true => exact .inr (unspoilt_of_startsReplay starts (clean.2.replay starts))
      | false =>
          rw [Bool.not_false, Bool.true_and, Bool.or_eq_true]
          cases inside : (spimMachine.run inputs).checksInside input with
          | true => exact .inl (.inr rfl)
          | false =>
              rcases inductionHypothesis clean.1 with raised | unspoilt
              · exact .inl (.inl raised)
              · exact .inr (unspoilt.step starts inside)

/-- In every run whose cycles start clean, checks are exact and keep to their own block. -/
theorem checksOwn_of_clean (inputs : List MasterInput)
    (clean : spimMachine.Always StartsClean inputs) : ChecksOwn inputs := by
  constructor
  · refine Machine.Always.of_invariant (motive := fun _ master => CommandStage master)
      (fun inputs _ => run_stage inputs) ?_ clean
    intro inputs input stage starts checks schedule
    have afresh := starts.check checks
    simp only [SpiMaster.checks, Bool.and_eq_true, decide_eq_true_eq, beq_iff_eq] at checks
    obtain ⟨⟨idle, available⟩, isCheck⟩ := checks
    exact (checksExactly_iff ⟨idle, available, rfl⟩ (stage.rests_of_free (not_busy idle)) isCheck
      afresh.counterTransf afresh.whole afresh.inPlace).mpr
        ⟨afresh.isFul, afresh.several, afresh.harmless⟩ schedule
  · intro before later split cuts
    rw [split] at clean
    rcases raised_or_unspoilt clean.of_append with raised | unspoilt
    · exact raised
    · rw [unspoilt.not_cutsShort] at cuts
      cases cuts

instance (setup : TransferSetup) : Decidable setup.InPlace :=
  inferInstanceAs (Decidable (¬_))

instance (txRx : TxRx) (command : BitVec 32) : Decidable (ChecksAfresh txRx command) :=
  decidable_of_iff
    (txRx.isFul = false ∧ txRx.counterTransf = 0 ∧
      (reception command).lanes ∣ (reception command).wordBits ∧
      1 < (reception command).wordClocks ∧ (reception command).InPlace ∧
      Harmless (cdCfgChkType command) (cdCfgCheck command) (txRx.rxShiftReg.extractLsb' 0 16)
        (reception command).wordBits)
    ⟨fun ⟨isFul, transf, whole, several, inPlace, harmless⟩ =>
      ⟨isFul, transf, whole, several, inPlace, harmless⟩,
      fun afresh => ⟨afresh.isFul, afresh.counterTransf, afresh.whole, afresh.several,
        afresh.inPlace, afresh.harmless⟩⟩

instance (master : SpiMaster) (input : MasterInput) : Decidable (StartsClean master input) :=
  decidable_of_iff
    ((master.checks input = true →
        ChecksAfresh master.txRx (master.ctrl.word (master.ctrlInput input))) ∧
      (master.startsReplay input = true → master.ctrl.chkResult = false ∨ master.ctrl.AtEnd))
    ⟨fun ⟨check, replay⟩ => ⟨check, replay⟩, fun clean => ⟨clean.check, clean.replay⟩⟩

/-- A check of two bits that ends its block. -/
theorem checksOwn_of_clean_block :
    ChecksOwn [readCommand 0x80000002, readCommand 0xB0010000, readCommand 0xA0000000,
      lineCycle false, lineCycle false, lineCycle false, lineCycle false] :=
  checksOwn_of_clean _ (by decide +kernel)

/-- A check that matches before a block ends the block at its first command, and four high bits
that are read first are seen by a check of two low bits. -/
theorem matchBefore_leftOver_not_checksOwn :
    ¬ChecksOwn [readCommand 0xB0010000, lineCycle false, lineCycle false, readCommand 0x80000002,
        readCommand 0x90000003, readCommand 0xA0000000] ∧
      ¬ChecksOwn [readCommand 0xB003000F, lineCycle true, lineCycle true, lineCycle true,
        lineCycle true, readCommand 0xB0010000] := by
  constructor
  · intro own
    have raised := own.own _ [] (List.append_nil _).symm (by decide +kernel)
    exact absurd raised (by decide +kernel)
  · intro own
    obtain ⟨-, last⟩ := (spimMachine.always_snoc ExactCheck [readCommand 0xB003000F,
      lineCycle true, lineCycle true, lineCycle true, lineCycle true] _).mp own.exact
    have exactly := last (by decide +kernel)
    have harmless := checksExactly_harmless ⟨by decide +kernel, by decide +kernel, rfl⟩
      (run_rests (by decide +kernel)) (by decide +kernel) (by decide +kernel) (by decide +kernel)
      (by decide +kernel) exactly
    exact absurd harmless (by decide +kernel)

end CoreVMcu.Spi
