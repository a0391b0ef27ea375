import CoreVMcu.Spi.LoopbackStep

/-!
# Full-duplex loopback

With the driven line wired to the line that is read, every word that a full-duplex
command transmits comes back: as many words are received as the command has transfers,
in order, and each agrees with the transmitted one on every transmitted bit.
-/

namespace CoreVMcu.Spi

open Clocked

/-- The commands taken along a run. -/
def commandsTaken (inputs : List MasterInput) : List (BitVec 32) :=
  loopbackMachine.observed (fun master input => master.commandTaken (master.looped input)) inputs

/-- The data words taken from the uDMA along a run. -/
def wordsTransmitted (inputs : List MasterInput) : List (BitVec 32) :=
  loopbackMachine.observed (fun master input => master.wordTransmitted (master.looped input))
    inputs

/-- The data words handed to the uDMA along a run. -/
def wordsReceived (inputs : List MasterInput) : List (BitVec 32) :=
  loopbackMachine.observed (fun master input => master.wordReceived (master.looped input)) inputs

/-- The command once for each of its transfers. -/
def transferWords (command : BitVec 32) : List (BitVec 32) :=
  if spiCmd command = some .fullDupl then List.replicate (transferCount command) command else []

/-- The receiving side is ready, and the commands that are taken are admitted. -/
def LoopAllowed (master : SpiMaster) (input : MasterInput) : Prop :=
  input.udmaRxDataReady = true ∧ ∀ word ∈ master.commandTaken (master.looped input), Admitted word

/-! ## Between two commands -/

namespace SpimCtrl

/-- A command that is there is taken. -/
theorem takes_command {ctrl : SpimCtrl} {input : CtrlInput} (rests : ctrl.Rests)
    (idle : ctrl.state = .idle) (valid : input.udmaCmdValid = true) :
    (ctrl.signals input).udmaCmdReady = true := by
  simp only [signals, idle, SpimCtrl.idle, cmdAvailable, rests.isReplay, Bool.false_eq_true,
    if_false, valid, if_true, execute_udmaCmdReady, taken, Bool.not_false]

/-- Commands are only taken when the interpreter is idle. -/
theorem idle_of_ready {ctrl : SpimCtrl} {input : CtrlInput} (rests : ctrl.Rests)
    (ready : (ctrl.signals input).udmaCmdReady = true) : ctrl.state = .idle := by
  cases state : ctrl.state with
  | idle => rfl
  | waitEvent | waitCycle | clearCs =>
      simp only [signals, state] at ready
      first
      | cases ready
      | split at ready <;> cases ready
  | waitDone | waitCheck | doRepeat =>
      have resting := rests.state
      rw [state] at resting
      exact resting.elim

end SpimCtrl

section Rest

variable {master : SpiMaster} {input : MasterInput}

/-- A cycle between two commands in which no transfer starts. -/
structure RestCycle (master : SpiMaster) (input : MasterInput) : Prop where
  rests : (master.step input).Rests
  commands : (master.commandTaken input).flatMap transferWords = []
  transmitted : master.wordTransmitted input = []
  received : master.wordReceived input = []

/-- A resting master goes on resting unless a full-duplex command is decoded. -/
theorem SpiMaster.Rests.step (rests : master.Rests)
    (admitted : ∀ word ∈ master.commandTaken input, Admitted word)
    (other : ¬master.ctrl.startsFull input.udmaCmd input.udmaCmdValid) :
    RestCycle master input := by
  have each : ∀ output : TxRxOutput, (master.ctrl.signals (input.ctrlInput output)).Rests := by
    intro output
    apply SpimCtrl.signals_rests rests.ctrl _ other
    intro idle valid
    apply admitted
    have ready : (master.signals input).udmaCmdReady = true :=
      SpimCtrl.takes_command rests.ctrl idle valid
    rw [SpiMaster.commandTaken, ready, show input.udmaCmdValid = true from valid]
    exact List.mem_singleton_self _
  have quiet : Quiet (master.txRxInput input) := ⟨(each _).txStart, (each _).rxStart⟩
  have signals : (master.signals input).Rests := each _
  refine ⟨⟨SpimCtrl.step_rests signals, rests.txRx.step quiet⟩, ?_, ?_, ?_⟩
  · rw [SpiMaster.commandTaken]
    split
    · next taken =>
        rw [Bool.and_eq_true] at taken
        have idle := SpimCtrl.idle_of_ready rests.ctrl taken.1
        rw [List.flatMap_singleton, transferWords, if_neg]
        exact fun cmd => other ⟨idle, taken.2, cmd⟩
    · rfl
  · rw [SpiMaster.wordTransmitted, signals.udmaTxDataReady]; rfl
  · rw [SpiMaster.wordReceived, signals.udmaRxDataValid]; rfl

/-- The cycle in which a full-duplex command is decoded. -/
structure StartCycle (master : SpiMaster) (input : MasterInput) : Prop where
  stage : Stage input.udmaCmd 0 0 none (master.step input)
  command : master.commandTaken input = [input.udmaCmd]
  transmitted : master.wordTransmitted input = []
  received : master.wordReceived input = []

theorem SpiMaster.Rests.start (rests : master.Rests)
    (starts : master.ctrl.startsFull input.udmaCmd input.udmaCmdValid) :
    StartCycle master input := by
  have full : ∀ output : TxRxOutput, master.ctrl.signals (input.ctrlInput output) = _ :=
    fun output => SpimCtrl.signals_full rests.ctrl (input.ctrlInput output) starts
  have setup : Starts input.udmaCmd (master.txRxInput input) := by
    constructor <;> rw [SpiMaster.txRxInput, SpiMaster.setup, full] <;> rfl
  have seen := rests.txRx.seen_start setup
  have position := rests.txRx.step_start setup
  have signals : master.signals input = _ := full _
  refine ⟨?_, ?_, ?_, ?_⟩
  · refine Stage.waiting ⟨?_, ?_, ?_, ?_, ?_, seen.txDone, seen.rxDone⟩ position.1 position.2
      (Nat.zero_mod _)
    all_goals
      simp only [SpiMaster.step, SpimCtrl.step, SpiMaster.ctrlInput, full]
    · exact rests.ctrl.isReplay
    · exact rests.ctrl.isDummy
    · rfl
  · rw [SpiMaster.commandTaken, signals, starts.2.1]; rfl
  · rw [SpiMaster.wordTransmitted, signals]; rfl
  · rw [SpiMaster.wordReceived, signals]; rfl

end Rest

/-- What has been observed along a run: the transfers that are done, those that the
current command still promises, and the word that is being sent. -/
structure History (inputs : List MasterInput) (echoes : List Echo)
    (promised pending : List (BitVec 32)) : Prop where
  commands :
    (commandsTaken inputs).flatMap transferWords = echoes.map Echo.command ++ promised
  transmitted : wordsTransmitted inputs = echoes.map Echo.sent ++ pending
  received : wordsReceived inputs = echoes.map Echo.received

/-- The state of the looped master after a run. -/
inductive After (inputs : List MasterInput) (master : SpiMaster) : Prop where
  | rests (rests : master.Rests) (echoes : List Echo) (history : History inputs echoes [] [])
  | busy (command : BitVec 32) (word bit : Nat) (pending : Option (BitVec 32))
      (packed : Packed command) (latest : (commandsTaken inputs).getLast? = some command)
      (stage : Stage command word bit pending master) (echoes : List Echo)
      (history :
        History inputs echoes
          (List.replicate (transferCount command - word / perTransfer command) command)
          pending.toList)

theorem after_reset : After [] loopbackMachine.init :=
  .rests ⟨⟨trivial, rfl, rfl⟩, ⟨rfl, rfl, rfl⟩⟩ [] ⟨rfl, rfl, rfl⟩

section Next

variable {inputs : List MasterInput} {input : MasterInput}

theorem commandsTaken_snoc : commandsTaken (inputs ++ [input]) =
    commandsTaken inputs ++ (loopbackMachine.run inputs).commandTaken
      ((loopbackMachine.run inputs).looped input) :=
  loopbackMachine.observed_snoc ..

theorem wordsTransmitted_snoc : wordsTransmitted (inputs ++ [input]) =
    wordsTransmitted inputs ++ (loopbackMachine.run inputs).wordTransmitted
      ((loopbackMachine.run inputs).looped input) :=
  loopbackMachine.observed_snoc ..

theorem wordsReceived_snoc : wordsReceived (inputs ++ [input]) =
    wordsReceived inputs ++ (loopbackMachine.run inputs).wordReceived
      ((loopbackMachine.run inputs).looped input) :=
  loopbackMachine.observed_snoc ..

/-- From rest a run goes on resting or starts a command. -/
theorem after_rests (rests : (loopbackMachine.run inputs).Rests) {echoes : List Echo}
    (history : History inputs echoes [] [])
    (admitted : ∀ word ∈ (loopbackMachine.run inputs).commandTaken
      ((loopbackMachine.run inputs).looped input), Admitted word) :
    After (inputs ++ [input]) (loopbackMachine.step (loopbackMachine.run inputs) input) := by
  by_cases starts : (loopbackMachine.run inputs).ctrl.startsFull input.udmaCmd input.udmaCmdValid
  · have cycle : StartCycle (loopbackMachine.run inputs)
        ((loopbackMachine.run inputs).looped input) := SpiMaster.Rests.start rests starts
    have packed : Packed input.udmaCmd := by
      have taken := admitted input.udmaCmd (cycle.command ▸ List.mem_singleton_self _)
      rw [Admitted, starts.2.2] at taken
      exact taken
    refine .busy input.udmaCmd 0 0 none packed ?_ cycle.stage echoes ⟨?_, ?_, ?_⟩
    · rw [commandsTaken_snoc, cycle.command]
      exact List.getLast?_concat ..
    · rw [commandsTaken_snoc, cycle.command, List.flatMap_append, history.commands,
        List.append_nil, List.flatMap_singleton, Nat.zero_div, Nat.sub_zero]
      exact congrArg _ (if_pos starts.2.2)
    · rw [wordsTransmitted_snoc, cycle.transmitted, history.transmitted]
      exact List.append_nil _
    · rw [wordsReceived_snoc, cycle.received, history.received, List.append_nil]
  · have cycle := SpiMaster.Rests.step rests admitted starts
    refine .rests cycle.rests echoes ⟨?_, ?_, ?_⟩
    · rw [commandsTaken_snoc, List.flatMap_append, cycle.commands, history.commands,
        List.append_nil]
    · rw [wordsTransmitted_snoc, cycle.transmitted, history.transmitted, List.append_nil]
    · rw [wordsReceived_snoc, cycle.received, history.received, List.append_nil]

/-- The transfers of a command that are done are no longer promised. -/
theorem promised_eq {command : BitVec 32} {echoes : List Echo}
    (ofCommand : ∀ echo ∈ echoes, echo.command = command) {left : Nat} :
    List.replicate (echoes.length + left) command =
      echoes.map Echo.command ++ List.replicate left command := by
  have same : echoes.map Echo.command = List.replicate echoes.length command := by
    rw [List.eq_replicate_iff]
    refine ⟨List.length_map .., fun each member => ?_⟩
    obtain ⟨echo, isEcho, rfl⟩ := List.mem_map.mp member
    exact ofCommand echo isEcho
  rw [same, List.replicate_append_replicate]

/-- A word of a command belongs to one of its transfers. -/
theorem Stage.transfer_le {command : BitVec 32} {word bit : Nat} {pending : Option (BitVec 32)}
    {master : SpiMaster} (stage : Stage command word bit pending master) :
    word / perTransfer command ≤ transferCount command := by
  cases stage with
  | waiting _ position _ _ => exact Nat.div_le_div_right (Nat.le_of_lt position.inside)
  | sending _ position _ _ _ => exact Nat.div_le_div_right (Nat.le_of_lt position.inside)

/-- A cycle of a command goes on with the command or ends it. -/
theorem after_busy {command : BitVec 32} {word bit : Nat} {pending : Option (BitVec 32)}
    (packed : Packed command) (latest : (commandsTaken inputs).getLast? = some command)
    (stage : Stage command word bit pending (loopbackMachine.run inputs)) {echoes : List Echo}
    (history :
      History inputs echoes
        (List.replicate (transferCount command - word / perTransfer command) command)
        pending.toList)
    (ready : input.udmaRxDataReady = true) :
    After (inputs ++ [input]) (loopbackMachine.step (loopbackMachine.run inputs) input) := by
  obtain ⟨more, pendingNext, ofCommand, noCommand, received, transmitted, outcome⟩ :=
    stage.advances packed (looped_looped _ input) ready
  have latestNext : (commandsTaken (inputs ++ [input])).getLast? = some command := by
    rw [commandsTaken_snoc, noCommand, List.append_nil, latest]
  have historyNext : ∀ left, transferCount command - word / perTransfer command =
      more.length + left →
      History (inputs ++ [input]) (echoes ++ more) (List.replicate left command)
        pendingNext.toList := by
    intro left promised
    refine ⟨?_, ?_, ?_⟩
    · rw [commandsTaken_snoc, noCommand, List.append_nil, history.commands, promised,
        promised_eq ofCommand, List.map_append, List.append_assoc]
    · rw [wordsTransmitted_snoc, history.transmitted, List.append_assoc, transmitted,
        List.map_append, List.append_assoc]
    · rw [wordsReceived_snoc, history.received, received, List.map_append]
  rcases outcome with ⟨wordNext, bitNext, stageNext, transfers, _⟩ | ⟨rests, none, last⟩
  · refine .busy command wordNext bitNext pendingNext packed latestNext stageNext (echoes ++ more)
      (historyNext _ ?_)
    have bound := stageNext.transfer_le
    omega
  · refine .rests rests (echoes ++ more) ?_
    rw [none] at historyNext
    exact historyNext 0 (by omega)

end Next

theorem after_run {inputs : List MasterInput}
    (allowed : loopbackMachine.Always LoopAllowed inputs) :
    After inputs (loopbackMachine.run inputs) := by
  apply Machine.run_induction (motive := After) after_reset _ inputs allowed
  intro inputs input _ after allowed
  cases after with
  | rests rests echoes history => exact after_rests rests history allowed.2
  | busy command word bit pending packed latest stage echoes history =>
      exact after_busy packed latest stage history allowed.1

/-! ## A command comes to its end -/

/-- The cycles with transmit data after which the latest command has come to its end. -/
def dataCycles (commands : List (BitVec 32)) : Nat :=
  match commands.getLast? with
  | some command => 2 * (wordCount command * wordBits command) + 1
  | none => 0

theorem rank_le (command : BitVec 32) (word bit : Nat) (pending : Option (BitVec 32)) :
    rank command word bit pending ≤ 2 * (wordCount command * wordBits command) + 1 := by
  have words : (wordCount command - 1 - word) * wordBits command ≤
      (wordCount command - 1) * wordBits command :=
    Nat.mul_le_mul_right _ (Nat.sub_le ..)
  have all : wordCount command * wordBits command =
      (wordCount command - 1) * wordBits command + wordBits command := by
    rw [← Nat.succ_mul, Nat.succ_eq_add_one, Nat.sub_add_cancel (wordCount_pos command)]
  have waits := Bool.toNat_le pending.isNone
  unfold rank
  omega

theorem Stage.rank_pos {command : BitVec 32} {word bit : Nat} {pending : Option (BitVec 32)}
    {master : SpiMaster} (stage : Stage command word bit pending master) :
    0 < rank command word bit pending := by
  unfold rank
  cases stage with
  | waiting => exact Nat.succ_pos _
  | sending _ position =>
      have inWord := position.inWord
      omega

/-- A command is underway, with its rank. -/
def Underway (command : BitVec 32) (left : Nat) (master : SpiMaster) : Prop :=
  ∃ word bit pending, Stage command word bit pending master ∧ left = rank command word bit pending

/-- A command comes to its end when enough transmit data is presented. -/
theorem Stage.ends {command : BitVec 32} {word bit : Nat} {pending : Option (BitVec 32)}
    {master : SpiMaster} (packed : Packed command) (stage : Stage command word bit pending master)
    {more : List MasterInput} (ready : ∀ input ∈ more, input.udmaRxDataReady = true)
    (enough : rank command word bit pending ≤ more.countP (·.udmaTxDataValid)) :
    ∃ n ≤ more.length, (loopbackMachine.runFrom master (more.take n)).Rests := by
  have underway : Underway command (rank command word bit pending) master :=
    ⟨word, bit, pending, stage, rfl⟩
  refine Machine.ends_of_rank ?_ ?_ underway ready enough
  · rintro left master input ⟨word, bit, pending, stage, rfl⟩ ready
    obtain ⟨_, _, advances⟩ := stage.advances packed (looped_looped _ input) ready
    rcases advances.outcome with ⟨wordNext, bitNext, goesOn, _, lowers⟩ | ⟨rests, _, _⟩
    · exact Or.inl ⟨_, ⟨wordNext, bitNext, _, goesOn, rfl⟩, lowers⟩
    · exact Or.inr rests
  · rintro master ⟨word, bit, pending, stage, none⟩
    exact absurd none (Nat.ne_of_lt stage.rank_pos)

/-- Full-duplex commands loop back.  The received words are, in order, those of a list
of transfers of the commands taken so far: each agrees with the word transmitted for it
on every transmitted place.  Between two commands the list has all the transfers of all
commands, and a command comes to its end whenever its data does. -/
theorem fullDuplex_loops_back {inputs : List MasterInput}
    (allowed : loopbackMachine.Always LoopAllowed inputs) :
    (∃ echoes : List Echo,
      wordsReceived inputs = echoes.map Echo.received ∧
      echoes.map Echo.sent <+: wordsTransmitted inputs ∧
      echoes.map Echo.command <+: (commandsTaken inputs).flatMap transferWords ∧
      ((loopbackMachine.run inputs).ctrl.state ≠ .waitDone →
        echoes.map Echo.sent = wordsTransmitted inputs ∧
        echoes.map Echo.command = (commandsTaken inputs).flatMap transferWords)) ∧
    ∀ more : List MasterInput, (∀ input ∈ more, input.udmaRxDataReady = true) →
      dataCycles (commandsTaken inputs) ≤ more.countP (·.udmaTxDataValid) →
      ∃ n ≤ more.length,
        (loopbackMachine.run (inputs ++ more.take n)).ctrl.state ≠ .waitDone := by
  have resting : ∀ {master : SpiMaster}, master.Rests → master.ctrl.state ≠ .waitDone := by
    intro master rests waits
    have state := rests.ctrl.state
    rw [waits] at state
    exact state
  cases after_run allowed with
  | rests rests echoes history =>
      refine ⟨⟨echoes, history.received, ?_, ?_, fun _ => ⟨?_, ?_⟩⟩, fun more _ _ => ?_⟩
      · exact history.transmitted ▸ List.prefix_append ..
      · exact history.commands ▸ List.prefix_append ..
      · exact (history.transmitted.trans (List.append_nil _)).symm
      · exact (history.commands.trans (List.append_nil _)).symm
      · refine ⟨0, Nat.zero_le _, ?_⟩
        rw [List.take_zero, List.append_nil]
        exact resting rests
  | busy command word bit pending packed latest stage echoes history =>
      refine ⟨⟨echoes, history.received, ?_, ?_, fun ended => ?_⟩, fun more ready enough => ?_⟩
      · exact history.transmitted ▸ List.prefix_append ..
      · exact history.commands ▸ List.prefix_append ..
      · cases stage with
        | waiting full => exact absurd full.state ended
        | sending full => exact absurd full.state ended
      · rw [dataCycles, latest] at enough
        obtain ⟨n, inside, rests⟩ :=
          stage.ends packed ready (Nat.le_trans (rank_le ..) enough)
        refine ⟨n, inside, ?_⟩
        rw [Machine.run_append]
        exact resting rests

/-- A run is allowed when every command that is presented is admitted. -/
theorem loopAllowed_of_presented {inputs : List MasterInput}
    (ready : ∀ input ∈ inputs, input.udmaRxDataReady = true)
    (admitted : ∀ input ∈ inputs, Admitted input.udmaCmd) :
    loopbackMachine.Always LoopAllowed inputs := by
  induction inputs using List.reverseRecOn with
  | nil => exact Machine.always_nil ..
  | append_singleton inputs input inductionHypothesis =>
      rw [List.forall_mem_append, List.forall_mem_singleton] at ready admitted
      refine (Machine.always_snoc ..).mpr
        ⟨inductionHypothesis ready.1 admitted.1, ready.2, fun word taken => ?_⟩
      rw [SpiMaster.commandTaken] at taken
      split at taken
      · exact List.mem_singleton.mp taken ▸ admitted.2
      · cases taken

/-- A cycle with a command that transfers two words of four bits, or with their data. -/
def twoWordsCycle (cmdValid dataValid : Bool) : MasterInput :=
  { event := 0, udmaCmd := 0xC0230001, udmaCmdValid := cmdValid, udmaTxData := 0xB0005
    udmaTxDataValid := dataValid, udmaRxDataReady := true, sdi := ⟨false, false, false, false⟩ }

/-- The command, its data after a cycle without any, and the eight bits. -/
def twoWordsLooped : List MasterInput :=
  [twoWordsCycle true false, twoWordsCycle false false, twoWordsCycle false true] ++
    List.replicate 8 (twoWordsCycle false false)

theorem twoWordsLooped_loops_back :
    wordsReceived twoWordsLooped = [0xB0005] ∧
    ∃ echoes : List Echo,
      wordsReceived twoWordsLooped = echoes.map Echo.received ∧
      echoes.map Echo.sent <+: wordsTransmitted twoWordsLooped := by
  have admitted : Admitted 0xC0230001 := by
    change Packed _
    exact ⟨by decide +kernel, by decide +kernel, by decide +kernel⟩
  have allowed : loopbackMachine.Always LoopAllowed twoWordsLooped := by
    refine loopAllowed_of_presented (by decide) fun input member => ?_
    have presents : ∀ input ∈ twoWordsLooped, input.udmaCmd = 0xC0230001 := by decide
    exact (presents input member).symm ▸ admitted
  have received : wordsReceived twoWordsLooped = [0xB0005] := by decide +kernel
  obtain ⟨⟨echoes, isReceived, sent, _⟩, _⟩ := fullDuplex_loops_back allowed
  exact ⟨received, echoes, isReceived, sent⟩

end CoreVMcu.Spi
