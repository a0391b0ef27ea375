import CoreVMcu.Spi.ReceivedWords

/-!
# What a command receives

A command that only receives clocks the line as often as its fields say exactly when no
transfer in both directions has just ended and a word takes more than one clock; its data
words have the bits where the transmitter has them when, besides, the counter of the words
of a transfer is at zero and four lanes are not read with the low bits first.
-/

namespace CoreVMcu.Spi

open Clocked

/-! ## Commands that start -/

/-- A cycle in which a command that only receives is decoded. -/
structure ReadStart (setup : TransferSetup) (wait : CtrlState) (master : SpiMaster)
    (input : MasterInput) : Prop where
  ctrl : (master.step input).ctrl.InReceive wait setup.qpi
  hears : HearsAt setup master.txRx.counterTransf (master.step input).txRx
  stopped : (master.step input).txRx.rxClken = false
  isFul : (master.step input).txRx.isFul = master.txRx.isFul
  shift : (master.step input).txRx.rxShiftReg = master.txRx.rxShiftReg
  silent : master.clocked input = false

section Start

variable {master : SpiMaster} {input : MasterInput} {command : BitVec 32} {setup : TransferSetup}
  {wait : CtrlState}

/-- A transfer that only receives starts. -/
theorem readStart_of_setup (rests : Rests master) {isDummy : Bool}
    (waits : wait = .waitDone ∨ wait = .waitCheck)
    (txQuiet : (master.txRxInput input).tx.start = false)
    (rx : (master.txRxInput input).rx = setup) (starts : setup.start = true)
    (ctrl : (master.step input).ctrl.InCommand wait isDummy false setup.qpi) :
    ReadStart setup wait master input := by
  obtain ⟨hears, stopped, isFul, shift⟩ :=
    step_hearsAt rests.txState rests.rxState txQuiet rx starts
  refine ⟨⟨waits, ctrl.state, ctrl.isFul, ctrl.qpi⟩, hears, stopped, isFul, shift, ?_⟩
  have rxStart : (master.txRxInput input).rx.start = true := by rw [rx, starts]
  rw [SpiMaster.clocked, TxRx.clken, txSignals_resting rests.txState txQuiet,
    rxSignals_start rests.rxState rxStart]
  exact ite_self _

/-- The commands that read the line without a check. -/
def ReadsLine (cmd : Option SpiCmd) : Prop := cmd = some .dummy ∨ cmd = some .rxData

theorem Accepts.readStart (accepts : Accepts master input command) (rests : Rests master)
    (reads : ReadsLine (spiCmd command)) :
    ReadStart (reception command) .waitDone master input := by
  obtain ⟨txQuiet, rx, ctrl⟩ := accepts.receives rests.isDummy reads
  exact readStart_of_setup rests (.inl rfl) txQuiet rx (reception_start command) ctrl

theorem Accepts.checkStart (accepts : Accepts master input command) (rests : Rests master)
    (checks : spiCmd command = some .rxCheck) :
    ReadStart (reception command) .waitCheck master input := by
  obtain ⟨txQuiet, rx, ctrl⟩ := accepts.checks rests.isDummy checks
  exact readStart_of_setup rests (.inr rfl) txQuiet rx (reception_start command) ctrl

end Start

section Runs

variable {master : SpiMaster} {input : MasterInput} {setup : TransferSetup} {wait : CtrlState}

/-- A command that starts while the serializer still follows the transmitter. -/
structure StandsStill (wait : CtrlState) (qpi : Bool) (master : SpiMaster) : Prop where
  ctrl : master.ctrl.InReceive wait qpi
  txState : master.txRx.txState = .idle
  rxState : master.txRx.rxState = .receive
  isFul : master.txRx.isFul = true

/-- It does not go on, and the line is not clocked. -/
theorem StandsStill.step (stands : StandsStill wait setup.qpi master) (input : MasterInput) :
    StandsStill wait setup.qpi (master.step input) ∧ master.clocked input = false := by
  have hears := stands.ctrl.hears input
  have rx := rxSignals_stands stands.rxState stands.isFul stands.txState hears.txStart
  have tx := txSignals_resting stands.txState hears.txStart
  refine ⟨⟨stands.ctrl.goesOn stands.txState ?_, step_txState_resting stands.txState hears.txStart,
    ?_, step_isFul stands.isFul hears.txStart hears.rxStart stands.rxState⟩, ?_⟩
  · rw [rx]
    rfl
  · change (master.txRx.rxSignals (master.txRxInput input)).stateNext = .receive
    rw [rx]
    exact stands.rxState
  · rw [SpiMaster.clocked, TxRx.clken, TxRx.fullDuplex, stands.isFul, Bool.or_true, if_pos rfl, tx]
    rfl

theorem StandsStill.runFrom (stands : StandsStill wait setup.qpi master) (rest : List MasterInput) :
    StandsStill wait setup.qpi (spimMachine.runFrom master rest) := by
  induction rest generalizing master with
  | nil => exact stands
  | cons input rest inductionHypothesis => exact inductionHypothesis (stands.step input).1

/-- Before a command is over the interpreter waits for it. -/
theorem waits_before {schedule : Nat → MasterInput} {n m : Nat} (before : n < m)
    (busy : spimMachine.AlwaysFrom (SpiMaster.InState wait) master (inputsUpTo schedule m)) :
    (spimMachine.runFrom master (inputsUpTo schedule n)).ctrl.state = wait := by
  induction m with
  | zero => cases before
  | succ m inductionHypothesis =>
      rw [inputsUpTo_succ, Machine.alwaysFrom_append] at busy
      rcases Nat.lt_succ_iff_lt_or_eq.mp before with earlier | now
      · exact inductionHypothesis earlier busy.1
      · rw [now]
        exact busy.2.1

/-- A command is over once. -/
theorem completes_unique {schedule : Nat → MasterInput} {n m : Nat} (waits : wait ≠ .idle)
    (busy : spimMachine.AlwaysFrom (SpiMaster.InState wait) master (inputsUpTo schedule n))
    (idle : (spimMachine.runFrom master (inputsUpTo schedule n)).ctrl.state = .idle)
    (busy' : spimMachine.AlwaysFrom (SpiMaster.InState wait) master (inputsUpTo schedule m))
    (idle' : (spimMachine.runFrom master (inputsUpTo schedule m)).ctrl.state = .idle) : n = m := by
  rcases Nat.lt_trichotomy n m with before | same | after
  · exact absurd ((waits_before before busy').symm.trans idle) waits
  · exact same
  · exact absurd ((waits_before after busy).symm.trans idle') waits

/-- How long a command that receives takes: its clocks, and one more if a word is one. -/
theorem ReadStart.completes (start : ReadStart setup wait master input)
    (whole : setup.lanes ∣ setup.wordBits) (packs : setup.Packs)
    (follows : master.txRx.isFul = false) {rest : List MasterInput}
    (length : rest.length = if 1 < setup.wordClocks then setup.clocks else setup.clocks + 1) :
    (spimMachine.runFrom (master.step input) rest).ctrl.state = .idle ∧
      spimMachine.AlwaysFrom (SpiMaster.InState wait) (master.step input) rest ∧
        spimMachine.countedFrom SpiMaster.clocked (master.step input) rest = rest.length := by
  have isFul := start.isFul.trans follows
  by_cases several : 1 < setup.wordClocks
  · rw [if_pos several] at length
    exact start.ctrl.ends (start.hears.receives whole isFul (.inr several)) whole packs length
  · rw [if_neg several] at length
    have single : setup.wordClocks = 1 :=
      Nat.le_antisymm (Nat.le_of_not_lt several) (TransferSetup.wordClocks_pos whole)
    cases rest with
    | nil => cases length
    | cons next rest =>
        have hears := start.ctrl.hears next
        obtain ⟨position, goesOn⟩ := start.hears.step_single whole isFul start.stopped single hears
        have ctrl := start.ctrl.goesOn start.hears.txState goesOn
        obtain ⟨idle, busy, pulses⟩ := ctrl.ends position whole packs (Nat.succ.inj length)
        have clocked : (master.step input).clocked next = true :=
          clken_receiving start.hears.rxState isFul hears
        refine ⟨idle, ⟨start.ctrl.state, busy⟩, ?_⟩
        rw [Machine.countedFrom, clocked, List.length_cons, Nat.add_comm]
        exact congrArg (· + 1) pulses

end Runs

/-! ## Exact commands -/

/-- The lines that are sampled in a cycle. -/
def SpiMaster.linesSampled (master : SpiMaster) (input : MasterInput) : List DataLines :=
  if master.clocked input then [input.sdi] else []

/-- The data word that is offered to the uDMA in a cycle, whether it is ready or not. -/
def SpiMaster.wordOffered (master : SpiMaster) (input : MasterInput) : List (BitVec 32) :=
  if (master.signals input).udmaRxDataValid then [(master.signals input).udmaRxData] else []

/-- Some cycles are those of a command that only receives: it waits up to the last of them and
is over then, the line has had the clocks of its fields, and the data words of a command that
fills them have the bits of the line. -/
structure ReceivedAs (master : SpiMaster) (first : MasterInput) (command : BitVec 32)
    (rest : List MasterInput) : Prop where
  busy : spimMachine.AlwaysFrom (SpiMaster.InState .waitDone) (master.step first) rest
  completes : (spimMachine.runFrom master (first :: rest)).ctrl.state = .idle
  pulses : spimMachine.countedFrom SpiMaster.clocked master (first :: rest) =
    (reception command).clocks
  words : spiCmd command = some .rxData →
    (reception command).perTransfer ∣ (reception command).wordCount →
    PackedAs (reception command)
      (spimMachine.observedFrom SpiMaster.linesSampled master (first :: rest))
      (spimMachine.observedFrom SpiMaster.wordOffered master (first :: rest))

/-- Whatever comes from the line, the command comes to its end in that way. -/
def ReceivesExactly (master : SpiMaster) (first : MasterInput) (command : BitVec 32) : Prop :=
  ∀ schedule : Nat → MasterInput, ∃ n, ReceivedAs master first command (inputsUpTo schedule n)

/-- The serializer does not follow the transmitter, and a word takes several clocks; a command
whose data words are full finds the counter of the words at zero and the places of the
transmitter. -/
structure ReceivesAfresh (txRx : TxRx) (command : BitVec 32) : Prop where
  isFul : txRx.isFul = false
  several : 1 < (reception command).wordClocks
  words : spiCmd command = some .rxData →
    (reception command).perTransfer ∣ (reception command).wordCount →
    txRx.counterTransf = 0 ∧ (reception command).InPlace

/-- A cycle in which all lines are low, or all are high. -/
def lineCycle (level : Bool) : MasterInput :=
  { event := 0, udmaCmd := 0, udmaCmdValid := false, udmaTxData := 0, udmaTxDataValid := false
    udmaRxDataReady := true, sdi := ⟨level, level, level, level⟩ }

theorem getD_replicate_append {Value : Type} {count more : Nat} (before after fallback : Value)
    (some : 0 < more) :
    (List.replicate count before ++ List.replicate more after).getD count fallback = after := by
  have length : (List.replicate count before).length ≤ count := Nat.le_of_eq List.length_replicate
  rw [List.getD_append_right _ _ _ _ length, List.length_replicate, Nat.sub_self,
    List.getD_eq_getElem _ _ (by rw [List.length_replicate]; exact some), List.getElem_replicate]

section Exact

variable {master : SpiMaster} {first : MasterInput} {command : BitVec 32}

/-- A command that hands its data words over offers all that the receiver gives. -/
theorem observed_wordOffered (isDummy : master.ctrl.isDummy = false) {rest : List MasterInput}
    (busy : spimMachine.AlwaysFrom (SpiMaster.InState .waitDone) master rest) :
    spimMachine.observedFrom SpiMaster.wordOffered master rest =
      spimMachine.observedFrom SpiMaster.wordGiven master rest := by
  induction rest generalizing master with
  | nil => rfl
  | cons input rest inductionHypothesis =>
      obtain ⟨state, busy⟩ := busy
      have dummyNext := step_waitDone_isDummy input state
      rw [isDummy, ite_self] at dummyNext
      have offered : master.wordOffered input = master.wordGiven input := by
        rw [SpiMaster.wordOffered, SpiMaster.wordGiven, TxRx.wordGiven, signals_waitDone state,
          isDummy]
        rfl
      rw [Machine.observedFrom, Machine.observedFrom, offered]
      exact congrArg _ (inductionHypothesis dummyNext busy)

/-- When every cycle is clocked, every cycle is sampled. -/
theorem observed_linesSampled {rest : List MasterInput}
    (pulses : spimMachine.countedFrom SpiMaster.clocked master rest = rest.length) :
    spimMachine.observedFrom SpiMaster.linesSampled master rest = rest.map MasterInput.sdi := by
  have bound : ∀ (master : SpiMaster) (rest : List MasterInput),
      spimMachine.countedFrom SpiMaster.clocked master rest ≤ rest.length := by
    intro master rest
    induction rest generalizing master with
    | nil => exact Nat.le_refl 0
    | cons input rest inductionHypothesis =>
        rw [Machine.countedFrom, List.length_cons, Nat.add_comm]
        exact Nat.add_le_add (inductionHypothesis _) (Bool.toNat_le _)
  induction rest generalizing master with
  | nil => rfl
  | cons input rest inductionHypothesis =>
      have later := bound (spimMachine.step master input) rest
      rw [Machine.countedFrom, List.length_cons] at pulses
      cases clocked : master.clocked input with
      | false =>
          rw [clocked] at pulses
          change 0 + _ = _ at pulses
          omega
      | true =>
          rw [clocked, Nat.add_comm] at pulses
          rw [Machine.observedFrom, SpiMaster.linesSampled, clocked,
            inductionHypothesis (Nat.succ.inj pulses)]
          rfl

/-- What the master offers when the command starts. -/
theorem Accepts.offers_nothing (accepts : Accepts master first command)
    (reads : ReadsLine (spiCmd command)) : master.wordOffered first = [] := by
  obtain ⟨-, -, -, -, silent, -⟩ := taken_fields master.ctrl
  have valid : (master.signals first).udmaRxDataValid = false := by
    rw [accepts.signals, SpimCtrl.execute]
    rcases reads with cmd | cmd <;> rw [cmd] <;> exact silent
  rw [SpiMaster.wordOffered, valid]
  rfl

/-- The command of which the data words are handed over. -/
theorem Accepts.hands_over (accepts : Accepts master first command) (rests : Rests master)
    (cmd : spiCmd command = some .rxData) : (master.step first).ctrl.isDummy = false := by
  obtain ⟨-, -, ctrl⟩ := accepts.receives rests.isDummy (.inr cmd)
  rw [cmd] at ctrl
  exact ctrl.isDummy

section Command

variable (accepts : Accepts master first command) (rests : Rests master)
  (reads : ReadsLine (spiCmd command))
    (whole : (reception command).lanes ∣ (reception command).wordBits)
  (fits : (reception command).perTransfer * (reception command).wordBits ≤ 32)

include accepts rests reads

/-- What is sampled and what is offered in the cycles of a command. -/
theorem observed_command (cmd : spiCmd command = some .rxData) {rest : List MasterInput}
    (busy : spimMachine.AlwaysFrom (SpiMaster.InState .waitDone) (master.step first) rest)
    (pulses : spimMachine.countedFrom SpiMaster.clocked (master.step first) rest = rest.length) :
    spimMachine.observedFrom SpiMaster.linesSampled master (first :: rest) =
        rest.map MasterInput.sdi ∧
      spimMachine.observedFrom SpiMaster.wordOffered master (first :: rest) =
        spimMachine.observedFrom SpiMaster.wordGiven (master.step first) rest := by
  have silent := (accepts.readStart rests reads).silent
  constructor
  · rw [Machine.observedFrom, SpiMaster.linesSampled, silent]
    exact observed_linesSampled pulses
  · rw [Machine.observedFrom, accepts.offers_nothing reads]
    exact observed_wordOffered (accepts.hands_over rests cmd) busy

include whole fits

/-- A command that finds everything in order. -/
theorem receivedAs_of_afresh (afresh : ReceivesAfresh master.txRx command)
    {rest : List MasterInput} (length : rest.length = (reception command).clocks) :
    ReceivedAs master first command rest := by
  have start := accepts.readStart rests reads
  have packs := reception_packs command
  obtain ⟨idle, busy, pulses⟩ := start.completes whole packs afresh.isFul
    (length.trans (if_pos afresh.several).symm)
  refine ⟨busy, idle, ?_, ?_⟩
  · rw [Machine.countedFrom, start.silent]
    change 0 + _ = _
    rw [Nat.zero_add]
    exact pulses.trans length
  · intro cmd fills
    obtain ⟨zero, inPlace⟩ := afresh.words cmd fills
    obtain ⟨lines, words⟩ := observed_command accepts rests reads cmd busy pulses
    have position := start.hears.receives whole (start.isFul.trans afresh.isFul)
      (.inr afresh.several)
    rw [zero] at position
    have kept := kept_runFrom start.ctrl position whole packs inPlace fits rest
      (Nat.le_of_eq length)
    rw [lines, words]
    exact kept.packed ((List.length_map _).trans length) whole fills

omit fits whole in
/-- While the serializer follows the transmitter, the command is not over. -/
theorem receivesExactly_isFul (exactly : ReceivesExactly master first command) :
    master.txRx.isFul = false := by
  have start := accepts.readStart rests reads
  rw [Bool.eq_false_iff]
  intro full
  have stands : StandsStill .waitDone (reception command).qpi (master.step first) :=
    ⟨start.ctrl, start.hears.txState, start.hears.rxState, start.isFul.trans full⟩
  obtain ⟨n, received⟩ := exactly fun _ => lineCycle false
  have later := (stands.runFrom (inputsUpTo (fun _ => lineCycle false) n)).ctrl.state
  exact absurd (later.symm.trans received.completes) (by decide)

omit fits in
/-- A command is over after the cycles that it takes. -/
theorem receivesExactly_length (exactly : ReceivesExactly master first command)
    (schedule : Nat → MasterInput) :
    ReceivedAs master first command (inputsUpTo schedule
      (if 1 < (reception command).wordClocks then (reception command).clocks
        else (reception command).clocks + 1)) := by
  have isFul := receivesExactly_isFul accepts rests reads exactly
  obtain ⟨n, received⟩ := exactly schedule
  have length (m : Nat) : (inputsUpTo schedule m).length = m := by
    rw [inputsUpTo, List.length_map, List.length_range]
  obtain ⟨idle, busy, -⟩ := (accepts.readStart rests reads).completes whole
    (reception_packs command) isFul (length _)
  have same := completes_unique (by decide) received.busy received.completes busy idle
  rw [← same]
  exact received

omit fits in
/-- A command whose words are single clocks has one clock too many. -/
theorem receivesExactly_several (exactly : ReceivesExactly master first command) :
    1 < (reception command).wordClocks := by
  by_contra single
  have start := accepts.readStart rests reads
  have isFul := receivesExactly_isFul accepts rests reads exactly
  have received := receivesExactly_length accepts rests reads whole exactly fun _ => lineCycle false
  rw [if_neg single] at received
  have length : (inputsUpTo (fun _ => lineCycle false) ((reception command).clocks + 1)).length =
      if 1 < (reception command).wordClocks then (reception command).clocks
      else (reception command).clocks + 1 := by
    rw [if_neg single, inputsUpTo, List.length_map, List.length_range]
  obtain ⟨-, -, pulses⟩ := start.completes whole (reception_packs command) isFul length
  have counted := received.pulses
  rw [Machine.countedFrom, start.silent] at counted
  change 0 + _ = _ at counted
  rw [Nat.zero_add] at counted
  have all := pulses.symm.trans counted
  rw [inputsUpTo, List.length_map, List.length_range] at all
  exact absurd all (Nat.succ_ne_self _)

omit fits in
/-- What an exact command hands over, whatever comes from the line. -/
theorem receivesExactly_packed (exactly : ReceivesExactly master first command)
    (cmd : spiCmd command = some .rxData)
    (fills : (reception command).perTransfer ∣ (reception command).wordCount)
    {rest : List MasterInput} (length : rest.length = (reception command).clocks) :
    PackedAs (reception command) (rest.map MasterInput.sdi)
      (spimMachine.observedFrom SpiMaster.wordGiven (master.step first) rest) := by
  have several := receivesExactly_several accepts rests reads whole exactly
  have received := receivesExactly_length accepts rests reads whole exactly
    (thenQuiet rest (lineCycle false))
  have same : inputsUpTo (thenQuiet rest (lineCycle false)) (reception command).clocks = rest := by
    rw [← length]
    apply List.ext_getElem
    · rw [inputsUpTo, List.length_map, List.length_range]
    · intro n _ inside
      simp only [inputsUpTo, List.getElem_map, List.getElem_range, thenQuiet_inside inside]
  rw [if_pos several, same] at received
  obtain ⟨-, busy, pulses⟩ := (accepts.readStart rests reads).completes whole
    (reception_packs command) (receivesExactly_isFul accepts rests reads exactly)
    (length.trans (if_pos several).symm)
  obtain ⟨lines, words⟩ := observed_command accepts rests reads cmd busy pulses
  have packed := received.words cmd fills
  rw [lines, words] at packed
  exact packed

omit fits in
/-- The counter is at zero: from another value a data word is handed over too early, or too
few are. -/
theorem receivesExactly_counter (exactly : ReceivesExactly master first command)
    (cmd : spiCmd command = some .rxData)
    (fills : (reception command).perTransfer ∣ (reception command).wordCount) :
    master.txRx.counterTransf = 0 := by
  by_contra notZero
  have start := accepts.readStart rests reads
  have packs := reception_packs command
  have position := start.hears.receives whole
    (start.isFul.trans (receivesExactly_isFul accepts rests reads exactly))
    (.inr (receivesExactly_several accepts rests reads whole exactly))
  have positive := TransferSetup.wordClocks_pos whole
  rcases Nat.lt_or_ge (reception command).wordtransf.toNat master.txRx.counterTransf.toNat with
    above | below
  · have length : (List.replicate (reception command).clocks (lineCycle false)).length =
        (reception command).clocks := List.length_replicate
    have count := (receivesExactly_packed accepts rests reads whole exactly cmd fills length).count
    rw [length_observed_wordGiven start.ctrl position whole packs _ (Nat.le_of_eq length), length,
      TransferSetup.clocks, Nat.mul_div_cancel _ positive] at count
    exact absurd count (Nat.ne_of_lt (TransferSetup.used_lt packs above fills))
  · have some : 0 < master.txRx.counterTransf.toNat :=
      Nat.pos_of_ne_zero fun zero => notZero (BitVec.eq_of_toNat_eq zero)
    obtain ⟨word, wordEq⟩ : ∃ word, word =
        (reception command).wordtransf.toNat - master.txRx.counterTransf.toNat + 1 := ⟨_, rfl⟩
    have used := (TransferSetup.used_before packs notZero).2.1 below
    rw [← wordEq] at used
    have early : word < (reception command).perTransfer := by
      rw [TransferSetup.perTransfer, wordEq]
      omega
    have inside : word < (reception command).wordCount :=
      Nat.lt_of_lt_of_le early (Nat.le_of_dvd (Nat.succ_pos _) fills)
    have before : word * (reception command).wordClocks < (reception command).clocks :=
      Nat.mul_lt_mul_of_pos_right inside positive
    -- The first data word is out before the word, whose bits come later.
    have early_data : (spimMachine.observedFrom SpiMaster.wordGiven (master.step first)
        (List.replicate (word * (reception command).wordClocks) (lineCycle false))).length = 1 := by
      rw [length_observed_wordGiven start.ctrl position whole packs _
        (by rw [List.length_replicate]; exact Nat.le_of_lt before), List.length_replicate,
        Nat.mul_div_cancel _ positive, used]
    have bit : ∀ level, ((spimMachine.observedFrom SpiMaster.wordGiven (master.step first)
        (List.replicate (word * (reception command).wordClocks)
          (lineCycle false))).getD 0 0).getLsbD ((reception command).place word 0 0) = level := by
      intro level
      have length : (List.replicate (word * (reception command).wordClocks) (lineCycle false) ++
          List.replicate ((reception command).clocks - word * (reception command).wordClocks)
            (lineCycle level)).length = (reception command).clocks := by
        rw [List.length_append, List.length_replicate, List.length_replicate,
          Nat.add_sub_cancel' (Nat.le_of_lt before)]
      have packed := (receivesExactly_packed accepts rests reads whole exactly cmd fills length).bit
        word 0 0 inside positive (TransferSetup.lanes_pos _)
      rw [Nat.div_eq_of_lt early, Machine.observedFrom_append,
        List.getD_append _ _ _ _ (early_data ▸ Nat.one_pos), List.map_append, List.map_replicate,
        List.map_replicate, Nat.add_zero, getD_replicate_append _ _ _ (Nat.sub_pos_of_lt before)]
        at packed
      rw [packed]
      cases (reception command).qpi <;> rfl
    exact absurd ((bit true).symm.trans (bit false)) (by decide)

omit fits in
/-- The lowest place of a data word is not written when four lanes are read with the low bits
first. -/
theorem lowest_kept (misplaced : ¬(reception command).InPlace)
    (position : ReceivesAt (reception command) master.txRx.counterTransf 0 0
      (master.step first).txRx)
    (rest : List MasterInput) (within : rest.length ≤ (reception command).clocks) :
    (∀ word ∈ spimMachine.observedFrom SpiMaster.wordGiven (master.step first) rest,
        word.getLsbD 0 = (master.step first).txRx.rxShiftReg.getLsbD 0) ∧
      (spimMachine.runFrom (master.step first) rest).txRx.rxShiftReg.getLsbD 0 =
        (master.step first).txRx.rxShiftReg.getLsbD 0 := by
  have start := accepts.readStart rests reads
  have packs := reception_packs command
  obtain ⟨quad, low⟩ := not_not.mp misplaced
  induction rest using List.reverseRecOn with
  | nil =>
      refine ⟨?_, rfl⟩
      intro word member
      cases member
  | append_singleton rest input inductionHypothesis =>
      rw [List.length_append, List.length_singleton] at within
      obtain ⟨given, shift⟩ := inductionHypothesis (Nat.le_of_lt within)
      obtain ⟨ctrl, later, -⟩ := start.ctrl.runFrom position whole packs rest within
      have hears := ctrl.hears input
      have index := later.bitIndex whole
      have lanes : (reception command).lanes = 4 := by rw [TransferSetup.lanes, quad, if_pos rfl]
      rw [low, if_pos rfl, lanes,
        TransferSetup.place_quad quad packs whole _ _ (by decide)] at index
      have same : ((spimMachine.runFrom (master.step first) rest).txRx.dataRx
          ((spimMachine.runFrom (master.step first) rest).txRxInput input)).getLsbD 0 =
            (master.step first).txRx.rxShiftReg.getLsbD 0 := by
        rw [← shift, TxRx.dataRx, hears.rxQpi, quad, if_pos rfl, index]
        simp only [getLsbD_setBit]
        grind
      constructor
      · intro word member
        rw [Machine.observedFrom_append, List.mem_append] at member
        rcases member with earlier | now
        · exact given word earlier
        · rw [Machine.observedFrom, Machine.observedFrom, List.append_nil, SpiMaster.wordGiven,
            later.wordGiven whole hears] at now
          split at now
          · rw [List.mem_singleton.mp now]
            exact same
          · cases now
      · rw [Machine.runFrom_append, ← same]
        exact congrArg (BitVec.getLsbD · 0) (step_rxShiftReg later.rxState hears)

omit fits in
/-- The receiver has the places of the transmitter. -/
theorem receivesExactly_inPlace (exactly : ReceivesExactly master first command)
    (cmd : spiCmd command = some .rxData)
    (fills : (reception command).perTransfer ∣ (reception command).wordCount) :
    (reception command).InPlace := by
  by_contra misplaced
  have start := accepts.readStart rests reads
  have position := start.hears.receives whole
    (start.isFul.trans (receivesExactly_isFul accepts rests reads exactly))
    (.inr (receivesExactly_several accepts rests reads whole exactly))
  have positive := TransferSetup.wordClocks_pos whole
  have some : 0 < (reception command).clocks := Nat.mul_pos (Nat.succ_pos _) positive
  have bit : ∀ level, (master.step first).txRx.rxShiftReg.getLsbD 0 = level := by
    intro level
    have length : (List.replicate (reception command).clocks (lineCycle level)).length =
        (reception command).clocks := List.length_replicate
    have packed := receivesExactly_packed accepts rests reads whole exactly cmd fills length
    have there : 0 < (spimMachine.observedFrom SpiMaster.wordGiven (master.step first)
        (List.replicate (reception command).clocks (lineCycle level))).length := by
      rw [packed.count]
      exact Nat.div_pos (Nat.le_of_dvd (Nat.succ_pos _) fills) (TransferSetup.perTransfer_pos _)
    have given := (lowest_kept accepts rests reads whole misplaced position _
      (Nat.le_of_eq length)).1 _ (List.getElem_mem there)
    have bit := packed.bit 0 0 0 (Nat.succ_pos _) positive (TransferSetup.lanes_pos _)
    have lowest : (reception command).place 0 0 0 = 0 := by
      rw [TransferSetup.place, (not_not.mp misplaced).2, TransferSetup.offset, Nat.zero_mod]
      simp
    rw [Nat.zero_div, List.getD_eq_getElem _ _ there, lowest, given, List.map_replicate,
      Nat.zero_mul,
      List.getD_eq_getElem _ _ (by rw [List.length_replicate]; exact some),
      List.getElem_replicate] at bit
    rw [bit]
    cases (reception command).qpi <;> rfl
  exact absurd ((bit true).symm.trans (bit false)) (by decide)

end Command

end Exact

/-- The commands that only receive in every run: which of them receive what they should. -/
theorem receivesExactly_iff (inputs : List MasterInput) (first : MasterInput) (command : BitVec 32)
    (accepts : Accepts (spimMachine.run inputs) first command)
    (reads : ReadsLine (spiCmd command))
    (whole : (reception command).lanes ∣ (reception command).wordBits)
    (fits : (reception command).perTransfer * (reception command).wordBits ≤ 32) :
    ReceivesExactly (spimMachine.run inputs) first command ↔
      ReceivesAfresh (spimMachine.run inputs).txRx command := by
  have rests := run_rests accepts.idle
  constructor
  · intro exactly
    refine ⟨receivesExactly_isFul accepts rests reads exactly,
      receivesExactly_several accepts rests reads whole exactly, ?_⟩
    intro cmd fills
    exact ⟨receivesExactly_counter accepts rests reads whole exactly cmd fills,
      receivesExactly_inPlace accepts rests reads whole exactly cmd fills⟩
  · intro afresh schedule
    exact ⟨(reception command).clocks, receivedAs_of_afresh accepts rests reads whole fits afresh
      (by rw [inputsUpTo, List.length_map, List.length_range])⟩

/-- A cycle with a command that receives. -/
def readCommand (command : BitVec 32) : MasterInput :=
  { lineCycle false with udmaCmd := command, udmaCmdValid := true }

/-- A word of two bits after reset. -/
theorem receivesExactly_iff_reset :
    ReceivesExactly (spimMachine.run []) (readCommand 0x70010000) 0x70010000 ↔
      ReceivesAfresh (spimMachine.run []).txRx 0x70010000 :=
  receivesExactly_iff [] (readCommand 0x70010000) 0x70010000 ⟨rfl, rfl, rfl⟩ (.inr rfl)
    (by decide) (by decide)

/-- A word of one bit after reset has two clocks. -/
theorem oneBit_not_receivesExactly :
    Accepts (spimMachine.run []) (readCommand 0x70000000) 0x70000000 ∧
      ReadsLine (spiCmd 0x70000000) ∧
        spimMachine.countedFrom SpiMaster.clocked (spimMachine.run [])
            [readCommand 0x70000000, lineCycle false, lineCycle false] = 2 ∧
          ¬ReceivesExactly (spimMachine.run []) (readCommand 0x70000000) 0x70000000 := by
  have accepts : Accepts (spimMachine.run []) (readCommand 0x70000000) 0x70000000 :=
    ⟨rfl, rfl, rfl⟩
  refine ⟨accepts, .inr rfl, by decide +kernel, ?_⟩
  intro exactly
  have several := receivesExactly_several accepts (run_rests accepts.idle) (.inr rfl) (by decide)
    exactly
  exact absurd several (by decide)

end CoreVMcu.Spi
