import CoreVMcu.Spi.FullDuplex
import CoreVMcu.Spi.Master
import CoreVMcu.Spi.LoopStep

/-!
# What a cycle of the looped SPI master does

Between two commands both parts of the master rest.  During a full-duplex command the
interpreter passes the data through, and each bit that the serializer reads is the one
that it drives.
-/

namespace CoreVMcu.Spi

open Clocked

/-- The commands of a stream that transfers data in both directions at once: apart
from full-duplex commands that fill their words only such as transfer nothing. -/
def Admitted (word : BitVec 32) : Prop :=
  match spiCmd word with
  | some .fullDupl => Packed word
  | some .sendCmd | some .dummy | some .txData | some .rxData | some .rxCheck | some .rpt => False
  | _ => True

/-! ## The interpreter between commands -/

/-- States in which the serializer is not used. -/
def CtrlState.Resting : CtrlState → Prop
  | .idle | .waitEvent | .waitCycle | .clearCs => True
  | .waitDone | .waitCheck | .doRepeat => False

/-- Signals that start nothing and hand nothing over. -/
structure CtrlSignals.Rests (signals : CtrlSignals) : Prop where
  stateNext : signals.stateNext.Resting
  isReplay : signals.isReplay = false
  isDummy : signals.isDummy = false
  txStart : signals.tx.start = false
  rxStart : signals.rx.start = false
  udmaTxDataReady : signals.udmaTxDataReady = false
  udmaRxDataValid : signals.udmaRxDataValid = false

/-- The interpreter rests. -/
structure SpimCtrl.Rests (ctrl : SpimCtrl) : Prop where
  state : ctrl.state.Resting
  isReplay : ctrl.isReplay = false
  isDummy : ctrl.isDummy = false

namespace SpimCtrl

variable {ctrl : SpimCtrl} {input : CtrlInput}

theorem defaults_rests (rests : ctrl.Rests) : ctrl.defaults.Rests :=
  ⟨rests.state, rests.isReplay, rests.isDummy, rfl, rfl, rfl, rfl⟩

/-- A command that transfers nothing leaves the serializer alone. -/
theorem execute_rests {word : BitVec 32} (admitted : Admitted word)
    (other : spiCmd word ≠ some .fullDupl) {base : CtrlSignals} (rests : base.Rests) :
    (execute base word).Rests := by
  rw [Admitted] at admitted
  cases cmd : spiCmd word with
  | none =>
      rw [execute, cmd]
      exact rests
  | some code =>
      rw [cmd] at admitted
      cases code with
      | fullDupl => exact absurd cmd other
      | sendCmd | dummy | txData | rxData | rxCheck | rpt => exact admitted.elim
      | cfg | sot =>
          rw [execute, cmd]
          exact { rests with stateNext := trivial }
      | wait =>
          rw [execute, cmd]
          simp only
          split
          · exact { rests with stateNext := trivial }
          · split
            · exact { rests with stateNext := trivial }
            · exact rests
      | eot =>
          rw [execute, cmd]
          simp only
          split <;> exact { rests with stateNext := trivial }
      | rptEnd | setupUca | setupUcs =>
          rw [execute, cmd]
          exact rests

theorem taken_rests (rests : ctrl.Rests) : ctrl.taken.Rests := by
  simp only [taken, rests.isReplay, Bool.not_false, if_true]
  exact { defaults_rests rests with }

/-- The command that is decoded while nothing is replayed. -/
theorem word_eq (rests : ctrl.isReplay = false) : ctrl.word input = input.udmaCmd := by
  rw [word, rests, if_neg Bool.false_ne_true]

/-- A full-duplex command is decoded. -/
def startsFull (ctrl : SpimCtrl) (cmd : BitVec 32) (valid : Bool) : Prop :=
  ctrl.state = .idle ∧ valid = true ∧ spiCmd cmd = some .fullDupl

/-- The interpreter goes on resting unless a full-duplex command is decoded. -/
theorem signals_rests (rests : ctrl.Rests)
    (admitted : ctrl.state = .idle → input.udmaCmdValid = true → Admitted input.udmaCmd)
    (other : ¬ctrl.startsFull input.udmaCmd input.udmaCmdValid) : (ctrl.signals input).Rests := by
  have defaults := defaults_rests rests
  cases state : ctrl.state with
  | idle =>
      simp only [signals, state, idle, cmdAvailable, rests.isReplay, Bool.false_eq_true, if_false]
      split
      · next valid =>
          rw [word_eq rests.isReplay]
          exact execute_rests (admitted state valid) (fun cmd => other ⟨state, valid, cmd⟩)
            (taken_rests rests)
      · exact { defaults with }
  | waitEvent | waitCycle =>
      simp only [signals, state]
      split
      · exact { defaults with stateNext := trivial }
      · exact defaults
  | clearCs =>
      simp only [signals, state]
      exact { defaults with stateNext := trivial }
  | waitDone | waitCheck | doRepeat =>
      have resting := rests.state
      rw [state] at resting
      exact resting.elim

theorem step_rests (rests : (ctrl.signals input).Rests) : (ctrl.step input).Rests :=
  ⟨rests.stateNext, rests.isReplay, rests.isDummy⟩

/-- The signals of the cycle in which a full-duplex command is decoded. -/
theorem signals_full (rests : ctrl.Rests) (input : CtrlInput)
    (starts : ctrl.startsFull input.udmaCmd input.udmaCmdValid) :
    ctrl.signals input =
      { ctrl.defaults with
        udmaCmdReady := true, isFul := true, updateQpi := true, qpi := false
        tx := fullDuplSetup input.udmaCmd, rx := fullDuplSetup input.udmaCmd
        stateNext := .waitDone } := by
  obtain ⟨state, valid, cmd⟩ := starts
  simp only [signals, state, idle, cmdAvailable, rests.isReplay, Bool.false_eq_true,
    if_false, valid,
    if_true, word_eq rests.isReplay, execute, cmd, taken, Bool.not_false, fullDuplSetup]

/-- The interpreter during a full-duplex command. -/
structure InFull (ctrl : SpimCtrl) : Prop where
  state : ctrl.state = .waitDone
  isReplay : ctrl.isReplay = false
  isDummy : ctrl.isDummy = false
  isFul : ctrl.isFul = true
  qpi : ctrl.qpi = false
  txDone : ctrl.txDone = false
  rxDone : ctrl.rxDone = false

/-- During a command the data is passed through. -/
theorem InFull.signals (full : ctrl.InFull) (input : CtrlInput) :
    ctrl.signals input =
      { ctrl.defaults with
        txData := input.udmaTxData
        txDataValid := input.udmaTxDataValid
        udmaTxDataReady := input.txDataReady
        udmaRxData := input.rxData
        udmaRxDataValid := input.rxDataValid
        rxDataReady := input.udmaRxDataReady
        stateNext := if input.txDone && input.rxDone then .idle else .waitDone } := by
  have done : ctrl.done input = (input.txDone && input.rxDone) := by
    rw [SpimCtrl.done, full.isFul, full.txDone, full.rxDone, Bool.or_false,
      Bool.or_false, if_pos rfl]
  simp only [SpimCtrl.signals, full.state, waitDone, done, full.isDummy, defaults, Bool.not_false,
    Bool.true_and]
  split <;> rfl

/-- A command goes on until both directions are done. -/
theorem InFull.step (full : ctrl.InFull) (goesOn : input.txDone = false ∧ input.rxDone = false) :
    (ctrl.step input).InFull := by
  have signals := full.signals input
  constructor
  · rw [SpimCtrl.step, signals, goesOn.1]; rfl
  · rw [SpimCtrl.step, signals]; exact full.isReplay
  · rw [SpimCtrl.step, signals]; exact full.isDummy
  · rw [SpimCtrl.step, signals]; exact full.isFul
  · rw [SpimCtrl.step, signals]; exact full.qpi
  · exact goesOn.1
  · exact goesOn.2

theorem InFull.step_done (full : ctrl.InFull) (done : input.txDone = true ∧ input.rxDone = true) :
    (ctrl.step input).Rests := by
  have signals := full.signals input
  constructor
  · rw [SpimCtrl.step, signals, done.1, done.2]; trivial
  · rw [SpimCtrl.step, signals]; exact full.isReplay
  · rw [SpimCtrl.step, signals]; exact full.isDummy

end SpimCtrl

/-- Between two commands. -/
structure SpiMaster.Rests (master : SpiMaster) : Prop where
  ctrl : master.ctrl.Rests
  txRx : AtRest master.txRx

/-- The bits of the current transfer that have been sent have been read. -/
def Echoes (command : BitVec 32) (word bit : Nat) (received sent : BitVec 32) : Prop :=
  ∀ other otherBit, other / perTransfer command = word / perTransfer command →
    otherBit < wordBits command → other < word ∨ (other = word ∧ otherBit < bit) →
    received.getLsbD (bitPlace command other otherBit) =
      sent.getLsbD (bitPlace command other otherBit)

/-- During a full-duplex command: the transmitter waits for the data of the next
transfer, or sends the word it has taken. -/
inductive Stage (command : BitVec 32) : Nat → Nat → Option (BitVec 32) → SpiMaster → Prop where
  | waiting {word : Nat} {master : SpiMaster} (full : master.ctrl.InFull)
      (position : AtBit command word 0 master.txRx) (waits : master.txRx.txState = .waitData)
      (fresh : word % perTransfer command = 0) : Stage command word 0 none master
  | sending {word bit : Nat} {master : SpiMaster} (full : master.ctrl.InFull)
      (position : AtBit command word bit master.txRx) (sends : master.txRx.txState = .send)
      (clocked : master.txRx.rxClken = true)
      (echoes : Echoes command word bit master.txRx.rxShiftReg master.txRx.txShiftReg) :
      Stage command word bit (some master.txRx.txShiftReg) master

/-- A transmitted word and the word received for it. -/
structure Echo where
  command : BitVec 32
  sent : BitVec 32
  received : BitVec 32
  agrees : ∀ place, Transmitted command place → received.getLsbD place = sent.getLsbD place

section Echoes

variable {command received sent : BitVec 32} {word bit : Nat}

/-- Reading the driven bit extends what has been read. -/
theorem Echoes.read (echoes : Echoes command word bit received sent) {next : BitVec 32}
    (reads : next = setBit received (bitPlace command word bit)
      (sent.getLsbD (bitPlace command word bit)))
    (inside : bitPlace command word bit < 32) : Echoes command word (bit + 1) next sent := by
  intro other otherBit same inWord before
  rw [reads, getLsbD_setBit]
  split
  · next place => rw [place.1]
  · next elsewhere =>
      apply echoes other otherBit same inWord
      rcases before with earlier | ⟨here, earlier⟩
      · exact Or.inl earlier
      · refine Or.inr ⟨here, Nat.lt_of_le_of_ne (Nat.le_of_lt_succ earlier) fun isBit => ?_⟩
        exact elsewhere ⟨by rw [here, isBit], inside⟩

/-- After the last bit of a word the next word is looked at. -/
theorem Echoes.next_word (echoes : Echoes command word (wordBits command) received sent) :
    Echoes command (word + 1) 0 received sent ∨ (word + 1) % perTransfer command = 0 := by
  by_cases fresh : (word + 1) % perTransfer command = 0
  · exact Or.inr fresh
  · left
    intro other otherBit same inWord before
    have within : (word + 1) / perTransfer command = word / perTransfer command :=
      Nat.succ_div_of_not_dvd fun divides => fresh (Nat.mod_eq_zero_of_dvd divides)
    apply echoes other otherBit (same.trans within) inWord
    rcases before with earlier | ⟨_, impossible⟩
    · rcases Nat.lt_succ_iff_lt_or_eq.mp earlier with less | equal
      · exact Or.inl less
      · exact Or.inr ⟨equal, inWord⟩
    · exact absurd impossible (Nat.not_lt_zero _)

/-- Nothing has been read of a transfer that begins. -/
theorem Echoes.fresh (begins : word % perTransfer command = 0) (received sent : BitVec 32) :
    Echoes command word 0 received sent := by
  intro other otherBit same _ before
  rcases before with earlier | ⟨_, impossible⟩
  · have whole := Nat.div_add_mod word (perTransfer command)
    have below := Nat.div_mul_le_self other (perTransfer command)
    rw [begins, Nat.add_zero, ← same, Nat.mul_comm] at whole
    have rest := Nat.lt_of_lt_of_eq earlier whole.symm
    omega
  · exact absurd impossible (Nat.not_lt_zero _)

/-- When the transfer is full, all transmitted bits have been read. -/
theorem Echoes.full (echoes : Echoes command word (wordBits command) received sent)
    (full : word % perTransfer command + 1 = perTransfer command) (place : Nat)
    (transmitted : Transmitted command place) :
    received.getLsbD place = sent.getLsbD place := by
  obtain ⟨other, bit, same, inWord, isPlace⟩ :=
    exists_bitPlace command word transmitted
  rw [← isPlace]
  apply echoes other bit same inWord
  have positive := perTransfer_pos command
  have split := Nat.div_add_mod word (perTransfer command)
  have otherSplit := Nat.div_add_mod other (perTransfer command)
  have otherSlot := Nat.mod_lt other positive
  rw [same] at otherSplit
  have bound : other ≤ word := by omega
  rcases Nat.lt_or_eq_of_le bound with less | equal
  · exact Or.inl less
  · exact Or.inr ⟨equal, inWord⟩

end Echoes

/-! ## One cycle of a command -/

section InFull

variable {master : SpiMaster} {input : MasterInput}

/-- What the serializer gets during a command. -/
theorem txRxInput_inFull (full : master.ctrl.InFull) (input : MasterInput) :
    master.txRxInput input =
      { tx := master.ctrl.defaults.tx
        txData := input.udmaTxData
        txDataValid := input.udmaTxDataValid
        rx := master.ctrl.defaults.rx
        sdi := input.sdi } := by
  rw [SpiMaster.txRxInput, SpiMaster.setup, full.signals]
  rfl

theorem continues_inFull (full : master.ctrl.InFull) (input : MasterInput) :
    Continues (master.txRxInput input) := by
  rw [txRxInput_inFull full]
  exact ⟨rfl, rfl, full.qpi, full.qpi⟩

/-- The signals of the interpreter during a command, by what is seen of the serializer. -/
theorem signals_inFull (full : master.ctrl.InFull) {dataReady dataValid done : Bool}
    (seen : AtBit.Seen master.txRx (master.txRxInput input) dataReady dataValid done) :
    (master.signals input).udmaCmdReady = false ∧
      (master.signals input).udmaTxDataReady = dataReady ∧
      (master.signals input).udmaRxDataValid = dataValid ∧
      (master.signals input).udmaRxData =
        (master.txRx.rxSignals (master.txRxInput input)).data := by
  rw [SpiMaster.signals, full.signals]
  exact ⟨rfl, seen.dataReady, seen.dataValid, rfl⟩

theorem step_inFull (full : master.ctrl.InFull) {dataReady dataValid : Bool}
    (seen : AtBit.Seen master.txRx (master.txRxInput input) dataReady dataValid false) :
    (master.step input).ctrl.InFull :=
  full.step ⟨seen.txDone, seen.rxDone⟩

end InFull

/-- Cycles that a command still takes, counted twice and with the cycles in which the
transmitter waits for data that is there. -/
def rank (command : BitVec 32) (word bit : Nat) (pending : Option (BitVec 32)) : Nat :=
  2 * ((wordCount command - 1 - word) * wordBits command + (wordBits command - bit)) +
    pending.isNone.toNat

/-- What a cycle of a command hands over, and where it leads. -/
structure Advances (command : BitVec 32) (word bit : Nat) (pending : Option (BitVec 32))
    (master : SpiMaster) (input : MasterInput) (echoes : List Echo)
    (pendingNext : Option (BitVec 32)) : Prop where
  ofCommand : ∀ echo ∈ echoes, echo.command = command
  noCommand : master.commandTaken input = []
  received : master.wordReceived input = echoes.map Echo.received
  transmitted :
    pending.toList ++ master.wordTransmitted input =
      echoes.map Echo.sent ++ pendingNext.toList
  outcome :
    (∃ wordNext bitNext, Stage command wordNext bitNext pendingNext (master.step input) ∧
      wordNext / perTransfer command = word / perTransfer command + echoes.length ∧
      rank command wordNext bitNext pendingNext + input.udmaTxDataValid.toNat ≤
        rank command word bit pending) ∨
    ((master.step input).Rests ∧ pendingNext = none ∧
      transferCount command = word / perTransfer command + echoes.length)

/-- The line that is read is the line that is driven. -/
def Looped (master : SpiMaster) (input : MasterInput) : Prop :=
  input.sdi.sd1 = (master.txRx.sdoNext (master.txRxInput input)).sd0

theorem looped_looped (master : SpiMaster) (input : MasterInput) :
    Looped master (master.looped input) := rfl

section Stages

variable {command : BitVec 32} {word bit : Nat} {master : SpiMaster} {input : MasterInput}

/-- A cycle in which the transmitter waits. -/
theorem advances_waiting (full : master.ctrl.InFull)
    (position : AtBit command word 0 master.txRx) (waits : master.txRx.txState = .waitData)
    (fresh : word % perTransfer command = 0) (input : MasterInput) :
    ∃ echoes pendingNext,
      Advances command word 0 none master input echoes pendingNext := by
  have cycle := position.waitCycle (continues_inFull full input) waits
  obtain ⟨seen, positionNext, txState, txShiftReg, rxClken⟩ := cycle
  have fullNext := step_inFull full seen
  have given : (master.txRxInput input).txDataValid = input.udmaTxDataValid := by
    rw [txRxInput_inFull full]
  have data : (master.txRxInput input).txData = input.udmaTxData := by
    rw [txRxInput_inFull full]
  rw [given] at seen txState txShiftReg
  rw [data] at txShiftReg
  obtain ⟨noCmd, ready, valid, _⟩ := signals_inFull full seen
  have noReceive : master.wordReceived input = [] := by rw [SpiMaster.wordReceived, valid]; rfl
  have noCommand : master.commandTaken input = [] := by rw [SpiMaster.commandTaken, noCmd]; rfl
  cases offered : input.udmaTxDataValid with
  | false =>
      rw [offered] at txState
      refine ⟨[], none, nofun, noCommand, noReceive, ?_, Or.inl ⟨word, 0, ?_, rfl, ?_⟩⟩
      · rw [SpiMaster.wordTransmitted, ready, offered]; rfl
      · exact Stage.waiting fullNext positionNext txState fresh
      · rw [offered]
        exact Nat.le_refl _
  | true =>
      rw [offered] at txState
      have shift := txShiftReg offered
      refine ⟨[], some input.udmaTxData, nofun, noCommand, noReceive, ?_,
        Or.inl ⟨word, 0, ?_, rfl, ?_⟩⟩
      · rw [SpiMaster.wordTransmitted, ready, offered]; rfl
      · rw [← shift]
        exact Stage.sending fullNext positionNext txState rxClken (Echoes.fresh fresh _ _)
      · rw [offered]
        exact Nat.le_refl _

/-- The word that is read in a cycle in which a bit is sent. -/
theorem echoes_read (packed : Packed command) (full : master.ctrl.InFull)
    (position : AtBit command word bit master.txRx) (sends : master.txRx.txState = .send)
    (echoes : Echoes command word bit master.txRx.rxShiftReg master.txRx.txShiftReg)
    (looped : Looped master input) :
    Echoes command word (bit + 1) (master.txRx.dataRx (master.txRxInput input))
      master.txRx.txShiftReg := by
  have continues := continues_inFull full input
  have line : (master.txRxInput input).sdi = input.sdi := by rw [txRxInput_inFull full]
  have inside : bitPlace command word bit < 32 := by
    rw [← position.bitIndex packed]
    exact BitVec.isLt _
  apply echoes.read _ inside
  rw [position.dataRx packed continues, line, looped, position.driven packed continues sends]

/-- A cycle in which a bit inside a word is sent. -/
theorem advances_inside (packed : Packed command) (full : master.ctrl.InFull)
    (position : AtBit command word bit master.txRx) (sends : master.txRx.txState = .send)
    (echoes : Echoes command word bit master.txRx.rxShiftReg master.txRx.txShiftReg)
    (looped : Looped master input) (more : bit + 1 < wordBits command) :
    ∃ echoes pendingNext,
      Advances command word bit (some master.txRx.txShiftReg) master input echoes
        pendingNext := by
  have read := echoes_read packed full position sends echoes looped
  obtain ⟨seen, positionNext, txState, txShiftReg, rxShiftReg, rxClken⟩ :=
    position.insideCycle (continues_inFull full input) sends more
  obtain ⟨noCmd, ready, valid, _⟩ := signals_inFull full seen
  refine ⟨[], some master.txRx.txShiftReg, nofun, ?_, ?_, ?_,
    Or.inl ⟨word, bit + 1, ?_, rfl, ?_⟩⟩
  · rw [SpiMaster.commandTaken, noCmd]; rfl
  · rw [SpiMaster.wordReceived, valid]; rfl
  · rw [SpiMaster.wordTransmitted, ready]; rfl
  · rw [← rxShiftReg, ← txShiftReg] at read
    rw [← txShiftReg]
    exact Stage.sending (step_inFull full seen) positionNext txState rxClken read
  · have offered := Bool.toNat_le input.udmaTxDataValid
    simp only [rank, Option.isNone_some, Bool.toNat_false]
    omega

/-- A cycle in which the last bit of a word is sent that is not the last word. -/
theorem advances_word (packed : Packed command) (full : master.ctrl.InFull)
    (position : AtBit command word bit master.txRx) (sends : master.txRx.txState = .send)
    (clocked : master.txRx.rxClken = true)
    (echoes : Echoes command word bit master.txRx.rxShiftReg master.txRx.txShiftReg)
    (looped : Looped master input) (ready : input.udmaRxDataReady = true)
    (ends : bit + 1 = wordBits command) (more : word + 1 < wordCount command) :
    ∃ echoes pendingNext,
      Advances command word bit (some master.txRx.txShiftReg) master input echoes
        pendingNext := by
  have read := echoes_read packed full position sends echoes looped
  rw [ends] at read
  obtain ⟨seen, data, positionNext, txState, txShiftReg, rxShiftReg, rxClken⟩ :=
    position.wordCycle (continues_inFull full input) sends clocked ends more
  have fullNext := step_inFull full seen
  have given : (master.txRxInput input).txDataValid = input.udmaTxDataValid := by
    rw [txRxInput_inFull full]
  have offeredData : (master.txRxInput input).txData = input.udmaTxData := by
    rw [txRxInput_inFull full]
  rw [given] at seen txState txShiftReg
  rw [offeredData] at txShiftReg
  obtain ⟨noCmd, taken, valid, handed⟩ := signals_inFull full seen
  have noCommand : master.commandTaken input = [] := by rw [SpiMaster.commandTaken, noCmd]; rfl
  have left : 2 * ((wordCount command - 1 - (word + 1)) * wordBits command +
        (wordBits command - 0)) + 2 =
      2 * ((wordCount command - 1 - word) * wordBits command + (wordBits command - bit)) := by
    rw [show wordCount command - 1 - word = wordCount command - 1 - (word + 1) + 1 by omega,
      Nat.add_mul, Nat.one_mul]
    omega
  cases transfDone : master.txRx.transfDone with
  | false =>
      rw [transfDone] at txState txShiftReg taken valid
      have notFresh : (word + 1) % perTransfer command ≠ 0 := by
        rw [position.transfDone] at transfDone
        exact fun fresh =>
          of_decide_eq_false transfDone ((begins_transfer_iff command word).mp fresh)
      refine ⟨[], some master.txRx.txShiftReg, nofun, noCommand, ?_, ?_,
        Or.inl ⟨word + 1, 0, ?_, ?_, ?_⟩⟩
      · rw [SpiMaster.wordReceived, valid]; rfl
      · rw [SpiMaster.wordTransmitted, taken]; rfl
      · have next := read.next_word.resolve_right notFresh
        rw [← rxShiftReg, ← show _ = master.txRx.txShiftReg from txShiftReg] at next
        rw [← show _ = master.txRx.txShiftReg from txShiftReg]
        exact Stage.sending fullNext positionNext txState rxClken next
      · exact Nat.succ_div_of_not_dvd fun divides => notFresh (Nat.mod_eq_zero_of_dvd divides)
      · have offered := Bool.toNat_le input.udmaTxDataValid
        simp only [rank, Option.isNone_some, Bool.toNat_false]
        omega
  | true =>
      rw [transfDone] at txState txShiftReg taken valid
      have isFull : word % perTransfer command + 1 = perTransfer command := by
        rw [position.transfDone] at transfDone
        exact of_decide_eq_true transfDone
      have fresh := (begins_transfer_iff command word).mpr isFull
      have quotient : (word + 1) / perTransfer command = word / perTransfer command + 1 :=
        Nat.succ_div_of_dvd (Nat.dvd_of_mod_eq_zero fresh)
      let echo : Echo :=
        { command := command
          sent := master.txRx.txShiftReg
          received := master.txRx.dataRx (master.txRxInput input)
          agrees := read.full isFull }
      have received : master.wordReceived input = [echo].map Echo.received := by
        rw [SpiMaster.wordReceived, valid, ready, handed, data transfDone]; rfl
      have ofCommand : ∀ each ∈ [echo], each.command = command := by
        intro each member
        rw [List.mem_singleton.mp member]
      cases offered : input.udmaTxDataValid with
      | false =>
          rw [offered] at txState
          refine ⟨[echo], none, ofCommand, noCommand, received, ?_,
            Or.inl ⟨word + 1, 0, ?_, quotient, ?_⟩⟩
          · rw [SpiMaster.wordTransmitted, taken, offered]; rfl
          · exact Stage.waiting fullNext positionNext txState fresh
          · rw [offered]
            simp only [rank, Option.isNone_some, Option.isNone_none, Bool.toNat_false,
              Bool.toNat_true]
            omega
      | true =>
          rw [offered] at txState txShiftReg
          refine ⟨[echo], some input.udmaTxData, ofCommand, noCommand, received, ?_,
            Or.inl ⟨word + 1, 0, ?_, quotient, ?_⟩⟩
          · rw [SpiMaster.wordTransmitted, taken, offered]; rfl
          · have next := Echoes.fresh fresh (master.step input).txRx.rxShiftReg
              (master.step input).txRx.txShiftReg
            rw [← show _ = input.udmaTxData from txShiftReg]
            exact Stage.sending fullNext positionNext txState rxClken next
          · rw [offered]
            simp only [rank, Option.isNone_some, Bool.toNat_false, Bool.toNat_true]
            omega

/-- The cycle in which the last bit of a command is sent. -/
theorem advances_last (packed : Packed command) (full : master.ctrl.InFull)
    (position : AtBit command word bit master.txRx) (sends : master.txRx.txState = .send)
    (clocked : master.txRx.rxClken = true)
    (echoes : Echoes command word bit master.txRx.rxShiftReg master.txRx.txShiftReg)
    (looped : Looped master input) (ready : input.udmaRxDataReady = true)
    (ends : bit + 1 = wordBits command) (last : word + 1 = wordCount command) :
    ∃ echoes pendingNext,
      Advances command word bit (some master.txRx.txShiftReg) master input echoes
        pendingNext := by
  have read := echoes_read packed full position sends echoes looped
  rw [ends] at read
  have cycle :=
    position.lastCycle packed.whole (continues_inFull full input) sends clocked ends last
  obtain ⟨noCmd, taken, valid, handed⟩ := signals_inFull full cycle.seen
  let echo : Echo :=
    { command := command
      sent := master.txRx.txShiftReg
      received := master.txRx.dataRx (master.txRxInput input)
      agrees := read.full (ends_transfer packed.whole last) }
  refine ⟨[echo], none, ?_, ?_, ?_, ?_, Or.inr ⟨⟨?_, ?_⟩, rfl, ?_⟩⟩
  · intro each member
    rw [List.mem_singleton.mp member]
  · rw [SpiMaster.commandTaken, noCmd]; rfl
  · rw [SpiMaster.wordReceived, valid, ready, handed, cycle.data]; rfl
  · rw [SpiMaster.wordTransmitted, taken]; rfl
  · exact full.step_done ⟨cycle.seen.txDone, cycle.seen.rxDone⟩
  · exact ⟨cycle.txState, cycle.rxState, cycle.counterTransf⟩
  · rw [transferCount, ← last]
    exact Nat.succ_div_of_dvd (last ▸ packed.whole)

/-- What one cycle of a command does. -/
theorem Stage.advances {pending : Option (BitVec 32)} (packed : Packed command)
    (stage : Stage command word bit pending master) (looped : Looped master input)
    (ready : input.udmaRxDataReady = true) :
    ∃ echoes pendingNext,
      Advances command word bit pending master input echoes pendingNext := by
  cases stage with
  | waiting full position waits fresh => exact advances_waiting full position waits fresh input
  | sending full position sends clocked echoes =>
      rcases Nat.lt_or_eq_of_le (Nat.succ_le_of_lt position.inWord) with more | ends
      · exact advances_inside packed full position sends echoes looped more
      · rcases Nat.lt_or_eq_of_le (Nat.succ_le_of_lt position.inside) with further | last
        · exact advances_word packed full position sends clocked echoes looped ready ends further
        · exact advances_last packed full position sends clocked echoes looped ready ends last

end Stages

end CoreVMcu.Spi
