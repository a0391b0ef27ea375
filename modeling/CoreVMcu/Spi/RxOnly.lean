import Mathlib.Tactic.MkIffOfInductiveProp
import CoreVMcu.Spi.FullDuplex
import CoreVMcu.Spi.Master

/-!
# The words on the SPI line

An observer of the line counts the clocks of a command that receives data: a word is
complete when as many bits have been clocked as it has, and a data word when as many
words are complete as are packed into it.

A command that receives data without sending clocks a word on one or four lanes.  The
position of the receiver is the word it is at and the bits of it that are clocked.
-/

namespace CoreVMcu.Spi

open Clocked

/-- The bits of a clock on the line. -/
def lanes (command : BitVec 32) : Nat :=
  if spiCmd command = some .rxData ∧ cdCfgQpi command = true then 4 else 1

/-- What the observer knows: the command that receives data, the words that are
complete since it started and the bits of the next one. -/
structure LineObserver where
  command : Option (BitVec 32)
  words : Nat
  bits : Nat
  deriving DecidableEq

/-- The master with the observer. -/
structure RxLine where
  master : SpiMaster
  observer : LineObserver

namespace RxLine

variable (line : RxLine) (input : MasterInput)

/-- The command that receives data and starts in a cycle. -/
def starts : Option (BitVec 32) :=
  let word := line.master.ctrl.word (line.master.ctrlInput input)
  if line.master.ctrl.state = .idle ∧ line.master.ctrl.cmdAvailable (line.master.ctrlInput input) ∧
      (spiCmd word = some .rxData ∨ spiCmd word = some .fullDupl) then
    some word
  else none

/-- The line is clocked in a cycle. -/
def clocked : Bool := line.master.txRx.clken (line.master.txRxInput input)

/-- The bits of a command are clocked up to the end of a word. -/
def endsWord (command : BitVec 32) : Bool :=
  line.clocked input && decide (wordBits command ≤ line.observer.bits + lanes command)

/-- The words and bits after a cycle of a command. -/
def counted (command : BitVec 32) : Nat × Nat :=
  if line.endsWord input command then (line.observer.words + 1, 0)
  else if line.clocked input then (line.observer.words, line.observer.bits + lanes command)
  else (line.observer.words, line.observer.bits)

/-- The interpreter leaves the command. -/
def ends : Bool := (line.master.signals input).stateNext != .waitDone

/-- The observer after a cycle. -/
def observed : LineObserver :=
  match line.observer.command with
  | none => { command := line.starts input, words := 0, bits := 0 }
  | some command =>
      if line.ends input then { command := none, words := 0, bits := 0 }
      else
        { command := some command, words := (line.counted input command).1
          bits := (line.counted input command).2 }

/-- One clock edge. -/
def step : RxLine where
  master := line.master.step input
  observer := line.observed input

/-- A data word of a command is complete with a cycle. -/
def endsData (command : BitVec 32) : Prop :=
  line.endsWord input command = true ∧ (line.observer.words + 1) % perTransfer command = 0

instance (command : BitVec 32) : Decidable (line.endsData input command) :=
  inferInstanceAs (Decidable (_ ∧ _))

/-- The data word that is complete on the line with a cycle. -/
def wordCompleted : List (BitVec 32) :=
  match line.observer.command with
  | some command =>
      if line.endsData input command then
        [line.master.txRx.dataRx (line.master.txRxInput input)]
      else []
  | none => []

/-- The data word that is handed over in a cycle. -/
def wordReceived : List (BitVec 32) := line.master.wordReceived input

/-- When a command ends, no clocked bit is left over. -/
def LeavesNothing (line : RxLine) (input : MasterInput) : Prop :=
  ∀ command ∈ line.observer.command, line.ends input = true →
    (line.counted input command).2 = 0 ∧
      (line.counted input command).1 % perTransfer command = 0

/-- A command that receives data starts with an empty transfer and fills whole ones,
its words take whole clocks, and when it only receives, more than one. -/
@[mk_iff]
structure WellStarted (txRx : TxRx) (command : BitVec 32) : Prop where
  fresh : txRx.counterTransf = 0
  whole : perTransfer command ∣ wordCount command
  clocks : lanes command ∣ wordBits command
  several : spiCmd command = some .rxData → lanes command < wordBits command

instance (txRx : TxRx) (command : BitVec 32) : Decidable (WellStarted txRx command) :=
  decidable_of_iff _ (wellStarted_iff txRx command).symm

/-- Commands that receive data are well started, and when a data word is complete the
FIFO is ready. -/
def TakesWords (line : RxLine) (input : MasterInput) : Prop :=
  (∀ command ∈ line.starts input, WellStarted line.master.txRx command) ∧
    ∀ command ∈ line.observer.command, line.endsData input command → input.udmaRxDataReady = true

instance : Decidable (line.LeavesNothing input) :=
  inferInstanceAs (Decidable (∀ command ∈ line.observer.command, _ → _ ∧ _))

instance : Decidable (line.TakesWords input) :=
  inferInstanceAs (Decidable ((∀ command ∈ line.starts input, _) ∧
    ∀ command ∈ line.observer.command, _ → _))

end RxLine

/-- The master with the observer from reset. -/
def rxLineMachine : Machine RxLine MasterInput where
  init := { master := .reset, observer := { command := none, words := 0, bits := 0 } }
  step := RxLine.step

/-! ## Transfers that only receive -/

/-! ## The position of the receiver -/

/-- A cycle of a command in which nothing starts. -/
structure Reads (command : BitVec 32) (input : TxRxInput) : Prop where
  txStart : input.tx.start = false
  rxStart : input.rx.start = false
  rxQpi : input.rx.qpi = cdCfgQpi command

/-- The receiver is at a bit of a word of a command that only receives. -/
structure RxAt (command : BitVec 32) (word bit : Nat) (txRx : TxRx) : Prop where
  isRx : spiCmd command = some .rxData
  txState : txRx.txState = .idle
  rxState : txRx.rxState = .receive
  isFul : txRx.isFul = false
  bitsword : txRx.bitsword = cdWordsize command
  wordtransf : txRx.wordtransf = wordstransf command
  inside : word < wordCount command
  inWord : bit + lanes command ≤ wordBits command
  rxIsLast : txRx.rxIsLast = decide (word + 1 = wordCount command)
  counterHi : txRx.counterHi.toNat = wordCount command - 2 - word
  counterBits : txRx.counterBits.toNat + 1 = bit + lanes command
  counterTransf : txRx.counterTransf.toNat = word % perTransfer command

variable {command : BitVec 32} {word bit : Nat} {txRx : TxRx} {input : TxRxInput}

theorem lanes_eq (isRx : spiCmd command = some .rxData) :
    lanes command = if cdCfgQpi command then 4 else 1 := by
  simp [lanes, isRx]

theorem lanes_full (isFull : spiCmd command = some .fullDupl) : lanes command = 1 := by
  simp [lanes, isFull]

theorem toNat_firstBit (isRx : spiCmd command = some .rxData) :
    (firstBit (cdCfgQpi command)).toNat + 1 = lanes command := by
  rw [lanes_eq isRx]
  cases cdCfgQpi command <;> rfl

theorem toNat_bitsPerCycle (isRx : spiCmd command = some .rxData) :
    (bitsPerCycle (cdCfgQpi command)).toNat = lanes command := by
  rw [lanes_eq isRx]
  cases cdCfgQpi command <;> rfl

namespace RxAt

theorem bitsDone (position : RxAt command word bit txRx) :
    txRx.bitsDone = decide (bit + lanes command = wordBits command) := by
  rw [TxRx.bitsDone, position.bitsword, ← position.counterBits, wordBits]
  rw [Bool.eq_iff_iff, beq_iff_eq, decide_eq_true_iff, ← BitVec.toNat_inj]
  omega

theorem transfDone (position : RxAt command word bit txRx) :
    txRx.transfDone = decide (word % perTransfer command + 1 = perTransfer command) :=
  transfDone_eq position.wordtransf position.counterTransf

/-- The count has come to zero at the last word but one. -/
theorem counterHi_zero (position : RxAt command word bit txRx) :
    txRx.counterHi = 0#16 ↔ wordCount command ≤ word + 2 := by
  rw [← BitVec.toNat_inj, position.counterHi, BitVec.toNat_ofNat, Nat.zero_mod]
  omega

/-- The next word is the last one. -/
theorem nextIsLast (position : RxAt command word bit txRx) (more : word + 1 < wordCount command) :
    decide (word + 2 = wordCount command) = decide (txRx.counterHi = 0#16) := by
  rw [decide_eq_decide, position.counterHi_zero]
  omega

theorem notFull (position : RxAt command word bit txRx) (reads : Reads command input) :
    txRx.fullDuplex input = false := by
  rw [TxRx.fullDuplex, position.isFul, reads.txStart, Bool.false_and, Bool.or_false]

/-- The transmitter rests. -/
theorem txSignals (position : RxAt command word bit txRx) (reads : Reads command input) :
    txRx.txSignals input = { txRx.txDefaults with idle := true } := by
  simp [TxRx.txSignals, position.txState, TxRx.txWaiting, reads.txStart]

/-- The line is clocked. -/
theorem clken (position : RxAt command word bit txRx) (reads : Reads command input) :
    txRx.clken input = true := by
  have receives : (txRx.rxSignals input).clken = true := by
    rw [TxRx.rxSignals, position.rxState]
    change (txRx.rxReceiving input).clken = true
    rw [TxRx.rxReceiving]
    split
    · dsimp only
      split
      · split
        · split
          · split <;> rfl
          · rfl
        · rfl
      · rfl
    · rfl
  rw [TxRx.clken, position.notFull reads, if_neg Bool.false_ne_true, receives, Bool.or_true]

/-- The receiver reads some bits. -/
def readSignals (command : BitVec 32) (txRx : TxRx) (input : TxRxInput) : RxSignals :=
  { txRx.rxDefaults with
    mode := TxRx.receiveMode input, clken := true, sampleBits := true
    shiftReg := txRx.dataRx input, counterBits := txRx.nextBits (cdCfgQpi command) }

theorem rxSignals_inside (position : RxAt command word bit txRx) (reads : Reads command input)
    (more : bit + lanes command < wordBits command) :
    txRx.rxSignals input = readSignals command txRx input := by
  have notDone : txRx.bitsDone = false := by
    rw [position.bitsDone]
    exact decide_eq_false (Nat.ne_of_lt more)
  simp [TxRx.rxSignals, position.rxState, TxRx.rxReceiving, position.notFull reads, notDone,
    readSignals, reads.rxQpi]

/-- At the end of a word the receiver hands over the data word when it is full. -/
theorem rxSignals_word (position : RxAt command word bit txRx) (reads : Reads command input)
    (clocked : txRx.rxClken = true) (ends : bit + lanes command = wordBits command)
    (more : word + 1 < wordCount command) :
    txRx.rxSignals input =
      { readSignals command txRx input with
        sampleTransf := true
        counterTransf := txRx.nextTransf
        data := if txRx.transfDone then txRx.dataRx input else 0
        dataValid := txRx.transfDone
        isLast := decide (word + 2 = wordCount command)
        sampleHi := decide (txRx.counterHi ≠ 0)
        counterHi := countedDown txRx.counterHi } := by
  have done : txRx.bitsDone = true := by
    rw [position.bitsDone]
    exact decide_eq_true ends
  have notLast : txRx.rxIsLast = false := by
    rw [position.rxIsLast]
    exact decide_eq_false (Nat.ne_of_lt more)
  rw [position.nextIsLast more]
  by_cases zero : txRx.counterHi = 0#16
  · simp [TxRx.rxSignals, position.rxState, TxRx.rxReceiving, position.notFull reads, done, clocked,
      notLast, readSignals, reads.rxQpi, countedDown, zero, TxRx.rxDefaults]
  · simp [TxRx.rxSignals, position.rxState, TxRx.rxReceiving, position.notFull reads, done, clocked,
      notLast, readSignals, reads.rxQpi, countedDown, zero, TxRx.rxDefaults]

/-- At the end of the last word the receiver is done. -/
theorem rxSignals_last (position : RxAt command word bit txRx) (reads : Reads command input)
    (clocked : txRx.rxClken = true) (ends : bit + lanes command = wordBits command)
    (last : word + 1 = wordCount command) :
    txRx.rxSignals input =
      { readSignals command txRx input with
        sampleTransf := true
        counterTransf := txRx.nextTransf
        data := if txRx.transfDone then txRx.dataRx input else 0
        dataValid := txRx.transfDone
        isLast := false
        done := true
        stateNext := .idle } := by
  have done : txRx.bitsDone = true := by
    rw [position.bitsDone]
    exact decide_eq_true ends
  have isLast : txRx.rxIsLast = true := by
    rw [position.rxIsLast]
    exact decide_eq_true last
  have zero : txRx.counterHi = 0#16 := position.counterHi_zero.mpr (by omega)
  simp [TxRx.rxSignals, position.rxState, TxRx.rxReceiving, position.notFull reads, done, clocked,
    isLast, zero, readSignals, reads.rxQpi, reads.rxStart]

/-- What a cycle leaves alone that samples no setup. -/
theorem step_kept (position : RxAt command word bit txRx) (reads : Reads command input)
    (keeps : (txRx.rxSignals input).sampleIn = false) (busy : (txRx.rxSignals input).idle = false) :
    (txRx.step input).txState = .idle ∧ (txRx.step input).isFul = false ∧
      (txRx.step input).bitsword = cdWordsize command ∧
      (txRx.step input).wordtransf = wordstransf command := by
  have tx := position.txSignals reads
  have kept : ∀ {Field : Type} (field : TransferSetup → Field) (value : Field),
      txRx.sampled input field value = value := by
    intro Field field value
    simp [TxRx.sampled, tx, keeps, TxRx.txDefaults]
  refine ⟨?_, ?_, ?_, ?_⟩
  · rw [TxRx.step, tx]
    exact position.txState
  · simp [TxRx.step, reads.txStart, busy, position.isFul]
  · exact (kept ..).trans position.bitsword
  · exact (kept ..).trans position.wordtransf

/-- A cycle inside a word. -/
theorem step_inside (position : RxAt command word bit txRx) (reads : Reads command input)
    (more : bit + lanes command + lanes command ≤ wordBits command) :
    RxAt command word (bit + lanes command) (txRx.step input) ∧
      (txRx.step input).rxClken = true := by
  have positive : 0 < lanes command := by
    rw [lanes]
    split <;> decide
  have inside : bit + lanes command < wordBits command := by omega
  have tx := position.txSignals reads
  have rx := position.rxSignals_inside reads inside
  obtain ⟨txState, isFul, bitsword, wordtransf⟩ :=
    position.step_kept reads (by rw [rx]; rfl) (by rw [rx]; rfl)
  refine ⟨⟨position.isRx, txState, ?_, isFul, bitsword, wordtransf, position.inside, more, ?_, ?_,
    ?_, ?_⟩, ?_⟩
  · rw [TxRx.step, rx]
    exact position.rxState
  · rw [← position.rxIsLast, TxRx.step, rx]
    rfl
  · rw [← position.counterHi]
    simp [TxRx.step, TxRx.sampled, TxRx.countedHi, tx, rx, readSignals, TxRx.txDefaults,
      TxRx.rxDefaults]
  · have notDone : txRx.bitsDone = false := by
      rw [position.bitsDone]
      exact decide_eq_false (Nat.ne_of_lt inside)
    have counted := position.counterBits
    have room : wordBits command ≤ 32 := (cdWordsize command).isLt
    have next : (txRx.step input).counterBits =
        txRx.counterBits + bitsPerCycle (cdCfgQpi command) := by
      rw [TxRx.step, tx, rx]
      change txRx.nextBits (cdCfgQpi command) = _
      rw [TxRx.nextBits, notDone, if_neg Bool.false_ne_true]
    rw [next, BitVec.toNat_add, toNat_bitsPerCycle position.isRx, Nat.mod_eq_of_lt (by omega)]
    omega
  · rw [← position.counterTransf, TxRx.step, tx, rx]
    rfl
  · rw [TxRx.step, rx]
    rfl

/-- A cycle that ends a word that is not the last one. -/
theorem step_word (position : RxAt command word bit txRx) (reads : Reads command input)
    (clocked : txRx.rxClken = true) (ends : bit + lanes command = wordBits command)
    (more : word + 1 < wordCount command) :
    RxAt command (word + 1) 0 (txRx.step input) ∧ (txRx.step input).rxClken = true := by
  have tx := position.txSignals reads
  have rx := position.rxSignals_word reads clocked ends more
  obtain ⟨txState, isFul, bitsword, wordtransf⟩ :=
    position.step_kept reads (by rw [rx]; rfl) (by rw [rx]; rfl)
  have positive : lanes command ≤ wordBits command := by omega
  refine ⟨⟨position.isRx, txState, ?_, isFul, bitsword, wordtransf, more,
    (Nat.zero_add _).trans_le positive, ?_, ?_, ?_, ?_⟩, ?_⟩
  · rw [TxRx.step, rx]
    exact position.rxState
  · rw [TxRx.step, rx]
  · have counted : (txRx.step input).counterHi = countedDown txRx.counterHi := by
      by_cases zero : txRx.counterHi = 0#16 <;>
        simp [TxRx.step, TxRx.sampled, TxRx.countedHi, tx, rx, readSignals, TxRx.txDefaults,
          TxRx.rxDefaults, zero, countedDown]
    rw [counted, toNat_countedDown, position.counterHi]
    omega
  · have done : txRx.bitsDone = true := by
      rw [position.bitsDone]
      exact decide_eq_true ends
    have next : (txRx.step input).counterBits = firstBit (cdCfgQpi command) := by
      rw [TxRx.step, tx, rx]
      change txRx.nextBits (cdCfgQpi command) = _
      rw [TxRx.nextBits, done, if_pos rfl]
    rw [next, toNat_firstBit position.isRx, Nat.zero_add]
  · rw [← nextTransf_eq position.wordtransf position.counterTransf, TxRx.step, tx, rx]
    rfl
  · rw [TxRx.step, rx]
    rfl

/-- The cycle that ends the last word. -/
theorem step_last (position : RxAt command word bit txRx) (reads : Reads command input)
    (clocked : txRx.rxClken = true) (ends : bit + lanes command = wordBits command)
    (last : word + 1 = wordCount command) :
    (txRx.step input).txState = .idle ∧ (txRx.step input).rxState = .idle := by
  have tx := position.txSignals reads
  have rx := position.rxSignals_last reads clocked ends last
  constructor
  · rw [TxRx.step, tx]
    exact position.txState
  · rw [TxRx.step, rx]

end RxAt

end CoreVMcu.Spi
