import CoreVMcu.Spi.Transmit
import Mathlib.Data.List.GetD

/-!
# Transfers after any history

Nothing that earlier commands leave behind changes what a command sends, with one
exception: the counter of the words of a transfer is not cleared when one starts.  A
command is sent as after reset exactly when the counter is at zero, or when all its words
are in the first data word and the counter does not come to their number before.
-/

namespace CoreVMcu.Spi

open Clocked

namespace TransferSetup

variable (setup : TransferSetup)

/-- The data word of a word, among those that are taken. -/
def dataOf (first : BitVec 2) (words : List (BitVec 32)) (word : Nat) : BitVec 32 :=
  words.getD (setup.used first word) 0

variable {setup} {first : BitVec 2} {words : List (BitVec 32)}

/-- A word keeps its data word. -/
theorem dataOf_append {word : Nat} (taken : setup.used first word < words.length)
    (later : List (BitVec 32)) :
    setup.dataOf first (words ++ later) word = setup.dataOf first words word := by
  rw [dataOf, dataOf, List.getD_append _ _ _ _ taken]

/-- The data word that is taken for a word. -/
theorem dataOf_snoc {word : Nat} (next : words.length = setup.used first word)
    (data : BitVec 32) : setup.dataOf first (words ++ [data]) word = data := by
  rw [dataOf, ← next, List.getD_append_right _ _ _ _ (Nat.le_refl _), Nat.sub_self]
  rfl

/-- The bits that are sent stay the same when more data is taken. -/
theorem firstBits_append {count : Nat}
    (taken : ∀ word, word * setup.wordClocks < count → setup.used first word < words.length)
    (later : List (BitVec 32)) :
    setup.firstBits (setup.dataOf first (words ++ later)) count =
      setup.firstBits (setup.dataOf first words) count :=
  firstBits_congr fun word begun => dataOf_append (taken word begun) later

end TransferSetup

/-! ## The transmitter during a transfer -/

/-- The transmitter at a clock of a word. -/
structure TransmitsAt (setup : TransferSetup) (first : BitVec 2) (word clock : Nat) (txRx : TxRx) :
    Prop extends WalksAt setup first word clock txRx where
  isLast : txRx.txIsLast = decide (word + 1 = setup.wordCount)
  follows : txRx.Follows

/-- Stages of a transfer, with the data words that are taken and the bits that are sent. -/
inductive TransmitStage (setup : TransferSetup) (first : BitVec 2) (words : List (BitVec 32))
    (bits : List (List Bool)) (txRx : TxRx) : Prop where
  | waiting (word : Nat) (position : TransmitsAt setup first word 0 txRx)
      (state : txRx.txState = .waitData) (count : words.length = setup.used first word)
      (taken : ∀ earlier < word, setup.used first earlier < words.length)
      (sent : bits = setup.firstBits (setup.dataOf first words) (word * setup.wordClocks))
  | sending (word clock : Nat) (position : TransmitsAt setup first word clock txRx)
      (state : txRx.txState = .send) (count : words.length = setup.used first word + 1)
      (data : txRx.txShiftReg = setup.dataOf first words word)
      (sent : bits = setup.firstBits (setup.dataOf first words) (word * setup.wordClocks + clock))
  | ended (state : txRx.txState = .idle) (follows : txRx.Follows)
      (count : words.length = setup.used first setup.size.toNat + 1)
      (sent : bits = setup.firstBits (setup.dataOf first words) setup.clocks)

section Transfer

variable {setup : TransferSetup} {first : BitVec 2} {words : List (BitVec 32)}
  {bits : List (List Bool)} {word clock : Nat} {txRx : TxRx} {input : TxRxInput}

/-- The last word is the one after those that are counted. -/
theorem TransmitsAt.txEndsCount (position : TransmitsAt setup first word clock txRx)
    (whole : setup.lanes ∣ setup.wordBits) (ends : clock + 1 = setup.wordClocks) :
    (txRx.txEndsCount && txRx.txIsLast) = decide (word + 1 = setup.wordCount) ∧
      (word + 1 < setup.wordCount →
        (if txRx.txEndsCount then !txRx.txIsLast else txRx.txIsLast) =
          decide (word + 2 = setup.wordCount)) := by
  rw [TxRx.txEndsCount, position.bitsDone whole, decide_eq_true ends, Bool.true_and,
    position.counterHi_zero, position.isLast]
  have inside := position.inside
  constructor
  · rw [← Bool.decide_and, decide_eq_decide]
    omega
  · intro more
    rw [decide_eq_false (Nat.ne_of_lt more)]
    by_cases next : setup.wordCount ≤ word + 2
    · rw [decide_eq_true next, if_pos rfl, eq_comm, Bool.not_false, decide_eq_true_iff]
      omega
    · rw [decide_eq_false next, if_neg Bool.false_ne_true, eq_comm, decide_eq_false_iff_not]
      omega

/-- A cycle in which the transmitter waits for data. -/
theorem TransmitStage.step_waiting (goes : Goes setup input)
    (position : TransmitsAt setup first word 0 txRx) (state : txRx.txState = .waitData)
    (count : words.length = setup.used first word)
    (taken : ∀ earlier < word, setup.used first earlier < words.length)
    (sent : bits = setup.firstBits (setup.dataOf first words) (word * setup.wordClocks)) :
    TransmitStage setup first (words ++ txRx.wordTaken input) (bits ++ txRx.bitsDriven input)
      (txRx.step input) := by
  have tx := txSignals_waiting input state
  obtain ⟨kept, hi, counterBits, transf, offset⟩ := Spi.step_waiting position.follows goes state
  have silent : txRx.bitsDriven input = [] := by
    rw [TxRx.bitsDriven, clken_of_follows position.follows goes, tx]
    rfl
  have next : TransmitsAt setup first word 0 (txRx.step input) :=
    { inside := position.inside
      inWord := position.inWord
      lsbfirst := kept.lsbfirst.trans position.lsbfirst
      bitsword := kept.bitsword.trans position.bitsword
      wordtransf := kept.wordtransf.trans position.wordtransf
      counterHi := (congrArg BitVec.toNat hi).trans position.counterHi
      counterBits := by rw [counterBits, position.counterBits]
      counterTransf := transf.trans position.counterTransf
      bitOffset := (congrArg BitVec.toNat offset).trans position.bitOffset
      isLast := by
        rw [← position.isLast]
        change (txRx.txSignals input).isLast = _
        rw [tx]
        rfl
      follows := step_follows position.follows goes }
  have stateNext : (txRx.step input).txState = if input.txDataValid then .send else .waitData := by
    change (txRx.txSignals input).stateNext = _
    rw [tx]
  rw [silent, List.append_nil, TxRx.wordTaken, tx]
  cases valid : input.txDataValid with
  | false =>
      rw [valid, if_neg Bool.false_ne_true] at stateNext
      rw [if_neg Bool.false_ne_true, List.append_nil]
      exact .waiting word next stateNext count taken sent
  | true =>
      rw [valid, if_pos rfl] at stateNext
      rw [if_pos rfl]
      refine .sending word 0 next stateNext ?_ ?_ ?_
      · rw [List.length_append, count]
        rfl
      · rw [TransferSetup.dataOf_snoc count]
        change (txRx.txSignals input).shiftReg = _
        rw [tx, valid]
        rfl
      · rw [Nat.add_zero, TransferSetup.firstBits_append, sent]
        intro earlier begun
        exact taken earlier (Nat.lt_of_mul_lt_mul_right begun)

/-- The bits of a clock in which the transmitter sends. -/
theorem sent_next (packs : setup.Packs) (whole : setup.lanes ∣ setup.wordBits)
    (goes : Goes setup input) (position : TransmitsAt setup first word clock txRx)
    (state : txRx.txState = .send) (data : txRx.txShiftReg = setup.dataOf first words word)
    (sent : bits = setup.firstBits (setup.dataOf first words) (word * setup.wordClocks + clock)) :
    bits ++ txRx.bitsDriven input =
      setup.firstBits (setup.dataOf first words) (word * setup.wordClocks + clock + 1) := by
  have clocked : txRx.clken input = true := by
    rw [clken_of_follows position.follows goes, txSignals_sending state goes.txStart]
  rw [TxRx.bitsDriven, clocked, if_pos rfl, TransferSetup.firstBits_succ _ position.inWord, sent,
    driven_sending position.toWalksAt packs whole goes state, data]

/-- A clock inside a word. -/
theorem TransmitStage.step_inside (packs : setup.Packs) (whole : setup.lanes ∣ setup.wordBits)
    (goes : Goes setup input) (position : TransmitsAt setup first word clock txRx)
    (state : txRx.txState = .send) (count : words.length = setup.used first word + 1)
    (data : txRx.txShiftReg = setup.dataOf first words word)
    (sent : bits = setup.firstBits (setup.dataOf first words) (word * setup.wordClocks + clock))
    (more : clock + 1 < setup.wordClocks) :
    TransmitStage setup first (words ++ txRx.wordTaken input) (bits ++ txRx.bitsDriven input)
      (txRx.step input) := by
  have tx := txSignals_sending state goes.txStart
  have inside : txRx.bitsDone = false := by
    rw [position.bitsDone whole]
    exact decide_eq_false (Nat.ne_of_lt more)
  have counts := (step_sending position.follows goes state).1 inside
  have notLast : txRx.txEndsCount = false := by rw [TxRx.txEndsCount, inside, Bool.false_and]
  have loadsNot : txRx.txLoads = false := by
    rw [TxRx.txLoads, inside, Bool.false_and, Bool.and_false]
  rw [notLast, loadsNot] at tx
  rw [sent_next packs whole goes position state data sent, TxRx.wordTaken, tx]
  change TransmitStage setup first (words ++ []) _ _
  rw [List.append_nil]
  refine .sending word (clock + 1) ⟨position.next_clock whole more counts, ?_,
    step_follows position.follows goes⟩ ?_ count ?_ rfl
  · rw [← position.isLast]
    change (txRx.txSignals input).isLast = _
    rw [tx]
    rfl
  · change (txRx.txSignals input).stateNext = _
    rw [tx]
    rfl
  · rw [← data]
    change (txRx.txSignals input).shiftReg = _
    rw [tx]
    rfl

/-- The last clock of a word that another one follows. -/
theorem TransmitStage.step_word (packs : setup.Packs) (whole : setup.lanes ∣ setup.wordBits)
    (goes : Goes setup input) (position : TransmitsAt setup first word clock txRx)
    (state : txRx.txState = .send) (count : words.length = setup.used first word + 1)
    (data : txRx.txShiftReg = setup.dataOf first words word)
    (sent : bits = setup.firstBits (setup.dataOf first words) (word * setup.wordClocks + clock))
    (ends : clock + 1 = setup.wordClocks) (more : word + 1 < setup.wordCount) :
    TransmitStage setup first (words ++ txRx.wordTaken input) (bits ++ txRx.bitsDriven input)
      (txRx.step input) := by
  have tx := txSignals_sending state goes.txStart
  have done : txRx.bitsDone = true := by
    rw [position.bitsDone whole]
    exact decide_eq_true ends
  have counts := (step_sending position.follows goes state).2 done
  obtain ⟨goesOn, lastNext⟩ := position.txEndsCount whole ends
  have loads : txRx.txLoads = decide (setup.transfAt first word = setup.wordtransf) := by
    rw [TxRx.txLoads, goesOn, decide_eq_false (Nat.ne_of_lt more), done, position.transfDone]
    rfl
  have usedNext := setup.used_succ first word
  have sentNext : bits ++ txRx.bitsDriven input =
      setup.firstBits (setup.dataOf first words) ((word + 1) * setup.wordClocks) := by
    rw [sent_next packs whole goes position state data sent, Nat.add_assoc, ends, ← Nat.succ_mul]
  have next : TransmitsAt setup first (word + 1) 0 (txRx.step input) := by
    refine ⟨position.next_word whole packs ends more counts, ?_, step_follows position.follows goes⟩
    rw [← lastNext more]
    change (txRx.txSignals input).isLast = _
    rw [tx]
  have stateNext : (txRx.step input).txState =
      if txRx.txLoads && !input.txDataValid then .waitData else .send := by
    change (txRx.txSignals input).stateNext = _
    rw [tx, goesOn, decide_eq_false (Nat.ne_of_lt more), if_neg Bool.false_ne_true]
  have shiftNext : (txRx.step input).txShiftReg =
      if txRx.txLoads && input.txDataValid then input.txData else txRx.txShiftReg := by
    change (txRx.txSignals input).shiftReg = _
    rw [tx]
  have takes : txRx.wordTaken input =
      if txRx.txLoads && input.txDataValid then [input.txData] else [] := by
    rw [TxRx.wordTaken, tx]
  rw [sentNext, takes]
  by_cases full : setup.transfAt first word = setup.wordtransf
  · rw [decide_eq_true full] at loads
    rw [if_pos full, ← count] at usedNext
    have kept : ∀ earlier, earlier * setup.wordClocks < (word + 1) * setup.wordClocks →
        setup.used first earlier < words.length := by
      intro earlier begun
      rw [count]
      exact Nat.lt_succ_of_le
        (setup.used_mono first (Nat.le_of_lt_succ (Nat.lt_of_mul_lt_mul_right begun)))
    rw [loads, Bool.true_and] at stateNext shiftNext ⊢
    cases valid : input.txDataValid with
    | false =>
        rw [valid] at stateNext
        rw [if_neg Bool.false_ne_true, List.append_nil]
        refine .waiting (word + 1) next stateNext usedNext.symm ?_ rfl
        intro earlier before
        exact kept earlier (Nat.mul_lt_mul_of_pos_right before (TransferSetup.wordClocks_pos whole))
    | true =>
        rw [valid] at stateNext shiftNext
        rw [if_pos rfl]
        refine .sending (word + 1) 0 next stateNext ?_ ?_ ?_
        · rw [List.length_append, usedNext]
          rfl
        · rw [TransferSetup.dataOf_snoc usedNext.symm]
          exact shiftNext
        · exact (TransferSetup.firstBits_append kept _).symm
  · rw [decide_eq_false full] at loads
    rw [if_neg full, Nat.add_zero] at usedNext
    rw [loads, Bool.false_and] at stateNext shiftNext ⊢
    rw [if_neg Bool.false_ne_true, List.append_nil]
    refine .sending (word + 1) 0 next stateNext ?_ ?_ rfl
    · rw [usedNext]
      exact count
    · rw [TransferSetup.dataOf, usedNext]
      exact shiftNext.trans data

/-- The last clock of the last word. -/
theorem TransmitStage.step_last (packs : setup.Packs) (whole : setup.lanes ∣ setup.wordBits)
    (goes : Goes setup input) (position : TransmitsAt setup first word clock txRx)
    (state : txRx.txState = .send) (count : words.length = setup.used first word + 1)
    (data : txRx.txShiftReg = setup.dataOf first words word)
    (sent : bits = setup.firstBits (setup.dataOf first words) (word * setup.wordClocks + clock))
    (ends : clock + 1 = setup.wordClocks) (last : word + 1 = setup.wordCount) :
    TransmitStage setup first (words ++ txRx.wordTaken input) (bits ++ txRx.bitsDriven input)
      (txRx.step input) := by
  have tx := txSignals_sending state goes.txStart
  have ended := (position.txEndsCount whole ends).1
  rw [decide_eq_true last] at ended
  have loadsNot : txRx.txLoads = false := by rw [TxRx.txLoads, ended, Bool.not_true, Bool.false_and]
  have sentAll : bits ++ txRx.bitsDriven input =
      setup.firstBits (setup.dataOf first words) setup.clocks := by
    rw [sent_next packs whole goes position state data sent, Nat.add_assoc, ends, ← Nat.succ_mul,
      Nat.succ_eq_add_one, last]
    rfl
  have takesNot : txRx.wordTaken input = [] := by
    rw [TxRx.wordTaken, tx, loadsNot]
    rfl
  rw [sentAll, takesNot, List.append_nil]
  refine .ended ?_ (step_follows position.follows goes) ?_ rfl
  · change (txRx.txSignals input).stateNext = _
    rw [tx, ended, if_pos rfl]
  · rw [count, Nat.succ.inj last]

/-- A cycle of a transfer. -/
theorem TransmitStage.step (packs : setup.Packs) (whole : setup.lanes ∣ setup.wordBits)
    (stage : TransmitStage setup first words bits txRx) (goes : Goes setup input) :
    TransmitStage setup first (words ++ txRx.wordTaken input) (bits ++ txRx.bitsDriven input)
      (txRx.step input) := by
  cases stage with
  | waiting word position state count taken sent =>
      exact .step_waiting goes position state count taken sent
  | sending word clock position state count data sent =>
      rcases Nat.lt_or_eq_of_le (Nat.succ_le_of_lt position.inWord) with more | ends
      · exact .step_inside packs whole goes position state count data sent more
      · rcases Nat.lt_or_eq_of_le (Nat.succ_le_of_lt position.inside) with further | last
        · exact .step_word packs whole goes position state count data sent ends further
        · exact .step_last packs whole goes position state count data sent ends last
  | ended state follows count sent =>
      have tx := txSignals_resting state goes.txStart
      have silent : txRx.bitsDriven input = [] := by
        rw [TxRx.bitsDriven, clken_of_follows follows goes, tx]
        rfl
      have takesNot : txRx.wordTaken input = [] := by
        rw [TxRx.wordTaken, tx]
        rfl
      rw [silent, takesNot, List.append_nil, List.append_nil]
      refine .ended ?_ (step_follows follows goes) count sent
      change (txRx.txSignals input).stateNext = .idle
      rw [tx]
      exact state

end Transfer

/-! ## Commands that send -/

/-- The interpreter waits for the serializer. -/
def SpiMaster.Busy (master : SpiMaster) (_ : MasterInput) : Prop := master.ctrl.state = .waitDone

instance (master : SpiMaster) (input : MasterInput) : Decidable (master.Busy input) :=
  inferInstanceAs (Decidable (_ = _))

/-- The bits that are driven in a cycle of the master. -/
def SpiMaster.bitsDriven (master : SpiMaster) (input : MasterInput) : List (List Bool) :=
  master.txRx.bitsDriven (master.txRxInput input)

/-- The commands that send data. -/
def Sends (cmd : Option SpiCmd) : Prop :=
  cmd = some .sendCmd ∨ cmd = some .txData ∨ cmd = some .fullDupl

/-- The data word that a command has in itself. -/
def ownData (command : BitVec 32) : List (BitVec 32) :=
  if spiCmd command = some .sendCmd then [(cdSizeLong command).setWidth 32] else []

section Commands

variable {setup : TransferSetup} {first : BitVec 2} {words : List (BitVec 32)}
  {bits : List (List Bool)} {master : SpiMaster} {input : MasterInput} {command : BitVec 32}

theorem goes_busy (state : master.ctrl.state = .waitDone) (qpi : master.ctrl.qpi = setup.qpi)
    (input : MasterInput) : Goes setup (master.txRxInput input) := by
  rw [txRxInput_waitDone state]
  exact ⟨rfl, rfl, qpi⟩

/-- Data is taken only when it is there. -/
theorem dataReady_valid {txRx : TxRx} {input : TxRxInput} (goes : Goes setup input)
    (ready : (txRx.txSignals input).dataReady = true) : input.txDataValid = true := by
  cases state : txRx.txState with
  | idle =>
      rw [txSignals_resting state goes.txStart] at ready
      cases ready
  | send =>
      rw [txSignals_sending state goes.txStart] at ready
      exact (Bool.and_eq_true_iff.mp ready).2
  | waitData =>
      rw [txSignals_waiting input state] at ready
      exact ready

/-- The master takes the data words that the transmitter takes. -/
theorem wordTransmitted_busy (state : master.ctrl.state = .waitDone)
    (qpi : master.ctrl.qpi = setup.qpi) (input : MasterInput) :
    master.wordTransmitted input = master.txRx.wordTaken (master.txRxInput input) := by
  have goes := goes_busy state qpi input
  have given := txRxInput_waitDone state input
  have ready : (master.signals input).udmaTxDataReady =
      (master.txRx.txSignals (master.txRxInput input)).dataReady := by
    rw [signals_waitDone state]
    rfl
  rw [SpiMaster.wordTransmitted, TxRx.wordTaken, ready]
  cases taken : (master.txRx.txSignals (master.txRxInput input)).dataReady with
  | false => rfl
  | true =>
      have valid := dataReady_valid goes taken
      rw [given] at valid ⊢
      change input.udmaTxDataValid = true at valid
      rw [valid]
      rfl

/-- The cycles of a command that sends. -/
theorem TransmitStage.runFrom (packs : setup.Packs) (whole : setup.lanes ∣ setup.wordBits)
    (qpi : master.ctrl.qpi = setup.qpi) (stage : TransmitStage setup first words bits master.txRx)
    {rest : List MasterInput} (busy : spimMachine.AlwaysFrom SpiMaster.Busy master rest) :
    TransmitStage setup first
      (words ++ spimMachine.observedFrom SpiMaster.wordTransmitted master rest)
      (bits ++ spimMachine.observedFrom SpiMaster.bitsDriven master rest)
      (spimMachine.runFrom master rest).txRx := by
  induction rest generalizing master words bits with
  | nil =>
      rw [Machine.observedFrom, Machine.observedFrom, List.append_nil, List.append_nil]
      exact stage
  | cons input rest inductionHypothesis =>
      obtain ⟨state, busyRest⟩ := busy
      have next := stage.step packs whole (goes_busy state qpi input)
      rw [← wordTransmitted_busy state qpi] at next
      have later := inductionHypothesis ((step_waitDone_qpi input state).trans qpi) next busyRest
      rw [List.append_assoc, List.append_assoc] at later
      exact later

/-- What the transmitter drives when a transfer starts. -/
theorem txSignals_starting {txRx : TxRx} {input : TxRxInput} (rests : txRx.txState = .idle)
    (start : input.tx.start = true) :
    txRx.txSignals input =
      { txRx.txDefaults with
        stateNext := if input.txDataValid then .send else .waitData
        dataReady := input.txDataValid
        shiftReg := if input.txDataValid then input.txData else txRx.txShiftReg
        counterBits := firstBit input.tx.qpi, sampleBits := true
        isLast := decide (input.tx.size = 0), driving := true, sampleIn := true } := by
  rw [TxRx.txSignals, rests]
  change txRx.txWaiting input = _
  rw [TxRx.txWaiting, if_pos start, TxRx.load]
  cases input.txDataValid <;> rfl

/-- A receiver that starts or rests does not count. -/
theorem rxSignals_starting {txRx : TxRx} (input : TxRxInput) (rests : txRx.rxState = .idle) :
    (txRx.rxSignals input).sampleTransf = false ∧ (txRx.rxSignals input).clken = false ∧
      (txRx.rxSignals input).stateNext = if input.rx.start then .receive else .idle := by
  rw [TxRx.rxSignals, rests]
  change (txRx.rxWaiting input).sampleTransf = false ∧ (txRx.rxWaiting input).clken = false ∧
    (txRx.rxWaiting input).stateNext = _
  rw [TxRx.rxWaiting]
  cases start : input.rx.start with
  | true => exact ⟨rfl, rfl, rfl⟩
  | false => exact ⟨rfl, rfl, rests⟩

/-- The words of a transfer after the first one are counted. -/
theorem sizeCount_eq (setup : TransferSetup) :
    (sizeCount setup.size).toNat = setup.wordCount - 2 - 0 := by
  have same : sizeCount setup.size = countedDown setup.size := by
    unfold sizeCount countedDown
    split
    · next zero => exact zero.symm
    · rfl
  rw [same, toNat_countedDown]
  rfl

/-- The serializer when a transfer has started: only the counter of the words of a transfer is
as it was before. -/
structure StartsAt (setup : TransferSetup) (first : BitVec 2) (txRx : TxRx) : Prop where
  lsbfirst : txRx.lsbfirst = setup.lsbfirst
  bitsword : txRx.bitsword = setup.bitsword
  wordtransf : txRx.wordtransf = setup.wordtransf
  counterHi : txRx.counterHi.toNat = setup.wordCount - 2 - 0
  counterBits : txRx.counterBits = firstBit setup.qpi
  counterTransf : txRx.counterTransf = first
  bitOffset : txRx.bitOffset = 0

theorem step_startsAt {txRx : TxRx} {input : TxRxInput} (txRests : txRx.txState = .idle)
    (rxRests : txRx.rxState = .idle) (start : input.tx = setup) (starts : setup.start = true) :
    StartsAt setup txRx.counterTransf (txRx.step input) := by
  have txStart : input.tx.start = true := by rw [start, starts]
  have tx := txSignals_starting txRests txStart
  obtain ⟨rxTransf, -, -⟩ := rxSignals_starting input rxRests
  have sampled : ∀ {Field : Type} (field : TransferSetup → Field) (value : Field),
      txRx.sampled input field value = field setup := by
    intro Field field value
    rw [TxRx.sampled, tx, if_pos rfl, start]
  refine ⟨sampled .., sampled .., sampled .., ?_, ?_, ?_, ?_⟩
  · rw [← sizeCount_eq]
    exact congrArg BitVec.toNat (sampled (fun given => sizeCount given.size) _)
  · change (if (txRx.txSignals input).sampleBits then (txRx.txSignals input).counterBits
      else _) = _
    rw [tx, if_pos rfl, start]
  · change (if (txRx.txSignals input).sampleTransf then _
      else if (txRx.rxSignals input).sampleTransf then _ else _) = _
    rw [tx, rxTransf]
    rfl
  · change (if input.tx.start || input.rx.start then (0 : BitVec 5) else _) = _
    rw [txStart]
    rfl

theorem step_starts_follows {txRx : TxRx} {input : TxRxInput} (rxRests : txRx.rxState = .idle)
    (txStart : input.tx.start = true) : (txRx.step input).Follows := by
  obtain ⟨-, -, rxNext⟩ := rxSignals_starting input rxRests
  cases rxStart : input.rx.start with
  | false =>
      left
      change (txRx.rxSignals input).stateNext = .idle
      rw [rxNext, rxStart]
      rfl
  | true =>
      right
      constructor
      · change (txRx.rxSignals input).stateNext = .receive
        rw [rxNext, rxStart]
        rfl
      · change (if input.tx.start && input.rx.start then true else _) = true
        rw [txStart, rxStart]
        rfl

/-- A transfer starts at the first clock of its first word. -/
theorem StartsAt.walks {first : BitVec 2} {txRx : TxRx} (starts : StartsAt setup first txRx)
    (whole : setup.lanes ∣ setup.wordBits) : WalksAt setup first 0 0 txRx where
  inside := Nat.succ_pos _
  inWord := TransferSetup.wordClocks_pos whole
  lsbfirst := starts.lsbfirst
  bitsword := starts.bitsword
  wordtransf := starts.wordtransf
  counterHi := starts.counterHi
  counterBits := by
    rw [starts.counterBits, WalksAt.firstBit_toNat, Nat.zero_add, Nat.mul_one]
  counterTransf := starts.counterTransf
  bitOffset := by
    rw [starts.bitOffset, TransferSetup.offset, Nat.zero_mod, Nat.zero_mul]
    rfl

/-- A cycle in which a command that sends is decoded. -/
structure SendStart (master : SpiMaster) (input : MasterInput) (command : BitVec 32) : Prop where
  tx : (master.txRxInput input).tx = transmission command
  valid : (master.txRxInput input).txDataValid = (spiCmd command == some .sendCmd)
  data : ownData command =
    if (master.txRxInput input).txDataValid then [(master.txRxInput input).txData] else []
  state : (master.step input).ctrl.state = .waitDone
  qpi : (master.step input).ctrl.qpi = (transmission command).qpi
  noWord : master.wordTransmitted input = []

theorem Accepts.sendStart (accepts : Accepts master input command) (rests : Rests master)
    (sends : Sends (spiCmd command)) : SendStart master input command := by
  obtain ⟨-, -, -, -, -, noData, -⟩ := taken_fields master.ctrl
  have noReady : master.ctrl.taken.udmaTxDataReady = false := by
    simp only [SpimCtrl.taken]
    split
    · rfl
    · split
      · rfl
      · split <;> rfl
  have given := accepts.txRxInput
  have word : master.wordTransmitted input = [] := by
    have ready : (master.signals input).udmaTxDataReady = false := by
      rw [accepts.signals, SpimCtrl.execute]
      rcases sends with cmd | cmd | cmd <;> rw [cmd] <;> exact noReady
    rw [SpiMaster.wordTransmitted, ready]
    rfl
  rcases sends with cmd | cmd | cmd
  · obtain ⟨tx, -, ctrl⟩ := accepts.sends rests.isDummy (.inl cmd)
    refine ⟨tx, ?_, ?_, ctrl.state, ctrl.qpi, word⟩ <;> rw [given, SpimCtrl.execute, cmd]
    · rfl
    · rw [ownData, cmd]
      rfl
  · obtain ⟨tx, -, ctrl⟩ := accepts.sends rests.isDummy (.inr cmd)
    refine ⟨tx, ?_, ?_, ctrl.state, ctrl.qpi, word⟩ <;> rw [given, SpimCtrl.execute, cmd]
    · exact noData
    · rw [ownData, cmd, noData]
      rfl
  · obtain ⟨tx, -, ctrl⟩ := accepts.both rests.isDummy cmd
    have qpi : (transmission command).qpi = false := by
      rw [transmission, cmd]
      rfl
    refine ⟨tx, ?_, ?_, ctrl.state, ctrl.qpi.trans qpi.symm, word⟩ <;>
      rw [given, SpimCtrl.execute, cmd]
    · exact noData
    · rw [ownData, cmd, noData]
      rfl

/-- Nothing is sent when a command starts. -/
theorem SendStart.silent (start : SendStart master input command) (rests : Rests master) :
    master.bitsDriven input = [] := by
  have txStart : (master.txRxInput input).tx.start = true := by
    rw [start.tx, transmission_start]
  obtain ⟨-, rxStopped, -⟩ := rxSignals_starting (master.txRxInput input) rests.rxState
  have stopped : master.txRx.clken (master.txRxInput input) = false := by
    rw [TxRx.clken, rxStopped, txSignals_starting rests.txState txStart]
    exact ite_self _
  rw [SpiMaster.bitsDriven, TxRx.bitsDriven, stopped]
  rfl

/-- The first stage of a command that sends. -/
theorem SendStart.stage (start : SendStart master input command) (rests : Rests master)
    (whole : (transmission command).lanes ∣ (transmission command).wordBits) :
    TransmitStage (transmission command) master.txRx.counterTransf (ownData command) []
      (master.step input).txRx := by
  have txStart : (master.txRxInput input).tx.start = true := by
    rw [start.tx, transmission_start]
  have tx := txSignals_starting rests.txState txStart
  have position : TransmitsAt (transmission command) master.txRx.counterTransf 0 0
      (master.step input).txRx := by
    refine ⟨(step_startsAt rests.txState rests.rxState start.tx
      (transmission_start command)).walks whole, ?_, step_starts_follows rests.rxState txStart⟩
    change (master.txRx.txSignals (master.txRxInput input)).isLast = _
    rw [tx, start.tx]
    change decide ((transmission command).size = 0) = _
    rw [decide_eq_decide, ← BitVec.toNat_inj, TransferSetup.wordCount]
    change (transmission command).size.toNat = 0 ↔ _
    omega
  have stateNext : (master.step input).txRx.txState =
      if (master.txRxInput input).txDataValid then .send else .waitData := by
    change (master.txRx.txSignals (master.txRxInput input)).stateNext = _
    rw [tx]
  have own := start.data
  cases valid : (master.txRxInput input).txDataValid with
  | true =>
      rw [valid, if_pos rfl] at stateNext own
      refine .sending 0 0 position stateNext ?_ ?_ ?_
      · rw [own]
        rfl
      · change (master.txRx.txSignals (master.txRxInput input)).shiftReg = _
        rw [tx, valid, own]
        rfl
      · rw [Nat.zero_mul]
        rfl
  | false =>
      rw [valid, if_neg Bool.false_ne_true] at stateNext own
      refine .waiting 0 position stateNext ?_ ?_ ?_
      · rw [own]
        rfl
      · intro earlier before
        cases before
      · rw [Nat.zero_mul]
        rfl

end Commands

end CoreVMcu.Spi
