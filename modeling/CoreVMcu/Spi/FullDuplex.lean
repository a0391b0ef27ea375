import CoreVMcu.Spi.TxRx

/-!
# Full-duplex transfers of the serializer

During a full-duplex transfer the two shift registers walk through the same bits of
their words.  The position of the serializer is the word of the transfer it is at and
the bit of that word; every shared counter is a function of the two.
-/

namespace CoreVMcu.Spi

/-! ## Geometry of a command -/

/-- The words of a command. -/
def wordCount (command : BitVec 32) : Nat := (cdSizeLong command).toNat + 1

/-- The bits of a word. -/
def wordBits (command : BitVec 32) : Nat := (cdWordsize command).toNat + 1

/-- The words that are packed into 32 bits. -/
def perTransfer (command : BitVec 32) : Nat := (wordstransf command).toNat + 1

/-- The 32-bit words that a command consumes and produces. -/
def transferCount (command : BitVec 32) : Nat := wordCount command / perTransfer command

/-- A full-duplex command whose words fit into their places and fill whole transfers. -/
structure Packed (command : BitVec 32) : Prop where
  isFullDupl : spiCmd command = some .fullDupl
  fits : wordBits command ≤ 32 / perTransfer command
  whole : perTransfer command ∣ wordCount command

/-- The place of a bit of a word inside the 32 bits. -/
def bitPlace (command : BitVec 32) (word bit : Nat) : Nat :=
  word % perTransfer command * (32 / perTransfer command) +
    if cdCfgLsb command then bit else wordBits command - 1 - bit

/-- The places of a 32-bit word that are transmitted. -/
def Transmitted (command : BitVec 32) (place : Nat) : Prop :=
  place < 32 ∧ place % (32 / perTransfer command) < wordBits command

section Geometry

variable {command : BitVec 32}

theorem wordstransf_cases (command : BitVec 32) :
    wordstransf command = 0 ∨ wordstransf command = 1 ∨ wordstransf command = 3 := by
  unfold wordstransf
  split <;> simp

theorem perTransfer_cases (command : BitVec 32) :
    perTransfer command = 1 ∨ perTransfer command = 2 ∨ perTransfer command = 4 := by
  rcases wordstransf_cases command with code | code | code <;> simp [perTransfer, code]

theorem perTransfer_pos (command : BitVec 32) : 0 < perTransfer command :=
  Nat.succ_pos _

theorem wordBits_pos (command : BitVec 32) : 0 < wordBits command :=
  Nat.succ_pos _

theorem wordCount_pos (command : BitVec 32) : 0 < wordCount command :=
  Nat.succ_pos _

/-- A transfer begins with the word after the last one of a transfer. -/
theorem begins_transfer_iff (command : BitVec 32) (word : Nat) :
    (word + 1) % perTransfer command = 0 ↔
      word % perTransfer command + 1 = perTransfer command := by
  have ends := Nat.succ_mod_succ_eq_zero_iff (a := word) (b := perTransfer command - 1)
  have positive := perTransfer_pos command
  rw [Nat.sub_add_cancel positive] at ends
  omega

/-- A whole number of transfers ends with a transfer. -/
theorem ends_transfer (whole : perTransfer command ∣ wordCount command) {word : Nat}
    (last : word + 1 = wordCount command) :
    word % perTransfer command + 1 = perTransfer command := by
  rw [← last] at whole
  exact (begins_transfer_iff command word).mp (Nat.mod_eq_zero_of_dvd whole)

/-- Every transmitted place is that of a bit of a word. -/
theorem exists_bitPlace (command : BitVec 32) (word : Nat) {place : Nat}
    (transmitted : Transmitted command place) :
    ∃ other bit, other / perTransfer command = word / perTransfer command ∧
      bit < wordBits command ∧ bitPlace command other bit = place := by
  obtain ⟨inside, inWord⟩ := transmitted
  have positive := perTransfer_pos command
  have split := Nat.div_add_mod' place (32 / perTransfer command)
  have slot : place / (32 / perTransfer command) < perTransfer command := by
    rcases perTransfer_cases command with count | count | count <;> rw [count] <;> omega
  refine ⟨word / perTransfer command * perTransfer command + place / (32 / perTransfer command),
    if cdCfgLsb command then place % (32 / perTransfer command)
    else wordBits command - 1 - place % (32 / perTransfer command), ?_, ?_, ?_⟩
  · rw [Nat.mul_comm, Nat.mul_add_div positive, Nat.div_eq_of_lt slot, Nat.add_zero]
  · split <;> omega
  · rw [bitPlace, Nat.mul_add_mod_self_right, Nat.mod_eq_of_lt slot]
    split <;> omega

/-- The words of a transfer have their places inside 32 bits. -/
theorem Packed.place_bound (packed : Packed command) (word : Nat) :
    word % perTransfer command * (32 / perTransfer command) + wordBits command ≤ 32 := by
  have slot := Nat.mod_lt word (perTransfer_pos command)
  have fits := packed.fits
  generalize word % perTransfer command = index at slot ⊢
  rcases perTransfer_cases command with count | count | count <;> rw [count] at slot fits ⊢ <;>
    omega

end Geometry

/-! ## The position of the serializer -/

/-- A counter that is counted down to zero and stays there. -/
def countedDown (count : BitVec 16) : BitVec 16 := if count = 0 then count else count - 1

theorem toNat_countedDown (count : BitVec 16) : (countedDown count).toNat = count.toNat - 1 := by
  unfold countedDown
  split
  · next zero => rw [zero]; rfl
  · next notZero =>
      have positive : 0 < count.toNat :=
        Nat.pos_of_ne_zero fun zero => notZero (BitVec.eq_of_toNat_eq zero)
      rw [BitVec.toNat_sub_of_le (by rw [BitVec.le_def]; exact positive)]
      rfl

section Packing

variable {command : BitVec 32} {word : Nat} {txRx : TxRx}

/-- The words of a transfer are full with the last one of it. -/
theorem transfDone_eq (packing : txRx.wordtransf = wordstransf command)
    (counted : txRx.counterTransf.toNat = word % perTransfer command) :
    txRx.transfDone = decide (word % perTransfer command + 1 = perTransfer command) := by
  rw [TxRx.transfDone, packing, ← counted, perTransfer]
  rw [Bool.eq_iff_iff, beq_iff_eq, decide_eq_true_iff, ← BitVec.toNat_inj]
  omega

/-- The words of a transfer that are counted with the next one. -/
theorem nextTransf_eq (packing : txRx.wordtransf = wordstransf command)
    (counted : txRx.counterTransf.toNat = word % perTransfer command) :
    txRx.nextTransf.toNat = (word + 1) % perTransfer command := by
  have slot := Nat.mod_lt word (perTransfer_pos command)
  have whole : (word + 1) % perTransfer command =
      (word % perTransfer command + 1) % perTransfer command := by rw [Nat.mod_add_mod]
  rw [TxRx.nextTransf, transfDone_eq packing counted]
  by_cases full : word % perTransfer command + 1 = perTransfer command
  · rw [whole, full, Nat.mod_self, decide_eq_true rfl]
    rfl
  · have more : word % perTransfer command + 1 < perTransfer command :=
      Nat.lt_of_le_of_ne slot full
    have bound : perTransfer command ≤ 4 := (wordstransf command).isLt
    rw [whole, decide_eq_false full, Nat.mod_eq_of_lt more, if_neg (by decide), BitVec.toNat_add,
      counted]
    exact Nat.mod_eq_of_lt (Nat.lt_of_lt_of_le more bound)

end Packing

/-- A cycle of a transfer in which nothing starts, on a single lane. -/
structure Continues (input : TxRxInput) : Prop where
  txStart : input.tx.start = false
  rxStart : input.rx.start = false
  txQpi : input.tx.qpi = false
  rxQpi : input.rx.qpi = false

/-- What stays the same throughout a full-duplex command. -/
structure InTransfer (command : BitVec 32) (txRx : TxRx) : Prop where
  rxState : txRx.rxState = .receive
  isFul : txRx.isFul = true
  lsbfirst : txRx.lsbfirst = cdCfgLsb command
  bitsword : txRx.bitsword = cdWordsize command
  wordtransf : txRx.wordtransf = wordstransf command

/-- The serializer is at a bit of a word of a full-duplex command. -/
structure AtBit (command : BitVec 32) (word bit : Nat) (txRx : TxRx) : Prop
    extends InTransfer command txRx where
  inside : word < wordCount command
  inWord : bit < wordBits command
  txIsLast : txRx.txIsLast = decide (word + 1 = wordCount command)
  rxIsLast : txRx.rxIsLast = decide (word + 1 = wordCount command)
  counterHi : txRx.counterHi.toNat = wordCount command - 2 - word
  counterBits : txRx.counterBits.toNat = bit
  counterTransf : txRx.counterTransf.toNat = word % perTransfer command
  bitOffset :
    txRx.bitOffset.toNat = word % perTransfer command * (32 / perTransfer command) % 32

namespace AtBit

variable {command : BitVec 32} {word bit : Nat} {txRx : TxRx} {input : TxRxInput}

theorem bitsDone (position : AtBit command word bit txRx) :
    txRx.bitsDone = decide (bit + 1 = wordBits command) := by
  rw [TxRx.bitsDone, position.bitsword, ← position.counterBits, wordBits]
  rw [Bool.eq_iff_iff, beq_iff_eq, decide_eq_true_iff, ← BitVec.toNat_inj]
  omega

theorem transfDone (position : AtBit command word bit txRx) :
    txRx.transfDone = decide (word % perTransfer command + 1 = perTransfer command) :=
  transfDone_eq position.wordtransf position.counterTransf

/-- The bit that is driven and the bit that is read. -/
theorem bitIndex (position : AtBit command word bit txRx) (packed : Packed command) :
    txRx.bitIndex.toNat = bitPlace command word bit := by
  have counted := position.counterBits
  have inWord := position.inWord
  have room := packed.place_bound word
  have positive := wordBits_pos command
  have size : (cdWordsize command).toNat = wordBits command - 1 := rfl
  have offset : txRx.bitOffset.toNat =
      word % perTransfer command * (32 / perTransfer command) := by
    rw [position.bitOffset, Nat.mod_eq_of_lt (by omega)]
  unfold TxRx.bitIndex bitPlace
  rw [position.lsbfirst, position.bitsword]
  split
  · rw [BitVec.toNat_add, counted, offset]
    omega
  · rw [BitVec.toNat_sub, BitVec.toNat_add, counted, offset, size]
    omega

/-- The word that is read gets the bit of the line at the place of the driven bit. -/
theorem dataRx (position : AtBit command word bit txRx) (packed : Packed command)
    (continues : Continues input) :
    txRx.dataRx input = setBit txRx.rxShiftReg (bitPlace command word bit) input.sdi.sd1 := by
  rw [TxRx.dataRx, position.bitIndex packed, continues.rxQpi, if_neg Bool.false_ne_true]

/-- The bit of the line that is driven. -/
theorem driven (position : AtBit command word bit txRx) (packed : Packed command)
    (continues : Continues input) (sending : txRx.txState = .send) :
    (txRx.sdoNext input).sd0 = txRx.txShiftReg.getLsbD (bitPlace command word bit) := by
  simp [TxRx.sdoNext, TxRx.drivenLines, TxRx.txIdle, continues.txQpi, sending,
    position.bitIndex packed]

theorem bitsDone_inside (position : AtBit command word bit txRx)
    (more : bit + 1 < wordBits command) : txRx.bitsDone = false := by
  rw [position.bitsDone]
  exact decide_eq_false (Nat.ne_of_lt more)

theorem bitsDone_end (position : AtBit command word bit txRx)
    (ends : bit + 1 = wordBits command) : txRx.bitsDone = true := by
  rw [position.bitsDone]
  exact decide_eq_true ends

/-- The count has come to zero at the last word but one. -/
theorem counterHi_zero (position : AtBit command word bit txRx) :
    txRx.counterHi = 0#16 ↔ wordCount command ≤ word + 2 := by
  rw [← BitVec.toNat_inj, position.counterHi, BitVec.toNat_ofNat, Nat.zero_mod]
  omega

/-- The next word is the last one. -/
theorem nextIsLast (position : AtBit command word bit txRx)
    (more : word + 1 < wordCount command) :
    decide (word + 2 = wordCount command) = decide (txRx.counterHi = 0#16) := by
  rw [decide_eq_decide, position.counterHi_zero]
  omega

/-- The transmitter drives a bit of a word. -/
def bitSignals (txRx : TxRx) : TxSignals :=
  { txRx.txDefaults with
    driving := true, clken := true, mode := .std, sampleBits := true
    counterBits := txRx.nextBits false, sampleTransf := txRx.bitsDone
    counterTransf := if txRx.bitsDone then txRx.nextTransf else txRx.counterTransf }

/-- Inside a word the transmitter goes on with the next bit. -/
theorem txSending_inside (position : AtBit command word bit txRx) (continues : Continues input)
    (more : bit + 1 < wordBits command) : txRx.txSending input = bitSignals txRx := by
  have notDone := position.bitsDone_inside more
  simp only [TxRx.txSending, TxRx.sendMode, continues.txQpi, notDone, Bool.false_and,
    Bool.false_eq_true, if_false, bitSignals]

/-- At the end of a word that is not the last one the transmitter goes on with the
next word, for which it needs new data when the 32 bits are used up. -/
theorem txSending_word (position : AtBit command word bit txRx) (continues : Continues input)
    (ends : bit + 1 = wordBits command) (more : word + 1 < wordCount command) :
    txRx.txSending input =
      let next :=
        { bitSignals txRx with
          isLast := decide (word + 2 = wordCount command)
          sampleHi := decide (txRx.counterHi ≠ 0)
          counterHi := countedDown txRx.counterHi }
      if txRx.transfDone then TxRx.load input next else next := by
  have done := position.bitsDone_end ends
  have notLast : txRx.txIsLast = false := by
    rw [position.txIsLast]
    exact decide_eq_false (Nat.ne_of_lt more)
  rw [position.nextIsLast more]
  by_cases zero : txRx.counterHi = 0#16
  · simp [TxRx.txSending, TxRx.sendMode, continues.txQpi, done, notLast, zero, bitSignals,
      countedDown, TxRx.txDefaults]
  · simp [TxRx.txSending, TxRx.sendMode, continues.txQpi, done, notLast, zero, bitSignals,
      countedDown, TxRx.txDefaults]

/-- At the end of the last word the transmitter is done. -/
theorem txSending_last (position : AtBit command word bit txRx) (continues : Continues input)
    (ends : bit + 1 = wordBits command) (last : word + 1 = wordCount command) :
    txRx.txSending input =
      { bitSignals txRx with isLast := false, done := true, stateNext := .idle } := by
  have done := position.bitsDone_end ends
  have isLast : txRx.txIsLast = true := by
    rw [position.txIsLast]
    exact decide_eq_true last
  have zero : txRx.counterHi = 0#16 := position.counterHi_zero.mpr (by omega)
  simp [TxRx.txSending, TxRx.sendMode, continues.txQpi, continues.txStart, done, isLast, zero,
    bitSignals]

/-- The receiver reads a bit of a word. -/
def readSignals (txRx : TxRx) (input : TxRxInput) : RxSignals :=
  { txRx.rxDefaults with
    mode := .std, clken := true, sampleBits := true, shiftReg := txRx.dataRx input
    counterBits := txRx.nextBits false }

section Receiver

/-- The receiver follows the transmitter. -/
theorem follows (position : AtBit command word bit txRx) (input : TxRxInput) :
    txRx.fullDuplex input = true := by
  rw [TxRx.fullDuplex, position.isFul, Bool.or_true]

/-- While the transmitter waits for data, the receiver stands still. -/
theorem rxReceiving_stands (position : AtBit command word bit txRx)
    (continues : Continues input) (stopped : (txRx.txSignals input).clken = false) :
    txRx.rxReceiving input =
      { txRx.rxDefaults with
        mode := .std, clken := true, sampleBits := true, shiftReg := txRx.dataRx input } := by
  simp [TxRx.rxReceiving, position.follows input, stopped, TxRx.receiveMode, continues.rxQpi]

theorem rxReceiving_inside (position : AtBit command word bit txRx)
    (continues : Continues input) (runs : (txRx.txSignals input).clken = true)
    (more : bit + 1 < wordBits command) : txRx.rxReceiving input = readSignals txRx input := by
  have notDone := position.bitsDone_inside more
  simp [TxRx.rxReceiving, runs, TxRx.receiveMode, continues.rxQpi, notDone, readSignals]

/-- At the end of a word the receiver hands over the 32 bits when they are full. -/
theorem rxReceiving_word (position : AtBit command word bit txRx) (continues : Continues input)
    (runs : (txRx.txSignals input).clken = true) (clocked : txRx.rxClken = true)
    (ends : bit + 1 = wordBits command) (more : word + 1 < wordCount command) :
    txRx.rxReceiving input =
      { readSignals txRx input with
        sampleTransf := true
        counterTransf := txRx.nextTransf
        data := if txRx.transfDone then txRx.dataRx input else 0
        dataValid := txRx.transfDone
        isLast := decide (word + 2 = wordCount command)
        sampleHi := decide (txRx.counterHi ≠ 0)
        counterHi := countedDown txRx.counterHi } := by
  have done := position.bitsDone_end ends
  have notLast : txRx.rxIsLast = false := by
    rw [position.rxIsLast]
    exact decide_eq_false (Nat.ne_of_lt more)
  rw [position.nextIsLast more]
  by_cases zero : txRx.counterHi = 0#16
  · simp [TxRx.rxReceiving, runs, TxRx.receiveMode, continues.rxQpi, done, clocked, notLast,
      readSignals, countedDown, zero, TxRx.rxDefaults]
  · simp [TxRx.rxReceiving, runs, TxRx.receiveMode, continues.rxQpi, done, clocked, notLast,
      readSignals, countedDown, zero, TxRx.rxDefaults]

/-- At the end of the last word the receiver is done. -/
theorem rxReceiving_last (position : AtBit command word bit txRx) (continues : Continues input)
    (runs : (txRx.txSignals input).clken = true) (clocked : txRx.rxClken = true)
    (ends : bit + 1 = wordBits command) (last : word + 1 = wordCount command) :
    txRx.rxReceiving input =
      { readSignals txRx input with
        sampleTransf := true
        counterTransf := txRx.nextTransf
        data := if txRx.transfDone then txRx.dataRx input else 0
        dataValid := txRx.transfDone
        isLast := false
        done := true
        stateNext := .idle } := by
  have done := position.bitsDone_end ends
  have isLast : txRx.rxIsLast = true := by
    rw [position.rxIsLast]
    exact decide_eq_true last
  have zero : txRx.counterHi = 0#16 := position.counterHi_zero.mpr (by omega)
  simp [TxRx.rxReceiving, runs, TxRx.receiveMode, continues.rxQpi, continues.rxStart, done,
    clocked, isLast, zero, readSignals]

end Receiver

theorem txSignals_send (sending : txRx.txState = .send) (input : TxRxInput) :
    txRx.txSignals input = txRx.txSending input := by
  rw [TxRx.txSignals, sending]

theorem txSignals_wait (waiting : txRx.txState = .waitData) (input : TxRxInput) :
    txRx.txSignals input = txRx.txWaitData input := by
  rw [TxRx.txSignals, waiting]

theorem rxSignals_receive (position : AtBit command word bit txRx) (input : TxRxInput) :
    txRx.rxSignals input = txRx.rxReceiving input := by
  rw [TxRx.rxSignals, position.rxState]

/-- What is seen of a cycle of a transfer from outside. -/
structure Seen (txRx : TxRx) (input : TxRxInput) (dataReady dataValid done : Bool) : Prop where
  dataReady : (txRx.txSignals input).dataReady = dataReady
  txDone : (txRx.txSignals input).done = done
  rxDone : (txRx.rxSignals input).done = done
  dataValid : (txRx.rxSignals input).dataValid = dataValid

/-- The setup of a transfer is kept while nothing is sampled. -/
theorem step_inTransfer (inTransfer : InTransfer command txRx) (continues : Continues input)
    (txKeeps : (txRx.txSignals input).sampleIn = false)
    (rxKeeps : (txRx.rxSignals input).sampleIn = false)
    (receives : (txRx.rxSignals input).stateNext = txRx.rxState)
    (busy : (txRx.txSignals input).idle = false) : InTransfer command (txRx.step input) := by
  have kept : ∀ {Field : Type} (field : TransferSetup → Field) (value : Field),
      txRx.sampled input field value = value := by
    intro Field field value
    simp [TxRx.sampled, txKeeps, rxKeeps]
  constructor
  · exact receives.trans inTransfer.rxState
  · simp [TxRx.step, continues.txStart, busy, inTransfer.isFul]
  · exact (kept ..).trans inTransfer.lsbfirst
  · exact (kept ..).trans inTransfer.bitsword
  · exact (kept ..).trans inTransfer.wordtransf

/-- The counter of words in a cycle in which no transfer starts. -/
theorem step_counterHi (txKeeps : (txRx.txSignals input).sampleIn = false)
    (rxKeeps : (txRx.rxSignals input).sampleIn = false) :
    (txRx.step input).counterHi = txRx.countedHi input := by
  simp [TxRx.step, TxRx.sampled, txKeeps, rxKeeps]

/-- The offset of a word in a cycle in which no transfer starts. -/
theorem step_bitOffset (continues : Continues input)
    (together : (txRx.rxSignals input).sampleTransf = (txRx.txSignals input).sampleTransf) :
    (txRx.step input).bitOffset =
      if (txRx.txSignals input).sampleTransf then txRx.bitOffset + txRx.bitOffsetAdd
      else txRx.bitOffset := by
  simp [TxRx.step, continues.txStart, continues.rxStart, together]

/-- A cycle in which the transmitter waits. -/
structure WaitCycle (command : BitVec 32) (word bit : Nat) (txRx : TxRx) (input : TxRxInput) :
    Prop where
  seen : Seen txRx input input.txDataValid false false
  position : AtBit command word bit (txRx.step input)
  txState : (txRx.step input).txState = if input.txDataValid then .send else .waitData
  txShiftReg : input.txDataValid = true → (txRx.step input).txShiftReg = input.txData
  rxClken : (txRx.step input).rxClken = true

theorem waitCycle (position : AtBit command word bit txRx) (continues : Continues input)
    (waiting : txRx.txState = .waitData) : WaitCycle command word bit txRx input := by
  have tx : txRx.txSignals input =
      { txRx.txDefaults with
        driving := true, mode := .std, dataReady := input.txDataValid
        stateNext := if input.txDataValid then .send else .waitData
        shiftReg := if input.txDataValid then input.txData else txRx.txShiftReg } := by
    rw [txSignals_wait waiting, TxRx.txWaitData, TxRx.sendMode, continues.txQpi]
    cases input.txDataValid <;> simp [TxRx.txDefaults, waiting]
  have rx := (position.rxSignals_receive input).trans
    (position.rxReceiving_stands continues (by rw [tx]; rfl))
  refine
    { seen := ⟨by rw [tx], by rw [tx]; rfl, by rw [rx]; rfl, by rw [rx]; rfl⟩
      position :=
        { toInTransfer := step_inTransfer position.toInTransfer continues (by rw [tx]; rfl)
            (by rw [rx]; rfl) (by rw [rx]; rfl) (by rw [tx]; rfl)
          inside := position.inside
          inWord := position.inWord
          txIsLast := ?_, rxIsLast := ?_, counterHi := ?_, counterBits := ?_, counterTransf := ?_
          bitOffset := ?_ }
      txState := ?_, txShiftReg := ?_, rxClken := ?_ }
  · rw [← position.txIsLast, TxRx.step, tx]; rfl
  · rw [← position.rxIsLast, TxRx.step, rx]; rfl
  · rw [← position.counterHi, step_counterHi (by rw [tx]; rfl) (by rw [rx]; rfl), TxRx.countedHi,
      tx, rx]; rfl
  · rw [← position.counterBits, TxRx.step, tx, rx]; rfl
  · rw [← position.counterTransf, TxRx.step, tx, rx]; rfl
  · rw [← position.bitOffset, step_bitOffset continues (by rw [tx, rx]; rfl), tx]; rfl
  · rw [TxRx.step, tx]
  · intro valid
    rw [TxRx.step, tx]
    simp [valid]
  · rw [TxRx.step, rx]

/-- A cycle in which a bit inside a word is sent. -/
structure InsideCycle (command : BitVec 32) (word bit : Nat) (txRx : TxRx) (input : TxRxInput) :
    Prop where
  seen : Seen txRx input false false false
  position : AtBit command word (bit + 1) (txRx.step input)
  txState : (txRx.step input).txState = .send
  txShiftReg : (txRx.step input).txShiftReg = txRx.txShiftReg
  rxShiftReg : (txRx.step input).rxShiftReg = txRx.dataRx input
  rxClken : (txRx.step input).rxClken = true

theorem insideCycle (position : AtBit command word bit txRx) (continues : Continues input)
    (sending : txRx.txState = .send) (more : bit + 1 < wordBits command) :
    InsideCycle command word bit txRx input := by
  have tx := (txSignals_send sending input).trans (position.txSending_inside continues more)
  have rx := (position.rxSignals_receive input).trans
    (position.rxReceiving_inside continues (by rw [tx]; rfl) more)
  have notDone := position.bitsDone_inside more
  have noTransf : (bitSignals txRx).sampleTransf = false := notDone
  have next : txRx.nextBits false = txRx.counterBits + 1 := by
    rw [TxRx.nextBits, notDone]
    rfl
  refine
    { seen := ⟨by rw [tx]; rfl, by rw [tx]; rfl, by rw [rx]; rfl, by rw [rx]; rfl⟩
      position :=
        { toInTransfer := step_inTransfer position.toInTransfer continues (by rw [tx]; rfl)
            (by rw [rx]; rfl) (by rw [rx]; rfl) (by rw [tx]; rfl)
          inside := position.inside
          inWord := more
          txIsLast := ?_, rxIsLast := ?_, counterHi := ?_, counterBits := ?_, counterTransf := ?_
          bitOffset := ?_ }
      txState := ?_, txShiftReg := ?_, rxShiftReg := ?_, rxClken := ?_ }
  · rw [← position.txIsLast, TxRx.step, tx]; rfl
  · rw [← position.rxIsLast, TxRx.step, rx]; rfl
  · rw [← position.counterHi, step_counterHi (by rw [tx]; rfl) (by rw [rx]; rfl), TxRx.countedHi,
      tx, rx]; rfl
  · have counted := position.counterBits
    have room : wordBits command ≤ 32 := (cdWordsize command).isLt
    rw [TxRx.step, tx]
    change (txRx.nextBits false).toNat = bit + 1
    rw [next, BitVec.toNat_add, counted]
    exact Nat.mod_eq_of_lt (Nat.lt_of_lt_of_le more room)
  · rw [← position.counterTransf, TxRx.step, tx, rx]
    simp only [noTransf]
    rfl
  · rw [← position.bitOffset, step_bitOffset continues (by rw [tx, rx, noTransf]; rfl), tx,
      noTransf]; rfl
  · rw [TxRx.step, tx]
    exact sending
  · rw [TxRx.step, tx]; rfl
  · rw [TxRx.step, rx]; rfl
  · rw [TxRx.step, rx]; rfl

/-- The counter of the words of a transfer at the next word. -/
theorem nextTransf (position : AtBit command word bit txRx) :
    txRx.nextTransf.toNat = (word + 1) % perTransfer command :=
  nextTransf_eq position.wordtransf position.counterTransf

/-- The offset of the next word. -/
theorem nextOffset (position : AtBit command word bit txRx) :
    (txRx.bitOffset + txRx.bitOffsetAdd).toNat =
      (word + 1) % perTransfer command * (32 / perTransfer command) % 32 := by
  have distance : txRx.bitOffsetAdd.toNat = 32 / perTransfer command % 32 := by
    rw [TxRx.bitOffsetAdd, position.wordtransf]
    rcases wordstransf_cases command with code | code | code <;> simp [perTransfer, code]
  rw [BitVec.toNat_add, position.bitOffset, distance]
  rcases perTransfer_cases command with count | count | count <;> rw [count] <;> omega

/-- A cycle in which the last bit of a word is sent that is not the last word. -/
structure WordCycle (command : BitVec 32) (word : Nat) (txRx : TxRx) (input : TxRxInput) :
    Prop where
  seen : Seen txRx input (txRx.transfDone && input.txDataValid) txRx.transfDone false
  data : txRx.transfDone = true → (txRx.rxSignals input).data = txRx.dataRx input
  position : AtBit command (word + 1) 0 (txRx.step input)
  txState : (txRx.step input).txState =
    if txRx.transfDone && !input.txDataValid then .waitData else .send
  txShiftReg : (txRx.step input).txShiftReg =
    if txRx.transfDone && input.txDataValid then input.txData else txRx.txShiftReg
  rxShiftReg : (txRx.step input).rxShiftReg = txRx.dataRx input
  rxClken : (txRx.step input).rxClken = true

theorem wordCycle (position : AtBit command word bit txRx) (continues : Continues input)
    (sending : txRx.txState = .send) (clocked : txRx.rxClken = true)
    (ends : bit + 1 = wordBits command) (more : word + 1 < wordCount command) :
    WordCycle command word txRx input := by
  have done := position.bitsDone_end ends
  have next : txRx.nextBits false = 0 := by
    rw [TxRx.nextBits, done]
    rfl
  have tx : txRx.txSignals input =
      { bitSignals txRx with
        isLast := decide (word + 2 = wordCount command)
        sampleHi := decide (txRx.counterHi ≠ 0)
        counterHi := countedDown txRx.counterHi
        dataReady := txRx.transfDone && input.txDataValid
        stateNext := if txRx.transfDone && !input.txDataValid then .waitData else .send
        shiftReg :=
          if txRx.transfDone && input.txDataValid then input.txData else txRx.txShiftReg } := by
    rw [txSignals_send sending, position.txSending_word continues ends more]
    cases txRx.transfDone <;> cases valid : input.txDataValid <;>
      simp [TxRx.load, bitSignals, TxRx.txDefaults, sending, valid]
  have rx := (position.rxSignals_receive input).trans
    (position.rxReceiving_word continues (by rw [tx]; rfl) clocked ends more)
  refine
    { seen := ⟨by rw [tx], by rw [tx]; rfl, by rw [rx]; rfl, by rw [rx]⟩
      data := ?_
      position :=
        { toInTransfer := step_inTransfer position.toInTransfer continues (by rw [tx]; rfl)
            (by rw [rx]; rfl) (by rw [rx]; rfl) (by rw [tx]; rfl)
          inside := more
          inWord := wordBits_pos command
          txIsLast := ?_, rxIsLast := ?_, counterHi := ?_, counterBits := ?_, counterTransf := ?_
          bitOffset := ?_ }
      txState := ?_, txShiftReg := ?_, rxShiftReg := ?_, rxClken := ?_ }
  · intro full
    rw [rx]
    simp only [full, if_true]
  · rw [TxRx.step, tx]
  · rw [TxRx.step, rx]
  · have counted : txRx.countedHi input = countedDown txRx.counterHi := by
      rw [TxRx.countedHi, tx, rx]
      by_cases zero : txRx.counterHi = 0#16 <;> simp [zero, countedDown]
    rw [step_counterHi (by rw [tx]; rfl) (by rw [rx]; rfl), counted, toNat_countedDown,
      position.counterHi]
    omega
  · rw [TxRx.step, tx]
    change (txRx.nextBits false).toNat = 0
    rw [next]
    rfl
  · rw [← position.nextTransf, TxRx.step, tx]
    simp [bitSignals, done]
  · have counts : (txRx.txSignals input).sampleTransf = true := by
      rw [tx]
      exact done
    rw [← position.nextOffset, step_bitOffset continues (by rw [counts, rx]), counts]; rfl
  · rw [TxRx.step, tx]
  · rw [TxRx.step, tx]
  · rw [TxRx.step, rx]; rfl
  · rw [TxRx.step, rx]; rfl

/-- The cycle in which the last bit of the last word is sent. -/
structure LastCycle (txRx : TxRx) (input : TxRxInput) : Prop where
  seen : Seen txRx input false true true
  data : (txRx.rxSignals input).data = txRx.dataRx input
  txState : (txRx.step input).txState = .idle
  rxState : (txRx.step input).rxState = .idle
  counterTransf : (txRx.step input).counterTransf = 0

theorem lastCycle (position : AtBit command word bit txRx)
    (whole : perTransfer command ∣ wordCount command) (continues : Continues input)
    (sending : txRx.txState = .send) (clocked : txRx.rxClken = true)
    (ends : bit + 1 = wordBits command) (last : word + 1 = wordCount command) :
    LastCycle txRx input := by
  have tx := (txSignals_send sending input).trans (position.txSending_last continues ends last)
  have rx := (position.rxSignals_receive input).trans
    (position.rxReceiving_last continues (by rw [tx]; rfl) clocked ends last)
  have full : txRx.transfDone = true := by
    rw [position.transfDone]
    exact decide_eq_true (ends_transfer whole last)
  refine
    { seen := ⟨by rw [tx]; rfl, by rw [tx], by rw [rx], by rw [rx, full]⟩
      data := ?_, txState := ?_, rxState := ?_, counterTransf := ?_ }
  · rw [rx]
    simp only [full, if_true]
  · rw [TxRx.step, tx]
  · rw [TxRx.step, rx]
  · rw [TxRx.step, tx]
    simp [bitSignals, position.bitsDone_end ends, TxRx.nextTransf, full]

end AtBit

/-- Between the transfers of packed commands. -/
structure AtRest (txRx : TxRx) : Prop where
  txState : txRx.txState = .idle
  rxState : txRx.rxState = .idle
  counterTransf : txRx.counterTransf = 0

/-- Nothing starts. -/
structure Quiet (input : TxRxInput) : Prop where
  txStart : input.tx.start = false
  rxStart : input.rx.start = false

section Rest

variable {command : BitVec 32} {txRx : TxRx} {input : TxRxInput}

theorem AtRest.seen (rest : AtRest txRx) (quiet : Quiet input) :
    AtBit.Seen txRx input false false false := by
  constructor <;>
    simp [TxRx.txSignals, TxRx.rxSignals, rest.txState, rest.rxState, TxRx.txWaiting,
      TxRx.rxWaiting, quiet.txStart, quiet.rxStart, TxRx.txDefaults, TxRx.rxDefaults]

theorem AtRest.step (rest : AtRest txRx) (quiet : Quiet input) : AtRest (txRx.step input) := by
  constructor <;>
    simp [TxRx.step, TxRx.txSignals, TxRx.rxSignals, rest.txState, rest.rxState,
      rest.counterTransf, TxRx.txWaiting, TxRx.rxWaiting, quiet.txStart, quiet.rxStart,
      TxRx.txDefaults, TxRx.rxDefaults]

/-- The setup of a full-duplex command. -/
def fullDuplSetup (command : BitVec 32) : TransferSetup :=
  { start := true, size := cdSizeLong command, bitsword := cdWordsize command
    wordtransf := wordstransf command, lsbfirst := cdCfgLsb command, qpi := false }

/-- A cycle in which a full-duplex command is set up, without data. -/
structure Starts (command : BitVec 32) (input : TxRxInput) : Prop where
  tx : input.tx = fullDuplSetup command
  rx : input.rx = fullDuplSetup command
  noData : input.txDataValid = false

theorem sizeCount_toNat (command : BitVec 32) :
    (sizeCount (cdSizeLong command)).toNat = wordCount command - 2 := by
  have counted := toNat_countedDown (cdSizeLong command)
  have same : sizeCount (cdSizeLong command) = countedDown (cdSizeLong command) := by
    unfold sizeCount countedDown
    split
    · next zero => exact zero.symm
    · rfl
  rw [same, counted]
  rfl

/-- What is seen in the cycle in which a command starts. -/
theorem AtRest.seen_start (rest : AtRest txRx) (starts : Starts command input) :
    AtBit.Seen txRx input false false false := by
  constructor <;>
    simp [TxRx.txSignals, TxRx.rxSignals, rest.txState, rest.rxState, TxRx.txWaiting,
      TxRx.rxWaiting, TxRx.load, starts.tx, starts.rx, starts.noData, fullDuplSetup,
      TxRx.txDefaults, TxRx.rxDefaults]

/-- A command starts at its first bit, and waits for data. -/
theorem AtRest.step_start (rest : AtRest txRx) (starts : Starts command input) :
    AtBit command 0 0 (txRx.step input) ∧ (txRx.step input).txState = .waitData := by
  have tx : txRx.txSignals input =
      { txRx.txDefaults with
        counterBits := 0, sampleBits := true, isLast := decide (cdSizeLong command = 0)
        driving := true, sampleIn := true, stateNext := .waitData } := by
    simp [TxRx.txSignals, rest.txState, TxRx.txWaiting, TxRx.load, starts.tx, starts.noData,
      fullDuplSetup, firstBit]
  have rx : txRx.rxSignals input =
      { txRx.rxDefaults with
        mode := .std, sampleIn := true, stateNext := .receive, counterBits := 0
        sampleBits := true, isLast := decide (cdSizeLong command = 0) } := by
    simp [TxRx.rxSignals, rest.rxState, TxRx.rxWaiting, starts.rx, fullDuplSetup, firstBit,
      TxRx.receiveMode]
  have isLast : decide (cdSizeLong command = 0) = decide (0 + 1 = wordCount command) := by
    rw [decide_eq_decide, ← BitVec.toNat_inj]
    change (cdSizeLong command).toNat = 0 ↔ 0 + 1 = (cdSizeLong command).toNat + 1
    omega
  have sampled : ∀ {Field : Type} (field : TransferSetup → Field) (value : Field),
      txRx.sampled input field value = field (fullDuplSetup command) := by
    intro Field field value
    rw [TxRx.sampled, tx, if_pos rfl, starts.tx]
  refine ⟨⟨⟨?_, ?_, ?_, ?_, ?_⟩, wordCount_pos command, wordBits_pos command, ?_, ?_, ?_, ?_, ?_,
    ?_⟩, ?_⟩
  · rw [TxRx.step, rx]
  · simp [TxRx.step, starts.tx, starts.rx, fullDuplSetup]
  · exact sampled ..
  · exact sampled ..
  · exact sampled ..
  · rw [← isLast, TxRx.step, tx]
  · rw [← isLast, TxRx.step, rx]
  · rw [Nat.sub_zero, ← sizeCount_toNat]
    exact congrArg BitVec.toNat (sampled (fun setup => sizeCount setup.size) _)
  · rw [TxRx.step, tx]; rfl
  · rw [Nat.zero_mod, TxRx.step, tx, rx]
    exact congrArg BitVec.toNat rest.counterTransf
  · simp [TxRx.step, starts.tx, fullDuplSetup]
  · rw [TxRx.step, tx]

end Rest

end CoreVMcu.Spi
