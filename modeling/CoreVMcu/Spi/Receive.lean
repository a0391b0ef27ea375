import CoreVMcu.Spi.TransmitHistory

/-!
# A transfer read from the line

A receiver without a transmitter clocks the line in every cycle and writes the bits of a
clock to their places in the shift register.  The first cycle of a transfer does not count
as the last clock of a word, since the clock of the cycle before is looked at there.
-/

namespace CoreVMcu.Spi

open Clocked

/-! ## The bits that are read -/

/-- The line that a lane is read from. -/
def DataLines.lane (lines : DataLines) (qpi : Bool) (lane : Nat) : Bool :=
  if qpi then
    match lane with
    | 0 => lines.sd0
    | 1 => lines.sd1
    | 2 => lines.sd2
    | _ => lines.sd3
  else lines.sd1

/-- A cycle of a transfer that only receives. -/
structure Hears (setup : TransferSetup) (input : TxRxInput) : Prop where
  txStart : input.tx.start = false
  rxStart : input.rx.start = false
  rxQpi : input.rx.qpi = setup.qpi

/-- The receiver at a clock of a word. -/
structure ReceivesAt (setup : TransferSetup) (first : BitVec 2) (word clock : Nat) (txRx : TxRx) :
    Prop extends WalksAt setup first word clock txRx where
  txState : txRx.txState = .idle
  rxState : txRx.rxState = .receive
  isFul : txRx.isFul = false
  isLast : txRx.rxIsLast = decide (word + 1 = setup.wordCount)
  clocked : txRx.rxClken = true ∨ clock + 1 < setup.wordClocks

section Cycle

variable {setup : TransferSetup} {first : BitVec 2} {word clock : Nat} {txRx : TxRx}
  {input : TxRxInput}

theorem rxCounts_alone (isFul : txRx.isFul = false) (hears : Hears setup input) :
    txRx.rxCounts input = true := by
  rw [TxRx.rxCounts, TxRx.fullDuplex, isFul, hears.txStart]
  rfl

/-- A receiver without a transmitter clocks the line. -/
theorem clken_receiving (rxState : txRx.rxState = .receive) (isFul : txRx.isFul = false)
    (hears : Hears setup input) : txRx.clken input = true := by
  rw [TxRx.clken, TxRx.fullDuplex, isFul, hears.txStart, Bool.false_and, Bool.or_false,
    if_neg Bool.false_ne_true, rxSignals_receiving rxState hears.rxStart]
  exact Bool.or_true _

/-- A cycle of a receiver without a transmitter. -/
theorem step_receiving (txState : txRx.txState = .idle) (rxState : txRx.rxState = .receive)
    (isFul : txRx.isFul = false) (hears : Hears setup input) :
    (txRx.rxEndsWord input = false → CountsClock txRx (txRx.step input) setup.qpi) ∧
      (txRx.rxEndsWord input = true → CountsWord txRx (txRx.step input) setup.qpi) ∧
        (txRx.step input).txState = .idle ∧ (txRx.step input).isFul = false ∧
          (txRx.step input).rxClken = true := by
  have tx := txSignals_resting txState hears.txStart
  have rx := rxSignals_receiving rxState hears.rxStart
  have counted := rxCounts_alone isFul hears
  rw [counted, if_pos rfl, hears.rxQpi] at rx
  have kept : ∀ {Field : Type} (field : TransferSetup → Field) (value : Field),
      txRx.sampled input field value = value := by
    intro Field field value
    rw [TxRx.sampled, tx, rx]
    rfl
  have keeps : KeepsSetup txRx (txRx.step input) := ⟨kept .., kept .., kept ..⟩
  have bits : (txRx.step input).counterBits = txRx.nextBits setup.qpi := by
    change (if (txRx.txSignals input).sampleBits then _
      else if (txRx.rxSignals input).sampleBits then (txRx.rxSignals input).counterBits
        else _) = _
    rw [tx, rx]
    rfl
  have transf : (txRx.step input).counterTransf =
      if txRx.rxEndsWord input then txRx.nextTransf else txRx.counterTransf := by
    change (if (txRx.txSignals input).sampleTransf then _
      else if (txRx.rxSignals input).sampleTransf then (txRx.rxSignals input).counterTransf
        else _) = _
    rw [tx, rx]
    cases txRx.rxEndsWord input <;> rfl
  have offset : (txRx.step input).bitOffset =
      if txRx.rxEndsWord input then txRx.bitOffset + txRx.bitOffsetAdd else txRx.bitOffset := by
    change (if input.tx.start || input.rx.start then _
      else if (txRx.txSignals input).sampleTransf || (txRx.rxSignals input).sampleTransf then _
        else _) = _
    rw [hears.txStart, hears.rxStart, tx, rx]
    rfl
  have hi : (txRx.step input).counterHi =
      if txRx.rxEndsWord input then countedDown txRx.counterHi else txRx.counterHi := by
    have counts : (txRx.step input).counterHi = txRx.countedHi input :=
      kept (fun given => sizeCount given.size) _
    rw [counts, TxRx.countedHi, tx, rx]
    cases txRx.rxEndsWord input with
    | false => rfl
    | true =>
        cases zero : txRx.counterHi == 0 with
        | true =>
            rw [beq_iff_eq.mp zero]
            rfl
        | false => rfl
  refine ⟨?_, ?_, ?_, ?_, ?_⟩
  · intro inside
    rw [inside] at transf offset hi
    exact
      { keeps with
        counterHi := hi, counterBits := bits, counterTransf := transf, bitOffset := offset }
  · intro ends
    rw [ends] at transf offset hi
    exact
      { keeps with
        counterHi := hi, counterBits := bits, counterTransf := transf, bitOffset := offset }
  · change (txRx.txSignals input).stateNext = .idle
    rw [tx]
    exact txState
  · change (if input.tx.start && input.rx.start then true
      else if (txRx.txSignals input).idle && (txRx.rxSignals input).idle then false
        else txRx.isFul) = false
    rw [hears.txStart, tx, rx, isFul]
    rfl
  · change (txRx.rxSignals input).clken = true
    rw [rx]

/-- A word ends with its last clock. -/
theorem ReceivesAt.rxEndsWord (position : ReceivesAt setup first word clock txRx)
    (whole : setup.lanes ∣ setup.wordBits) (hears : Hears setup input) :
    txRx.rxEndsWord input = decide (clock + 1 = setup.wordClocks) := by
  rw [TxRx.rxEndsWord, rxCounts_alone position.isFul hears, Bool.true_and, position.bitsDone whole]
  rcases position.clocked with clocked | more
  · rw [clocked, Bool.true_and]
  · rw [decide_eq_false (Nat.ne_of_lt more), Bool.and_false]

/-- A clock inside a word. -/
theorem ReceivesAt.step_inside (position : ReceivesAt setup first word clock txRx)
    (whole : setup.lanes ∣ setup.wordBits) (hears : Hears setup input)
    (more : clock + 1 < setup.wordClocks) :
    ReceivesAt setup first word (clock + 1) (txRx.step input) ∧
      (txRx.rxSignals input).done = false ∧ (txRx.rxSignals input).dataValid = false := by
  have ends := position.rxEndsWord whole hears
  rw [decide_eq_false (Nat.ne_of_lt more)] at ends
  obtain ⟨counts, -, txNext, fulNext, clocked⟩ :=
    step_receiving position.txState position.rxState position.isFul hears
  have rx := rxSignals_receiving position.rxState hears.rxStart
  rw [ends] at rx
  refine ⟨⟨position.next_clock whole more (counts ends), txNext, ?_, fulNext, ?_, .inl clocked⟩,
    ?_, ?_⟩
  · change (txRx.rxSignals input).stateNext = .receive
    rw [rx]
    rfl
  · rw [← position.isLast]
    change (txRx.rxSignals input).isLast = _
    rw [rx]
    rfl
  · rw [rx]
    rfl
  · rw [rx]
    rfl

/-- The last clock of a word that another one follows. -/
theorem ReceivesAt.step_word (position : ReceivesAt setup first word clock txRx)
    (whole : setup.lanes ∣ setup.wordBits) (packs : setup.Packs) (hears : Hears setup input)
    (ends : clock + 1 = setup.wordClocks) (more : word + 1 < setup.wordCount) :
    ReceivesAt setup first (word + 1) 0 (txRx.step input) ∧
      (txRx.rxSignals input).done = false := by
  have ended := position.rxEndsWord whole hears
  rw [decide_eq_true ends] at ended
  obtain ⟨-, counts, txNext, fulNext, clocked⟩ :=
    step_receiving position.txState position.rxState position.isFul hears
  have rx := rxSignals_receiving position.rxState hears.rxStart
  have notLast : txRx.rxIsLast = false := by
    rw [position.isLast]
    exact decide_eq_false (Nat.ne_of_lt more)
  rw [ended, Bool.true_and, position.counterHi_zero, notLast, Bool.and_false] at rx
  refine ⟨⟨position.next_word whole packs ends more (counts ended), txNext, ?_, fulNext, ?_,
    .inl clocked⟩, ?_⟩
  · change (txRx.rxSignals input).stateNext = .receive
    rw [rx]
    rfl
  · change (txRx.rxSignals input).isLast = _
    rw [rx]
    change (if decide (setup.wordCount ≤ word + 2) = true then true else false) = _
    rw [Bool.if_true_left, Bool.or_false, Bool.decide_eq_true, decide_eq_decide]
    omega
  · rw [rx]

/-- The last clock of the last word. -/
theorem ReceivesAt.step_last (position : ReceivesAt setup first word clock txRx)
    (whole : setup.lanes ∣ setup.wordBits) (hears : Hears setup input)
    (ends : clock + 1 = setup.wordClocks) (last : word + 1 = setup.wordCount) :
    (txRx.rxSignals input).done = true := by
  have ended := position.rxEndsWord whole hears
  rw [decide_eq_true ends] at ended
  have rx := rxSignals_receiving position.rxState hears.rxStart
  rw [ended, Bool.true_and, position.counterHi_zero, position.isLast, decide_eq_true last,
    decide_eq_true (by omega)] at rx
  rw [rx]
  rfl

/-- The data word that the receiver hands over. -/
def TxRx.wordGiven (txRx : TxRx) (input : TxRxInput) : List (BitVec 32) :=
  if (txRx.rxSignals input).dataValid then [(txRx.rxSignals input).data] else []

/-- A data word is handed over with the last word that is counted in it. -/
theorem ReceivesAt.wordGiven (position : ReceivesAt setup first word clock txRx)
    (whole : setup.lanes ∣ setup.wordBits) (hears : Hears setup input) :
    txRx.wordGiven input =
      if clock + 1 = setup.wordClocks ∧ setup.transfAt first word = setup.wordtransf then
        [txRx.dataRx input]
      else [] := by
  rw [TxRx.wordGiven, rxSignals_receiving position.rxState hears.rxStart,
    position.rxEndsWord whole hears, position.transfDone, ← Bool.decide_and]
  simp only [decide_eq_true_eq]
  split <;> rfl

/-- What the receiver drives when a transfer starts. -/
theorem rxSignals_start (rests : txRx.rxState = .idle) (start : input.rx.start = true) :
    txRx.rxSignals input =
      { txRx.rxDefaults with
        mode := TxRx.receiveMode input, sampleIn := true, stateNext := .receive
        counterBits := firstBit input.rx.qpi, sampleBits := true
        isLast := decide (input.rx.size = 0) } := by
  rw [TxRx.rxSignals, rests]
  change txRx.rxWaiting input = _
  rw [TxRx.rxWaiting, if_pos start]

/-- The serializer when a transfer that only receives has started. -/
structure HearsAt (setup : TransferSetup) (first : BitVec 2) (txRx : TxRx) : Prop
    extends StartsAt setup first txRx where
  txState : txRx.txState = .idle
  rxState : txRx.rxState = .receive
  isLast : txRx.rxIsLast = decide (0 + 1 = setup.wordCount)

theorem step_hearsAt (txRests : txRx.txState = .idle) (rxRests : txRx.rxState = .idle)
    (txQuiet : input.tx.start = false) (start : input.rx = setup) (starts : setup.start = true) :
    HearsAt setup txRx.counterTransf (txRx.step input) ∧ (txRx.step input).rxClken = false ∧
      (txRx.step input).isFul = txRx.isFul ∧ (txRx.step input).rxShiftReg = txRx.rxShiftReg := by
  have rxStart : input.rx.start = true := by rw [start, starts]
  have tx := txSignals_resting txRests txQuiet
  have rx := rxSignals_start rxRests rxStart
  have sampled : ∀ {Field : Type} (field : TransferSetup → Field) (value : Field),
      txRx.sampled input field value = field setup := by
    intro Field field value
    rw [TxRx.sampled, tx, rx, start]
    rfl
  refine ⟨⟨⟨sampled .., sampled .., sampled .., ?_, ?_, ?_, ?_⟩, ?_, ?_, ?_⟩, ?_, ?_, ?_⟩
  · rw [← sizeCount_eq]
    exact congrArg BitVec.toNat (sampled (fun given => sizeCount given.size) _)
  · change (if (txRx.txSignals input).sampleBits then _
      else if (txRx.rxSignals input).sampleBits then (txRx.rxSignals input).counterBits
        else _) = _
    rw [tx, rx, start]
    rfl
  · change (if (txRx.txSignals input).sampleTransf then _
      else if (txRx.rxSignals input).sampleTransf then _ else _) = _
    rw [tx, rx]
    rfl
  · change (if input.tx.start || input.rx.start then (0 : BitVec 5) else _) = _
    rw [rxStart, Bool.or_true]
    rfl
  · change (txRx.txSignals input).stateNext = .idle
    rw [tx]
    exact txRests
  · change (txRx.rxSignals input).stateNext = .receive
    rw [rx]
  · change (txRx.rxSignals input).isLast = _
    rw [rx, start]
    change decide (setup.size = 0) = _
    rw [decide_eq_decide, ← BitVec.toNat_inj, TransferSetup.wordCount]
    change setup.size.toNat = 0 ↔ _
    omega
  · change (txRx.rxSignals input).clken = false
    rw [rx]
    rfl
  · change (if input.tx.start && input.rx.start then true
      else if (txRx.txSignals input).idle && (txRx.rxSignals input).idle then false
        else txRx.isFul) = _
    rw [txQuiet, tx, rx]
    rfl
  · change (txRx.rxSignals input).shiftReg = _
    rw [rx]
    rfl

/-- A transfer starts at the first clock of its first word. -/
theorem HearsAt.receives (starts : HearsAt setup first txRx)
    (whole : setup.lanes ∣ setup.wordBits) (isFul : txRx.isFul = false)
    (clocked : txRx.rxClken = true ∨ 0 + 1 < setup.wordClocks) :
    ReceivesAt setup first 0 0 txRx where
  toWalksAt := starts.walks whole
  txState := starts.txState
  rxState := starts.rxState
  isFul := isFul
  isLast := starts.isLast
  clocked := clocked

/-- When a word is a single clock, the first clock of a transfer does not count. -/
theorem HearsAt.step_single (starts : HearsAt setup first txRx)
    (whole : setup.lanes ∣ setup.wordBits) (isFul : txRx.isFul = false)
    (stopped : txRx.rxClken = false) (single : setup.wordClocks = 1) (hears : Hears setup input) :
    ReceivesAt setup first 0 0 (txRx.step input) ∧ (txRx.rxSignals input).done = false := by
  have walks := starts.walks whole
  have ends : txRx.rxEndsWord input = false := by
    rw [TxRx.rxEndsWord, stopped, Bool.false_and, Bool.and_false]
  have rx := rxSignals_receiving starts.rxState hears.rxStart
  rw [ends] at rx
  obtain ⟨counts, -, txNext, fulNext, clocked⟩ :=
    step_receiving starts.txState starts.rxState isFul hears
  have counts := counts ends
  have again : HearsAt setup first (txRx.step input) := by
    refine ⟨⟨counts.lsbfirst.trans starts.lsbfirst, counts.bitsword.trans starts.bitsword,
      counts.wordtransf.trans starts.wordtransf,
      (congrArg BitVec.toNat counts.counterHi).trans starts.counterHi, ?_,
      counts.counterTransf.trans starts.counterTransf, counts.bitOffset.trans starts.bitOffset⟩,
      txNext, ?_, ?_⟩
    · rw [counts.counterBits, TxRx.nextBits, walks.bitsDone whole, single]
      rfl
    · change (txRx.rxSignals input).stateNext = .receive
      rw [rx]
      rfl
    · rw [← starts.isLast]
      change (txRx.rxSignals input).isLast = _
      rw [rx]
      rfl
  refine ⟨again.receives whole fulNext (.inl clocked), ?_⟩
  rw [rx]
  rfl

/-- A quotient and a remainder are found again. -/
theorem mul_add_inj {size high high' low low' : Nat} (inside : low < size) (inside' : low' < size)
    (same : high * size + low = high' * size + low') : high = high' ∧ low = low' := by
  have positive : 0 < size := Nat.lt_of_le_of_lt (Nat.zero_le _) inside
  have quotient := congrArg (· / size) same
  have remainder := congrArg (· % size) same
  simp only [Nat.mul_comm _ size, Nat.mul_add_div positive, Nat.mul_add_mod,
    Nat.div_eq_of_lt inside,
    Nat.div_eq_of_lt inside', Nat.mod_eq_of_lt inside, Nat.mod_eq_of_lt inside',
    Nat.add_zero] at quotient remainder
  exact ⟨quotient, remainder⟩

namespace TransferSetup

/-- The group of bits of a word that goes over the line in a clock. -/
def group (setup : TransferSetup) (clock : Nat) : Nat :=
  if setup.lsbfirst then clock else setup.wordClocks - 1 - clock

theorem group_lt {setup : TransferSetup} {clock : Nat} (inWord : clock < setup.wordClocks) :
    setup.group clock < setup.wordClocks := by
  rw [group]
  split <;> omega

/-- When the words of a transfer fit in a data word, they lie there one after the other. -/
theorem place_eq (whole : setup.lanes ∣ setup.wordBits)
    (fits : setup.perTransfer * setup.wordBits ≤ 32) (word : Nat) {lane : Nat}
    (inWord : clock < setup.wordClocks) (inside : lane < setup.lanes) :
    setup.group clock * setup.lanes + lane < 32 / setup.perTransfer ∧
      setup.place word clock lane =
        word % setup.perTransfer * (32 / setup.perTransfer) +
          (setup.group clock * setup.lanes + lane) := by
  have slot := Nat.mod_lt word (perTransfer_pos setup)
  have bits := wordBits_eq whole
  have room : setup.wordBits ≤ 32 / setup.perTransfer := by
    rw [Nat.le_div_iff_mul_le (perTransfer_pos setup), Nat.mul_comm]
    exact fits
  have within : setup.group clock * setup.lanes + lane < setup.wordBits := by
    have before : (setup.group clock + 1) * setup.lanes ≤ setup.wordClocks * setup.lanes :=
      Nat.mul_le_mul_right _ (group_lt inWord)
    rw [Nat.succ_mul, Nat.mul_comm setup.wordClocks, bits] at before
    omega
  have bound : (word % setup.perTransfer + 1) * (32 / setup.perTransfer) ≤ 32 :=
    Nat.le_trans (Nat.mul_le_mul_right _ slot) (Nat.mul_div_le 32 setup.perTransfer)
  rw [Nat.succ_mul] at bound
  have inner : (if setup.lsbfirst then setup.lanes * clock + lane
      else setup.wordBits - setup.lanes * (clock + 1) + lane) =
        setup.group clock * setup.lanes + lane := by
    rw [group]
    split
    · rw [Nat.mul_comm]
    · rw [← bits, ← Nat.mul_sub, Nat.mul_comm, Nat.sub_sub, Nat.add_comm 1]
  refine ⟨Nat.lt_of_lt_of_le within room, ?_⟩
  rw [place, offset, inner, Nat.mod_eq_of_lt]
  omega

/-- The places of the bits of a data word differ. -/
theorem place_inj (whole : setup.lanes ∣ setup.wordBits)
    (fits : setup.perTransfer * setup.wordBits ≤ 32) {other clock' lane lane' : Nat}
    (inWord : clock < setup.wordClocks) (inWord' : clock' < setup.wordClocks)
    (inside : lane < setup.lanes) (inside' : lane' < setup.lanes)
    (same : setup.place word clock lane = setup.place other clock' lane') :
    word % setup.perTransfer = other % setup.perTransfer ∧ clock = clock' ∧ lane = lane' := by
  obtain ⟨within, place⟩ := place_eq whole fits word inWord inside
  obtain ⟨within', place'⟩ := place_eq whole fits other inWord' inside'
  rw [place, place'] at same
  obtain ⟨slots, inner⟩ := mul_add_inj within within' same
  obtain ⟨groups, lanes⟩ := mul_add_inj inside inside' inner
  refine ⟨slots, ?_, lanes⟩
  rw [group, group] at groups
  split at groups <;> omega

end TransferSetup

/-- The receiver has the places of the transmitter, unless it reads four lanes with the low
bits first. -/
def TransferSetup.InPlace (setup : TransferSetup) : Prop :=
  ¬(setup.qpi = true ∧ setup.lsbfirst = true)

/-- The bits of a clock are written to their places. -/
theorem ReceivesAt.dataRx (position : ReceivesAt setup first word clock txRx)
    (whole : setup.lanes ∣ setup.wordBits) (packs : setup.Packs) (inPlace : setup.InPlace)
    (hears : Hears setup input) (place : Nat) :
    (txRx.dataRx input).getLsbD place =
      if setup.place word clock 0 ≤ place ∧ place < setup.place word clock 0 + setup.lanes then
        input.sdi.lane setup.qpi (place - setup.place word clock 0)
      else txRx.rxShiftReg.getLsbD place := by
  have index := position.bitIndex whole
  have lowest : (if setup.lsbfirst then setup.lanes - 1 else 0) = 0 := by
    rw [TransferSetup.InPlace, not_and_or] at inPlace
    rcases inPlace with single | high
    · rw [TransferSetup.lanes, if_neg single, Nat.sub_self, ite_self]
    · rw [if_neg high]
  rw [lowest] at index
  have bound : setup.place word clock 0 < 32 := Nat.mod_lt _ (by decide)
  rw [TxRx.dataRx, hears.rxQpi, index, TransferSetup.lanes]
  generalize first : setup.place word clock 0 = start at *
  cases quad : setup.qpi with
  | false =>
      simp only [Bool.false_eq_true, if_false, getLsbD_setBit, DataLines.lane]
      by_cases same : place = start
      · rw [if_pos ⟨same, bound⟩, if_pos (by omega)]
      · rw [if_neg (fun both => same both.1), if_neg (by omega)]
  | true =>
      have last := TransferSetup.place_quad quad packs whole word clock (show 3 < 4 by decide)
      have inside : setup.place word clock 3 < 32 := Nat.mod_lt _ (by decide)
      rw [first] at last
      have room : start + 3 < 32 := last ▸ inside
      simp only [if_true, getLsbD_setBit, DataLines.lane]
      by_cases within : start ≤ place ∧ place < start + 4
      · obtain ⟨lane, rfl⟩ := Nat.exists_eq_add_of_le within.1
        have four : lane < 4 := Nat.lt_of_add_lt_add_left within.2
        rw [if_pos within, Nat.add_sub_cancel_left]
        have one : lane = 0 ∨ lane = 1 ∨ lane = 2 ∨ lane = 3 := by omega
        rcases one with rfl | rfl | rfl | rfl <;> grind
      · grind

/-- The clocks of a transfer follow each other. -/
theorem ReceivesAt.step {n : Nat}
    (position : ReceivesAt setup first (n / setup.wordClocks) (n % setup.wordClocks) txRx)
    (whole : setup.lanes ∣ setup.wordBits) (packs : setup.Packs) (hears : Hears setup input) :
    (n + 1 < setup.clocks →
        ReceivesAt setup first ((n + 1) / setup.wordClocks) ((n + 1) % setup.wordClocks)
          (txRx.step input) ∧ (txRx.rxSignals input).done = false) ∧
      (n + 1 = setup.clocks → (txRx.rxSignals input).done = true) := by
  have positive := TransferSetup.wordClocks_pos whole
  have split := Nat.div_add_mod n setup.wordClocks
  rcases Nat.lt_or_eq_of_le (Nat.succ_le_of_lt position.inWord) with more | ends
  · have notLast : n + 1 ≠ setup.clocks := by
      intro all
      have rest := congrArg (· % setup.wordClocks) all
      simp only [TransferSetup.clocks, Nat.mul_mod_left] at rest
      rw [← split, Nat.add_assoc, Nat.mul_add_mod, Nat.mod_eq_of_lt more] at rest
      cases rest
    have next : (n + 1) / setup.wordClocks = n / setup.wordClocks ∧
        (n + 1) % setup.wordClocks = n % setup.wordClocks + 1 := by
      constructor
      · conv_lhs => rw [← split, Nat.add_assoc, Nat.mul_add_div positive, Nat.div_eq_of_lt more]
        rfl
      · conv_lhs => rw [← split, Nat.add_assoc, Nat.mul_add_mod, Nat.mod_eq_of_lt more]
    refine ⟨fun _ => ?_, fun all => absurd all notLast⟩
    rw [next.1, next.2]
    obtain ⟨position, goesOn, -⟩ := position.step_inside whole hears more
    exact ⟨position, goesOn⟩
  · have full : n + 1 = (n / setup.wordClocks + 1) * setup.wordClocks := by
      conv_lhs => rw [← split, Nat.add_assoc]
      rw [Nat.succ_mul, Nat.mul_comm (n / setup.wordClocks)]
      exact congrArg (setup.wordClocks * (n / setup.wordClocks) + ·) ends
    have next : (n + 1) / setup.wordClocks = n / setup.wordClocks + 1 ∧
        (n + 1) % setup.wordClocks = 0 := by
      rw [full]
      exact ⟨Nat.mul_div_cancel _ positive, Nat.mul_mod_left ..⟩
    constructor
    · intro more
      rw [full] at more
      rw [next.1, next.2]
      exact position.step_word whole packs hears ends (Nat.lt_of_mul_lt_mul_right more)
    · intro all
      rw [full] at all
      exact position.step_last whole hears ends (Nat.eq_of_mul_eq_mul_right positive all)

end Cycle

/-! ## Commands that receive -/

/-- The interpreter during a command that only receives. -/
structure SpimCtrl.InReceive (ctrl : SpimCtrl) (wait : CtrlState) (qpi : Bool) : Prop where
  waits : wait = .waitDone ∨ wait = .waitCheck
  state : ctrl.state = wait
  isFul : ctrl.isFul = false
  qpi : ctrl.qpi = qpi

section Commands

variable {setup : TransferSetup} {first : BitVec 2} {wait : CtrlState} {master : SpiMaster}

theorem SpimCtrl.InReceive.hears (ctrl : master.ctrl.InReceive wait setup.qpi)
    (input : MasterInput) : Hears setup (master.txRxInput input) := by
  have given : (master.txRxInput input).tx = master.ctrl.defaults.tx ∧
      (master.txRxInput input).rx = master.ctrl.defaults.rx := by
    rcases ctrl.waits with waits | waits
    · rw [txRxInput_waitDone (ctrl.state.trans waits)]
      exact ⟨rfl, rfl⟩
    · exact txRxInput_waitCheck (ctrl.state.trans waits) input
  refine ⟨?_, ?_, ?_⟩
  · rw [given.1]
    rfl
  · rw [given.2]
    rfl
  · rw [given.2]
    exact ctrl.qpi

theorem step_waitCheck_kept (input : MasterInput) (state : master.ctrl.state = .waitCheck) :
    (master.step input).ctrl.isFul = master.ctrl.isFul ∧
      (master.step input).ctrl.qpi = master.ctrl.qpi := by
  have signals : master.signals input = master.ctrl.waitCheck (master.ctrlInput input) := by
    rw [SpiMaster.signals, SpimCtrl.signals, state]
  constructor
  · change (master.signals input).isFul = _
    rw [signals, SpimCtrl.waitCheck]
    split <;> rfl
  · change (if (master.signals input).updateQpi then (master.signals input).qpi else _) = _
    rw [signals, SpimCtrl.waitCheck]
    split <;> rfl

/-- The interpreter leaves a command that only receives when the receiver is done. -/
theorem SpimCtrl.InReceive.step_state (ctrl : master.ctrl.InReceive wait setup.qpi)
    (txState : master.txRx.txState = .idle) (input : MasterInput) :
    (master.step input).ctrl.state =
      if (master.txRx.rxSignals (master.txRxInput input)).done then .idle else wait := by
  rcases ctrl.waits with waits | waits
  · have state := ctrl.state.trans waits
    rw [step_waitDone_state input state, done_receives state ctrl.isFul txState, waits]
  · rw [step_waitCheck_state input (ctrl.state.trans waits), waits]

theorem SpimCtrl.InReceive.goesOn (ctrl : master.ctrl.InReceive wait setup.qpi)
    (txState : master.txRx.txState = .idle) {input : MasterInput}
    (more : (master.txRx.rxSignals (master.txRxInput input)).done = false) :
    (master.step input).ctrl.InReceive wait setup.qpi := by
  have state := ctrl.step_state txState input
  rw [more, if_neg Bool.false_ne_true] at state
  rcases ctrl.waits with waits | waits
  · have before := ctrl.state.trans waits
    exact ⟨ctrl.waits, state, (step_waitDone_isFul input before).trans ctrl.isFul,
      (step_waitDone_qpi input before).trans ctrl.qpi⟩
  · obtain ⟨isFul, qpi⟩ := step_waitCheck_kept input (ctrl.state.trans waits)
    exact ⟨ctrl.waits, state, isFul.trans ctrl.isFul, qpi.trans ctrl.qpi⟩

/-- The interpreter is in a state. -/
def SpiMaster.InState (state : CtrlState) (master : SpiMaster) (_ : MasterInput) : Prop :=
  master.ctrl.state = state

/-- The line is clocked in a cycle. -/
def SpiMaster.clocked (master : SpiMaster) (input : MasterInput) : Bool :=
  master.txRx.clken (master.txRxInput input)

/-- The data word that the receiver hands over. -/
def SpiMaster.wordGiven (master : SpiMaster) (input : MasterInput) : List (BitVec 32) :=
  master.txRx.wordGiven (master.txRxInput input)

/-- A command that only receives clocks the line in every cycle. -/
theorem SpimCtrl.InReceive.runFrom (ctrl : master.ctrl.InReceive wait setup.qpi)
    (position : ReceivesAt setup first 0 0 master.txRx) (whole : setup.lanes ∣ setup.wordBits)
    (packs : setup.Packs) (rest : List MasterInput) (short : rest.length < setup.clocks) :
    (spimMachine.runFrom master rest).ctrl.InReceive wait setup.qpi ∧
      ReceivesAt setup first (rest.length / setup.wordClocks) (rest.length % setup.wordClocks)
        (spimMachine.runFrom master rest).txRx ∧
      spimMachine.AlwaysFrom (SpiMaster.InState wait) master rest ∧
        spimMachine.countedFrom SpiMaster.clocked master rest = rest.length := by
  induction rest using List.reverseRecOn with
  | nil =>
      refine ⟨ctrl, ?_, trivial, rfl⟩
      rw [List.length_nil, Nat.zero_div, Nat.zero_mod]
      exact position
  | append_singleton rest input inductionHypothesis =>
      rw [List.length_append, List.length_singleton] at short ⊢
      obtain ⟨ctrl, position, busy, pulses⟩ := inductionHypothesis (Nat.lt_of_succ_lt short)
      have hears := ctrl.hears input
      obtain ⟨next, goesOn⟩ := (position.step whole packs hears).1 short
      have clocked : (spimMachine.runFrom master rest).clocked input = true :=
        clken_receiving position.rxState position.isFul hears
      rw [Machine.runFrom_append, Machine.alwaysFrom_append, Machine.countedFrom_append, pulses]
      refine ⟨ctrl.goesOn position.txState goesOn, next, ⟨busy, ctrl.state, trivial⟩, ?_⟩
      rw [Machine.countedFrom, clocked]
      rfl

/-- It is over with the last of its clocks. -/
theorem SpimCtrl.InReceive.ends (ctrl : master.ctrl.InReceive wait setup.qpi)
    (position : ReceivesAt setup first 0 0 master.txRx) (whole : setup.lanes ∣ setup.wordBits)
    (packs : setup.Packs) {rest : List MasterInput} (all : rest.length = setup.clocks) :
    (spimMachine.runFrom master rest).ctrl.state = .idle ∧
      spimMachine.AlwaysFrom (SpiMaster.InState wait) master rest ∧
        spimMachine.countedFrom SpiMaster.clocked master rest = rest.length := by
  induction rest using List.reverseRecOn with
  | nil =>
      have positive : 0 < setup.clocks :=
        Nat.mul_pos (Nat.succ_pos _) (TransferSetup.wordClocks_pos whole)
      exact absurd all (Nat.ne_of_lt positive)
  | append_singleton rest input _ =>
      rw [List.length_append, List.length_singleton] at all ⊢
      obtain ⟨ctrl, position, busy, pulses⟩ :=
        ctrl.runFrom position whole packs rest (all ▸ Nat.lt_succ_self _)
      have hears := ctrl.hears input
      have done := (position.step whole packs hears).2 all
      have clocked : (spimMachine.runFrom master rest).clocked input = true :=
        clken_receiving position.rxState position.isFul hears
      rw [Machine.runFrom_append, Machine.alwaysFrom_append, Machine.countedFrom_append, pulses]
      refine ⟨?_, ⟨busy, ctrl.state, trivial⟩, ?_⟩
      · have state := ctrl.step_state position.txState input
        rw [done, if_pos rfl] at state
        exact state
      · rw [Machine.countedFrom, clocked]
        rfl

end Commands

end CoreVMcu.Spi
