import CoreVMcu.Spi.Transfer

/-!
# A transfer on the line

While the transmitter sends, the line is clocked in every cycle and carries the bits of
the word that it is at.  A receiver that is in use as well only follows: it changes the
registers that both directions share where the transmitter changes them too.
-/

namespace CoreVMcu.Spi

open Clocked

/-! ## The bits of a transfer -/

/-- The bits on the lines whose output is enabled. -/
def DataLines.driven (lines : DataLines) : SpiMode → List Bool
  | .std => [lines.sd0]
  | .quadTx => [lines.sd0, lines.sd1, lines.sd2, lines.sd3]
  | .quadRx => []

/-- The bits that are driven in a cycle in which the clock of the lines is enabled.  The
lines and their mode change in the middle of the cycle. -/
def TxRx.bitsDriven (txRx : TxRx) (input : TxRxInput) : List (List Bool) :=
  if txRx.clken input then [(txRx.step input).sdo.driven (txRx.step input).spiMode] else []

/-- The data word that the transmitter takes in a cycle. -/
def TxRx.wordTaken (txRx : TxRx) (input : TxRxInput) : List (BitVec 32) :=
  if (txRx.txSignals input).dataReady then [input.txData] else []

namespace TransferSetup

variable (setup : TransferSetup)

/-- The bits of a clock of a word, from its data word. -/
def clockBits (data : BitVec 32) (word clock : Nat) : List Bool :=
  (List.range setup.lanes).map fun lane => data.getLsbD (setup.place word clock lane)

/-- The bits of the first clocks of a transfer, from the data words of its words. -/
def firstBits (source : Nat → BitVec 32) (count : Nat) : List (List Bool) :=
  (List.range count).map fun n =>
    setup.clockBits (source (n / setup.wordClocks)) (n / setup.wordClocks) (n % setup.wordClocks)

/-- The bits of a transfer: a data word has the words that are packed into it. -/
def transferBits (words : List (BitVec 32)) : List (List Bool) :=
  setup.firstBits (fun word => words.getD (word / setup.perTransfer) 0) setup.clocks

variable {setup}

theorem firstBits_succ (source : Nat → BitVec 32) {word clock : Nat}
    (inside : clock < setup.wordClocks) :
    setup.firstBits source (word * setup.wordClocks + clock + 1) =
      setup.firstBits source (word * setup.wordClocks + clock) ++
        [setup.clockBits (source word) word clock] := by
  have positive : 0 < setup.wordClocks := Nat.lt_of_le_of_lt (Nat.zero_le _) inside
  rw [firstBits, List.range_succ, List.map_append, List.map_singleton,
    Nat.mul_comm, Nat.mul_add_div positive, Nat.div_eq_of_lt inside, Nat.add_zero,
    Nat.mul_add_mod, Nat.mod_eq_of_lt inside]
  rfl

/-- Only the data words of words that have begun matter. -/
theorem firstBits_congr {source other : Nat → BitVec 32} {count : Nat}
    (same : ∀ word, word * setup.wordClocks < count → source word = other word) :
    setup.firstBits source count = setup.firstBits other count := by
  apply List.map_congr_left
  intro n inside
  rw [List.mem_range] at inside
  rw [same _ (Nat.lt_of_le_of_lt (Nat.div_mul_le_self ..) inside)]

theorem firstBits_length (source : Nat → BitVec 32) (count : Nat) :
    (setup.firstBits source count).length = count := by
  rw [firstBits, List.length_map, List.length_range]

/-- The bits of a transfer begin with those of its first clocks. -/
theorem firstBits_prefix (source : Nat → BitVec 32) {count total : Nat} (before : count ≤ total) :
    setup.firstBits source count <+: setup.firstBits source total := by
  rw [firstBits, firstBits, ← Nat.add_sub_cancel' before, List.range_add, List.map_append]
  exact List.prefix_append ..

end TransferSetup

/-! ## The cycles of a transmitter -/

/-- The receiver rests or follows the transmitter. -/
def TxRx.Follows (txRx : TxRx) : Prop :=
  txRx.rxState = .idle ∨ txRx.rxState = .receive ∧ txRx.isFul = true

/-- A cycle of a transfer in which nothing starts. -/
structure Goes (setup : TransferSetup) (input : TxRxInput) : Prop where
  txStart : input.tx.start = false
  rxStart : input.rx.start = false
  txQpi : input.tx.qpi = setup.qpi

section Cycle

variable {txRx : TxRx} {input : TxRxInput} {setup : TransferSetup}

/-- What a receiver that follows does to the shared registers. -/
structure RxFollows (txRx : TxRx) (input : TxRxInput) : Prop where
  sampleIn : (txRx.rxSignals input).sampleIn = false
  sampleBits : (txRx.txSignals input).clken = false →
    (txRx.rxSignals input).sampleBits = true → (txRx.rxSignals input).counterBits = txRx.counterBits
  sampleTransf : (txRx.rxSignals input).sampleTransf = true →
    (txRx.txSignals input).clken = true ∧ txRx.bitsDone = true
  sampleHi : (txRx.rxSignals input).sampleHi = true →
    (txRx.txSignals input).clken = true ∧ txRx.bitsDone = true ∧ (txRx.counterHi == 0) = false

theorem rxFollows (follows : txRx.Follows) (quiet : input.rx.start = false) :
    RxFollows txRx input := by
  rcases follows with rests | ⟨receives, full⟩
  · have rx := rxSignals_resting rests quiet
    refine ⟨?_, ?_, ?_, ?_⟩ <;> rw [rx]
    · rfl
    · intro _ samples
      cases samples
    · intro samples
      cases samples
    · intro samples
      cases samples
  · have rx := rxSignals_receiving receives quiet
    refine ⟨?_, ?_, ?_, ?_⟩ <;> rw [rx]
    · rfl
    · intro stopped _
      have stands : txRx.rxCounts input = false := by
        rw [TxRx.rxCounts, TxRx.fullDuplex, full, Bool.or_true, stopped]
        rfl
      exact if_neg (Bool.eq_false_iff.mp stands)
    · exact clken_of_rxEndsWord full
    · intro samples
      rw [Bool.and_eq_true, Bool.not_eq_true'] at samples
      obtain ⟨clocked, bits⟩ := clken_of_rxEndsWord full samples.1
      exact ⟨clocked, bits, samples.2⟩

/-- A cycle in which nothing starts keeps the setup. -/
theorem step_keepsSetup (goes : Goes setup input) (rx : (txRx.rxSignals input).sampleIn = false) :
    (txRx.txSignals input).sampleIn = false ∧ KeepsSetup txRx (txRx.step input) ∧
      (txRx.step input).counterHi = txRx.countedHi input := by
  have tx : (txRx.txSignals input).sampleIn = false := by
    cases state : txRx.txState with
    | idle =>
        rw [txSignals_resting state goes.txStart]
        rfl
    | send =>
        rw [txSignals_sending state goes.txStart]
        rfl
    | waitData =>
        rw [TxRx.txSignals, state]
        change (txRx.txWaitData input).sampleIn = false
        rw [TxRx.txWaitData]
        split <;> rfl
  have kept : ∀ {Field : Type} (field : TransferSetup → Field) (value : Field),
      txRx.sampled input field value = value := by
    intro Field field value
    rw [TxRx.sampled, tx, rx, if_neg Bool.false_ne_true, if_neg Bool.false_ne_true]
  exact ⟨tx, ⟨kept .., kept .., kept ..⟩, kept (fun given => sizeCount given.size) _⟩

/-- A cycle of a transmitter that sends. -/
theorem step_sending (follows : txRx.Follows) (goes : Goes setup input)
    (sends : txRx.txState = .send) :
    (txRx.bitsDone = false → CountsClock txRx (txRx.step input) setup.qpi) ∧
      (txRx.bitsDone = true → CountsWord txRx (txRx.step input) setup.qpi) := by
  have rx := rxFollows follows goes.rxStart
  have tx := txSignals_sending sends goes.txStart
  obtain ⟨_, kept, hi⟩ := step_keepsSetup goes rx.sampleIn
  have bits : (txRx.step input).counterBits = txRx.nextBits setup.qpi := by
    change (if (txRx.txSignals input).sampleBits then (txRx.txSignals input).counterBits
      else _) = _
    rw [tx, if_pos rfl, goes.txQpi]
  have transf : (txRx.step input).counterTransf =
      if txRx.bitsDone then txRx.nextTransf else txRx.counterTransf := by
    change (if (txRx.txSignals input).sampleTransf then (txRx.txSignals input).counterTransf
      else if (txRx.rxSignals input).sampleTransf then _ else _) = _
    rw [tx]
    cases done : txRx.bitsDone with
    | true => rfl
    | false =>
        have quiet : (txRx.rxSignals input).sampleTransf = false := by
          rw [Bool.eq_false_iff]
          intro samples
          rw [(rx.sampleTransf samples).2] at done
          cases done
        rw [quiet]
        rfl
  have offset : (txRx.step input).bitOffset =
      if txRx.bitsDone then txRx.bitOffset + txRx.bitOffsetAdd else txRx.bitOffset := by
    have either : ((txRx.txSignals input).sampleTransf || (txRx.rxSignals input).sampleTransf) =
        txRx.bitsDone := by
      rw [tx]
      cases samples : (txRx.rxSignals input).sampleTransf with
      | true => rw [(rx.sampleTransf samples).2, Bool.or_true]
      | false => rw [Bool.or_false]
    change (if input.tx.start || input.rx.start then _ else if _ then _ else _) = _
    rw [goes.txStart, goes.rxStart, either]
    rfl
  have count : txRx.countedHi input =
      if txRx.bitsDone then countedDown txRx.counterHi else txRx.counterHi := by
    have txSamples : (txRx.txSignals input).sampleHi =
        (txRx.bitsDone && !(txRx.counterHi == 0)) := by rw [tx]
    have txCounts : (txRx.txSignals input).counterHi =
        if txRx.bitsDone then countedDown txRx.counterHi else txRx.counterHi := by rw [tx]
    rw [TxRx.countedHi, txSamples, txCounts]
    by_cases samples : (txRx.rxSignals input).sampleHi = true
    · obtain ⟨_, done, notZero⟩ := rx.sampleHi samples
      rw [done, notZero]
      rfl
    · rw [if_neg samples]
      cases txRx.bitsDone with
      | false => rfl
      | true =>
          cases zero : txRx.counterHi == 0 with
          | true =>
              rw [beq_iff_eq.mp zero]
              rfl
          | false => rfl
  rw [count] at hi
  constructor
  · intro inside
    rw [inside] at transf offset hi
    exact
      { kept with
        counterHi := hi, counterBits := bits, counterTransf := transf, bitOffset := offset }
  · intro ends
    rw [ends] at transf offset hi
    exact
      { kept with
        counterHi := hi, counterBits := bits, counterTransf := transf, bitOffset := offset }

/-- What the transmitter drives while it waits for data. -/
theorem txSignals_waiting (input : TxRxInput) (waits : txRx.txState = .waitData) :
    txRx.txSignals input =
      { txRx.txDefaults with
        driving := true, mode := TxRx.sendMode input, dataReady := input.txDataValid
        stateNext := if input.txDataValid then .send else .waitData
        shiftReg := if input.txDataValid then input.txData else txRx.txShiftReg } := by
  rw [TxRx.txSignals, waits]
  change txRx.txWaitData input = _
  rw [TxRx.txWaitData]
  cases input.txDataValid with
  | true => rfl
  | false =>
      rw [if_neg Bool.false_ne_true, if_neg Bool.false_ne_true, ← waits]
      rfl

/-- A cycle in which the transmitter waits for data. -/
theorem step_waiting (follows : txRx.Follows) (goes : Goes setup input)
    (waits : txRx.txState = .waitData) :
    KeepsSetup txRx (txRx.step input) ∧ (txRx.step input).counterHi = txRx.counterHi ∧
      (txRx.step input).counterBits = txRx.counterBits ∧
        (txRx.step input).counterTransf = txRx.counterTransf ∧
          (txRx.step input).bitOffset = txRx.bitOffset := by
  have rx := rxFollows follows goes.rxStart
  have tx := txSignals_waiting input waits
  have stopped : (txRx.txSignals input).clken = false := by
    rw [tx]
    rfl
  have noTransf : (txRx.rxSignals input).sampleTransf = false := by
    rw [Bool.eq_false_iff]
    intro samples
    rw [(rx.sampleTransf samples).1] at stopped
    cases stopped
  have noHi : (txRx.rxSignals input).sampleHi = false := by
    rw [Bool.eq_false_iff]
    intro samples
    rw [(rx.sampleHi samples).1] at stopped
    cases stopped
  obtain ⟨_, kept, hi⟩ := step_keepsSetup goes rx.sampleIn
  refine ⟨kept, ?_, ?_, ?_, ?_⟩
  · rw [hi, TxRx.countedHi, noHi, tx]
    rfl
  · change (if (txRx.txSignals input).sampleBits then _
      else if (txRx.rxSignals input).sampleBits then _ else _) = _
    by_cases samples : (txRx.rxSignals input).sampleBits = true
    · rw [if_pos samples, rx.sampleBits stopped samples, tx]
      rfl
    · rw [if_neg samples, tx]
      rfl
  · change (if (txRx.txSignals input).sampleTransf then _
      else if (txRx.rxSignals input).sampleTransf then _ else _) = _
    rw [noTransf, tx]
    rfl
  · change (if input.tx.start || input.rx.start then _
      else if (txRx.txSignals input).sampleTransf || (txRx.rxSignals input).sampleTransf then _
        else _) = _
    rw [goes.txStart, goes.rxStart, noTransf, tx]
    rfl

/-- The receiver goes on following until it is done. -/
theorem step_follows (follows : txRx.Follows) (goes : Goes setup input) :
    (txRx.step input).Follows := by
  rcases follows with rests | ⟨receives, full⟩
  · left
    change (txRx.rxSignals input).stateNext = .idle
    rw [rxSignals_resting rests goes.rxStart]
    exact rests
  · cases next : (txRx.step input).rxState with
    | idle => exact .inl next
    | receive => exact .inr ⟨next, step_isFul full goes.txStart goes.rxStart receives⟩

/-- The line is clocked exactly while the transmitter sends. -/
theorem clken_of_follows (follows : txRx.Follows) (goes : Goes setup input) :
    txRx.clken input = (txRx.txSignals input).clken := by
  rw [TxRx.clken]
  rcases follows with rests | ⟨_, full⟩
  · rw [rxSignals_resting rests goes.rxStart]
    change (if txRx.fullDuplex input = true then _ else _ || false) = _
    rw [Bool.or_false, ite_self]
  · rw [TxRx.fullDuplex, full, Bool.or_true, if_pos rfl]

variable {first : BitVec 2} {word clock : Nat}

/-- A bit of four that are sent in a clock. -/
theorem sentBit_eq (walks : WalksAt setup first word clock txRx) (packs : setup.Packs)
    (whole : setup.lanes ∣ setup.wordBits) (quad : setup.qpi = true) {lane : BitVec 32}
    (inside : lane.toNat < 4) :
    txRx.sentBit lane (if txRx.lsbfirst then 3 else 0) =
      txRx.txShiftReg.getLsbD (setup.place word clock lane.toNat) := by
  have lanes : setup.lanes = 4 := by rw [TransferSetup.lanes, quad, if_pos rfl]
  have index := walks.bitIndex whole
  have last := TransferSetup.place_quad quad packs whole word clock (show 3 < 4 by decide)
  have bound : setup.place word clock 3 < 32 := Nat.mod_lt _ (by decide)
  rw [lanes] at index
  rw [TxRx.sentBit, TransferSetup.place_quad quad packs whole word clock inside, walks.lsbfirst]
  congr 1
  cases low : setup.lsbfirst with
  | true =>
      rw [low, if_pos rfl] at index
      change _ = setup.place word clock 3 at index
      rw [if_pos rfl, BitVec.toNat_sub, BitVec.toNat_add, BitVec.toNat_setWidth, index]
      change (2 ^ 32 - 3 + _) % 2 ^ 32 = _
      omega
  | false =>
      rw [low, if_neg Bool.false_ne_true] at index
      rw [if_neg Bool.false_ne_true, BitVec.toNat_sub, BitVec.toNat_add, BitVec.toNat_setWidth,
        index]
      change (2 ^ 32 - 0 + _) % 2 ^ 32 = _
      omega

/-- The bits on the line while the transmitter sends. -/
theorem driven_sending (walks : WalksAt setup first word clock txRx) (packs : setup.Packs)
    (whole : setup.lanes ∣ setup.wordBits) (goes : Goes setup input)
    (sends : txRx.txState = .send) :
    (txRx.step input).sdo.driven (txRx.step input).spiMode =
      setup.clockBits txRx.txShiftReg word clock := by
  have mode : (txRx.step input).spiMode = if setup.qpi then .quadTx else .std := by
    change (if (txRx.txSignals input).driving then (txRx.txSignals input).mode else _) = _
    rw [txSignals_sending sends goes.txStart]
    change TxRx.sendMode input = _
    rw [TxRx.sendMode, goes.txQpi]
  have busy : txRx.txIdle input = false := by
    rw [TxRx.txIdle, sends]
    rfl
  have lines : (txRx.step input).sdo = txRx.sdoNext input := rfl
  rw [mode, lines, TxRx.sdoNext, TxRx.drivenLines, busy, goes.txQpi, TransferSetup.clockBits,
    TransferSetup.lanes]
  cases quad : setup.qpi with
  | true =>
      have sent := fun (lane : BitVec 32) (inside : lane.toNat < 4) =>
        sentBit_eq walks packs whole quad inside
      simp only [if_true, Bool.false_eq_true, if_false, DataLines.driven]
      rw [sent 0 (by decide), sent 1 (by decide), sent 2 (by decide), sent 3 (by decide)]
      rfl
  | false =>
      have lanes : setup.lanes = 1 := by rw [TransferSetup.lanes, quad, if_neg Bool.false_ne_true]
      have index := walks.bitIndex whole
      rw [lanes, Nat.sub_self, ite_self] at index
      simp only [Bool.false_eq_true, if_false, DataLines.driven, index]
      rfl

end Cycle

end CoreVMcu.Spi
