import CoreVMcu.Spi.Receive
import Mathlib.Data.List.GetD

/-!
# The data words of a transfer

When a transfer starts with an empty data word and the receiver has the places of the
transmitter, every bit of a word is found at its place in the data word of the word.  What
the shift register holds at other places is left from before.
-/

namespace CoreVMcu.Spi

open Clocked

/-- Lines that are low. -/
def DataLines.low : DataLines := ⟨false, false, false, false⟩

/-- The bits that have been read, at their places in the data words that have been handed over
or in the shift register. -/
structure Kept (setup : TransferSetup) (initial : BitVec 32) (lines : List DataLines)
    (given : List (BitVec 32)) (shift : BitVec 32) : Prop where
  count : given.length = lines.length / setup.wordClocks / setup.perTransfer
  bit : ∀ word clock lane, clock < setup.wordClocks → lane < setup.lanes →
    word * setup.wordClocks + clock < lines.length →
    (given.getD (word / setup.perTransfer) shift).getLsbD (setup.place word clock lane) =
      (lines.getD (word * setup.wordClocks + clock) .low).lane setup.qpi lane
  stale : ∀ place, (∀ word clock lane, clock < setup.wordClocks → lane < setup.lanes →
    word * setup.wordClocks + clock < lines.length → setup.place word clock lane ≠ place) →
    shift.getLsbD place = initial.getLsbD place

section Step

variable {setup : TransferSetup} {initial : BitVec 32} {lines : List DataLines}
  {given : List (BitVec 32)} {txRx : TxRx} {input : TxRxInput}

/-- The shift register after a cycle of the receiver. -/
theorem step_rxShiftReg (rxState : txRx.rxState = .receive) (hears : Hears setup input) :
    (txRx.step input).rxShiftReg = txRx.dataRx input := by
  change (txRx.rxSignals input).shiftReg = _
  rw [rxSignals_receiving rxState hears.rxStart]

/-- The words before a clock belong to its data word or to an earlier one. -/
theorem div_le_of_before {size n word clock : Nat} (inWord : clock < size)
    (before : word * size + clock < n + 1) : word ≤ n / size := by
  have positive : 0 < size := Nat.lt_of_le_of_lt (Nat.zero_le _) inWord
  rw [Nat.le_div_iff_mul_le positive]
  exact Nat.le_trans (Nat.le_add_right _ _) (Nat.le_of_lt_succ before)

/-- The lanes of a clock have adjacent places. -/
theorem TransferSetup.place_lane (packs : setup.Packs) (whole : setup.lanes ∣ setup.wordBits)
    (word clock : Nat) {lane : Nat} (inside : lane < setup.lanes) :
    setup.place word clock lane = setup.place word clock 0 + lane := by
  cases quad : setup.qpi with
  | true =>
      rw [TransferSetup.lanes, quad, if_pos rfl] at inside
      exact TransferSetup.place_quad quad packs whole word clock inside
  | false =>
      rw [TransferSetup.lanes, quad, if_neg Bool.false_ne_true, Nat.lt_one_iff] at inside
      rw [inside, Nat.add_zero]

/-- The data words that are handed over are those that are used up. -/
theorem length_wordGiven {first : BitVec 2} {n : Nat}
    (position : ReceivesAt setup first (n / setup.wordClocks) (n % setup.wordClocks) txRx)
    (whole : setup.lanes ∣ setup.wordBits) (hears : Hears setup input) :
    setup.used first (n / setup.wordClocks) + (txRx.wordGiven input).length =
      setup.used first ((n + 1) / setup.wordClocks) := by
  have ends : n % setup.wordClocks + 1 = setup.wordClocks ↔ setup.wordClocks ∣ n + 1 := by
    obtain ⟨size, same⟩ := Nat.exists_eq_succ_of_ne_zero
      (Nat.ne_of_gt (TransferSetup.wordClocks_pos whole))
    rw [Nat.dvd_iff_mod_eq_zero, same, Nat.succ_mod_succ_eq_zero_iff]
    exact Nat.succ_inj
  have words : (n + 1) / setup.wordClocks =
      n / setup.wordClocks + if setup.wordClocks ∣ n + 1 then 1 else 0 := Nat.succ_div
  rw [position.wordGiven whole hears, words]
  simp only [ends]
  by_cases last : setup.wordClocks ∣ n + 1
  · rw [if_pos last, TransferSetup.used_succ]
    by_cases full : setup.transfAt first (n / setup.wordClocks) = setup.wordtransf
    · rw [if_pos ⟨last, full⟩, if_pos full]
      rfl
    · rw [if_neg fun both => full both.2, if_neg full]
      rfl
  · rw [if_neg fun both => last both.1, if_neg last]
    rfl

/-- A data word that is handed over is what the shift register holds after it. -/
theorem getD_wordGiven {first : BitVec 2} {word clock : Nat}
    (position : ReceivesAt setup first word clock txRx) (whole : setup.lanes ∣ setup.wordBits)
    (hears : Hears setup input) (given : List (BitVec 32)) :
    (given ++ txRx.wordGiven input).getD given.length (txRx.dataRx input) = txRx.dataRx input := by
  rw [position.wordGiven whole hears, List.getD_append_right _ _ _ _ (Nat.le_refl _), Nat.sub_self]
  split <;> rfl

/-- A clock of a transfer. -/
theorem Kept.step (kept : Kept setup initial lines given txRx.rxShiftReg)
    (position : ReceivesAt setup 0 (lines.length / setup.wordClocks)
      (lines.length % setup.wordClocks) txRx)
    (whole : setup.lanes ∣ setup.wordBits) (packs : setup.Packs) (inPlace : setup.InPlace)
    (fits : setup.perTransfer * setup.wordBits ≤ 32) (hears : Hears setup input) :
    Kept setup initial (lines ++ [input.sdi]) (given ++ txRx.wordGiven input)
      (txRx.step input).rxShiftReg := by
  have bits := position.dataRx whole packs inPlace hears
  have current : lines.length / setup.wordClocks * setup.wordClocks +
      lines.length % setup.wordClocks = lines.length := Nat.div_add_mod' ..
  -- A place that is written in this clock is that of one of its lanes.
  have lane_of_place : ∀ place,
      setup.place (lines.length / setup.wordClocks) (lines.length % setup.wordClocks) 0 ≤ place ∧
        place < setup.place (lines.length / setup.wordClocks)
          (lines.length % setup.wordClocks) 0 + setup.lanes →
      ∃ lane < setup.lanes, setup.place (lines.length / setup.wordClocks)
        (lines.length % setup.wordClocks) lane = place := by
    rintro place ⟨after, before⟩
    obtain ⟨lane, rfl⟩ := Nat.exists_eq_add_of_le after
    have inside := Nat.lt_of_add_lt_add_left before
    exact ⟨lane, inside, TransferSetup.place_lane packs whole _ _ inside⟩
  rw [step_rxShiftReg position.rxState hears]
  refine ⟨?_, ?_, ?_⟩
  · rw [List.length_append, List.length_append, kept.count, List.length_singleton]
    rw [← TransferSetup.used_zero packs, ← TransferSetup.used_zero packs]
    exact length_wordGiven position whole hears
  · intro word clock lane inWord inside before
    rw [List.length_append, List.length_singleton] at before
    have notLater := div_le_of_before inWord before
    by_cases complete : word / setup.perTransfer < given.length
    · have earlier : word * setup.wordClocks + clock < lines.length := by
        have below : word < lines.length / setup.wordClocks := by
          rw [kept.count] at complete
          exact Nat.lt_of_not_le fun reached =>
            absurd complete (Nat.not_lt_of_le (Nat.div_le_div_right reached))
        have room : (word + 1) * setup.wordClocks ≤
            lines.length / setup.wordClocks * setup.wordClocks := Nat.mul_le_mul_right _ below
        rw [Nat.succ_mul] at room
        omega
      have same := kept.bit word clock lane inWord inside earlier
      rw [List.getD_append _ _ _ _ earlier, ← same, List.getD_append _ _ _ _ complete,
        List.getD_eq_getElem _ _ complete, List.getD_eq_getElem _ _ complete]
    · have dataWord : word / setup.perTransfer = given.length := by
        apply Nat.le_antisymm
        · rw [kept.count]
          exact Nat.div_le_div_right notLater
        · exact Nat.le_of_not_lt complete
      rw [dataWord, getD_wordGiven position whole hears, bits]
      by_cases now : word * setup.wordClocks + clock = lines.length
      · have word_eq : lines.length / setup.wordClocks = word ∧
            lines.length % setup.wordClocks = clock :=
          (mul_add_inj (Nat.mod_lt _ (Nat.lt_of_le_of_lt (Nat.zero_le _) inWord)) inWord
            (current.trans now.symm))
        rw [word_eq.1, word_eq.2, TransferSetup.place_lane packs whole _ _ inside,
          if_pos ⟨Nat.le_add_right _ _, Nat.add_lt_add_left inside _⟩, Nat.add_sub_cancel_left, now,
          List.getD_append_right _ _ _ _ (Nat.le_refl _), Nat.sub_self]
        rfl
      · have earlier : word * setup.wordClocks + clock < lines.length :=
          Nat.lt_of_le_of_ne (Nat.le_of_lt_succ before) now
        rw [if_neg, List.getD_append _ _ _ _ earlier,
          ← kept.bit word clock lane inWord inside earlier,
          List.getD_eq_default _ _ (Nat.le_of_not_lt complete)]
        intro written
        obtain ⟨other, within, same⟩ := lane_of_place _ written
        obtain ⟨slot, clocks, -⟩ := TransferSetup.place_inj whole fits
          (Nat.mod_lt _ (Nat.lt_of_le_of_lt (Nat.zero_le _) inWord)) inWord within inside same
        have words : lines.length / setup.wordClocks = word := by
          rw [← Nat.div_add_mod (lines.length / setup.wordClocks) setup.perTransfer, slot,
            ← kept.count, ← dataWord, Nat.div_add_mod]
        rw [words, clocks] at current
        exact now current
  · intro place unused
    rw [bits, if_neg]
    · apply kept.stale
      intro word clock lane inWord inside before
      apply unused word clock lane inWord inside
      rw [List.length_append]
      exact Nat.lt_of_lt_of_le before (Nat.le_add_right _ _)
    · intro written
      obtain ⟨lane, inside, same⟩ := lane_of_place _ written
      apply unused _ _ lane position.inWord inside _ same
      rw [current, List.length_append]
      exact Nat.lt_succ_self _

end Step

/-! ## Runs of a transfer -/

section Runs

variable {setup : TransferSetup} {first : BitVec 2} {wait : CtrlState} {master : SpiMaster}

/-- The data words that are handed over in the first clocks of a transfer. -/
theorem length_observed_wordGiven (ctrl : master.ctrl.InReceive wait setup.qpi)
    (position : ReceivesAt setup first 0 0 master.txRx) (whole : setup.lanes ∣ setup.wordBits)
    (packs : setup.Packs) (rest : List MasterInput) (within : rest.length ≤ setup.clocks) :
    (spimMachine.observedFrom SpiMaster.wordGiven master rest).length =
      setup.used first (rest.length / setup.wordClocks) := by
  induction rest using List.reverseRecOn with
  | nil =>
      rw [List.length_nil, Nat.zero_div]
      rfl
  | append_singleton rest input inductionHypothesis =>
      rw [List.length_append, List.length_singleton] at within ⊢
      obtain ⟨ctrl, position, -⟩ := ctrl.runFrom position whole packs rest within
      rw [Machine.observedFrom_append, List.length_append,
        inductionHypothesis (Nat.le_of_lt within),
        ← length_wordGiven position whole (ctrl.hears input), Machine.observedFrom,
        Machine.observedFrom, List.append_nil]
      rfl

/-- The bits of the first clocks of a transfer. -/
theorem kept_runFrom (ctrl : master.ctrl.InReceive wait setup.qpi)
    (position : ReceivesAt setup 0 0 0 master.txRx) (whole : setup.lanes ∣ setup.wordBits)
    (packs : setup.Packs) (inPlace : setup.InPlace)
    (fits : setup.perTransfer * setup.wordBits ≤ 32) (rest : List MasterInput)
    (within : rest.length ≤ setup.clocks) :
    Kept setup master.txRx.rxShiftReg (rest.map MasterInput.sdi)
      (spimMachine.observedFrom SpiMaster.wordGiven master rest)
      (spimMachine.runFrom master rest).txRx.rxShiftReg := by
  induction rest using List.reverseRecOn with
  | nil =>
      refine ⟨?_, ?_, fun _ _ => rfl⟩
      · rw [List.map_nil, List.length_nil, Nat.zero_div, Nat.zero_div]
        rfl
      · intro word clock lane _ _ before
        cases before
  | append_singleton rest input inductionHypothesis =>
      rw [List.length_append, List.length_singleton] at within
      have kept := inductionHypothesis (Nat.le_of_lt within)
      obtain ⟨ctrl, position, -⟩ := ctrl.runFrom position whole packs rest within
      rw [← List.length_map MasterInput.sdi] at position
      have next := kept.step position whole packs inPlace fits (ctrl.hears input)
      rw [List.map_append, Machine.observedFrom_append, Machine.observedFrom, Machine.observedFrom,
        List.append_nil, Machine.runFrom_append]
      exact next

end Runs

/-- Every bit of a word is found at its place in the data word of the word. -/
structure PackedAs (setup : TransferSetup) (lines : List DataLines) (words : List (BitVec 32)) :
    Prop where
  count : words.length = setup.wordCount / setup.perTransfer
  bit : ∀ word clock lane, word < setup.wordCount → clock < setup.wordClocks →
    lane < setup.lanes →
    (words.getD (word / setup.perTransfer) 0).getLsbD (setup.place word clock lane) =
      (lines.getD (word * setup.wordClocks + clock) .low).lane setup.qpi lane

/-- When a transfer is complete, its data words have all its bits. -/
theorem Kept.packed {setup : TransferSetup} {initial : BitVec 32} {lines : List DataLines}
    {words : List (BitVec 32)} {shift : BitVec 32} (kept : Kept setup initial lines words shift)
    (all : lines.length = setup.clocks) (whole : setup.lanes ∣ setup.wordBits)
    (fills : setup.perTransfer ∣ setup.wordCount) : PackedAs setup lines words := by
  have count := kept.count
  rw [all, TransferSetup.clocks, Nat.mul_div_cancel _ (TransferSetup.wordClocks_pos whole)] at count
  refine ⟨count, ?_⟩
  intro word clock lane inside inWord inLane
  have before : word * setup.wordClocks + clock < lines.length := by
    have room : (word + 1) * setup.wordClocks ≤ setup.clocks := Nat.mul_le_mul_right _ inside
    rw [Nat.succ_mul, ← all] at room
    omega
  have there : word / setup.perTransfer < words.length := by
    rw [count]
    exact Nat.div_lt_div_of_lt_of_dvd fills inside
  have bit := kept.bit word clock lane inWord inLane before
  rw [List.getD_eq_getElem _ _ there] at bit ⊢
  exact bit

end CoreVMcu.Spi
