import CoreVMcu.Spi.ReceiveExact
import CoreVMcu.Clocked.GrayCode

/-!
# Checks of received bits

A check reads one word and compares the low half of the shift register with its value.
The bits of the word are in their places there; what lies above them is left from
before, and the comparison reads it too.
-/

namespace CoreVMcu.Spi

open Clocked

/-- Whether data satisfies the comparison of a check: with the whole value, with its ones,
with its zeros, or that it does not have all its ones. -/
def compares (type : BitVec 2) (chk data : BitVec 16) : Bool :=
  match type.toNat with
  | 0 => data == chk
  | 1 => data &&& chk == chk
  | 2 => ~~~data &&& ~~~chk == ~~~chk
  | _ => data &&& chk != chk

/-- Whether a bit of the data does what the type asks of it. -/
def bitAgrees (type : BitVec 2) (wanted bit : Bool) : Bool :=
  match type.toNat with
  | 0 => bit == wanted
  | 2 => !bit || wanted
  | _ => bit || !wanted

theorem bitAgrees_self (type : BitVec 2) (bit : Bool) : bitAgrees type bit bit = true := by
  revert type bit
  decide

/-- All bits of the data do what the type asks of them. -/
def BitsAgree (type : BitVec 2) (chk data : BitVec 16) : Prop :=
  ∀ place < 16, bitAgrees type (chk.getLsbD place) (data.getLsbD place) = true

/-- A comparison is one of all bits, or of the last type, which some bit fails. -/
theorem compares_iff (type : BitVec 2) (chk data : BitVec 16) :
    compares type chk data = true ↔ (type ≠ 3 ↔ BitsAgree type chk data) := by
  have ones : data &&& chk = chk ↔
      ∀ place < 16, (data.getLsbD place || !chk.getLsbD place) = true := by
    rw [BitVec.eq_of_getLsbD_eq_iff]
    apply forall₂_congr
    intro place _
    rw [BitVec.getLsbD_and]
    cases data.getLsbD place <;> cases chk.getLsbD place <;> decide
  have zeros : ~~~data &&& ~~~chk = ~~~chk ↔
      ∀ place < 16, (!data.getLsbD place || chk.getLsbD place) = true := by
    rw [BitVec.eq_of_getLsbD_eq_iff]
    apply forall₂_congr
    intro place inside
    simp only [BitVec.getLsbD_and, BitVec.getLsbD_not, inside, decide_true, Bool.true_and]
    cases data.getLsbD place <;> cases chk.getLsbD place <;> decide
  have whole : data = chk ↔ ∀ place < 16, (data.getLsbD place == chk.getLsbD place) = true := by
    rw [BitVec.eq_of_getLsbD_eq_iff]
    simp only [beq_iff_eq]
  have types : type = 0 ∨ type = 1 ∨ type = 2 ∨ type = 3 := by
    revert type
    decide
  rcases types with rfl | rfl | rfl | rfl
  · exact (beq_iff_eq.trans whole).trans (iff_true_left (by decide)).symm
  · exact (beq_iff_eq.trans ones).trans (iff_true_left (by decide)).symm
  · exact (beq_iff_eq.trans zeros).trans (iff_true_left (by decide)).symm
  · exact (bne_iff_ne.trans (not_congr ones)).trans (iff_false_left (by decide)).symm

theorem compares_congr {type : BitVec 2} {chk data other : BitVec 16}
    (same : BitsAgree type chk data ↔ BitsAgree type chk other) :
    compares type chk data = compares type chk other := by
  rw [Bool.eq_iff_iff, compares_iff, compares_iff, same]

theorem bitsAgree_congr {type : BitVec 2} {chk data other : BitVec 16}
    (same : compares type chk data = compares type chk other) :
    BitsAgree type chk data ↔ BitsAgree type chk other := by
  rw [Bool.eq_iff_iff, compares_iff, compares_iff] at same
  by_cases last : type = 3
  · rw [iff_false_left (not_not.mpr last), iff_false_left (not_not.mpr last)] at same
    exact not_iff_not.mp same
  · rw [iff_true_left last, iff_true_left last] at same
    exact same

/-- The low bits of a word. -/
def lowBits (size : Nat) (word : BitVec 16) : BitVec 16 := (word.setWidth size).setWidth 16

/-- The bits of a word above the low ones. -/
def highBits (size : Nat) (word : BitVec 16) : BitVec 16 := (word >>> size) <<< size

theorem getLsbD_lowBits (size : Nat) (word : BitVec 16) (place : Nat) :
    (lowBits size word).getLsbD place = (decide (place < size) && word.getLsbD place) := by
  rw [lowBits, BitVec.getLsbD_setWidth, BitVec.getLsbD_setWidth]
  by_cases inside : place < 16
  · rw [decide_eq_true inside, Bool.true_and]
  · rw [decide_eq_false inside, BitVec.getLsbD_of_ge _ _ (Nat.le_of_not_lt inside), Bool.and_false,
      Bool.and_false]

theorem getLsbD_highBits (size : Nat) (word : BitVec 16) (place : Nat) :
    (highBits size word).getLsbD place = (!decide (place < size) && word.getLsbD place) := by
  rw [highBits, BitVec.getLsbD_shiftLeft, BitVec.getLsbD_ushiftRight]
  by_cases low : place < size
  · rw [decide_eq_true low, Bool.not_true, Bool.and_false, Bool.false_and, Bool.false_and]
  · rw [decide_eq_false low, Nat.add_sub_cancel' (Nat.le_of_not_lt low), Bool.not_false,
      Bool.and_true, Bool.true_and]
    by_cases inside : place < 16
    · rw [decide_eq_true inside, Bool.true_and]
    · rw [decide_eq_false inside, BitVec.getLsbD_of_ge _ _ (Nat.le_of_not_lt inside),
        Bool.false_and]

/-- What lies above the low bits of a word compares as zeros do. -/
def Harmless (type : BitVec 2) (chk word : BitVec 16) (size : Nat) : Prop :=
  compares type chk (highBits size word ||| lowBits size chk) = compares type chk (lowBits size chk)

instance (type : BitVec 2) (chk word : BitVec 16) (size : Nat) :
    Decidable (Harmless type chk word size) :=
  inferInstanceAs (Decidable (_ = _))

/-- When it does so below the bits of the value, it does so below any bits. -/
theorem compares_low {type : BitVec 2} {chk word data : BitVec 16} {size : Nat}
    (harmless : Harmless type chk word size) :
    compares type chk (highBits size word ||| lowBits size data) =
      compares type chk (lowBits size data) := by
  have apart : ∀ data high : BitVec 16,
      BitsAgree type chk (highBits size high ||| lowBits size data) ↔
        BitsAgree type (lowBits size chk) (lowBits size data) ∧
          BitsAgree type (highBits size chk) (highBits size high) := by
    intro data high
    rw [BitsAgree, BitsAgree, BitsAgree, ← forall₂_and]
    apply forall₂_congr
    intro place _
    simp only [BitVec.getLsbD_or, getLsbD_lowBits, getLsbD_highBits]
    cases decide (place < size) with
    | true => simp [bitAgrees_self]
    | false => simp [bitAgrees_self]
  have none : ∀ data, lowBits size data = highBits size 0 ||| lowBits size data := by
    intro data
    simp [highBits]
  have self : BitsAgree type (lowBits size chk) (lowBits size chk) :=
    fun place _ => bitAgrees_self type _
  have high := bitsAgree_congr harmless
  conv at high => rhs; rw [none]
  rw [apart, apart, and_iff_right self, and_iff_right self] at high
  conv => rhs; rw [none]
  apply compares_congr
  rw [apart, apart, high]

/-! ## The word of a check -/

namespace TransferSetup

/-- The transfer of a check: one word of at most half a data word. -/
structure OneWord (setup : TransferSetup) : Prop where
  size : setup.size = 0
  wordtransf : setup.wordtransf = 0
  short : setup.wordBits ≤ 16

variable {setup : TransferSetup}

namespace OneWord

theorem packs (one : setup.OneWord) : setup.Packs := .inl one.wordtransf

theorem perTransfer (one : setup.OneWord) : setup.perTransfer = 1 := by
  rw [TransferSetup.perTransfer, one.wordtransf]
  rfl

theorem fits (one : setup.OneWord) : setup.perTransfer * setup.wordBits ≤ 32 := by
  rw [one.perTransfer, Nat.one_mul]
  exact Nat.le_trans one.short (by decide)

theorem clocks (one : setup.OneWord) : setup.clocks = setup.wordClocks := by
  rw [TransferSetup.clocks, wordCount, one.size]
  exact Nat.one_mul _

end OneWord

/-- The word that is read from the line, with its bits in the places that the order gives them. -/
def wordRead (setup : TransferSetup) (lines : List DataLines) : BitVec 16 :=
  ofBits (fun place => decide (place < setup.wordBits) &&
    (lines.getD (setup.group (place / setup.lanes)) .low).lane setup.qpi (place % setup.lanes)) 16

theorem lowBits_wordRead (setup : TransferSetup) (lines : List DataLines) :
    lowBits setup.wordBits (setup.wordRead lines) = setup.wordRead lines := by
  apply BitVec.eq_of_getLsbD_eq
  intro place inside
  rw [getLsbD_lowBits, wordRead, getLsbD_ofBits inside, ← Bool.and_assoc, Bool.and_self]

theorem group_group {clock : Nat} (inWord : clock < setup.wordClocks) :
    setup.group (setup.group clock) = clock := by
  rw [group, group]
  split <;> omega

/-- The place of a bit is that of a clock and a lane. -/
theorem place_group (one : setup.OneWord) (whole : setup.lanes ∣ setup.wordBits) (word : Nat)
    {place : Nat} (inside : place < setup.wordBits) :
    place / setup.lanes < setup.wordClocks ∧
      setup.place word (setup.group (place / setup.lanes)) (place % setup.lanes) = place := by
  have lane := Nat.mod_lt place (lanes_pos setup)
  have inWord : place / setup.lanes < setup.wordClocks := by
    rw [← wordBits_eq whole] at inside
    exact Nat.div_lt_of_lt_mul inside
  refine ⟨inWord, ?_⟩
  rw [(place_eq whole one.fits word (group_lt inWord) lane).2, one.perTransfer, Nat.mod_one,
    Nat.zero_mul, Nat.zero_add, group_group inWord]
  exact Nat.div_add_mod' ..

/-- The places of a word lie below its number of bits. -/
theorem place_lt (one : setup.OneWord) (whole : setup.lanes ∣ setup.wordBits) (word : Nat)
    {clock lane : Nat} (inWord : clock < setup.wordClocks) (inside : lane < setup.lanes) :
    setup.place word clock lane < setup.wordBits := by
  have before : (setup.group clock + 1) * setup.lanes ≤ setup.wordClocks * setup.lanes :=
    Nat.mul_le_mul_right _ (group_lt inWord)
  rw [Nat.succ_mul, Nat.mul_comm setup.wordClocks, wordBits_eq whole] at before
  rw [(place_eq whole one.fits word inWord inside).2, one.perTransfer, Nat.mod_one, Nat.zero_mul,
    Nat.zero_add]
  omega

end TransferSetup

theorem reception_oneWord {command : BitVec 32} (checks : spiCmd command = some .rxCheck) :
    (reception command).OneWord := by
  rw [reception, checks]
  refine ⟨rfl, rfl, ?_⟩
  have short : ((cdWordsize command).extractLsb' 0 4).toNat < 16 := BitVec.isLt _
  rw [TransferSetup.wordBits, BitVec.toNat_setWidth]
  exact Nat.succ_le_of_lt (Nat.lt_of_le_of_lt (Nat.mod_le _ _) short)

/-- The shift register after a word: its bits below, and what was there above. -/
theorem Kept.register {setup : TransferSetup} {initial shift : BitVec 32} {lines : List DataLines}
    (kept : Kept setup initial lines [shift] shift) (one : setup.OneWord)
    (whole : setup.lanes ∣ setup.wordBits) (all : lines.length = setup.wordClocks) :
    shift.extractLsb' 0 16 =
      highBits setup.wordBits (initial.extractLsb' 0 16) |||
        lowBits setup.wordBits (setup.wordRead lines) := by
  apply BitVec.eq_of_getLsbD_eq
  intro place inside
  rw [BitVec.getLsbD_or, getLsbD_highBits, getLsbD_lowBits, TransferSetup.wordRead,
    getLsbD_ofBits inside, BitVec.getLsbD_extractLsb', BitVec.getLsbD_extractLsb',
    decide_eq_true inside, Bool.true_and, Bool.true_and, Nat.zero_add]
  by_cases low : place < setup.wordBits
  · obtain ⟨inWord, there⟩ := TransferSetup.place_group one whole 0 low
    have clock := TransferSetup.group_lt inWord
    have bit := kept.bit 0 _ _ clock (Nat.mod_lt place (TransferSetup.lanes_pos setup))
      (by rw [Nat.zero_mul, Nat.zero_add, all]; exact clock)
    rw [there, Nat.zero_div, Nat.zero_mul, Nat.zero_add] at bit
    rw [decide_eq_true low, Bool.not_true, Bool.false_and, Bool.false_or, Bool.true_and,
      Bool.true_and]
    exact bit
  · have stale := kept.stale place fun word clock lane inWord inside _ same =>
      low (same ▸ TransferSetup.place_lt one whole word inWord inside)
    rw [decide_eq_false low, Bool.not_false, Bool.true_and, Bool.false_and, Bool.or_false]
    exact stale

/-! ## The cycles of a check -/

section Cycles

variable {master : SpiMaster} {setup : TransferSetup}

/-- The comparison, and the loop, are kept. -/
structure KeepsCheck (next ctrl : SpimCtrl) : Prop extends SpimCtrl.SameLoop next ctrl where
  chkType : next.chkType = ctrl.chkType
  chk : next.chk = ctrl.chk

theorem step_keepsCheck (input : MasterInput) (state : master.ctrl.state = .waitCheck) :
    KeepsCheck (master.step input).ctrl master.ctrl := by
  have busy : master.ctrl.busy = true := by rw [SpimCtrl.busy, state]
  have update : (master.signals input).updateChk = false := by
    rw [SpiMaster.signals, SpimCtrl.signals, state]
    change (master.ctrl.waitCheck (master.ctrlInput input)).updateChk = false
    rw [SpimCtrl.waitCheck]
    split <;> rfl
  refine ⟨SpimCtrl.step_busy busy _, ?_, ?_⟩
  · change (if (master.signals input).updateChk then _ else _) = _
    rw [update]
    rfl
  · change (if (master.signals input).updateChk then _ else _) = _
    rw [update]
    rfl

theorem KeepsCheck.trans {last next ctrl : SpimCtrl} (later : KeepsCheck last next)
    (earlier : KeepsCheck next ctrl) : KeepsCheck last ctrl where
  isReplay := later.isReplay.trans earlier.isReplay
  rptNum := later.rptNum.trans earlier.rptNum
  firstReplay := later.firstReplay.trans earlier.firstReplay
  replayBuffer := later.replayBuffer.trans earlier.replayBuffer
  chkType := later.chkType.trans earlier.chkType
  chk := later.chk.trans earlier.chk

theorem runFrom_keepsCheck {rest : List MasterInput}
    (busy : spimMachine.AlwaysFrom (SpiMaster.InState .waitCheck) master rest) :
    KeepsCheck (spimMachine.runFrom master rest).ctrl master.ctrl := by
  induction rest generalizing master with
  | nil => exact ⟨⟨rfl, rfl, rfl, rfl⟩, rfl, rfl⟩
  | cons input rest inductionHypothesis =>
      exact (inductionHypothesis busy.2).trans (step_keepsCheck input busy.1)

/-- The result of a check is that of the data word which the receiver hands over. -/
theorem step_waitCheck_chkResult (input : MasterInput) (state : master.ctrl.state = .waitCheck) :
    (master.step input).ctrl.chkResult =
      if (master.txRx.rxSignals (master.txRxInput input)).dataValid then
        compares master.ctrl.chkType master.ctrl.chk
          ((master.txRx.rxSignals (master.txRxInput input)).data.extractLsb' 0 16)
      else master.ctrl.chkResult := by
  change (if (master.signals input).updateChkResult then (master.signals input).chkResult
    else _) = _
  have signals : (master.signals input).updateChkResult =
        (master.txRx.rxSignals (master.txRxInput input)).dataValid ∧
      (master.signals input).chkResult =
        ((master.txRx.rxSignals (master.txRxInput input)).dataValid &&
          master.ctrl.checkResult (master.ctrlInput input)) := by
    rw [SpiMaster.signals, SpimCtrl.signals, state]
    change (master.ctrl.waitCheck (master.ctrlInput input)).updateChkResult = _ ∧
      (master.ctrl.waitCheck (master.ctrlInput input)).chkResult = _
    rw [SpimCtrl.waitCheck]
    split <;> exact ⟨rfl, rfl⟩
  rw [signals.1, signals.2]
  split
  · next valid =>
      rw [valid, Bool.true_and]
      rfl
  · rfl

/-- The comparison of a check that is over. -/
theorem SpimCtrl.InReceive.compares (ctrl : master.ctrl.InReceive .waitCheck setup.qpi)
    (position : ReceivesAt setup 0 0 0 master.txRx) (one : setup.OneWord)
    (whole : setup.lanes ∣ setup.wordBits) (inPlace : setup.InPlace) {rest : List MasterInput}
    (all : rest.length = setup.wordClocks) :
    (spimMachine.runFrom master rest).ctrl.chkResult =
      compares master.ctrl.chkType master.ctrl.chk
        (highBits setup.wordBits (master.txRx.rxShiftReg.extractLsb' 0 16) |||
          lowBits setup.wordBits (setup.wordRead (rest.map MasterInput.sdi))) := by
  have packs := one.packs
  have clocks := one.clocks
  have kept := kept_runFrom ctrl position whole packs inPlace one.fits rest
    (Nat.le_of_eq (all.trans clocks.symm))
  induction rest using List.reverseRecOn with
  | nil => exact absurd all (Nat.ne_of_lt (TransferSetup.wordClocks_pos whole))
  | append_singleton rest input _ =>
      have total := all
      rw [List.length_append, List.length_singleton] at all
      have short : rest.length < setup.wordClocks := all ▸ Nat.lt_succ_self _
      have before := kept_runFrom ctrl position whole packs inPlace one.fits rest
        (Nat.le_of_lt (clocks ▸ short))
      obtain ⟨ctrl, position, busy, -⟩ := ctrl.runFrom position whole packs rest (clocks ▸ short)
      have none := before.count
      rw [List.length_map, Nat.div_eq_of_lt short, Nat.zero_div, List.length_eq_zero_iff] at none
      have hears := ctrl.hears input
      have given := position.wordGiven whole hears
      rw [Nat.div_eq_of_lt short, Nat.mod_eq_of_lt short,
        if_pos ⟨all, one.wordtransf.symm⟩] at given
      have shift : (spimMachine.runFrom master (rest ++ [input])).txRx.rxShiftReg =
          (spimMachine.runFrom master rest).txRx.dataRx
            ((spimMachine.runFrom master rest).txRxInput input) := by
        rw [Machine.runFrom_append]
        exact step_rxShiftReg position.rxState hears
      rw [Machine.observedFrom_append, none, List.nil_append, Machine.observedFrom,
        Machine.observedFrom, List.append_nil, SpiMaster.wordGiven, given, ← shift] at kept
      have register := kept.register one whole ((List.length_map _).trans total)
      have same := runFrom_keepsCheck busy
      have result := step_waitCheck_chkResult input ctrl.state
      rw [TxRx.wordGiven] at given
      split at given
      · next valid =>
          rw [if_pos valid, List.head_eq_of_cons_eq given, same.chkType, same.chk, ← shift,
            register] at result
          rw [Machine.runFrom_append]
          exact result
      · cases given

end Cycles

end CoreVMcu.Spi
