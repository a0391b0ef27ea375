import CoreVMcu.Spi.Completed

/-!
# Words of a transfer

A transfer walks through its words, and through the clocks of each of them.  Its words
are packed into data words of 32 bits; a data word is used up when the counter of the
words of a transfer, wherever it started, has come to their number.
-/

namespace CoreVMcu.Spi

namespace TransferSetup

variable (setup : TransferSetup)

/-- The words of a transfer. -/
def wordCount : Nat := setup.size.toNat + 1

/-- The bits of a word. -/
def wordBits : Nat := setup.bitsword.toNat + 1

/-- The words that are packed into 32 bits. -/
def perTransfer : Nat := setup.wordtransf.toNat + 1

/-- The bits of a clock on the line. -/
def lanes : Nat := if setup.qpi then 4 else 1

/-- The clocks of a word. -/
def wordClocks : Nat := setup.wordBits / setup.lanes

/-- The clocks of a transfer. -/
def clocks : Nat := setup.wordCount * setup.wordClocks

/-- The data words of a transfer. -/
def dataWords : Nat := setup.size.toNat / setup.perTransfer + 1

/-- Where a word of a transfer begins in its data word. -/
def offset (word : Nat) : Nat := word % setup.perTransfer * (32 / setup.perTransfer)

/-- The place in the data word of the bit that goes over a lane in a clock of a word. -/
def place (word clock lane : Nat) : Nat :=
  (setup.offset word +
    if setup.lsbfirst then setup.lanes * clock + lane
    else setup.wordBits - setup.lanes * (clock + 1) + lane) % 32

/-- The words of a transfer are packed singly, in twos or in fours. -/
def Packs : Prop := setup.wordtransf = 0 ∨ setup.wordtransf = 1 ∨ setup.wordtransf = 3

/-- `r_counter_transf` after a word. -/
def transfAfter (count : BitVec 2) : BitVec 2 := if count = setup.wordtransf then 0 else count + 1

/-- `r_counter_transf` at a word of a transfer that starts with some value of it. -/
def transfAt (first : BitVec 2) (word : Nat) : BitVec 2 := setup.transfAfter^[word] first

/-- The data words that are used up before a word. -/
def used (first : BitVec 2) (word : Nat) : Nat :=
  (List.range word).countP fun earlier => setup.transfAt first earlier == setup.wordtransf

variable {setup}

theorem perTransfer_cases (packs : setup.Packs) :
    setup.perTransfer = 1 ∨ setup.perTransfer = 2 ∨ setup.perTransfer = 4 := by
  rcases packs with packs | packs | packs <;> simp [perTransfer, packs]

theorem perTransfer_pos (setup : TransferSetup) : 0 < setup.perTransfer := Nat.succ_pos _

theorem lanes_pos (setup : TransferSetup) : 0 < setup.lanes := by
  rw [lanes]
  split <;> decide

theorem wordBits_eq (whole : setup.lanes ∣ setup.wordBits) :
    setup.lanes * setup.wordClocks = setup.wordBits :=
  Nat.mul_div_cancel' whole

theorem wordClocks_pos (whole : setup.lanes ∣ setup.wordBits) : 0 < setup.wordClocks := by
  apply Nat.pos_of_ne_zero
  intro none
  have bits := wordBits_eq whole
  rw [none, Nat.mul_zero] at bits
  exact absurd bits.symm (Nat.succ_ne_zero _)

theorem transfAt_succ (setup : TransferSetup) (first : BitVec 2) (word : Nat) :
    setup.transfAt first (word + 1) = setup.transfAfter (setup.transfAt first word) :=
  Function.iterate_succ_apply' ..

/-- A counter that starts with zero counts the words since the last data word. -/
theorem transfAt_zero (packs : setup.Packs) (word : Nat) :
    (setup.transfAt 0 word).toNat = word % setup.perTransfer := by
  induction word with
  | zero => exact (Nat.zero_mod _).symm
  | succ word inductionHypothesis =>
      have next : ∀ count : BitVec 2, count.toNat < setup.perTransfer →
          (setup.transfAfter count).toNat = (count.toNat + 1) % setup.perTransfer := by
        rcases packs with packs | packs | packs
        all_goals
          rw [perTransfer, packs]
          simp only [transfAfter, packs]
          decide
      rw [transfAt_succ, next _ (inductionHypothesis ▸ Nat.mod_lt _ (perTransfer_pos setup)),
        inductionHypothesis, Nat.mod_add_mod]

theorem used_succ (setup : TransferSetup) (first : BitVec 2) (word : Nat) :
    setup.used first (word + 1) =
      setup.used first word + if setup.transfAt first word = setup.wordtransf then 1 else 0 := by
  simp only [used, List.range_succ, List.countP_append, List.countP_singleton, beq_iff_eq]

theorem used_mono (setup : TransferSetup) (first : BitVec 2) {earlier word : Nat}
    (before : earlier ≤ word) :
    setup.used first earlier ≤ setup.used first word := by
  rw [used, used, ← Nat.add_sub_cancel' before, List.range_add, List.countP_append]
  exact Nat.le_add_right ..

/-- From zero a data word is used up by the words that are packed into it. -/
theorem used_zero (packs : setup.Packs) (word : Nat) :
    setup.used 0 word = word / setup.perTransfer := by
  induction word with
  | zero => exact (Nat.zero_div _).symm
  | succ word inductionHypothesis =>
      have counted := transfAt_zero packs word
      have full : setup.transfAt 0 word = setup.wordtransf ↔
          setup.perTransfer ∣ word + 1 := by
        rw [← BitVec.toNat_inj, counted, Nat.dvd_iff_mod_eq_zero]
        exact Nat.succ_mod_succ_eq_zero_iff.symm
      rw [used_succ, inductionHypothesis, Nat.succ_div]
      simp only [full]

/-- No data word is used up before the counter comes to the number of its words. -/
theorem used_before (packs : setup.Packs) {count : BitVec 2} (notZero : count ≠ 0) :
    (∀ word : Nat, word ≤ setup.wordtransf.toNat →
      (count.toNat ≤ setup.wordtransf.toNat → count.toNat + word ≤ setup.wordtransf.toNat) →
      setup.used count word = 0) ∧
    (count.toNat ≤ setup.wordtransf.toNat →
      setup.used count (setup.wordtransf.toNat - count.toNat + 1) = 1) ∧
    (setup.wordtransf.toNat < count.toNat →
      setup.used count (setup.wordtransf.toNat + 1) = 0) := by
  have counts : setup.used = fun first word => (List.range word).countP fun earlier =>
      (fun count => if count = setup.wordtransf then 0 else count + 1)^[earlier] first ==
        setup.wordtransf := rfl
  rw [counts]
  revert count
  rcases packs with packs | packs | packs <;> rw [packs] <;> decide

/-- The data words that are used up from some word on. -/
theorem used_add (setup : TransferSetup) (first : BitVec 2) (word more : Nat) :
    setup.used first (word + more) =
      setup.used first word + setup.used (setup.transfAt first word) more := by
  rw [used, List.range_add, List.countP_append, List.countP_map]
  apply congrArg (setup.used first word + ·)
  apply List.countP_congr
  intro later _
  have same : setup.transfAt first (word + later) =
      setup.transfAt (setup.transfAt first word) later := by
    rw [transfAt, Nat.add_comm, Function.iterate_add_apply]
    rfl
  simp only [Function.comp_apply, same]

/-- A counter that is past the number of the words uses up too few data words. -/
theorem used_lt (packs : setup.Packs) {count : BitVec 2}
    (above : setup.wordtransf.toNat < count.toNat) (fills : setup.perTransfer ∣ setup.wordCount) :
    setup.used count setup.wordCount < setup.wordCount / setup.perTransfer := by
  have late : setup.used count (4 - count.toNat) = 0 ∧
      setup.transfAt count (4 - count.toNat) = 0 := by
    have counts : setup.used = fun first word => (List.range word).countP fun earlier =>
        (fun count => if count = setup.wordtransf then 0 else count + 1)^[earlier] first ==
          setup.wordtransf := rfl
    have transf : setup.transfAt = fun first word =>
        (fun count => if count = setup.wordtransf then 0 else count + 1)^[word] first := rfl
    rw [counts, transf]
    revert count
    rcases packs with packs | packs | packs <;> rw [packs] <;> decide
  have positive := perTransfer_pos setup
  have some : 0 < setup.wordCount / setup.perTransfer :=
    Nat.div_pos (Nat.le_of_dvd (Nat.succ_pos _) fills) positive
  have room : 0 < 4 - count.toNat := Nat.sub_pos_of_lt count.isLt
  rcases Nat.le_total setup.wordCount (4 - count.toNat) with few | many
  · exact Nat.lt_of_le_of_lt (setup.used_mono count few) (late.1 ▸ some)
  · obtain ⟨more, split⟩ := Nat.exists_eq_add_of_le many
    have used := setup.used_add count (4 - count.toNat) more
    rw [← split, late.1, late.2, used_zero packs, Nat.zero_add] at used
    rw [used]
    apply Nat.div_lt_of_lt_mul
    rw [Nat.mul_div_cancel' fills]
    omega

end TransferSetup

theorem transmission_packs (command : BitVec 32) : (transmission command).Packs := by
  rw [transmission]
  split
  · exact .inl rfl
  · exact wordstransf_cases command
  · exact wordstransf_cases command

theorem reception_packs (command : BitVec 32) : (reception command).Packs := by
  rw [reception]
  split
  · exact .inl rfl
  · exact .inl rfl
  · exact wordstransf_cases command
  · exact wordstransf_cases command

/-! ## The position in a transfer -/

/-- The shared registers of the serializer at a clock of a word of a transfer. -/
structure WalksAt (setup : TransferSetup) (first : BitVec 2) (word clock : Nat) (txRx : TxRx) :
    Prop where
  inside : word < setup.wordCount
  inWord : clock < setup.wordClocks
  lsbfirst : txRx.lsbfirst = setup.lsbfirst
  bitsword : txRx.bitsword = setup.bitsword
  wordtransf : txRx.wordtransf = setup.wordtransf
  counterHi : txRx.counterHi.toNat = setup.wordCount - 2 - word
  counterBits : txRx.counterBits.toNat + 1 = setup.lanes * (clock + 1)
  counterTransf : txRx.counterTransf = setup.transfAt first word
  bitOffset : txRx.bitOffset.toNat = setup.offset word

/-- The setup of a transfer is kept. -/
structure KeepsSetup (txRx next : TxRx) : Prop where
  lsbfirst : next.lsbfirst = txRx.lsbfirst
  bitsword : next.bitsword = txRx.bitsword
  wordtransf : next.wordtransf = txRx.wordtransf

/-- A clock inside a word. -/
structure CountsClock (txRx next : TxRx) (qpi : Bool) : Prop extends KeepsSetup txRx next where
  counterHi : next.counterHi = txRx.counterHi
  counterBits : next.counterBits = txRx.nextBits qpi
  counterTransf : next.counterTransf = txRx.counterTransf
  bitOffset : next.bitOffset = txRx.bitOffset

/-- The last clock of a word. -/
structure CountsWord (txRx next : TxRx) (qpi : Bool) : Prop extends KeepsSetup txRx next where
  counterHi : next.counterHi = countedDown txRx.counterHi
  counterBits : next.counterBits = txRx.nextBits qpi
  counterTransf : next.counterTransf = txRx.nextTransf
  bitOffset : next.bitOffset = txRx.bitOffset + txRx.bitOffsetAdd

namespace WalksAt

variable {setup : TransferSetup} {first : BitVec 2} {word clock : Nat} {txRx next : TxRx}

theorem bitsDone (walks : WalksAt setup first word clock txRx)
    (whole : setup.lanes ∣ setup.wordBits) :
    txRx.bitsDone = decide (clock + 1 = setup.wordClocks) := by
  have bits := TransferSetup.wordBits_eq whole
  have positive := TransferSetup.lanes_pos setup
  rw [TxRx.bitsDone, walks.bitsword, Bool.eq_iff_iff, beq_iff_eq, decide_eq_true_iff,
    ← BitVec.toNat_inj, ← Nat.add_right_cancel_iff (n := 1), walks.counterBits]
  change _ = setup.wordBits ↔ _
  rw [← bits]
  exact Nat.mul_right_inj (Nat.ne_of_gt positive)

theorem transfDone (walks : WalksAt setup first word clock txRx) :
    txRx.transfDone = decide (setup.transfAt first word = setup.wordtransf) := by
  rw [TxRx.transfDone, walks.counterTransf, walks.wordtransf]
  rfl

theorem nextTransf (walks : WalksAt setup first word clock txRx) :
    txRx.nextTransf = setup.transfAt first (word + 1) := by
  rw [TxRx.nextTransf, walks.transfDone, TransferSetup.transfAt_succ, TransferSetup.transfAfter,
    walks.counterTransf]
  simp only [decide_eq_true_eq]

/-- The count has come to zero at the last word but one. -/
theorem counterHi_zero (walks : WalksAt setup first word clock txRx) :
    (txRx.counterHi == 0) = decide (setup.wordCount ≤ word + 2) := by
  rw [Bool.eq_iff_iff, beq_iff_eq, decide_eq_true_iff, ← BitVec.toNat_inj, walks.counterHi]
  change _ = 0 ↔ _
  omega

theorem firstBit_toNat (setup : TransferSetup) : (firstBit setup.qpi).toNat + 1 = setup.lanes := by
  rw [TransferSetup.lanes]
  cases setup.qpi <;> rfl

theorem bitsPerCycle_toNat (setup : TransferSetup) :
    (bitsPerCycle setup.qpi).toNat = setup.lanes := by
  rw [TransferSetup.lanes]
  cases setup.qpi <;> rfl

/-- Inside a word the next clock follows. -/
theorem next_clock (walks : WalksAt setup first word clock txRx)
    (whole : setup.lanes ∣ setup.wordBits) (more : clock + 1 < setup.wordClocks)
    (counts : CountsClock txRx next setup.qpi) : WalksAt setup first word (clock + 1) next where
  inside := walks.inside
  inWord := more
  lsbfirst := counts.lsbfirst.trans walks.lsbfirst
  bitsword := counts.bitsword.trans walks.bitsword
  wordtransf := counts.wordtransf.trans walks.wordtransf
  counterHi := (congrArg BitVec.toNat counts.counterHi).trans walks.counterHi
  counterBits := by
    have bits := TransferSetup.wordBits_eq whole
    have room : setup.lanes * (clock + 1 + 1) ≤ setup.lanes * setup.wordClocks :=
      Nat.mul_le_mul_left _ more
    have bound : setup.wordBits ≤ 32 := setup.bitsword.isLt
    have counted := walks.counterBits
    rw [counts.counterBits, TxRx.nextBits, walks.bitsDone whole,
      decide_eq_false (Nat.ne_of_lt more), if_neg Bool.false_ne_true, BitVec.toNat_add,
      bitsPerCycle_toNat]
    rw [Nat.mul_succ] at room ⊢
    omega
  counterTransf := counts.counterTransf.trans walks.counterTransf
  bitOffset := (congrArg BitVec.toNat counts.bitOffset).trans walks.bitOffset

/-- Words begin in their data word one after the other. -/
theorem offset_succ (packs : setup.Packs) (offset : txRx.bitOffset.toNat = setup.offset word)
    (packing : txRx.wordtransf = setup.wordtransf) :
    (txRx.bitOffset + txRx.bitOffsetAdd).toNat = setup.offset (word + 1) := by
  have slot := Nat.mod_lt word (TransferSetup.perTransfer_pos setup)
  rw [TransferSetup.offset, ← Nat.mod_add_mod, BitVec.toNat_add, offset, TxRx.bitOffsetAdd, packing,
    TransferSetup.offset]
  generalize word % setup.perTransfer = index at slot ⊢
  rcases packs with packs | packs | packs
  all_goals
    simp only [TransferSetup.perTransfer, packs] at slot ⊢
    revert index
    decide

/-- After the last clock of a word the next word follows. -/
theorem next_word (walks : WalksAt setup first word clock txRx)
    (whole : setup.lanes ∣ setup.wordBits) (packs : setup.Packs)
    (ends : clock + 1 = setup.wordClocks) (more : word + 1 < setup.wordCount)
    (counts : CountsWord txRx next setup.qpi) : WalksAt setup first (word + 1) 0 next where
  inside := more
  inWord := TransferSetup.wordClocks_pos whole
  lsbfirst := counts.lsbfirst.trans walks.lsbfirst
  bitsword := counts.bitsword.trans walks.bitsword
  wordtransf := counts.wordtransf.trans walks.wordtransf
  counterHi := by
    rw [counts.counterHi, toNat_countedDown, walks.counterHi]
    exact Nat.sub_sub _ _ _
  counterBits := by
    rw [counts.counterBits, TxRx.nextBits, walks.bitsDone whole, decide_eq_true ends, if_pos rfl,
      firstBit_toNat, Nat.zero_add, Nat.mul_one]
  counterTransf := counts.counterTransf.trans walks.nextTransf
  bitOffset := by
    rw [counts.bitOffset]
    exact offset_succ packs walks.bitOffset walks.wordtransf

/-- The bit index is that of the first lane, or of the last one with the low bits first. -/
theorem bitIndex (walks : WalksAt setup first word clock txRx)
    (whole : setup.lanes ∣ setup.wordBits) :
    txRx.bitIndex.toNat =
      setup.place word clock (if setup.lsbfirst then setup.lanes - 1 else 0) := by
  have counted := walks.counterBits
  have positive := TransferSetup.lanes_pos setup
  have bits := TransferSetup.wordBits_eq whole
  have room : setup.lanes * (clock + 1) ≤ setup.lanes * setup.wordClocks :=
    Nat.mul_le_mul_left _ walks.inWord
  have bound : setup.wordBits ≤ 32 := setup.bitsword.isLt
  have size : setup.bitsword.toNat + 1 = setup.wordBits := rfl
  rw [TxRx.bitIndex, walks.lsbfirst, walks.bitsword, TransferSetup.place]
  cases setup.lsbfirst with
  | true =>
      simp only [if_pos]
      rw [BitVec.toNat_add, walks.bitOffset]
      rw [Nat.mul_succ] at counted
      congr 1
      omega
  | false =>
      simp only [Bool.false_eq_true, if_false]
      rw [BitVec.toNat_sub, BitVec.toNat_add, walks.bitOffset]
      omega

end WalksAt

/-- The words of a transfer begin at a multiple of eight. -/
theorem TransferSetup.offset_aligned {setup : TransferSetup} (packs : setup.Packs) (word : Nat) :
    4 ∣ setup.offset word := by
  rw [TransferSetup.offset]
  rcases TransferSetup.perTransfer_cases packs with packed | packed | packed <;> rw [packed]
  · rw [Nat.mod_one, Nat.zero_mul]
    exact Nat.dvd_zero _
  · exact Nat.dvd_mul_left_of_dvd (by decide) _
  · exact Nat.dvd_mul_left_of_dvd (by decide) _

/-- With four lanes the bits of a clock have adjacent places. -/
theorem TransferSetup.place_quad {setup : TransferSetup} (quad : setup.qpi = true)
    (packs : setup.Packs) (whole : setup.lanes ∣ setup.wordBits) (word clock : Nat) {lane : Nat}
    (inside : lane < 4) : setup.place word clock lane = setup.place word clock 0 + lane := by
  have lanes : setup.lanes = 4 := by rw [TransferSetup.lanes, quad, if_pos rfl]
  obtain ⟨start, startEq⟩ := TransferSetup.offset_aligned packs word
  rw [lanes] at whole
  obtain ⟨count, countEq⟩ := whole
  rw [TransferSetup.place, TransferSetup.place, lanes, startEq, countEq]
  split <;> omega

end CoreVMcu.Spi
