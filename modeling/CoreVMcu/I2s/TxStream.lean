import CoreVMcu.I2s.Loopback

/-!
# The transmitted bits

While the transmitter runs, the bits of its words follow each other on the lines.  With
one channel the second word that it takes is never sent.
-/

namespace CoreVMcu.I2s

variable (cfg : I2sCfg) (words : Nat → BitVec 32)

/-! ## The words on the lines -/

/-- The words that channel 0 sends. -/
def sentCh0 (k : Nat) : BitVec 32 :=
  if cfg.twoCh then words (2 * k) else if k = 0 then words 0 else words (k + 1)

/-- The words that channel 1 sends. -/
def sentCh1 (k : Nat) : BitVec 32 := words (2 * k + 1)

/-- The bits of some words, one after the other. -/
def bitStream (sent : Nat → BitVec 32) (i : Nat) : Bool :=
  (sent (i / cfg.bits)).getLsbD (cfg.place (i % cfg.bits))

/-- A shift register holds what is left of a word. -/
def Holds (shiftreg word : BitVec 32) (gone : Nat) : Prop :=
  ∀ b, b + gone ≤ cfg.wlen.toNat →
    shiftreg.getLsbD (cfg.place b) = word.getLsbD (cfg.place (b + gone))

section Position

variable {cfg} {i : Nat}

theorem next_inside (inside : i % cfg.bits ≠ cfg.wlen.toNat) :
    (i + 1) / cfg.bits = i / cfg.bits ∧ (i + 1) % cfg.bits = i % cfg.bits + 1 := by
  have below : i % cfg.bits < cfg.bits := Nat.mod_lt _ cfg.bits_pos
  have room : i % cfg.bits + 1 < cfg.bits := by
    rw [I2sCfg.bits] at below inside ⊢
    omega
  have split : i + 1 = i % cfg.bits + 1 + cfg.bits * (i / cfg.bits) := by
    have := Nat.mod_add_div i cfg.bits
    omega
  rw [split, Nat.add_mul_div_left _ _ cfg.bits_pos, Nat.div_eq_of_lt room, Nat.zero_add,
    Nat.add_mul_mod_self_left, Nat.mod_eq_of_lt room]
  exact ⟨rfl, rfl⟩

theorem next_last (last : i % cfg.bits = cfg.wlen.toNat) :
    (i + 1) / cfg.bits = i / cfg.bits + 1 ∧ (i + 1) % cfg.bits = 0 := by
  have split : i + 1 = cfg.bits * (i / cfg.bits + 1) := by
    have whole := Nat.mod_add_div i cfg.bits
    have width : cfg.bits = cfg.wlen.toNat + 1 := rfl
    rw [Nat.mul_add, Nat.mul_one]
    omega
  rw [split, Nat.mul_div_cancel_left _ cfg.bits_pos, Nat.mul_mod_right]
  exact ⟨rfl, rfl⟩

end Position

namespace Holds

variable {cfg} {shiftreg word : BitVec 32} {gone : Nat}

theorem load : Holds cfg word word 0 := fun _ _ => rfl

theorem shift (holds : Holds cfg shiftreg word gone) :
    Holds cfg (TxChannel.shiftOut cfg shiftreg) word (gone + 1) := by
  intro b inside
  rw [TxChannel.getLsbD_shiftOut cfg shiftreg (by omega), holds (b + 1) (by omega),
    Nat.add_right_comm, Nat.add_assoc]

theorem bitOut (holds : Holds cfg shiftreg word gone) (inside : gone ≤ cfg.wlen.toNat) :
    TxChannel.bitOut cfg shiftreg = word.getLsbD (cfg.place gone) := by
  rw [TxChannel.bitOut_eq, I2sCfg.firstBit, holds 0 (by omega), Nat.zero_add]

/-- The bit on the line after a falling edge. -/
theorem line {sent : Nat → BitVec 32} {i : Nat}
    (holds : Holds cfg shiftreg (sent (i / cfg.bits)) (i % cfg.bits)) :
    TxChannel.bitOut cfg shiftreg = bitStream cfg sent i :=
  holds.bitOut (Nat.le_of_lt_succ (Nat.mod_lt _ cfg.bits_pos))

end Holds

/-! ## The running transmitter -/

/-- The transmitter with the `i`-th bit of its words on the lines. -/
structure TxRuns (i : Nat) (tx : TxChannel) (position : Nat) : Prop where
  state : tx.rState = .running
  count : tx.rCountBit.toNat = i % cfg.bits
  ch0 : Holds cfg tx.rShiftregCh0 (sentCh0 cfg words (i / cfg.bits)) (i % cfg.bits)
  ch1 : cfg.twoCh = true → Holds cfg tx.rShiftregCh1 (sentCh1 words (i / cfg.bits)) (i % cfg.bits)
  shadow : cfg.twoCh = true → i % cfg.bits = cfg.wlen.toNat →
    tx.rShiftregShadow = sentCh0 cfg words (i / cfg.bits + 1)
  position : position =
    if cfg.twoCh then
      2 * (i / cfg.bits) + 2 + if i % cfg.bits = cfg.wlen.toNat then 1 else 0
    else i / cfg.bits + 2
  lineCh0 : tx.i2sCh0 = bitStream cfg (sentCh0 cfg words) i
  lineCh1 : cfg.twoCh = true → tx.i2sCh1 = bitStream cfg (sentCh1 words) i

namespace TxRuns

variable {cfg words} {i position : Nat} {tx : TxChannel}

theorem wordDone_iff (runs : TxRuns cfg words i tx position) :
    tx.wordDone cfg = true ↔ i % cfg.bits = cfg.wlen.toNat := by
  rw [TxChannel.wordDone, beq_iff_eq, ← runs.count, BitVec.toNat_inj]

theorem wordDonePre_iff (runs : TxRuns cfg words i tx position) :
    tx.wordDonePre cfg = true ↔ i % cfg.bits + 1 = cfg.wlen.toNat := by
  rw [TxChannel.wordDonePre, beq_iff_eq, runs.count]

/-- What a clock of the running transmitter does to its registers. -/
theorem machineStep_eq (runs : TxRuns cfg words i tx position) (ws : Bool) (data : BitVec 32) :
    tx.machineStep cfg ws true data =
      { tx with
        rShiftregCh0 := tx.shiftregCh0 cfg data
        rShiftregCh1 := if cfg.twoCh then tx.shiftregCh1 cfg data else tx.rShiftregCh1
        rShiftregShadow :=
          if tx.wordDonePre cfg && cfg.twoCh then data else tx.rShiftregShadow
        rCountBit := if tx.wordDone cfg then 0 else tx.rCountBit + 1 } := by
  rw [TxChannel.machineStep, runs.state]

/-- A clock inside a word. -/
theorem step_inside (runs : TxRuns cfg words i tx position)
    (inside : i % cfg.bits ≠ cfg.wlen.toNat) (ws : Bool) :
    TxRuns cfg words (i + 1) ((tx.posedge cfg ws true (words position)).negedge cfg)
      (if tx.fifoDataReady cfg true then position + 1 else position) := by
  obtain ⟨word, bit⟩ := next_inside inside
  have notDone : tx.wordDone cfg = false := by
    rw [Bool.eq_false_iff, Ne, runs.wordDone_iff]
    exact inside
  have ready : tx.fifoDataReady cfg true = (tx.wordDonePre cfg && cfg.twoCh) := by
    rw [TxChannel.fifoDataReady, runs.state]
    change (tx.wordDonePre cfg && cfg.twoCh || tx.wordDone cfg) = _
    rw [notDone, Bool.or_false]
  have below : i % cfg.bits < cfg.wlen.toNat :=
    Nat.lt_of_le_of_ne (Nat.le_of_lt_succ (Nat.mod_lt _ cfg.bits_pos)) inside
  have ch0 : Holds cfg (tx.shiftregCh0 cfg (words position))
      (sentCh0 cfg words ((i + 1) / cfg.bits)) ((i + 1) % cfg.bits) := by
    rw [TxChannel.shiftregCh0, notDone, word, bit]
    exact runs.ch0.shift
  have ch1 : cfg.twoCh = true → Holds cfg
      (if cfg.twoCh then tx.shiftregCh1 cfg (words position) else tx.rShiftregCh1)
      (sentCh1 words ((i + 1) / cfg.bits)) ((i + 1) % cfg.bits) := by
    intro two
    rw [if_pos two, TxChannel.shiftregCh1, notDone, word, bit]
    exact (runs.ch1 two).shift
  rw [TxChannel.posedge, runs.machineStep_eq, notDone]
  refine ⟨runs.state, ?_, ch0, ch1, ?_, ?_, ch0.line, fun two => (ch1 two).line⟩
  · have short := cfg.wlen_lt
    change (tx.rCountBit + 1).toNat = _
    rw [BitVec.toNat_add, runs.count, bit]
    exact Nat.mod_eq_of_lt (show i % cfg.bits + 1 < 2 ^ 5 by omega)
  · intro two last
    rw [bit] at last
    change (if tx.wordDonePre cfg && cfg.twoCh then words position else _) = _
    rw [runs.wordDonePre_iff.mpr last, two, word, runs.position, two, if_neg inside]
    simp only [Bool.and_self, if_true, sentCh0, two]
    rw [Nat.mul_add]
  · rw [ready, runs.position, word, bit, if_neg inside]
    cases two : cfg.twoCh with
    | false => simp
    | true =>
        simp only [Bool.and_true, if_true, runs.wordDonePre_iff]
        split <;> rfl

/-- The clock after the last bit of a word. -/
theorem step_last (runs : TxRuns cfg words i tx position) (long : 0 < cfg.wlen.toNat)
    (last : i % cfg.bits = cfg.wlen.toNat) (ws : Bool) :
    TxRuns cfg words (i + 1) ((tx.posedge cfg ws true (words position)).negedge cfg)
      (if tx.fifoDataReady cfg true then position + 1 else position) := by
  obtain ⟨word, bit⟩ := next_last last
  have done : tx.wordDone cfg = true := runs.wordDone_iff.mpr last
  have ready : tx.fifoDataReady cfg true = true := by
    rw [TxChannel.fifoDataReady, runs.state]
    change (_ || tx.wordDone cfg) = true
    rw [done, Bool.or_true]
  have ch0 : Holds cfg (tx.shiftregCh0 cfg (words position))
      (sentCh0 cfg words ((i + 1) / cfg.bits)) ((i + 1) % cfg.bits) := by
    have loaded : tx.shiftregCh0 cfg (words position) = sentCh0 cfg words (i / cfg.bits + 1) := by
      rw [TxChannel.shiftregCh0, done, if_pos rfl]
      cases two : cfg.twoCh with
      | true => rw [if_pos rfl, runs.shadow two last]
      | false =>
          rw [if_neg Bool.false_ne_true, runs.position, two, if_neg Bool.false_ne_true, sentCh0,
            two, if_neg Bool.false_ne_true, if_neg (Nat.succ_ne_zero _)]
    rw [loaded, word, bit]
    exact .load
  have ch1 : cfg.twoCh = true → Holds cfg
      (if cfg.twoCh then tx.shiftregCh1 cfg (words position) else tx.rShiftregCh1)
      (sentCh1 words ((i + 1) / cfg.bits)) ((i + 1) % cfg.bits) := by
    intro two
    have loaded : tx.shiftregCh1 cfg (words position) = sentCh1 words (i / cfg.bits + 1) := by
      rw [TxChannel.shiftregCh1, done, if_pos rfl, runs.position, two, if_pos rfl, if_pos last,
        sentCh1, Nat.mul_add]
    rw [if_pos two, loaded, word, bit]
    exact .load
  rw [TxChannel.posedge, runs.machineStep_eq, done]
  refine ⟨runs.state, bit.symm, ch0, ch1, ?_, ?_, ch0.line, fun two => (ch1 two).line⟩
  · intro _ again
    rw [bit] at again
    exact absurd again (Nat.ne_of_lt long)
  · rw [ready, if_pos rfl, runs.position, word, bit, if_pos last, if_neg (Nat.ne_of_lt long)]
    split <;> rfl

/-- A clock of the running transmitter. -/
theorem step (runs : TxRuns cfg words i tx position) (long : 0 < cfg.wlen.toNat) (ws : Bool) :
    TxRuns cfg words (i + 1) ((tx.posedge cfg ws true (words position)).negedge cfg)
      (if tx.fifoDataReady cfg true then position + 1 else position) := by
  cases Nat.decEq (i % cfg.bits) cfg.wlen.toNat with
  | isTrue last => exact runs.step_last long last ws
  | isFalse inside => exact runs.step_inside inside ws

end TxRuns

end CoreVMcu.I2s
