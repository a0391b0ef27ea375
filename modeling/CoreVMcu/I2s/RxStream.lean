import CoreVMcu.I2s.TxStream

/-!
# The received words

The receiver starts one bit late, so the first word comes without its first bit.  With
two channels the word of channel 1 is handed over again in every clock in which there is
no new word of channel 0.
-/

namespace CoreVMcu.I2s

variable (cfg : I2sCfg) (words : Nat → BitVec 32)

/-- A shift register has taken the bits of a stream up to the `j`-th, without the first
one. -/
def Heard (shiftreg : BitVec 32) (stream : Nat → Bool) (j : Nat) : Prop :=
  ∀ b ≤ cfg.wlen.toNat, shiftreg.getLsbD (cfg.place b) =
    (decide (cfg.wlen.toNat < b + j) && stream (b + j - cfg.wlen.toNat))

/-- The words that are received of those that are sent. -/
def received (sent : Nat → BitVec 32) (k : Nat) : BitVec 32 :=
  if k = 0 then cfg.withoutFirst (sent 0) else sent k

namespace Heard

variable {cfg} {shiftreg : BitVec 32} {stream : Nat → Bool} {j : Nat}

theorem zero : Heard cfg 0 stream 0 := by
  intro b inside
  rw [Nat.add_zero, decide_eq_false (Nat.not_lt.mpr inside), Bool.false_and]
  exact BitVec.getLsbD_zero

theorem shift (heard : Heard cfg shiftreg stream j) :
    Heard cfg (RxChannel.shiftIn cfg shiftreg (stream (j + 1))) stream (j + 1) := by
  intro b inside
  cases Nat.eq_or_lt_of_le inside with
  | inl last =>
      rw [last, RxChannel.getLsbD_shiftIn_last, decide_eq_true (by omega), Bool.true_and,
        Nat.add_sub_cancel_left]
  | inr before =>
      rw [RxChannel.getLsbD_shiftIn cfg _ _ before, heard (b + 1) before, Nat.add_right_comm]
      rfl

/-- At the end of a word the register holds the word. -/
theorem word {sent : Nat → BitVec 32} (heard : Heard cfg shiftreg (bitStream cfg sent) j)
    (last : j % cfg.bits = cfg.wlen.toNat) :
    cfg.low shiftreg = cfg.low (received cfg sent (j / cfg.bits)) := by
  rw [I2sCfg.low_eq_iff]
  intro b inside
  have whole : b + j - cfg.wlen.toNat = b + cfg.bits * (j / cfg.bits) := by
    have := Nat.mod_add_div j cfg.bits
    omega
  have room : b < cfg.bits := Nat.lt_succ_of_le inside
  have bit : bitStream cfg sent (b + j - cfg.wlen.toNat) =
      (sent (j / cfg.bits)).getLsbD (cfg.place b) := by
    rw [bitStream, whole, Nat.add_mul_div_left _ _ cfg.bits_pos, Nat.div_eq_of_lt room,
      Nat.zero_add, Nat.add_mul_mod_self_left, Nat.mod_eq_of_lt room]
  rw [heard b inside, bit, received]
  cases Nat.eq_zero_or_pos (j / cfg.bits) with
  | inl first =>
      have some : cfg.wlen.toNat < b + j ↔ 0 < b := by
        rw [first, Nat.mul_zero, Nat.add_zero] at whole
        omega
      rw [first, if_pos rfl, cfg.getLsbD_withoutFirst _ inside, decide_eq_decide.mpr some]
  | inr later =>
      have all : cfg.wlen.toNat < b + j := by
        have := Nat.mul_pos cfg.bits_pos later
        omega
      rw [if_neg (Nat.ne_of_gt later), decide_eq_true all, Bool.true_and]

end Heard

/-! ## The running receiver -/

/-- The receiver after the `j`-th bit. -/
structure RxRuns (j : Nat) (rx : RxChannel) : Prop where
  started : rx.rStarted = true
  startedDly : rx.rStartedDly = true
  count : rx.rCountBit.toNat = j % cfg.bits
  ch0 : Heard cfg rx.rShiftregCh0 (bitStream cfg (sentCh0 cfg words)) j
  ch1 : cfg.twoCh = true → Heard cfg rx.rShiftregCh1 (bitStream cfg (sentCh1 words)) j
  shadowCh0 : cfg.bits ≤ j →
    cfg.low rx.rShiftregCh0Shadow = cfg.low (received cfg (sentCh0 cfg words) (j / cfg.bits - 1))
  shadowCh1 : cfg.twoCh = true → cfg.bits ≤ j →
    cfg.low rx.rShiftregCh1Shadow = cfg.low (received cfg (sentCh1 words) (j / cfg.bits - 1))
  ch0Valid : rx.rCh0Valid = decide (cfg.bits ≤ j ∧ j % cfg.bits = 0)
  ch1Valid : rx.rCh1Valid = (cfg.twoCh && decide (cfg.bits ≤ j))

namespace RxRuns

variable {cfg words} {j : Nat} {rx : RxChannel}

theorem captures_iff (runs : RxRuns cfg words j rx) :
    rx.captures cfg = true ↔ j % cfg.bits = cfg.wlen.toNat := by
  rw [RxChannel.captures, runs.startedDly, Bool.true_and, RxChannel.wordDone, beq_iff_eq,
    ← runs.count, BitVec.toNat_inj]

/-- A word is complete with the next bit. -/
theorem bits_le_succ_iff (j : Nat) : cfg.bits ≤ j + 1 ∧ (j + 1) % cfg.bits = 0 ↔
    j % cfg.bits = cfg.wlen.toNat := by
  constructor
  · intro complete
    cases Nat.decEq (j % cfg.bits) cfg.wlen.toNat with
    | isTrue last => exact last
    | isFalse inside =>
        rw [(next_inside inside).2] at complete
        exact absurd complete.2 (Nat.succ_ne_zero _)
  · intro last
    refine ⟨?_, (next_last last).2⟩
    have := Nat.mod_le j cfg.bits
    have width : cfg.bits = cfg.wlen.toNat + 1 := rfl
    omega

/-- Inside a word the words before it are complete. -/
theorem bits_le_of_inside (inside : j % cfg.bits ≠ cfg.wlen.toNat) :
    cfg.bits ≤ j + 1 ↔ cfg.bits ≤ j := by
  constructor
  · intro room
    cases Nat.eq_or_lt_of_le room with
    | inl same =>
        have width : cfg.bits = cfg.wlen.toNat + 1 := rfl
        have value : j = cfg.wlen.toNat := by omega
        rw [value, width, Nat.mod_eq_of_lt (Nat.lt_succ_self _)] at inside
        exact absurd rfl inside
    | inr room => exact Nat.le_of_lt_succ room
  · exact fun room => Nat.le_succ_of_le room

/-- A shadow register after a clock. -/
theorem shadow_step {shiftreg shadow : BitVec 32} {sent : Nat → BitVec 32} {captured : Bool}
    (heard : Heard cfg shiftreg (bitStream cfg sent) j)
    (kept : cfg.bits ≤ j → cfg.low shadow = cfg.low (received cfg sent (j / cfg.bits - 1)))
    (captures : captured = true ↔ j % cfg.bits = cfg.wlen.toNat) (complete : cfg.bits ≤ j + 1) :
    cfg.low (if captured then shiftreg else shadow) =
      cfg.low (received cfg sent ((j + 1) / cfg.bits - 1)) := by
  cases Nat.decEq (j % cfg.bits) cfg.wlen.toNat with
  | isTrue last =>
      rw [if_pos (captures.mpr last), heard.word last, (next_last last).1, Nat.add_sub_cancel]
  | isFalse inside =>
      rw [if_neg (fun captured => inside (captures.mp captured)), (next_inside inside).1]
      exact kept ((bits_le_of_inside inside).mp complete)

/-- A clock of the running receiver. -/
theorem step (runs : RxRuns cfg words j rx) (long : 0 < cfg.wlen.toNat) (ws ch1 : Bool)
    (line : cfg.twoCh = true → ch1 = bitStream cfg (sentCh1 words) (j + 1)) :
    RxRuns cfg words (j + 1)
      (rx.posedge cfg true (bitStream cfg (sentCh0 cfg words) (j + 1)) ch1 ws true) := by
  have captures := runs.captures_iff
  refine ⟨?_, runs.started, ?_, ?_, ?_, ?_, ?_, ?_, ?_⟩
  · change (if rx.wsEdge ws then true else rx.rStarted) = true
    rw [runs.started]
    split <;> rfl
  · change (if rx.rStartedDly then if rx.wordDone cfg then 0 else rx.rCountBit + 1
      else rx.rCountBit).toNat = _
    have short := cfg.wlen_lt
    rw [RxChannel.captures, runs.startedDly, Bool.true_and] at captures
    rw [runs.startedDly, if_pos rfl]
    cases Nat.decEq (j % cfg.bits) cfg.wlen.toNat with
    | isTrue last =>
        rw [if_pos (captures.mpr last), (next_last last).2]
        rfl
    | isFalse inside =>
        have below : j % cfg.bits < cfg.bits := Nat.mod_lt _ cfg.bits_pos
        have width : cfg.bits = cfg.wlen.toNat + 1 := rfl
        rw [if_neg (fun done => inside (captures.mp done)), (next_inside inside).2,
          BitVec.toNat_add, runs.count]
        exact Nat.mod_eq_of_lt (show j % cfg.bits + 1 < 2 ^ 5 by omega)
  · change Heard cfg (if rx.rStartedDly then _ else _) _ _
    rw [runs.startedDly]
    exact runs.ch0.shift
  · intro two
    change Heard cfg (if rx.rStartedDly && cfg.twoCh then _ else _) _ _
    rw [runs.startedDly, two, line two]
    exact (runs.ch1 two).shift
  · exact shadow_step runs.ch0 runs.shadowCh0 captures
  · intro two
    exact shadow_step (runs.ch1 two) (runs.shadowCh1 two) (by rw [two, Bool.and_true, captures])
  · change (if rx.rCh0Valid && true then false else rx.captures cfg || rx.rCh0Valid) = _
    rw [decide_eq_decide.mpr (bits_le_succ_iff j)]
    cases valid : rx.rCh0Valid with
    | false =>
        rw [Bool.or_false, Bool.eq_iff_iff, decide_eq_true_iff]
        exact captures
    | true =>
        rw [runs.ch0Valid, decide_eq_true_iff] at valid
        rw [valid.2]
        exact (decide_eq_false (Nat.ne_of_lt long)).symm
  · have set : (rx.posedge cfg true (bitStream cfg (sentCh0 cfg words) (j + 1)) ch1 ws
        true).rCh1Valid = (rx.captures cfg && cfg.twoCh || rx.rCh1Valid) := by
      change (if rx.rCh0Valid then if true = true then rx.ch1ValidSet cfg else _
        else rx.ch1ValidSet cfg) = _
      rw [if_pos rfl, ite_self]
      rfl
    rw [set, runs.ch1Valid]
    cases cfg.twoCh with
    | false => rw [Bool.and_false, Bool.false_and, Bool.false_and, Bool.or_false]
    | true =>
        rw [Bool.and_true, Bool.true_and, Bool.true_and, Bool.eq_iff_iff, Bool.or_eq_true,
          captures, decide_eq_true_iff, decide_eq_true_iff]
        constructor
        · rintro (last | room)
          · exact ((bits_le_succ_iff j).mpr last).1
          · exact Nat.le_succ_of_le room
        · intro room
          cases Nat.decEq (j % cfg.bits) cfg.wlen.toNat with
          | isTrue last => exact .inl last
          | isFalse inside => exact .inr ((bits_le_of_inside inside).mp room)

end RxRuns

/-! ## The words that are handed over -/

/-- The number of words that have been handed over with the `j`-th bit. -/
def handedCount (j : Nat) : Nat :=
  if cfg.twoCh then j - cfg.bits else (j - 1) / cfg.bits

/-- The words that are handed over. -/
def handedWord (t : Nat) : BitVec 32 :=
  if cfg.twoCh then
    if t % cfg.bits = 0 then received cfg (sentCh0 cfg words) (t / cfg.bits)
    else received cfg (sentCh1 words) (t / cfg.bits)
  else received cfg (sentCh0 cfg words) t

/-- The words that have been handed over with the `j`-th bit. -/
def handedWords (j : Nat) : List (BitVec (cfg.wlen.toNat + 1)) :=
  (List.range (handedCount cfg j)).map fun t => cfg.low (handedWord cfg words t)

variable {cfg words} {j : Nat} {loopback : Loopback}

theorem sub_bits (room : cfg.bits ≤ j) :
    (j - cfg.bits) % cfg.bits = j % cfg.bits ∧ (j - cfg.bits) / cfg.bits = j / cfg.bits - 1 := by
  refine ⟨(Nat.mod_eq_sub_mod room).symm, ?_⟩
  rw [Nat.div_eq_sub_div cfg.bits_pos room, Nat.add_sub_cancel]

/-- With two channels a word is handed over in every clock once there is one. -/
theorem handed_twoCh (runs : RxRuns cfg words j loopback.rx) (two : cfg.twoCh = true) :
    handedWords cfg words (j + 1) =
      handedWords cfg words j ++ loopback.wordHandedOver.map cfg.low := by
  rw [handedWords, handedWords, handedCount, handedCount, if_pos two, if_pos two,
    Loopback.wordHandedOver, RxChannel.fifoDataValid, RxChannel.fifoData, runs.ch0Valid,
    runs.ch1Valid, two, Bool.true_and]
  cases Nat.lt_or_ge j cfg.bits with
  | inl before =>
      rw [decide_eq_false (Nat.not_le.mpr before),
        decide_eq_false (fun both => Nat.not_le.mpr before both.1),
        Nat.sub_eq_zero_of_le (Nat.succ_le_of_lt before),
        Nat.sub_eq_zero_of_le (Nat.le_of_lt before)]
      rfl
  | inr room =>
      have next : j + 1 - cfg.bits = j - cfg.bits + 1 := Nat.sub_add_comm room
      rw [next, List.range_succ, List.map_append, decide_eq_true room, Bool.or_true, if_pos rfl,
        List.map_singleton, List.map_singleton, handedWord, if_pos two, (sub_bits room).1,
        (sub_bits room).2]
      cases Nat.eq_zero_or_pos (j % cfg.bits) with
      | inl first =>
          rw [if_pos first, decide_eq_true ⟨room, first⟩, if_pos rfl, runs.shadowCh0 room]
      | inr positive =>
          have later := Nat.ne_of_gt positive
          rw [if_neg later, decide_eq_false (fun both => later both.2),
            if_neg Bool.false_ne_true, if_pos rfl, runs.shadowCh1 two room]

/-- With one channel every word is handed over once. -/
theorem handed_oneCh (runs : RxRuns cfg words j loopback.rx) (one : cfg.twoCh = false) :
    handedWords cfg words (j + 1) =
      handedWords cfg words j ++ loopback.wordHandedOver.map cfg.low := by
  have notTwo : ¬cfg.twoCh = true := Bool.eq_false_iff.mp one
  rw [handedWords, handedWords, handedCount, handedCount, if_neg notTwo, if_neg notTwo,
    Loopback.wordHandedOver, RxChannel.fifoDataValid, RxChannel.fifoData, runs.ch0Valid,
    runs.ch1Valid, one, Bool.false_and, Bool.or_false, Nat.add_sub_cancel]
  cases Nat.eq_zero_or_pos (j % cfg.bits) with
  | inr positive =>
      have later := Nat.ne_of_gt positive
      rw [decide_eq_false (fun both => later both.2)]
      have same : (j - 1) / cfg.bits = j / cfg.bits := by
        cases j with
        | zero => rfl
        | succ j =>
            have inside : j % cfg.bits ≠ cfg.wlen.toNat := fun last => later (next_last last).2
            exact (next_inside inside).1.symm
      rw [same]
      exact (List.append_nil _).symm
  | inl first =>
      cases j with
      | zero =>
          rw [decide_eq_false (fun both => absurd cfg.bits_pos (Nat.not_lt.mpr both.1)),
            Nat.zero_sub]
          exact (List.append_nil _).symm
      | succ j =>
          have last : j % cfg.bits = cfg.wlen.toNat := by
            cases Nat.decEq (j % cfg.bits) cfg.wlen.toNat with
            | isTrue last => exact last
            | isFalse inside =>
                rw [(next_inside inside).2] at first
                exact absurd first (Nat.succ_ne_zero _)
          have room := (RxRuns.bits_le_succ_iff j).mpr last
          rw [decide_eq_true ⟨room.1, first⟩, if_pos rfl, if_pos rfl, List.map_singleton,
            runs.shadowCh0 room.1, (next_last last).1, Nat.add_sub_cancel, List.range_succ,
            List.map_append, List.map_singleton, handedWord, if_neg notTwo]
          rfl

end CoreVMcu.I2s
