import CoreVMcu.I2cs.ClockPulses

/-!
# Bytes

What the slave does during the bits of a byte that it receives or sends, and during
everything else when it waits for a stop.
-/

namespace CoreVMcu.I2cs

open Clocked Fsm

variable {cfg : SlaveCfg} {state stateAck : I2cState} {bitCnt : BitVec 4}
variable {inByte outByte : BitVec 8} {rdWrn rdWrnNext : Bool} {regAddr regAddrNext : BitVec 8}
variable {written : List (BitVec 8 × BitVec 8)}

theorem bitCnt_ne_eight {count : Nat} (small : count < 8) : BitVec.ofNat 4 count ≠ 8#4 := by
  intro same
  have values := congrArg BitVec.toNat same
  rw [BitVec.toNat_ofNat, BitVec.toNat_ofNat] at values
  omega

@[simp] theorem shiftIn_getElem_zero (byte : BitVec 8) (bit : Bool) :
    (shiftIn byte bit)[0] = bit := by
  rw [← BitVec.getLsbD_eq_getElem, shiftIn, BitVec.getLsbD_append]
  simp

@[simp] theorem shiftIn_getElem_succ (byte : BitVec 8) (bit : Bool) (i : Nat)
    (inside : i + 1 < 8) : (shiftIn byte bit)[i + 1] = byte[i] := by
  rw [← BitVec.getLsbD_eq_getElem, shiftIn, BitVec.getLsbD_append]
  simp [Nat.lt_of_succ_lt_succ inside, BitVec.getLsbD_eq_getElem (Nat.lt_of_succ_lt inside)]

/-- The bits of a byte that are shifted in make the byte. -/
theorem foldl_bitsOf (byte start : BitVec 8) : (bitsOf byte).foldl shiftIn start = byte := by
  apply BitVec.eq_of_getElem_eq
  intro i inside
  have which : i = 0 ∨ i = 1 ∨ i = 2 ∨ i = 3 ∨ i = 4 ∨ i = 5 ∨ i = 6 ∨ i = 7 := by omega
  rcases which with rfl | rfl | rfl | rfl | rfl | rfl | rfl | rfl <;> simp [bitsOf]

/-- A byte some of whose bits have been sent. -/
def shiftedOut : Nat → BitVec 8 → BitVec 8
  | 0, byte => byte
  | count + 1, byte => shiftedOut count (shiftIn byte false)

/-- The first bits of a byte. -/
def leadingBits : Nat → BitVec 8 → List Bool
  | 0, _ => []
  | count + 1, byte => byte.getLsbD 7 :: leadingBits count (shiftIn byte false)

theorem leadingBits_eight (byte : BitVec 8) : leadingBits 8 byte = bitsOf byte := by
  simp [leadingBits, bitsOf]

/-- A byte whose first bit has been passed over, and a released line at its end. -/
theorem leadingBits_late (byte : BitVec 8) :
    leadingBits 7 (shiftIn byte false) ++ [true] = bitsOf (shiftIn byte true) := by
  simp [leadingBits, bitsOf]

/-- Passing over the first bit does not show in a byte of ones only. -/
theorem late_eq_iff (byte : BitVec 8) :
    bitsOf (shiftIn byte true) = bitsOf byte ↔ byte = 255#8 := by
  revert byte
  decide

/-! ## Receiving a byte -/

/-- A bit is received; what the end of it leads to depends on the bit. -/
theorem receiving_sendBit (plain : cfg.Plain) (receives : Receives state) (bit : Bool)
    {last : Fsm} (fall : ∀ rddata, Answers cfg
      (receiving state (bitCnt + 1) (shiftIn inByte bit) outByte rdWrn regAddr) fallEdge rddata last
      written []) :
    Leads cfg (receiving state bitCnt inByte outByte rdWrn regAddr) (sendBit bit)
      (· = ⟨last, written, [], []⟩) :=
  clockBit_leads_one plain (Bool.and_true bit) (fun _ => receiving_bit receives bit)
    (keepsLine_of_step (fun _ => receiving_step_bit receives bit)
      (fun _ => receiving_steady receives) (fun _ => rfl)) fall

/-- Some bits of a byte are received. -/
theorem receiving_sendBits (plain : cfg.Plain) (receives : Receives state) (bits : List Bool)
    {count : Nat} (room : count + bits.length < 8) :
    Leads cfg (receiving state (BitVec.ofNat 4 count) inByte outByte rdWrn regAddr)
      (sendBits bits)
      (· = ⟨receiving state (BitVec.ofNat 4 (count + bits.length)) (bits.foldl shiftIn inByte)
        outByte rdWrn regAddr, [], [], []⟩) := by
  induction bits generalizing count inByte with
  | nil => exact Leads.nil
  | cons bit bits inductionHypothesis =>
      rw [List.length_cons] at room ⊢
      have counted : BitVec.ofNat 4 (count + 1) = BitVec.ofNat 4 count + 1 := BitVec.ofNat_add ..
      have inside : BitVec.ofNat 4 count + 1 ≠ 8#4 := counted ▸ bitCnt_ne_eight (by omega)
      have rest := @inductionHypothesis (shiftIn inByte bit) (count + 1) (by omega)
      rw [counted, Nat.add_right_comm] at rest
      exact (receiving_sendBit plain receives bit fun _ => receiving_fall receives inside).andThen
        rest

/-- A byte is received and acknowledged. -/
theorem receiving_sendByte (plain : cfg.Plain) (receives : Receives state)
    (acks : Acks stateAck) (byte : BitVec 8) {last : BitVec 8 → Fsm}
    {loaded : BitVec 8 → List (BitVec 8)}
    (received : ∀ rddata, Answers cfg (receiving state 8 byte outByte rdWrn regAddr) fallEdge
      rddata (acking stateAck byte outByte rdWrnNext regAddrNext) written [])
    (acked : ∀ rddata, Answers cfg (acking stateAck byte outByte rdWrnNext regAddrNext) fallEdge
      rddata (last rddata) [] (loaded rddata)) :
    Leads cfg (receiving state 0 inByte outByte rdWrn regAddr) (sendByte byte)
      fun reached => ∃ rddata, reached = ⟨last rddata, written, loaded rddata, []⟩ := by
  have most := @receiving_sendBits cfg state inByte outByte rdWrn regAddr plain receives
    ((bitsOf byte).take 7) 0 (Nat.lt_succ_self 7)
  have ends : ∀ rddata, Answers cfg (receiving state (BitVec.ofNat 4 7 + 1)
      (shiftIn (((bitsOf byte).take 7).foldl shiftIn inByte) (byte.getLsbD 0)) outByte rdWrn
      regAddr) fallEdge rddata (acking stateAck byte outByte rdWrnNext regAddrNext) written [] := by
    have whole : shiftIn (((bitsOf byte).take 7).foldl shiftIn inByte) (byte.getLsbD 0) = byte :=
      foldl_bitsOf byte inByte
    rw [whole]
    exact received
  have last := receiving_sendBit plain receives (byte.getLsbD 0) ends
  have keeps : KeepsLine cfg (acking stateAck byte outByte rdWrnNext regAddrNext) (bitEdge false)
      true := by
    rcases acks with rfl | rfl | rfl <;> exact fun _ => ⟨rfl, rfl, rfl⟩
  refine Leads.append (most.andThen last) fun reached same => ?_
  rw [same]
  refine (clockBit_leads plain rfl (fun _ => acking_bit acks false) keeps
    fun _ => acked).mono fun ended ⟨_, rddata, sameEnd⟩ => ⟨rddata, ?_⟩
  rw [sameEnd]
  exact congrArg (Outcome.mk _ · _ _) (List.append_nil _)

/-- The device address of a write. -/
theorem devAddr_sendByte_write (plain : cfg.Plain) :
    Leads cfg (receiving .devAddr 0 inByte outByte rdWrn regAddr)
      (sendByte (addressByte cfg.i2cDevAddr false))
      (· = ⟨receiving .regAddr 0 (addressByte cfg.i2cDevAddr false) outByte false regAddr, [], [],
        []⟩) :=
  (receiving_sendByte plain (.inl rfl) (.inl rfl) _ (fun _ => devAddr_fall false)
    fun _ => devAddrAck_fall_write).mono fun _ ⟨_, same⟩ => same

/-- The device address of a read. -/
theorem devAddr_sendByte_read (plain : cfg.Plain) :
    Leads cfg (receiving .devAddr 0 inByte outByte rdWrn regAddr)
      (sendByte (addressByte cfg.i2cDevAddr true)) fun reached => ∃ rddata,
        reached = ⟨sending 0 (addressByte cfg.i2cDevAddr true) rddata true regAddr, [], [rddata],
          []⟩ :=
  receiving_sendByte plain (.inl rfl) (.inl rfl) _ (fun _ => devAddr_fall true)
    fun _ => devAddrAck_fall_read

theorem regAddr_sendByte (plain : cfg.Plain) (byte : BitVec 8) :
    Leads cfg (receiving .regAddr 0 inByte outByte rdWrn regAddr) (sendByte byte)
      (· = ⟨receiving .regWData 0 byte outByte rdWrn byte, [], [], []⟩) :=
  (receiving_sendByte plain (.inr (.inl rfl)) (.inr (.inl rfl)) _ (fun _ => regAddr_fall)
    fun _ => regAddrAck_fall).mono fun _ ⟨_, same⟩ => same

theorem regWData_sendByte (plain : cfg.Plain) (byte : BitVec 8) :
    Leads cfg (receiving .regWData 0 inByte outByte rdWrn regAddr) (sendByte byte)
      (· = ⟨receiving .regWData 0 byte outByte rdWrn regAddr, [(regAddr, byte)], [], []⟩) :=
  (receiving_sendByte plain (.inr (.inr rfl)) (.inr (.inr rfl)) _ (fun _ => regWData_fall)
    fun _ => regWDataAck_fall).mono fun _ ⟨_, same⟩ => same

/-- Every byte is written once, in order. -/
theorem regWData_sendBytes (plain : cfg.Plain) (data : List (BitVec 8)) :
    Leads cfg (receiving .regWData 0 inByte outByte rdWrn regAddr) (data.flatMap sendByte)
      fun reached => ∃ inByteLast, reached = ⟨receiving .regWData 0 inByteLast outByte rdWrn
        regAddr, data.map fun byte => (regAddr, byte), [], []⟩ := by
  induction data generalizing inByte with
  | nil => exact Leads.nil.mono fun _ same => ⟨inByte, same⟩
  | cons byte data inductionHypothesis =>
      refine (regWData_sendByte plain byte).append fun reached same => ?_
      rw [same]
      refine inductionHypothesis.mono fun last ⟨inByteLast, lastSame⟩ => ⟨inByteLast, ?_⟩
      rw [lastSame]
      rfl

/-- A bit is sent; what the end of it leads to depends on the bit. -/
theorem sending_readBit (plain : cfg.Plain) (inside : bitCnt ≠ 8#4) {last : Fsm}
    (fall : ∀ rddata, Answers cfg (sending bitCnt inByte outByte rdWrn regAddr) fallEdge rddata
      last [] []) :
    Leads cfg (sending bitCnt inByte outByte rdWrn regAddr) readBit
      (· = ⟨last, [], [], [outByte.getLsbD 7]⟩) :=
  clockBit_leads_one plain rfl (fun _ => sending_bit inside _)
    (keepsLine_of_step (fun _ => sending_step_bit inside _) (fun _ => sending_steady inside)
      (fun _ => rfl)) fall

/-- The remaining bits of a byte are sent. -/
theorem sending_readBits (plain : cfg.Plain) (bits : Nat) {count : Nat}
    (room : count + bits = 7) :
    Leads cfg (sending (BitVec.ofNat 4 count) inByte outByte rdWrn regAddr) (readBits (bits + 1))
      (· = ⟨awaiting inByte (shiftedOut (bits + 1) outByte) rdWrn regAddr, [], [],
        leadingBits (bits + 1) outByte⟩) := by
  induction bits generalizing count outByte with
  | zero =>
      obtain rfl : count = 7 := room
      exact (sending_readBit plain (by decide) fun _ => sending_fall_last).andThen Leads.nil
  | succ bits inductionHypothesis =>
      have counted : BitVec.ofNat 4 (count + 1) = BitVec.ofNat 4 count + 1 := BitVec.ofNat_add ..
      have inside := bitCnt_ne_eight (show count < 8 by omega)
      have more : BitVec.ofNat 4 count + 1 ≠ 8#4 := counted ▸ bitCnt_ne_eight (by omega)
      have rest := @inductionHypothesis (shiftIn outByte false) (count + 1) (by omega)
      rw [counted] at rest
      exact (sending_readBit plain inside fun _ => sending_fall inside more).andThen rest

/-- The master wants no further byte, or what it samples shows it none. -/
theorem awaiting_clockBit (plain : cfg.Plain) (sampled : Bool) :
    Leads cfg (awaiting inByte outByte rdWrn regAddr) (clockBit true sampled)
      (· = ⟨deaf outByte rdWrn regAddr, [], [], if sampled then [true] else []⟩) :=
  clockBit_leads_one plain rfl (fun _ => awaiting_nack) (fun _ => ⟨rfl, rfl, rfl⟩)
    fun _ => deaf_other rfl

/-- The master wants a further byte: its first bit is over with the clock pulse. -/
theorem awaiting_sendBit (plain : cfg.Plain) :
    Leads cfg (awaiting inByte outByte rdWrn regAddr) (sendBit false) fun reached => ∃ rddata,
      reached = ⟨sending 1 inByte (shiftIn rddata false) rdWrn regAddr, [], [rddata], []⟩ :=
  (clockBit_leads plain rfl (fun _ => awaiting_ack) keepsLine_low
    fun _ _ => sending_fall (by decide) (by decide)).mono fun _ ⟨rddata, _, same⟩ => ⟨rddata, same⟩

theorem readBytes_succ (acked : Nat) :
    readBytes (acked + 1) = readByte true ++ readBytes acked := by
  rw [readBytes, List.replicate_succ, List.flatten_cons, List.append_assoc]
  rfl

/-! ## Waiting for a stop -/

/-- A deaf slave does not react to the actions, and the master samples what it drives. -/
def Ignores (cfg : SlaveCfg) (actions : List Action) (samples : List Bool) : Prop :=
  ∀ outByte rdWrn regAddr, Leads cfg (deaf outByte rdWrn regAddr) actions
    (· = ⟨deaf outByte rdWrn regAddr, [], [], samples⟩)

namespace Ignores

variable {actions actionsNext : List Action} {samples samplesNext : List Bool}

theorem append (first : Ignores cfg actions samples)
    (second : Ignores cfg actionsNext samplesNext) :
    Ignores cfg (actions ++ actionsNext) (samples ++ samplesNext) := fun outByte rdWrn regAddr =>
  (first outByte rdWrn regAddr).andThen (second outByte rdWrn regAddr)

theorem flatMap {Item : Type} {send : Item → List Action}
    (each : ∀ item, Ignores cfg (send item) []) (items : List Item) :
    Ignores cfg (items.flatMap send) [] := by
  induction items with
  | nil => exact fun _ _ _ => Leads.nil
  | cons item items inductionHypothesis => exact (each item).append inductionHypothesis

theorem clockBit (plain : cfg.Plain) (sda sampled : Bool) :
    Ignores cfg (clockBit sda sampled) (if sampled then [sda] else []) := by
  intro outByte rdWrn regAddr
  have pulse := @clockBit_leads_one cfg (deaf outByte rdWrn regAddr) plain sda sda sampled
    (deaf outByte rdWrn regAddr) (deaf outByte rdWrn regAddr) [] (Bool.and_true sda)
    (fun _ => deaf_other rfl)
    (keepsLine_of_step (fun _ => deaf_step_other rfl) (fun _ => deaf_steady) fun _ => rfl)
    (fun _ => deaf_other rfl)
  have released : (sda && (deaf outByte rdWrn regAddr).sdaOut) = sda := Bool.and_true sda
  rwa [released] at pulse

theorem sendByte (plain : cfg.Plain) (byte : BitVec 8) : Ignores cfg (sendByte byte) [] :=
  (flatMap (fun bit => clockBit plain bit false) (bitsOf byte)).append (clockBit plain true false)

theorem readBits (plain : cfg.Plain) (count : Nat) :
    Ignores cfg (readBits count) (List.replicate count true) := by
  induction count with
  | zero => exact fun _ _ _ => Leads.nil
  | succ count inductionHypothesis => exact (clockBit plain true true).append inductionHypothesis

theorem readBytes (plain : cfg.Plain) (acked : Nat) :
    Ignores cfg (readBytes acked) (List.replicate (8 * (acked + 1)) true) := by
  induction acked with
  | zero => exact (readBits plain 8).append (clockBit plain true false)
  | succ acked inductionHypothesis =>
      have all := ((readBits plain 8).append (clockBit plain false false)).append
        inductionHypothesis
      have count : List.replicate 8 true ++ [] ++ List.replicate (8 * (acked + 1)) true =
          List.replicate (8 * (acked + 1 + 1)) true := by
        rw [List.append_nil, List.replicate_append_replicate]
        congr 1
        omega
      rw [readBytes_succ, ← count]
      exact all

end Ignores

/-- A single byte is sent right. -/
theorem sending_readBytes_zero (plain : cfg.Plain) :
    Leads cfg (sending 0 inByte outByte rdWrn regAddr) (readBytes 0)
      (· = ⟨deaf (shiftedOut 8 outByte) rdWrn regAddr, [], [], bitsOf outByte⟩) := by
  have bits := @sending_readBits cfg inByte outByte rdWrn regAddr plain 7 0 rfl
  refine (bits.andThen (awaiting_clockBit plain false)).mono fun reached same => ?_
  rw [same, ← leadingBits_eight]
  rfl

/-- A byte that is sent from its second bit on. -/
theorem sending_late (plain : cfg.Plain) (byte : BitVec 8) :
    Leads cfg (sending 1 inByte (shiftIn byte false) rdWrn regAddr) (readBits 8)
      (· = ⟨deaf (shiftedOut 8 byte) rdWrn regAddr, [], [], bitsOf (shiftIn byte true)⟩) := by
  have bits := @sending_readBits cfg inByte (shiftIn byte false) rdWrn regAddr plain 6 1 rfl
  rw [← leadingBits_late]
  exact bits.andThen (awaiting_clockBit plain true)

/-- A read after the bits of its first byte, when the slave is deaf. -/
theorem ignores_rest (plain : cfg.Plain) (acked : Nat) : ∃ rest,
    readBytes acked = readBits 8 ++ rest ∧
      Ignores cfg rest (List.replicate (8 * acked) true) := by
  cases acked with
  | zero => exact ⟨sendBit true, rfl, .clockBit plain true false⟩
  | succ acked =>
      refine ⟨sendBit false ++ readBytes acked, ?_, ?_⟩
      · rw [readBytes_succ, readByte, List.append_assoc]
        rfl
      · exact (Ignores.clockBit plain false false).append (.readBytes plain acked)

/-- The second byte is sent without its first bit, and no byte after it. -/
theorem sending_readBytes_succ (plain : cfg.Plain) (more : Nat) :
    Leads cfg (sending 0 inByte outByte rdWrn regAddr) (readBytes (more + 1)) fun reached =>
      ∃ next, reached = ⟨deaf (shiftedOut 8 next) rdWrn regAddr, [], [next],
        bitsOf outByte ++ (bitsOf (shiftIn next true) ++ List.replicate (8 * more) true)⟩ := by
  obtain ⟨rest, split, ignores⟩ := @ignores_rest cfg plain more
  have bits := @sending_readBits cfg inByte outByte rdWrn regAddr plain 7 0 rfl
  rw [readBytes_succ, readByte, List.append_assoc, split]
  refine bits.append fun reached same => ?_
  rw [same]
  refine (awaiting_sendBit plain).append fun reached ⟨next, same⟩ => ?_
  rw [same]
  refine ((sending_late plain next).andThen (ignores _ _ _)).mono fun reached same => ⟨next, ?_⟩
  rw [same, ← leadingBits_eight outByte]
  rfl

end CoreVMcu.I2cs
