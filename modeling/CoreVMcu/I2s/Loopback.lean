import CoreVMcu.I2s.Channels
import CoreVMcu.Clocked.Machine

/-!
# The shift registers of the I2S channels

The bits of a word are sent one after the other from the places that the bit order
says.  Either shift register moves the bit in each of these places to the one before it.

The lines of the transmitter are those of the receiver, both have the same clock, word
select and configuration, the transmitter finds a word whenever it wants one and the
receiver can always hand one over.
-/

namespace CoreVMcu.I2s

namespace I2sCfg

variable (cfg : I2sCfg)

/-- The number of bits of a word. -/
def bits : Nat := cfg.wlen.toNat + 1

/-- The place in a word of the bit with a number in the order of transmission. -/
def place (b : Nat) : Nat := if cfg.lsbFirst then b else cfg.wlen.toNat - b

/-- The bits of a word that are transmitted. -/
def low (word : BitVec 32) : BitVec (cfg.wlen.toNat + 1) := word.setWidth _

/-- The bit of a word that is transmitted first. -/
def firstBit (word : BitVec 32) : Bool := word.getLsbD (cfg.place 0)

theorem wlen_lt : cfg.wlen.toNat < 32 := cfg.wlen.isLt

theorem bits_pos : 0 < cfg.bits := Nat.succ_pos _

theorem place_le {b : Nat} (inside : b ≤ cfg.wlen.toNat) : cfg.place b ≤ cfg.wlen.toNat := by
  rw [place]
  split
  · exact inside
  · exact Nat.sub_le ..

theorem place_place {b : Nat} (inside : b ≤ cfg.wlen.toNat) : cfg.place (cfg.place b) = b := by
  rw [place, place]
  split
  · rfl
  · exact Nat.sub_sub_self inside

/-- Words agree in their transmitted bits if they agree in the places of these. -/
theorem low_eq_iff (left right : BitVec 32) : cfg.low left = cfg.low right ↔
    ∀ b ≤ cfg.wlen.toNat, left.getLsbD (cfg.place b) = right.getLsbD (cfg.place b) := by
  constructor
  · intro same b inside
    have bit := congrArg (fun word => word.getLsbD (cfg.place b)) same
    simpa [low, Nat.lt_succ_of_le (cfg.place_le inside)] using bit
  · intro same
    apply BitVec.eq_of_getLsbD_eq
    intro k inside
    have bit := same (cfg.place k) (cfg.place_le (Nat.le_of_lt_succ inside))
    rw [cfg.place_place (Nat.le_of_lt_succ inside)] at bit
    simp [low, bit]

/-- A word whose first bit has been missed. -/
def withoutFirst (word : BitVec 32) : BitVec 32 := word &&& ~~~(1#32 <<< cfg.place 0)

theorem getLsbD_withoutFirst (word : BitVec 32) {b : Nat} (inside : b ≤ cfg.wlen.toNat) :
    (cfg.withoutFirst word).getLsbD (cfg.place b) =
      (decide (0 < b) && word.getLsbD (cfg.place b)) := by
  have short : cfg.place b < 32 := Nat.lt_of_le_of_lt (cfg.place_le inside) cfg.wlen_lt
  have same : cfg.place b = cfg.place 0 ↔ b = 0 := by
    constructor
    · intro places
      rw [← cfg.place_place inside, places, cfg.place_place (Nat.zero_le _)]
    · rintro rfl
      rfl
  have mask : (1#32 <<< cfg.place 0).getLsbD (cfg.place b) = decide (b = 0) := by
    have first : cfg.place 0 < 32 :=
      Nat.lt_of_le_of_lt (cfg.place_le (Nat.zero_le _)) cfg.wlen_lt
    rw [show 1#32 <<< cfg.place 0 = BitVec.twoPow 32 (cfg.place 0) from rfl,
      BitVec.getLsbD_twoPow, decide_eq_true first, Bool.true_and, decide_eq_decide, eq_comm, same]
  rw [withoutFirst, BitVec.getLsbD_and, BitVec.getLsbD_not, mask]
  simp only [short, decide_true, Bool.true_and, Bool.and_comm]
  congr 1
  rw [Bool.eq_iff_iff]
  simp [Nat.pos_iff_ne_zero]

/-- Nothing is missed of a word whose first bit is zero. -/
theorem low_withoutFirst_iff (word : BitVec 32) :
    cfg.low (cfg.withoutFirst word) = cfg.low word ↔ cfg.firstBit word = false := by
  rw [low_eq_iff]
  constructor
  · intro same
    have first := same 0 (Nat.zero_le _)
    rw [cfg.getLsbD_withoutFirst word (Nat.zero_le _)] at first
    exact first.symm
  · intro zero b inside
    rw [cfg.getLsbD_withoutFirst word inside]
    cases b with
    | zero => exact zero.symm
    | succ b => rfl

end I2sCfg

/-! ## One shift -/

variable (cfg : I2sCfg) {b : Nat}

theorem TxChannel.bitOut_eq (shiftreg : BitVec 32) :
    TxChannel.bitOut cfg shiftreg = cfg.firstBit shiftreg := by
  rw [TxChannel.bitOut, I2sCfg.firstBit, I2sCfg.place]
  split <;> rfl

theorem TxChannel.getLsbD_shiftOut (shiftreg : BitVec 32) (inside : b < cfg.wlen.toNat) :
    (TxChannel.shiftOut cfg shiftreg).getLsbD (cfg.place b) =
      shiftreg.getLsbD (cfg.place (b + 1)) := by
  have short := cfg.wlen_lt
  rw [TxChannel.shiftOut, I2sCfg.place, I2sCfg.place]
  split
  · rw [BitVec.getLsbD_ushiftRight, Nat.add_comm]
  · rw [BitVec.getLsbD_shiftLeft, decide_eq_true (by omega : cfg.wlen.toNat - b < 32),
      decide_eq_false (by omega : ¬cfg.wlen.toNat - b < 1), Nat.sub_sub]
    rfl

/-- The bit that is taken comes into the last place. -/
theorem RxChannel.getLsbD_shiftIn_last (shiftreg : BitVec 32) (bit : Bool) :
    (RxChannel.shiftIn cfg shiftreg bit).getLsbD (cfg.place cfg.wlen.toNat) = bit := by
  have short := cfg.wlen_lt
  rw [RxChannel.shiftIn, I2sCfg.place]
  split
  · simp [short]
  · simp

theorem RxChannel.getLsbD_shiftIn (shiftreg : BitVec 32) (bit : Bool)
    (inside : b < cfg.wlen.toNat) :
    (RxChannel.shiftIn cfg shiftreg bit).getLsbD (cfg.place b) =
      shiftreg.getLsbD (cfg.place (b + 1)) := by
  have short := cfg.wlen_lt
  rw [RxChannel.shiftIn, I2sCfg.place, I2sCfg.place]
  split
  · have before : ¬cfg.wlen.toNat ≤ b := Nat.not_le.mpr inside
    have apart : b < cfg.wlen.toNat := inside
    simp [apart, Nat.add_comm, show b < 32 by omega]
  · have later : 0 < cfg.wlen.toNat - b := Nat.sub_pos_of_lt inside
    simp [show cfg.wlen.toNat - b < 32 by omega, Nat.ne_of_gt later, Nat.sub_sub]
    exact (BitVec.getLsbD_eq_getElem _).symm

/-! ## The looped channels -/

open Clocked

/-- The channels with the generator of the word select and the place in the stream of
words that the transmitter takes. -/
structure Loopback where
  sync : PulpSync
  wsGen : WsGen
  tx : TxChannel
  rx : RxChannel
  position : Nat

namespace Loopback

variable (cfg : I2sCfg) (words : Nat → BitVec 32) (loopback : Loopback)

def reset : Loopback := ⟨.reset, .reset, .reset, .reset, 0⟩

/-- The word that the transmitter takes. -/
def wordTaken : List (BitVec 32) :=
  if loopback.tx.fifoDataReady cfg true then [words loopback.position] else []

/-- The word that the receiver hands over. -/
def wordHandedOver : List (BitVec 32) :=
  if loopback.rx.fifoDataValid then [loopback.rx.fifoData] else []

/-- One clock with its two edges; the word select toggles once a word while it is
enabled. -/
def step (wsEn : Bool) : Loopback :=
  let sync := loopback.sync.step wsEn
  { sync := sync
    wsGen := (loopback.wsGen.posedge loopback.sync.serialOut cfg.wlen 0).negedge sync.serialOut
      cfg.wlen 0
    tx := (loopback.tx.posedge cfg loopback.wsGen.ws true (words loopback.position)).negedge cfg
    rx := loopback.rx.posedge cfg true loopback.tx.i2sCh0 loopback.tx.i2sCh1 loopback.wsGen.ws true
    position :=
      if loopback.tx.fifoDataReady cfg true then loopback.position + 1 else loopback.position }

end Loopback

/-- The looped channels from reset. -/
def loopbackMachine (cfg : I2sCfg) (words : Nat → BitVec 32) : Machine Loopback Bool where
  init := .reset
  step := fun loopback wsEn => loopback.step cfg words wsEn

/-- The word select is enabled after a number of clocks. -/
def enabledFrom (delay n : Nat) : Bool := decide (delay ≤ n)

variable (cfg : I2sCfg) (words : Nat → BitVec 32) (delay : Nat)

/-- The looped channels after some clocks. -/
def loopbackAt (n : Nat) : Loopback :=
  (loopbackMachine cfg words).run (inputsUpTo (enabledFrom delay) n)

/-- The words that have been taken after some clocks. -/
def wordsTaken (n : Nat) : List (BitVec 32) :=
  (loopbackMachine cfg words).observed (fun loopback _ => loopback.wordTaken cfg words)
    (inputsUpTo (enabledFrom delay) n)

/-- The words that have been handed over after some clocks. -/
def wordsHandedOver (n : Nat) : List (BitVec 32) :=
  (loopbackMachine cfg words).observed (fun loopback _ => loopback.wordHandedOver)
    (inputsUpTo (enabledFrom delay) n)

/-- The words that are handed over are those that have been taken, in their order and in
their transmitted bits, and each is handed over at last. -/
structure LoopsBack : Prop where
  inOrder : ∀ n, (wordsHandedOver cfg words delay n).map cfg.low <+:
    (wordsTaken cfg words delay n).map cfg.low
  goesOn : ∀ i, ∃ n, i < (wordsHandedOver cfg words delay n).length

end CoreVMcu.I2s
