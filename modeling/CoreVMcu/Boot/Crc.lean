import CoreVMcu.Clocked.Crc
import Mathlib.Logic.Function.Iterate

/-!
# The checks of the boot loader

`crcSlow` divides a message a bit at a time, `crcFast` a byte at a time with the table that
`crcInit` fills.  `crc.h` selects one of three standards.
-/

namespace CoreVMcu.Boot

open Clocked.Crc

/-- The macros of `crc.h`. -/
structure CrcStandard where
  width : Nat
  polynomial : BitVec width
  initialRemainder : BitVec width
  finalXorValue : BitVec width
  reflectData : Bool
  reflectRemainder : Bool
  wide : 8 ≤ width

/-- The names that `crc.h` chooses from. -/
inductive CrcName
  | ccitt
  | crc16
  | crc32
  deriving DecidableEq

@[reducible] def CrcName.standard : CrcName → CrcStandard
  | ccitt =>
      { width := 16, polynomial := 0x1021, initialRemainder := 0xFFFF, finalXorValue := 0x0000,
        reflectData := false, reflectRemainder := false, wide := by decide }
  | crc16 =>
      { width := 16, polynomial := 0x8005, initialRemainder := 0x0000, finalXorValue := 0x0000,
        reflectData := true, reflectRemainder := true, wide := by decide }
  | crc32 =>
      { width := 32, polynomial := 0x04C11DB7, initialRemainder := 0xFFFFFFFF,
        finalXorValue := 0xFFFFFFFF, reflectData := true, reflectRemainder := true,
        wide := by decide }

/-- One round of the loop of `reflect`, on `reflection` and `data`. -/
def reflectBit (nBits : Nat) (state : BitVec 32 × BitVec 32) (bit : Nat) :
    BitVec 32 × BitVec 32 :=
  (if state.2 &&& 0x01 ≠ 0 then state.1 ||| (1 <<< (nBits - 1 - bit)) else state.1, state.2 >>> 1)

/-- `reflect`, with an `unsigned long` of 32 bits. -/
def reflect (data : BitVec 32) (nBits : Nat) : BitVec 32 :=
  ((List.range nBits).foldl (reflectBit nBits) (0x00000000, data)).1

namespace CrcStandard

variable (standard : CrcStandard)

/-- `REFLECT_DATA`. -/
def reflectedData (byte : BitVec 8) : BitVec 8 :=
  if standard.reflectData then (reflect (byte.setWidth 32) 8).setWidth 8 else byte

/-- `REFLECT_REMAINDER`. -/
def reflectedRemainder (remainder : BitVec standard.width) : BitVec standard.width :=
  if standard.reflectRemainder then
    (reflect (remainder.setWidth 32) standard.width).setWidth standard.width
  else remainder

/-- `TOPBIT`. -/
def topBit : BitVec standard.width := 1#(standard.width) <<< (standard.width - 1)

/-- One round of the division by the polynomial. -/
def divideBit (remainder : BitVec standard.width) : BitVec standard.width :=
  if remainder &&& standard.topBit ≠ 0 then (remainder <<< 1) ^^^ standard.polynomial
  else remainder <<< 1

/-- The eight rounds of a byte. -/
def divideByte : BitVec standard.width → BitVec standard.width := standard.divideBit^[8]

/-- A byte of the message in `crcSlow`. -/
def slowByte (remainder : BitVec standard.width) (byte : BitVec 8) : BitVec standard.width :=
  standard.divideByte
    (remainder ^^^ ((standard.reflectedData byte).setWidth standard.width <<<
      (standard.width - 8)))

def crcSlow (message : List (BitVec 8)) : BitVec standard.width :=
  standard.reflectedRemainder (message.foldl standard.slowByte standard.initialRemainder) ^^^
    standard.finalXorValue

/-- The entry that `crcInit` computes for a dividend. -/
def tableEntry (dividend : Nat) : BitVec standard.width :=
  standard.divideByte (BitVec.ofNat standard.width dividend <<< (standard.width - 8))

/-- The loop of `crcInit` over the first dividends. -/
def fillTable (crcTable : BitVec 8 → BitVec standard.width) (dividends : Nat) :
    BitVec 8 → BitVec standard.width :=
  (List.range dividends).foldl
    (fun table dividend =>
      Function.update table (BitVec.ofNat 8 dividend) (standard.tableEntry dividend))
    crcTable

def crcInit (crcTable : BitVec 8 → BitVec standard.width) : BitVec 8 → BitVec standard.width :=
  standard.fillTable crcTable 256

/-- A byte of the message in `crcFast`. -/
def fastByte (crcTable : BitVec 8 → BitVec standard.width) (remainder : BitVec standard.width)
    (byte : BitVec 8) : BitVec standard.width :=
  let data := standard.reflectedData byte ^^^ (remainder >>> (standard.width - 8)).setWidth 8
  crcTable data ^^^ (remainder <<< 8)

def crcFast (crcTable : BitVec 8 → BitVec standard.width) (message : List (BitVec 8)) :
    BitVec standard.width :=
  standard.reflectedRemainder
      (message.foldl (standard.fastByte crcTable) standard.initialRemainder) ^^^
    standard.finalXorValue

/-! ## The bitwise division -/

variable {standard}

theorem divideBit_eq_feed (remainder : BitVec standard.width) :
    standard.divideBit remainder = feed standard.polynomial remainder false := by
  have top : (remainder &&& standard.topBit ≠ 0) ↔
      remainder.getLsbD (standard.width - 1) = true := by
    rw [topBit]
    have inside := standard.wide
    constructor
    · intro nonzero
      by_contra clear
      apply nonzero
      apply BitVec.eq_of_getLsbD_eq
      intro i below
      rw [BitVec.getLsbD_and, BitVec.getLsbD_shiftLeft]
      by_cases last : i = standard.width - 1
      · rw [last, Bool.not_eq_true _ |>.mp clear, Bool.false_and]
        simp
      · have before : i < standard.width - 1 := by omega
        simp [before]
    · intro set zero
      have bit :
          (remainder &&& 1#_ <<< (standard.width - 1)).getLsbD (standard.width - 1) = false := by
        rw [zero]
        simp
      rw [BitVec.getLsbD_and, set, Bool.true_and, BitVec.getLsbD_shiftLeft] at bit
      simp at bit
      omega
  rw [divideBit, feed, Bool.false_xor]
  by_cases set : remainder.getLsbD (standard.width - 1) = true
  · rw [if_pos (top.mpr set), if_pos set]
  · rw [if_neg (fun nonzero => set (top.mp nonzero)), if_neg set]
    exact BitVec.xor_zero.symm

theorem divideByte_eq_register (remainder : BitVec standard.width) :
    standard.divideByte remainder =
      register standard.polynomial remainder (List.replicate 8 false) := by
  have rounds (n : Nat) : standard.divideBit^[n] remainder =
      register standard.polynomial remainder (List.replicate n false) := by
    induction n generalizing remainder with
    | zero => rfl
    | succ n inductionHypothesis =>
        rw [Function.iterate_succ_apply, divideBit_eq_feed, inductionHypothesis,
          List.replicate_succ, register_cons]
  exact rounds 8

/-! ## The table -/

theorem fillTable_apply (crcTable : BitVec 8 → BitVec standard.width) (dividends : Nat)
    (inside : dividends ≤ 256) {data : BitVec 8} (filled : data.toNat < dividends) :
    standard.fillTable crcTable dividends data = standard.tableEntry data.toNat := by
  induction dividends with
  | zero => exact absurd filled (Nat.not_lt_zero _)
  | succ dividend inductionHypothesis =>
      have split : standard.fillTable crcTable (dividend + 1) =
          Function.update (standard.fillTable crcTable dividend) (BitVec.ofNat 8 dividend)
            (standard.tableEntry dividend) := by
        rw [fillTable, List.range_succ, List.foldl_append]
        rfl
      rw [split]
      by_cases last : data = BitVec.ofNat 8 dividend
      · have index : data.toNat = dividend := by
          rw [last, BitVec.toNat_ofNat, Nat.mod_eq_of_lt (by omega)]
        rw [last, Function.update_self, ← last, index]
      · rw [Function.update_of_ne last]
        apply inductionHypothesis (by omega)
        refine Nat.lt_of_le_of_ne (Nat.le_of_lt_succ filled) ?_
        intro index
        apply last
        rw [← index, BitVec.ofNat_toNat, BitVec.setWidth_eq]

/-- Whatever the table held before, an entry is the remainder of its index. -/
theorem crcInit_apply (crcTable : BitVec 8 → BitVec standard.width) (data : BitVec 8) :
    standard.crcInit crcTable data =
      standard.divideByte (data.setWidth standard.width <<< (standard.width - 8)) := by
  rw [crcInit, fillTable_apply crcTable 256 le_rfl data.isLt, tableEntry]
  congr 2
  apply BitVec.eq_of_toNat_eq
  simp

/-- The byte at the top of the remainder selects the entry, the others are shifted. -/
theorem fastByte_eq_slowByte (crcTable : BitVec 8 → BitVec standard.width)
    (remainder : BitVec standard.width) (byte : BitVec 8) :
    standard.fastByte (standard.crcInit crcTable) remainder byte =
      standard.slowByte remainder byte := by
  have wide := standard.wide
  have index : (remainder ^^^ (standard.reflectedData byte).setWidth standard.width <<<
        (standard.width - 8)) >>> (standard.width - 8) =
      (standard.reflectedData byte ^^^
        (remainder >>> (standard.width - 8)).setWidth 8).setWidth standard.width := by
    apply BitVec.eq_of_getLsbD_eq
    intro i inside
    simp only [BitVec.getLsbD_ushiftRight, BitVec.getLsbD_xor, BitVec.getLsbD_shiftLeft,
      BitVec.getLsbD_setWidth, Nat.add_sub_cancel_left]
    by_cases low : i < 8
    · have within : standard.width - 8 + i < standard.width := by omega
      simp [low, within, inside, Bool.xor_comm]
    · have above : standard.width ≤ standard.width - 8 + i := by omega
      have outside := BitVec.getLsbD_of_ge (standard.reflectedData byte) i (Nat.not_lt.mp low)
      simp [low, BitVec.getLsbD_of_ge _ _ above, outside]
  have others : (remainder ^^^ (standard.reflectedData byte).setWidth standard.width <<<
      (standard.width - 8)) <<< 8 = remainder <<< 8 := by
    apply BitVec.eq_of_getLsbD_eq
    intro i inside
    simp only [BitVec.getLsbD_xor, BitVec.getLsbD_shiftLeft]
    have below : i - 8 < standard.width - 8 ∨ i < 8 := by omega
    rcases below with below | below <;> simp [below]
  rw [slowByte, divideByte_eq_register, register_zeros, index, others, ← divideByte_eq_register,
    ← crcInit_apply crcTable]
  rfl

theorem crcFast_crcInit (crcTable : BitVec 8 → BitVec standard.width)
    (message : List (BitVec 8)) :
    standard.crcFast (standard.crcInit crcTable) message = standard.crcSlow message := by
  have bytes : standard.fastByte (standard.crcInit crcTable) = standard.slowByte :=
    funext fun remainder => funext fun byte => fastByte_eq_slowByte crcTable remainder byte
  rw [crcFast, crcSlow, bytes]

end CrcStandard

/-- The standards of `crc.h`: once the table is filled, a message has the same check a byte at a
time as a bit at a time. -/
theorem crcFast_eq_crcSlow (name : CrcName) (crcTable : BitVec 8 → BitVec name.standard.width)
    (message : List (BitVec 8)) :
    name.standard.crcFast (name.standard.crcInit crcTable) message =
      name.standard.crcSlow message :=
  CrcStandard.crcFast_crcInit crcTable message

/-- `CHECK_VALUE` of each standard, the check of "123456789". -/
example :
    let message := [0x31, 0x32, 0x33, 0x34, 0x35, 0x36, 0x37, 0x38, 0x39]
    (CrcName.ccitt.standard.crcSlow message).toNat = 0x29B1 ∧
      (CrcName.crc16.standard.crcSlow message).toNat = 0xBB3D ∧
      (CrcName.crc32.standard.crcSlow message).toNat = 0xCBF43926 := by
  decide +kernel

end CoreVMcu.Boot
