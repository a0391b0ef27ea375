import Mathlib.Algebra.Group.Nat.Defs
import Mathlib.Data.BitVec
import CoreVMcu.Clocked.ByteMemory

/-!
# Accesses to the L2 memory

The uDMA addresses 32-bit words of the bus.  An access that does not fit in one
word is made of two accesses to consecutive words.  The destination of an access
selects the window of the bus that its address falls in.
-/

namespace CoreVMcu.Udma

open Clocked

variable {aWidth : Nat}

/-- The bits of `l2_addr_o` that the destination overrides. -/
def l2Window (destination : BitVec 2) (addr : BitVec 32) : BitVec 32 :=
  match destination.toNat with
  | 1 => 0x1A1#12 ++ addr.extractLsb' 0 20
  | 2 => 0x10#8 ++ addr.extractLsb' 0 24
  | _ => 0x1C#8 ++ addr.extractLsb' 0 24

/-- The word of an address, or the word after it. -/
def wordAddr (addr : BitVec aWidth) (isNa : Bool) : BitVec aWidth :=
  if isNa then (addr >>> 2 + 1) <<< 2 else addr >>> 2 <<< 2

/-- `l2_addr_o`. -/
def l2Addr (destination : BitVec 2) (addr : BitVec aWidth) (isNa : Bool) : BitVec 32 :=
  l2Window destination ((wordAddr addr isNa).setWidth 32)

/-- `s_detect_na`: the access needs two words. -/
def detectNa (size lsb : BitVec 2) : Bool :=
  match size.toNat with
  | 1 => lsb == 3
  | 2 => lsb.getLsbD 0 || lsb.getLsbD 1
  | _ => false

/-- The bus address of a byte of the window. -/
def byteAddr (destination : BitVec 2) (addr : BitVec aWidth) : BitVec 32 :=
  l2Window destination (addr.setWidth 32)

/-- The value of a list of bytes, least significant first. -/
def littleEndian (bytes : List (BitVec 8)) : Nat :=
  bytes.foldr (fun byte value => byte.toNat + 256 * value) 0

/-! ## Bytes of a word -/

theorem littleEndian_nil : littleEndian [] = 0 := rfl

theorem littleEndian_cons (byte : BitVec 8) (bytes : List (BitVec 8)) :
    littleEndian (byte :: bytes) = byte.toNat + 256 * littleEndian bytes := rfl

theorem eq_littleEndian {word : BitVec 32} {bytes : List (BitVec 8)}
    (same : word.toNat = littleEndian bytes) : word = BitVec.ofNat 32 (littleEndian bytes) := by
  rw [← same, BitVec.ofNat_toNat, BitVec.setWidth_eq]

theorem toNat_append_eq {m n : Nat} (high : BitVec m) (low : BitVec n) :
    (high ++ low).toNat = high.toNat * 2 ^ n + low.toNat := by
  rw [BitVec.toNat_append, ← Nat.shiftLeft_add_eq_or_of_lt low.isLt, Nat.shiftLeft_eq]

theorem toNat_extract_eq {width : Nat} (vector : BitVec width) (start length : Nat) :
    (vector.extractLsb' start length).toNat = vector.toNat / 2 ^ start % 2 ^ length := by
  rw [BitVec.extractLsb'_toNat, Nat.shiftRight_eq_div_pow]

/-- A word is the little-endian value of its four lanes. -/
theorem toNat_readWord (memory : BitVec 32 → BitVec 8) (addr : BitVec 32) :
    (readWord memory addr).toNat =
      littleEndian ((List.range 4).map fun lane => memory (addr + BitVec.ofNat 32 lane)) := by
  change _ = littleEndian
    [memory (addr + BitVec.ofNat 32 0), memory (addr + BitVec.ofNat 32 1),
      memory (addr + BitVec.ofNat 32 2), memory (addr + BitVec.ofNat 32 3)]
  simp only [readWord, toNat_append_eq, littleEndian_cons, littleEndian_nil]
  omega

theorem twoBit_cases (vector : BitVec 2) : vector = 0 ∨ vector = 1 ∨ vector = 2 ∨ vector = 3 := by
  revert vector
  decide

/-! ## Bytes of an access -/

theorem l2Window_add (destination : BitVec 2) (addr : BitVec 32) {lane : Nat} (small : lane < 4)
    (aligned : addr.toNat % 4 = 0) :
    l2Window destination (addr + BitVec.ofNat 32 lane) =
      l2Window destination addr + BitVec.ofNat 32 lane := by
  have below := addr.isLt
  have inside : (addr + BitVec.ofNat 32 lane).toNat = addr.toNat + lane := by
    rw [BitVec.toNat_add, BitVec.toNat_ofNat]
    omega
  apply BitVec.eq_of_toNat_eq
  rw [BitVec.toNat_add, BitVec.toNat_ofNat]
  unfold l2Window
  split <;>
    · rw [toNat_append_eq, toNat_append_eq, toNat_extract_eq, toNat_extract_eq, inside]
      simp only [BitVec.toNat_ofNat]
      omega

theorem toNat_wordAddr_false (addr : BitVec aWidth) :
    (wordAddr addr false).toNat = addr.toNat / 4 * 4 := by
  have below := addr.isLt
  rw [wordAddr, if_neg (by decide), BitVec.toNat_shiftLeft, BitVec.toNat_ushiftRight,
    Nat.shiftRight_eq_div_pow, Nat.shiftLeft_eq]
  exact Nat.mod_eq_of_lt (Nat.lt_of_le_of_lt (Nat.div_mul_le_self ..) below)

theorem toNat_wordAddr_true (wide : 2 ≤ aWidth) (addr : BitVec aWidth) :
    (wordAddr addr true).toNat = (addr.toNat / 4 * 4 + 4) % 2 ^ aWidth := by
  have below := addr.isLt
  have four : 2 ^ 2 ≤ 2 ^ aWidth := Nat.pow_le_pow_right (by decide) wide
  have one : (1 : BitVec aWidth).toNat = 1 := by
    change (BitVec.ofNat aWidth 1).toNat = 1
    rw [BitVec.toNat_ofNat]
    exact Nat.mod_eq_of_lt (by omega)
  have inner : (addr.toNat / 2 ^ 2 + 1) % 2 ^ aWidth = addr.toNat / 2 ^ 2 + 1 :=
    Nat.mod_eq_of_lt (by omega)
  rw [wordAddr, if_pos rfl, BitVec.toNat_shiftLeft, BitVec.toNat_add, one,
    BitVec.toNat_ushiftRight, Nat.shiftRight_eq_div_pow, Nat.shiftLeft_eq, inner, Nat.add_mul]
  rfl

/-- Byte `i` of an access is in the word of its address as long as the word lasts, and
in the next word from there on. -/
theorem byteAddr_add (wide : 2 ≤ aWidth) (destination : BitVec 2) (addr : BitVec aWidth) {i : Nat}
    (small : i < 4) :
    byteAddr destination (addr + BitVec.ofNat aWidth i) =
      l2Addr destination addr (decide (4 ≤ addr.toNat % 4 + i)) +
        BitVec.ofNat 32 ((addr.toNat % 4 + i) % 4) := by
  have below := addr.isLt
  obtain ⟨words, divides⟩ : ∃ words, 2 ^ aWidth = 4 * words :=
    ⟨2 ^ (aWidth - 2), by rw [show 4 = 2 ^ 2 from rfl, ← Nat.pow_add, Nat.add_sub_cancel' wide]⟩
  have lane : (addr.toNat % 4 + i) % 4 < 4 := Nat.mod_lt _ (by decide)
  -- The byte is at the lane of its word, and no lane carries into the word address.
  have inWord : (addr + BitVec.ofNat aWidth i).toNat =
      (wordAddr addr (decide (4 ≤ addr.toNat % 4 + i))).toNat + (addr.toNat % 4 + i) % 4 := by
    rw [BitVec.toNat_add, BitVec.toNat_ofNat, Nat.add_mod_mod]
    by_cases next : 4 ≤ addr.toNat % 4 + i
    · rw [decide_eq_true next, toNat_wordAddr_true wide]
      by_cases wraps : addr.toNat / 4 * 4 + 4 = 2 ^ aWidth
      · rw [wraps, Nat.mod_self,
          show addr.toNat + i = (addr.toNat % 4 + i) % 4 + 2 ^ aWidth by omega,
          Nat.add_mod_right, Nat.mod_eq_of_lt (by omega), Nat.zero_add]
      · rw [Nat.mod_eq_of_lt (by omega : addr.toNat + i < 2 ^ aWidth), Nat.mod_eq_of_lt (by omega)]
        omega
    · rw [decide_eq_false next, toNat_wordAddr_false, Nat.mod_eq_of_lt (by omega)]
      omega
  have aligned : (wordAddr addr (decide (4 ≤ addr.toNat % 4 + i))).toNat % 4 = 0 := by
    by_cases next : 4 ≤ addr.toNat % 4 + i
    · rw [decide_eq_true next, toNat_wordAddr_true wide, divides, Nat.mod_mul_right_mod]
      omega
    · rw [decide_eq_false next, toNat_wordAddr_false]
      exact Nat.mul_mod_left ..
  rw [byteAddr, l2Addr, ← l2Window_add _ _ lane (by rw [BitVec.toNat_setWidth]; omega)]
  congr 1
  apply BitVec.eq_of_toNat_eq
  rw [BitVec.toNat_add, BitVec.toNat_setWidth, BitVec.toNat_setWidth, BitVec.toNat_ofNat, inWord]
  omega

end CoreVMcu.Udma
