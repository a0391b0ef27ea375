import Mathlib.Logic.Function.Basic
import Mathlib.Data.BitVec

/-!
# Logs of writes

A memory is a function from addresses to values.  What it holds after a list of
writes depends only on the writes to each address, and on their order only where
writes to one address differ.

A memory is a function from addresses, which wrap around, to bytes.  A range of it is copied from
somewhere else at once, and a word is four bytes, the lowest one first.
-/

namespace Clocked

universe u v

variable {Addr : Type u} {Value : Type v} [DecidableEq Addr]

/-- The memory after some writes, the oldest first. -/
def stored (memory : Addr → Value) (writes : List (Addr × Value)) : Addr → Value :=
  writes.foldl (fun memory write => Function.update memory write.1 write.2) memory

variable {memory : Addr → Value} {writes : List (Addr × Value)} {addr : Addr} {value : Value}

theorem stored_cons (memory : Addr → Value) (write : Addr × Value) (writes : List (Addr × Value)) :
    stored memory (write :: writes) = stored (Function.update memory write.1 write.2) writes :=
  rfl

/-- An address that is not written keeps its value. -/
theorem stored_of_not_written (others : ∀ write ∈ writes, write.1 ≠ addr) :
    stored memory writes addr = memory addr := by
  induction writes generalizing memory with
  | nil => rfl
  | cons write writes inductionHypothesis =>
      obtain ⟨other, rest⟩ := List.forall_mem_cons.mp others
      rw [stored_cons, inductionHypothesis rest, Function.update_of_ne other.symm]

/-- An address whose writes agree holds what they write. -/
theorem stored_of_agree (written : (addr, value) ∈ writes)
    (agree : ∀ write ∈ writes, write.1 = addr → write.2 = value) :
    stored memory writes addr = value := by
  induction writes generalizing memory with
  | nil => exact absurd written List.not_mem_nil
  | cons write writes inductionHypothesis =>
      obtain ⟨now, later⟩ := List.forall_mem_cons.mp agree
      rw [stored_cons]
      by_cases again : (addr, value) ∈ writes
      · exact inductionHypothesis again later
      · have first := (List.mem_cons.mp written).resolve_right again
        have others : ∀ write ∈ writes, write.1 ≠ addr := by
          intro other member same
          refine again ?_
          rw [← later other member same, ← same]
          exact member
        rw [stored_of_not_written others, ← first, Function.update_self]

/-! ## Memories of bytes -/

variable {w : Nat} {memory : BitVec w → BitVec 8}

/-- An address is in a range. -/
def InRange (start : BitVec w) (length : Nat) (address : BitVec w) : Prop :=
  (address - start).toNat < length

instance (start : BitVec w) (length : Nat) (address : BitVec w) :
    Decidable (InRange start length address) :=
  inferInstanceAs (Decidable (_ < _))

theorem InRange.mono {start address : BitVec w} {length longer : Nat}
    (inside : InRange start length address) (le : length ≤ longer) :
    InRange start longer address :=
  Nat.lt_of_lt_of_le inside le

/-- An address from its offset. -/
theorem add_offset (start address : BitVec w) :
    start + BitVec.ofNat w (address - start).toNat = address := by
  rw [BitVec.ofNat_toNat, BitVec.setWidth_eq, add_sub_cancel]

/-- The offset of an address. -/
theorem toNat_offset (start : BitVec w) {j : Nat} (fits : j < 2 ^ w) :
    (start + BitVec.ofNat w j - start).toNat = j := by
  rw [add_sub_cancel_left, BitVec.toNat_ofNat, Nat.mod_eq_of_lt fits]

/-- The addresses of a range, counted from its start. -/
theorem inRange_iff {start address : BitVec w} {length : Nat} :
    InRange start length address ↔
      ∃ j < length, j < 2 ^ w ∧ start + BitVec.ofNat w j = address := by
  constructor
  · intro inside
    exact ⟨(address - start).toNat, inside, (address - start).isLt, add_offset start address⟩
  · rintro ⟨j, inside, below, rfl⟩
    rw [InRange, toNat_offset start below]
    exact inside

/-- The memory after a range of it was copied; the source is addressed from its start. -/
def copied (memory : BitVec w → BitVec 8) (start : BitVec w) (length : Nat)
    (source : BitVec w → BitVec 8) : BitVec w → BitVec 8 :=
  fun address => if InRange start length address then source (address - start) else memory address

theorem copied_inside {start address : BitVec w} {length : Nat} {source : BitVec w → BitVec 8}
    (inside : InRange start length address) :
    copied memory start length source address = source (address - start) := if_pos inside

theorem copied_outside {start address : BitVec w} {length : Nat} {source : BitVec w → BitVec 8}
    (outside : ¬InRange start length address) :
    copied memory start length source address = memory address := if_neg outside

/-- The word at an address. -/
def readWord (memory : BitVec w → BitVec 8) (address : BitVec w) : BitVec 32 :=
  memory (address + BitVec.ofNat w 3) ++ (memory (address + BitVec.ofNat w 2) ++
    (memory (address + BitVec.ofNat w 1) ++ memory (address + BitVec.ofNat w 0)))

theorem readWord_congr {v : Nat} {other : BitVec v → BitVec 8} {address : BitVec w}
    {address' : BitVec v}
    (same : ∀ k < 4, memory (address + BitVec.ofNat w k) = other (address' + BitVec.ofNat v k)) :
    readWord memory address = readWord other address' := by
  rw [readWord, readWord, same 0 (by decide), same 1 (by decide), same 2 (by decide),
    same 3 (by decide)]

/-- The bytes of a word, addressed from its start. -/
def wordBytes (word : BitVec 32) (offset : BitVec w) : BitVec 8 :=
  word.extractLsb' (8 * offset.toNat) 8

/-- A word is read back. -/
theorem readWord_wordBytes {address : BitVec w} (word : BitVec 32)
    (holds : ∀ k < 4, memory (address + BitVec.ofNat w k) = word.extractLsb' (8 * k) 8) :
    readWord memory address = word := by
  rw [readWord, holds 0 (by decide), holds 1 (by decide), holds 2 (by decide), holds 3 (by decide)]
  have two : word.extractLsb' (8 * 1) 8 ++ word.extractLsb' (8 * 0) 8 = word.extractLsb' 0 16 :=
    BitVec.extractLsb'_append_extractLsb'_eq_extractLsb' rfl
  have three : word.extractLsb' (8 * 2) 8 ++ word.extractLsb' 0 16 = word.extractLsb' 0 24 :=
    BitVec.extractLsb'_append_extractLsb'_eq_extractLsb' rfl
  have four : word.extractLsb' (8 * 3) 8 ++ word.extractLsb' 0 24 = word.extractLsb' 0 32 :=
    BitVec.extractLsb'_append_extractLsb'_eq_extractLsb' rfl
  rw [two, three, four]
  exact BitVec.extractLsb'_eq_self

/-! ## Words at offsets from a common start -/

section Offsets

variable {start : BitVec w} {source : BitVec w → BitVec 8} {a b length : Nat}

theorem offset_sub (le : b ≤ a) :
    start + BitVec.ofNat w a - (start + BitVec.ofNat w b) = BitVec.ofNat w (a - b) := by
  obtain ⟨rest, rfl⟩ := Nat.exists_eq_add_of_le le
  rw [BitVec.ofNat_add, Nat.add_sub_cancel_left, ← BitVec.add_assoc, add_sub_cancel_left]

theorem offset_add (k : Nat) :
    start + BitVec.ofNat w a + BitVec.ofNat w k = start + BitVec.ofNat w (a + k) := by
  rw [BitVec.ofNat_add, BitVec.add_assoc]

theorem inRange_offset (le : b ≤ a) (fits : a < 2 ^ w) :
    InRange (start + BitVec.ofNat w b) length (start + BitVec.ofNat w a) ↔ a < b + length := by
  rw [InRange, offset_sub le, BitVec.toNat_ofNat, Nat.mod_eq_of_lt (by omega)]
  omega

/-- A range that ends below the addresses' end does not come around. -/
theorem not_inRange_below (below : a < b) (fits : b + length ≤ 2 ^ w) :
    ¬InRange (start + BitVec.ofNat w b) length (start + BitVec.ofNat w a) := by
  rw [inRange_iff]
  rintro ⟨j, inside, -, same⟩
  rw [offset_add, BitVec.add_right_inj, ← BitVec.toNat_inj, BitVec.toNat_ofNat, BitVec.toNat_ofNat,
    Nat.mod_eq_of_lt (by omega), Nat.mod_eq_of_lt (by omega)] at same
  omega

theorem readWord_copied_inside (low : b ≤ a) (high : a + 4 ≤ b + length) (fits : a + 4 ≤ 2 ^ w) :
    readWord (copied memory (start + BitVec.ofNat w b) length source) (start + BitVec.ofNat w a) =
      readWord source (BitVec.ofNat w (a - b)) := by
  apply readWord_congr
  intro k below
  have le : b ≤ a + k := by omega
  rw [offset_add, copied_inside ((inRange_offset le (by omega)).mpr (by omega)), offset_sub le,
    Nat.sub_add_comm low, BitVec.ofNat_add]

theorem readWord_copied_apart (apart : b + length ≤ a ∨ a + 4 ≤ b) (fits : a + 4 ≤ 2 ^ w)
    (fits' : b + length ≤ 2 ^ w) :
    readWord (copied memory (start + BitVec.ofNat w b) length source) (start + BitVec.ofNat w a) =
      readWord memory (start + BitVec.ofNat w a) := by
  apply readWord_congr
  intro k below
  rw [offset_add]
  apply copied_outside
  rcases apart with above | before
  · rw [inRange_offset (by omega) (by omega)]
    omega
  · exact not_inRange_below (by omega) fits'

end Offsets

/-- Clearing the low bits of an address. -/
theorem toNat_alignDown (x : BitVec w) (k : Nat) :
    (x &&& ~~~(BitVec.ofNat w (2 ^ k - 1))).toNat = x.toNat / 2 ^ k * 2 ^ k := by
  have shifted : x &&& ~~~(BitVec.ofNat w (2 ^ k - 1)) = (x >>> k) <<< k := by
    apply BitVec.eq_of_getLsbD_eq
    intro i below
    simp only [BitVec.getLsbD_and, BitVec.getLsbD_not, BitVec.getLsbD_ofNat,
      Nat.testBit_two_pow_sub_one, BitVec.getLsbD_shiftLeft, BitVec.getLsbD_ushiftRight, below,
      decide_true, Bool.true_and]
    by_cases low : i < k
    · simp [low]
    · simp [low, Nat.add_sub_cancel' (Nat.le_of_not_lt low)]
  rw [shifted, BitVec.toNat_shiftLeft, BitVec.toNat_ushiftRight, Nat.shiftLeft_eq,
    Nat.shiftRight_eq_div_pow, Nat.mod_eq_of_lt]
  exact Nat.lt_of_le_of_lt (Nat.div_mul_le_self _ _) x.isLt

end Clocked
