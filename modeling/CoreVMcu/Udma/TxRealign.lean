import CoreVMcu.Udma.TxChannels

/-!
# Realignment of L2 answers

The data delivered for an access is the little-endian value of its bytes, whether
they are in one word of the L2 memory or in two.
-/

namespace CoreVMcu.Udma

open Clocked

section Lanes

variable {size lsb : BitVec 2} {lane : Nat → BitVec 8} {first second : BitVec 32}

/-- An access within one word: its bytes are consecutive lanes of the word. -/
theorem txData_oneWord (known : size.toNat ≤ 2) (fits : detectNa size lsb = false)
    (isFirst : first.toNat = littleEndian ((List.range 4).map lane)) (data : BitVec 32) :
    txData size lsb false false data first =
      BitVec.ofNat 32
        (littleEndian ((List.range (2 ^ size.toNat)).map fun i => lane (lsb.toNat + i))) := by
  change first.toNat = littleEndian [lane 0, lane 1, lane 2, lane 3] at isFirst
  apply eq_littleEndian
  obtain rfl | rfl | rfl | rfl := twoBit_cases size
  · obtain rfl | rfl | rfl | rfl := twoBit_cases lsb
    · change (0#24 ++ first.extractLsb' 0 8).toNat = littleEndian [lane 0]
      simp only [toNat_append_eq, toNat_extract_eq, BitVec.toNat_ofNat, isFirst, littleEndian_cons,
        littleEndian_nil]
      omega
    · change (0#24 ++ first.extractLsb' 8 8).toNat = littleEndian [lane 1]
      simp only [toNat_append_eq, toNat_extract_eq, BitVec.toNat_ofNat, isFirst, littleEndian_cons,
        littleEndian_nil]
      omega
    · change (0#24 ++ first.extractLsb' 16 8).toNat = littleEndian [lane 2]
      simp only [toNat_append_eq, toNat_extract_eq, BitVec.toNat_ofNat, isFirst, littleEndian_cons,
        littleEndian_nil]
      omega
    · change (0#24 ++ first.extractLsb' 24 8).toNat = littleEndian [lane 3]
      simp only [toNat_append_eq, toNat_extract_eq, BitVec.toNat_ofNat, isFirst, littleEndian_cons,
        littleEndian_nil]
      omega
  · obtain rfl | rfl | rfl | rfl := twoBit_cases lsb
    · change (0#16 ++ first.extractLsb' 0 16).toNat = littleEndian [lane 0, lane 1]
      simp only [toNat_append_eq, toNat_extract_eq, BitVec.toNat_ofNat, isFirst, littleEndian_cons,
        littleEndian_nil]
      omega
    · change (0#16 ++ first.extractLsb' 8 16).toNat = littleEndian [lane 1, lane 2]
      simp only [toNat_append_eq, toNat_extract_eq, BitVec.toNat_ofNat, isFirst, littleEndian_cons,
        littleEndian_nil]
      omega
    · change (0#16 ++ first.extractLsb' 16 16).toNat = littleEndian [lane 2, lane 3]
      simp only [toNat_append_eq, toNat_extract_eq, BitVec.toNat_ofNat, isFirst, littleEndian_cons,
        littleEndian_nil]
      omega
    · exact absurd fits (by decide)
  · obtain rfl | rfl | rfl | rfl := twoBit_cases lsb
    · change first.toNat = littleEndian [lane 0, lane 1, lane 2, lane 3]
      rw [isFirst]
    · exact absurd fits (by decide)
    · exact absurd fits (by decide)
    · exact absurd fits (by decide)
  · exact absurd known (by decide)

/-- An access across two words: what the first word gave is completed by the lanes of
the second one. -/
theorem txData_twoWords (splits : detectNa size lsb = true)
    (isFirst : first.toNat = littleEndian ((List.range 4).map lane))
    (isSecond : second.toNat = littleEndian ((List.range 4).map fun i => lane (4 + i)))
    (wasNa : Bool) (data : BitVec 32) :
    txData size lsb false true (txData size lsb true wasNa data first) second =
      BitVec.ofNat 32
        (littleEndian ((List.range (2 ^ size.toNat)).map fun i => lane (lsb.toNat + i))) := by
  change first.toNat = littleEndian [lane 0, lane 1, lane 2, lane 3] at isFirst
  change second.toNat = littleEndian [lane 4, lane 5, lane 6, lane 7] at isSecond
  apply eq_littleEndian
  obtain rfl | rfl | rfl | rfl := twoBit_cases size
  · exact absurd splits (by decide +revert)
  · obtain rfl | rfl | rfl | rfl := twoBit_cases lsb
    · exact absurd splits (by decide)
    · exact absurd splits (by decide)
    · exact absurd splits (by decide)
    · change ((0#24 ++ first.extractLsb' 24 8).extractLsb' 16 16 ++
        (second.extractLsb' 0 8 ++ (0#24 ++ first.extractLsb' 24 8).extractLsb' 0 8)).toNat =
          littleEndian [lane 3, lane 4]
      simp only [toNat_append_eq, toNat_extract_eq, BitVec.toNat_ofNat, isFirst, isSecond,
        littleEndian_cons, littleEndian_nil]
      omega
  · obtain rfl | rfl | rfl | rfl := twoBit_cases lsb
    · exact absurd splits (by decide)
    · change (second.extractLsb' 0 8 ++ (0#8 ++ first.extractLsb' 8 24).extractLsb' 0 24).toNat =
        littleEndian [lane 1, lane 2, lane 3, lane 4]
      simp only [toNat_append_eq, toNat_extract_eq, BitVec.toNat_ofNat, isFirst, isSecond,
        littleEndian_cons, littleEndian_nil]
      omega
    · change (second.extractLsb' 0 16 ++ (0#16 ++ first.extractLsb' 16 16).extractLsb' 0 16).toNat =
        littleEndian [lane 2, lane 3, lane 4, lane 5]
      simp only [toNat_append_eq, toNat_extract_eq, BitVec.toNat_ofNat, isFirst, isSecond,
        littleEndian_cons, littleEndian_nil]
      omega
    · change (second.extractLsb' 0 24 ++ (0#24 ++ first.extractLsb' 24 8).extractLsb' 0 8).toNat =
        littleEndian [lane 3, lane 4, lane 5, lane 6]
      simp only [toNat_append_eq, toNat_extract_eq, BitVec.toNat_ofNat, isFirst, isSecond,
        littleEndian_cons, littleEndian_nil]
      omega
  · exact absurd splits (by decide +revert)

end Lanes

/-! ## Accesses -/

variable {aWidth : Nat} {memory : BitVec 32 → BitVec 8}

/-- The little-endian value of the bytes of an access. -/
def loadedValue (memory : BitVec 32 → BitVec 8) (destination : BitVec 2) (addr : BitVec aWidth)
    (size : BitVec 2) : BitVec 32 :=
  BitVec.ofNat 32 <| littleEndian <|
    (List.range (2 ^ size.toNat)).map fun i =>
      memory (byteAddr destination (addr + BitVec.ofNat aWidth i))

namespace TxAccess

/-- What is delivered for an access: its value, or a constant for the unused data size. -/
def loaded (memory : BitVec 32 → BitVec 8) (access : TxAccess aWidth) : BitVec 32 :=
  if access.size.toNat ≤ 2 then loadedValue memory access.dest access.addr access.size
  else 0xDEADBEEF

/-- `s_fifo_addr_lsb`. -/
def lsb (access : TxAccess aWidth) : BitVec 2 := access.addr.setWidth 2

/-- The access needs two words. -/
def splits (access : TxAccess aWidth) : Bool := detectNa access.size access.lsb

/-- The bytes of an access and those around it, as lanes of its two words. -/
def lane (memory : BitVec 32 → BitVec 8) (access : TxAccess aWidth) (j : Nat) : BitVec 8 :=
  memory (l2Addr access.dest access.addr (decide (4 ≤ j)) + BitVec.ofNat 32 (j % 4))

variable {access : TxAccess aWidth}

theorem eq_three_of_unknown {size : BitVec 2} (unknown : ¬size.toNat ≤ 2) : size = 3 := by
  have below := size.isLt
  apply BitVec.eq_of_toNat_eq
  change size.toNat = 3
  omega

theorem toNat_firstWord :
    (readWord memory (l2Addr access.dest access.addr false)).toNat =
      littleEndian ((List.range 4).map (access.lane memory)) := by
  rw [toNat_readWord]
  rfl

theorem toNat_secondWord :
    (readWord memory (l2Addr access.dest access.addr true)).toNat =
      littleEndian ((List.range 4).map fun i => access.lane memory (4 + i)) := by
  rw [toNat_readWord]
  rfl

theorem loadedValue_eq (wide : 2 ≤ aWidth) (known : access.size.toNat ≤ 2) :
    loadedValue memory access.dest access.addr access.size =
      BitVec.ofNat 32
        (littleEndian ((List.range (2 ^ access.size.toNat)).map fun i =>
          access.lane memory (access.lsb.toNat + i))) := by
  have bound : 2 ^ access.size.toNat ≤ 4 := Nat.pow_le_pow_right (by decide) known
  rw [loadedValue]
  congr 2
  refine List.map_congr_left fun i member => ?_
  rw [byteAddr_add wide _ _ (Nat.lt_of_lt_of_le (List.mem_range.mp member) bound), lane, lsb,
    BitVec.toNat_setWidth]

/-- The answer for an access within one word. -/
theorem data_of_oneWord (wide : 2 ≤ aWidth) (fits : access.splits = false) (data : BitVec 32) :
    txData access.size access.lsb false false data
      (readWord memory (l2Addr access.dest access.addr false)) = access.loaded memory := by
  unfold loaded
  split
  next known =>
    rw [loadedValue_eq wide known]
    exact txData_oneWord known fits toNat_firstWord data
  next unknown =>
    rw [eq_three_of_unknown unknown]
    rfl

/-- The answers for an access across two words. -/
theorem data_of_twoWords (wide : 2 ≤ aWidth) (splits : access.splits = true) (wasNa : Bool)
    (data : BitVec 32) :
    txData access.size access.lsb false true
        (txData access.size access.lsb true wasNa data
          (readWord memory (l2Addr access.dest access.addr false)))
        (readWord memory (l2Addr access.dest access.addr true)) = access.loaded memory := by
  have known : access.size.toNat ≤ 2 := by
    by_contra unknown
    rw [TxAccess.splits, eq_three_of_unknown unknown] at splits
    exact Bool.noConfusion splits
  rw [loaded, if_pos known, loadedValue_eq wide known]
  exact txData_twoWords splits toNat_firstWord toNat_secondWord wasNa data

end TxAccess

end CoreVMcu.Udma
