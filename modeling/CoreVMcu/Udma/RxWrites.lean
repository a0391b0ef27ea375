import Mathlib.Tactic.IntervalCases
import CoreVMcu.Udma.RxChannels

/-!
# Writes of the RX channels

A write of the L2 port changes the enabled lanes of one word.  The one or two writes
of an access change its valid bytes and nothing else, wherever its address falls in
a word.
-/

namespace CoreVMcu.Udma

variable {aWidth idWidth : Nat}

/-- Byte `i` of a word. -/
def byteOf (word : BitVec 32) (i : Nat) : BitVec 8 := word.extractLsb' (8 * i) 8

/-- The bytes that a write of the bus changes. -/
def laneWrites (addr : BitVec 32) (be : BitVec 4) (wdata : BitVec 32) :
    List (BitVec 32 × BitVec 8) :=
  ((List.range 4).filter be.getLsbD).map fun lane =>
    (addr + BitVec.ofNat 32 lane, byteOf wdata lane)

theorem mem_laneWrites {addr : BitVec 32} {be : BitVec 4} {wdata : BitVec 32}
    {write : BitVec 32 × BitVec 8} :
    write ∈ laneWrites addr be wdata ↔
      ∃ lane < 4, be.getLsbD lane = true ∧
        write = (addr + BitVec.ofNat 32 lane, byteOf wdata lane) := by
  simp only [laneWrites, List.mem_map, List.mem_filter, List.mem_range, and_assoc]
  exact exists_congr fun lane => and_congr_right fun _ => and_congr_right fun _ => eq_comm

/-! ## Lanes -/

section Lanes

variable {size bytes lsb : BitVec 2}

/-- The lanes of the first word that are enabled. -/
theorem rxBe_first (known : size.toNat ≤ 2) (inside : bytes.toNat < 2 ^ size.toNat) {lane : Nat}
    (small : lane < 4) :
    (rxBe size bytes lsb false).getLsbD lane =
      decide (lsb.toNat ≤ lane ∧ lane ≤ lsb.toNat + bytes.toNat) := by
  revert known inside
  revert size bytes lsb
  interval_cases lane <;> decide

/-- The lanes of the second word that are enabled. -/
theorem rxBe_second (known : size.toNat ≤ 2) (inside : bytes.toNat < 2 ^ size.toNat)
    (splits : detectNa size lsb = true) {lane : Nat} (small : lane < 4) :
    (rxBe size bytes lsb true).getLsbD lane =
      decide (lane + 4 ≤ lsb.toNat + bytes.toNat) := by
  revert known inside splits
  revert size bytes lsb
  interval_cases lane <;> decide

theorem toNat_byteOf (word : BitVec 32) (i : Nat) :
    (byteOf word i).toNat = word.toNat / 2 ^ (8 * i) % 2 ^ 8 :=
  toNat_extract_eq ..

/-- The first word is the data, moved to the lane of the address. -/
theorem toNat_rxWdata_first (known : size.toNat ≤ 2) (data : BitVec 32) :
    (rxWdata size lsb false data).toNat =
      data.toNat % 2 ^ (8 * 2 ^ size.toNat) * 2 ^ (8 * lsb.toNat) % 2 ^ 32 := by
  have below := data.isLt
  obtain rfl | rfl | rfl | rfl := twoBit_cases size
  · obtain rfl | rfl | rfl | rfl := twoBit_cases lsb
    · change (0#24 ++ data.extractLsb' 0 8).toNat = data.toNat % 2 ^ 8 * 2 ^ 0 % 2 ^ 32
      simp only [toNat_append_eq, toNat_extract_eq, BitVec.toNat_ofNat]
      omega
    · change (0#16 ++ (data.extractLsb' 0 8 ++ 0#8)).toNat = data.toNat % 2 ^ 8 * 2 ^ 8 % 2 ^ 32
      simp only [toNat_append_eq, toNat_extract_eq, BitVec.toNat_ofNat]
      omega
    · change (0#8 ++ (data.extractLsb' 0 8 ++ 0#16)).toNat = data.toNat % 2 ^ 8 * 2 ^ 16 % 2 ^ 32
      simp only [toNat_append_eq, toNat_extract_eq, BitVec.toNat_ofNat]
      omega
    · change (data.extractLsb' 0 8 ++ 0#24).toNat = data.toNat % 2 ^ 8 * 2 ^ 24 % 2 ^ 32
      simp only [toNat_append_eq, toNat_extract_eq, BitVec.toNat_ofNat]
      omega
  · obtain rfl | rfl | rfl | rfl := twoBit_cases lsb
    · change (0#16 ++ data.extractLsb' 0 16).toNat = data.toNat % 2 ^ 16 * 2 ^ 0 % 2 ^ 32
      simp only [toNat_append_eq, toNat_extract_eq, BitVec.toNat_ofNat]
      omega
    · change (0#8 ++ (data.extractLsb' 0 16 ++ 0#8)).toNat = data.toNat % 2 ^ 16 * 2 ^ 8 % 2 ^ 32
      simp only [toNat_append_eq, toNat_extract_eq, BitVec.toNat_ofNat]
      omega
    · change (data.extractLsb' 0 16 ++ 0#16).toNat = data.toNat % 2 ^ 16 * 2 ^ 16 % 2 ^ 32
      simp only [toNat_append_eq, toNat_extract_eq, BitVec.toNat_ofNat]
      omega
    · change (data.extractLsb' 0 8 ++ 0#24).toNat = data.toNat % 2 ^ 16 * 2 ^ 24 % 2 ^ 32
      simp only [toNat_append_eq, toNat_extract_eq, BitVec.toNat_ofNat]
      omega
  · obtain rfl | rfl | rfl | rfl := twoBit_cases lsb
    · change data.toNat = data.toNat % 2 ^ 32 * 2 ^ 0 % 2 ^ 32
      omega
    · change (data.extractLsb' 0 24 ++ 0#8).toNat = data.toNat % 2 ^ 32 * 2 ^ 8 % 2 ^ 32
      simp only [toNat_append_eq, toNat_extract_eq, BitVec.toNat_ofNat]
      omega
    · change (data.extractLsb' 0 16 ++ 0#16).toNat = data.toNat % 2 ^ 32 * 2 ^ 16 % 2 ^ 32
      simp only [toNat_append_eq, toNat_extract_eq, BitVec.toNat_ofNat]
      omega
    · change (data.extractLsb' 0 8 ++ 0#24).toNat = data.toNat % 2 ^ 32 * 2 ^ 24 % 2 ^ 32
      simp only [toNat_append_eq, toNat_extract_eq, BitVec.toNat_ofNat]
      omega
  · exact absurd known (by decide)

/-- The second word is what the first one has no lanes for. -/
theorem toNat_rxWdata_second (splits : detectNa size lsb = true) (data : BitVec 32) :
    (rxWdata size lsb true data).toNat =
      data.toNat % 2 ^ (8 * 2 ^ size.toNat) / 2 ^ (8 * (4 - lsb.toNat)) := by
  have below := data.isLt
  obtain rfl | rfl | rfl | rfl := twoBit_cases size
  · exact absurd splits (by decide +revert)
  · obtain rfl | rfl | rfl | rfl := twoBit_cases lsb
    · exact absurd splits (by decide)
    · exact absurd splits (by decide)
    · exact absurd splits (by decide)
    · change (0#24 ++ data.extractLsb' 8 8).toNat = data.toNat % 2 ^ 16 / 2 ^ 8
      simp only [toNat_append_eq, toNat_extract_eq, BitVec.toNat_ofNat]
      omega
  · obtain rfl | rfl | rfl | rfl := twoBit_cases lsb
    · exact absurd splits (by decide)
    · change (0#24 ++ data.extractLsb' 24 8).toNat = data.toNat % 2 ^ 32 / 2 ^ 24
      simp only [toNat_append_eq, toNat_extract_eq, BitVec.toNat_ofNat]
      omega
    · change (0#16 ++ data.extractLsb' 16 16).toNat = data.toNat % 2 ^ 32 / 2 ^ 16
      simp only [toNat_append_eq, toNat_extract_eq, BitVec.toNat_ofNat]
      omega
    · change (0#8 ++ data.extractLsb' 8 24).toNat = data.toNat % 2 ^ 32 / 2 ^ 8
      simp only [toNat_append_eq, toNat_extract_eq, BitVec.toNat_ofNat]
      omega
  · exact absurd splits (by decide +revert)

/-- The lanes of the first word carry the first bytes of the access. -/
theorem byteOf_first (known : size.toNat ≤ 2) (data : BitVec 32) {i : Nat}
    (inside : i < 2 ^ size.toNat) (small : lsb.toNat + i < 4) :
    byteOf (rxWdata size lsb false data) (lsb.toNat + i) = byteOf data i := by
  apply BitVec.eq_of_toNat_eq
  rw [toNat_byteOf, toNat_byteOf, toNat_rxWdata_first known]
  apply Nat.eq_of_testBit_eq
  intro bit
  simp only [Nat.testBit_mod_two_pow, Nat.testBit_div_two_pow, Nat.testBit_mul_two_pow]
  by_cases inByte : bit < 8
  · have moved : bit + 8 * (lsb.toNat + i) - 8 * lsb.toNat = bit + 8 * i := by omega
    have inWord : bit + 8 * i < 8 * 2 ^ size.toNat := by omega
    have fits : bit + 8 * (lsb.toNat + i) < 32 ∧ 8 * lsb.toNat ≤ bit + 8 * (lsb.toNat + i) := by
      omega
    simp only [moved, inWord, fits.1, fits.2, decide_true, Bool.true_and]
  · simp only [inByte, decide_false, Bool.false_and]

/-- The lanes of the second word carry the other ones. -/
theorem byteOf_second (splits : detectNa size lsb = true) (data : BitVec 32) {i : Nat}
    (inside : i < 2 ^ size.toNat) (next : 4 ≤ lsb.toNat + i) :
    byteOf (rxWdata size lsb true data) (lsb.toNat + i - 4) = byteOf data i := by
  apply BitVec.eq_of_toNat_eq
  rw [toNat_byteOf, toNat_byteOf, toNat_rxWdata_second splits]
  apply Nat.eq_of_testBit_eq
  intro bit
  simp only [Nat.testBit_mod_two_pow, Nat.testBit_div_two_pow]
  by_cases inByte : bit < 8
  · have below := lsb.isLt
    have moved : bit + 8 * (lsb.toNat + i - 4) + 8 * (4 - lsb.toNat) = bit + 8 * i := by omega
    have inWord : bit + 8 * i < 8 * 2 ^ size.toNat := by omega
    simp only [moved, inWord, decide_true, Bool.true_and]
  · simp only [inByte, decide_false, Bool.false_and]

end Lanes

/-! ## Accesses -/

namespace RxAccess

variable (access : RxAccess aWidth idWidth)

/-- `s_l2_addr[1:0]`. -/
def lsb : BitVec 2 := access.addr.setWidth 2

/-- The access needs two words. -/
def splits : Bool := detectNa access.size access.lsb

/-- The bytes that the write of one of its words changes. -/
def wordWrites (isNa : Bool) : List (BitVec 32 × BitVec 8) :=
  laneWrites (l2Addr access.dest access.addr isNa) (rxBe access.size access.bytes access.lsb isNa)
    (rxWdata access.size access.lsb isNa access.data)

/-- The bytes that an access changes. -/
def writes : List (BitVec 32 × BitVec 8) :=
  access.wordWrites false ++ if access.splits then access.wordWrites true else []

/-- Byte `i` of an access, with its bus address. -/
def byteWrite (i : Nat) : BitVec 32 × BitVec 8 :=
  (byteAddr access.dest (access.addr + BitVec.ofNat aWidth i), byteOf access.data i)

/-- An access of a linear channel: a known data size and no more bytes than that. -/
structure Valid : Prop where
  known : access.size.toNat ≤ 2
  bytes : access.bytes.toNat < 2 ^ access.size.toNat

variable {access} {write : BitVec 32 × BitVec 8}

theorem Valid.byteWrite_eq (valid : access.Valid) (wide : 2 ≤ aWidth) {i : Nat}
    (inside : i < 2 ^ access.size.toNat) :
    byteAddr access.dest (access.addr + BitVec.ofNat aWidth i) =
      l2Addr access.dest access.addr (decide (4 ≤ access.lsb.toNat + i)) +
        BitVec.ofNat 32 ((access.lsb.toNat + i) % 4) := by
  have most : 2 ^ access.size.toNat ≤ 2 ^ 2 := Nat.pow_le_pow_right (by decide) valid.known
  have small : i < 4 := Nat.lt_of_lt_of_le inside most
  rw [byteAddr_add wide _ _ small, lsb, BitVec.toNat_setWidth]

theorem Valid.byteWrite_first (valid : access.Valid) (wide : 2 ≤ aWidth) {i : Nat}
    (inside : i ≤ access.bytes.toNat) (small : access.lsb.toNat + i < 4) :
    access.byteWrite i =
      (l2Addr access.dest access.addr false + BitVec.ofNat 32 (access.lsb.toNat + i),
        byteOf (rxWdata access.size access.lsb false access.data) (access.lsb.toNat + i)) := by
  have inWord := Nat.lt_of_le_of_lt inside valid.bytes
  rw [byteWrite, valid.byteWrite_eq wide inWord, decide_eq_false (Nat.not_le_of_lt small),
    Nat.mod_eq_of_lt small, byteOf_first valid.known _ inWord small]

theorem Valid.byteWrite_second (valid : access.Valid) (wide : 2 ≤ aWidth)
    (splits : access.splits = true) {i : Nat} (inside : i ≤ access.bytes.toNat)
    (next : 4 ≤ access.lsb.toNat + i) :
    access.byteWrite i =
      (l2Addr access.dest access.addr true + BitVec.ofNat 32 (access.lsb.toNat + i - 4),
        byteOf (rxWdata access.size access.lsb true access.data) (access.lsb.toNat + i - 4)) := by
  have inWord := Nat.lt_of_le_of_lt inside valid.bytes
  have below := access.lsb.isLt
  have bytes := access.bytes.isLt
  have lane : (access.lsb.toNat + i) % 4 = access.lsb.toNat + i - 4 := by omega
  rw [byteWrite, valid.byteWrite_eq wide inWord, decide_eq_true next, lane,
    byteOf_second splits _ inWord next]

/-- The first word of an access takes the bytes that it has lanes for. -/
theorem Valid.mem_first (valid : access.Valid) (wide : 2 ≤ aWidth) :
    write ∈ access.wordWrites false ↔
      ∃ i ≤ access.bytes.toNat, access.lsb.toNat + i < 4 ∧ write = access.byteWrite i := by
  rw [wordWrites, mem_laneWrites]
  constructor
  · rintro ⟨lane, small, enabled, rfl⟩
    rw [rxBe_first valid.known valid.bytes small, decide_eq_true_eq] at enabled
    obtain ⟨i, rfl⟩ := Nat.exists_eq_add_of_le enabled.1
    have inside := Nat.le_of_add_le_add_left enabled.2
    exact ⟨i, inside, small, (valid.byteWrite_first wide inside small).symm⟩
  · rintro ⟨i, inside, small, rfl⟩
    refine ⟨access.lsb.toNat + i, small, ?_, valid.byteWrite_first wide inside small⟩
    rw [rxBe_first valid.known valid.bytes small, decide_eq_true_eq]
    exact ⟨Nat.le_add_right .., Nat.add_le_add_left inside _⟩

/-- The second word takes the other ones. -/
theorem Valid.mem_second (valid : access.Valid) (wide : 2 ≤ aWidth)
    (splits : access.splits = true) :
    write ∈ access.wordWrites true ↔
      ∃ i ≤ access.bytes.toNat, 4 ≤ access.lsb.toNat + i ∧ write = access.byteWrite i := by
  rw [wordWrites, mem_laneWrites]
  constructor
  · rintro ⟨lane, small, enabled, rfl⟩
    rw [rxBe_second valid.known valid.bytes splits small, decide_eq_true_eq] at enabled
    have below := access.lsb.isLt
    have inside : lane + 4 - access.lsb.toNat ≤ access.bytes.toNat := by omega
    have next : 4 ≤ access.lsb.toNat + (lane + 4 - access.lsb.toNat) := by omega
    refine ⟨_, inside, next, ?_⟩
    rw [valid.byteWrite_second wide splits inside next]
    congr <;> omega
  · rintro ⟨i, inside, next, rfl⟩
    have below := access.lsb.isLt
    have bytes := access.bytes.isLt
    have small : access.lsb.toNat + i - 4 < 4 := by omega
    refine ⟨_, small, ?_, valid.byteWrite_second wide splits inside next⟩
    rw [rxBe_second valid.known valid.bytes splits small, decide_eq_true_eq]
    omega

/-- An access that does not need a second word fits in the first one. -/
theorem Valid.fits (valid : access.Valid) (one : access.splits = false) {i : Nat}
    (inside : i ≤ access.bytes.toNat) : access.lsb.toNat + i < 4 := by
  have fits : ∀ size lsb : BitVec 2, size.toNat ≤ 2 → detectNa size lsb = false →
      lsb.toNat + 2 ^ size.toNat ≤ 4 := by decide
  have bytes := valid.bytes
  have lanes := fits _ _ valid.known one
  omega

/-- An access changes its valid bytes. -/
theorem Valid.mem_writes (valid : access.Valid) (wide : 2 ≤ aWidth) :
    write ∈ access.writes ↔ ∃ i ≤ access.bytes.toNat, write = access.byteWrite i := by
  rw [writes, List.mem_append, valid.mem_first wide]
  cases splits : access.splits with
  | false =>
      rw [if_neg Bool.false_ne_true]
      constructor
      · rintro (⟨i, inside, -, same⟩ | none)
        · exact ⟨i, inside, same⟩
        · exact absurd none List.not_mem_nil
      · rintro ⟨i, inside, same⟩
        exact .inl ⟨i, inside, valid.fits splits inside, same⟩
  | true =>
      rw [if_pos rfl, valid.mem_second wide splits]
      constructor
      · rintro (⟨i, inside, -, same⟩ | ⟨i, inside, -, same⟩)
        · exact ⟨i, inside, same⟩
        · exact ⟨i, inside, same⟩
      · rintro ⟨i, inside, same⟩
        cases Nat.lt_or_ge (access.lsb.toNat + i) 4 with
        | inl small => exact .inl ⟨i, inside, small, same⟩
        | inr next => exact .inr ⟨i, inside, next, same⟩

end RxAccess

end CoreVMcu.Udma
