import CoreVMcu.Boot.FlashPlacement

/-!
# What the flash loader loads

A section is read block by block, and its last block is rounded up to words.  The areas are loaded
in the order of the table, so that the rounded end of one may overwrite another.
-/

namespace CoreVMcu.Boot.Flash

open Clocked

variable {data : BitVec 32} {flash : FlashBytes} {memory other : Memory}

/-- The bytes that are loaded for a size. -/
def roundedSize (size : Nat) : Nat := (size + 3) / 4 * 4

theorem le_roundedSize (size : Nat) : size ≤ roundedSize size := by
  rw [roundedSize]
  omega

/-- The sizes of blocks: whole words, and not larger than `flashBuffer`. -/
structure IsBlockSize (blockSize : BitVec 32) : Prop where
  words : blockSize.toNat % 4 = 0
  positive : 0 < blockSize.toNat
  buffered : blockSize.toNat ≤ 4096

theorem IsBlockSize.words_mul {blockSize : BitVec 32} (valid : IsBlockSize blockSize) (i : Nat) :
    i * blockSize.toNat % 4 = 0 := by
  rw [Nat.mul_mod, valid.words, Nat.mul_zero]

theorem isBlockSize_blockSizeOf (hyperflash : BitVec 32) :
    IsBlockSize (blockSizeOf hyperflash) := by
  rw [blockSizeOf]
  split
  · exact ⟨by decide, by decide, by decide⟩
  · exact ⟨by decide, by decide, by decide⟩

theorem iterSize_toNat {blockSize : BitVec 32} (valid : IsBlockSize blockSize) (size : BitVec 32) :
    (iterSize blockSize size).toNat = min blockSize.toNat (roundedSize size.toNat) := by
  have words := valid.words
  have buffered := valid.buffered
  rw [iterSize, roundedSize]
  split
  next short =>
    rw [BitVec.lt_def] at short
    have mask : (0xFFFFFFFC : BitVec 32) = ~~~(BitVec.ofNat 32 (2 ^ 2 - 1)) := by decide
    rw [mask, toNat_alignDown, BitVec.toNat_add]
    simp only [BitVec.reduceToNat]
    omega
  next long =>
    rw [BitVec.lt_def] at long
    omega

/-- A block is loaded, outside of `flashBuffer`. -/
theorem loadBlock_apply (isL2Section : Bool) (flashAddr areaAddr iterSize : BitVec 32)
    (buffered : iterSize.toNat ≤ 4096) {address : BitVec 32}
    (outside : ¬InRange data 4096 address) :
    loadBlock data flash memory isL2Section flashAddr areaAddr iterSize address =
      copied memory areaAddr iterSize.toNat (fun offset => flash ((flashAddr + offset).setWidth 24))
        address := by
  have length : (iterSize.setWidth 16).toNat = iterSize.toNat := by
    rw [BitVec.toNat_setWidth, Nat.mod_eq_of_lt (by omega)]
  cases isL2Section with
  | true => rw [loadBlock, if_pos rfl, udmaFlashRead, length]
  | false =>
    rw [loadBlock, if_neg Bool.false_ne_true, memcpy]
    by_cases inside : InRange areaAddr iterSize.toNat address
    · -- through the buffer
      have sourceOffset := add_sub_cancel_left data (address - areaAddr)
      have inBuffer : InRange data iterSize.toNat (data + (address - areaAddr)) := by
        rw [InRange, sourceOffset]
        exact inside
      rw [copied_inside inside, copied_inside inside, udmaFlashRead, length, copied_inside inBuffer,
        sourceOffset]
    · rw [copied_outside inside, copied_outside inside, udmaFlashRead, length]
      exact copied_outside fun inBuffer => outside (inBuffer.mono buffered)

/-- Two memories have the same fields behind `flashBuffer`. -/
def SameFields (data : BitVec 32) (memory other : Memory) : Prop :=
  ∀ a, 4096 ≤ a → a < sizeofBootCode →
    memory (data + BitVec.ofNat 32 a) = other (data + BitVec.ofNat 32 a)

theorem SameFields.readWord_eq (same : SameFields data memory other) {a : Nat} (low : 4096 ≤ a)
    (high : a + 4 ≤ sizeofBootCode) :
    readWord memory (data + BitVec.ofNat 32 a) = readWord other (data + BitVec.ofNat 32 a) := by
  apply readWord_congr
  intro k below
  rw [offset_add]
  exact same (a + k) (by omega) (by omega)

theorem SameFields.nbAreas_eq (same : SameFields data memory other) :
    nbAreas data memory = nbAreas data other :=
  same.readWord_eq (by decide) (by decide)

theorem SameFields.blockSize_eq (same : SameFields data memory other) :
    readWord memory (blockSizeAddr data) = readWord other (blockSizeAddr data) :=
  same.readWord_eq (by decide) (by decide)

theorem SameFields.readArea_eq (same : SameFields data memory other) {i : Nat}
    (inside : i < maxNbArea) :
    readArea memory (memAreaAddr data i) = readArea other (memAreaAddr data i) := by
  unfold maxNbArea at inside
  have size : sizeofBootCode = 6440 := rfl
  rw [readArea, readArea, memAreaAddr, offset_add, offset_add, offset_add,
    same.readWord_eq (by omega) (by omega), same.readWord_eq (by omega) (by omega),
    same.readWord_eq (by omega) (by omega), same.readWord_eq (by omega) (by omega)]

/-- A byte is loaded for an area. -/
def MemArea.covers (area : MemArea) (address : BitVec 32) : Bool :=
  InRange area.ptr (roundedSize area.size.toNat) address

theorem MemArea.covers_of_inRange {area : MemArea} {address : BitVec 32}
    (inside : InRange area.ptr area.size.toNat address) : area.covers address = true :=
  decide_eq_true (inside.mono (le_roundedSize _))

/-- The end of an area apart from the data, rounded up, reaches at most `flashBuffer`. -/
theorem not_covers_field {area : MemArea} (apart : ¬Overlaps data area) {a : Nat} (low : 4096 ≤ a)
    (high : a < sizeofBootCode) : area.covers (data + BitVec.ofNat 32 a) = false := by
  have size : sizeofBootCode = 6440 := rfl
  apply decide_eq_false
  intro covered
  apply apart
  obtain ⟨j, below, small, same⟩ := inRange_iff.mp covered
  rw [roundedSize] at below
  -- the last byte of the area, or this one if it is before that
  obtain ⟨back, near, inside⟩ : ∃ back ≤ 3, back ≤ j ∧ j - back < area.size.toNat := by
    rcases Nat.lt_or_ge j area.size.toNat with before | after
    · exact ⟨0, by omega, by omega, by omega⟩
    · exact ⟨j - area.size.toNat + 1, by omega, by omega, by omega⟩
  refine ⟨area.ptr + BitVec.ofNat 32 (j - back), ?_, ?_⟩
  · exact inRange_iff.mpr ⟨j - back, inside.2, by omega, rfl⟩
  · refine inRange_iff.mpr ⟨a - back, by omega, by omega, ?_⟩
    have step (start : BitVec 32) {n : Nat} (le : back ≤ n) :
        start + BitVec.ofNat 32 (n - back) = start + BitVec.ofNat 32 n - BitVec.ofNat 32 back := by
      have whole : start + BitVec.ofNat 32 n =
          start + BitVec.ofNat 32 (n - back) + BitVec.ofNat 32 back := by
        rw [offset_add, Nat.sub_add_cancel le]
      rw [whole, BitVec.add_sub_cancel]
    rw [step data (by omega), step area.ptr inside.1, same]

/-! ## A section -/

section Section

variable {blockSize : BitVec 32} {area : MemArea}

/-- The variables of the loop before a block. -/
structure AtBlock (blockSize : BitVec 32) (area : MemArea) (i : Nat)
    (flashAddr areaAddr size : BitVec 32) : Prop where
  flashAddr_eq : flashAddr = area.start + BitVec.ofNat 32 (i * blockSize.toNat)
  areaAddr_eq : areaAddr = area.ptr + BitVec.ofNat 32 (i * blockSize.toNat)
  size_eq : size.toNat = area.size.toNat - i * blockSize.toNat

variable (valid : IsBlockSize blockSize)
  (fits : area.blocks.toNat = (area.size.toNat + blockSize.toNat - 1) / blockSize.toNat)

include valid fits

/-- A block starts inside of its area. -/
theorem block_lt_size {i : Nat} (inside : i < area.blocks.toNat) :
    i * blockSize.toNat < area.size.toNat := by
  have positive := valid.positive
  rw [fits, Nat.lt_iff_add_one_le, Nat.le_div_iff_mul_le positive, Nat.succ_mul] at inside
  omega

/-- The blocks are the whole area. -/
theorem roundedSize_le_blocks :
    roundedSize area.size.toNat ≤ area.blocks.toNat * blockSize.toNat := by
  have positive := valid.positive
  have words := valid.words_mul area.blocks.toNat
  have whole := Nat.div_add_mod' (area.size.toNat + blockSize.toNat - 1) blockSize.toNat
  have rest := Nat.mod_lt (area.size.toNat + blockSize.toNat - 1) positive
  rw [← fits] at whole
  rw [roundedSize]
  omega

theorem AtBlock.iterSize_toNat {i : Nat} {flashAddr areaAddr size : BitVec 32}
    (at_block : AtBlock blockSize area i flashAddr areaAddr size) (inside : i < area.blocks.toNat) :
    (iterSize blockSize size).toNat =
      min blockSize.toNat (roundedSize area.size.toNat - i * blockSize.toNat) := by
  have words := valid.words_mul i
  have start := block_lt_size valid fits inside
  rw [Flash.iterSize_toNat valid, at_block.size_eq, roundedSize, roundedSize]
  omega

/-- One iteration, before the last one. -/
theorem AtBlock.next {i : Nat} {flashAddr areaAddr size : BitVec 32}
    (at_block : AtBlock blockSize area i flashAddr areaAddr size)
    (inside : i + 1 < area.blocks.toNat) :
    AtBlock blockSize area (i + 1) (flashAddr + iterSize blockSize size)
      (areaAddr + iterSize blockSize size) (size - iterSize blockSize size) := by
  have start := block_lt_size valid fits inside
  have rounded := le_roundedSize area.size.toNat
  have iter := at_block.iterSize_toNat valid fits (Nat.lt_of_succ_lt inside)
  rw [Nat.succ_mul] at start
  have whole : (iterSize blockSize size).toNat = blockSize.toNat := by omega
  have block : iterSize blockSize size = BitVec.ofNat 32 blockSize.toNat := by
    rw [← whole, BitVec.ofNat_toNat, BitVec.setWidth_eq]
  refine ⟨?_, ?_, ?_⟩
  · rw [at_block.flashAddr_eq, block, offset_add, Nat.succ_mul]
  · rw [at_block.areaAddr_eq, block, offset_add, Nat.succ_mul]
  · have size := at_block.size_eq
    rw [BitVec.toNat_sub_of_le, whole, size, Nat.succ_mul, Nat.sub_sub]
    rw [BitVec.le_def]
    omega

/-- The addresses of a block. -/
theorem AtBlock.inRange_iff {i : Nat} {flashAddr areaAddr size : BitVec 32}
    (at_block : AtBlock blockSize area i flashAddr areaAddr size) (inside : i < area.blocks.toNat)
    (address : BitVec 32) :
    InRange areaAddr (iterSize blockSize size).toNat address ↔ area.covers address = true ∧
      i * blockSize.toNat ≤ (address - area.ptr).toNat ∧
      (address - area.ptr).toNat < (i + 1) * blockSize.toNat := by
  have start := block_lt_size valid fits inside
  have rounded := le_roundedSize area.size.toNat
  have small : roundedSize area.size.toNat ≤ 2 ^ 32 := by
    have := area.size.isLt
    rw [roundedSize]
    omega
  have offset := add_offset area.ptr address
  have below := (address - area.ptr).isLt
  have covers : area.covers address = true ↔
      (address - area.ptr).toNat < roundedSize area.size.toNat := by
    rw [MemArea.covers, decide_eq_true_iff, InRange]
  rw [covers, at_block.iterSize_toNat valid fits inside, at_block.areaAddr_eq, Nat.succ_mul]
  generalize (address - area.ptr).toNat = j at offset below
  rw [← offset]
  rcases Nat.lt_or_ge j (i * blockSize.toNat) with before | after
  · have outside : ¬InRange (area.ptr + BitVec.ofNat 32 (i * blockSize.toNat))
        (min blockSize.toNat (roundedSize area.size.toNat - i * blockSize.toNat))
        (area.ptr + BitVec.ofNat 32 j) := not_inRange_below before (by omega)
    constructor
    · intro contained
      exact absurd contained outside
    · omega
  · rw [inRange_offset after below]
    omega

/-- A block of an area is loaded. -/
theorem AtBlock.loadBlock_apply {i : Nat} {flashAddr areaAddr size : BitVec 32}
    (at_block : AtBlock blockSize area i flashAddr areaAddr size) (inside : i < area.blocks.toNat)
    (isL2Section : Bool) {address : BitVec 32} (outside : ¬InRange data 4096 address) :
    loadBlock data flash memory isL2Section flashAddr areaAddr (iterSize blockSize size) address =
      if area.covers address = true ∧ i * blockSize.toNat ≤ (address - area.ptr).toNat ∧
          (address - area.ptr).toNat < (i + 1) * blockSize.toNat then
        area.byteAt flash address
      else memory address := by
  have buffered : (iterSize blockSize size).toNat ≤ 4096 := by
    rw [at_block.iterSize_toNat valid fits inside]
    exact Nat.le_trans (Nat.min_le_left _ _) valid.buffered
  rw [Flash.loadBlock_apply isL2Section flashAddr areaAddr _ buffered outside]
  by_cases contained : InRange areaAddr (iterSize blockSize size).toNat address
  · rw [copied_inside contained,
      if_pos ((at_block.inRange_iff valid fits inside address).mp contained), MemArea.byteAt,
      at_block.flashAddr_eq, at_block.areaAddr_eq]
    congr 2
    -- the offset in the block is that in the area
    rw [sub_add_eq_sub_sub, BitVec.add_assoc, add_sub_cancel]
  · rw [copied_outside contained]
    rw [at_block.inRange_iff valid fits inside] at contained
    rw [if_neg contained]

end Section

/-- `flashBuffer` is before the other fields. -/
theorem not_inRange_buffer {a : Nat} (low : 4096 ≤ a) (high : a < sizeofBootCode) :
    ¬InRange data 4096 (data + BitVec.ofNat 32 a) := by
  have size : sizeofBootCode = 6440 := rfl
  rw [InRange, toNat_offset data (by omega)]
  omega

section Loop

variable {blockSize : BitVec 32} {area : MemArea} (valid : IsBlockSize blockSize)
  (fits : area.blocks.toNat = (area.size.toNat + blockSize.toNat - 1) / blockSize.toNat)
  (apart : ¬Overlaps data area)

include valid fits apart

/-- A block of an area apart from the data leaves the fields. -/
theorem sameFields_loadBlock {i : Nat} {flashAddr areaAddr size : BitVec 32}
    (at_block : AtBlock blockSize area i flashAddr areaAddr size) (inside : i < area.blocks.toNat)
    (isL2Section : Bool) :
    SameFields data
      (loadBlock data flash memory isL2Section flashAddr areaAddr (iterSize blockSize size))
      memory := by
  intro a low high
  rw [at_block.loadBlock_apply valid fits inside isL2Section (not_inRange_buffer low high), if_neg]
  rintro ⟨covered, -⟩
  rw [not_covers_field apart low high] at covered
  cases covered

/-- The loop from its `i`-th iteration on loads the rest of the area. -/
theorem loadBlocks_apply {n : Nat} (entry : n < maxNbArea) (isL2Section : Bool) (rest : Nat) :
    ∀ (i : Nat) (flashAddr areaAddr size : BitVec 32) (memory : Memory),
      i + rest = area.blocks.toNat → readArea memory (memAreaAddr data n) = area →
      readWord memory (blockSizeAddr data) = blockSize →
      (i < area.blocks.toNat → AtBlock blockSize area i flashAddr areaAddr size) →
      ∀ address, ¬InRange data 4096 address →
        loadBlocks data flash (memAreaAddr data n) isL2Section i flashAddr areaAddr size memory
            address =
          if area.covers address = true ∧ i * blockSize.toNat ≤ (address - area.ptr).toNat then
            area.byteAt flash address
          else memory address := by
  induction rest with
  | zero =>
    intro i flashAddr areaAddr size memory last record _ _ address _
    rw [Nat.add_zero] at last
    rw [loadBlocks, record, if_neg (by omega), if_neg]
    rintro ⟨covered, after⟩
    have whole := roundedSize_le_blocks valid fits
    rw [MemArea.covers, decide_eq_true_iff, InRange] at covered
    rw [last] at after
    omega
  | succ rest inductionHypothesis =>
    intro i flashAddr areaAddr size memory count record blocked current address outside
    have inside : i < area.blocks.toNat := by omega
    have at_block := current inside
    have same : SameFields data
        (loadBlock data flash memory isL2Section flashAddr areaAddr (iterSize blockSize size))
        memory :=
      sameFields_loadBlock valid fits apart at_block inside isL2Section
    rw [loadBlocks, record, blocked, if_pos inside]
    rw [inductionHypothesis (i + 1) _ _ _ _ (by omega) ((same.readArea_eq entry).trans record)
      (same.blockSize_eq.trans blocked) (at_block.next valid fits) address outside,
      at_block.loadBlock_apply valid fits inside isL2Section outside]
    have step : (i + 1) * blockSize.toNat = i * blockSize.toNat + blockSize.toNat :=
      Nat.succ_mul _ _
    by_cases later : (i + 1) * blockSize.toNat ≤ (address - area.ptr).toNat
    · have this : i * blockSize.toNat ≤ (address - area.ptr).toNat := by omega
      simp only [later, this, and_true, Nat.not_lt.mpr later, and_false, if_false]
    · simp only [later, and_false, if_false, Nat.lt_of_not_le later, and_true]

/-- A section is loaded, outside of `flashBuffer`. -/
theorem loadSection_apply {n : Nat} (entry : n < maxNbArea)
    (record : readArea memory (memAreaAddr data n) = area)
    (blocked : readWord memory (blockSizeAddr data) = blockSize) {address : BitVec 32}
    (outside : ¬InRange data 4096 address) :
    loadSection data flash memory (memAreaAddr data n) address =
      if area.covers address = true then area.byteAt flash address else memory address := by
  have first : AtBlock blockSize area 0 area.start area.ptr area.size := by
    refine ⟨?_, ?_, ?_⟩
    · rw [Nat.zero_mul, BitVec.add_zero]
    · rw [Nat.zero_mul, BitVec.add_zero]
    · rw [Nat.zero_mul, Nat.sub_zero]
  rw [loadSection, record]
  rw [loadBlocks_apply valid fits apart entry (isL2 area) area.blocks.toNat 0 _ _ _ memory
    (Nat.zero_add _) record blocked (fun _ => first) address outside]
  simp only [Nat.zero_mul, Nat.zero_le, and_true]

theorem sameFields_loadSection {n : Nat} (entry : n < maxNbArea)
    (record : readArea memory (memAreaAddr data n) = area)
    (blocked : readWord memory (blockSizeAddr data) = blockSize) :
    SameFields data (loadSection data flash memory (memAreaAddr data n)) memory := by
  intro a low high
  rw [loadSection_apply valid fits apart entry record blocked (not_inRange_buffer low high),
    not_covers_field apart low high, if_neg Bool.false_ne_true]

end Loop

/-! ## All areas -/

/-- The byte that the areas leave at an address. -/
def afterAreas (flash : FlashBytes) (areas : List MemArea) (address : BitVec 32)
    (byte : BitVec 8) : BitVec 8 :=
  areas.foldl
    (fun byte area => if area.covers address = true then area.byteAt flash address else byte) byte

/-- The last area in the table that covers an address. -/
def lastCovering (areas : List MemArea) (address : BitVec 32) : Option MemArea :=
  areas.reverse.find? (·.covers address)

/-- The last area that covers an address leaves its byte there. -/
theorem afterAreas_eq {areas : List MemArea} {address : BitVec 32} {area : MemArea}
    (last : lastCovering areas address = some area) (byte : BitVec 8) :
    afterAreas flash areas address byte = area.byteAt flash address := by
  rw [lastCovering] at last
  rw [afterAreas, List.foldl_eq_foldr_reverse]
  generalize areas.reverse = reversed at last
  induction reversed with
  | nil => cases last
  | cons head rest inductionHypothesis =>
    rw [List.foldr_cons]
    rw [List.find?_cons] at last
    cases covered : head.covers address with
    | true =>
      rw [covered] at last
      cases last
      rw [if_pos rfl]
    | false =>
      rw [covered] at last
      rw [if_neg Bool.false_ne_true]
      exact inductionHypothesis last

theorem exists_lastCovering {areas : List MemArea} {address : BitVec 32} {area : MemArea}
    (member : area ∈ areas) (covered : area.covers address = true) :
    ∃ last, lastCovering areas address = some last := by
  rw [← Option.isSome_iff_exists, lastCovering, List.find?_isSome]
  exact ⟨area, List.mem_reverse.mpr member, covered⟩

section Areas

variable {blockSize : BitVec 32} {table : List MemArea} (valid : IsBlockSize blockSize)
  (fits : ∀ area ∈ table, area.blocks.toNat =
    (area.size.toNat + blockSize.toNat - 1) / blockSize.toNat)
  (apart : ∀ area ∈ table, ¬Overlaps data area) (few : table.length ≤ maxNbArea)

include valid fits apart few

/-- The loop from its `i`-th iteration on loads the rest of the table. -/
theorem loadAreas_apply (rest : Nat) :
    ∀ (i : Nat) (memory : Memory), i + rest = table.length →
      (nbAreas data memory).toNat = table.length →
      (∀ n area, table[n]? = some area → readArea memory (memAreaAddr data n) = area) →
      readWord memory (blockSizeAddr data) = blockSize →
      (∀ n ∈ (loadAreas data flash i memory).2, n < table.length) ∧
        ∀ address, ¬InRange data 4096 address → (loadAreas data flash i memory).1 address =
          afterAreas flash (table.drop i) address (memory address) := by
  induction rest with
  | zero =>
    intro i memory last count _ _
    rw [Nat.add_zero] at last
    rw [loadAreas, if_neg (by omega), last, List.drop_length]
    refine ⟨?_, ?_⟩
    · intro n impossible
      cases impossible
    · intro address _
      rfl
  | succ rest inductionHypothesis =>
    intro i memory remaining count records blocked
    have inside : i < table.length := by omega
    have entry : i < maxNbArea := Nat.lt_of_lt_of_le inside few
    have member : table[i] ∈ table := List.getElem_mem inside
    have record := records i table[i] (List.getElem?_eq_getElem inside)
    have same : SameFields data (loadSection data flash memory (memAreaAddr data i)) memory :=
      sameFields_loadSection valid (fits _ member) (apart _ member) entry record blocked
    obtain ⟨entries, loaded⟩ := inductionHypothesis (i + 1)
      (loadSection data flash memory (memAreaAddr data i)) (by omega)
      (by rw [same.nbAreas_eq, count])
      (by
        intro n area present
        obtain ⟨below, -⟩ := List.getElem?_eq_some_iff.mp present
        rw [same.readArea_eq (Nat.lt_of_lt_of_le below few)]
        exact records n area present)
      (same.blockSize_eq.trans blocked)
    rw [loadAreas, if_pos (by omega)]
    refine ⟨?_, ?_⟩
    · intro n mem
      rcases List.mem_cons.mp mem with rfl | mem
      · exact inside
      · exact entries n mem
    · intro address outside
      rw [loaded address outside, List.drop_eq_getElem_cons inside, afterAreas, afterAreas,
        List.foldl_cons, loadSection_apply valid (fits _ member) (apart _ member) entry record
          blocked outside]

end Areas

/-- The last area that is loaded to an address of an area has the same byte for it. -/
def LoadsAgree (flash : FlashBytes) : Prop :=
  ∀ area ∈ flashTable flash, ∀ address, InRange area.ptr area.size.toNat address →
    ∀ last, lastCovering (flashTable flash) address = some last →
      last.byteAt flash address = area.byteAt flash address

section Booted

variable {hyperflash : BitVec 32} (qpi : BitVec 32) (memory : Memory)

/-- The table is read for as many areas as the header has. -/
theorem few_of_entries
    (entries : ∀ i ∈ (bootFromRom flash hyperflash qpi memory).entries, i < maxNbArea) :
    (flashNbAreas flash).toNat ≤ maxNbArea := by
  by_contra many
  have read : maxNbArea ∈ allEntries bootCode (lookedAt flash hyperflash qpi memory) := by
    rw [allEntries, lookedAt, nbAreas_getMemAreas]
    exact List.mem_range.mpr (Nat.lt_of_not_le many)
  exact absurd (entries maxNbArea (List.mem_append_left _ read)) (Nat.lt_irrefl _)

variable (few : (flashNbAreas flash).toNat ≤ maxNbArea)

include few

theorem length_flashTable : (flashTable flash).length = (flashNbAreas flash).toNat := by
  rw [flashTable, List.length_map, List.length_range, Nat.min_eq_left few]

/-- The data at its new place has the table of the flash. -/
theorem readArea_prepared (newData : BitVec 32) {n : Nat} {area : MemArea}
    (present : (flashTable flash)[n]? = some area) :
    readArea (prepared flash hyperflash qpi memory newData) (memAreaAddr newData n) = area := by
  obtain ⟨below, same⟩ := List.getElem?_eq_some_iff.mp present
  rw [length_flashTable few] at below
  rw [prepared, readArea_getMemAreas few newData _ below, ← same]
  simp only [flashTable, List.getElem_map, List.getElem_range]

theorem blockSize_prepared (newData : BitVec 32) :
    readWord (prepared flash hyperflash qpi memory newData) (blockSizeAddr newData) =
      blockSizeOf hyperflash := by
  rw [← blockSize_withSettings newData hyperflash qpi (lookedAt flash hyperflash qpi memory)]
  exact readWord_getMemAreas few newData _ (a := 6432) (by decide) (by decide)

/-- A table that fits and is apart from the data is loaded in its order. -/
theorem bootFromRom_loads (blocks : BlocksFit flash hyperflash)
    (apart : ∀ area ∈ flashTable flash,
      ¬Overlaps (bootFromRom flash hyperflash qpi memory).newData area) :
    (∀ i ∈ (bootFromRom flash hyperflash qpi memory).entries, i < maxNbArea) ∧
      ∀ address, ¬InRange (bootFromRom flash hyperflash qpi memory).newData 4096 address →
        (bootFromRom flash hyperflash qpi memory).memory address =
          afterAreas flash (flashTable flash) address
            (prepared flash hyperflash qpi memory (bootFromRom flash hyperflash qpi memory).newData
              address) := by
  have length := length_flashTable few
  have count : (nbAreas (bootFromRom flash hyperflash qpi memory).newData
      (prepared flash hyperflash qpi memory
        (bootFromRom flash hyperflash qpi memory).newData)).toNat = (flashTable flash).length := by
    rw [prepared, nbAreas_getMemAreas, length]
  obtain ⟨entries, loaded⟩ := loadAreas_apply (isBlockSize_blockSizeOf hyperflash) blocks apart
    (length.trans_le few) (flashTable flash).length 0 _ (Nat.zero_add _) count
    (fun n area present => readArea_prepared qpi memory few _ present)
    (blockSize_prepared qpi memory few _)
  refine ⟨?_, loaded⟩
  intro i member
  rcases List.mem_append.mp member with looked | read
  · rw [allEntries, lookedAt, nbAreas_getMemAreas, List.mem_range] at looked
    exact Nat.lt_of_lt_of_le looked few
  · exact Nat.lt_of_lt_of_le (entries i read) (length.trans_le few)

end Booted

/-- The loader boots right exactly if the table fits, the place that is found is apart from the
areas that are not looked at again, and no area is overwritten by another one that is loaded
later. -/
theorem bootsRight_iff {hyperflash : BitVec 32} (blocks : BlocksFit flash hyperflash)
    (qpi : BitVec 32) (memory : Memory) :
    BootsRight flash (bootFromRom flash hyperflash qpi memory) ↔
      (flashNbAreas flash).toNat ≤ maxNbArea ∧
        PlacesApart (blockSizeOf hyperflash) (flashTable flash) ∧ LoadsAgree flash := by
  -- the two sizes of blocks
  obtain ⟨k, power, narrow⟩ : ∃ k, blockSizeOf hyperflash = BitVec.ofNat 32 (2 ^ k) ∧ k < 32 := by
    rw [blockSizeOf]
    split
    · exact ⟨10, by decide, by decide⟩
    · exact ⟨12, by decide, by decide⟩
  have placed (few : (flashNbAreas flash).toNat ≤ maxNbArea) :
      (∀ area ∈ flashTable flash,
          ¬Overlaps (bootFromRom flash hyperflash qpi memory).newData area) ↔
        PlacesApart (blockSizeOf hyperflash) (flashTable flash) := by
    rw [← apart_iff power narrow, ← findDataFit_lookedAt few hyperflash qpi memory]
    rfl
  -- an area's byte is the one of the last area there
  have byte (few : (flashNbAreas flash).toNat ≤ maxNbArea)
      (apart : ∀ area ∈ flashTable flash,
        ¬Overlaps (bootFromRom flash hyperflash qpi memory).newData area)
      {area last : MemArea} (member : area ∈ flashTable flash) {address : BitVec 32}
      (inside : InRange area.ptr area.size.toNat address)
      (covering : lastCovering (flashTable flash) address = some last) :
      (bootFromRom flash hyperflash qpi memory).memory address = last.byteAt flash address := by
    obtain ⟨-, loaded⟩ := bootFromRom_loads qpi memory few blocks apart
    rw [loaded address, afterAreas_eq covering]
    intro buffered
    exact apart area member ⟨address, inside, buffered.mono (by decide)⟩
  constructor
  · intro right
    have few := few_of_entries qpi memory right.entries
    refine ⟨few, (placed few).mp right.apart, ?_⟩
    intro area member address inside last covering
    rw [← byte few right.apart member inside covering]
    exact right.loaded area member address inside
  · rintro ⟨few, places, agree⟩
    have apart := (placed few).mpr places
    refine ⟨(bootFromRom_loads qpi memory few blocks apart).1, apart, ?_⟩
    intro area member address inside
    obtain ⟨last, covering⟩ := exists_lastCovering member (MemArea.covers_of_inRange inside)
    rw [byte few apart member inside covering]
    exact agree area member address inside last covering

/-- A flash that holds words from its start on. -/
def flashOf (words : List (BitVec 32)) : FlashBytes := fun address =>
  (words.getD (address.toNat / 4) 0).extractLsb' (8 * (address.toNat % 4)) 8

/-- One area, of six bytes where the loader looks first. -/
def oneArea : FlashBytes :=
  flashOf [0, 1, 0x1C000000, 0, 0x1000, 0x1C000000, 6, 1]

theorem oneArea_table : flashTable oneArea = [⟨0x1000, 0x1C000000, 6, 1⟩] := by decide

theorem oneArea_boots : BootsRight oneArea (bootFromRom oneArea 0 0 fun _ => 0) := by
  have blocks : BlocksFit oneArea 0 := by
    rw [BlocksFit, oneArea_table]
    decide
  refine (bootsRight_iff blocks 0 fun _ => 0).mpr ⟨by decide, ?_, ?_⟩
  · rw [oneArea_table]
    refine (apart_iff (k := 12) rfl (by decide) _).mp ?_
    intro area member
    have below : ¬NearTop 4096 0x1C001000 ⟨0x1000, 0x1C000000, 6, 1⟩ := by
      rw [NearTop]
      decide
    have place : candidate 4096 [⟨0x1000, 0x1C000000, 6, 1⟩] 1 = 0x1C001000 := by decide
    rw [List.mem_singleton.mp member]
    change ¬Overlaps (candidate 4096 _ 1) _
    rw [place, overlaps_iff below]
    decide
  · rw [LoadsAgree, oneArea_table]
    intro area member address _ last covering
    have covered := List.mem_of_find?_eq_some covering
    rw [List.mem_singleton.mp member, List.mem_singleton.mp (List.mem_reverse.mp covered)]

/-- Two areas of a block: the first one is where the loader moves because of the second one. -/
def unsortedAreas : FlashBytes :=
  flashOf [0, 2, 0x1C002000, 0, 0x1000, 0x1C002000, 4096, 1, 0x2000, 0x1C000000, 4096, 1]

theorem unsortedAreas_table : flashTable unsortedAreas =
    [⟨0x1000, 0x1C002000, 4096, 1⟩, ⟨0x2000, 0x1C000000, 4096, 1⟩] := by decide

/-- The data is moved behind the second area, onto the first one. -/
theorem unsortedAreas_overlap : BlocksFit unsortedAreas 0 ∧
    ¬BootsRight unsortedAreas (bootFromRom unsortedAreas 0 0 fun _ => 0) := by
  refine ⟨?_, ?_⟩
  · rw [BlocksFit, unsortedAreas_table]
    decide
  · intro right
    have place : (bootFromRom unsortedAreas 0 0 fun _ => 0).newData = 0x1C001000 := by
      refine (findDataFit_lookedAt (by decide) 0 0 fun _ => 0).trans ?_
      rw [unsortedAreas_table]
      decide
    have member : ⟨0x1000, 0x1C002000, 4096, 1⟩ ∈ flashTable unsortedAreas := by
      rw [unsortedAreas_table]
      exact List.mem_cons_self
    apply right.apart _ member
    rw [place]
    exact ⟨0x1C002000, by decide, by decide⟩

end CoreVMcu.Boot.Flash
