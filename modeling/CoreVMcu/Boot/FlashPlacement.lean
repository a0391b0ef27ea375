import CoreVMcu.Boot.FlashBoot

/-!
# Where the flash loader moves

`findDataFit` moves its candidate behind each area that it finds in the way, in the order of the
table.  An area that it has passed already is not looked at again.
-/

namespace CoreVMcu.Boot.Flash

open Clocked

variable {data : BitVec 32} {flash : FlashBytes} {memory : Memory}

/-- A word that is read from flash, at offsets from the data's start. -/
theorem readWord_flashRead (first b a : Nat) (length : BitVec 16) (low : b ≤ a)
    (high : a + 4 ≤ b + length.toNat) (fits : a + 4 ≤ 2 ^ 32) :
    readWord (udmaFlashRead flash memory (BitVec.ofNat 32 first) (data + BitVec.ofNat 32 b) length)
        (data + BitVec.ofNat 32 a) =
      readWord flash (BitVec.ofNat 24 (first + (a - b))) := by
  rw [udmaFlashRead, readWord_copied_inside low high fits]
  apply readWord_congr
  intro k _
  congr 1
  rw [← BitVec.ofNat_add, ← BitVec.ofNat_add, ← BitVec.ofNat_add, Nat.add_assoc]
  exact BitVec.setWidth_ofNat_of_le (by decide : 24 ≤ 32) _

/-- A word beside what is read from flash. -/
theorem readWord_flashRead_apart (first b a : Nat) (length : BitVec 16)
    (apart : b + length.toNat ≤ a ∨ a + 4 ≤ b) (fits : a + 4 ≤ 2 ^ 32) (start : b ≤ 2 ^ 31) :
    readWord (udmaFlashRead flash memory (BitVec.ofNat 32 first) (data + BitVec.ofNat 32 b) length)
        (data + BitVec.ofNat 32 a) =
      readWord memory (data + BitVec.ofNat 32 a) := by
  have short := length.isLt
  exact readWord_copied_apart apart fits (by omega)

/-- The number of areas is that of the header. -/
theorem nbAreas_header (data : BitVec 32) (flash : FlashBytes) (memory : Memory) :
    nbAreas data (udmaFlashRead flash memory 0 (headerAddr data) 16) = flashNbAreas flash :=
  readWord_flashRead 0 5128 5132 16 (by omega) (by decide) (by omega)

theorem nbAreas_getMemAreas (data : BitVec 32) (flash : FlashBytes) (memory : Memory) :
    nbAreas data (getMemAreas data flash memory) = flashNbAreas flash := by
  have header := nbAreas_header data flash memory
  rw [getMemAreas]
  generalize udmaFlashRead flash memory 0 (headerAddr data) 16 = read at header
  generalize (if 16 ≤ (nbAreas data read).toInt then _ else _ : BitVec 32) = nbArea
  split
  · rw [← header]
    exact readWord_flashRead_apart 16 5144 5132 _ (.inr (by omega)) (by omega) (by omega)
  · exact header

section InTable

variable (few : (flashNbAreas flash).toNat ≤ maxNbArea)

include few

/-- A table that fits is read as it is. -/
theorem getMemAreas_few (data : BitVec 32) (memory : Memory) :
    getMemAreas data flash memory =
      if flashNbAreas flash ≠ 0 then
        udmaFlashRead flash (udmaFlashRead flash memory 0 (headerAddr data) 16) 16
          (memAreaAddr data 0) ((flashNbAreas flash * 16).setWidth 16)
      else udmaFlashRead flash memory 0 (headerAddr data) 16 := by
  have clamped : (if 16 ≤ (flashNbAreas flash).toInt then BitVec.ofNat 32 maxNbArea
      else flashNbAreas flash) = flashNbAreas flash := by
    split
    next many =>
      unfold maxNbArea at few
      rw [BitVec.toInt_eq_toNat_of_lt (by omega)] at many
      apply BitVec.eq_of_toNat_eq
      change 16 = _
      omega
    next => rfl
  rw [getMemAreas]
  simp only [nbAreas_header, clamped]

theorem tableLength_toNat :
    ((flashNbAreas flash * 16).setWidth 16).toNat = 16 * (flashNbAreas flash).toNat := by
  unfold maxNbArea at few
  rw [BitVec.toNat_setWidth, BitVec.toNat_mul]
  simp only [BitVec.reduceToNat]
  omega

/-- The words of the table. -/
theorem readWord_table (data : BitVec 32) (memory : Memory) {i field : Nat}
    (inside : i < (flashNbAreas flash).toNat) (within : field + 4 ≤ 16) :
    readWord (getMemAreas data flash memory) (memAreaAddr data i + BitVec.ofNat 32 field) =
      readWord flash (BitVec.ofNat 24 (16 + 16 * i) + BitVec.ofNat 24 field) := by
  have some : flashNbAreas flash ≠ 0 := by
    rintro none
    rw [none] at inside
    exact absurd inside (Nat.not_lt_zero i)
  have length := tableLength_toNat few
  unfold maxNbArea at few
  rw [getMemAreas_few few, if_pos some, memAreaAddr, memAreaAddr, offset_add]
  have offset : 16 + 16 * i + field = 16 + (5144 + 16 * i + field - 5144) := by omega
  rw [← BitVec.ofNat_add, offset]
  exact readWord_flashRead 16 5144 (5144 + 16 * i + field) ((flashNbAreas flash * 16).setWidth 16)
    (by omega) (by omega) (by omega)

theorem readArea_getMemAreas (data : BitVec 32) (memory : Memory) {i : Nat}
    (inside : i < (flashNbAreas flash).toNat) :
    readArea (getMemAreas data flash memory) (memAreaAddr data i) =
      readArea flash (BitVec.ofNat 24 (16 + 16 * i)) := by
  have first := readWord_table few data memory inside (by decide : 0 + 4 ≤ 16)
  rw [BitVec.add_zero, BitVec.add_zero] at first
  rw [readArea, readArea, first, readWord_table few data memory inside (by decide),
    readWord_table few data memory inside (by decide),
    readWord_table few data memory inside (by decide)]

/-- The fields behind the table stay. -/
theorem readWord_getMemAreas (data : BitVec 32) (memory : Memory) {a : Nat} (behind : 5400 ≤ a)
    (fits : a + 4 ≤ sizeofBootCode) :
    readWord (getMemAreas data flash memory) (data + BitVec.ofNat 32 a) =
      readWord memory (data + BitVec.ofNat 32 a) := by
  have length := tableLength_toNat few
  unfold maxNbArea at few
  unfold sizeofBootCode at fits
  have header : readWord (udmaFlashRead flash memory 0 (headerAddr data) 16)
      (data + BitVec.ofNat 32 a) = readWord memory (data + BitVec.ofNat 32 a) :=
    readWord_flashRead_apart 0 5128 a 16 (.inl (by simp only [BitVec.reduceToNat]; omega))
      (by omega) (by omega)
  rw [getMemAreas_few few]
  split
  · rw [← header]
    exact readWord_flashRead_apart 16 5144 a _ (.inl (by omega)) (by omega) (by omega)
  · exact header

end InTable

/-- A word that was assigned. -/
theorem readWord_writeWord (address word : BitVec 32) :
    readWord (writeWord memory address word) address = word := by
  apply readWord_wordBytes
  intro k below
  have inside : InRange address 4 (address + BitVec.ofNat 32 k) :=
    inRange_iff.mpr ⟨k, below, by omega, rfl⟩
  rw [writeWord, copied_inside inside, wordBytes, toNat_offset address (by omega)]

/-- A word beside one that was assigned. -/
theorem readWord_writeWord_apart (b a : Nat) (word : BitVec 32) (apart : b + 4 ≤ a ∨ a + 4 ≤ b)
    (fits : a + 4 ≤ sizeofBootCode) (fits' : b + 4 ≤ sizeofBootCode) :
    readWord (writeWord memory (data + BitVec.ofNat 32 b) word) (data + BitVec.ofNat 32 a) =
      readWord memory (data + BitVec.ofNat 32 a) := by
  unfold sizeofBootCode at fits fits'
  exact readWord_copied_apart apart (by omega) (by omega)

theorem blockSize_withSettings (data hyperflash qpi : BitVec 32) (memory : Memory) :
    readWord (withSettings data hyperflash qpi memory) (blockSizeAddr data) =
      blockSizeOf hyperflash := by
  have beside : readWord (withSettings data hyperflash qpi memory) (blockSizeAddr data) =
      readWord (writeWord (writeWord memory (hyperflashAddr data) hyperflash) (blockSizeAddr data)
        (blockSizeOf hyperflash)) (blockSizeAddr data) :=
    readWord_writeWord_apart 6436 6432 qpi (.inr (by decide)) (by decide) (by decide)
  rw [beside, readWord_writeWord]

/-! ## The candidates -/

/-- The candidate before the `n`-th iteration. -/
def candidate (blockSize : BitVec 32) (table : List MemArea) (n : Nat) : BitVec 32 :=
  (table.take n).foldl (fitStep blockSize) 0x1C000000

section Table

variable {blockSize : BitVec 32} {table : List MemArea}

theorem candidate_succ {n : Nat} {area : MemArea} (present : table[n]? = some area) :
    candidate blockSize table (n + 1) = fitStep blockSize (candidate blockSize table n) area := by
  rw [candidate, List.take_add_one, present, List.foldl_append]
  rfl

/-- The place behind the area before the `n`-th one, or the first place. -/
def placeAfter (blockSize : BitVec 32) (table : List MemArea) : Nat → BitVec 32
  | 0 => 0x1C000000
  | n + 1 => (table[n]?).elim 0 (behind blockSize)

/-- The area before the `n`-th one moves the data: it is the first one in the way of the place
behind the previous one that does. -/
inductive Moves (blockSize : BitVec 32) (table : List MemArea) : Nat → Prop where
  | start : Moves blockSize table 0
  | next {n m : Nat} {area : MemArea} (previous : Moves blockSize table n) (later : n ≤ m)
      (present : table[m]? = some area)
      (passed : ∀ i other, n ≤ i → i < m → table[i]? = some other →
        hits (placeAfter blockSize table n) other = false)
      (hit : hits (placeAfter blockSize table n) area = true) :
      Moves blockSize table (m + 1)

/-- The area before the `n`-th one is the last one that moves the data. -/
structure SettlesAt (blockSize : BitVec 32) (table : List MemArea) (n : Nat) : Prop where
  moves : Moves blockSize table n
  stays : ∀ i area, n ≤ i → table[i]? = some area →
    hits (placeAfter blockSize table n) area = false

/-- The candidate stays while no area is in its way. -/
theorem candidate_passed {n k : Nat}
    (same : candidate blockSize table n = placeAfter blockSize table n) (later : n ≤ k)
    (inside : k ≤ table.length)
    (passed : ∀ i other, n ≤ i → i < k → table[i]? = some other →
      hits (placeAfter blockSize table n) other = false) :
    candidate blockSize table k = placeAfter blockSize table n := by
  induction later with
  | refl => exact same
  | @step k later inductionHypothesis =>
    have present := List.getElem?_eq_getElem (Nat.lt_of_succ_le inside)
    have before := inductionHypothesis (Nat.le_of_succ_le inside)
      fun i other low below => passed i other low (Nat.lt_succ_of_lt below)
    rw [candidate_succ present, fitStep, before, passed k _ later (Nat.lt_succ_self k) present,
      if_neg Bool.false_ne_true]

theorem Moves.candidate_eq {n : Nat} (moves : Moves blockSize table n) :
    n ≤ table.length ∧ candidate blockSize table n = placeAfter blockSize table n := by
  induction moves with
  | start => exact ⟨Nat.zero_le _, rfl⟩
  | @next n m area previous later present passed hit inductionHypothesis =>
    obtain ⟨below, -⟩ := List.getElem?_eq_some_iff.mp present
    have before := candidate_passed inductionHypothesis.2 later (Nat.le_of_lt below) passed
    refine ⟨below, ?_⟩
    rw [candidate_succ present, fitStep, before, if_pos hit, placeAfter, present]
    rfl

/-- The candidate where it has settled is the one that is returned. -/
theorem SettlesAt.candidate_eq {n : Nat} (settles : SettlesAt blockSize table n) :
    candidate blockSize table table.length = placeAfter blockSize table n := by
  obtain ⟨inside, same⟩ := settles.moves.candidate_eq
  exact candidate_passed same inside (Nat.le_refl _)
    fun i other low _ present => settles.stays i other low present

/-- Some area moves the data last, or none does. -/
theorem exists_settlesAt (blockSize : BitVec 32) (table : List MemArea) :
    ∃ n, SettlesAt blockSize table n := by
  -- the last one among the first `k` areas
  have upTo (k : Nat) (inside : k ≤ table.length) : ∃ n ≤ k, Moves blockSize table n ∧
      ∀ i area, n ≤ i → i < k → table[i]? = some area →
        hits (placeAfter blockSize table n) area = false := by
    induction k with
    | zero =>
      refine ⟨0, Nat.le_refl 0, .start, ?_⟩
      intro i _ _ impossible
      exact absurd impossible (Nat.not_lt_zero i)
    | succ k inductionHypothesis =>
      obtain ⟨n, le, moves, passed⟩ := inductionHypothesis (Nat.le_of_succ_le inside)
      have present := List.getElem?_eq_getElem (Nat.lt_of_succ_le inside)
      cases hit : hits (placeAfter blockSize table n) table[k] with
      | true =>
        refine ⟨k + 1, Nat.le_refl _, .next moves le present passed hit, ?_⟩
        intro i _ after before
        omega
      | false =>
        refine ⟨n, Nat.le_succ_of_le le, moves, ?_⟩
        intro i area after before found
        rcases Nat.lt_succ_iff_lt_or_eq.mp before with earlier | rfl
        · exact passed i area after earlier found
        · rw [present] at found
          cases found
          exact hit
  obtain ⟨n, le, moves, passed⟩ := upTo table.length (Nat.le_refl _)
  refine ⟨n, moves, ?_⟩
  intro i area after found
  obtain ⟨below, -⟩ := List.getElem?_eq_some_iff.mp found
  exact passed i area after below found

end Table

/-! ## The test -/

/-- The sums of the test, or of the next block behind an area, pass the end of the addresses. -/
def NearTop (blockSize addr : BitVec 32) (area : MemArea) : Prop :=
  2 ^ 32 ≤ area.ptr.toNat + area.size.toNat + blockSize.toNat ∨
    2 ^ 32 ≤ addr.toNat + sizeofBootCode

variable {blockSize addr : BitVec 32} {area : MemArea}

/-- An address of a range that does not wrap around, as a number. -/
theorem inRange_iff_toNat {start address : BitVec 32} {length : Nat}
    (fits : start.toNat + length ≤ 2 ^ 32) :
    InRange start length address ↔
      start.toNat ≤ address.toNat ∧ address.toNat < start.toNat + length := by
  rw [InRange, BitVec.toNat_sub]
  have := start.isLt
  have := address.isLt
  omega

/-- Below the top, the data and an area are intervals of numbers. -/
theorem overlaps_iff (below : ¬NearTop blockSize addr area) :
    Overlaps addr area ↔ area.ptr.toNat < addr.toNat + sizeofBootCode ∧
      addr.toNat < area.ptr.toNat + area.size.toNat ∧ 0 < area.size.toNat := by
  rw [NearTop] at below
  have areaFits : area.ptr.toNat + area.size.toNat ≤ 2 ^ 32 := by omega
  have dataFits : addr.toNat + sizeofBootCode ≤ 2 ^ 32 := by omega
  constructor
  · rintro ⟨address, inArea, inData⟩
    rw [inRange_iff_toNat areaFits] at inArea
    rw [inRange_iff_toNat dataFits] at inData
    omega
  · rintro ⟨low, high, some⟩
    rcases Nat.le_total area.ptr.toNat addr.toNat with before | after
    · refine ⟨addr, (inRange_iff_toNat areaFits).mpr ⟨before, high⟩,
        (inRange_iff_toNat dataFits).mpr ⟨Nat.le_refl _, Nat.lt_add_of_pos_right (by decide)⟩⟩
    · refine ⟨area.ptr, (inRange_iff_toNat areaFits).mpr ⟨Nat.le_refl _, by omega⟩,
        (inRange_iff_toNat dataFits).mpr ⟨after, low⟩⟩

/-- Below the top, the test finds every area in the way. -/
theorem hits_of_overlaps (below : ¬NearTop blockSize addr area) (overlaps : Overlaps addr area) :
    hits addr area = true := by
  rw [overlaps_iff below] at overlaps
  rw [NearTop] at below
  have size : sizeofBootCode = 6440 := rfl
  have ends : (area.ptr + area.size).toNat = area.ptr.toNat + area.size.toNat := by
    rw [BitVec.toNat_add, Nat.mod_eq_of_lt (by omega)]
  have dataEnds : (addr + BitVec.ofNat 32 sizeofBootCode).toNat = addr.toNat + sizeofBootCode := by
    rw [BitVec.toNat_add, BitVec.toNat_ofNat, Nat.mod_eq_of_lt (by omega)]
    omega
  simp only [hits, Bool.or_eq_true, Bool.and_eq_true, decide_eq_true_eq, BitVec.le_def,
    BitVec.lt_def, ends, dataEnds]
  omega

/-- Below the top, an area is not in the way of what is behind it. -/
theorem not_overlaps_behind {k : Nat} (power : blockSize = BitVec.ofNat 32 (2 ^ k))
    (narrow : k < 32) (below : ¬NearTop blockSize (behind blockSize area) area) :
    ¬Overlaps (behind blockSize area) area := by
  rw [overlaps_iff below]
  rw [NearTop] at below
  have value : blockSize.toNat = 2 ^ k := by
    rw [power, BitVec.toNat_ofNat, Nat.mod_eq_of_lt (Nat.pow_lt_pow_right (by decide) narrow)]
  have positive : 0 < 2 ^ k := Nat.two_pow_pos k
  have mask : blockSize - 1 = BitVec.ofNat 32 (2 ^ k - 1) := by
    apply BitVec.eq_of_toNat_eq
    have := blockSize.isLt
    rw [BitVec.toNat_sub, BitVec.toNat_ofNat, value]
    simp only [BitVec.reduceToNat]
    omega
  have sum : (area.ptr + area.size + blockSize - 1).toNat =
      area.ptr.toNat + area.size.toNat + 2 ^ k - 1 := by
    rw [BitVec.toNat_sub, BitVec.toNat_add, BitVec.toNat_add, value]
    simp only [BitVec.reduceToNat]
    omega
  have aligned : (behind blockSize area).toNat =
      (area.ptr.toNat + area.size.toNat + 2 ^ k - 1) / 2 ^ k * 2 ^ k := by
    rw [behind, mask, toNat_alignDown, sum]
  have rest := Nat.mod_lt (area.ptr.toNat + area.size.toNat + 2 ^ k - 1) positive
  have whole := Nat.div_add_mod' (area.ptr.toNat + area.size.toNat + 2 ^ k - 1) (2 ^ k)
  omega

/-- The data is apart from the areas before the one that moved it last, and from those near the end
of the addresses. -/
def PlacesApart (blockSize : BitVec 32) (table : List MemArea) : Prop :=
  ∀ n, SettlesAt blockSize table n → ∀ i area, table[i]? = some area →
    i + 1 < n ∨ NearTop blockSize (placeAfter blockSize table n) area →
      ¬Overlaps (placeAfter blockSize table n) area

/-- The place that is found is apart from all areas exactly if it is apart from those that are not
looked at again, and from those near the end of the addresses. -/
theorem apart_iff {k : Nat} (power : blockSize = BitVec.ofNat 32 (2 ^ k)) (narrow : k < 32)
    (table : List MemArea) :
    (∀ area ∈ table, ¬Overlaps (candidate blockSize table table.length) area) ↔
      PlacesApart blockSize table := by
  constructor
  · intro apart n settles i area present _
    rw [← settles.candidate_eq]
    exact apart area (List.mem_of_getElem? present)
  · intro places area member
    obtain ⟨n, settles⟩ := exists_settlesAt blockSize table
    obtain ⟨i, present⟩ := List.mem_iff_getElem?.mp member
    rw [settles.candidate_eq]
    by_cases excepted : i + 1 < n ∨ NearTop blockSize (placeAfter blockSize table n) area
    · exact places n settles i area present excepted
    · rw [not_or] at excepted
      obtain ⟨late, below⟩ := excepted
      rcases Nat.lt_or_eq_of_le (Nat.le_of_not_lt late) with after | mover
      · intro overlaps
        have hit := hits_of_overlaps below overlaps
        rw [settles.stays i area (by omega) present] at hit
        cases hit
      · rw [mover, placeAfter, present] at below ⊢
        exact not_overlaps_behind power narrow below

section Looked

variable (few : (flashNbAreas flash).toNat ≤ maxNbArea) (hyperflash qpi : BitVec 32)

include few

/-- `findDataFit` goes through the areas in flash. -/
theorem findDataFit_lookedAt (memory : Memory) :
    findDataFit bootCode (lookedAt flash hyperflash qpi memory) =
      candidate (blockSizeOf hyperflash) (flashTable flash) (flashTable flash).length := by
  have blockSize : readWord (lookedAt flash hyperflash qpi memory) (blockSizeAddr bootCode) =
      blockSizeOf hyperflash := by
    refine (readWord_getMemAreas few bootCode _ (a := 6432) (by decide) (by decide)).trans ?_
    refine (readWord_writeWord_apart 5124 6432 0 (.inl (by decide)) (by decide)
      (by decide)).trans ?_
    exact blockSize_withSettings bootCode hyperflash qpi memory
  have all : allEntries bootCode (lookedAt flash hyperflash qpi memory) =
      List.range (min (flashNbAreas flash).toNat maxNbArea) := by
    rw [allEntries, lookedAt, nbAreas_getMemAreas, Nat.min_eq_left few]
  rw [findDataFit, candidate, List.take_length, flashTable, List.foldl_map, all, blockSize]
  apply List.foldl_ext
  intro addr i member
  have inside := List.mem_range.mp member
  rw [lookedAt, readArea_getMemAreas few bootCode _ (by omega)]

end Looked

end CoreVMcu.Boot.Flash
