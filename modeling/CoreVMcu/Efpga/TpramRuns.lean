import CoreVMcu.Efpga.TpramWrap

/-!
# Writes and reads of the math unit's RAM

The RAM behind its wrapper is a memory of bytes.  The fabric stores and finds fields of one,
two or four bytes.  The math block is meant to store whole words in every mode, but in the
modes of one and two bytes it stores only as many.
-/

namespace CoreVMcu.Efpga

open Clocked

/-- The RAM is written at this edge. -/
def TpramInput.writes (input : TpramInput) : Bool := input.wClk && input.we

/-- The mode of a write: data from the math block is always 32 bits. -/
def TpramInput.writtenMode (input : TpramInput) : TpramMode :=
  if input.wdsel then .dword else input.wMode

/-- The data of a write. -/
def TpramInput.writtenData (input : TpramInput) : BitVec 32 :=
  if input.wdsel then input.mathbWData else input.efpgaWData

namespace TpramWrap

/-- The bytes of the RAM. -/
def bytes (content : BitVec 9 → BitVec 64) (addr : BitVec 12) : BitVec 8 :=
  byteOf (content (tpramRow addr)) (tpramLane addr).toNat

/-- An address lies in the field that a mode selects with an address. -/
def InField (mode : TpramMode) (addr other : BitVec 12) : Prop :=
  other.toNat / mode.size = addr.toNat / mode.size

instance (mode : TpramMode) (addr other : BitVec 12) : Decidable (InField mode addr other) :=
  inferInstanceAs (Decidable (_ = _))

/-- The bytes after a field is stored. -/
def storeField (mode : TpramMode) (addr : BitVec 12) (data : BitVec 32)
    (memory : BitVec 12 → BitVec 8) (other : BitVec 12) : BitVec 8 :=
  if InField mode addr other then byteOf data (other.toNat % mode.size) else memory other

/-- The `i`-th byte of a field. -/
def fieldAddr (mode : TpramMode) (addr : BitVec 12) (i : Nat) : BitVec 12 :=
  BitVec.ofNat 12 (addr.toNat / mode.size * mode.size + i)

theorem toNat_tpramRow (addr : BitVec 12) : (tpramRow addr).toNat = addr.toNat / 8 := by
  have below := addr.isLt
  rw [tpramRow, BitVec.extractLsb'_toNat, Nat.shiftRight_eq_div_pow]
  omega

theorem toNat_tpramLane (addr : BitVec 12) : (tpramLane addr).toNat = addr.toNat % 8 := by
  rw [tpramLane, BitVec.extractLsb'_toNat, Nat.shiftRight_zero]

theorem toNat_fieldAddr (mode : TpramMode) (addr : BitVec 12) {i : Nat} (inside : i < mode.size) :
    (fieldAddr mode addr i).toNat = addr.toNat / mode.size * mode.size + i := by
  have below := addr.isLt
  rw [fieldAddr, BitVec.toNat_ofNat]
  cases mode <;> simp only [TpramMode.size] at inside ⊢ <;> omega

theorem inField_fieldAddr (mode : TpramMode) (addr : BitVec 12) {i : Nat}
    (inside : i < mode.size) : InField mode addr (fieldAddr mode addr i) := by
  rw [InField, toNat_fieldAddr mode addr inside]
  cases mode <;> simp only [TpramMode.size] at inside ⊢ <;> omega

/-- The bytes of a field are neighbours in one row. -/
theorem bytes_fieldAddr (content : BitVec 9 → BitVec 64) (mode : TpramMode) (addr : BitVec 12)
    {i : Nat} (inside : i < mode.size) :
    bytes content (fieldAddr mode addr i) =
      byteOf (content (tpramRow addr))
        ((tpramLane addr).toNat / mode.size * mode.size + i) := by
  have value := toNat_fieldAddr mode addr inside
  have row : tpramRow (fieldAddr mode addr i) = tpramRow addr := by
    rw [← BitVec.toNat_inj, toNat_tpramRow, toNat_tpramRow, value]
    cases mode <;> simp only [TpramMode.size] at inside ⊢ <;> omega
  rw [bytes, row, toNat_tpramLane, toNat_tpramLane, value]
  congr 1
  cases mode <;> simp only [TpramMode.size] at inside ⊢ <;> omega

theorem storeField_fieldAddr (mode : TpramMode) (addr : BitVec 12) (data : BitVec 32)
    (memory : BitVec 12 → BitVec 8) {i : Nat} (inside : i < mode.size) :
    storeField mode addr data memory (fieldAddr mode addr i) = byteOf data i := by
  rw [storeField, if_pos (inField_fieldAddr mode addr inside), toNat_fieldAddr mode addr inside,
    Nat.mul_add_mod_self_right, Nat.mod_eq_of_lt inside]

/-! ## Writes -/

variable (ram : TwoPortRam) (start : ram.State)

/-- The bytes that the RAM holds. -/
def held (state : BitVec 3 × ram.State) : BitVec 12 → BitVec 8 := bytes (ram.content state.2)

/-- A write stores its data, and nothing else changes. -/
def Stores (state : BitVec 3 × ram.State) (input : TpramInput) : Prop :=
  input.writes = true →
    held ram ((machine ram start).step state input) =
      storeField input.writtenMode input.wAddr input.writtenData (held ram state)

/-- The bytes of the addressed word that the mode of a write of the math block leaves out
are already those of its data. -/
def LeavesOutNothing (state : BitVec 3 × ram.State) (input : TpramInput) : Prop :=
  input.writes = true → input.wdsel = true →
    ∀ other, InField .dword input.wAddr other → ¬InField input.wMode input.wAddr other →
      held ram state other = byteOf input.mathbWData (other.toNat % 4)

variable {ram start} {state : BitVec 3 × ram.State} {input : TpramInput}

theorem inField_iff_of_row (mode : TpramMode) {addr other : BitVec 12}
    (row : tpramRow other = tpramRow addr) :
    InField mode addr other ↔
      (tpramLane other).toNat / mode.size = (tpramLane addr).toNat / mode.size := by
  have same : other.toNat / 8 = addr.toNat / 8 := by
    rw [← toNat_tpramRow, ← toNat_tpramRow, row]
  rw [InField, toNat_tpramLane, toNat_tpramLane]
  cases mode <;> simp only [TpramMode.size] <;> omega

theorem row_of_inField {mode : TpramMode} {addr other : BitVec 12}
    (inside : InField mode addr other) : tpramRow other = tpramRow addr := by
  rw [← BitVec.toNat_inj, toNat_tpramRow, toNat_tpramRow]
  unfold InField at inside
  cases mode <;> simp only [TpramMode.size] at inside <;> omega

theorem inField_dword {mode : TpramMode} {addr other : BitVec 12}
    (inside : InField mode addr other) : InField .dword addr other := by
  unfold InField at inside ⊢
  cases mode <;> simp only [TpramMode.size] at inside ⊢ <;> omega

/-- The bytes that a write offers to the lanes of its mode. -/
theorem byteOf_wData (we : input.we = true) {other : BitVec 12}
    (inside : InField input.wMode input.wAddr other) :
    byteOf (wData input) (tpramLane other).toNat =
      if input.wdsel then byteOf input.mathbWData (other.toNat % 4)
      else byteOf input.efpgaWData (other.toNat % input.wMode.size) := by
  have lane := (inField_iff_of_row _ (row_of_inField inside)).mp inside
  have below := (tpramLane other).isLt
  unfold wData efpgaWData
  rw [if_pos we]
  split
  · rw [byteOf_append_self _ below, toNat_tpramLane]
    congr 1
    omega
  · rw [byteOf_rotatedData _ _ _ below lane, toNat_tpramLane]
    congr 1
    cases input.wMode <;> simp only [TpramMode.size] <;> omega

/-- What a write really stores: as many bytes as its mode says, also for the math block. -/
theorem held_step (writes : input.writes = true) (other : BitVec 12) :
    held ram ((machine ram start).step state input) other =
      if InField input.wMode input.wAddr other then
        if input.wdsel then byteOf input.mathbWData (other.toNat % 4)
        else byteOf input.efpgaWData (other.toNat % input.wMode.size)
      else held ram state other := by
  obtain ⟨wClk, we⟩ := Bool.and_eq_true_iff.mp writes
  have below := (tpramLane other).isLt
  have mask : bitWrite input = laneMask input.wMode (tpramLane input.wAddr) := by
    rw [bitWrite, if_pos we]
  change byteOf (ram.content (ram.step state.2 (ports input)) (tpramRow other)) _ = _
  by_cases row : tpramRow other = tpramRow input.wAddr
  · have lanes := inField_iff_of_row input.wMode row
    have enabled := byteOf_laneMask input.wMode (tpramLane input.wAddr) below
    rw [← mask] at enabled
    by_cases inside : InField input.wMode input.wAddr other
    · rw [if_pos (lanes.mp inside)] at enabled
      have written := ram.written state.2 (ports input) _ below wClk
        (by rw [ports, we]; rfl) enabled
      rw [if_pos inside, row]
      exact written.trans (byteOf_wData we inside)
    · rw [if_neg (mt lanes.mpr inside)] at enabled
      have masked := ram.masked state.2 (ports input) _ below enabled
      rw [if_neg inside, row]
      refine masked.trans ?_
      rw [held, bytes, row]
      rfl
  · rw [if_neg (mt row_of_inField row), ram.elsewhere _ _ _ row]
    rfl

theorem held_step_of_not_writes (idle : input.writes = false) :
    held ram ((machine ram start).step state input) = held ram state := by
  have kept := ram.kept state.2 (ports input) ?_
  · change bytes (ram.content (ram.step state.2 (ports input))) = _
    rw [kept]
    rfl
  · rw [TpramInput.writes, Bool.and_eq_false_iff] at idle
    rcases idle with noEdge | disabled
    · exact .inl noEdge
    · exact .inr (by rw [ports, disabled]; rfl)

/-- A write does what it is meant to do exactly if its mode leaves out no byte that would
change. -/
theorem stores_iff : Stores ram start state input ↔ LeavesOutNothing ram state input := by
  cases writes : input.writes with
  | false => simp [Stores, LeavesOutNothing, writes]
  | true =>
      cases wdsel : input.wdsel with
      | false =>
          refine iff_of_true (fun _ => funext fun other => ?_) (fun _ math => ?_)
          · rw [held_step writes, storeField, TpramInput.writtenMode, TpramInput.writtenData, wdsel]
            rfl
          · rw [wdsel] at math
            exact Bool.noConfusion math
      | true =>
          have mode : input.writtenMode = .dword := by rw [TpramInput.writtenMode, wdsel]; rfl
          have data : input.writtenData = input.mathbWData := by
            rw [TpramInput.writtenData, wdsel]
            rfl
          rw [Stores, LeavesOutNothing, mode, data]
          constructor
          · intro stores _ _ other inWord outside
            have stored := congrFun (stores writes) other
            rw [held_step writes, if_neg outside, storeField, if_pos inWord] at stored
            exact stored
          · intro same _
            funext other
            rw [held_step writes, storeField, wdsel]
            by_cases inside : InField input.wMode input.wAddr other
            · rw [if_pos inside, if_pos (inField_dword inside)]
              rfl
            · rw [if_neg inside]
              split
              next inWord => exact same writes wdsel other inWord inside
              next => rfl

/-! ## Reads -/

/-- Fields have no byte in common. -/
def Apart (write other : TpramInput) : Prop :=
  ∀ addr, InField write.writtenMode write.wAddr addr → ¬InField other.writtenMode other.wAddr addr

variable (ram start) in
/-- A write that no later one overlaps, and a read of the address that it was made to: at an
edge of the read clock, shown until the next one while no reserved mode is set. -/
structure ReadBack (inputs : List TpramInput) where
  earlier : List TpramInput
  write : TpramInput
  later : List TpramInput
  read : TpramInput
  waiting : List TpramInput
  now : TpramInput
  rest : List TpramInput
  split : inputs = earlier ++ write :: (later ++ read :: (waiting ++ now :: rest))
  writes : write.writes = true
  apart : ∀ other ∈ later, other.writes = true → Apart write other
  edge : read.rClk = true
  sameAddr : read.rAddr = write.wAddr
  readMode : read.rMode ≠ .resv
  waits : ∀ other ∈ waiting, other.rClk = false ∧ other.rMode ≠ .resv
  shownMode : now.rMode ≠ .resv

/-- The inputs before the data is shown. -/
def ReadBack.before {inputs : List TpramInput} (readBack : ReadBack inputs) : List TpramInput :=
  readBack.earlier ++ readBack.write ::
    (readBack.later ++ readBack.read :: readBack.waiting)

variable (ram) in
/-- What was written is found: in the low bits of the fabric's port if it reads in the mode of
the write, and at the math block's port if a word was written. -/
structure ReadBack.Finds {inputs : List TpramInput} (readBack : ReadBack inputs)
    (state : BitVec 3 × ram.State) : Prop where
  fabric : readBack.now.rMode = readBack.write.writtenMode →
    (efpgaRData readBack.now.rMode (dataoutSel readBack.now state.1) (ram.q state.2)).setWidth
        (8 * readBack.now.rMode.size) =
      readBack.write.writtenData.setWidth (8 * readBack.now.rMode.size)
  math : readBack.write.writtenMode = .dword →
    mathbRData (dataoutSel readBack.now state.1) (ram.q state.2) = readBack.write.writtenData

variable (ram start) in
/-- Every such read finds what was written. -/
def ReadsBack (inputs : List TpramInput) : Prop :=
  ∀ readBack : ReadBack inputs,
    readBack.Finds ram ((machine ram start).run readBack.before)

/-- The bytes of a field stay while no overlapping field is stored. -/
theorem held_runFrom_of_apart {write : TpramInput} {inputs : List TpramInput}
    (stores : (machine ram start).AlwaysFrom (Stores ram start) state inputs)
    (apart : ∀ other ∈ inputs, other.writes = true → Apart write other) {addr : BitVec 12}
    (inside : InField write.writtenMode write.wAddr addr) :
    held ram ((machine ram start).runFrom state inputs) addr = held ram state addr := by
  induction inputs generalizing state with
  | nil => rfl
  | cons other inputs inductionHypothesis =>
      obtain ⟨now, later⟩ := stores
      obtain ⟨apartNow, apartLater⟩ := List.forall_mem_cons.mp apart
      rw [Machine.runFrom_cons, inductionHypothesis later apartLater]
      cases writes : other.writes with
      | false => rw [held_step_of_not_writes writes]
      | true => rw [now writes, storeField, if_neg (apartNow writes addr inside)]

variable (ram start) in
/-- What was read is shown until the next edge of the read clock. -/
theorem shown_runFrom (state : BitVec 3 × ram.State) {inputs : List TpramInput}
    (waits : ∀ other ∈ inputs, other.rClk = false ∧ other.rMode ≠ .resv) :
    ((machine ram start).runFrom state inputs).1 = state.1 ∧
      ram.q ((machine ram start).runFrom state inputs).2 = ram.q state.2 := by
  induction inputs generalizing state with
  | nil => exact ⟨rfl, rfl⟩
  | cons other inputs inductionHypothesis =>
      obtain ⟨⟨noEdge, active⟩, later⟩ := List.forall_mem_cons.mp waits
      obtain ⟨sel, q⟩ := inductionHypothesis ((machine ram start).step state other) later
      rw [Machine.runFrom_cons, sel, q]
      constructor
      · change (if other.rMode = .resv then _ else if other.rClk then _ else _) = _
        rw [if_neg active, noEdge]
        rfl
      · exact ram.held _ _ noEdge

/-- The lane and the double word that are shown are those of the bytes that were written. -/
theorem ReadBack.shown_bytes {inputs : List TpramInput} (readBack : ReadBack inputs)
    (stores : (machine ram start).Always (Stores ram start) inputs) :
    ((machine ram start).run readBack.before).1 = tpramLane readBack.write.wAddr ∧
      ∀ i < readBack.write.writtenMode.size,
        byteOf (ram.q ((machine ram start).run readBack.before).2)
            ((tpramLane readBack.write.wAddr).toNat / readBack.write.writtenMode.size *
              readBack.write.writtenMode.size + i) =
          byteOf readBack.write.writtenData i := by
  obtain ⟨earlier, write, later, read, waiting, now, rest, split, writes, apart, edge, sameAddr,
    readMode, waits, shownMode⟩ := readBack
  subst split
  dsimp only [before]
  obtain ⟨storesWrite, storesAfter⟩ := (Machine.alwaysFrom_append ..).mp stores |>.2
  have storesLater := ((Machine.alwaysFrom_append ..).mp storesAfter).1
  have same : (machine ram start).runFrom (machine ram start).init earlier =
      (machine ram start).run earlier := rfl
  rw [same] at storesWrite storesLater
  rw [Machine.run_append, Machine.runFrom_cons, Machine.runFrom_append, Machine.runFrom_cons]
  generalize written : (machine ram start).step ((machine ram start).run earlier) write = after
    at storesWrite storesLater ⊢
  generalize rested : (machine ram start).runFrom after later = settled
  obtain ⟨sel, q⟩ := shown_runFrom ram start ((machine ram start).step settled read) waits
  have lane : ((machine ram start).step settled read).1 = tpramLane write.wAddr := by
    change (if read.rMode = .resv then _ else if read.rClk then tpramLane read.rAddr else _) = _
    rw [if_neg readMode, if_pos edge, sameAddr]
  have row : ram.q ((machine ram start).step settled read).2 =
      ram.content settled.2 (tpramRow write.wAddr) := by
    rw [← sameAddr]
    exact ram.shown _ _ edge rfl
  refine ⟨sel.trans lane, ?_⟩
  intro i inside
  rw [q, row, ← bytes_fieldAddr _ _ _ inside]
  have stays := held_runFrom_of_apart storesLater apart (inField_fieldAddr _ _ inside)
  rw [rested] at stays
  refine stays.trans ?_
  rw [← written, storesWrite writes, storeField_fieldAddr _ _ _ _ inside]

theorem ReadBack.finds {inputs : List TpramInput} (readBack : ReadBack inputs)
    (stores : (machine ram start).Always (Stores ram start) inputs) :
    readBack.Finds ram ((machine ram start).run readBack.before) := by
  obtain ⟨lane, found⟩ := readBack.shown_bytes stores
  have sel : dataoutSel readBack.now ((machine ram start).run readBack.before).1 =
      tpramLane readBack.write.wAddr := by
    rw [dataoutSel, if_neg readBack.shownMode, lane]
  rw [← sel] at found
  constructor
  · intro mode
    apply setWidth_eq_of_bytes
    intro i inside
    rw [byteOf_efpgaRData _ _ _ inside, mode]
    exact found i (mode ▸ inside)
  · intro mode
    have bytes : ∀ i < 4, byteOf (mathbRData
        (dataoutSel readBack.now ((machine ram start).run readBack.before).1)
        (ram.q ((machine ram start).run readBack.before).2)) i =
          byteOf readBack.write.writtenData i := by
      intro i inside
      rw [byteOf_mathbRData _ _ inside]
      rw [mode] at found
      exact found i inside
    have equal := setWidth_eq_of_bytes bytes
    rwa [BitVec.setWidth_eq, BitVec.setWidth_eq] at equal

variable (ram start) in
/-- In every run of reads and writes by both sides each write stores its field and nothing
else, the math block's a whole word, and each read finds what was last written there, exactly
if no mode makes a write of the math block leave out a byte that would change. -/
theorem stores_and_readsBack_iff (inputs : List TpramInput) :
    ((machine ram start).Always (Stores ram start) inputs ∧ ReadsBack ram start inputs) ↔
      (machine ram start).Always (LeavesOutNothing ram) inputs := by
  have agree : (machine ram start).Always (Stores ram start) inputs ↔
      (machine ram start).Always (LeavesOutNothing ram) inputs :=
    Machine.always_congr (fun _ _ => stores_iff) inputs
  rw [← agree]
  constructor
  · exact fun both => both.1
  · exact fun stores => ⟨stores, fun readBack => readBack.finds stores⟩

/-- A write of the math block at address one in the mode of one byte. -/
def mathWriteInByteMode : TpramInput where
  rMode := .dword
  wMode := .byte
  wdsel := true
  we := true
  rClk := false
  rAddr := 0
  wClk := true
  wAddr := 1
  efpgaWData := 0
  mathbWData := 0x44332211

/-- A write of a word by the math block, one of a byte of another word by the fabric, and a read of
the word. -/
def wordWrite : TpramInput := { mathWriteInByteMode with wMode := .dword, wAddr := 0 }

def byteWrite : TpramInput :=
  { mathWriteInByteMode with wdsel := false, wAddr := 9, efpgaWData := 0xA5 }

def wordRead : TpramInput := { mathWriteInByteMode with we := false, rClk := true }

def wordShown : TpramInput := { mathWriteInByteMode with we := false }

theorem wordWrite_readsBack :
    (machine bitMaskRam (fun _ => 0, 0)).Always (Stores bitMaskRam (fun _ => 0, 0))
        [wordWrite, byteWrite, wordRead, wordShown] ∧
      let state := (machine bitMaskRam (fun _ => 0, 0)).run [wordWrite, byteWrite, wordRead]
      mathbRData (dataoutSel wordShown state.1) (bitMaskRam.q state.2) = 0x44332211 := by
  have leavesOut : (machine bitMaskRam (fun _ => 0, 0)).Always (LeavesOutNothing bitMaskRam)
      [wordWrite, byteWrite, wordRead, wordShown] := by
    refine ⟨fun _ _ _ inside outside => absurd inside outside, fun _ math => ?_, fun writes => ?_,
      fun writes => ?_, trivial⟩
    · cases math
    · cases writes
    · cases writes
  obtain ⟨stores, readsBack⟩ :=
    (stores_and_readsBack_iff bitMaskRam (fun _ => 0, 0) _).mpr leavesOut
  have apart : Apart wordWrite byteWrite := by
    intro addr inside other
    have word : addr.toNat / 4 = 0 := inside
    have byte : addr.toNat / 1 = 9 := other
    omega
  refine ⟨stores, ?_⟩
  have finds := readsBack
    { earlier := [], write := wordWrite, later := [byteWrite], read := wordRead, waiting := [],
      now := wordShown, rest := [], split := rfl, writes := rfl
      apart := fun other member _ => List.mem_singleton.mp member ▸ apart
      edge := rfl, sameAddr := rfl, readMode := nofun, waits := nofun, shownMode := nofun }
  exact finds.math rfl

/-- Only the second byte is stored. -/
theorem mathWriteInByteMode_not_stores :
    ¬((machine bitMaskRam (fun _ => 0, 0)).Always (Stores bitMaskRam (fun _ => 0, 0))
          [mathWriteInByteMode] ∧
        ReadsBack bitMaskRam (fun _ => 0, 0) [mathWriteInByteMode]) := by
  rintro ⟨⟨stores, -⟩, -⟩
  exact absurd (congrFun (stores rfl) 0) (by decide)

end TpramWrap

end CoreVMcu.Efpga
