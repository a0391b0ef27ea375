import CoreVMcu.Sdio.WriteShift

/-!
# Writing a block

A block goes out as a start bit, the bytes of the words that are consumed, the check of each lane
and a stop bit.  The block size loses its highest bit in the counter, and the checks start from
what the CRC registers hold.
-/

namespace CoreVMcu.Sdio

open Clocked Clocked.Crc

open Polynomial in
/-- What a lane shows of a block with some bits. -/
noncomputable def laneFrame (bits : List Bool) : List Bool :=
  false :: (bits ++ (check 16 (X ^ 16 + X ^ 12 + X ^ 5 + 1) bits ++ [true]))

/-- The lines show a block of some size, and the words of its bytes are consumed. -/
structure WrittenAs (quad : Bool) (blockSize : BitVec 10) (shown : List (BitVec 4))
    (taken : List (BitVec 32)) : Prop where
  words : taken.length = (blockSize.toNat + 1 + 3) / 4
  lanes : ∀ lane, SdioData.laneUsed quad lane = true →
    laneBits lane shown =
      laneFrame (laneBits lane
        (bytesLines quad ((taken.flatMap wordBytes).take (blockSize.toNat + 1))))

/-- The clocks in which a block is written, up to its stop bit. -/
structure WritesBlock (data : SdioData) (block : List SdioDataInput) : Prop where
  start : data.state = .txStart
  ended : (sdioData.runFrom data block).state = .txCrcstat
  first : ∀ n < block.length, (sdioData.runFrom data (block.take n)).state ≠ .txCrcstat

section Block

variable {quad : Bool} {data : SdioData} {input : SdioDataInput}

/-- The start bit: the first word is consumed. -/
theorem step_blockStart (consistent : Consistent data) (state : data.state = .txStart)
    (noClear : input.clrStat = false) :
    (data.step input).sddata = 0 ∧ consumedWords data input = [input.inData] ∧
      (data.step input).state = .txShift ∧
      AtBit (data.step input) 0 0 (input.dataBlockSize.toNat % 512) ∧
      (data.step input).data = input.inData := by
  have signals : data.signals input =
      { data.defaults with
        state := .txShift, cntStart := true, cntByte := true
        cntTarget := input.dataBlockSize.setWidth 9, inDataReady := true } := by
    simp only [SdioData.signals, state]
  have clocks : data.cntByte = false := by simp [consistent.byte, state]
  refine ⟨by simp [SdioData.step, signals, SdioData.defaults], ?_, ?_, ?_, ?_⟩
  · simp [consumedWords, SdioData.inDataReadyO, signals]
  · simp [SdioData.step, signals, noClear]
  · exact .starts consistent clocks (by rw [signals]) (by rw [signals]) (by rw [signals])
  · simp [SdioData.step, SdioData.nextData, signals, noClear]

/-- The start bit enters the check. -/
theorem step_blockStart_crc (state : data.state = .txStart) (lines : input.dataQuad = quad)
    {lane : Fin 4} (used : SdioData.laneUsed quad lane = true) :
    (data.step input).crc lane = feed crc16Taps (data.crc lane) false := by
  rw [step_crc_of_sent lines used]
  · simp [SdioData.signals, SdioData.defaults, state]
  · simp [SdioData.signals, SdioData.defaults, state]
  · simp [SdioData.signals, SdioData.defaults, state]

/-- The stop bit. -/
theorem step_blockStop (state : data.state = .txEnd) (noClear : input.clrStat = false) :
    (data.step input).sddata = 0xF ∧ consumedWords data input = [] ∧
      (data.step input).state = .txCrcstat := by
  simp [SdioData.step, consumedWords, SdioData.inDataReadyO, SdioData.signals, SdioData.defaults,
    state, noClear]

/-- What the clocks of a block show, with the check from what the CRC registers held before. -/
theorem runFrom_block {first stop : SdioDataInput} {shifts checks : List SdioDataInput}
    (consistent : Consistent data) (state : data.state = .txStart)
    (shiftsLength : shifts.length = byteClocks quad * (first.dataBlockSize.toNat % 512 + 1))
    (checksLength : checks.length = 16)
    (steady : Steady quad (first :: (shifts ++ (checks ++ [stop])))) :
    ∃ taken : List (BitVec 32), taken.length = 1 + first.dataBlockSize.toNat % 512 / 4 ∧
      sdioData.observedFrom consumedWords data (first :: (shifts ++ (checks ++ [stop]))) = taken ∧
      (∀ lane, SdioData.laneUsed quad lane = true →
        let bits := laneBits lane (bytesLines quad
          ((taken.flatMap wordBytes).take (first.dataBlockSize.toNat % 512 + 1)))
        laneBits lane (sdioData.observedFrom sddataLines data
            (first :: (shifts ++ (checks ++ [stop])))) =
          false :: (bits ++
            (msbFirst (register crc16Taps (data.crc lane) (false :: bits)) ++ [true]))) ∧
      (sdioData.runFrom data (first :: (shifts ++ (checks ++ [stop])))).state = .txCrcstat ∧
      Drives (data.step first) (shifts ++ (checks ++ [stop])) := by
  obtain ⟨⟨lines, noClear⟩, steady⟩ := List.forall_mem_cons.mp steady
  obtain ⟨steadyShifts, steady⟩ := List.forall_mem_append.mp steady
  obtain ⟨steadyChecks, steadyStop⟩ := List.forall_mem_append.mp steady
  obtain ⟨_, noClearStop⟩ := steadyStop stop List.mem_cons_self
  obtain ⟨startBit, word, next, at_bit, held⟩ := step_blockStart consistent state noClear
  obtain ⟨taken, shown, count, check, at_clock⟩ := shifts_bytes next at_bit
    (Nat.mod_lt _ (by decide)) (by decide) shiftsLength steadyShifts
  obtain ⟨checkBits, noWords, ends, drives⟩ :=
    runFrom_blockCheck check at_clock (by decide) checksLength steadyChecks
  obtain ⟨stopBits, noWord, ended⟩ := step_blockStop ends noClearStop
  rw [held] at shown
  refine ⟨first.inData :: taken, ?_, ?_, fun lane used => ?_, ?_, ?_⟩
  · rw [List.length_cons, count]
    omega
  · change consumedWords data first ++ sdioData.observedFrom consumedWords (data.step first) _ = _
    rw [Machine.observedFrom_append, Machine.observedFrom_append, shown.words, noWords, word]
    change _ ++ (_ ++ (_ ++ (consumedWords _ stop ++ []))) = _
    rw [noWord, List.append_nil, List.append_nil, List.append_nil]
    rfl
  · have seed := step_blockStart_crc state lines used
    have crc := shown.crc lane used
    rw [seed] at crc
    have checked := checkBits lane used
    rw [crc, ← msbFirst_eq_getMsbD] at checked
    change laneBits lane ([(data.step first).sddata] ++
      sdioData.observedFrom sddataLines (data.step first) (shifts ++ (checks ++ [stop]))) = _
    rw [Machine.observedFrom_append, Machine.observedFrom_append, shown.lines, laneBits_append,
      laneBits_append, laneBits_append, checked, startBit, register_cons]
    change _ ++ (_ ++ (_ ++ laneBits lane [SdioData.sddata (SdioData.step _ stop)])) = _
    rw [stopBits]
    fin_cases lane <;> rfl
  · change (sdioData.runFrom (data.step first) _).state = _
    rw [Machine.runFrom_append, Machine.runFrom_append]
    exact ended
  · exact shown.drives.append (drives.append (.one (congrArg DataState.drives ends)))

/-! ## The length of a block -/

/-- The clocks of a block by their phases. -/
theorem exists_blockPhases {inputs : List SdioDataInput} {m : Nat}
    (length : inputs.length = m + 17) :
    ∃ shifts checks stop, inputs = shifts ++ (checks ++ [stop]) ∧ shifts.length = m ∧
      checks.length = 16 := by
  obtain ⟨stop, last⟩ :=
    List.length_eq_one_iff.mp (show (inputs.drop (m + 16)).length = 1 by simp [length])
  refine ⟨inputs.take m, (inputs.drop m).take 16, stop, ?_, by simp [length], by simp [length]⟩
  have dropped : (inputs.drop m).drop 16 = inputs.drop (m + 16) := List.drop_drop
  rw [← last, ← dropped, List.take_append_drop, List.take_append_drop]

/-- The clocks after the start bit. -/
def blockClocks (quad : Bool) (blockSize : BitVec 10) : Nat :=
  byteClocks quad * (blockSize.toNat % 512 + 1) + 17

theorem runFrom_blockClocks {first : SdioDataInput} {rest : List SdioDataInput}
    (consistent : Consistent data) (state : data.state = .txStart)
    (length : rest.length = blockClocks quad first.dataBlockSize)
    (steady : Steady quad (first :: rest)) :
    (sdioData.runFrom data (first :: rest)).state = .txCrcstat ∧ Drives (data.step first) rest := by
  obtain ⟨shifts, checks, stop, rfl, shiftsLength, checksLength⟩ := exists_blockPhases length
  obtain ⟨_, _, _, _, ended, drives⟩ :=
    runFrom_block consistent state shiftsLength checksLength steady
  exact ⟨ended, drives⟩

theorem Steady.take {first : SdioDataInput} {rest : List SdioDataInput}
    (steady : Steady quad (first :: rest)) (n : Nat) : Steady quad (first :: rest.take n) := by
  intro input member
  rcases List.mem_cons.mp member with rfl | later
  · exact steady _ List.mem_cons_self
  · exact steady input (List.mem_cons_of_mem _ (List.mem_of_mem_take later))

theorem WritesBlock.length {first : SdioDataInput} {rest : List SdioDataInput}
    (block : WritesBlock data (first :: rest)) (consistent : Consistent data)
    (steady : Steady quad (first :: rest)) :
    rest.length = blockClocks quad first.dataBlockSize := by
  rcases Nat.lt_trichotomy rest.length (blockClocks quad first.dataBlockSize) with
    short | exact_length | long
  · -- the same clocks with more after them are still inside the block
    let more := List.replicate (blockClocks quad first.dataBlockSize - rest.length)
      { quietData with dataQuad := quad }
    have steadyMore : Steady quad (first :: (rest ++ more)) := by
      intro input member
      rw [← List.cons_append, List.mem_append] at member
      rcases member with now | later
      · exact steady input now
      · rw [List.eq_of_mem_replicate later]
        exact ⟨rfl, rfl⟩
    obtain ⟨_, drives⟩ := runFrom_blockClocks consistent block.start
      (by simp only [more, List.length_append, List.length_replicate]; omega) steadyMore
    have inside := drives rest.length
      (by simp only [more, List.length_append, List.length_replicate]; omega)
    rw [List.take_left] at inside
    have ended : (sdioData.runFrom (data.step first) rest).state = .txCrcstat := block.ended
    rw [ended] at inside
    exact absurd inside Bool.false_ne_true
  · exact exact_length
  · obtain ⟨ended, _⟩ := runFrom_blockClocks consistent block.start
      (List.length_take_of_le long.le) (steady.take _)
    exact absurd ended (block.first (blockClocks quad first.dataBlockSize + 1)
      (Nat.succ_lt_succ long))

theorem writesBlock_of_length {first : SdioDataInput} {rest : List SdioDataInput}
    (consistent : Consistent data) (state : data.state = .txStart)
    (length : rest.length = blockClocks quad first.dataBlockSize)
    (steady : Steady quad (first :: rest)) : WritesBlock data (first :: rest) := by
  obtain ⟨ended, drives⟩ := runFrom_blockClocks consistent state length steady
  refine ⟨state, ended, fun n inside => ?_⟩
  cases n with
  | zero => exact fun same => absurd (state.symm.trans same) (by decide)
  | succ n =>
      intro same
      have driven := drives n (Nat.lt_of_succ_lt_succ inside)
      have here : (sdioData.runFrom (data.step first) (rest.take n)).state = .txCrcstat := same
      rw [here] at driven
      exact absurd driven Bool.false_ne_true

/-- Every block comes to its stop bit. -/
theorem exists_writesBlock {first : SdioDataInput} {rest : List SdioDataInput}
    (consistent : Consistent data) (state : data.state = .txStart)
    (steady : Steady quad (first :: rest)) (long : 4113 ≤ rest.length) :
    ∃ n, WritesBlock data ((first :: rest).take n) := by
  have fits : blockClocks quad first.dataBlockSize ≤ rest.length := by
    have small := byteClocks_le quad
    have size := Nat.mod_lt first.dataBlockSize.toNat (by decide : 0 < 512)
    have product := Nat.mul_le_mul small
      (show first.dataBlockSize.toNat % 512 + 1 ≤ 512 from size)
    rw [blockClocks]
    omega
  exact ⟨blockClocks quad first.dataBlockSize + 1,
    writesBlock_of_length consistent state (List.length_take_of_le fits) (steady.take _)⟩

/-- The lines are driven in every clock of a block but that of the start bit. -/
theorem sddataOenO_of_drives (drives : data.state.drives = true) (lines : input.dataQuad = quad)
    {lane : Fin 4} (used : SdioData.laneUsed quad lane = true) :
    data.sddataOenO input lane = false := by
  rw [SdioData.sddataOenO, lines, used, if_pos rfl]
  unfold SdioData.signals
  cases state : data.state with
  | txShift =>
      dsimp only
      split <;> rfl
  | txCrc =>
      dsimp only
      split <;> rfl
  | txEnd => rfl
  | _ =>
      rw [state] at drives
      exact absurd drives Bool.false_ne_true

theorem sddataOenO_txStart (state : data.state = .txStart) (lane : Fin 4) :
    data.sddataOenO input lane = true := by
  simp [SdioData.sddataOenO, SdioData.signals, SdioData.defaults, state]

/-! ## When the block is right -/

/-- A seed of the check is seen in it. -/
theorem laneFrame_iff (crc : BitVec 16) (bits : List Bool) :
    false :: (bits ++ (msbFirst (register crc16Taps crc (false :: bits)) ++ [true])) =
      laneFrame bits ↔ crc = 0#16 := by
  have lowest : crc16Taps.getLsbD 0 = true := rfl
  rw [laneFrame, ← generator_crc16Taps, check_eq (by decide), List.cons_inj_right,
    List.append_cancel_left_eq, List.append_cancel_right_eq]
  have zero : register crc16Taps 0#16 bits = register crc16Taps 0#16 (false :: bits) := rfl
  rw [zero, ← register_eq_iff (by decide) lowest (false :: bits)]
  exact ⟨msbFirst_injective, congrArg _⟩

/-- A block is right exactly when its size fits the counter and the CRC registers were zero. -/
theorem writtenAs_of_writesBlock_iff {first : SdioDataInput} {rest : List SdioDataInput}
    (consistent : Consistent data) (steady : Steady quad (first :: rest))
    (block : WritesBlock data (first :: rest)) :
    WrittenAs quad first.dataBlockSize (sdioData.observedFrom sddataLines data (first :: rest))
        (sdioData.observedFrom consumedWords data (first :: rest)) ↔
      first.dataBlockSize.toNat < 512 ∧
        ∀ lane, SdioData.laneUsed quad lane = true → data.crc lane = 0 := by
  obtain ⟨shifts, checks, stop, rfl, shiftsLength, checksLength⟩ :=
    exists_blockPhases (block.length consistent steady)
  obtain ⟨taken, count, words, lanes, _⟩ :=
    runFrom_block consistent block.start shiftsLength checksLength steady
  rw [words]
  have size := first.dataBlockSize.isLt
  constructor
  · intro written
    have small : first.dataBlockSize.toNat < 512 := by
      have needed := written.words
      omega
    rw [Nat.mod_eq_of_lt small] at lanes
    exact ⟨small, fun lane used =>
      (laneFrame_iff _ _).mp ((lanes lane used).symm.trans (written.lanes lane used))⟩
  · rintro ⟨small, zero⟩
    rw [Nat.mod_eq_of_lt small] at lanes count
    refine ⟨by omega, fun lane used => ?_⟩
    exact (lanes lane used).trans ((laneFrame_iff _ _).mpr (zero lane used))

end Block

/-- The blocks of every run: when a block is right, that it comes to an end, and where its lines
are driven. -/
theorem writtenAs_iff (earlier : List SdioDataInput) (quad : Bool) (first : SdioDataInput)
    (rest : List SdioDataInput) (noClear : ∀ input ∈ earlier, input.clrStat = false)
    (start : (sdioData.run earlier).state = .txStart) (steady : Steady quad (first :: rest)) :
    (4113 ≤ rest.length → ∃ n, WritesBlock (sdioData.run earlier) ((first :: rest).take n)) ∧
      (WritesBlock (sdioData.run earlier) (first :: rest) →
        (WrittenAs quad first.dataBlockSize
            (sdioData.observedFrom sddataLines (sdioData.run earlier) (first :: rest))
            (sdioData.observedFrom consumedWords (sdioData.run earlier) (first :: rest)) ↔
          first.dataBlockSize.toNat < 512 ∧
            ∀ lane, SdioData.laneUsed quad lane = true → (sdioData.run earlier).crc lane = 0) ∧
        ∀ lane, SdioData.laneUsed quad lane = true →
          (sdioData.run earlier).sddataOenO first lane = true ∧
            ∀ n (inside : n < rest.length),
              (sdioData.runFrom (sdioData.run earlier) (first :: rest.take n)).sddataOenO
                rest[n] lane = false) := by
  have consistent := run_consistent noClear
  refine ⟨exists_writesBlock consistent start steady, fun block => ⟨?_, fun lane used => ⟨?_, ?_⟩⟩⟩
  · exact writtenAs_of_writesBlock_iff consistent steady block
  · exact sddataOenO_txStart start lane
  · intro n inside
    have length := block.length consistent steady
    obtain ⟨_, drives⟩ := runFrom_blockClocks consistent start length steady
    exact sddataOenO_of_drives (drives n inside)
      (steady rest[n] (List.mem_cons_of_mem _ (List.getElem_mem inside))).1 used

theorem steady_replicate (n : Nat) : Steady false (List.replicate n quietData) :=
  fun _ member => (List.eq_of_mem_replicate member) ▸ ⟨rfl, rfl⟩

/-- A block of four bytes after reset. -/
theorem startsWrite_writtenAs_iff :
    ∃ n, WritesBlock (sdioData.run [startsWrite])
      ((quietData :: List.replicate 4113 quietData).take n) :=
  (writtenAs_iff [startsWrite] false quietData (List.replicate 4113 quietData) (by decide) rfl
    (steady_replicate 4114)).1 (Nat.le_of_eq List.length_replicate.symm)

/-- A block of 513 bytes is asked for. -/
def asksLong : SdioDataInput := { quietData with dataBlockSize := 512 }

/-- One byte is written instead, and one word consumed. -/
theorem asksLong_not_writtenAs :
    WritesBlock (sdioData.run [startsWrite]) (asksLong :: List.replicate 25 quietData) ∧
      Steady false (asksLong :: List.replicate 25 quietData) ∧
      ¬WrittenAs false asksLong.dataBlockSize
        (sdioData.observedFrom sddataLines (sdioData.run [startsWrite])
          (asksLong :: List.replicate 25 quietData))
        (sdioData.observedFrom consumedWords (sdioData.run [startsWrite])
          (asksLong :: List.replicate 25 quietData)) := by
  have consistent : Consistent (sdioData.run [startsWrite]) := run_consistent (by decide)
  have steady : Steady false (asksLong :: List.replicate 25 quietData) := by
    unfold Steady
    decide
  have block := writesBlock_of_length consistent rfl rfl steady
  refine ⟨block, steady, fun written => ?_⟩
  have small := ((writtenAs_of_writesBlock_iff consistent steady block).mp written).1
  exact absurd small (by decide)

end CoreVMcu.Sdio
