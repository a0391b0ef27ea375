import CoreVMcu.Sdio.DataWaits
import CoreVMcu.Sdio.ReadBlock

/-!
# A read transfer

From idle a read delivers the bytes of all its blocks, packed into words, and ends once.
-/

namespace CoreVMcu.Sdio

open Clocked

/-- A block as the card sends it: the clocks before the start bit, that of the start bit, those of
the bytes and those of the check. -/
structure LineBlock where
  gap : List SdioDataInput
  start : SdioDataInput
  shifts : List SdioDataInput
  checks : List SdioDataInput
  bytes : List (BitVec 8)

/-- The clocks of a block. -/
def LineBlock.inputs (block : LineBlock) : List SdioDataInput :=
  block.gap ++ block.start :: (block.shifts ++ block.checks)

/-- The lines show the block. -/
structure LineBlock.OnLines (quad : Bool) (blockSize : BitVec 10) (block : LineBlock) : Prop where
  waits : ∀ input ∈ block.gap, input.sddataI.getLsbD 0 = true
  starts : block.start.sddataI.getLsbD 0 = false
  size : block.start.dataBlockSize = blockSize
  bytes : block.bytes.length = blockSize.toNat + 1
  carries : Carries quad block.shifts block.bytes
  checks : block.checks.length = 16

/-- The gap is shorter than the timeout of the wait that begins in a state: a wait without a
running count has none. -/
def BeforeTimeout (data : SdioData) (gap : List SdioDataInput) : Prop :=
  data.cntRunning = true → gap.length ≤ data.cnt.toNat

/-! ## Words of bytes -/

theorem wordBytes_append (b₀ b₁ b₂ b₃ : BitVec 8) :
    wordBytes (b₃ ++ b₂ ++ b₁ ++ b₀) = [b₀, b₁, b₂, b₃] := by
  have byte₀ : (b₃ ++ b₂ ++ b₁ ++ b₀).extractLsb' 0 8 = b₀ := BitVec.extractLsb'_append_eq_right
  have byte₁ : (b₃ ++ b₂ ++ b₁ ++ b₀).extractLsb' 8 8 = b₁ := by
    rw [BitVec.extractLsb'_append_eq_of_le (by decide)]
    exact BitVec.extractLsb'_append_eq_right
  have byte₂ : (b₃ ++ b₂ ++ b₁ ++ b₀).extractLsb' 16 8 = b₂ := by
    rw [BitVec.extractLsb'_append_eq_of_le (by decide),
      BitVec.extractLsb'_append_eq_of_le (by decide)]
    exact BitVec.extractLsb'_append_eq_right
  have byte₃ : (b₃ ++ b₂ ++ b₁ ++ b₀).extractLsb' 24 8 = b₃ := by
    rw [BitVec.extractLsb'_append_eq_of_le (by decide),
      BitVec.extractLsb'_append_eq_of_le (by decide)]
    exact BitVec.extractLsb'_append_eq_left
  exact congr (congrArg _ byte₀) (congr (congrArg _ byte₁)
    (congr (congrArg _ byte₂) (congrArg (fun byte => [byte]) byte₃)))

/-- Four bytes at a time are words. -/
theorem exists_words {m : Nat} {bytes : List (BitVec 8)} (length : bytes.length = 4 * m) :
    ∃ words : List (BitVec 32), words.length = m ∧ words.flatMap wordBytes = bytes := by
  induction m generalizing bytes with
  | zero => exact ⟨[], rfl, (List.length_eq_zero_iff.mp length).symm⟩
  | succ m inductionHypothesis =>
      obtain ⟨b₀, bytes, rfl⟩ := List.exists_cons_of_length_eq_add_one length
      obtain ⟨b₁, bytes, rfl⟩ := List.exists_cons_of_length_eq_add_one (Nat.add_right_cancel length)
      rw [List.length_cons, List.length_cons] at length
      obtain ⟨b₂, bytes, rfl⟩ :=
        List.exists_cons_of_length_eq_add_one (show bytes.length = 4 * m + 1 + 1 by omega)
      rw [List.length_cons] at length
      obtain ⟨b₃, bytes, rfl⟩ :=
        List.exists_cons_of_length_eq_add_one (show bytes.length = 4 * m + 1 by omega)
      rw [List.length_cons] at length
      obtain ⟨words, count, packed⟩ := inductionHypothesis (show bytes.length = 4 * m by omega)
      refine ⟨(b₃ ++ b₂ ++ b₁ ++ b₀) :: words, congrArg (· + 1) count, ?_⟩
      rw [List.flatMap_cons, wordBytes_append, packed]
      rfl

section Transfer

variable {quad : Bool} {data : SdioData} {input : SdioDataInput} {inputs : List SdioDataInput}
  {n : Nat}

/-- A clock that delivers nothing. -/
theorem Receives.silent (eot : data.eotO input = false) (valid : data.outDataValidO input = false)
    (block : (data.signals input).cntBlockUpd = false) : Receives data [input] [] := by
  have one : Receives data [input] (deliveredWords data input) := .one eot block
  rwa [deliveredWords, valid] at one

/-- A clock of the wait. -/
theorem receives_rxStart (state : data.state = .rxStart)
    (noAnswer : input.sddataI.getLsbD 0 = true) (running : data.cntDone input = false) :
    Receives data [input] [] := by
  have signals := signals_rxStart state noAnswer running
  exact .silent (congrArg (·.eot) signals) (congrArg (·.outDataValid) signals)
    (congrArg (·.cntBlockUpd) signals)

/-- The wait goes on while the count of it lasts. -/
theorem receives_gap (consistent : Consistent data) (state : data.state = .rxStart)
    (steady : Steady quad inputs) (waits : ∀ input ∈ inputs, input.sddataI.getLsbD 0 = true)
    (before : BeforeTimeout data inputs) :
    Receives data inputs [] ∧ (sdioData.runFrom data inputs).state = .rxStart := by
  induction inputs generalizing data with
  | nil => exact ⟨.nil, state⟩
  | cons input inputs inductionHypothesis =>
      obtain ⟨⟨_, noClear⟩, steady⟩ := List.forall_mem_cons.mp steady
      obtain ⟨noAnswer, waits⟩ := List.forall_mem_cons.mp waits
      have clocks : data.cntByte = false := by simp [consistent.byte, state]
      have more : data.cnt ≠ 0 := by
        intro ended
        cases running : data.cntRunning with
        | false => exact absurd ((consistent.stopped running).symm.trans ended) (by decide)
        | true => simpa [ended] using before running
      have running : data.cntDone input = false := by
        rw [cntDone_of_noByte clocks]
        simpa using more
      have next := step_rxStart state noClear noAnswer running
      have later : BeforeTimeout (data.step input) inputs := by
        have quiet : (data.signals input).cntStart = false := by
          rw [signals_rxStart state noAnswer running]
          rfl
        intro stillRuns
        have runs : data.cntRunning = true := (nextCnt_goesOn quiet running).1.symm.trans stillRuns
        have counts : CountsDown data := ⟨state, runs, clocks⟩
        have lower := (counts.keeps noClear next).2
        have within : inputs.length + 1 ≤ data.cnt.toNat := before runs
        omega
      obtain ⟨receives, after⟩ :=
        inductionHypothesis (consistent.step noClear) next steady waits later
      exact ⟨(receives_rxStart state noAnswer running).append receives, after⟩

/-- The start bit. -/
theorem step_startBit (consistent : Consistent data) (state : data.state = .rxStart)
    (noClear : input.clrStat = false) (answer : input.sddataI.getLsbD 0 = false) :
    Receives data [input] [] ∧ (data.step input).state = .rxShift ∧
      AtBit (data.step input) 0 0 (input.dataBlockSize.toNat % 512) := by
  have signals : data.signals input =
      { data.defaults with
        cntStart := true, cntByte := true, cntTarget := input.dataBlockSize.setWidth 9
        state := .rxShift } := by
    simp only [SdioData.signals, state, answer]
    rfl
  have clocks : data.cntByte = false := by simp [consistent.byte, state]
  refine ⟨.silent (congrArg (·.eot) signals) (congrArg (·.outDataValid) signals)
    (congrArg (·.cntBlockUpd) signals), by simp [SdioData.step, signals, noClear], ?_⟩
  exact .starts consistent clocks (by rw [signals]) (by rw [signals]) (by rw [signals])

/-! ## The check -/

theorem lastbitofword_of_clocks (consistent : Consistent data) (clocks : data.cntByte = false)
    (input : SdioDataInput) :
    data.lastbitofword input = false := by
  rw [SdioData.lastbitofword, SdioData.cntByteEvnt, consistent.bits clocks]
  cases input.dataQuad <;> rfl

/-- The clocks of the check but the last one. -/
theorem receives_rxCrc (consistent : Consistent data) (state : data.state = .rxCrc)
    (at_clock : AtClock data n) (left : n < 512) (length : inputs.length = n)
    (steady : Steady quad inputs) :
    Receives data inputs [] ∧ (sdioData.runFrom data inputs).state = .rxCrc ∧
      AtClock (sdioData.runFrom data inputs) 0 := by
  induction inputs generalizing data n with
  | nil =>
      obtain rfl : 0 = n := length
      exact ⟨.nil, state, at_clock⟩
  | cons input inputs inductionHypothesis =>
      obtain rfl : inputs.length + 1 = n := length
      obtain ⟨⟨_, noClear⟩, steady⟩ := List.forall_mem_cons.mp steady
      have running : data.cntDone input = false := by simp [at_clock.cntDone left]
      have signals : data.signals input =
          { data.defaults with
            outDataValid := data.lastbitofword input, crcIntx := true } := by
        simp only [SdioData.signals, state, running]
        rfl
      have valid : data.outDataValidO input = false :=
        (congrArg (·.outDataValid) signals).trans
          (lastbitofword_of_clocks consistent at_clock.clocks input)
      have one : Receives data [input] [] :=
        .silent (congrArg (·.eot) signals) valid (congrArg (·.cntBlockUpd) signals)
      have next : (data.step input).state = .rxCrc := by
        simp [SdioData.step, signals, noClear, SdioData.defaults, state]
      have counts := at_clock.next left (show (data.signals input).cntStart = false by
        rw [signals]
        rfl)
      obtain ⟨receives, after, ended⟩ := inductionHypothesis (consistent.step noClear) next counts
        (Nat.lt_of_succ_lt left) rfl steady
      exact ⟨one.append receives, after, ended⟩

/-- The last clock of a block. -/
theorem step_rxCrc_last (consistent : Consistent data) (state : data.state = .rxCrc)
    (at_clock : AtClock data 0) (noClear : input.clrStat = false) :
    deliveredWords data input = [] ∧ data.eotO input = data.cntBlockDone ∧
      (data.step input).state = (if data.cntBlockDone then .idle else .rxStart) ∧
      (data.step input).cntBlock =
        (if data.cntBlockDone then data.cntBlock else data.cntBlock - 1) ∧
      (data.step input).cntRunning = false := by
  have done : data.cntDone input = true := by simp [at_clock.cntDone]
  have last := lastbitofword_of_clocks consistent at_clock.clocks input
  cases block : data.cntBlockDone with
  | true =>
      have signals : data.signals input =
          { data.defaults with
            outDataValid := data.lastbitofword input, crcIntx := true, eot := true
            state := .idle } := by
        simp only [SdioData.signals, state, done, block]
        rfl
      simp [deliveredWords, SdioData.outDataValidO, SdioData.eotO, SdioData.step, SdioData.nextCnt,
        signals, SdioData.defaults, last, done, noClear]
  | false =>
      have signals : data.signals input =
          { data.defaults with
            outDataValid := data.lastbitofword input, crcIntx := true, cntBlockUpd := true
            cntBlock := data.cntBlock - 1, state := .rxStart } := by
        simp only [SdioData.signals, state, done, block]
        rfl
      simp [deliveredWords, SdioData.outDataValidO, SdioData.eotO, SdioData.step, SdioData.nextCnt,
        signals, SdioData.defaults, last, done, noClear]

/-- A block delivers its bytes, and its last clock ends the transfer if no block is left. -/
theorem receives_block {block : LineBlock} {blockSize : BitVec 10} (consistent : Consistent data)
    (state : data.state = .rxStart) (steady : Steady quad block.inputs)
    (onLines : block.OnLines quad blockSize) (words : (blockSize.toNat + 1) % 4 = 0)
    (size : blockSize.toNat < 512) (before : BeforeTimeout data block.gap) :
    (sdioData.observedFrom deliveredWords data block.inputs).flatMap wordBytes = block.bytes ∧
      sdioData.observedFrom eotFlags data block.inputs =
        List.replicate (block.inputs.length - 1) false ++ [data.cntBlockDone] ∧
      (sdioData.runFrom data block.inputs).state =
        (if data.cntBlockDone then .idle else .rxStart) ∧
      (sdioData.runFrom data block.inputs).cntBlock =
        (if data.cntBlockDone then data.cntBlock else data.cntBlock - 1) ∧
      (sdioData.runFrom data block.inputs).cntRunning = false := by
  obtain ⟨gap, start, shifts, checks, bytes⟩ := block
  obtain ⟨waits, answer, sizeIs, count, carries, sixteen⟩ := onLines
  dsimp only at waits answer sizeIs count carries sixteen before
  obtain ⟨front, last, rfl⟩ : ∃ front last, checks = front ++ [last] := by
    have notNil : checks ≠ [] := List.ne_nil_of_length_pos (by omega)
    exact ⟨_, _, (List.dropLast_append_getLast notNil).symm⟩
  have fifteen : front.length = 15 := by simpa using sixteen
  have inputsEq : (LineBlock.mk gap start shifts (front ++ [last]) bytes).inputs =
      (gap ++ ([start] ++ (shifts ++ front))) ++ [last] := by
    simp [LineBlock.inputs]
  rw [inputsEq] at steady ⊢
  obtain ⟨steadyFront, steadyLast⟩ := steady.of_append
  obtain ⟨steadyGap, steadyBlock⟩ := steadyFront.of_append
  obtain ⟨steadyStart, steadyBlock⟩ := steadyBlock.of_append
  obtain ⟨steadyShifts, steadyChecks⟩ := steadyBlock.of_append
  obtain ⟨lines, noClearStart⟩ := steadyStart start List.mem_cons_self
  obtain ⟨_, noClearLast⟩ := steadyLast last List.mem_cons_self
  -- the words of the block
  obtain ⟨packed, number, packs⟩ :=
    exists_words (show bytes.length = 4 * (bytes.length / 4) by omega)
  obtain ⟨word, packed, rfl⟩ := List.exists_cons_of_ne_nil (l := packed) (by
    rintro rfl
    rw [List.length_nil] at number
    omega)
  rw [List.length_cons] at number
  -- the phases
  obtain ⟨gapReceives, waiting⟩ := receives_gap consistent state steadyGap waits before
  have consistentGap := consistent.runFrom steadyGap.noClear
  obtain ⟨startReceives, shifting, at_bit⟩ :=
    step_startBit consistentGap waiting noClearStart answer
  have consistentStart := consistentGap.step noClearStart
  rw [sizeIs, Nat.mod_eq_of_lt size] at at_bit
  have clocks : shifts.length = byteClocks quad * (blockSize.toNat + 1) := by
    rw [← count, ← bytesLines_length, ← carries, List.length_map]
  obtain ⟨bytesReceives, checking, at_clock⟩ := receives_bytes shifting at_bit size (by decide)
    clocks steadyShifts (.start _ word) (show 0 + blockSize.toNat + 1 = _ by omega)
    (show Carries quad shifts ((word :: packed).flatMap wordBytes) by rwa [packs])
  have consistentBytes := consistentStart.runFrom steadyShifts.noClear
  obtain ⟨checksReceives, ending, ended⟩ :=
    receives_rxCrc consistentBytes checking at_clock (by decide) fifteen steadyChecks
  have consistentChecks := consistentBytes.runFrom steadyChecks.noClear
  obtain ⟨nothing, eot, next, blockNext, stopped⟩ :=
    step_rxCrc_last consistentChecks ending ended noClearLast
  have receives := gapReceives.append (startReceives.append (bytesReceives.append checksReceives))
  have ends : sdioData.runFrom data (gap ++ ([start] ++ (shifts ++ front))) =
      sdioData.runFrom
        (sdioData.runFrom ((sdioData.runFrom data gap).step start) shifts) front := by
    rw [Machine.runFrom_append, Machine.runFrom_append, Machine.runFrom_append]
    rfl
  rw [← ends] at nothing eot next blockNext stopped
  generalize gap ++ ([start] ++ (shifts ++ front)) = body at *
  have same : (sdioData.runFrom data body).cntBlock = data.cntBlock := receives.block
  simp only [SdioData.cntBlockDone, same] at eot next blockNext
  rw [Machine.observedFrom_append, Machine.observedFrom_append, Machine.runFrom_append,
    receives.words, receives.eots]
  refine ⟨?_, ?_, next, blockNext, stopped⟩
  · change ([] ++ ([] ++ ((word :: packed) ++ [])) ++ (deliveredWords _ last ++ [])).flatMap _ = _
    rw [nothing]
    simpa using packs
  · change _ ++ ([SdioData.eotO _ last] ++ []) = _
    rw [eot, List.append_nil, List.length_append, List.length_singleton, Nat.add_sub_cancel]
    rfl

theorem LineBlock.inputs_pos (block : LineBlock) : 0 < block.inputs.length := by
  rw [LineBlock.inputs, List.length_append, List.length_cons]
  omega

/-- Flags that end with the last one stay so behind more clocks without one. -/
theorem replicate_append_last {a b : Nat} (first : 0 < a) (second : 0 < b) :
    (List.replicate (a - 1) false ++ [false]) ++ (List.replicate (b - 1) false ++ [true]) =
      List.replicate (a + b - 1) false ++ [true] := by
  rw [← List.replicate_succ', ← List.append_assoc, ← List.replicate_add]
  congr 2
  omega

/-- All blocks of a transfer. -/
theorem receives_blocks {blocks : List LineBlock} {blockSize : BitVec 10}
    (consistent : Consistent data) (state : data.state = .rxStart)
    (steady : Steady quad (blocks.flatMap LineBlock.inputs))
    (onLines : ∀ block ∈ blocks, block.OnLines quad blockSize)
    (words : (blockSize.toNat + 1) % 4 = 0) (size : blockSize.toNat < 512)
    (count : blocks.length = data.cntBlock.toNat + 1)
    (before : ∀ block ∈ blocks.head?, BeforeTimeout data block.gap) :
    (sdioData.observedFrom deliveredWords data
      (blocks.flatMap LineBlock.inputs)).flatMap wordBytes =
        blocks.flatMap LineBlock.bytes ∧
      sdioData.observedFrom eotFlags data (blocks.flatMap LineBlock.inputs) =
        List.replicate ((blocks.flatMap LineBlock.inputs).length - 1) false ++ [true] ∧
      (sdioData.runFrom data (blocks.flatMap LineBlock.inputs)).state = .idle := by
  induction blocks generalizing data with
  | nil => exact absurd count (Nat.succ_ne_zero _).symm
  | cons block blocks inductionHypothesis =>
      rw [List.flatMap_cons] at steady ⊢
      obtain ⟨steadyBlock, steadyRest⟩ := steady.of_append
      obtain ⟨onLine, onLines⟩ := List.forall_mem_cons.mp onLines
      obtain ⟨bytes, eots, next, blockNext, stopped⟩ := receives_block consistent state steadyBlock
        onLine words size (before block rfl)
      rw [List.length_cons, Nat.add_right_cancel_iff] at count
      rw [Machine.observedFrom_append, Machine.observedFrom_append, Machine.runFrom_append,
        List.flatMap_append, List.flatMap_cons, bytes, eots]
      cases blocks with
      | nil =>
          have done : data.cntBlockDone = true := by
            have zero : data.cntBlock = 0 := BitVec.eq_of_toNat_eq count.symm
            rw [SdioData.cntBlockDone, zero]
            rfl
          rw [done, if_pos rfl] at next
          rw [done]
          refine ⟨rfl, ?_, next⟩
          exact (List.append_nil _).trans (by simp)
      | cons another blocks =>
          rw [List.length_cons] at count
          have more : data.cntBlockDone = false := by
            have notZero : data.cntBlock ≠ 0 := by
              intro zero
              rw [zero] at count
              exact absurd count (Nat.succ_ne_zero _)
            simpa [SdioData.cntBlockDone] using notZero
          simp only [more, Bool.false_eq_true, if_false] at next blockNext
          obtain ⟨bytesRest, eotsRest, idle⟩ := inductionHypothesis
            (consistent.runFrom steadyBlock.noClear) next steadyRest onLines
            (by
              rw [blockNext, List.length_cons, toNat_pred (by omega)]
              omega)
            fun later _ runs => absurd (stopped.symm.trans runs) Bool.false_ne_true
          rw [bytesRest, eotsRest, more, List.length_append]
          refine ⟨rfl, replicate_append_last block.inputs_pos ?_, idle⟩
          rw [List.flatMap_cons, List.length_append]
          exact Nat.add_pos_left another.inputs_pos _

end Transfer

/-- A read from idle after any history delivers exactly the bytes of its blocks, as words, and
raises `eot_o` once, in the last clock. -/
theorem read_delivers (earlier : List SdioDataInput) (quad : Bool) (start : SdioDataInput)
    (blocks : List LineBlock) (noClear : ∀ input ∈ earlier, input.clrStat = false)
    (idle : (sdioData.run earlier).state = .idle)
    (starts : start.dataStart = true ∧ start.dataRwn = true ∧ start.clrStat = false)
    (blockSize : BitVec 10) (words : (blockSize.toNat + 1) % 4 = 0)
    (size : blockSize.toNat + 1 ≤ 512) (count : blocks.length = start.dataBlockNum.toNat + 1)
    (onLines : ∀ block ∈ blocks, block.OnLines quad blockSize)
    (steady : Steady quad (blocks.flatMap LineBlock.inputs))
    (before : ∀ block ∈ blocks.head?,
      BeforeTimeout (sdioData.run (earlier ++ [start])) block.gap) :
    (sdioData.observedFrom deliveredWords (sdioData.run earlier)
        (start :: blocks.flatMap LineBlock.inputs)).flatMap wordBytes =
        blocks.flatMap LineBlock.bytes ∧
      sdioData.observedFrom eotFlags (sdioData.run earlier)
          (start :: blocks.flatMap LineBlock.inputs) =
        List.replicate (blocks.flatMap LineBlock.inputs).length false ++ [true] ∧
      (sdioData.runFrom (sdioData.run earlier) (start :: blocks.flatMap LineBlock.inputs)).state =
        .idle := by
  have consistent := run_consistent noClear
  obtain ⟨dataStart, rwn, noClearStart⟩ := starts
  rw [Machine.run_snoc] at before
  generalize sdioData.run earlier = data at consistent idle before ⊢
  have signals : data.signals start =
      { data.defaults with
        busy := false, statusSample := true, cntBlockUpd := true
        cntBlock := start.dataBlockNum, state := .rxStart } := by
    simp only [SdioData.signals, idle, dataStart, rwn]
    rfl
  have waiting : (data.step start).state = .rxStart := by
    simp [SdioData.step, signals, noClearStart]
  have number : (data.step start).cntBlock = start.dataBlockNum := by
    simp [SdioData.step, signals]
  obtain ⟨bytes, eots, ended⟩ :=
    receives_blocks (consistent.step noClearStart) waiting steady onLines
    words size (number ▸ count) before
  have nothing : deliveredWords data start = [] := by
    simp [deliveredWords, SdioData.outDataValidO, signals, SdioData.defaults]
  have notYet : data.eotO start = false := by
    simp [SdioData.eotO, signals, SdioData.defaults]
  obtain ⟨block, blocks, rfl⟩ := List.exists_cons_of_length_eq_add_one count
  have some_clocks : 0 < ((block :: blocks).flatMap LineBlock.inputs).length := by
    rw [List.flatMap_cons, List.length_append]
    exact Nat.add_pos_left block.inputs_pos _
  refine ⟨?_, ?_, ended⟩
  · change (deliveredWords data start ++
      sdioData.observedFrom deliveredWords (data.step start) _).flatMap wordBytes = _
    rw [nothing]
    exact bytes
  · change [data.eotO start] ++ sdioData.observedFrom eotFlags (data.step start) _ = _
    rw [notYet, eots, ← List.append_assoc, List.singleton_append, ← List.replicate_succ,
      Nat.sub_add_cancel some_clocks]

/-- A clock of a transfer over four lines. -/
def quadClock (lines : BitVec 4) : SdioDataInput :=
  { quietData with dataQuad := true, sddataI := lines }

/-- A block over four lines, after some clocks. -/
def quadBlock (clocks : Nat) (bytes : List (BitVec 8)) : LineBlock where
  gap := List.replicate clocks (quadClock 0xF)
  start := quadClock 0
  shifts := bytes.flatMap fun byte =>
    [quadClock (byte.extractLsb' 4 4), quadClock (byte.extractLsb' 0 4)]
  checks := List.replicate 16 (quadClock 0xF)
  bytes

/-- Two blocks. -/
def twoBlocks : List LineBlock :=
  [quadBlock 3 [0x12, 0x34, 0x56, 0x78], quadBlock 5 [0x9A, 0xBC, 0xDE, 0xF0]]

/-- The start of their read. -/
def startsTwoBlocks : SdioDataInput := { startsRead with dataQuad := true, dataBlockNum := 1 }

theorem twoBlocks_delivered :
    (sdioData.observedFrom deliveredWords (sdioData.run [])
        (startsTwoBlocks :: twoBlocks.flatMap LineBlock.inputs)).flatMap wordBytes =
      [0x12, 0x34, 0x56, 0x78, 0x9A, 0xBC, 0xDE, 0xF0] := by
  have onLines : ∀ block ∈ twoBlocks, block.OnLines true 3 := by
    simp only [twoBlocks, List.forall_mem_cons]
    refine ⟨?_, ?_, nofun⟩
    · exact ⟨by decide, rfl, rfl, rfl, by unfold Carries; decide, rfl⟩
    · exact ⟨by decide, rfl, rfl, rfl, by unfold Carries; decide, rfl⟩
  have steady : Steady true (twoBlocks.flatMap LineBlock.inputs) := by
    unfold Steady
    decide
  have before : ∀ block ∈ twoBlocks.head?,
      BeforeTimeout (sdioData.run ([] ++ [startsTwoBlocks])) block.gap := by
    intro block _ running
    cases running
  exact (read_delivers [] true _ twoBlocks (by decide) rfl ⟨rfl, rfl, rfl⟩ 3 rfl (by decide) rfl
    onLines steady before).1

end CoreVMcu.Sdio
