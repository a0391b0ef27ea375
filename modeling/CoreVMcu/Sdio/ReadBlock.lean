import CoreVMcu.Sdio.DataBytes

/-!
# Taking in a word

The bits on the lines are put into the word one place after the other, and with the last of them
the word is delivered.

The bytes of a block are delivered as words, and neither the start bit nor the check adds one.
-/

namespace CoreVMcu.Sdio

open Clocked

/-- The lines in use: the others are not looked at. -/
def usedLines (quad : Bool) (line : BitVec 4) : BitVec 4 :=
  if quad then line else (line.extractLsb' 0 1).setWidth 4

/-- The number of lines in use. -/
def lineCount (quad : Bool) : Nat := if quad then 4 else 1

/-- The lines show some bytes. -/
def Carries (quad : Bool) (inputs : List SdioDataInput) (bytes : List (BitVec 8)) : Prop :=
  inputs.map (fun input => usedLines quad input.sddataI) = bytesLines quad bytes

/-- The places that have been filled before clock `c` of byte `j`. -/
def Filled (quad : Bool) (held word : BitVec 32) (j c : Nat) : Prop :=
  ∀ i, i < 8 * j ∨ 8 * j + 8 - lineCount quad * c ≤ i ∧ i < 8 * j + 8 →
    held.getLsbD i = word.getLsbD i

section Word

variable {quad : Bool} {data : SdioData} {input : SdioDataInput} {word : BitVec 32} {j c n : Nat}

/-- Some places of a word are replaced. -/
theorem getLsbD_replaced {count : Nat} (held : BitVec 32) (bits : BitVec count) (place : Nat)
    {i : Nat} (inside : i < 32) :
    ((held &&& ~~~((BitVec.allOnes count).setWidth 32 <<< place)) |||
        (bits.setWidth 32 <<< place)).getLsbD i =
      if place ≤ i ∧ i < place + count then bits.getLsbD (i - place) else held.getLsbD i := by
  simp only [BitVec.getLsbD_or, BitVec.getLsbD_and, BitVec.getLsbD_not, BitVec.getLsbD_shiftLeft,
    BitVec.getLsbD_setWidth, BitVec.getLsbD_allOnes, inside, decide_true, Bool.true_and]
  have below : i - place < 32 := by omega
  by_cases from_place : place ≤ i
  · by_cases here : i < place + count
    · have offset : i - place < count := by omega
      simp [from_place, here, below, offset, Nat.not_lt.mpr from_place]
    · have offset : ¬i - place < count := by omega
      have beyond := BitVec.getLsbD_of_ge bits (i - place) (Nat.le_of_not_lt offset)
      simp [here, below, offset, beyond]
  · simp [from_place, Nat.lt_of_not_le from_place]

/-- The bits that a clock puts into the word. -/
theorem AtBit.getLsbD_datain (at_bit : AtBit data j c n) (lines : input.dataQuad = quad)
    (inside : c < byteClocks quad) (byte : j < 4) {i : Nat} (below : i < 32) :
    (data.datain input).getLsbD i =
      if 8 * j + bitOffset quad c ≤ i ∧ i < 8 * j + bitOffset quad c + lineCount quad then
        (usedLines quad input.sddataI).getLsbD (i - (8 * j + bitOffset quad c))
      else data.data.getLsbD i := by
  rw [SdioData.datain, at_bit.bitPlace lines inside byte, lines]
  cases quad with
  | true => exact getLsbD_replaced data.data input.sddataI _ below
  | false =>
      refine (getLsbD_replaced data.data (input.sddataI.extractLsb' 0 1) _ below).trans ?_
      refine if_congr Iff.rfl (Eq.symm ?_) rfl
      simp only [usedLines, Bool.false_eq_true, if_false, BitVec.getLsbD_setWidth,
        BitVec.getLsbD_extractLsb']
      by_cases first : i - (8 * j + bitOffset false c) < 1
      · have small : i - (8 * j + bitOffset false c) < 4 := by omega
        simp [first, small]
      · simp [first]

theorem bitOffset_eq (inside : c < byteClocks quad) :
    bitOffset quad c = 8 - lineCount quad * (c + 1) ∧ lineCount quad * (c + 1) ≤ 8 := by
  cases quad with
  | true =>
      change c < 2 at inside
      interval_cases c <;> exact ⟨rfl, by decide⟩
  | false =>
      change c < 8 at inside
      interval_cases c <;> exact ⟨rfl, by decide⟩

/-- What the lines show of a word. -/
theorem getLsbD_byteLine (word : BitVec 32) (j : Nat) {k : Nat} (inside : c < byteClocks quad)
    (line : k < lineCount quad) :
    (byteLine quad (wordByte word j) c).getLsbD k =
      word.getLsbD (8 * j + bitOffset quad c + k) := by
  cases quad with
  | true =>
      change k < 4 at line
      have below : 4 * (1 - c) + k < 8 := by omega
      simp [byteLine, wordByte, bitOffset, line, below, Nat.add_assoc]
  | false =>
      change k < 1 at line
      obtain rfl : k = 0 := Nat.lt_one_iff.mp line
      have below : 7 - c < 8 := by omega
      simp [byteLine, wordByte, bitOffset, below]

/-- A clock fills its places. -/
theorem Filled.next (filled : Filled quad data.data word j c) (at_bit : AtBit data j c n)
    (lines : input.dataQuad = quad) (inside : c < byteClocks quad) (byte : j < 4)
    (shown : usedLines quad input.sddataI = byteLine quad (wordByte word j) c) :
    Filled quad (data.datain input) word j (c + 1) := by
  intro i place
  obtain ⟨offset, within⟩ := bitOffset_eq inside
  rw [Nat.mul_succ] at offset within place
  rw [at_bit.getLsbD_datain lines inside byte (by omega)]
  split_ifs with here
  · rw [shown, getLsbD_byteLine word j inside (by omega), Nat.add_sub_cancel' here.1]
  · exact filled i (by omega)

/-- After its last clock a byte is filled. -/
theorem Filled.nextByte {held : BitVec 32} (filled : Filled quad held word j (byteClocks quad)) :
    Filled quad held word (j + 1) 0 := by
  have all : lineCount quad * byteClocks quad = 8 := by cases quad <;> rfl
  intro i place
  exact filled i (by omega)

/-- Four bytes are a word. -/
theorem Filled.eq {held : BitVec 32} (filled : Filled quad held word 4 0) : held = word := by
  apply BitVec.eq_of_getLsbD_eq
  intro i below
  exact filled i (.inl below)

theorem Filled.start (held word : BitVec 32) : Filled quad held word 0 0 := by
  intro i place
  omega

end Word

/-! ## Reading blocks -/

open Clocked

/-- `eot_o` in a clock. -/
def eotFlags (data : SdioData) (input : SdioDataInput) : List Bool := [data.eotO input]

/-- What some clocks deliver, none of which ends the transfer or a block. -/
structure Receives (data : SdioData) (inputs : List SdioDataInput) (words : List (BitVec 32)) :
    Prop where
  words : sdioData.observedFrom deliveredWords data inputs = words
  eots : sdioData.observedFrom eotFlags data inputs = List.replicate inputs.length false
  block : (sdioData.runFrom data inputs).cntBlock = data.cntBlock

section Reading

variable {quad : Bool} {data : SdioData} {input : SdioDataInput} {inputs : List SdioDataInput}
  {word : BitVec 32} {j c n : Nat}

theorem Receives.nil : Receives data [] [] := ⟨rfl, rfl, rfl⟩

theorem Receives.append {later : List SdioDataInput} {words wordsLater : List (BitVec 32)}
    (now : Receives data inputs words)
    (after : Receives (sdioData.runFrom data inputs) later wordsLater) :
    Receives data (inputs ++ later) (words ++ wordsLater) where
  words := by rw [Machine.observedFrom_append, now.words, after.words]
  eots := by
    rw [Machine.observedFrom_append, now.eots, after.eots, List.length_append,
      List.replicate_add]
  block := by rw [Machine.runFrom_append, after.block, now.block]

theorem Receives.one (eot : data.eotO input = false)
    (block : (data.signals input).cntBlockUpd = false) :
    Receives data [input] (deliveredWords data input) where
  words := List.append_nil _
  eots := congrArg (fun flag => [flag]) eot
  block := by simp [Machine.runFrom, sdioData, SdioData.step, block]

/-! ## The data of a block -/

/-- A clock of the data. -/
theorem receives_rxShift (state : data.state = .rxShift) (input : SdioDataInput) :
    Receives data [input]
      (if data.lastbitofword input then [data.datain input] else []) := by
  have signals : (data.signals input).eot = false ∧ (data.signals input).cntBlockUpd = false ∧
      (data.signals input).outDataValid = data.lastbitofword input := by
    simp only [SdioData.signals, state]
    split <;> exact ⟨rfl, rfl, rfl⟩
  obtain ⟨eot, block, valid⟩ := signals
  have one : Receives data [input] (deliveredWords data input) := .one eot block
  rwa [deliveredWords, SdioData.outDataValidO, valid] at one

/-- A clock after which the data goes on. -/
theorem step_rxShift_goesOn (state : data.state = .rxShift) (noClear : input.clrStat = false)
    (running : data.cntDone input = false) :
    (data.step input).state = .rxShift ∧ (data.signals input).cntStart = false ∧
      (data.step input).data = data.datain input := by
  have signals : data.signals input =
      { data.defaults with
        rxEn := true, outDataValid := data.lastbitofword input, crcIntx := true } := by
    simp only [SdioData.signals, state, running]
    rfl
  simp [SdioData.step, SdioData.nextData, signals, noClear, SdioData.defaults, state]

/-- The last clock of the data. -/
theorem step_rxShift_over (state : data.state = .rxShift) (noClear : input.clrStat = false)
    (done : data.cntDone input = true) :
    (data.step input).state = .rxCrc ∧ AtClock (data.step input) 15 := by
  have signals : data.signals input =
      { data.defaults with
        rxEn := true, outDataValid := data.lastbitofword input, crcIntx := true, state := .rxCrc
        cntStart := true, cntTarget := 15 } := by
    simp only [SdioData.signals, state, done]
    rfl
  refine ⟨by simp [SdioData.step, signals, noClear], ?_⟩
  constructor <;> simp [SdioData.step, SdioData.nextCnt, signals, SdioData.defaults]

/-- The clocks of a byte but the last one. -/
theorem receives_within (state : data.state = .rxShift) (at_bit : AtBit data j c n)
    (left : n < 512) (byte : j < 4) (length : c + inputs.length < byteClocks quad)
    (steady : Steady quad inputs) (filled : Filled quad data.data word j c)
    (shown : inputs.map (fun input => usedLines quad input.sddataI) =
      (List.range' c inputs.length).map (byteLine quad (wordByte word j))) :
    Receives data inputs [] ∧ (sdioData.runFrom data inputs).state = .rxShift ∧
      AtBit (sdioData.runFrom data inputs) j (c + inputs.length) n ∧
      Filled quad (sdioData.runFrom data inputs).data word j (c + inputs.length) := by
  induction inputs generalizing data c with
  | nil => exact ⟨.nil, state, at_bit, filled⟩
  | cons input inputs inductionHypothesis =>
      obtain ⟨⟨lines, noClear⟩, steady⟩ := List.forall_mem_cons.mp steady
      rw [List.length_cons, List.range'_succ, List.map_cons, List.map_cons,
        List.cons.injEq] at shown
      rw [List.length_cons, ← Nat.add_assoc, Nat.add_right_comm] at length
      have more : c + 1 < byteClocks quad := (Nat.le_add_right ..).trans_lt length
      have inside := Nat.lt_of_succ_lt more
      have running : data.cntDone input = false := by
        simp [at_bit.cntDone lines inside left, more.ne]
      have goesOn : data.lastbitofword input = false := by
        simp [at_bit.lastbitofword lines inside byte, more.ne]
      obtain ⟨next, quiet, word⟩ := step_rxShift_goesOn state noClear running
      have filledNext := filled.next at_bit lines inside byte shown.1
      rw [← word] at filledNext
      obtain ⟨receives, after, at_end, filledEnd⟩ := inductionHypothesis next
        (at_bit.next lines quiet left more) length steady filledNext shown.2
      have one := receives_rxShift state input
      rw [goesOn] at one
      rw [Nat.add_right_comm, Nat.add_assoc] at at_end filledEnd
      exact ⟨one.append receives, after, at_end, filledEnd⟩

/-- The last clock of a byte, with those before it. -/
theorem receives_body {body : List SdioDataInput} {last : SdioDataInput}
    (state : data.state = .rxShift) (at_bit : AtBit data j 0 n) (left : n < 512) (byte : j < 4)
    (length : body.length + 1 = byteClocks quad) (steady : Steady quad (body ++ [last]))
    (filled : Filled quad data.data word j 0)
    (shown : (body ++ [last]).map (fun input => usedLines quad input.sddataI) =
      byteLines quad (wordByte word j)) :
    Receives data (body ++ [last]) (if j = 3 then [word] else []) ∧
      (sdioData.runFrom data body).state = .rxShift ∧
      AtBit (sdioData.runFrom data body) j body.length n ∧
      Filled quad ((sdioData.runFrom data body).datain last) word (j + 1) 0 := by
  obtain ⟨steadyBody, steadyLast⟩ := List.forall_mem_append.mp steady
  obtain ⟨lines, noClear⟩ := steadyLast last List.mem_cons_self
  have inside : body.length < byteClocks quad := length ▸ Nat.lt_succ_self _
  rw [← byteLines_snoc _ length, List.map_append] at shown
  obtain ⟨shownBody, shownLast⟩ := List.append_inj shown (by simp)
  obtain ⟨receives, next, at_end, filledEnd⟩ := receives_within state at_bit left byte
    (by rwa [Nat.zero_add]) steadyBody filled shownBody
  rw [Nat.zero_add] at at_end filledEnd
  have whole := filledEnd.next at_end lines inside byte (List.cons.inj shownLast).1
  rw [length] at whole
  have one := receives_rxShift next last
  rw [at_end.lastbitofword lines inside byte] at one
  refine ⟨?_, next, at_end, whole.nextByte⟩
  by_cases wraps : j = 3
  · subst wraps
    rw [whole.nextByte.eq] at one
    simpa [length] using receives.append one
  · simpa [wraps] using receives.append one

/-- The bytes of a block, from byte `j` of a word on. -/
theorem receives_bytes {words : List (BitVec 32)} (state : data.state = .rxShift)
    (at_bit : AtBit data j 0 n) (left : n < 512) (byte : j < 4)
    (length : inputs.length = byteClocks quad * (n + 1)) (steady : Steady quad inputs)
    (filled : Filled quad data.data word j 0)
    (count : j + n + 1 = 4 * (words.length + 1))
    (carries : Carries quad inputs ((wordBytes word).drop j ++ words.flatMap wordBytes)) :
    Receives data inputs (word :: words) ∧ (sdioData.runFrom data inputs).state = .rxCrc ∧
      AtClock (sdioData.runFrom data inputs) 15 := by
  induction n generalizing data inputs j word words with
  | zero =>
      obtain rfl : j = 3 := by omega
      obtain rfl := List.length_eq_zero_iff.mp (show words.length = 0 by omega)
      obtain ⟨body, last, rest, rfl, ofByte, none⟩ := exists_firstByte length
      obtain rfl := List.length_eq_zero_iff.mp none
      rw [List.append_nil] at steady carries ⊢
      obtain ⟨lines, noClear⟩ := steady last (by simp)
      have shown : (body ++ [last]).map (fun input => usedLines quad input.sddataI) =
          byteLines quad (wordByte word 3) := carries.trans (List.append_nil _)
      obtain ⟨receives, next, at_end, _⟩ :=
        receives_body state at_bit left byte ofByte steady filled shown
      rw [Machine.runFrom_append]
      exact ⟨receives, step_rxShift_over next noClear (at_end.done lines ofByte)⟩
  | succ n inductionHypothesis =>
      obtain ⟨body, last, rest, rfl, ofByte, ofRest⟩ := exists_firstByte length
      obtain ⟨steadyByte, steadyRest⟩ := List.forall_mem_append.mp steady
      obtain ⟨lines, noClear⟩ := steadyByte last (by simp)
      rw [Carries, List.map_append, wordBytes_drop _ byte, List.cons_append,
        bytesLines_cons] at carries
      obtain ⟨shown, carriesRest⟩ := List.append_inj carries
        (by rw [List.length_map, byteLines_length, List.length_append,
          List.length_singleton, ofByte])
      obtain ⟨receives, next, at_end, filledNext⟩ :=
        receives_body state at_bit left byte ofByte steadyByte filled shown
      have inside : body.length < byteClocks quad := ofByte ▸ Nat.lt_succ_self _
      have running : (sdioData.runFrom data body).cntDone last = false := by
        simp [at_end.cntDone lines inside left]
      obtain ⟨after, quiet, held⟩ := step_rxShift_goesOn next noClear running
      have at_next := at_end.nextByte lines quiet left ofByte
      rw [← held] at filledNext
      have joined : (sdioData.runFrom data body).step last =
          sdioData.runFrom data (body ++ [last]) := by
        rw [Machine.runFrom_append]
        rfl
      rw [joined] at after at_next filledNext
      rw [Machine.runFrom_append sdioData data (body ++ [last]) rest]
      by_cases wraps : j = 3
      · subst wraps
        obtain ⟨word', words, rfl⟩ := List.exists_cons_of_ne_nil (l := words) (by
          rintro rfl
          rw [List.length_nil] at count
          omega)
        rw [List.length_cons] at count
        obtain ⟨later, ends⟩ := inductionHypothesis after at_next.wrap (Nat.lt_of_succ_lt left)
          (by decide) ofRest steadyRest (.start _ word') (by omega) carriesRest
        exact ⟨receives.append later, ends⟩
      · rw [if_neg wraps] at receives
        obtain ⟨later, ends⟩ := inductionHypothesis after at_next (Nat.lt_of_succ_lt left)
          (by omega) ofRest steadyRest filledNext (by omega) carriesRest
        exact ⟨receives.append later, ends⟩

end Reading

end CoreVMcu.Sdio
