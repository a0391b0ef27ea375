import CoreVMcu.Sdio.Data
import CoreVMcu.Clocked.Counters
import CoreVMcu.Sdio.DataInvariant

/-!
# Bytes on the data lines

A byte goes over the lines with its highest bit first, one bit or four bits in a clock, and the
bytes of a word go with the least significant one first.

While a block is shifted the counters tell which bit of which byte of the word is on the lines,
and how many bytes are left.
-/

namespace CoreVMcu.Sdio

open Clocked Clocked.Crc

/-- A byte of a word. -/
def wordByte (word : BitVec 32) (i : Nat) : BitVec 8 := word.extractLsb' (8 * i) 8

/-- The bytes of a word, the least significant one first. -/
def wordBytes (word : BitVec 32) : List (BitVec 8) :=
  [wordByte word 0, wordByte word 1, wordByte word 2, wordByte word 3]

/-- The clocks of a byte. -/
def byteClocks (quad : Bool) : Nat := if quad then 2 else 8

/-- What the lines show of a byte in one of its clocks. -/
def byteLine (quad : Bool) (byte : BitVec 8) (c : Nat) : BitVec 4 :=
  if quad then byte.extractLsb' (4 * (1 - c)) 4 else (byte.extractLsb' (7 - c) 1).setWidth 4

/-- What the lines show of a byte. -/
def byteLines (quad : Bool) (byte : BitVec 8) : List (BitVec 4) :=
  (List.range (byteClocks quad)).map (byteLine quad byte)

/-- What the lines show of some bytes. -/
def bytesLines (quad : Bool) (bytes : List (BitVec 8)) : List (BitVec 4) :=
  bytes.flatMap (byteLines quad)

/-- The bits of a lane. -/
def laneBits (lane : Fin 4) (lines : List (BitVec 4)) : List Bool :=
  lines.map fun line => line.getLsbD lane

/-- What `sddata_o` shows after the falling edge in a clock. -/
def sddataLines (data : SdioData) (input : SdioDataInput) : List (BitVec 4) :=
  [(data.step input).sddata]

/-- The word that is consumed in a clock. -/
def consumedWords (data : SdioData) (input : SdioDataInput) : List (BitVec 32) :=
  if data.inDataReadyO input then [input.inData] else []

/-- The word that is delivered in a clock. -/
def deliveredWords (data : SdioData) (input : SdioDataInput) : List (BitVec 32) :=
  if data.outDataValidO input then [data.datain input] else []

/-- The inputs of a block: the number of lines is kept and the status is not cleared. -/
def Steady (quad : Bool) (inputs : List SdioDataInput) : Prop :=
  ∀ input ∈ inputs, input.dataQuad = quad ∧ input.clrStat = false

theorem Steady.noClear {quad : Bool} {inputs : List SdioDataInput} (steady : Steady quad inputs) :
    ∀ input ∈ inputs, input.clrStat = false :=
  fun input member => (steady input member).2

theorem Steady.of_append {quad : Bool} {inputs later : List SdioDataInput}
    (steady : Steady quad (inputs ++ later)) : Steady quad inputs ∧ Steady quad later :=
  List.forall_mem_append.mp steady

theorem laneBits_append (lane : Fin 4) (lines more : List (BitVec 4)) :
    laneBits lane (lines ++ more) = laneBits lane lines ++ laneBits lane more :=
  List.map_append

theorem byteClocks_pos (quad : Bool) : 0 < byteClocks quad := by
  cases quad <;> decide

theorem byteClocks_le (quad : Bool) : byteClocks quad ≤ 8 := by
  cases quad <;> decide

theorem byteLines_length (quad : Bool) (byte : BitVec 8) :
    (byteLines quad byte).length = byteClocks quad := by
  simp [byteLines]

theorem bytesLines_length (quad : Bool) (bytes : List (BitVec 8)) :
    (bytesLines quad bytes).length = byteClocks quad * bytes.length := by
  simp [bytesLines, byteLines_length, Nat.mul_comm]

theorem bytesLines_cons (quad : Bool) (byte : BitVec 8) (bytes : List (BitVec 8)) :
    bytesLines quad (byte :: bytes) = byteLines quad byte ++ bytesLines quad bytes :=
  List.flatMap_cons

theorem wordBytes_drop (word : BitVec 32) {j : Nat} (inside : j < 4) :
    (wordBytes word).drop j = wordByte word j :: (wordBytes word).drop (j + 1) := by
  interval_cases j <;> rfl

theorem byteLines_snoc {quad : Bool} (byte : BitVec 8) {m : Nat}
    (length : m + 1 = byteClocks quad) :
    (List.range' 0 m).map (byteLine quad byte) ++ [byteLine quad byte m] = byteLines quad byte := by
  rw [byteLines, ← length, List.range_succ, List.map_append, List.range_eq_range']
  rfl

/-- The clocks of the first byte. -/
theorem exists_firstByte {quad : Bool} {inputs : List SdioDataInput} {n : Nat}
    (length : inputs.length = byteClocks quad * (n + 1)) :
    ∃ body last rest, inputs = body ++ [last] ++ rest ∧ body.length + 1 = byteClocks quad ∧
      rest.length = byteClocks quad * n := by
  have pos := byteClocks_pos quad
  rw [Nat.mul_succ] at length
  have taken : (inputs.take (byteClocks quad)).length = byteClocks quad := by
    rw [List.length_take]
    omega
  have notNil : inputs.take (byteClocks quad) ≠ [] := List.ne_nil_of_length_pos (taken.symm ▸ pos)
  refine ⟨(inputs.take (byteClocks quad)).dropLast, (inputs.take (byteClocks quad)).getLast notNil,
    inputs.drop (byteClocks quad), ?_, ?_, ?_⟩
  · rw [List.dropLast_append_getLast notNil, List.take_append_drop]
  · rw [List.length_dropLast, taken]
    omega
  · rw [List.length_drop]
    omega

/-! ## Counting bytes on the data lines -/

open Clocked

/-- Clock `c` of byte `j` of the word, with `n` bytes left after this one. -/
structure AtBit (data : SdioData) (j c n : Nat) : Prop where
  cntByte : data.cntByte = true
  running : data.cntRunning = true
  cnt : data.cnt = BitVec.ofNat 9 n
  byte : data.byteInWord = BitVec.ofNat 2 j
  bit : data.bitCnt = BitVec.ofNat 3 c

/-- Where in a byte the lowest bit stands that a clock moves. -/
def bitOffset (quad : Bool) (c : Nat) : Nat := if quad then 4 * (1 - c) else 7 - c

section Counting

variable {data : SdioData} {input : SdioDataInput} {quad : Bool} {j c n : Nat}

theorem AtBit.cntByteEvnt (at_bit : AtBit data j c n) (lines : input.dataQuad = quad)
    (inside : c < byteClocks quad) :
    data.cntByteEvnt input = decide (c + 1 = byteClocks quad) := by
  have small : c < 2 ^ 3 := inside.trans_le (byteClocks_le quad)
  rw [SdioData.cntByteEvnt, at_bit.bit, lines]
  cases quad with
  | true => exact (ofNat_beq_ofNat small (by decide : 1 < 2 ^ 3)).trans (by simp [byteClocks])
  | false => exact (ofNat_beq_ofNat small (by decide : 7 < 2 ^ 3)).trans (by simp [byteClocks])

theorem AtBit.cntDone (at_bit : AtBit data j c n) (lines : input.dataQuad = quad)
    (inside : c < byteClocks quad) (left : n < 512) :
    data.cntDone input = decide (n = 0 ∧ c + 1 = byteClocks quad) := by
  rw [SdioData.cntDone, at_bit.cntByte, if_pos rfl, at_bit.cntByteEvnt lines inside, at_bit.cnt,
    Bool.decide_and]
  exact congrArg (· && _) (ofNat_beq_ofNat left (by decide : 0 < 2 ^ 9))

theorem AtBit.lastbitofword (at_bit : AtBit data j c n) (lines : input.dataQuad = quad)
    (inside : c < byteClocks quad) (byte : j < 4) :
    data.lastbitofword input = decide (c + 1 = byteClocks quad ∧ j = 3) := by
  rw [SdioData.lastbitofword, at_bit.cntByteEvnt lines inside, at_bit.byte, Bool.decide_and]
  exact congrArg (_ && ·) (ofNat_beq_ofNat byte (by decide : 3 < 2 ^ 2))

theorem AtBit.bitPlace (at_bit : AtBit data j c n) (lines : input.dataQuad = quad)
    (inside : c < byteClocks quad) (byte : j < 4) :
    data.bitPlace input = 8 * j + bitOffset quad c := by
  rw [SdioData.bitPlace, at_bit.byte, at_bit.bit, lines, BitVec.toNat_ofNat,
    Nat.mod_eq_of_lt (show j < 2 ^ 2 from byte)]
  cases quad with
  | true =>
      change c < 2 at inside
      interval_cases c <;> rfl
  | false =>
      change c < 8 at inside
      interval_cases c <;> rfl

/-- A clock inside a byte. -/
theorem AtBit.next (at_bit : AtBit data j c n) (lines : input.dataQuad = quad)
    (quiet : (data.signals input).cntStart = false) (left : n < 512)
    (more : c + 1 < byteClocks quad) : AtBit (data.step input) j (c + 1) n := by
  have inside := Nat.lt_of_succ_lt more
  have within : data.cntByteEvnt input = false := by
    simp [at_bit.cntByteEvnt lines inside, more.ne]
  have running : data.cntDone input = false := by
    simp [at_bit.cntDone lines inside left, more.ne]
  have counters : data.nextCnt input = (data.cnt, true, true, data.byteInWord) := by
    simp [SdioData.nextCnt, quiet, running, within, at_bit.cntByte, at_bit.running]
  refine ⟨congrArg (·.2.2.1) counters, congrArg (·.2.1) counters,
    (congrArg (·.1) counters).trans at_bit.cnt, (congrArg (·.2.2.2) counters).trans at_bit.byte, ?_⟩
  change data.nextBitCnt input = _
  rw [SdioData.nextBitCnt, at_bit.cntByte, within, at_bit.bit]
  simp [BitVec.ofNat_add]

/-- The last clock of a byte that is not the last one. -/
theorem AtBit.nextByte (at_bit : AtBit data j c (n + 1)) (lines : input.dataQuad = quad)
    (quiet : (data.signals input).cntStart = false) (left : n + 1 < 512)
    (last : c + 1 = byteClocks quad) : AtBit (data.step input) (j + 1) 0 n := by
  have inside : c < byteClocks quad := last ▸ Nat.lt_succ_self c
  have event : data.cntByteEvnt input = true := by
    simp [at_bit.cntByteEvnt lines inside, last]
  have running : data.cntDone input = false := by
    simp [at_bit.cntDone lines inside left]
  have counters : data.nextCnt input = (data.cnt - 1, true, true, data.byteInWord + 1) := by
    simp [SdioData.nextCnt, quiet, running, event, at_bit.cntByte, at_bit.running]
  refine ⟨congrArg (·.2.2.1) counters, congrArg (·.2.1) counters,
    (congrArg (·.1) counters).trans ?_, (congrArg (·.2.2.2) counters).trans ?_, ?_⟩
  · rw [at_bit.cnt, BitVec.ofNat_add]
    exact BitVec.add_sub_cancel _ _
  · rw [at_bit.byte, BitVec.ofNat_add]
    rfl
  · change data.nextBitCnt input = _
    rw [SdioData.nextBitCnt, at_bit.cntByte, event]
    rfl

/-- The last clock of the last byte. -/
theorem AtBit.done (at_bit : AtBit data j c 0) (lines : input.dataQuad = quad)
    (last : c + 1 = byteClocks quad) : data.cntDone input = true := by
  simp [at_bit.cntDone lines (last ▸ Nat.lt_succ_self c) (by decide), last]

/-- After four bytes the next word begins. -/
theorem AtBit.wrap (at_bit : AtBit data 4 c n) : AtBit data 0 c n :=
  ⟨at_bit.cntByte, at_bit.running, at_bit.cnt, at_bit.byte, at_bit.bit⟩

/-- A count of bytes starts at the first bit. -/
theorem AtBit.starts (consistent : Consistent data) (clocks : data.cntByte = false)
    (starts : (data.signals input).cntStart = true) (byte : (data.signals input).cntByte = true)
    (target : (data.signals input).cntTarget = input.dataBlockSize.setWidth 9) :
    AtBit (data.step input) 0 0 (input.dataBlockSize.toNat % 512) := by
  have counters := nextCnt_starts starts
  refine ⟨(congrArg (·.2.2.1) counters).trans byte, congrArg (·.2.1) counters,
    (congrArg (·.1) counters).trans ?_, congrArg (·.2.2.2) counters, ?_⟩
  · rw [target]
    apply BitVec.eq_of_toNat_eq
    simp
  · exact nextBitCnt_of_over consistent.bits (by simp [clocks])

/-! ## Counting clocks -/

/-- A count of clocks with `n` left after this one. -/
structure AtClock (data : SdioData) (n : Nat) : Prop where
  clocks : data.cntByte = false
  running : data.cntRunning = true
  cnt : data.cnt = BitVec.ofNat 9 n

theorem AtClock.cntDone (at_clock : AtClock data n) (left : n < 512) :
    data.cntDone input = decide (n = 0) := by
  rw [cntDone_of_noByte at_clock.clocks, at_clock.cnt]
  exact ofNat_beq_ofNat left (by decide : 0 < 2 ^ 9)

theorem AtClock.next (at_clock : AtClock data (n + 1)) (left : n + 1 < 512)
    (quiet : (data.signals input).cntStart = false) : AtClock (data.step input) n := by
  have running : data.cntDone input = false := by simp [at_clock.cntDone left]
  have counters : data.nextCnt input = (data.cnt - 1, true, false, data.byteInWord) := by
    simp [SdioData.nextCnt, quiet, running, at_clock.clocks, at_clock.running]
  refine ⟨congrArg (·.2.2.1) counters, congrArg (·.2.1) counters,
    (congrArg (·.1) counters).trans ?_⟩
  rw [at_clock.cnt, BitVec.ofNat_add]
  exact BitVec.add_sub_cancel _ _

end Counting

end CoreVMcu.Sdio
