import Mathlib.Tactic.IntervalCases
import Mathlib.Tactic.Ring
import CoreVMcu.Boot.SRecord
import CoreVMcu.Boot.UartProtocol

/-!
# Reading a record

The parser goes through the fields of a record one character at a time.  What it knows
between two fields is stated for each field, and one lemma says how it reads it.
-/

namespace CoreVMcu.Boot

/-! ## Numbers -/

theorem hexValue_hexDigit :
    ∀ (upper : Bool) (nibble : BitVec 4) (previous : BitVec 8),
      hexValue (hexDigit upper nibble) previous = nibble.setWidth 8 := by
  have digits : ∀ (upper : Bool) (nibble : BitVec 4),
      (0x30 ≤ hexDigit upper nibble ∧ hexDigit upper nibble ≤ 0x39 ∧
          hexDigit upper nibble - 0x30 = nibble.setWidth 8) ∨
        ¬(0x30 ≤ hexDigit upper nibble ∧ hexDigit upper nibble ≤ 0x39) ∧
          hexValue (hexDigit upper nibble) 0 = nibble.setWidth 8 ∧
          (0x41 ≤ hexDigit upper nibble ∧ hexDigit upper nibble ≤ 0x46 ∨
            0x61 ≤ hexDigit upper nibble ∧ hexDigit upper nibble ≤ 0x66) := by decide
  intro upper nibble previous
  rcases digits upper nibble with ⟨low, high, value⟩ | ⟨other, value, letter⟩
  · rw [hexValue, if_pos ⟨low, high⟩, value]
  · rw [hexValue, if_neg other] at value ⊢
    rcases letter with capital | small
    · rw [if_pos capital] at value ⊢
      exact value
    · rw [if_pos small] at value ⊢
      exact value

theorem hexDigit_continues (upper : Bool) (nibble : BitVec 4) :
    ¬(hexDigit upper nibble = 0 ∨ hexDigit upper nibble = 0x20) := by
  revert upper nibble
  decide

theorem nibbles_value (byte : BitVec 8) :
    ((highNibble byte).setWidth 8).setWidth 32 * 16 + ((lowNibble byte).setWidth 8).setWidth 32 =
      byte.setWidth 32 := by
  revert byte
  decide

/-- `atoh` reads a digit. -/
theorem atohLoop_digit (upper : Bool) (nibble : BitVec 4) (rest : List (BitVec 8))
    (lChar : BitVec 8) (lValue : BitVec 32) :
    atohLoop (hexDigit upper nibble :: rest) lChar lValue =
      atohLoop rest (nibble.setWidth 8) (lValue * 16 + (nibble.setWidth 8).setWidth 32) := by
  rw [atohLoop, if_neg (hexDigit_continues upper nibble), hexValue_hexDigit]

/-- `atoh` reads bytes up to the NUL. -/
theorem atohLoop_hexText (upper : Nat → Bool) (bytes : List (BitVec 8)) (lChar : BitVec 8)
    (lValue : BitVec 32) :
    atohLoop (hexText upper bytes ++ [0]) lChar lValue =
      bytes.foldl (fun number byte => number * 256 + byte.setWidth 32) lValue := by
  induction bytes generalizing upper lChar lValue with
  | nil => rfl
  | cons byte bytes inductionHypothesis =>
      have value : (lValue * 16 + ((highNibble byte).setWidth 8).setWidth 32) * 16 +
          ((lowNibble byte).setWidth 8).setWidth 32 = lValue * 256 + byte.setWidth 32 := by
        rw [← nibbles_value byte]
        ring
      rw [hexText, List.cons_append, List.cons_append, atohLoop_digit, atohLoop_digit,
        inductionHypothesis, value, List.foldl_cons]

theorem bigEndian_singleton (byte : BitVec 8) : bigEndian [byte] = byte.setWidth 32 := by
  change 0 * 256 + byte.setWidth 32 = _
  rw [zero_mul, zero_add]

theorem setWidth_addData (chkSum : BitVec 16) (bytes : List (BitVec 8)) :
    (UartProtocol.addData chkSum bytes).setWidth 8 =
      bytes.foldl (· + ·) (chkSum.setWidth 8) := by
  induction bytes generalizing chkSum with
  | nil => rfl
  | cons byte bytes inductionHypothesis =>
      have added : (chkSum + byte.setWidth 16).setWidth 8 = chkSum.setWidth 8 + byte := by
        rw [BitVec.setWidth_add _ _ (by decide), BitVec.setWidth_setWidth_of_le _ (by decide),
          BitVec.setWidth_eq]
      rw [UartProtocol.addData, List.foldl_cons, List.foldl_cons, ← added]
      exact inductionHypothesis _

/-- A byte of a number, the least significant one first. -/
def byteAt (number : BitVec 32) (position : Nat) : BitVec 8 :=
  (number >>> (8 * position)).setWidth 8

@[simp] theorem byteAt_zero (position : Nat) : byteAt 0 position = 0 := by
  simp [byteAt]

theorem toNat_shifted (number : BitVec 32) (byte : BitVec 8) :
    (number * 256 + byte.setWidth 32).toNat = (number.toNat * 256 + byte.toNat) % 2 ^ 32 := by
  rw [BitVec.toNat_add, BitVec.toNat_mul, BitVec.toNat_setWidth]
  change (number.toNat * 256 % 2 ^ 32 + byte.toNat % 2 ^ 32) % 2 ^ 32 = _
  omega

@[simp] theorem byteAt_last (number : BitVec 32) (byte : BitVec 8) :
    byteAt (number * 256 + byte.setWidth 32) 0 = byte := by
  apply BitVec.eq_of_toNat_eq
  rw [byteAt, BitVec.toNat_setWidth, Nat.mul_zero, BitVec.ushiftRight_zero, toNat_shifted]
  omega

theorem byteAt_before (number : BitVec 32) (byte : BitVec 8) {position : Nat}
    (inside : position < 3) :
    byteAt (number * 256 + byte.setWidth 32) (position + 1) = byteAt number position := by
  apply BitVec.eq_of_toNat_eq
  rw [byteAt, byteAt, BitVec.toNat_setWidth, BitVec.toNat_setWidth, BitVec.toNat_ushiftRight,
    BitVec.toNat_ushiftRight, toNat_shifted, Nat.shiftRight_eq_div_pow, Nat.shiftRight_eq_div_pow]
  interval_cases position <;> omega

theorem setWidth_masked (number : BitVec 32) :
    ((number &&& 0xFF).setWidth 16).setWidth 8 = number.setWidth 8 := by
  rw [BitVec.setWidth_setWidth_of_le _ (by decide), BitVec.setWidth_and]
  exact BitVec.and_allOnes

theorem setWidth_addAddress (chkSum : BitVec 16) (number : BitVec 32) :
    (UartProtocol.addAddress chkSum number).setWidth 8 =
      chkSum.setWidth 8 + byteAt number 0 + byteAt number 1 + byteAt number 2 +
        byteAt number 3 := by
  rw [UartProtocol.addAddress, BitVec.ushiftRight_and_distrib, BitVec.ushiftRight_and_distrib,
    BitVec.ushiftRight_and_distrib]
  simp only [BitVec.setWidth_add _ _ (show 8 ≤ 16 by decide)]
  change chkSum.setWidth 8 + ((number &&& 0xFF).setWidth 16).setWidth 8 +
    ((number >>> 8 &&& 0xFF).setWidth 16).setWidth 8 +
    ((number >>> 16 &&& 0xFF).setWidth 16).setWidth 8 +
    ((number >>> 24 &&& 0xFF).setWidth 16).setWidth 8 = _
  simp only [setWidth_masked]
  rfl

/-- The check sum takes in the bytes of an address. -/
theorem addAddress_bigEndian (chkSum : BitVec 16) {bytes : List (BitVec 8)}
    (several : 2 ≤ bytes.length) (fits : bytes.length ≤ 4) :
    (UartProtocol.addAddress chkSum (bigEndian bytes)).setWidth 8 =
      bytes.foldl (· + ·) (chkSum.setWidth 8) := by
  rw [setWidth_addAddress]
  match bytes, several, fits with
  | [first, second], _, _ =>
      simp only [bigEndian, List.foldl_cons, List.foldl_nil, byteAt_last, byteAt_before,
        byteAt_zero, Nat.reduceLT]
      ring
  | [first, second, third], _, _ =>
      simp only [bigEndian, List.foldl_cons, List.foldl_nil, byteAt_last, byteAt_before,
        byteAt_zero, Nat.reduceLT]
      ring
  | [first, second, third, fourth], _, _ =>
      simp only [bigEndian, List.foldl_cons, List.foldl_nil, byteAt_last, byteAt_before,
        Nat.reduceLT]
      ring

/-! ## Fields

The parser reads a field without acting on anything else. -/

/-- The characters in the conversion buffer. -/
structure Filled (protocol : UartProtocol) (chars : List (BitVec 8)) : Prop where
  index : protocol.fillIndex = BitVec.ofNat 16 chars.length
  held : (List.range chars.length).map protocol.convToHexBuf = chars

theorem filled_nil {protocol : UartProtocol} (empty : protocol.fillIndex = 0) :
    Filled protocol [] where
  index := empty
  held := rfl

section Filled

variable {protocol : UartProtocol} {chars : List (BitVec 8)}

theorem Filled.toNat_fillIndex (filled : Filled protocol chars)
    (small : chars.length < 2 ^ 16) : protocol.fillIndex.toNat = chars.length := by
  rw [filled.index, BitVec.toNat_ofNat]
  exact Nat.mod_eq_of_lt small

theorem Filled.putChar (filled : Filled protocol chars) (small : chars.length < 2 ^ 16)
    (lChar : BitVec 8) : Filled (protocol.putChar lChar) (chars ++ [lChar]) where
  index := by
    rw [List.length_append]
    change protocol.fillIndex + 1 = _
    rw [filled.index, BitVec.ofNat_add]
    rfl
  held := by
    rw [List.length_append, List.length_singleton, List.range_succ, List.map_append]
    change (List.range chars.length).map
        (Function.update protocol.convToHexBuf protocol.fillIndex.toNat lChar) ++
      [Function.update protocol.convToHexBuf protocol.fillIndex.toNat lChar chars.length] = _
    rw [filled.toNat_fillIndex small, Function.update_self]
    refine congrArg (· ++ [lChar]) (Eq.trans (List.map_congr_left ?_) filled.held)
    intro position inside
    exact Function.update_of_ne (Nat.ne_of_lt (List.mem_range.mp inside)) ..

theorem Filled.converted (filled : Filled protocol chars) (small : chars.length < 2 ^ 16) :
    protocol.converted = atohLoop chars 0 0 := by
  rw [UartProtocol.converted, atoh, filled.toNat_fillIndex small, filled.held]

/-- The number in the buffer once the NUL stands behind its digits. -/
theorem Filled.number (upper : Nat → Bool) {bytes : List (BitVec 8)}
    (filled : Filled protocol (hexText upper bytes)) (small : bytes.length < 256) :
    (protocol.putChar 0).converted = bigEndian bytes := by
  have inside : (hexText upper bytes).length < 2 ^ 16 - 1 := by
    rw [length_hexText]
    omega
  rw [(filled.putChar (by omega) 0).converted, atohLoop_hexText]
  · rfl
  · rw [List.length_append, List.length_singleton]
    omega

end Filled

/-- The characters are read without an effect, up to a state of the parser. -/
def Reads (boot : UartBoot) (chars : List (BitVec 8)) (goal : UartProtocol → Prop) : Prop :=
  ∃ protocol, chars.foldl UartBoot.receive boot = { boot with protocol := protocol } ∧
    goal protocol

section Reads

variable {boot : UartBoot} {goal later : UartProtocol → Prop}

theorem Reads.nil (holds : goal boot.protocol) : Reads boot [] goal := ⟨_, rfl, holds⟩

theorem Reads.cons {lChar : BitVec 8} {rest : List (BitVec 8)} {protocol : UartProtocol}
    (next : boot.receive lChar = { boot with protocol := protocol })
    (reads : Reads { boot with protocol := protocol } rest goal) :
    Reads boot (lChar :: rest) goal := by
  rcases reads with ⟨final, run, holds⟩
  refine ⟨final, ?_, holds⟩
  rw [List.foldl_cons, next, run]

theorem Reads.append {chars rest : List (BitVec 8)} (reads : Reads boot chars goal)
    (next : ∀ protocol, goal protocol → Reads { boot with protocol := protocol } rest later) :
    Reads boot (chars ++ rest) later := by
  rcases reads with ⟨middle, run, holds⟩
  rcases next middle holds with ⟨final, runNext, holdsNext⟩
  refine ⟨final, ?_, holdsNext⟩
  rw [List.foldl_append, run, runNext]

theorem Reads.mono {chars : List (BitVec 8)} (reads : Reads boot chars goal)
    (weaker : ∀ protocol, goal protocol → later protocol) : Reads boot chars later := by
  rcases reads with ⟨final, run, holds⟩
  exact ⟨final, run, weaker final holds⟩

end Reads

section Receive

variable {boot : UartBoot} (running : boot.world.jumpedTo = none)

include running

theorem receive_getRecordType (state : boot.protocol.state = .getRecordType) (lChar : BitVec 8) :
    boot.receive lChar = { boot with protocol := boot.protocol.getRecordType lChar } := by
  rw [UartBoot.receive, if_pos running, UartBoot.processUartProtocolFrames, state]

theorem receive_getCount (state : boot.protocol.state = .getCount) (lChar : BitVec 8) :
    boot.receive lChar = { boot with protocol := boot.protocol.getCount lChar } := by
  rw [UartBoot.receive, if_pos running, UartBoot.processUartProtocolFrames, state]

theorem receive_getDestinationAddress (state : boot.protocol.state = .getDestinationAddress)
    (lChar : BitVec 8) :
    boot.receive lChar = { boot with protocol := boot.protocol.getDestinationAddress lChar } := by
  rw [UartBoot.receive, if_pos running, UartBoot.processUartProtocolFrames, state]

theorem receive_getData (state : boot.protocol.state = .getData) (lChar : BitVec 8) :
    boot.receive lChar = { boot with protocol := boot.protocol.getData lChar } := by
  rw [UartBoot.receive, if_pos running, UartBoot.processUartProtocolFrames, state]

theorem receive_getCrc (state : boot.protocol.state = .getCrc) (lChar : BitVec 8) :
    boot.receive lChar = boot.getCrc lChar := by
  rw [UartBoot.receive, if_pos running, UartBoot.processUartProtocolFrames, state]

theorem receive_getTerminationCharacter (state : boot.protocol.state = .getTerminationCharacter)
    (lChar : BitVec 8) :
    boot.receive lChar = { boot with protocol := boot.protocol.getTerminationCharacter } := by
  rw [UartBoot.receive, if_pos running, UartBoot.processUartProtocolFrames, state]

end Receive

/-- Before the count of a record, with the size the address is taken to have. -/
structure AtCount (type : RecordType) (size : Nat) (protocol : UartProtocol) : Prop where
  state : protocol.state = .getCount
  type : protocol.sRecordType = type.char
  addressSize : protocol.destinationAddressSizeInBytes = BitVec.ofNat 16 size
  empty : protocol.fillIndex = 0
  chkSum : protocol.calculatedChkSum = 0

/-- In the address of a record. -/
structure AtAddress (record : SRecord) (size : Nat) (read : List (BitVec 8))
    (protocol : UartProtocol) : Prop where
  state : protocol.state = .getDestinationAddress
  type : protocol.sRecordType = record.type.char
  addressSize : protocol.destinationAddressSizeInBytes = BitVec.ofNat 16 size
  dataCount : protocol.dataCountInBytes =
    BitVec.ofNat 16 (record.addressField.length + record.data.length) - BitVec.ofNat 16 size
  filled : Filled protocol read
  chkSum : protocol.calculatedChkSum.setWidth 8 = record.count

theorem setWidth_count (record : SRecord) :
    (record.count.setWidth 32).setWidth 16 =
      BitVec.ofNat 16 (record.addressField.length + record.data.length) + 1 := by
  have fits := record.fits
  apply BitVec.eq_of_toNat_eq
  rw [BitVec.setWidth_setWidth_of_le _ (by decide), BitVec.toNat_setWidth, SRecord.count,
    BitVec.toNat_ofNat, BitVec.toNat_add, BitVec.toNat_ofNat]
  change _ = (_ + 1) % 2 ^ 16
  omega

/-- The first digit of the count is kept. -/
theorem getCount_inside {protocol : UartProtocol} {lChar : BitVec 8}
    (inside : (protocol.putChar lChar).fillIndex = 1) :
    protocol.getCount lChar = protocol.putChar lChar :=
  if_neg (by rw [inside]; decide)

/-- The second digit completes the count. -/
theorem getCount_ends {protocol : UartProtocol} {lChar : BitVec 8}
    (ends : (protocol.putChar lChar).fillIndex = 2) {total : BitVec 16}
    (number : ((protocol.putChar lChar).putChar 0).converted.setWidth 16 = total) :
    protocol.getCount lChar =
      { (protocol.putChar lChar).putChar 0 with
        totalCountInBytes := total
        dataCountInBytes := total - protocol.destinationAddressSizeInBytes - 1
        fillIndex := 0
        calculatedChkSum := protocol.calculatedChkSum + total
        state := .getDestinationAddress } := by
  rw [← number]
  exact if_pos (by rw [ends]; decide)

/-- The count is read. -/
theorem reads_count {boot : UartBoot} (running : boot.world.jumpedTo = none) {record : SRecord}
    {size : Nat} (count : AtCount record.type size boot.protocol) (upper : Nat → Bool) :
    Reads boot (hexText upper [record.count]) (AtAddress record size []) := by
  have first : Filled (boot.protocol.putChar (hexDigit (upper 0) (highNibble record.count)))
      [hexDigit (upper 0) (highNibble record.count)] :=
    (filled_nil count.empty).putChar (Nat.two_pow_pos 16) _
  have second : Filled
      ((boot.protocol.putChar (hexDigit (upper 0) (highNibble record.count))).putChar
        (hexDigit (upper 1) (lowNibble record.count)))
      (hexText upper [record.count]) :=
    first.putChar (Nat.one_lt_two_pow (by decide)) _
  have number := second.number upper (by simp)
  have total := number.trans (bigEndian_singleton record.count)
  have before := (receive_getCount running count.state _).trans
    (congrArg (fun protocol => { boot with protocol := protocol }) (getCount_inside first.index))
  refine .cons before
    (.cons (receive_getCount (by exact running) (by exact count.state) _) (.nil ?_))
  rw [getCount_ends second.index (congrArg (BitVec.setWidth 16) total)]
  exact {
    state := rfl
    type := count.type
    addressSize := count.addressSize
    dataCount := by
      change (record.count.setWidth 32).setWidth 16 - boot.protocol.destinationAddressSizeInBytes -
        1 = _
      rw [setWidth_count, count.addressSize]
      ring
    filled := filled_nil rfl
    chkSum := by
      change
        (boot.protocol.calculatedChkSum + (record.count.setWidth 32).setWidth 16).setWidth 8 = _
      rw [count.chkSum, zero_add, BitVec.setWidth_setWidth_of_le _ (by decide),
        BitVec.setWidth_setWidth_of_le _ (by decide), BitVec.setWidth_eq] }

/-- After the address of a record. -/
structure AddressRead (record : SRecord) (protocol : UartProtocol) : Prop where
  state : protocol.state = UartProtocol.afterAddress record.type.char .getDestinationAddress
  type : protocol.sRecordType = record.type.char
  address : protocol.destinationAddress = record.address
  dataCount : protocol.dataCountInBytes = BitVec.ofNat 16 record.data.length
  stored : protocol.memoryWriteBufIndex = 0
  counter : protocol.dataRxdCounterInCharacters = 0
  empty : protocol.fillIndex = 0
  chkSum : protocol.calculatedChkSum.setWidth 8 = byteSum (record.count :: record.addressField)

/-- A digit before the last one of an address is kept. -/
theorem getDestinationAddress_inside {protocol : UartProtocol} {lChar : BitVec 8}
    (inside : (protocol.putChar lChar).fillIndex.toNat <
      2 * protocol.destinationAddressSizeInBytes.toNat) :
    protocol.getDestinationAddress lChar = protocol.putChar lChar :=
  if_neg (Nat.not_le.mpr inside)

/-- The last digit completes the address. -/
theorem getDestinationAddress_ends {protocol : UartProtocol} {lChar : BitVec 8}
    (ends : 2 * protocol.destinationAddressSizeInBytes.toNat ≤
      (protocol.putChar lChar).fillIndex.toNat) {address : BitVec 32}
    (number : ((protocol.putChar lChar).putChar 0).converted = address) :
    protocol.getDestinationAddress lChar =
      { (protocol.putChar lChar).putChar 0 with
        destinationAddress := address
        calculatedChkSum := UartProtocol.addAddress protocol.calculatedChkSum address
        fillIndex := 0
        dataRxdCounterInCharacters := 0
        memoryWriteBufIndex := 0
        state := UartProtocol.afterAddress protocol.sRecordType protocol.state } := by
  rw [← number]
  exact if_pos ends

theorem RecordType.addressBytes_bounds (type : RecordType) :
    2 ≤ type.addressBytes ∧ type.addressBytes ≤ 4 := by
  cases type <;> decide

theorem AtAddress.toNat_size {record : SRecord} {read : List (BitVec 8)}
    {protocol : UartProtocol}
    (inAddress : AtAddress record record.addressField.length read protocol) :
    protocol.destinationAddressSizeInBytes.toNat = record.addressField.length := by
  have fits := record.fits
  rw [inAddress.addressSize, BitVec.toNat_ofNat]
  omega

theorem AtAddress.next {record : SRecord} {size : Nat} {read : List (BitVec 8)}
    {protocol : UartProtocol} (inAddress : AtAddress record size read protocol)
    (small : read.length < 2 ^ 16) (lChar : BitVec 8) :
    AtAddress record size (read ++ [lChar]) (protocol.putChar lChar) where
  state := inAddress.state
  type := inAddress.type
  addressSize := inAddress.addressSize
  dataCount := inAddress.dataCount
  filled := inAddress.filled.putChar small lChar
  chkSum := inAddress.chkSum

/-- The address is complete. -/
theorem AtAddress.complete {record : SRecord} {read : List (BitVec 8)} {upper : Nat → Bool}
    {protocol : UartProtocol}
    (inAddress : AtAddress record record.addressField.length read protocol)
    {lChar : BitVec 8} (all : read ++ [lChar] = hexText upper record.addressField) :
    AddressRead record (protocol.getDestinationAddress lChar) := by
  have fits := record.fits
  have lengths : read.length + 1 = 2 * record.addressField.length := by
    rw [← length_hexText upper, ← all, List.length_append, List.length_singleton]
  have filled : Filled (protocol.putChar lChar) (hexText upper record.addressField) := by
    rw [← all]
    exact inAddress.filled.putChar (by omega) lChar
  have ends : 2 * protocol.destinationAddressSizeInBytes.toNat ≤
      (protocol.putChar lChar).fillIndex.toNat := by
    rw [inAddress.toNat_size, filled.toNat_fillIndex, length_hexText]
    rw [length_hexText]
    omega
  have bounds := record.type.addressBytes_bounds
  rw [getDestinationAddress_ends ends (filled.number upper (by omega))]
  exact {
    state := by
      change UartProtocol.afterAddress protocol.sRecordType protocol.state = _
      rw [inAddress.type, inAddress.state]
    type := inAddress.type
    address := rfl
    dataCount := by
      refine inAddress.dataCount.trans ?_
      rw [Nat.add_comm, BitVec.ofNat_add]
      ring
    stored := rfl
    counter := rfl
    empty := rfl
    chkSum := by
      rw [← record.addressLength] at bounds
      refine (addAddress_bigEndian _ bounds.1 bounds.2).trans ?_
      rw [inAddress.chkSum, byteSum, List.foldl_cons, zero_add] }

/-- The address is read. -/
theorem reads_address {boot : UartBoot} (running : boot.world.jumpedTo = none) {record : SRecord}
    {upper : Nat → Bool} {read rest : List (BitVec 8)}
    (inAddress : AtAddress record record.addressField.length read boot.protocol)
    (some : rest ≠ []) (all : read ++ rest = hexText upper record.addressField) :
    Reads boot rest (AddressRead record) := by
  induction rest generalizing boot read with
  | nil => exact absurd rfl some
  | cons lChar rest inductionHypothesis =>
      have fits := record.fits
      have lengths : read.length + (rest.length + 1) = 2 * record.addressField.length := by
        rw [← length_hexText upper, ← all, List.length_append, List.length_cons]
      have received := receive_getDestinationAddress running inAddress.state lChar
      cases rest with
      | nil => exact .cons received (.nil (inAddress.complete all))
      | cons second rest =>
          have next := inAddress.next (by omega) lChar
          have inside : (boot.protocol.putChar lChar).fillIndex.toNat <
              2 * boot.protocol.destinationAddressSizeInBytes.toNat := by
            rw [inAddress.toNat_size, next.filled.toNat_fillIndex] <;>
              rw [List.length_append, List.length_singleton] <;>
              rw [List.length_cons] at lengths <;>
              omega
          rw [getDestinationAddress_inside inside] at received
          refine .cons received
            (inductionHypothesis (by exact running) next (List.cons_ne_nil _ _) ?_)
          rw [List.append_assoc]
          exact all

/-- In the data of a record, of which some bytes were received. -/
structure AtData (record : SRecord) (read : List (BitVec 8)) (protocol : UartProtocol) :
    Prop where
  state : protocol.state = .getData
  type : protocol.sRecordType = record.type.char
  address : protocol.destinationAddress = record.address
  dataCount : protocol.dataCountInBytes = BitVec.ofNat 16 record.data.length
  stored : protocol.memoryWriteBufIndex = BitVec.ofNat 16 read.length
  bytes : (List.range read.length).map protocol.memoryWriteBuf = read
  counter : protocol.dataRxdCounterInCharacters = BitVec.ofNat 16 (2 * read.length)
  empty : protocol.fillIndex = 0
  chkSum : protocol.calculatedChkSum.setWidth 8 = byteSum (record.count :: record.addressField)

/-- Before the check sum of a record. -/
structure AtCrc (record : SRecord) (protocol : UartProtocol) : Prop where
  state : protocol.state = .getCrc
  type : protocol.sRecordType = record.type.char
  address : protocol.destinationAddress = record.address
  received : protocol.received = record.data
  empty : protocol.fillIndex = 0
  chkSum : protocol.calculatedChkSum.setWidth 8 = byteSum record.summed

theorem AddressRead.inData {record : SRecord} {protocol : UartProtocol}
    (read : AddressRead record protocol) (hasData : record.type.hasData = true) :
    AtData record [] protocol where
  state := by
    rw [read.state]
    revert hasData
    cases record.type <;> decide
  type := read.type
  address := read.address
  dataCount := read.dataCount
  stored := read.stored
  bytes := rfl
  counter := read.counter
  empty := read.empty
  chkSum := read.chkSum

theorem AddressRead.inCrc {record : SRecord} {protocol : UartProtocol}
    (read : AddressRead record protocol) (terminates : record.type.isTerminator = true) :
    AtCrc record protocol where
  state := by
    rw [read.state]
    revert terminates
    cases record.type <;> decide
  type := read.type
  address := read.address
  received := by
    have noData := record.noData (by revert terminates; cases record.type <;> decide)
    rw [UartProtocol.received, read.stored, noData]
    rfl
  empty := read.empty
  chkSum := by
    have noData := record.noData (by revert terminates; cases record.type <;> decide)
    rw [SRecord.summed, noData, List.append_nil]
    exact read.chkSum

/-- A first digit is kept. -/
theorem putData_first {protocol : UartProtocol} (empty : protocol.fillIndex = 0)
    (lChar : BitVec 8) : protocol.putData lChar = protocol.putChar lChar := by
  refine if_neg ?_
  change ¬protocol.fillIndex + 1 = 2
  rw [empty]
  decide

/-- A second digit completes a byte. -/
theorem putData_second {protocol : UartProtocol} {lChar : BitVec 8}
    (ends : (protocol.putChar lChar).fillIndex = 2) {byte : BitVec 8}
    (number : ((protocol.putChar lChar).putChar 0).converted.setWidth 8 = byte) :
    protocol.putData lChar =
      { (protocol.putChar lChar).putChar 0 with
        memoryWriteBuf :=
          Function.update protocol.memoryWriteBuf protocol.memoryWriteBufIndex.toNat byte
        memoryWriteBufIndex := protocol.memoryWriteBufIndex + 1
        fillIndex := 0 } := by
  rw [← number]
  exact if_pos ends

theorem getData_inside {protocol : UartProtocol} {lChar : BitVec 8}
    (inside : (protocol.dataRxdCounterInCharacters + 1).toNat <
      2 * protocol.dataCountInBytes.toNat) :
    protocol.getData lChar =
      { protocol.putData lChar with
        dataRxdCounterInCharacters := protocol.dataRxdCounterInCharacters + 1 } :=
  if_neg (Nat.not_le.mpr inside)

theorem getData_ends {protocol : UartProtocol} {lChar : BitVec 8}
    (ends : 2 * protocol.dataCountInBytes.toNat ≤
      (protocol.dataRxdCounterInCharacters + 1).toNat) :
    protocol.getData lChar =
      { protocol.putData lChar with
        calculatedChkSum :=
          UartProtocol.addData protocol.calculatedChkSum (protocol.putData lChar).received
        fillIndex := 0
        dataRxdCounterInCharacters := 0
        state := .getCrc } :=
  if_pos ends

/-- The parser between the two digits of a byte. -/
def betweenDigits (protocol : UartProtocol) (lChar : BitVec 8) : UartProtocol :=
  { protocol.putChar lChar with
    dataRxdCounterInCharacters := protocol.dataRxdCounterInCharacters + 1 }

namespace AtData

variable {record : SRecord} {read : List (BitVec 8)} {protocol : UartProtocol}

theorem received_eq (inData : AtData record read protocol) (small : read.length < 2 ^ 16) :
    protocol.received = read := by
  rw [UartProtocol.received, inData.stored, BitVec.toNat_ofNat, Nat.mod_eq_of_lt small]
  exact inData.bytes

theorem toNat_dataCount (inData : AtData record read protocol) :
    protocol.dataCountInBytes.toNat = record.data.length := by
  have fits := record.fits
  rw [inData.dataCount, BitVec.toNat_ofNat]
  omega

theorem toNat_counter (inData : AtData record read protocol) (small : read.length < 256) :
    (protocol.dataRxdCounterInCharacters + 1).toNat = 2 * read.length + 1 ∧
      (protocol.dataRxdCounterInCharacters + 1 + 1).toNat = 2 * read.length + 2 := by
  have counter : protocol.dataRxdCounterInCharacters.toNat = 2 * read.length := by
    rw [inData.counter, BitVec.toNat_ofNat]
    omega
  constructor
  · rw [BitVec.toNat_add, counter]
    change (_ + 1) % 2 ^ 16 = _
    omega
  · rw [BitVec.toNat_add, BitVec.toNat_add, counter]
    change ((_ + 1) % 2 ^ 16 + 1) % 2 ^ 16 = _
    omega

/-- Two digits store a byte. -/
theorem putByte (inData : AtData record read protocol) (small : read.length < 256)
    (upper : Nat → Bool) (byte : BitVec 8) :
    AtData record (read ++ [byte])
      { (betweenDigits protocol (hexDigit (upper 0) (highNibble byte))).putData
          (hexDigit (upper 1) (lowNibble byte)) with
        dataRxdCounterInCharacters := protocol.dataRxdCounterInCharacters + 1 + 1 } := by
  have first : Filled (betweenDigits protocol (hexDigit (upper 0) (highNibble byte)))
      [hexDigit (upper 0) (highNibble byte)] := by
    have filled := (filled_nil inData.empty).putChar (Nat.two_pow_pos 16)
      (hexDigit (upper 0) (highNibble byte))
    exact ⟨filled.index, filled.held⟩
  have second : Filled
      ((betweenDigits protocol (hexDigit (upper 0) (highNibble byte))).putChar
        (hexDigit (upper 1) (lowNibble byte)))
      (hexText upper [byte]) :=
    first.putChar (Nat.one_lt_two_pow (by decide)) _
  have number := (second.number upper (by simp)).trans (bigEndian_singleton byte)
  have narrowed : (byte.setWidth 32).setWidth 8 = byte := by
    rw [BitVec.setWidth_setWidth_of_le _ (by decide), BitVec.setWidth_eq]
  rw [putData_second second.index ((congrArg (BitVec.setWidth 8) number).trans narrowed)]
  have stored : protocol.memoryWriteBufIndex.toNat = read.length := by
    rw [inData.stored, BitVec.toNat_ofNat]
    omega
  exact {
    state := inData.state
    type := inData.type
    address := inData.address
    dataCount := inData.dataCount
    stored := by
      change protocol.memoryWriteBufIndex + 1 = _
      rw [inData.stored, List.length_append, BitVec.ofNat_add]
      rfl
    bytes := by
      change (List.range (read ++ [byte]).length).map
        (Function.update protocol.memoryWriteBuf protocol.memoryWriteBufIndex.toNat byte) = _
      rw [stored, List.length_append, List.length_singleton, List.range_succ, List.map_append,
        List.map_singleton, Function.update_self]
      refine congrArg (· ++ [byte]) (Eq.trans (List.map_congr_left ?_) inData.bytes)
      intro position inside
      exact Function.update_of_ne (Nat.ne_of_lt (List.mem_range.mp inside)) ..
    counter := by
      change protocol.dataRxdCounterInCharacters + 1 + 1 = _
      rw [inData.counter, List.length_append, List.length_singleton, Nat.mul_add, BitVec.ofNat_add,
        add_assoc]
      rfl
    empty := rfl
    chkSum := inData.chkSum }

end AtData

/-- A byte of the data is read. -/
theorem reads_byte {boot : UartBoot} (running : boot.world.jumpedTo = none) {record : SRecord}
    {read later : List (BitVec 8)} {byte : BitVec 8}
    (inData : AtData record read boot.protocol) (data : record.data = read ++ byte :: later)
    (upper : Nat → Bool) :
    Reads boot (hexText upper [byte])
      (if later = [] then AtCrc record else AtData record (read ++ [byte])) := by
  have fits := record.fits
  have lengths : record.data.length = read.length + (later.length + 1) := by
    rw [data, List.length_append, List.length_cons]
  have small : read.length < 256 := by omega
  have counter := inData.toNat_counter small
  have put := inData.putByte small upper byte
  have first : boot.protocol.getData (hexDigit (upper 0) (highNibble byte)) =
      betweenDigits boot.protocol (hexDigit (upper 0) (highNibble byte)) := by
    rw [getData_inside, putData_first inData.empty]
    · rfl
    · rw [counter.1, inData.toNat_dataCount]
      omega
  have before := receive_getData running inData.state (hexDigit (upper 0) (highNibble byte))
  rw [first] at before
  refine .cons before
    (.cons (receive_getData (by exact running) (by exact inData.state) _) (.nil ?_))
  change (if later = [] then AtCrc record else AtData record (read ++ [byte]))
    ((betweenDigits boot.protocol (hexDigit (upper 0) (highNibble byte))).getData
      (hexDigit (upper 1) (lowNibble byte)))
  split
  next last =>
    rw [getData_ends]
    · exact {
        state := rfl
        type := put.type
        address := put.address
        received := by
          rw [data, last]
          exact put.received_eq (by rw [List.length_append, List.length_singleton]; omega)
        empty := rfl
        chkSum := by
          have received :=
            put.received_eq (by rw [List.length_append, List.length_singleton]; omega)
          change (UartProtocol.addData boot.protocol.calculatedChkSum
            (UartProtocol.received _)).setWidth 8 = _
          rw [setWidth_addData, inData.chkSum, SRecord.summed, data, last, byteSum, byteSum,
            List.foldl_cons, List.foldl_cons, List.foldl_append]
          exact congrArg (List.foldl _ _) received }
    · change 2 * boot.protocol.dataCountInBytes.toNat ≤
        (boot.protocol.dataRxdCounterInCharacters + 1 + 1).toNat
      rw [counter.2, inData.toNat_dataCount, lengths, last, List.length_nil]
      omega
  next more =>
    rw [getData_inside]
    · exact put
    · change (boot.protocol.dataRxdCounterInCharacters + 1 + 1).toNat <
        2 * boot.protocol.dataCountInBytes.toNat
      have others := List.length_pos_iff.mpr more
      rw [counter.2, inData.toNat_dataCount, lengths]
      omega

/-- The data is read, where there is any. -/
theorem reads_data {boot : UartBoot} (running : boot.world.jumpedTo = none) {record : SRecord}
    {read rest : List (BitVec 8)} (inData : AtData record read boot.protocol)
    (some : rest ≠ []) (data : record.data = read ++ rest) (upper : Nat → Bool) :
    Reads boot (hexText upper rest) (AtCrc record) := by
  induction rest generalizing boot read upper with
  | nil => exact absurd rfl some
  | cons byte rest inductionHypothesis =>
      have first := reads_byte running inData data upper
      cases rest with
      | nil => exact first.mono fun _ inCrc => inCrc
      | cons second rest =>
          rw [if_neg (List.cons_ne_nil _ _)] at first
          have continues : ∀ protocol, AtData record (read ++ [byte]) protocol →
              Reads { boot with protocol := protocol }
                (hexText (fun position => upper (position + 2)) (second :: rest))
                (AtCrc record) := by
            intro protocol later
            have all : record.data = (read ++ [byte]) ++ second :: rest := by
              rw [data, List.append_assoc]
              rfl
            exact inductionHypothesis (by exact running) later (List.cons_ne_nil _ _) all _
          exact first.append continues

end CoreVMcu.Boot
