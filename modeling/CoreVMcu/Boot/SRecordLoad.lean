import Mathlib.Tactic.IntervalCases
import CoreVMcu.Boot.SRecordRead

/-!
# Loading S-records

After each record the loader is idle again, it has answered for the record, and the
memory and the jump are as the record says.  This holds of all lists of records but
those with a record that the parser misreads or that it leaves for good.
-/

namespace CoreVMcu.Boot

/-- The world after a record whose check sum was found right. -/
def acceptedWorld (record : SRecord) (world : BootWorld) : BootWorld :=
  if record.address ≠ 0 ∧ record.type.isLoaded then
    { world with
      memory := memcpy world.memory record.address record.data
      uart0 := world.uart0 ++ [okOrNotOk true] }
  else if record.address ≠ 0 ∧ record.type.isTerminator then
    { world with jumpedTo := some record.address }
  else { world with uart0 := world.uart0 ++ [okOrNotOk true] }

/-- The world after a record whose check sum was read as `sum`. -/
def checkedWorld (record : SRecord) (sum : BitVec 8) (world : BootWorld) : BootWorld :=
  if sum = ~~~byteSum record.summed then acceptedWorld record world
  else { world with uart0 := world.uart0 ++ [okOrNotOk false] }

theorem AtCrc.accepted {record : SRecord} {boot : UartBoot} (inCrc : AtCrc record boot.protocol) :
    boot.accepted = acceptedWorld record boot.world := by
  have loaded : (record.type.char = 0x31 ∨ record.type.char = 0x32 ∨ record.type.char = 0x33) ↔
      record.type.isLoaded = true := by
    cases record.type <;> decide
  have terminates :
      (record.type.char = 0x37 ∨ record.type.char = 0x38 ∨ record.type.char = 0x39) ↔
        record.type.isTerminator = true := by
    cases record.type <;> decide
  simp only [UartBoot.accepted, inCrc.type, inCrc.address, inCrc.received, loaded, terminates,
    acceptedWorld]
  by_cases zero : record.address = 0
  · rw [if_neg (not_not.mpr zero), if_neg fun loads => loads.1 zero,
      if_neg fun loads => loads.1 zero]
  · simp only [ne_eq, zero, not_false_eq_true, if_true, true_and]

theorem complement_low (chkSum : BitVec 16) :
    chkSum &&& 0xFF ^^^ 0xFF = (~~~chkSum.setWidth 8).setWidth 16 := by
  apply BitVec.eq_of_getLsbD_eq
  intro position inside
  interval_cases position <;> simp

/-- The check sum that the parser computes is the complement of the sum. -/
theorem AtCrc.calculated {record : SRecord} {protocol : UartProtocol}
    (inCrc : AtCrc record protocol) (sum : BitVec 8) :
    protocol.calculatedChkSum &&& 0xFF ^^^ 0xFF = sum.setWidth 16 ↔
      sum = ~~~byteSum record.summed := by
  rw [complement_low, inCrc.chkSum]
  constructor
  · intro same
    have narrowed := congrArg (BitVec.setWidth 8) same
    rw [BitVec.setWidth_setWidth_of_le _ (by decide), BitVec.setWidth_setWidth_of_le _ (by decide),
      BitVec.setWidth_eq, BitVec.setWidth_eq] at narrowed
    exact narrowed.symm
  · intro same
    rw [same]

/-- The parser after the check sum: it waits for the end of the line, unless the program
has jumped. -/
def CheckedTo (world : BootWorld) (protocol : UartProtocol) : Prop :=
  protocol.state = if world.jumpedTo = none then .getTerminationCharacter else .getCrc

/-- The first digit of the check sum is kept. -/
theorem getCrc_inside {boot : UartBoot} {lChar : BitVec 8}
    (inside : (boot.protocol.putChar lChar).fillIndex = 1) :
    boot.getCrc lChar = { boot with protocol := boot.protocol.putChar lChar } :=
  if_neg (by rw [inside]; decide)

/-- The second digit completes the check sum. -/
theorem getCrc_ends {boot : UartBoot} {lChar sum : BitVec 8}
    (ends : (boot.protocol.putChar lChar).fillIndex = 2)
    (number : ((boot.protocol.putChar lChar).putChar 0).converted.setWidth 8 = sum)
    (inCrc : boot.protocol.state = .getCrc) {world : BootWorld}
    (acts : (if boot.protocol.calculatedChkSum &&& 0xFF ^^^ 0xFF = sum.setWidth 16 then
      boot.accepted else boot.rejected) = world) :
    ∃ protocol, boot.getCrc lChar = { boot with protocol := protocol, world := world } ∧
      CheckedTo world protocol := by
  have counted : 2 ≤ (boot.protocol.putChar lChar).fillIndex := by
    rw [ends]
    decide
  simp only [UartBoot.getCrc, counted, if_true, number, acts]
  refine ⟨_, rfl, ?_⟩
  rw [CheckedTo]
  split
  · rfl
  · exact inCrc

/-- The check sum is read and acted on. -/
theorem AtCrc.checks {record : SRecord} {boot : UartBoot} (running : boot.world.jumpedTo = none)
    (inCrc : AtCrc record boot.protocol) {first second sum : BitVec 8}
    (number : (atohLoop [first, second, 0] 0 0).setWidth 8 = sum) :
    ∃ protocol, [first, second].foldl UartBoot.receive boot =
        { boot with protocol := protocol, world := checkedWorld record sum boot.world } ∧
      CheckedTo (checkedWorld record sum boot.world) protocol := by
  have filled : Filled (boot.protocol.putChar first) [first] :=
    (filled_nil inCrc.empty).putChar (Nat.two_pow_pos 16) _
  have both : Filled ((boot.protocol.putChar first).putChar second) [first, second] :=
    filled.putChar (Nat.one_lt_two_pow (by decide)) _
  have narrowed : (((boot.protocol.putChar first).putChar second).putChar 0).converted.setWidth 8 =
      sum := by
    rw [(both.putChar (by simp) 0).converted (by simp)]
    exact number
  have acts : (if boot.protocol.calculatedChkSum &&& 0xFF ^^^ 0xFF = sum.setWidth 16 then
      boot.accepted else boot.rejected) = checkedWorld record sum boot.world := by
    rw [checkedWorld, ← inCrc.accepted]
    simp only [inCrc.calculated]
    rfl
  have ended := @getCrc_ends { boot with protocol := boot.protocol.putChar first } second sum
    both.index narrowed inCrc.state _ acts
  rw [List.foldl_cons, List.foldl_cons, List.foldl_nil, receive_getCrc running inCrc.state,
    getCrc_inside filled.index, receive_getCrc (by exact running) (by exact inCrc.state)]
  exact ended

/-- The parser between two records, with every accumulator reset. -/
structure Resting (protocol : UartProtocol) : Prop where
  state : protocol.state = .idle
  type : protocol.sRecordType = 0
  address : protocol.destinationAddress = 0
  addressSize : protocol.destinationAddressSizeInBytes = 0
  total : protocol.totalCountInBytes = 0
  counter : protocol.dataRxdCounterInCharacters = 0
  chkSum : protocol.calculatedChkSum = 0
  crc : protocol.crcVal = 0
  empty : protocol.fillIndex = 0
  stored : protocol.memoryWriteBufIndex = 0

theorem resting_cleared : Resting .cleared :=
  ⟨rfl, rfl, rfl, rfl, rfl, rfl, rfl, rfl, rfl, rfl⟩

theorem resting_terminated (protocol : UartProtocol) : Resting protocol.getTerminationCharacter :=
  ⟨rfl, rfl, rfl, rfl, rfl, rfl, rfl, rfl, rfl, rfl⟩

section LineEnds

variable {boot : UartBoot} (running : boot.world.jumpedTo = none)

include running

/-- A line feed between two records is skipped. -/
theorem skips_lineFeed (idle : boot.protocol.state = .idle) : boot.receive 0x0A = boot := by
  rw [UartBoot.receive, if_pos running, UartBoot.processUartProtocolFrames, idle]
  exact if_neg (by decide)

/-- A first character ends the record, and a line feed after it is skipped. -/
theorem ends_record (state : boot.protocol.state = .getTerminationCharacter) (lineEnd : LineEnd) :
    lineEnd.chars.foldl UartBoot.receive boot =
      { boot with protocol := boot.protocol.getTerminationCharacter } := by
  cases lineEnd with
  | cr => exact receive_getTerminationCharacter running state 0x0D
  | lf => exact receive_getTerminationCharacter running state 0x0A
  | crlf =>
      have ended := receive_getTerminationCharacter running state 0x0D
      change (boot.receive 0x0D).receive 0x0A = _
      rw [ended]
      exact skips_lineFeed (by exact running) rfl

/-- The size the parser takes an address of a type to have. -/
def parsedSize (type : RecordType) : Nat := if type = .s5 then 0 else type.addressBytes

/-- The letter and the digit at the start of a record. -/
theorem reads_header (rest : Resting boot.protocol) (type : RecordType) :
    ∃ protocol, [0x53, type.char].foldl UartBoot.receive boot =
        { boot with
          protocol := protocol, stopUartMsgFlg := true, stopI2cBootLoaderFlg := true } ∧
      AtCount type (parsedSize type) protocol := by
  have letter : boot.receive 0x53 =
      { boot with
        protocol := { boot.protocol with state := .getRecordType }
        stopUartMsgFlg := true
        stopI2cBootLoaderFlg := true } := by
    rw [UartBoot.receive, if_pos running, UartBoot.processUartProtocolFrames, rest.state]
    rfl
  rw [List.foldl_cons, List.foldl_cons, List.foldl_nil, letter,
    receive_getRecordType (by exact running) rfl]
  refine ⟨_, rfl, ?_⟩
  have known : UartProtocol.knownType type.char = true := by
    cases type <;> decide
  rw [UartProtocol.getRecordType, if_pos known]
  exact {
    state := rfl
    type := rfl
    addressSize := by
      change UartProtocol.addressSize type.char boot.protocol.destinationAddressSizeInBytes = _
      rw [rest.addressSize]
      cases type <;> decide
    empty := rfl
    chkSum := rfl }

end LineEnds

/-- A program that has jumped reads nothing. -/
theorem jumped_reads_nothing {boot : UartBoot} (jumped : boot.world.jumpedTo ≠ none)
    (chars : List (BitVec 8)) : chars.foldl UartBoot.receive boot = boot := by
  induction chars with
  | nil => rfl
  | cons lChar chars inductionHypothesis =>
      have stays : boot.receive lChar = boot := if_neg jumped
      rw [List.foldl_cons, stays, inductionHypothesis]

/-! ## Whole records -/

/-- The loader after a record: it is between two records, unless the program has
jumped. -/
structure Ended (world : BootWorld) (boot : UartBoot) : Prop where
  acted : boot.world = world
  rests : world.jumpedTo = none → Resting boot.protocol
  jumped : world.jumpedTo ≠ none → boot.protocol.state = .getCrc

/-- The check sum is acted on and the line ends. -/
theorem AtCrc.ends_line {record : SRecord} {boot : UartBoot} (running : boot.world.jumpedTo = none)
    (inCrc : AtCrc record boot.protocol) {first second sum : BitVec 8}
    (number : (atohLoop [first, second, 0] 0 0).setWidth 8 = sum) (lineEnd : LineEnd) :
    Ended (checkedWorld record sum boot.world)
      (([first, second] ++ lineEnd.chars).foldl UartBoot.receive boot) := by
  rcases inCrc.checks running number with ⟨protocol, run, checked⟩
  rw [List.foldl_append, run]
  by_cases jumped : (checkedWorld record sum boot.world).jumpedTo = none
  · rw [CheckedTo, if_pos jumped] at checked
    rw [ends_record (by exact jumped) (by exact checked)]
    exact ⟨rfl, fun _ => resting_terminated protocol, fun jumps => absurd jumped jumps⟩
  · rw [CheckedTo, if_neg jumped] at checked
    rw [jumped_reads_nothing (by exact jumped)]
    exact ⟨rfl, fun stays => absurd stays jumped, fun _ => checked⟩

theorem text_fields (record : SRecord) : ∃ addressCase dataCase sumCase,
    record.text = [0x53, record.type.char] ++ (hexText record.upper [record.count] ++
      (hexText addressCase record.addressField ++ (hexText dataCase record.data ++
        (hexText sumCase [record.checkSum] ++ record.lineEnd.chars)))) := by
  have fields : record.summed ++ [record.checkSum] = [record.count] ++
      (record.addressField ++ (record.data ++ [record.checkSum])) := by
    rw [SRecord.summed, List.cons_append, List.append_assoc]
    rfl
  rcases hexText_append record.upper [record.count]
    (record.addressField ++ (record.data ++ [record.checkSum])) with ⟨addressCase, first⟩
  rcases hexText_append addressCase record.addressField
    (record.data ++ [record.checkSum]) with ⟨dataCase, second⟩
  rcases hexText_append dataCase record.data [record.checkSum] with ⟨sumCase, third⟩
  refine ⟨addressCase, dataCase, sumCase, ?_⟩
  rw [SRecord.text, fields, first, second, third]
  simp only [List.append_assoc]

/-- The count and the address are read. -/
theorem reads_countAndAddress {boot : UartBoot} (running : boot.world.jumpedTo = none)
    {record : SRecord} (count : AtCount record.type record.addressField.length boot.protocol)
    (upper addressCase : Nat → Bool) :
    Reads boot (hexText upper [record.count] ++ hexText addressCase record.addressField)
      (AddressRead record) := by
  refine (reads_count running count upper).append fun protocol inAddress => ?_
  refine reads_address (by exact running) (by exact inAddress) ?_ (List.nil_append _)
  have bounds := record.type.addressBytes_bounds
  rw [← record.addressLength] at bounds
  rw [← List.length_pos_iff, length_hexText]
  omega

/-- The two digits of a check sum. -/
theorem sumDigits (sumCase : Nat → Bool) (checkSum : BitVec 8) :
    (atohLoop
      [hexDigit (sumCase 0) (highNibble checkSum), hexDigit (sumCase 1) (lowNibble checkSum), 0]
      0 0).setWidth 8 = checkSum := by
  have read := atohLoop_hexText sumCase [checkSum] 0 0
  rw [show hexText sumCase [checkSum] ++ [0] =
    [hexDigit (sumCase 0) (highNibble checkSum), hexDigit (sumCase 1) (lowNibble checkSum), 0]
    from rfl] at read
  rw [read]
  exact (congrArg (BitVec.setWidth 8) (bigEndian_singleton checkSum)).trans (by
    rw [BitVec.setWidth_setWidth_of_le _ (by decide), BitVec.setWidth_eq])

/-- A record with data, or with a start address, is read and acted on. -/
theorem record_ends {boot : UartBoot} (running : boot.world.jumpedTo = none)
    (rest : Resting boot.protocol) {record : SRecord} (notCount : record.type ≠ .s5)
    (some : record.type.hasData = true → record.data ≠ []) :
    Ended (checkedWorld record record.checkSum boot.world)
      (record.text.foldl UartBoot.receive boot) := by
  rcases text_fields record with ⟨addressCase, dataCase, sumCase, text⟩
  rcases reads_header running rest record.type with ⟨header, runHeader, count⟩
  rw [parsedSize, if_neg notCount, ← record.addressLength] at count
  have fields : Reads
      { boot with protocol := header, stopUartMsgFlg := true, stopI2cBootLoaderFlg := true }
      ((hexText record.upper [record.count] ++ hexText addressCase record.addressField) ++
        hexText dataCase record.data) (AtCrc record) := by
    refine (reads_countAndAddress (by exact running) count _ _).append fun protocol read => ?_
    cases hasData : record.type.hasData with
    | true =>
        exact reads_data (by exact running) (by exact read.inData hasData)
          (some hasData) rfl dataCase
    | false =>
        rw [record.noData hasData]
        refine .nil (read.inCrc ?_)
        revert hasData notCount
        cases record.type <;> decide
  rcases fields with ⟨protocol, runFields, inCrc⟩
  have ended := @AtCrc.ends_line record
    { boot with protocol := protocol, stopUartMsgFlg := true, stopI2cBootLoaderFlg := true }
    running inCrc _ _ _ (sumDigits sumCase record.checkSum) record.lineEnd
  rw [← List.append_assoc (hexText record.upper [record.count]), ← List.append_assoc _
    (hexText dataCase record.data)] at text
  rw [text, List.foldl_append, runHeader, List.foldl_append, runFields]
  exact ended

/-- The check sum that is read when its first digit is taken for data: the second digit,
twice. -/
def repeatedDigit (checkSum : BitVec 8) : BitVec 8 := lowNibble checkSum ++ lowNibble checkSum

/-- The end of a line is no digit, so that `atoh` keeps the digit before it. -/
theorem repeatedDigit_read (sumCase : Bool) (checkSum : BitVec 8) {lineEnd : BitVec 8}
    (ends : lineEnd = 0x0D ∨ lineEnd = 0x0A) :
    (atohLoop [hexDigit sumCase (lowNibble checkSum), lineEnd, 0] 0 0).setWidth 8 =
      repeatedDigit checkSum := by
  have twice : ∀ nibble : BitVec 4,
      ((0 * 16 + (nibble.setWidth 8).setWidth 32) * 16 + (nibble.setWidth 8).setWidth 32 :
        BitVec 32).setWidth 8 = nibble ++ nibble := by decide
  have kept : ∀ previous, hexValue lineEnd previous = previous := by
    intro previous
    rcases ends with rfl | rfl <;> rfl
  have continues : ¬(lineEnd = 0 ∨ lineEnd = 0x20) := by
    rcases ends with rfl | rfl <;> decide
  rw [atohLoop_digit, atohLoop, if_neg continues, kept, atohLoop, if_pos (.inl rfl)]
  exact twice (lowNibble checkSum)

/-- A record that has no data although its type has is taken to have half a byte. -/
theorem AtData.skips {record : SRecord} {protocol : UartProtocol}
    (inData : AtData record [] protocol) (none : record.data = []) (lChar : BitVec 8) :
    AtCrc record (protocol.getData lChar) := by
  have put := putData_first inData.empty lChar
  have received : (protocol.putData lChar).received = [] := by
    rw [put]
    change protocol.received = []
    exact inData.received_eq (by decide)
  rw [getData_ends]
  · exact {
      state := rfl
      type := by
        rw [put]
        exact inData.type
      address := by
        rw [put]
        exact inData.address
      received := by
        rw [none]
        exact received
      empty := rfl
      chkSum := by
        rw [received, SRecord.summed, none, List.append_nil]
        exact inData.chkSum }
  · rw [inData.toNat_dataCount, none]
    exact Nat.zero_le _

theorem checkedWorld_jumpedTo {record : SRecord} (loaded : record.type.isTerminator = false)
    (sum : BitVec 8) (world : BootWorld) :
    (checkedWorld record sum world).jumpedTo = world.jumpedTo := by
  rw [checkedWorld, acceptedWorld, loaded]
  split
  · split
    · rfl
    · split
      next jumps => exact absurd jumps.2 Bool.false_ne_true
      next => rfl
  · rfl

theorem RecordType.not_isTerminator {type : RecordType} (hasData : type.hasData = true) :
    type.isTerminator = false := by
  revert hasData
  cases type <;> decide

/-- What a record without data comes to: it is checked against its second digit twice,
and only a second character of the line end brings the parser back. -/
theorem empty_ends {boot : UartBoot} (running : boot.world.jumpedTo = none)
    (rest : Resting boot.protocol) {record : SRecord} (hasData : record.type.hasData = true)
    (empty : record.data = []) :
    (record.text.foldl UartBoot.receive boot).world =
        checkedWorld record (repeatedDigit record.checkSum) boot.world ∧
      if record.lineEnd = .crlf then
        Resting (record.text.foldl UartBoot.receive boot).protocol
      else (record.text.foldl UartBoot.receive boot).protocol.state = .getTerminationCharacter := by
  rcases text_fields record with ⟨addressCase, dataCase, sumCase, text⟩
  rcases reads_header running rest record.type with ⟨header, runHeader, count⟩
  have notCount : record.type ≠ .s5 := by
    intro isCount
    rw [isCount] at hasData
    exact absurd hasData (by decide)
  rw [parsedSize, if_neg notCount, ← record.addressLength] at count
  have fields : Reads
      { boot with protocol := header, stopUartMsgFlg := true, stopI2cBootLoaderFlg := true }
      ((hexText record.upper [record.count] ++ hexText addressCase record.addressField) ++
        [hexDigit (sumCase 0) (highNibble record.checkSum)]) (AtCrc record) := by
    refine (reads_countAndAddress (by exact running) count _ _).append fun protocol read => ?_
    have inData := read.inData hasData
    exact .cons (receive_getData (by exact running) (by exact inData.state) _)
      (.nil (inData.skips empty _))
  rcases fields with ⟨protocol, runFields, inCrc⟩
  have chars : record.text = [0x53, record.type.char] ++
      (((hexText record.upper [record.count] ++ hexText addressCase record.addressField) ++
        [hexDigit (sumCase 0) (highNibble record.checkSum)]) ++
        hexDigit (sumCase 1) (lowNibble record.checkSum) :: record.lineEnd.chars) := by
    rw [text, empty, List.append_assoc, List.append_assoc]
    rfl
  have stays := checkedWorld_jumpedTo (RecordType.not_isTerminator hasData)
    (repeatedDigit record.checkSum) boot.world
  have checks := fun lineEnd ends => @AtCrc.checks record
    { boot with protocol := protocol, stopUartMsgFlg := true, stopI2cBootLoaderFlg := true }
    running inCrc _ lineEnd _ (repeatedDigit_read (sumCase 1) record.checkSum ends)
  rw [chars, List.foldl_append, runHeader, List.foldl_append, runFields]
  cases record.lineEnd with
  | cr =>
      rcases checks 0x0D (.inl rfl) with ⟨checked, run, state⟩
      rw [CheckedTo, stays, if_pos running] at state
      change _ = _ at run
      rw [LineEnd.chars, run, if_neg (by decide)]
      exact ⟨rfl, state⟩
  | lf =>
      rcases checks 0x0A (.inr rfl) with ⟨checked, run, state⟩
      rw [CheckedTo, stays, if_pos running] at state
      rw [LineEnd.chars, run, if_neg (by decide)]
      exact ⟨rfl, state⟩
  | crlf =>
      rcases checks 0x0D (.inl rfl) with ⟨checked, run, state⟩
      rw [CheckedTo, stays, if_pos running] at state
      change ((List.foldl UartBoot.receive _ [_, 0x0D]).receive 0x0A).world = _ ∧
        if _ then Resting ((List.foldl UartBoot.receive _ [_, 0x0D]).receive 0x0A).protocol else _
      rw [run, receive_getTerminationCharacter (by exact stays.trans running) state, if_pos rfl]
      exact ⟨rfl, resting_terminated checked⟩

/-- A count record is never left: its address is taken to have no digits. -/
theorem count_stays {boot : UartBoot} (running : boot.world.jumpedTo = none)
    (state : boot.protocol.state = .getDestinationAddress)
    (type : boot.protocol.sRecordType = RecordType.s5.char)
    (addressSize : boot.protocol.destinationAddressSizeInBytes = 0) (chars : List (BitVec 8)) :
    (chars.foldl UartBoot.receive boot).protocol.state = .getDestinationAddress := by
  induction chars generalizing boot with
  | nil => exact state
  | cons lChar chars inductionHypothesis =>
      have ends : 2 * boot.protocol.destinationAddressSizeInBytes.toNat ≤
          (boot.protocol.putChar lChar).fillIndex.toNat := by
        rw [addressSize]
        exact Nat.zero_le _
      rw [List.foldl_cons, receive_getDestinationAddress running state,
        getDestinationAddress_ends ends rfl]
      refine inductionHypothesis (by exact running) ?_ type addressSize
      change UartProtocol.afterAddress boot.protocol.sRecordType boot.protocol.state = _
      rw [type, state]
      decide

/-- A count record leaves the parser in its address. -/
theorem count_ends {boot : UartBoot} (running : boot.world.jumpedTo = none)
    (rest : Resting boot.protocol) {record : SRecord} (isCount : record.type = .s5) :
    (record.text.foldl UartBoot.receive boot).protocol.state = .getDestinationAddress := by
  rcases text_fields record with ⟨addressCase, dataCase, sumCase, text⟩
  rcases reads_header running rest record.type with ⟨header, runHeader, count⟩
  rw [parsedSize, if_pos isCount] at count
  rcases @reads_count
    { boot with protocol := header, stopUartMsgFlg := true, stopI2cBootLoaderFlg := true }
    running record 0 count record.upper with ⟨protocol, runCount, inAddress⟩
  rw [text, List.foldl_append, runHeader, List.foldl_append, runCount]
  refine count_stays (by exact running) inAddress.state ?_ inAddress.addressSize _
  rw [← isCount]
  exact inAddress.type

/-! ## Lists of records -/

/-- Copying bytes one after the other writes them from the address on. -/
theorem memcpy_eq_overwrite (memory : BitVec 32 → BitVec 8) (address : BitVec 32)
    {bytes : List (BitVec 8)} (fits : bytes.length < 2 ^ 32) :
    memcpy memory address bytes = overwrite memory address bytes := by
  induction bytes generalizing memory address with
  | nil => rfl
  | cons byte bytes inductionHypothesis =>
      rw [List.length_cons] at fits
      rw [memcpy, inductionHypothesis _ _ (by omega)]
      funext target
      by_cases here : target = address
      · have distance : (address - (address + 1)).toNat = 2 ^ 32 - 1 := by bv_omega
        have outside : bytes.length ≤ (address - (address + 1)).toNat := by omega
        rw [here, overwrite, overwrite, List.getD_eq_getElem?_getD, List.getElem?_eq_none outside,
          Function.update_self, BitVec.sub_self]
        rfl
      · have distance : (target - address).toNat = (target - (address + 1)).toNat + 1 := by bv_omega
        rw [overwrite, overwrite, distance, Function.update_of_ne here]
        rfl

/-- The frame a record is answered with. -/
def SRecord.answer (record : SRecord) : String := okOrNotOk (decide record.Correct)

/-- The loader after a list of records. -/
structure Loaded (memory : BitVec 32 → BitVec 8) (records : List SRecord) (boot : UartBoot) :
    Prop where
  idle : boot.protocol.state = .idle
  answered : boot.world.uart0 = records.map SRecord.answer
  loaded : boot.world.memory = loadAll memory records
  jumped : boot.world.jumpedTo = startAddress records

/-- The loader over the characters of a list of records. -/
def bootRun (memory : BitVec 32 → BitVec 8) (records : List SRecord) : UartBoot :=
  (uartBootMachine memory).run (textOf records)

/-- After each record the loader is as it should be. -/
def LoadsRecords (memory : BitVec 32 → BitVec 8) (records : List SRecord) : Prop :=
  ∀ done later, records = done ++ later → Loaded memory done (bootRun memory done)

/-- A record that is no count record and no correct terminator, and that has data or
whose end is found by chance. -/
structure SRecord.Loadable (record : SRecord) : Prop where
  noCount : record.type ≠ .s5
  noStart : ¬(record.Correct ∧ record.type.isTerminator = true)
  data : record.type.hasData = true → record.data = [] →
    record.lineEnd = .crlf ∧
      (record.Correct ↔ repeatedDigit record.checkSum = ~~~byteSum record.summed)

theorem bootRun_snoc (memory : BitVec 32 → BitVec 8) (records : List SRecord)
    (record : SRecord) :
    bootRun memory (records ++ [record]) =
      record.text.foldl UartBoot.receive (bootRun memory records) := by
  rw [bootRun, textOf, List.flatMap_append, List.flatMap_singleton, Clocked.Machine.run_append]
  rfl

theorem startAddress_snoc {records : List SRecord} {record : SRecord}
    (none : startAddress records = none) :
    startAddress (records ++ [record]) =
      if record.Correct ∧ record.type.isTerminator = true then some record.address else .none := by
  rw [startAddress, Option.map_eq_none_iff] at none
  rw [startAddress, List.find?_append, none, Option.none_or, List.find?_singleton]
  by_cases starts : record.Correct ∧ record.type.isTerminator = true
  · rw [if_pos starts]
    simp [starts]
  · rw [if_neg starts]
    simp [starts]

/-- What a record comes to whose check sum is found as right as it is. -/
theorem checkedWorld_eq {record : SRecord} {sum : BitVec 8}
    (same : record.Correct ↔ sum = ~~~byteSum record.summed)
    (noStart : ¬(record.Correct ∧ record.type.isTerminator = true)) (world : BootWorld) :
    checkedWorld record sum world =
      { memory := record.load world.memory
        uart0 := world.uart0 ++ [record.answer]
        jumpedTo := world.jumpedTo } := by
  have fits := record.fits
  by_cases correct : record.Correct
  · have other : ¬(record.address ≠ 0 ∧ record.type.isTerminator = true) := fun starts =>
      noStart ⟨correct, starts.2⟩
    rw [checkedWorld, if_pos (same.mp correct), acceptedWorld, SRecord.load, SRecord.answer,
      decide_eq_true correct]
    by_cases loads : record.address ≠ 0 ∧ record.type.isLoaded = true
    · rw [if_pos loads, if_pos ⟨correct, loads.2, loads.1⟩, memcpy_eq_overwrite _ _ (by omega)]
    · rw [if_neg loads, if_neg other, if_neg fun all => loads ⟨all.2.2, all.2.1⟩]
  · rw [checkedWorld, if_neg fun found => correct (same.mpr found), SRecord.load,
      if_neg fun all => correct all.1, SRecord.answer, decide_eq_false correct]

theorem answered_checkedWorld {record : SRecord} (loaded : record.type.isTerminator = false)
    (sum : BitVec 8) (world : BootWorld) :
    (checkedWorld record sum world).uart0 =
      world.uart0 ++ [okOrNotOk (decide (sum = ~~~byteSum record.summed))] := by
  rw [checkedWorld, acceptedWorld, loaded]
  split
  next found =>
    rw [decide_eq_true found]
    split
    · rfl
    · rw [if_neg fun starts => Bool.false_ne_true starts.2]
  next missed => rw [decide_eq_false missed]

/-- What the loader has reached after records that it loads. -/
structure Reached (memory : BitVec 32 → BitVec 8) (records : List SRecord) (boot : UartBoot) :
    Prop where
  loaded : Loaded memory records boot
  rests : Resting boot.protocol
  running : boot.world.jumpedTo = none

theorem reached_start (memory : BitVec 32 → BitVec 8) : Reached memory [] (.start memory) where
  loaded := ⟨rfl, rfl, rfl, rfl⟩
  rests := resting_cleared
  running := rfl

section Reached

variable {memory : BitVec 32 → BitVec 8} {records : List SRecord} {boot : UartBoot}
  (reached : Reached memory records boot) {record : SRecord}

include reached

/-- A record whose world is as it should be is loaded. -/
theorem Reached.of_world (noStart : ¬(record.Correct ∧ record.type.isTerminator = true))
    {next : UartBoot} (rests : Resting next.protocol)
    (world : next.world =
      { memory := record.load boot.world.memory
        uart0 := boot.world.uart0 ++ [record.answer]
        jumpedTo := boot.world.jumpedTo }) :
    Reached memory (records ++ [record]) next where
  loaded := {
    idle := rests.state
    answered := by
      rw [world, List.map_append, reached.loaded.answered]
      rfl
    loaded := by
      rw [world, loadAll, List.foldl_append, reached.loaded.loaded]
      rfl
    jumped := by
      have none := reached.loaded.jumped.symm.trans reached.running
      rw [world, startAddress_snoc none, if_neg noStart]
      exact reached.running }
  rests := rests
  running := by
    rw [world]
    exact reached.running

/-- A loadable record is loaded. -/
theorem Reached.loads (loadable : record.Loadable) :
    Reached memory (records ++ [record]) (record.text.foldl UartBoot.receive boot) := by
  by_cases empty : record.type.hasData = true ∧ record.data = []
  · have found := loadable.data empty.1 empty.2
    have ends := empty_ends reached.running reached.rests empty.1 empty.2
    rw [if_pos found.1, checkedWorld_eq found.2 loadable.noStart] at ends
    exact reached.of_world loadable.noStart ends.2 ends.1
  · have ends := record_ends reached.running reached.rests loadable.noCount fun hasData isEmpty =>
      empty ⟨hasData, isEmpty⟩
    have right : record.Correct ↔ record.checkSum = ~~~byteSum record.summed := Iff.rfl
    have world := checkedWorld_eq right loadable.noStart boot.world
    rw [world] at ends
    exact reached.of_world loadable.noStart (ends.rests reached.running) ends.acted

omit reached in
theorem okOrNotOk_inj {left right : Bool} (same : okOrNotOk left = okOrNotOk right) :
    left = right := by
  revert same
  cases left <;> cases right <;> decide

omit reached in
/-- The world after a correct terminator. -/
theorem checkedWorld_start (starts : record.Correct ∧ record.type.isTerminator = true)
    (world : BootWorld) :
    checkedWorld record record.checkSum world =
      if record.address = 0 then { world with uart0 := world.uart0 ++ [okOrNotOk true] }
      else { world with jumpedTo := some record.address } := by
  have notLoaded : record.type.isLoaded ≠ true := by
    intro isLoaded
    have terminates := starts.2
    revert isLoaded terminates
    cases record.type <;> decide
  rw [checkedWorld, if_pos (show record.checkSum = _ from starts.1), acceptedWorld,
    if_neg fun loads => notLoaded loads.2]
  by_cases zero : record.address = 0
  · rw [if_neg fun jumps => jumps.1 zero, if_pos zero]
  · rw [if_pos ⟨zero, starts.2⟩, if_neg zero]

/-- A correct terminator is read and acted on. -/
theorem Reached.start_ends (starts : record.Correct ∧ record.type.isTerminator = true) :
    Ended (checkedWorld record record.checkSum boot.world)
      (record.text.foldl UartBoot.receive boot) := by
  refine record_ends reached.running reached.rests ?_ fun hasData => ?_
  · intro isCount
    rw [isCount] at starts
    exact absurd starts.2 (by decide)
  · rw [RecordType.not_isTerminator hasData] at starts
    exact absurd starts.2 Bool.false_ne_true

/-- After a correct terminator either the program has jumped without an answer, or it
has answered and not jumped. -/
theorem Reached.noStart
    (loaded : Loaded memory (records ++ [record]) (record.text.foldl UartBoot.receive boot)) :
    ¬(record.Correct ∧ record.type.isTerminator = true) := by
  intro starts
  have none := reached.loaded.jumped.symm.trans reached.running
  have ends := reached.start_ends starts
  rw [checkedWorld_start starts] at ends
  by_cases zero : record.address = 0
  · rw [if_pos zero] at ends
    have jumped := loaded.jumped
    rw [ends.acted, startAddress_snoc none, if_pos starts] at jumped
    rw [show boot.world.jumpedTo = .none from reached.running] at jumped
    cases jumped
  · rw [if_neg zero] at ends
    have state := ends.jumped (Option.some_ne_none _)
    rw [loaded.idle] at state
    cases state

/-- Only a loadable record is loaded. -/
theorem Reached.loadable
    (loaded : Loaded memory (records ++ [record]) (record.text.foldl UartBoot.receive boot)) :
    record.Loadable where
  noCount := by
    intro isCount
    have stays := count_ends reached.running reached.rests isCount
    rw [loaded.idle] at stays
    cases stays
  noStart := reached.noStart loaded
  data := by
    intro hasData isEmpty
    have ends := empty_ends reached.running reached.rests hasData isEmpty
    by_cases crlf : record.lineEnd = .crlf
    · refine ⟨crlf, ?_⟩
      have answered := loaded.answered
      rw [ends.1, answered_checkedWorld (RecordType.not_isTerminator hasData),
        reached.loaded.answered, List.map_append] at answered
      have last := okOrNotOk_inj (List.cons.inj (List.append_cancel_left answered)).1
      exact (decide_eq_decide.mp last).symm
    · rw [if_neg crlf, loaded.idle] at ends
      cases ends.2

end Reached

/-- Loadable records are loaded. -/
theorem reached_run (memory : BitVec 32 → BitVec 8) {records : List SRecord}
    (loadable : ∀ record ∈ records, record.Loadable) :
    Reached memory records (bootRun memory records) := by
  induction records using List.reverseRecOn with
  | nil => exact reached_start memory
  | append_singleton records record inductionHypothesis =>
      have before := inductionHypothesis fun earlier member =>
        loadable earlier (List.mem_append_left _ member)
      rw [bootRun_snoc]
      exact before.loads (loadable record (List.mem_append_right _ (List.mem_singleton_self _)))

/-- Records are loaded exactly if each is loadable. -/
theorem loadsRecords_iff (memory : BitVec 32 → BitVec 8) (records : List SRecord) :
    LoadsRecords memory records ↔ ∀ record ∈ records, record.Loadable := by
  constructor
  · induction records using List.reverseRecOn with
    | nil => exact fun _ _ member => (List.not_mem_nil member).elim
    | append_singleton records record inductionHypothesis =>
        intro loads
        have loadable : ∀ earlier ∈ records, earlier.Loadable := by
          refine inductionHypothesis fun done later split => loads done (later ++ [record]) ?_
          rw [split, List.append_assoc]
        have loaded := loads (records ++ [record]) [] (List.append_nil _).symm
        rw [bootRun_snoc] at loaded
        intro member isMember
        rcases List.mem_append.mp isMember with earlier | last
        · exact loadable member earlier
        · rw [List.mem_singleton.mp last]
          exact (reached_run memory loadable).loadable loaded
  · intro loadable done later split
    refine (reached_run memory fun record member => loadable record ?_).loaded
    rw [split]
    exact List.mem_append_left _ member

/-- What a terminator comes to after records that are loaded: the program jumps to its
address, with the memory loaded and all the records before it answered. -/
def JumpsAfter (memory : BitVec 32 → BitVec 8) (records : List SRecord) (terminator : SRecord) :
    Prop :=
  (bootRun memory (records ++ [terminator])).world =
    { memory := loadAll memory records
      uart0 := records.map SRecord.answer
      jumpedTo := some terminator.address }

/-- Records are loaded exactly if each is loadable, and a correct terminator after them
makes the program jump unless its address is zero. -/
theorem uartBoot_loads_iff (memory : BitVec 32 → BitVec 8) (records : List SRecord) :
    (LoadsRecords memory records ↔ ∀ record ∈ records, record.Loadable) ∧
      ∀ terminator : SRecord, (∀ record ∈ records, record.Loadable) →
        terminator.Correct ∧ terminator.type.isTerminator = true → terminator.address ≠ 0 →
          JumpsAfter memory records terminator := by
  refine ⟨loadsRecords_iff memory records, ?_⟩
  intro terminator loadable starts notZero
  have reached := reached_run memory loadable
  have ends := (reached.start_ends starts).acted
  rw [checkedWorld_start starts, if_neg notZero] at ends
  rw [JumpsAfter, bootRun_snoc, ends, reached.loaded.answered, reached.loaded.loaded]

/-- A record with lower-case digits and both characters of the line end. -/
def plainRecord (type : RecordType) (addressField data : List (BitVec 8)) (checkSum : BitVec 8)
    (addressLength : addressField.length = type.addressBytes)
    (noData : type.hasData = false → data = [])
    (fits : addressField.length + data.length + 1 < 256) : SRecord where
  type := type
  addressField := addressField
  data := data
  checkSum := checkSum
  upper := fun _ => false
  lineEnd := .crlf
  addressLength := addressLength
  noData := noData
  fits := fits

/-- One byte for address `0x0102`. -/
def oneByte : SRecord :=
  plainRecord .s1 [0x01, 0x02] [0x05] 0xF3 rfl (by decide) (by decide)

/-- Start at address `0x0102`. -/
def startThere : SRecord := plainRecord .s9 [0x01, 0x02] [] 0xF9 rfl (by decide) (by decide)

/-- A header without a text, and a count of one record. -/
def emptyHeader : SRecord := plainRecord .s0 [0, 0] [] 0xFC rfl (by decide) (by decide)

def countOne : SRecord := plainRecord .s5 [0, 1] [] 0xFB rfl (by decide) (by decide)

theorem oneByte_loaded :
    LoadsRecords (fun _ => 0) [oneByte] ∧ JumpsAfter (fun _ => 0) [oneByte] startThere := by
  have loadable : ∀ record ∈ [oneByte], record.Loadable := by
    intro record member
    rw [List.mem_singleton.mp member]
    exact ⟨by decide, by decide, by decide⟩
  exact ⟨(uartBoot_loads_iff _ _).1.mpr loadable,
    (uartBoot_loads_iff _ _).2 startThere loadable (by decide) (by decide)⟩

/-- A header without a text is answered as wrong, a count is never left, and a start is
not answered. -/
theorem emptyHeader_not_loaded :
    ¬LoadsRecords (fun _ => 0) [emptyHeader] ∧ ¬LoadsRecords (fun _ => 0) [countOne] ∧
      ¬LoadsRecords (fun _ => 0) [startThere] := by
  refine ⟨fun loads => ?_, fun loads => ?_, fun loads => ?_⟩
  · exact absurd (loads [emptyHeader] [] rfl).answered (by decide)
  · exact absurd (loads [countOne] [] rfl).idle (by decide)
  · exact absurd (loads [startThere] [] rfl).answered (by decide)

end CoreVMcu.Boot
