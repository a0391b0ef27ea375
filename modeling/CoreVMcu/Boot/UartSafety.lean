import CoreVMcu.Boot.SRecordRead

/-!
# The buffers of the UART boot loader

The characters of a number are collected in a conversion buffer, the bytes of a record in a
record buffer.  Nothing but the count of the record ends its data.
-/

namespace CoreVMcu.Boot

open Clocked

/-- `UART_PROTOCOL_CONV_BUF_LEN`. -/
def convBufLen : Nat := 512

/-- `UART_PROTOCOL_MEMORY_WRITE_BUF_LEN`. -/
def memoryWriteBufLen : Nat := 256

/-- The loop that sums the data up, with `i` of eight bits; nothing if it takes more rounds. -/
def UartProtocol.sumLoop (protocol : UartProtocol) :
    Nat → BitVec 8 → BitVec 16 → Option (BitVec 16)
  | 0, _, _ => none
  | rounds + 1, i, chkSum =>
      if i.toNat < protocol.memoryWriteBufIndex.toNat then
        sumLoop protocol rounds (i + 1) (chkSum + (protocol.memoryWriteBuf i.toNat).setWidth 16)
      else some chkSum

/-- The loader, with the number of data characters of the record. -/
structure CountedBoot where
  boot : UartBoot
  dataChars : Nat

namespace CountedBoot

def step (counted : CountedBoot) (lChar : BitVec 8) : CountedBoot where
  boot := counted.boot.receive lChar
  dataChars :=
    if counted.boot.world.jumpedTo = none then
      match counted.boot.protocol.state with
      | .getData => counted.dataChars + 1
      | .getDestinationAddress => 0
      | _ => counted.dataChars
    else counted.dataChars

end CountedBoot

/-- The loader over an initial memory. -/
def countedMachine (memory : BitVec 32 → BitVec 8) : Machine CountedBoot (BitVec 8) where
  init := ⟨.start memory, 0⟩
  step := CountedBoot.step

/-! ## Safety -/

namespace CountedBoot

variable (counted : CountedBoot)

/-- The indices stay in the buffers, also the one of the NUL after a number; the sum is done
after finitely many rounds; a record has all the bytes that are copied for it. -/
structure Safe : Prop where
  recordIndex : counted.boot.protocol.memoryWriteBufIndex.toNat ≤ memoryWriteBufLen
  convIndex : counted.boot.protocol.fillIndex.toNat + 1 < convBufLen
  sumEnds : ∀ lChar, counted.boot.protocol.state = .getData →
    (counted.boot.protocol.getData lChar).state = .getCrc →
    ∃ rounds, (counted.boot.protocol.putData lChar).sumLoop rounds 0
      counted.boot.protocol.calculatedChkSum =
        some (counted.boot.protocol.getData lChar).calculatedChkSum
  copied : counted.boot.protocol.state = .getCrc →
    counted.boot.protocol.received.length ≤ counted.dataChars / 2 ∧
      counted.boot.protocol.received.length ≤ counted.boot.protocol.dataCountInBytes.toNat

/-- The count of the record is too small for its address, and more data has come than the
record buffer holds. -/
structure Overruns : Prop where
  state : counted.boot.protocol.state = .getData
  count : counted.boot.protocol.totalCountInBytes.toNat <
    counted.boot.protocol.destinationAddressSizeInBytes.toNat + 1
  data : 2 * (memoryWriteBufLen + 1) ≤ counted.dataChars

end CountedBoot

/-- What holds of the indices in each state. -/
def Parsing (protocol : UartProtocol) (dataChars : Nat) (running : Prop) : Prop :=
  match protocol.state with
  | .idle | .getRecordType | .getTerminationCharacter =>
      protocol.fillIndex = 0 ∧ protocol.memoryWriteBufIndex = 0
  | .getCount => protocol.fillIndex.toNat ≤ 1 ∧ protocol.memoryWriteBufIndex = 0
  | .getDestinationAddress =>
      protocol.fillIndex.toNat ≤ 7 ∧ protocol.memoryWriteBufIndex = 0
  | .getData =>
      protocol.fillIndex.toNat = dataChars % 2 ∧
        protocol.memoryWriteBufIndex = BitVec.ofNat 16 (dataChars / 2) ∧
        protocol.dataRxdCounterInCharacters = BitVec.ofNat 16 dataChars ∧
        (protocol.destinationAddressSizeInBytes.toNat + 1 ≤ protocol.totalCountInBytes.toNat →
          dataChars < max 1 (2 * protocol.dataCountInBytes.toNat))
  | .getCrc =>
      (running → protocol.fillIndex.toNat ≤ 1) ∧ protocol.fillIndex.toNat ≤ 3 ∧
        protocol.memoryWriteBufIndex.toNat ≤ dataChars / 2 ∧
        protocol.memoryWriteBufIndex.toNat ≤ protocol.dataCountInBytes.toNat ∧
        protocol.memoryWriteBufIndex.toNat ≤ 254

/-- The count of a record is one byte, and gives the number of its data bytes. -/
structure Counts (protocol : UartProtocol) : Prop where
  size : protocol.destinationAddressSizeInBytes.toNat ≤ 4
  total : protocol.totalCountInBytes.toNat ≤ 255
  data : protocol.state ≠ .idle → protocol.state ≠ .getRecordType → protocol.state ≠ .getCount →
    protocol.state ≠ .getTerminationCharacter →
    protocol.dataCountInBytes =
      protocol.totalCountInBytes - protocol.destinationAddressSizeInBytes - 1

/-- The invariant of the loader. -/
structure Within (counted : CountedBoot) : Prop where
  parsing :
    Parsing counted.boot.protocol counted.dataChars (counted.boot.world.jumpedTo = none)
  counts : Counts counted.boot.protocol

theorem hexValue_lt {char previous : BitVec 8} (below : previous.toNat < 16) :
    (hexValue char previous).toNat < 16 := by
  rw [hexValue]
  split
  · bv_omega
  · split
    · bv_omega
    · split
      · bv_omega
      · exact below

/-- A number of two characters is a byte, whatever the characters are. -/
theorem atohLoop_two (first second : BitVec 8) :
    (atohLoop [first, second, 0] 0 0).toNat ≤ 255 := by
  have high : (hexValue first 0).toNat < 16 := hexValue_lt (by decide)
  have low : (hexValue second (hexValue first 0)).toNat < 16 := hexValue_lt high
  rw [atohLoop]
  split
  · exact Nat.zero_le _
  · rw [atohLoop]
    split
    · bv_omega
    · rw [atohLoop, if_pos (Or.inl rfl)]
      bv_omega

theorem getCount_total {protocol : UartProtocol} {lChar : BitVec 8}
    (second : protocol.fillIndex = 1) :
    (((protocol.putChar lChar).putChar 0).converted.setWidth 16).toNat ≤ 255 := by
  have three : ((protocol.putChar lChar).putChar 0).fillIndex.toNat = 3 := by
    simp [UartProtocol.putChar, second]
  have chars : (List.range 3).map ((protocol.putChar lChar).putChar 0).convToHexBuf =
      [protocol.convToHexBuf 0, lChar, 0] := by
    simp [UartProtocol.putChar, second, List.range_succ]
  have byte := atohLoop_two (protocol.convToHexBuf 0) lChar
  rw [UartProtocol.converted, three, atoh, chars, BitVec.toNat_setWidth]
  exact (Nat.mod_le _ _).trans byte

theorem sumLoop_ends (protocol : UartProtocol) (chkSum : BitVec 16)
    (small : protocol.memoryWriteBufIndex.toNat ≤ 255) :
    ∃ rounds, protocol.sumLoop rounds 0 chkSum =
      some (UartProtocol.addData chkSum protocol.received) := by
  have rest : ∀ left i, i + left = protocol.memoryWriteBufIndex.toNat →
      protocol.sumLoop (left + 1) (BitVec.ofNat 8 i)
        (UartProtocol.addData chkSum ((List.range i).map protocol.memoryWriteBuf)) =
          some (UartProtocol.addData chkSum protocol.received) := by
    intro left
    induction left with
    | zero =>
        intro i reached
        have index : (BitVec.ofNat 8 i).toNat = i := by
          rw [BitVec.toNat_ofNat, Nat.mod_eq_of_lt (by omega)]
        rw [UartProtocol.sumLoop, index, if_neg (by omega), UartProtocol.received, ← reached,
          Nat.add_zero]
    | succ left inductionHypothesis =>
        intro i reached
        have index : (BitVec.ofNat 8 i).toNat = i := by
          rw [BitVec.toNat_ofNat, Nat.mod_eq_of_lt (by omega)]
        have next := inductionHypothesis (i + 1) (by omega)
        rw [UartProtocol.sumLoop, index, if_pos (by omega), ← next, List.range_succ,
          List.map_append,
          UartProtocol.addData, UartProtocol.addData, List.foldl_append, BitVec.ofNat_add]
        rfl
  exact ⟨protocol.memoryWriteBufIndex.toNat + 1, rest _ 0 (Nat.zero_add _)⟩

/-- The indices after a character of the data. -/
structure DataPut (protocol : UartProtocol) (lChar : BitVec 8) (dataChars : Nat) : Prop where
  fill : (protocol.putData lChar).fillIndex.toNat = (dataChars + 1) % 2
  index : (protocol.putData lChar).memoryWriteBufIndex = BitVec.ofNat 16 ((dataChars + 1) / 2)
  counter : protocol.dataRxdCounterInCharacters + 1 = BitVec.ofNat 16 (dataChars + 1)

theorem putData_indices {protocol : UartProtocol} {dataChars : Nat}
    (fill : protocol.fillIndex.toNat = dataChars % 2)
    (index : protocol.memoryWriteBufIndex = BitVec.ofNat 16 (dataChars / 2))
    (counter : protocol.dataRxdCounterInCharacters = BitVec.ofNat 16 dataChars)
    (lChar : BitVec 8) : DataPut protocol lChar dataChars := by
  have count : protocol.dataRxdCounterInCharacters + 1 = BitVec.ofNat 16 (dataChars + 1) := by
    rw [counter, BitVec.ofNat_add]
    rfl
  rcases Nat.mod_two_eq_zero_or_one dataChars with even | odd
  · have empty : protocol.fillIndex = 0 := by bv_omega
    refine ⟨?_, ?_, count⟩
    · rw [putData_first empty, UartProtocol.putChar, empty]
      change 1 = _
      omega
    · rw [putData_first empty, UartProtocol.putChar, index]
      congr 1
      omega
  · have one : protocol.fillIndex = 1 := by bv_omega
    have ends : (protocol.putChar lChar).fillIndex = 2 := by
      rw [UartProtocol.putChar, one]
      rfl
    refine ⟨?_, ?_, count⟩
    · rw [putData_second ends rfl]
      change 0 = _
      omega
    · rw [putData_second ends rfl]
      change protocol.memoryWriteBufIndex + 1 = _
      rw [index, show (dataChars + 1) / 2 = dataChars / 2 + 1 by omega, BitVec.ofNat_add]
      rfl

theorem putData_frame (protocol : UartProtocol) (lChar : BitVec 8) :
    (protocol.putData lChar).state = protocol.state ∧
      (protocol.putData lChar).totalCountInBytes = protocol.totalCountInBytes ∧
      (protocol.putData lChar).dataCountInBytes = protocol.dataCountInBytes ∧
      (protocol.putData lChar).destinationAddressSizeInBytes =
        protocol.destinationAddressSizeInBytes := by
  rw [UartProtocol.putData]
  split <;> exact ⟨rfl, rfl, rfl, rfl⟩

/-- With a count that is too small the data has no end, else a few bytes are left. -/
theorem Counts.dataCount {protocol : UartProtocol} (counts : Counts protocol)
    (state : protocol.state = .getData) :
    if protocol.destinationAddressSizeInBytes.toNat + 1 ≤ protocol.totalCountInBytes.toNat
      then protocol.dataCountInBytes.toNat ≤ 254
      else 2 ^ 16 ≤ 2 * protocol.dataCountInBytes.toNat := by
  have size := counts.size
  have total := counts.total
  have data := counts.data (by simp [state]) (by simp [state]) (by simp [state]) (by simp [state])
  split <;> bv_omega

/-! ## One character -/

section Step

variable {counted : CountedBoot}

theorem within_idle (within : Within counted) (state : counted.boot.protocol.state = .idle)
    (running : counted.boot.world.jumpedTo = none) (lChar : BitVec 8) :
    Within (counted.step lChar) := by
  have parsing := within.parsing
  have counts := within.counts
  simp only [Parsing, state] at parsing
  have received : counted.boot.receive lChar = counted.boot.idle lChar := by
    rw [UartBoot.receive, if_pos running, UartBoot.processUartProtocolFrames, state]
  rw [CountedBoot.step, received, if_pos running, UartBoot.idle]
  simp only [state]
  split
  · exact ⟨parsing, counts.size, counts.total, fun _ known => absurd rfl known⟩
  · exact ⟨by simpa only [Parsing, state] using parsing, counts⟩

theorem within_getRecordType (within : Within counted)
    (state : counted.boot.protocol.state = .getRecordType)
    (running : counted.boot.world.jumpedTo = none) (lChar : BitVec 8) :
    Within (counted.step lChar) := by
  have parsing := within.parsing
  have counts := within.counts
  simp only [Parsing, state] at parsing
  rw [CountedBoot.step, if_pos running, receive_getRecordType running state,
    UartProtocol.getRecordType]
  split
  · refine ⟨⟨Nat.zero_le 1, parsing.2⟩, ?_, counts.total, fun _ _ known => absurd rfl known⟩
    have size := counts.size
    simp only [UartProtocol.addressSize]
    split
    · decide
    · split
      · decide
      · split
        · decide
        · exact size
  · exact ⟨by simpa only [Parsing, state] using parsing, counts.size, counts.total,
      fun _ known => absurd state known⟩

theorem within_getCount (within : Within counted)
    (state : counted.boot.protocol.state = .getCount)
    (running : counted.boot.world.jumpedTo = none) (lChar : BitVec 8) :
    Within (counted.step lChar) := by
  have parsing := within.parsing
  have counts := within.counts
  simp only [Parsing, state] at parsing
  rw [CountedBoot.step, if_pos running, receive_getCount running state, UartProtocol.getCount]
  simp only
  split
  next ends =>
    have second : counted.boot.protocol.fillIndex = 1 := by
      simp only [UartProtocol.putChar] at ends
      bv_omega
    exact ⟨⟨Nat.zero_le 7, parsing.2⟩, counts.size, getCount_total second, fun _ _ _ _ => rfl⟩
  next inside =>
    refine ⟨?_, counts.size, counts.total, fun _ _ known => absurd state known⟩
    have first : counted.boot.protocol.fillIndex = 0 := by
      simp only [UartProtocol.putChar] at inside
      bv_omega
    have one : (counted.boot.protocol.putChar lChar).fillIndex.toNat ≤ 1 := by
      rw [UartProtocol.putChar, first]
      exact Nat.le_refl 1
    have kept : (counted.boot.protocol.putChar lChar).state = .getCount := state
    simp only [Parsing, kept]
    exact ⟨one, parsing.2⟩

theorem within_getDestinationAddress (within : Within counted)
    (state : counted.boot.protocol.state = .getDestinationAddress)
    (running : counted.boot.world.jumpedTo = none) (lChar : BitVec 8) :
    Within (counted.step lChar) := by
  have parsing := within.parsing
  have counts := within.counts
  simp only [Parsing, state] at parsing
  have data := counts.data (by simp [state]) (by simp [state]) (by simp [state]) (by simp [state])
  rw [CountedBoot.step, if_pos running, receive_getDestinationAddress running state,
    UartProtocol.getDestinationAddress]
  simp only [state]
  split
  next ends =>
    refine ⟨?_, counts.size, counts.total, fun _ _ _ _ => data⟩
    simp only [UartProtocol.afterAddress]
    split
    · simp [Parsing]
    · split
      · simp [Parsing]
      · simp [Parsing]
  next inside =>
    refine ⟨?_, counts.size, counts.total, fun _ _ _ _ => data⟩
    have size := counts.size
    have kept : (counted.boot.protocol.putChar lChar).state = .getDestinationAddress := state
    simp only [Parsing, kept]
    exact ⟨by omega, parsing.2⟩

theorem within_getData (within : Within counted)
    (state : counted.boot.protocol.state = .getData)
    (running : counted.boot.world.jumpedTo = none) (lChar : BitVec 8) :
    Within (counted.step lChar) := by
  have parsing := within.parsing
  have counts := within.counts
  have left := counts.dataCount state
  simp only [Parsing, state] at parsing
  rcases parsing with ⟨fill, index, counter, bound⟩
  have put := putData_indices fill index counter lChar
  have data := counts.data (by simp [state]) (by simp [state]) (by simp [state]) (by simp [state])
  obtain ⟨putState, putTotal, putData, putSize⟩ := putData_frame counted.boot.protocol lChar
  rw [CountedBoot.step, if_pos running, receive_getData running state]
  simp only [state]
  by_cases ends : 2 * counted.boot.protocol.dataCountInBytes.toNat ≤
      (counted.boot.protocol.dataRxdCounterInCharacters + 1).toNat
  · -- the data ends only with a count that has room for the address
    rw [getData_ends ends]
    refine ⟨?_, by simpa only [putSize] using counts.size,
      by simpa only [putTotal] using counts.total,
      fun _ _ _ _ => by simpa only [putData, putTotal, putSize] using data⟩
    rw [put.counter] at ends
    split at left
    next counted =>
      have few := bound counted
      have stored := put.index
      simp only [Parsing]
      refine ⟨fun _ => Nat.zero_le 1, Nat.zero_le 3, ?_⟩
      rw [stored, putData]
      simp only [BitVec.toNat_ofNat] at ends ⊢
      omega
    next => 
      simp only [BitVec.toNat_ofNat] at ends
      omega
  · rw [getData_inside (Nat.lt_of_not_le ends)]
    refine ⟨?_, by simpa only [putSize] using counts.size,
      by simpa only [putTotal] using counts.total,
      fun _ _ _ _ => by simpa only [putData, putTotal, putSize] using data⟩
    simp only [Parsing, putState, state]
    refine ⟨put.fill, put.index, put.counter, ?_⟩
    rw [putSize, putTotal, putData]
    intro counted
    have few := bound counted
    rw [if_pos counted] at left
    rw [put.counter, BitVec.toNat_ofNat] at ends
    omega

/-- What is left when a check sum has been received. -/
theorem getCrc_checked {boot : UartBoot} {lChar : BitVec 8}
    (ends : 2 ≤ (boot.protocol.putChar lChar).fillIndex) :
    ∃ world crcVal chkSum, boot.getCrc lChar =
      { boot with
        world := world
        protocol :=
          if world.jumpedTo = none then
            { (boot.protocol.putChar lChar).putChar 0 with
              crcVal := crcVal, calculatedChkSum := chkSum, fillIndex := 0,
              memoryWriteBufIndex := 0, state := .getTerminationCharacter }
          else
            { (boot.protocol.putChar lChar).putChar 0 with
              crcVal := crcVal, calculatedChkSum := chkSum } } :=
  ⟨_, _, _, if_pos ends⟩

theorem within_getCrc (within : Within counted)
    (state : counted.boot.protocol.state = .getCrc)
    (running : counted.boot.world.jumpedTo = none) (lChar : BitVec 8) :
    Within (counted.step lChar) := by
  have parsing := within.parsing
  have counts := within.counts
  simp only [Parsing, state] at parsing
  rcases parsing with ⟨fill, _, stored⟩
  have first := fill running
  have data := counts.data (by simp [state]) (by simp [state]) (by simp [state]) (by simp [state])
  rw [CountedBoot.step, if_pos running, receive_getCrc running state]
  simp only [state]
  by_cases ends : 2 ≤ (counted.boot.protocol.putChar lChar).fillIndex
  · rcases getCrc_checked ends with ⟨world, crcVal, chkSum, checked⟩
    rw [checked]
    simp only
    split
    next => exact ⟨⟨rfl, rfl⟩, counts.size, counts.total, fun _ _ _ known => absurd rfl known⟩
    next jumped =>
      refine ⟨?_, counts.size, counts.total, fun _ _ _ _ => data⟩
      have kept : ((counted.boot.protocol.putChar lChar).putChar 0).state = .getCrc := state
      simp only [Parsing, kept]
      refine ⟨fun running => absurd running jumped, ?_, stored⟩
      simp only [UartProtocol.putChar]
      bv_omega
  · rw [UartBoot.getCrc, if_neg ends]
    refine ⟨?_, counts.size, counts.total, fun _ _ _ _ => data⟩
    have kept : (counted.boot.protocol.putChar lChar).state = .getCrc := state
    simp only [UartProtocol.putChar] at ends
    simp only [Parsing, kept]
    refine ⟨fun _ => ?_, ?_, stored⟩ <;> simp only [UartProtocol.putChar] <;> bv_omega

theorem within_getTerminationCharacter
    (state : counted.boot.protocol.state = .getTerminationCharacter)
    (running : counted.boot.world.jumpedTo = none) (lChar : BitVec 8) :
    Within (counted.step lChar) := by
  rw [CountedBoot.step, if_pos running, receive_getTerminationCharacter running state]
  exact ⟨⟨rfl, rfl⟩, Nat.zero_le 4, Nat.zero_le 255, fun known => absurd rfl known⟩

theorem within_step (within : Within counted) (lChar : BitVec 8) :
    Within (counted.step lChar) := by
  by_cases running : counted.boot.world.jumpedTo = none
  · cases state : counted.boot.protocol.state with
    | idle => exact within_idle within state running lChar
    | getRecordType => exact within_getRecordType within state running lChar
    | getCount => exact within_getCount within state running lChar
    | getDestinationAddress => exact within_getDestinationAddress within state running lChar
    | getData => exact within_getData within state running lChar
    | getCrc => exact within_getCrc within state running lChar
    | getTerminationCharacter => exact within_getTerminationCharacter state running lChar
  · rw [CountedBoot.step, UartBoot.receive, if_neg running, if_neg running]
    exact within

end Step

theorem within_run (memory : BitVec 32 → BitVec 8) (chars : List (BitVec 8)) :
    Within ((countedMachine memory).run chars) := by
  induction chars using List.reverseRecOn with
  | nil => exact ⟨⟨rfl, rfl⟩, Nat.zero_le 4, Nat.zero_le 255, fun known => absurd rfl known⟩
  | append_singleton chars lChar inductionHypothesis =>
      rw [Machine.run_snoc]
      exact within_step inductionHypothesis lChar

theorem length_received (protocol : UartProtocol) :
    protocol.received.length = protocol.memoryWriteBufIndex.toNat := by
  rw [UartProtocol.received, List.length_map, List.length_range]

theorem Within.recordIndex {counted : CountedBoot} (within : Within counted)
    (enough : ¬counted.Overruns) :
    counted.boot.protocol.memoryWriteBufIndex.toNat ≤ memoryWriteBufLen := by
  have parsing := within.parsing
  rw [memoryWriteBufLen]
  cases state : counted.boot.protocol.state <;> simp only [Parsing, state] at parsing
  case getData =>
    rcases parsing with ⟨_, index, _, bound⟩
    have left := within.counts.dataCount state
    have few : counted.dataChars < 2 * 257 := by
      by_cases room : counted.boot.protocol.destinationAddressSizeInBytes.toNat + 1 ≤
          counted.boot.protocol.totalCountInBytes.toNat
      · have below := bound room
        rw [if_pos room] at left
        omega
      · exact Nat.lt_of_not_le fun many => enough ⟨state, Nat.lt_of_not_le room, many⟩
    rw [index, BitVec.toNat_ofNat]
    omega
  case getCrc => omega
  all_goals
    rw [parsing.2]
    exact Nat.zero_le 256

theorem Within.convIndex {counted : CountedBoot} (within : Within counted) :
    counted.boot.protocol.fillIndex.toNat + 1 < convBufLen := by
  have parsing := within.parsing
  rw [convBufLen]
  cases state : counted.boot.protocol.state <;> simp only [Parsing, state] at parsing
  case idle | getRecordType | getTerminationCharacter =>
    rw [parsing.1]
    decide
  all_goals omega

theorem Within.sumEnds {counted : CountedBoot} (within : Within counted) (lChar : BitVec 8)
    (state : counted.boot.protocol.state = .getData)
    (ended : (counted.boot.protocol.getData lChar).state = .getCrc) :
    ∃ rounds, (counted.boot.protocol.putData lChar).sumLoop rounds 0
      counted.boot.protocol.calculatedChkSum =
        some (counted.boot.protocol.getData lChar).calculatedChkSum := by
  have parsing := within.parsing
  simp only [Parsing, state] at parsing
  rcases parsing with ⟨fill, index, counter, bound⟩
  have put := putData_indices fill index counter lChar
  have left := within.counts.dataCount state
  by_cases ends : 2 * counted.boot.protocol.dataCountInBytes.toNat ≤
      (counted.boot.protocol.dataRxdCounterInCharacters + 1).toNat
  · rw [getData_ends ends]
    apply sumLoop_ends
    rw [put.index, BitVec.toNat_ofNat]
    rw [put.counter, BitVec.toNat_ofNat] at ends
    split at left
    next room =>
      have below := bound room
      omega
    next => omega
  · rw [getData_inside (Nat.lt_of_not_le ends)] at ended
    have kept := (putData_frame counted.boot.protocol lChar).1
    rw [state] at kept
    exact absurd (kept.symm.trans ended) (by decide)

/-- A record that does not overrun is safe. -/
theorem Within.safe {counted : CountedBoot} (within : Within counted)
    (enough : ¬counted.Overruns) : counted.Safe where
  recordIndex := within.recordIndex enough
  convIndex := within.convIndex
  sumEnds := within.sumEnds
  copied := by
    intro state
    have parsing := within.parsing
    simp only [Parsing, state] at parsing
    rw [length_received]
    exact ⟨parsing.2.2.1, parsing.2.2.2.1⟩

theorem getData_frame (protocol : UartProtocol) (lChar : BitVec 8) :
    (protocol.getData lChar).totalCountInBytes = protocol.totalCountInBytes ∧
      (protocol.getData lChar).destinationAddressSizeInBytes =
        protocol.destinationAddressSizeInBytes := by
  obtain ⟨_, total, _, size⟩ := putData_frame protocol lChar
  rw [UartProtocol.getData]
  split <;> exact ⟨total, size⟩

/-- The data of a record follows its address. -/
theorem state_before_getData {boot : UartBoot} (running : boot.world.jumpedTo = none)
    {lChar : BitVec 8} (state : (boot.receive lChar).protocol.state = .getData) :
    boot.protocol.state = .getDestinationAddress ∨ boot.protocol.state = .getData := by
  cases before : boot.protocol.state with
  | getDestinationAddress => exact Or.inl rfl
  | getData => exact Or.inr rfl
  | idle =>
      rw [UartBoot.receive, if_pos running, UartBoot.processUartProtocolFrames, before] at state
      simp only [UartBoot.idle] at state
      split at state
      · cases state
      · rw [before] at state
        cases state
  | getRecordType =>
      rw [receive_getRecordType running before, UartProtocol.getRecordType] at state
      split at state
      · cases state
      · rw [before] at state
        cases state
  | getCount =>
      rw [receive_getCount running before, UartProtocol.getCount] at state
      simp only at state
      split at state
      · cases state
      · rw [UartProtocol.putChar, before] at state
        cases state
  | getCrc =>
      rw [receive_getCrc running before] at state
      by_cases ends : 2 ≤ (boot.protocol.putChar lChar).fillIndex
      · rcases getCrc_checked ends with ⟨world, crcVal, chkSum, checked⟩
        rw [checked] at state
        simp only at state
        split at state
        · cases state
        · rw [UartProtocol.putChar, UartProtocol.putChar, before] at state
          cases state
      · rw [UartBoot.getCrc, if_neg ends, UartProtocol.putChar, before] at state
        cases state
  | getTerminationCharacter =>
      rw [receive_getTerminationCharacter running before] at state
      cases state

/-- A safe run does not overrun: the record buffer is full before. -/
theorem not_overruns_of_safe (memory : BitVec 32 → BitVec 8) {chars : List (BitVec 8)}
    (safe : ∀ before, before <+: chars → ((countedMachine memory).run before).Safe) :
    ¬((countedMachine memory).run chars).Overruns := by
  induction chars using List.reverseRecOn with
  | nil =>
      intro overruns
      cases overruns.state
  | append_singleton chars lChar inductionHypothesis =>
      have before := inductionHypothesis fun earlier inside =>
        safe earlier (inside.trans (List.prefix_append _ _))
      have full := (safe _ List.prefix_rfl).recordIndex
      have after := (within_run memory (chars ++ [lChar])).parsing
      intro overruns
      rw [Machine.run_snoc] at full after overruns
      generalize (countedMachine memory).run chars = counted at before full after overruns
      have kept := overruns.state
      by_cases running : counted.boot.world.jumpedTo = none
      · rcases state_before_getData running kept with state | state
        · have none := overruns.data
          change 2 * (memoryWriteBufLen + 1) ≤ (counted.step lChar).dataChars at none
          simp [CountedBoot.step, running, state, memoryWriteBufLen] at none
        · have chars : (counted.step lChar).dataChars = counted.dataChars + 1 := by
            simp [CountedBoot.step, running, state]
          have frame := getData_frame counted.boot.protocol lChar
          have received := receive_getData running state lChar
          have count := overruns.count
          have data := overruns.data
          change (counted.boot.receive lChar).protocol.totalCountInBytes.toNat <
            (counted.boot.receive lChar).protocol.destinationAddressSizeInBytes.toNat + 1 at count
          rw [received, frame.1, frame.2] at count
          have few : counted.dataChars < 2 * (memoryWriteBufLen + 1) :=
            Nat.lt_of_not_le fun many => before ⟨state, count, many⟩
          change 2 * (memoryWriteBufLen + 1) ≤ (counted.step lChar).dataChars at data
          change (counted.step lChar).boot.protocol.memoryWriteBufIndex.toNat ≤ _ at full
          change Parsing (counted.step lChar).boot.protocol
            (counted.step lChar).dataChars _ at after
          change (counted.step lChar).boot.protocol.state = .getData at kept
          simp only [Parsing, kept] at after
          rw [after.2.1, BitVec.toNat_ofNat] at full
          rw [memoryWriteBufLen] at full few data
          omega
      · have same : counted.step lChar = counted := by
          rw [CountedBoot.step, UartBoot.receive, if_neg running, if_neg running]
        exact before (same ▸ overruns)

/-- The loader is safe in a run exactly if it receives no more data than it has room for in a
record whose count is too small. -/
theorem uart_safe_iff (memory : BitVec 32 → BitVec 8) (chars : List (BitVec 8)) :
    (∀ before, before <+: chars → ((countedMachine memory).run before).Safe) ↔
      ∀ before, before <+: chars → ¬((countedMachine memory).run before).Overruns := by
  constructor
  · intro safe before prior
    exact not_overruns_of_safe memory fun earlier inside => safe earlier (inside.trans prior)
  · intro enough before prior
    exact (within_run memory before).safe (enough before prior)

/-- The data of a record whose count is too small. -/
structure Endless (counted : CountedBoot) : Prop where
  running : counted.boot.world.jumpedTo = none
  state : counted.boot.protocol.state = .getData
  count : counted.boot.protocol.totalCountInBytes.toNat <
    counted.boot.protocol.destinationAddressSizeInBytes.toNat + 1

/-- Such data never ends. -/
theorem Endless.step {counted : CountedBoot} (endless : Endless counted) (within : Within counted)
    (lChar : BitVec 8) :
    Endless (counted.step lChar) ∧ (counted.step lChar).dataChars = counted.dataChars + 1 := by
  have left := within.counts.dataCount endless.state
  rw [if_neg (Nat.not_le.mpr endless.count)] at left
  have inside : (counted.boot.protocol.dataRxdCounterInCharacters + 1).toNat <
      2 * counted.boot.protocol.dataCountInBytes.toNat :=
    (BitVec.isLt _).trans_le left
  obtain ⟨putState, putTotal, _, putSize⟩ := putData_frame counted.boot.protocol lChar
  rw [CountedBoot.step, receive_getData endless.running endless.state, getData_inside inside,
    if_pos endless.running, endless.state]
  refine ⟨⟨endless.running, putState.trans endless.state, ?_⟩, rfl⟩
  simpa only [putTotal, putSize] using endless.count

theorem Endless.run {memory : BitVec 32 → BitVec 8} {chars : List (BitVec 8)}
    (endless : Endless ((countedMachine memory).run chars)) (data : List (BitVec 8)) :
    Endless ((countedMachine memory).run (chars ++ data)) ∧
      ((countedMachine memory).run (chars ++ data)).dataChars =
        ((countedMachine memory).run chars).dataChars + data.length := by
  induction data using List.reverseRecOn with
  | nil =>
      rw [List.append_nil]
      exact ⟨endless, rfl⟩
  | append_singleton data lChar inductionHypothesis =>
      have next := inductionHypothesis.1.step (within_run memory _) lChar
      rw [← List.append_assoc, Machine.run_snoc]
      refine ⟨next.1, next.2.trans ?_⟩
      rw [inductionHypothesis.2, List.length_append, List.length_singleton, Nat.add_assoc]

/-- `S1`, the count `00` and an address. -/
def countZero : List (BitVec 8) := [0x53, 0x31, 0x30, 0x30, 0x31, 0x30, 0x30, 0x30]

theorem countZero_overruns :
    ¬∀ before, before <+: countZero ++ List.replicate 514 0x30 →
      ((countedMachine fun _ => 0).run before).Safe := by
  intro safe
  have endless : Endless ((countedMachine fun _ => 0).run countZero) := ⟨rfl, rfl, by decide⟩
  have data := endless.run (List.replicate 514 0x30)
  refine not_overruns_of_safe _ safe ⟨data.1.state, data.1.count, ?_⟩
  rw [data.2, List.length_replicate]
  exact Nat.le_refl 514

end CoreVMcu.Boot
