import Mathlib.Logic.Function.Basic
import CoreVMcu.Clocked.Machine

/-!
# The UART boot loader

`processUartProtocolFrames` is a state machine over the characters of an S-record
file.  It keeps its position in static variables, and what it does outside of them is
to copy data to memory, to answer on the UART and to jump.
-/

namespace CoreVMcu.Boot

open Clocked

/-- The digit that `atoh` reads, or the one before where the character is none. -/
def hexValue (char previous : BitVec 8) : BitVec 8 :=
  if 0x30 ≤ char ∧ char ≤ 0x39 then char - 0x30
  else if 0x41 ≤ char ∧ char ≤ 0x46 then char - 0x41 + 10
  else if 0x61 ≤ char ∧ char ≤ 0x66 then char - 0x61 + 10
  else previous

/-- The loop of `atoh`, up to a NUL or a space. -/
def atohLoop : List (BitVec 8) → BitVec 8 → BitVec 32 → BitVec 32
  | [], _, lValue => lValue
  | char :: rest, lChar, lValue =>
      if char = 0 ∨ char = 0x20 then lValue
      else
        atohLoop rest (hexValue char lChar) (lValue * 16 + (hexValue char lChar).setWidth 32)

def atoh (aBuf : Nat → BitVec 8) (aSize : Nat) : BitVec 32 :=
  atohLoop ((List.range aSize).map aBuf) 0 0

/-- `uart0ProtocolState_t`. -/
inductive ProtocolState
  | idle
  | getRecordType
  | getCount
  | getDestinationAddress
  | getData
  | getCrc
  | getTerminationCharacter
  deriving DecidableEq

/-- The static variables, with the buffers as functions of the index. -/
structure UartProtocol where
  state : ProtocolState
  convToHexBuf : Nat → BitVec 8
  memoryWriteBuf : Nat → BitVec 8
  fillIndex : BitVec 16
  sRecordType : BitVec 8
  destinationAddress : BitVec 32
  destinationAddressSizeInBytes : BitVec 16
  totalCountInBytes : BitVec 16
  dataCountInBytes : BitVec 16
  memoryWriteBufIndex : BitVec 16
  dataRxdCounterInCharacters : BitVec 16
  crcVal : BitVec 8
  calculatedChkSum : BitVec 16

namespace UartProtocol

variable (protocol : UartProtocol) (lChar : BitVec 8)

/-- The variables are cleared before the program starts. -/
def cleared : UartProtocol where
  state := .idle
  convToHexBuf := fun _ => 0
  memoryWriteBuf := fun _ => 0
  fillIndex := 0
  sRecordType := 0
  destinationAddress := 0
  destinationAddressSizeInBytes := 0
  totalCountInBytes := 0
  dataCountInBytes := 0
  memoryWriteBufIndex := 0
  dataRxdCounterInCharacters := 0
  crcVal := 0
  calculatedChkSum := 0

/-- A character at the end of the conversion buffer. -/
def putChar : UartProtocol :=
  { protocol with
    convToHexBuf := Function.update protocol.convToHexBuf protocol.fillIndex.toNat lChar
    fillIndex := protocol.fillIndex + 1 }

/-- The number in the conversion buffer. -/
def converted : BitVec 32 := atoh protocol.convToHexBuf protocol.fillIndex.toNat

/-! ## The states without effects -/

/-- The bytes of the address of a record type, where the type has a branch that sets
them. -/
def addressSize (sRecordType : BitVec 8) (before : BitVec 16) : BitVec 16 :=
  if sRecordType = 0x30 ∨ sRecordType = 0x31 ∨ sRecordType = 0x39 then 2
  else if sRecordType = 0x32 ∨ sRecordType = 0x38 then 3
  else if sRecordType = 0x33 ∨ sRecordType = 0x37 then 4
  else before

/-- One of `0`, `1`, `2`, `3`, `5`, `7`, `8` and `9`. -/
def knownType (sRecordType : BitVec 8) : Bool :=
  0x30 ≤ sRecordType && sRecordType ≤ 0x39 && sRecordType != 0x34 && sRecordType != 0x36

def getRecordType : UartProtocol :=
  if knownType lChar then
    { protocol with
      sRecordType := lChar
      destinationAddressSizeInBytes := addressSize lChar protocol.destinationAddressSizeInBytes
      state := .getCount
      fillIndex := 0
      calculatedChkSum := 0 }
  else { protocol with sRecordType := lChar }

def getCount : UartProtocol :=
  let filled := protocol.putChar lChar
  if 2 ≤ filled.fillIndex then
    let total := (filled.putChar 0).converted.setWidth 16
    { filled.putChar 0 with
      totalCountInBytes := total
      dataCountInBytes := total - protocol.destinationAddressSizeInBytes - 1
      fillIndex := 0
      calculatedChkSum := protocol.calculatedChkSum + total
      state := .getDestinationAddress }
  else filled

/-- The check sum with the bytes of an address. -/
def addAddress (chkSum : BitVec 16) (address : BitVec 32) : BitVec 16 :=
  chkSum + (address &&& 0xFF).setWidth 16 + ((address &&& 0xFF00) >>> 8).setWidth 16 +
    ((address &&& 0xFF0000) >>> 16).setWidth 16 + ((address &&& 0xFF000000) >>> 24).setWidth 16

/-- The state after the address of a record type, where the type has a branch that
leaves it. -/
def afterAddress (sRecordType : BitVec 8) (before : ProtocolState) : ProtocolState :=
  if sRecordType = 0x30 ∨ sRecordType = 0x31 ∨ sRecordType = 0x32 ∨ sRecordType = 0x33 then
    .getData
  else if sRecordType = 0x37 ∨ sRecordType = 0x38 ∨ sRecordType = 0x39 then .getCrc
  else before

def getDestinationAddress : UartProtocol :=
  let filled := protocol.putChar lChar
  if 2 * protocol.destinationAddressSizeInBytes.toNat ≤ filled.fillIndex.toNat then
    let address := (filled.putChar 0).converted
    { filled.putChar 0 with
      destinationAddress := address
      calculatedChkSum := addAddress protocol.calculatedChkSum address
      fillIndex := 0
      dataRxdCounterInCharacters := 0
      memoryWriteBufIndex := 0
      state := afterAddress protocol.sRecordType protocol.state }
  else filled

/-- A character of the data: every second one completes a byte. -/
def putData : UartProtocol :=
  let filled := protocol.putChar lChar
  if filled.fillIndex = 2 then
    { filled.putChar 0 with
      memoryWriteBuf :=
        Function.update protocol.memoryWriteBuf protocol.memoryWriteBufIndex.toNat
          ((filled.putChar 0).converted.setWidth 8)
      memoryWriteBufIndex := protocol.memoryWriteBufIndex + 1
      fillIndex := 0 }
  else filled

/-- The bytes that were received.  The loop over them counts with eight bits, which is
enough for the data of a record. -/
def received : List (BitVec 8) :=
  (List.range protocol.memoryWriteBufIndex.toNat).map protocol.memoryWriteBuf

/-- The check sum with the bytes of the data. -/
def addData (chkSum : BitVec 16) (bytes : List (BitVec 8)) : BitVec 16 :=
  bytes.foldl (fun sum byte => sum + byte.setWidth 16) chkSum

def getData : UartProtocol :=
  let filled := protocol.putData lChar
  let counter := protocol.dataRxdCounterInCharacters + 1
  if 2 * protocol.dataCountInBytes.toNat ≤ counter.toNat then
    { filled with
      calculatedChkSum := addData protocol.calculatedChkSum filled.received
      fillIndex := 0
      dataRxdCounterInCharacters := 0
      state := .getCrc }
  else { filled with dataRxdCounterInCharacters := counter }

def getTerminationCharacter : UartProtocol :=
  { protocol with
    sRecordType := 0
    destinationAddress := 0
    dataRxdCounterInCharacters := 0
    destinationAddressSizeInBytes := 0
    calculatedChkSum := 0
    crcVal := 0
    fillIndex := 0
    memoryWriteBufIndex := 0
    totalCountInBytes := 0
    state := .idle }

end UartProtocol

/-! ## The boot loader -/

/-- What the loader acts on: the memory, the frames it sent and the address it jumped
to. -/
structure BootWorld where
  memory : BitVec 32 → BitVec 8
  uart0 : List String
  jumpedTo : Option (BitVec 32)

/-- `memcpy` to the memory, one byte after the other. -/
def memcpy (memory : BitVec 32 → BitVec 8) (destination : BitVec 32) :
    List (BitVec 8) → BitVec 32 → BitVec 8
  | [] => memory
  | byte :: bytes => memcpy (Function.update memory destination byte) (destination + 1) bytes

/-- The frame of `sendUartOKorNotOKFrame`. -/
def okOrNotOk (aSts : Bool) : String := if aSts then "OK\r\n" else "NOT OK\r\n"

/-- The loader, with the flags that stop the messages and the loader over I2C. -/
structure UartBoot where
  protocol : UartProtocol
  stopUartMsgFlg : Bool
  stopI2cBootLoaderFlg : Bool
  world : BootWorld

namespace UartBoot

variable (boot : UartBoot) (lChar : BitVec 8)

/-- The loader when it starts. -/
def start (memory : BitVec 32 → BitVec 8) : UartBoot where
  protocol := .cleared
  stopUartMsgFlg := false
  stopI2cBootLoaderFlg := false
  world := { memory := memory, uart0 := [], jumpedTo := none }

def idle : UartBoot :=
  if lChar = 0x53 then
    { boot with
      protocol := { boot.protocol with state := .getRecordType }
      stopUartMsgFlg := true
      stopI2cBootLoaderFlg := true }
  else boot

/-- A record that was received well: its data is copied, or the program jumps, or
nothing is done. -/
def accepted : BootWorld :=
  let protocol := boot.protocol
  let answered := { boot.world with uart0 := boot.world.uart0 ++ [okOrNotOk true] }
  if protocol.destinationAddress ≠ 0 then
    if protocol.sRecordType = 0x31 ∨ protocol.sRecordType = 0x32 ∨ protocol.sRecordType = 0x33 then
      { answered with
        memory := memcpy boot.world.memory protocol.destinationAddress protocol.received }
    else if protocol.sRecordType = 0x37 ∨ protocol.sRecordType = 0x38 ∨
        protocol.sRecordType = 0x39 then
      -- the jump does not return, so that nothing is sent
      { boot.world with jumpedTo := some protocol.destinationAddress }
    else answered
  else answered

/-- A record that was not received well. -/
def rejected : BootWorld :=
  { boot.world with uart0 := boot.world.uart0 ++ [okOrNotOk false] }

def getCrc : UartBoot :=
  let filled := boot.protocol.putChar lChar
  if 2 ≤ filled.fillIndex then
    let crcVal := (filled.putChar 0).converted.setWidth 8
    let calculated := boot.protocol.calculatedChkSum &&& 0xFF ^^^ 0xFF
    let world := if calculated = crcVal.setWidth 16 then boot.accepted else boot.rejected
    let checked :=
      { filled.putChar 0 with crcVal := crcVal, calculatedChkSum := calculated }
    { boot with
      world := world
      protocol :=
        if world.jumpedTo = none then
          { checked with
            fillIndex := 0, memoryWriteBufIndex := 0, state := .getTerminationCharacter }
        else checked }
  else { boot with protocol := filled }

/-- `processUartProtocolFrames` with a character that was read. -/
def processUartProtocolFrames : UartBoot :=
  let { protocol, .. } := boot
  match protocol.state with
  | .idle => boot.idle lChar
  | .getRecordType => { boot with protocol := protocol.getRecordType lChar }
  | .getCount => { boot with protocol := protocol.getCount lChar }
  | .getDestinationAddress => { boot with protocol := protocol.getDestinationAddress lChar }
  | .getData => { boot with protocol := protocol.getData lChar }
  | .getCrc => boot.getCrc lChar
  | .getTerminationCharacter => { boot with protocol := protocol.getTerminationCharacter }

/-- A character, unless the program has jumped. -/
def receive : UartBoot :=
  if boot.world.jumpedTo = none then boot.processUartProtocolFrames lChar else boot

end UartBoot

/-- The loader over an initial memory. -/
def uartBootMachine (memory : BitVec 32 → BitVec 8) : Machine UartBoot (BitVec 8) where
  init := .start memory
  step := UartBoot.receive

end CoreVMcu.Boot
