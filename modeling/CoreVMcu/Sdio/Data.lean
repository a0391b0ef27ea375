import CoreVMcu.Clocked.Machine
import CoreVMcu.Sdio.Crc

/-!
# The data lines of the SDIO host

`sdio_txrx_data` writes and reads blocks over one or four lines.  The lines are registered at the
falling edge of the clock, so in every clock they show the value that the state gives them in
that clock.
-/

namespace CoreVMcu.Sdio

open Clocked

/-- `r_state`. -/
inductive DataState where
  | idle | wait
  | txStart | txStop | txShift | txCrc | txEnd | txCrcstat | txBusy
  | rxStart | rxStop | rxShift | rxCrc
  deriving DecidableEq, Repr

/-- The registers of `sdio_txrx_data`, with those of its four CRC units. -/
structure SdioData where
  state : DataState
  status : BitVec 6
  data : BitVec 32
  cnt : BitVec 9
  cntRunning : Bool
  cntByte : Bool
  cntBlock : BitVec 8
  byteInWord : BitVec 2
  bitCnt : BitVec 3
  sdioTimeout : BitVec 11
  crc : Fin 4 → BitVec 16
  sddata : BitVec 4

/-- The inputs of a clock.  Whether the input has data and the output takes them is not read. -/
structure SdioDataInput where
  clrStat : Bool
  dataStart : Bool
  dataBlockSize : BitVec 10
  dataBlockNum : BitVec 8
  dataRwn : Bool
  dataQuad : Bool
  inData : BitVec 32
  sddataI : BitVec 4
  deriving DecidableEq, Repr

/-- The combinational signals of a clock. -/
structure DataSignals where
  state : DataState
  sddata : BitVec 4
  sddataOen : Bool
  crcShift : Bool
  crcEn : Bool
  crcClr : Bool
  crcIntx : Bool
  cntStart : Bool
  cntTarget : BitVec 9
  cntByte : Bool
  status : BitVec 6
  statusSample : Bool
  busy : Bool
  clkEn : Bool
  rxEn : Bool
  eot : Bool
  cntBlockUpd : Bool
  cntBlock : BitVec 8
  sdioTimeout : BitVec 11
  inDataReady : Bool
  outDataValid : Bool

/-- `STATUS_RSP_TIMEOUT`. -/
def dataRspTimeout : BitVec 6 := 0x1

namespace SdioData

variable (data : SdioData) (input : SdioDataInput)

def reset : SdioData where
  state := .idle
  status := 0
  data := 0
  cnt := 0x1FF
  cntRunning := false
  cntByte := false
  cntBlock := 0
  byteInWord := 0
  bitCnt := 0
  sdioTimeout := 0
  crc := fun _ => 0
  sddata := 0

/-- `s_cnt_byte_evnt`: the last bit of a byte, or its last four. -/
def cntByteEvnt : Bool := data.bitCnt == if input.dataQuad then 1 else 7

/-- `s_cnt_done`. -/
def cntDone : Bool :=
  if data.cntByte then data.cnt == 0 && data.cntByteEvnt input else data.cnt == 0

/-- `s_lastbitofword`. -/
def lastbitofword : Bool := data.cntByteEvnt input && data.byteInWord == 3

/-- `s_cnt_block_done`. -/
def cntBlockDone : Bool := data.cntBlock == 0

/-! ## The word -/

/-- The place in the word of the lowest bit that a clock moves: a byte goes from its highest bit
to its lowest one, one or four bits at a time. -/
def bitPlace : Nat :=
  8 * data.byteInWord.toNat +
    if input.dataQuad then (if data.bitCnt == 0 then 4 else 0) else 7 - data.bitCnt.toNat

/-- `s_dataout`, as `proc_data_out` takes it from the word. -/
def dataout : BitVec 4 :=
  if input.dataQuad then data.data.extractLsb' (data.bitPlace input) 4
  else (data.data.extractLsb' (data.bitPlace input) 1).setWidth 4

/-- `s_datain`, as `proc_data_in` puts the lines into the word. -/
def datain : BitVec 32 :=
  if input.dataQuad then
    (data.data &&& ~~~(0xF#32 <<< data.bitPlace input)) |||
      (input.sddataI.setWidth 32 <<< data.bitPlace input)
  else
    (data.data &&& ~~~(1#32 <<< data.bitPlace input)) |||
      ((input.sddataI.extractLsb' 0 1).setWidth 32 <<< data.bitPlace input)

/-- `s_crc_out`. -/
def crcOut : BitVec 4 :=
  (BitVec.ofBoolListLE (List.ofFn fun lane : Fin 4 => crc16Serial (data.crc lane))).setWidth 4

/-- The values before the case statement. -/
def defaults : DataSignals where
  state := data.state
  sddata := 0
  sddataOen := true
  crcShift := false
  crcEn := true
  crcClr := false
  crcIntx := false
  cntStart := false
  cntTarget := 0
  cntByte := false
  status := 0
  statusSample := false
  busy := true
  clkEn := true
  rxEn := false
  eot := false
  cntBlockUpd := false
  cntBlock := data.cntBlock
  sdioTimeout := 0
  inDataReady := false
  outDataValid := false

/-- The case statement of `r_state`. -/
def signals : DataSignals :=
  let defaults := data.defaults
  match data.state with
  | .idle =>
      if input.dataStart then
        { defaults with
          busy := false, statusSample := true, cntBlockUpd := true, cntBlock := input.dataBlockNum
          state := if input.dataRwn then .rxStart else .txStart }
      else { defaults with busy := false, clkEn := false }
  | .txStart =>
      { defaults with
        state := .txShift, cntStart := true, cntByte := true
        cntTarget := input.dataBlockSize.setWidth 9, inDataReady := true }
  | .txShift =>
      let shifting := { defaults with sddata := data.dataout input, sddataOen := false }
      if data.cntDone input then
        { shifting with state := .txCrc, cntStart := true, cntTarget := 15 }
      else { shifting with inDataReady := data.lastbitofword input }
  | .txCrc =>
      let shifting :=
        { defaults with
          sddata := data.crcOut, sddataOen := false, crcShift := true, crcEn := false }
      if data.cntDone input then { shifting with state := .txEnd } else shifting
  | .txEnd =>
      { defaults with
        sddata := 0xF, sddataOen := false, crcEn := false, state := .txCrcstat, cntStart := true
        cntTarget := 7 }
  | .txCrcstat =>
      if data.cntDone input then
        { defaults with cntStart := true, cntTarget := 0x1FF, state := .txBusy }
      else defaults
  | .txBusy =>
      if data.cntDone input then
        if data.sdioTimeout == 0x3FF then { defaults with state := .idle, eot := true }
        else
          { defaults with
            sdioTimeout := data.sdioTimeout + 1, cntStart := true, cntTarget := 0x1FF }
      else if input.sddataI.getLsbD 0 then
        if data.cntBlockDone then { defaults with eot := true, state := .idle }
        else
          { defaults with
            cntBlockUpd := true, cntBlock := data.cntBlock - 1, state := .txStart }
      else defaults
  | .rxStart =>
      if !input.sddataI.getLsbD 0 then
        { defaults with
          cntStart := true, cntByte := true, cntTarget := input.dataBlockSize.setWidth 9
          state := .rxShift }
      else if data.cntDone input then
        { defaults with
          status := data.status ||| dataRspTimeout, statusSample := true, state := .idle }
      else defaults
  | .rxShift =>
      let shifting :=
        { defaults with rxEn := true, outDataValid := data.lastbitofword input, crcIntx := true }
      if data.cntDone input then
        { shifting with state := .rxCrc, cntStart := true, cntTarget := 15 }
      else shifting
  | .rxCrc =>
      let shifting :=
        { defaults with outDataValid := data.lastbitofword input, crcIntx := true }
      if data.cntDone input then
        if data.cntBlockDone then { shifting with eot := true, state := .idle }
        else
          { shifting with
            cntBlockUpd := true, cntBlock := data.cntBlock - 1, state := .rxStart }
      else shifting
  | .wait =>
      if data.cntDone input then { defaults with eot := true, state := .idle } else defaults
  | .txStop => defaults
  | .rxStop => defaults

/-- Lane 0 is always in use, the others with four lines. -/
def laneUsed (dataQuad : Bool) (lane : Fin 4) : Bool := lane.val == 0 || dataQuad

/-- The inputs of the CRC unit of a lane. -/
def crcInput (lane : Fin 4) : CrcInput where
  data :=
    if (data.signals input).crcIntx then input.sddataI.getLsbD lane
    else (data.signals input).sddata.getLsbD lane
  shift := laneUsed input.dataQuad lane && (data.signals input).crcShift
  clr := laneUsed input.dataQuad lane && (data.signals input).crcClr
  sample := laneUsed input.dataQuad lane && (data.signals input).crcEn

/-! ## A clock -/

/-- `r_cnt`, `r_cnt_running`, `r_cnt_byte` and `r_byte_in_word` after an edge. -/
def nextCnt : BitVec 9 × Bool × Bool × BitVec 2 :=
  if (data.signals input).cntStart then
    ((data.signals input).cntTarget, true, (data.signals input).cntByte, 0)
  else if data.cntDone input then (0x1FF, false, false, 0)
  else if data.cntRunning && (!data.cntByte || data.cntByteEvnt input) then
    (data.cnt - 1, data.cntRunning, data.cntByte,
      if data.cntByte then data.byteInWord + 1 else data.byteInWord)
  else (data.cnt, data.cntRunning, data.cntByte, data.byteInWord)

/-- `r_bit_cnt` after an edge. -/
def nextBitCnt : BitVec 3 :=
  if data.cntByte then (if data.cntByteEvnt input then 0 else data.bitCnt + 1) else data.bitCnt

/-- `r_data` after an edge. -/
def nextData : BitVec 32 :=
  if input.clrStat then 0
  else if (data.signals input).inDataReady then input.inData
  else if (data.signals input).rxEn then data.datain input
  else data.data

/-- One clock. -/
def step : SdioData where
  state := if input.clrStat then .idle else (data.signals input).state
  status :=
    if input.clrStat then 0
    else if (data.signals input).statusSample then (data.signals input).status
    else data.status
  data := data.nextData input
  cnt := (data.nextCnt input).1
  cntRunning := (data.nextCnt input).2.1
  cntByte := (data.nextCnt input).2.2.1
  cntBlock :=
    if (data.signals input).cntBlockUpd then (data.signals input).cntBlock else data.cntBlock
  byteInWord := (data.nextCnt input).2.2.2
  bitCnt := data.nextBitCnt input
  sdioTimeout := (data.signals input).sdioTimeout
  crc := fun lane => crc16 (data.crc lane) (data.crcInput input lane)
  sddata := (data.signals input).sddata

/-- `eot_o`. -/
def eotO : Bool := (data.signals input).eot

/-- `in_data_if_ready_o`. -/
def inDataReadyO : Bool := (data.signals input).inDataReady

/-- `out_data_if_valid_o`. -/
def outDataValidO : Bool := (data.signals input).outDataValid

/-- `sddata_oen_o` of a lane. -/
def sddataOenO (lane : Fin 4) : Bool :=
  if laneUsed input.dataQuad lane then (data.signals input).sddataOen else true

end SdioData

/-- `sdio_txrx_data` after reset. -/
def sdioData : Machine SdioData SdioDataInput where
  init := .reset
  step := SdioData.step

/-- Nothing happens, and the lines are high. -/
def quietData : SdioDataInput where
  clrStat := false
  dataStart := false
  dataBlockSize := 3
  dataBlockNum := 0
  dataRwn := true
  dataQuad := false
  inData := 0
  sddataI := 0xF

/-- A read is started. -/
def startsRead : SdioDataInput := { quietData with dataStart := true }

/-- A write is started. -/
def startsWrite : SdioDataInput := { quietData with dataStart := true, dataRwn := false }

end CoreVMcu.Sdio
