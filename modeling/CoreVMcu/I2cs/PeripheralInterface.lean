import Mathlib.Data.BitVec

/-!
# The I2C slave

`i2c_peripheral_interface` samples the lines of the bus, filters them and finds their
edges; a state machine turns the edges into accesses to the registers.
-/

namespace CoreVMcu.I2cs

/-- The last three samples of a line, the newest first. -/
structure Samples where
  newest : Bool
  middle : Bool
  oldest : Bool
  deriving DecidableEq

namespace Samples

def all (level : Bool) : Samples := ⟨level, level, level⟩

def push (samples : Samples) (level : Bool) : Samples := ⟨level, samples.newest, samples.middle⟩

end Samples

/-- The registers that sample the lines and find the edges. -/
structure Lines where
  sclD : Samples
  sdaD : Samples
  sclCs : Bool
  sclLs : Bool
  sdaCs : Bool
  sdaLs : Bool
  sdaCnt : BitVec 5
  sclCnt : BitVec 5
  startDetect : Bool
  stopDetect : Bool
  bitXfer : Bool
  bitRcvd : Bool
  deriving DecidableEq

/-- What the state machine sees of the lines; a bit comes with its transfer. -/
structure Edges where
  sclFall : Bool
  bit : Option Bool
  startDetect : Bool
  stopDetect : Bool
  deriving DecidableEq

def Edges.none : Edges := ⟨false, Option.none, false, false⟩

namespace Lines

variable (lines : Lines) (sclDelayLen sdaDelayLen : BitVec 8)

def reset : Lines where
  sclD := .all true
  sdaD := .all true
  sclCs := true
  sclLs := true
  sdaCs := true
  sdaLs := true
  sdaCnt := 0
  sclCnt := 0
  startDetect := false
  stopDetect := false
  bitXfer := false
  bitRcvd := false

/-- A line that has been the same for three samples is believed, else another value is. -/
def filtered (samples : Samples) (otherwise : Bool) : Bool :=
  if samples = .all false then false
  else if samples = .all true then true
  else otherwise

/-- What the state machine sees. -/
def edges : Edges where
  sclFall := !lines.sclCs && lines.sclLs
  bit := if lines.bitXfer then some lines.bitRcvd else none
  startDetect := lines.startDetect
  stopDetect := lines.stopDetect

/-- One clock edge. -/
def step (scl sda : Bool) : Lines where
  -- `scl_cnt` is never counted, the second counter is counted in its place
  sdaCnt :=
    if lines.sclCnt = sclDelayLen.setWidth 5 then
      if lines.sdaCnt = sdaDelayLen.setWidth 5 then 0 else lines.sdaCnt + 1
    else lines.sdaCnt + 1
  sclCnt := if lines.sclCnt = sclDelayLen.setWidth 5 then 0 else lines.sclCnt
  sclD := if lines.sclCnt = 0 then lines.sclD.push scl else lines.sclD
  sdaD := if lines.sdaCnt = 0 then lines.sdaD.push sda else lines.sdaD
  sclCs := filtered lines.sclD lines.sclCs
  sdaCs := filtered lines.sdaD lines.sclCs
  sclLs := lines.sclCs
  sdaLs := lines.sdaCs
  startDetect := if lines.sclCs then lines.sdaLs && !lines.sdaCs else false
  stopDetect := if lines.sclCs then !lines.sdaLs && lines.sdaCs else false
  bitXfer := lines.sclCs && !lines.sclLs
  bitRcvd := if lines.sclCs && !lines.sclLs then lines.sdaCs else lines.bitRcvd

end Lines

/-! ## The state machine -/

/-- `i2c_state`. -/
inductive I2cState
  | idle
  | devAddr
  | devAddrAck
  | regAddr
  | regAddrAck
  | regWData
  | regWDataAck
  | regRData
  | regRDataAck
  | wtStop
  deriving DecidableEq

/-- The registers of the state machine. -/
structure Fsm where
  i2cState : I2cState
  bitCnt : BitVec 4
  inByte : BitVec 8
  outByte : BitVec 8
  xferTypeRdWrn : Bool
  regAddr : BitVec 8
  sdaOut : Bool
  i2cRegWrenable : Bool
  i2cRdByteComplete : Bool
  deriving DecidableEq

/-- The configuration of the slave. -/
structure SlaveCfg where
  i2cDevAddr : BitVec 7
  i2cEnabled : Bool
  i2cSclDelayLen : BitVec 8
  i2cSdaDelayLen : BitVec 8

namespace Fsm

variable (cfg : SlaveCfg) (fsm : Fsm) (edges : Edges) (rddata : BitVec 8)

def reset : Fsm where
  i2cState := .idle
  bitCnt := 0
  inByte := 0
  outByte := 0
  xferTypeRdWrn := false
  regAddr := 0
  sdaOut := true
  i2cRegWrenable := false
  i2cRdByteComplete := false

/-- A byte with a bit shifted in. -/
def shiftIn (byte : BitVec 8) (bit : Bool) : BitVec 8 := (byte.setWidth 7 ++ BitVec.ofBool bit)

/-- A bit is shifted in when one is transferred. -/
def shifted : Fsm :=
  match edges.bit with
  | some bit => { fsm with bitCnt := fsm.bitCnt + 1, inByte := shiftIn fsm.inByte bit }
  | none => fsm

/-- The last bit of a byte ends. -/
def byteEnds : Bool := fsm.bitCnt == 8 && edges.sclFall

/-- `ST_DEVADDR`. -/
def devAddrStep : Fsm :=
  let next := { fsm.shifted edges with sdaOut := true }
  if edges.stopDetect then { next with i2cState := .idle }
  else if fsm.byteEnds edges then
    if fsm.inByte.extractLsb' 1 7 = cfg.i2cDevAddr then
      { next with
        bitCnt := 0, i2cState := .devAddrAck, xferTypeRdWrn := fsm.inByte.getLsbD 0 }
    else { next with bitCnt := 0, i2cState := .wtStop }
  else next

/-- `ST_DEVADDRACK`. -/
def devAddrAckStep : Fsm :=
  let next := { fsm with bitCnt := 0, sdaOut := false }
  if edges.stopDetect then { next with i2cState := .idle }
  else if edges.sclFall then
    if fsm.xferTypeRdWrn then
      { next with sdaOut := true, i2cState := .regRData, outByte := rddata }
    else { next with sdaOut := true, i2cState := .regAddr }
  else next

/-- `ST_REGADDR`. -/
def regAddrStep : Fsm :=
  let next := fsm.shifted edges
  if edges.stopDetect then { next with i2cState := .idle }
  else if edges.startDetect then { next with i2cState := .devAddr, bitCnt := 0 }
  else if fsm.byteEnds edges then { next with regAddr := fsm.inByte, i2cState := .regAddrAck }
  else next

/-- `ST_REGADDRACK`. -/
def regAddrAckStep : Fsm :=
  let next := { fsm with bitCnt := 0, sdaOut := false }
  if edges.stopDetect then { next with i2cState := .idle }
  else if edges.sclFall then { next with sdaOut := true, i2cState := .regWData }
  else next

/-- `ST_REGWDATA`. -/
def regWDataStep : Fsm :=
  let next := fsm.shifted edges
  if edges.stopDetect then { next with i2cState := .idle }
  else if edges.startDetect then { next with i2cState := .devAddr, bitCnt := 0 }
  else if fsm.byteEnds edges then { next with i2cRegWrenable := true, i2cState := .regWDataAck }
  else next

/-- `ST_REGWDATAACK`. -/
def regWDataAckStep : Fsm :=
  let next := { fsm with bitCnt := 0, i2cRegWrenable := false, sdaOut := false }
  if edges.stopDetect then { next with i2cState := .idle }
  else if edges.sclFall then { next with sdaOut := true, i2cState := .regWData }
  else next

/-- `ST_REGRDATA`. -/
def regRDataStep : Fsm :=
  let next := { fsm with sdaOut := fsm.outByte.getLsbD 7 }
  if edges.stopDetect then { next with i2cState := .idle }
  else if fsm.bitCnt = 8 then
    { next with sdaOut := true, i2cState := .regRDataAck, bitCnt := 0, i2cRdByteComplete := true }
  else if edges.sclFall then
    { next with outByte := shiftIn fsm.outByte false, bitCnt := fsm.bitCnt + 1 }
  else next

/-- `ST_REGRDATAACK`. -/
def regRDataAckStep : Fsm :=
  let next := { fsm with i2cRdByteComplete := false, sdaOut := true, bitCnt := 0 }
  if edges.stopDetect then { next with i2cState := .idle }
  else
    match edges.bit with
    | some true => { next with i2cState := .wtStop }
    | some false => { next with outByte := rddata, i2cState := .regRData }
    | none => next

/-- One clock edge. -/
def step : Fsm :=
  match fsm.i2cState with
  | .idle =>
      { fsm with
        bitCnt := 0
        inByte := 0
        sdaOut := true
        i2cState := if edges.startDetect && cfg.i2cEnabled then .devAddr else .idle }
  | .devAddr => fsm.devAddrStep cfg edges
  | .devAddrAck => fsm.devAddrAckStep edges rddata
  | .regAddr => fsm.regAddrStep edges
  | .regAddrAck => fsm.regAddrAckStep edges
  | .regWData => fsm.regWDataStep edges
  | .regWDataAck => fsm.regWDataAckStep edges
  | .regRData => fsm.regRDataStep edges
  | .regRDataAck => fsm.regRDataAckStep edges rddata
  | .wtStop =>
      { fsm with
        bitCnt := 0
        inByte := 0
        i2cState := if edges.stopDetect then .idle else .wtStop }

/-- The byte that is loaded from the registers in a cycle. -/
def byteLoaded : List (BitVec 8) :=
  match fsm.i2cState with
  | .devAddrAck =>
      if !edges.stopDetect && edges.sclFall && fsm.xferTypeRdWrn then [rddata] else []
  | .regRDataAck => if !edges.stopDetect && edges.bit == some false then [rddata] else []
  | _ => []

/-- The byte that is written to the registers in a cycle, with its address. -/
def byteWritten : List (BitVec 8 × BitVec 8) :=
  if fsm.i2cRegWrenable then [(fsm.regAddr, fsm.inByte)] else []

end Fsm

/-! ## The slave on the bus -/

/-- The registers of `i2c_peripheral_interface`. -/
structure Slave where
  lines : Lines
  fsm : Fsm
  deriving DecidableEq

/-- The bus in a clock: what the master drives, and the data of the registers. -/
structure BusInput where
  scl : Bool
  sda : Bool
  rddata : BitVec 8

namespace Slave

variable (cfg : SlaveCfg) (slave : Slave) (input : BusInput)

def reset : Slave := ⟨.reset, .reset⟩

/-- The data line is low when one of the two drives it low. -/
def sda : Bool := input.sda && slave.fsm.sdaOut

/-- One clock edge. -/
def step : Slave where
  lines :=
    slave.lines.step cfg.i2cSclDelayLen cfg.i2cSdaDelayLen input.scl (slave.sda input)
  fsm := slave.fsm.step cfg slave.lines.edges input.rddata

end Slave

end CoreVMcu.I2cs
