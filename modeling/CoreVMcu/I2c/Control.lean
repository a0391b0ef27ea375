import CoreVMcu.Clocked.Machine
import Mathlib.Data.List.Basic

/-!
# I2C command interpreter

`udma_i2c_control` reads a stream of command bytes and drives the bus controller
with bit-level commands.  The bus controller is seen through its ports: it
acknowledges a command with `s_cmd_done`, some cycles after it was issued, and
presents the bit it sampled in `s_core_rxd`.
-/

namespace CoreVMcu.I2c

open Clocked

/-- `cmd_i` of the bus controller. -/
inductive BusCmd where
  | none
  | start
  | stop
  | write
  | read
  | wait
  deriving DecidableEq, Repr

/-- `CS` of the controller. -/
inductive ControlState where
  | waitInCmd
  | waitEv
  | cmdDone
  | read
  | write
  | storeData
  | skipCmd
  | getData
  | getWait
  | getWaitEv
  | getRpt
  | getCfgMsb
  | getCfgLsb
  deriving DecidableEq, Repr

/-- The command codes, `data_tx_i[7:4]`. -/
inductive CmdCode where
  | start
  | stop
  | rdAck
  | rdNack
  | wr
  | wait
  | rpt
  | cfg
  | waitEv
  deriving DecidableEq, Repr

/-- Decoding of a command byte; the other codes are no command. -/
def decode (dataTx : BitVec 8) : Option CmdCode :=
  match (dataTx.extractLsb' 4 4).toNat with
  | 0x0 => some .start
  | 0x2 => some .stop
  | 0x4 => some .rdAck
  | 0x6 => some .rdNack
  | 0x8 => some .wr
  | 0xA => some .wait
  | 0xC => some .rpt
  | 0xE => some .cfg
  | 0x1 => some .waitEv
  | _ => none

/-- Registers of `udma_i2c_control`. -/
structure I2cControl where
  cs : ControlState
  rptNum : BitVec 8
  data : BitVec 8
  bits : BitVec 8
  rdAck : Bool
  divNum : BitVec 16
  busy : Bool
  al : Bool
  evSel : BitVec 2
  deriving DecidableEq, Repr

/-- Inputs of a cycle, among them the outputs of the bus controller. -/
structure I2cInput where
  extEvents : BitVec 4
  dataTx : BitVec 8
  dataTxValid : Bool
  dataRxReady : Bool
  swRst : Bool
  cmdDone : Bool
  coreRxd : Bool
  busBusy : Bool
  busAl : Bool

/-- What the state machine drives in a cycle. -/
structure ControlSignals where
  ns : ControlState
  dataTxReady : Bool
  dataRxValid : Bool
  busIfCmd : BusCmd
  busIfCmdValid : Bool
  rdAck : Bool
  rptNum : BitVec 8
  bits : BitVec 8
  data : BitVec 8
  enBusCtrl : Bool
  divNum : BitVec 16
  sampleDiv : Bool
  sampleRpt : Bool
  sampleEv : Bool

/-- `{data[6:0], bit}`. -/
def shiftIn (data : BitVec 8) (bit : Bool) : BitVec 8 :=
  data.extractLsb' 0 7 ++ BitVec.ofBool bit

namespace I2cControl

/-- The registers after reset. -/
def reset : I2cControl :=
  { cs := .waitInCmd, rptNum := 0, data := 0, bits := 0, rdAck := false, divNum := 0x100
    busy := false, al := false, evSel := 0 }

/-- `s_event`: the selected external event. -/
def event (control : I2cControl) (input : I2cInput) : Bool :=
  input.extEvents.getLsbD control.evSel.toNat

/-- What the state machine drives unless a state says otherwise. -/
def defaults (control : I2cControl) : ControlSignals :=
  { ns := control.cs, dataTxReady := false, dataRxValid := false, busIfCmd := .none
    busIfCmdValid := false, rdAck := control.rdAck, rptNum := control.rptNum
    bits := control.bits, data := control.data, enBusCtrl := true, divNum := control.divNum
    sampleDiv := false, sampleRpt := false, sampleEv := false }

/-- `ST_WAIT_IN_CMD` with a valid command byte. -/
def decoded (control : I2cControl) (code : Option CmdCode) : ControlSignals :=
  let ready := { control.defaults with dataTxReady := true }
  match code with
  | some .start => { ready with busIfCmd := .start, busIfCmdValid := true, ns := .cmdDone }
  | some .stop => { ready with busIfCmd := .stop, busIfCmdValid := true, ns := .cmdDone }
  | some .wait => { ready with ns := .getWait }
  | some .waitEv => { ready with sampleEv := true, ns := .waitEv }
  | some .rdAck =>
      { ready with
        busIfCmd := .read, busIfCmdValid := true, rdAck := false, bits := 8, ns := .read }
  | some .rdNack =>
      { ready with
        busIfCmd := .read, busIfCmdValid := true, rdAck := true, bits := 8, ns := .read }
  | some .wr => { ready with ns := .getData }
  | some .rpt => { ready with ns := .getRpt }
  | some .cfg => { ready with ns := .getCfgMsb }
  | none => ready

/-- `ST_WAIT_IN_CMD`. -/
def waitInCmd (control : I2cControl) (input : I2cInput) : ControlSignals :=
  if input.dataTxValid then control.decoded (decode input.dataTx)
  else { control.defaults with dataTxReady := true }

/-- `ST_CMD_DONE`. -/
def cmdDone (control : I2cControl) (input : I2cInput) : ControlSignals :=
  if input.cmdDone && control.bits == 0 then { control.defaults with ns := .waitInCmd }
  else if input.cmdDone then
    { control.defaults with
      busIfCmd := .wait, busIfCmdValid := true, bits := control.bits - 1, ns := .cmdDone }
  else control.defaults

/-- `ST_WAIT_EV`. -/
def waitEv (control : I2cControl) (input : I2cInput) : ControlSignals :=
  if control.event input && control.bits == 0 then { control.defaults with ns := .waitInCmd }
  else if control.event input then
    { control.defaults with bits := control.bits - 1, ns := .waitEv }
  else control.defaults

/-- `ST_READ`. -/
def read (control : I2cControl) (input : I2cInput) : ControlSignals :=
  if input.cmdDone && control.bits == 1 then
    { control.defaults with
      busIfCmd := .write, busIfCmdValid := true, bits := control.bits - 1
      data := shiftIn control.data input.coreRxd, ns := .read }
  else if input.cmdDone && control.bits != 0 then
    { control.defaults with
      busIfCmd := .read, busIfCmdValid := true, bits := control.bits - 1
      data := shiftIn control.data input.coreRxd, ns := .read }
  else if input.cmdDone && control.bits == 0 then { control.defaults with ns := .storeData }
  else control.defaults

/-- `ST_STORE_DATA`. -/
def storeData (control : I2cControl) (input : I2cInput) : ControlSignals :=
  let valid := { control.defaults with dataRxValid := true }
  if input.dataRxReady then
    if control.rptNum == 0 then { valid with ns := .waitInCmd }
    else
      { valid with
        busIfCmd := .read, busIfCmdValid := true, bits := 8, sampleRpt := true
        rptNum := control.rptNum - 1, ns := .read }
  else valid

/-- `ST_GET_DATA`. -/
def getData (control : I2cControl) (input : I2cInput) : ControlSignals :=
  let ready := { control.defaults with dataTxReady := true }
  if input.dataTxValid then
    { ready with
      busIfCmd := .write, busIfCmdValid := true, data := input.dataTx, bits := 8, ns := .write }
  else ready

/-- `ST_SKIP_CMD`, which is left whether or not a byte is valid. -/
def skipCmd (control : I2cControl) : ControlSignals :=
  { control.defaults with dataTxReady := true, ns := .waitInCmd }

/-- `ST_GET_RPT`. -/
def getRpt (control : I2cControl) (input : I2cInput) : ControlSignals :=
  let ready := { control.defaults with dataTxReady := true }
  if input.dataTxValid then
    if input.dataTx == 0 then { ready with sampleRpt := true, rptNum := 0, ns := .skipCmd }
    else { ready with sampleRpt := true, rptNum := input.dataTx - 1, ns := .waitInCmd }
  else ready

/-- `ST_GET_CFG_MSB`. -/
def getCfgMsb (control : I2cControl) (input : I2cInput) : ControlSignals :=
  let ready := { control.defaults with dataTxReady := true }
  if input.dataTxValid then
    { ready with
      sampleDiv := true, divNum := input.dataTx ++ control.divNum.extractLsb' 0 8
      ns := .getCfgLsb }
  else ready

/-- `ST_GET_CFG_LSB`. -/
def getCfgLsb (control : I2cControl) (input : I2cInput) : ControlSignals :=
  let ready := { control.defaults with dataTxReady := true }
  if input.dataTxValid then
    { ready with
      sampleDiv := true, divNum := control.divNum.extractLsb' 8 8 ++ input.dataTx
      ns := .waitInCmd }
  else ready

/-- `ST_GET_WAIT`. -/
def getWait (control : I2cControl) (input : I2cInput) : ControlSignals :=
  let ready := { control.defaults with dataTxReady := true }
  if input.dataTxValid then
    { ready with
      busIfCmd := .wait, busIfCmdValid := true, bits := input.dataTx, ns := .cmdDone }
  else ready

/-- `ST_WRITE`. -/
def write (control : I2cControl) (input : I2cInput) : ControlSignals :=
  if input.cmdDone && control.bits == 1 then
    { control.defaults with
      busIfCmd := .read, busIfCmdValid := true, data := shiftIn control.data false
      bits := control.bits - 1, ns := .write }
  else if input.cmdDone && control.bits != 0 then
    { control.defaults with
      busIfCmd := .write, busIfCmdValid := true, data := shiftIn control.data false
      bits := control.bits - 1, ns := .write }
  else if input.cmdDone && control.bits == 0 && control.rptNum != 0 then
    { control.defaults with
      bits := 8, sampleRpt := true, rptNum := control.rptNum - 1, ns := .getData }
  else if input.cmdDone && control.bits == 0 && control.rptNum == 0 then
    { control.defaults with ns := .waitInCmd }
  else control.defaults

/-- The combinational part of the state machine. -/
def signals (control : I2cControl) (input : I2cInput) : ControlSignals :=
  match control.cs with
  | .waitInCmd => control.waitInCmd input
  | .cmdDone => control.cmdDone input
  | .waitEv => control.waitEv input
  | .read => control.read input
  | .storeData => control.storeData input
  | .getData => control.getData input
  | .skipCmd => control.skipCmd
  | .getRpt => control.getRpt input
  | .getCfgMsb => control.getCfgMsb input
  | .getCfgLsb => control.getCfgLsb input
  | .getWait => control.getWait input
  | .write => control.write input
  | .getWaitEv => { control.defaults with ns := .waitInCmd, enBusCtrl := false }

/-! ## What each state drives -/

section Signals

variable {control : I2cControl} {input : I2cInput}

theorem signals_getData (cs : control.cs = .getData) (valid : input.dataTxValid = true) :
    control.signals input =
      { control.defaults with
        dataTxReady := true, busIfCmd := .write, busIfCmdValid := true
        data := input.dataTx, bits := 8, ns := .write } := by
  rw [signals, cs]
  exact if_pos valid

theorem signals_getWait (cs : control.cs = .getWait) (valid : input.dataTxValid = true) :
    control.signals input =
      { control.defaults with
        dataTxReady := true, busIfCmd := .wait, busIfCmdValid := true
        bits := input.dataTx, ns := .cmdDone } := by
  rw [signals, cs]
  exact if_pos valid

section Acknowledged

variable (done : input.cmdDone = true)

include done

theorem signals_cmdDone_last (cs : control.cs = .cmdDone) (last : control.bits = 0) :
    control.signals input = { control.defaults with ns := .waitInCmd } := by
  rw [signals, cs]
  simp only [cmdDone, done, last, BEq.rfl, Bool.and_self, if_true]

theorem signals_cmdDone_more (cs : control.cs = .cmdDone) (more : control.bits ≠ 0) :
    control.signals input =
      { control.defaults with
        busIfCmd := .wait, busIfCmdValid := true, bits := control.bits - 1, ns := .cmdDone } := by
  have notLast : (control.bits == 0) = false := beq_false_of_ne more
  rw [signals, cs]
  simp only [cmdDone, done, notLast, Bool.and_false, Bool.false_eq_true, if_false, if_true]

theorem signals_read_last (cs : control.cs = .read) (last : control.bits = 0) :
    control.signals input = { control.defaults with ns := .storeData } := by
  rw [signals, cs]
  simp [read, done, last]

/-- The bit before the last one is followed by the acknowledge. -/
theorem signals_read_more (cs : control.cs = .read) (more : control.bits ≠ 0) :
    control.signals input =
      { control.defaults with
        busIfCmd := if control.bits = 1 then .write else .read, busIfCmdValid := true
        bits := control.bits - 1, data := shiftIn control.data input.coreRxd, ns := .read } := by
  rw [signals, cs]
  simp only [read, done, Bool.true_and, beq_iff_eq, bne_iff_ne]
  split <;> rfl

theorem signals_write_more (cs : control.cs = .write) (more : control.bits ≠ 0) :
    control.signals input =
      { control.defaults with
        busIfCmd := if control.bits = 1 then .read else .write, busIfCmdValid := true
        data := shiftIn control.data false, bits := control.bits - 1, ns := .write } := by
  rw [signals, cs]
  simp only [write, done, Bool.true_and, beq_iff_eq, bne_iff_ne]
  split <;> rfl

theorem signals_write_once (cs : control.cs = .write) (last : control.bits = 0)
    (once : control.rptNum = 0) :
    control.signals input = { control.defaults with ns := .waitInCmd } := by
  rw [signals, cs]
  simp [write, done, last, once]

theorem signals_write_again (cs : control.cs = .write) (last : control.bits = 0)
    (again : control.rptNum ≠ 0) :
    control.signals input =
      { control.defaults with
        bits := 8, sampleRpt := true, rptNum := control.rptNum - 1, ns := .getData } := by
  have notOne : ((0 : BitVec 8) == 1) = false := rfl
  have notMore : ((0 : BitVec 8) != 0) = false := rfl
  have repeats : (control.rptNum != 0) = true := bne_iff_ne.mpr again
  rw [signals, cs]
  simp only [write, done, last, notOne, notMore, repeats, BEq.rfl, Bool.and_true, Bool.and_false,
    Bool.false_eq_true, if_false, if_true]

end Acknowledged

theorem signals_storeData_full (cs : control.cs = .storeData) (full : input.dataRxReady = false) :
    control.signals input = { control.defaults with dataRxValid := true } := by
  rw [signals, cs]
  exact if_neg (Bool.eq_false_iff.mp full)

theorem signals_storeData_last (cs : control.cs = .storeData) (ready : input.dataRxReady = true)
    (last : control.rptNum = 0) :
    control.signals input = { control.defaults with dataRxValid := true, ns := .waitInCmd } := by
  rw [signals, cs]
  simp only [storeData, ready, last, BEq.rfl, if_true]

theorem signals_storeData_more (cs : control.cs = .storeData) (ready : input.dataRxReady = true)
    (more : control.rptNum ≠ 0) :
    control.signals input =
      { control.defaults with
        dataRxValid := true, busIfCmd := .read, busIfCmdValid := true, bits := 8
        sampleRpt := true, rptNum := control.rptNum - 1, ns := .read } := by
  have goesOn : (control.rptNum == 0) = false := beq_false_of_ne more
  rw [signals, cs]
  simp only [storeData, ready, goesOn, if_true, Bool.false_eq_true, if_false]

end Signals

/-- `s_core_txd`: the bit presented to the bus controller. -/
def coreTxd (control : I2cControl) (input : I2cInput) : Bool :=
  if control.cs = .read then control.rdAck else (control.signals input).data.getLsbD 7

/-- `data_tx_ready_o`. -/
def dataTxReady (control : I2cControl) (input : I2cInput) : Bool :=
  input.swRst || (control.signals input).dataTxReady

/-- `data_rx_valid_o`. -/
def dataRxValid (control : I2cControl) (input : I2cInput) : Bool :=
  input.swRst || (control.signals input).dataRxValid

/-- `busy_o`: the bus has become busy. -/
def busyRise (control : I2cControl) (input : I2cInput) : Bool := !control.busy && input.busBusy

/-- `al_o`: the arbitration has been lost. -/
def alRise (control : I2cControl) (input : I2cInput) : Bool := !control.al && input.busAl

/-- `err_o`. -/
def err (control : I2cControl) (input : I2cInput) : Bool :=
  control.busyRise input || control.alRise input

/-- One clock edge. -/
def step (control : I2cControl) (input : I2cInput) : I2cControl :=
  if input.swRst then reset
  else
    let signals := control.signals input
    { cs := signals.ns
      rptNum := if signals.sampleRpt then signals.rptNum else control.rptNum
      data := signals.data
      bits := signals.bits
      rdAck := signals.rdAck
      divNum := if signals.sampleDiv then signals.divNum else control.divNum
      busy := input.busBusy
      al := input.busAl
      evSel := if signals.sampleEv then input.dataTx.extractLsb' 0 2 else control.evSel }

end I2cControl

/-- The controller from reset. -/
def i2cMachine : Machine I2cControl I2cInput where
  init := .reset
  step := I2cControl.step

/-! ## What is seen at the ports -/

/-- A command to the bus controller with the bit it sends. -/
inductive BusOperation where
  | start
  | stop
  | write (bit : Bool)
  | read
  | wait
  deriving DecidableEq, Repr

/-- What a command to the bus controller asks for, with the bit presented with it. -/
def BusCmd.operation (bit : Bool) : BusCmd → List BusOperation
  | .none => []
  | .start => [.start]
  | .stop => [.stop]
  | .write => [.write bit]
  | .read => [.read]
  | .wait => [.wait]

namespace I2cControl

/-- The command byte taken in a cycle. -/
def consumedByte (control : I2cControl) (input : I2cInput) : List (BitVec 8) :=
  if control.dataTxReady input && input.dataTxValid then [input.dataTx] else []

/-- The byte that `data_rx` takes in a cycle. -/
def pushedByte (control : I2cControl) (input : I2cInput) : List (BitVec 8) :=
  if control.dataRxValid input && input.dataRxReady then [control.data] else []

/-- The bus command issued in a cycle. -/
def issuedOperation (control : I2cControl) (input : I2cInput) : List BusOperation :=
  let signals := control.signals input
  if signals.busIfCmdValid then signals.busIfCmd.operation (control.coreTxd input) else []

/-- The state machine waits for the acknowledge of a bus command. -/
def awaitsAck (control : I2cControl) : Bool :=
  match control.cs with
  | .cmdDone | .read | .write => true
  | _ => false

/-- Without its acknowledge the state machine drives nothing. -/
theorem signals_of_pending {control : I2cControl} {input : I2cInput}
    (waits : control.awaitsAck = true) (pending : input.cmdDone = false) :
    control.signals input = control.defaults := by
  rw [awaitsAck] at waits
  rw [signals]
  cases cs : control.cs with
  | cmdDone => simp only [cmdDone, pending, Bool.false_and, Bool.false_eq_true, if_false]
  | read => simp only [read, pending, Bool.false_and, Bool.false_eq_true, if_false]
  | write => simp only [write, pending, Bool.false_and, Bool.false_eq_true, if_false]
  | _ => simp only [cs, Bool.false_eq_true] at waits

/-- The bit that comes with the acknowledge of a bus command. -/
def busAnswer (control : I2cControl) (input : I2cInput) : List Bool :=
  if control.awaitsAck && input.cmdDone then [input.coreRxd] else []

end I2cControl

end CoreVMcu.I2c
