import CoreVMcu.Clocked.Machine
import CoreVMcu.Sdio.Crc

/-!
# The command line of the SDIO host

`sdio_txrx_cmd` sends a command and receives its response.  The line is registered at the
falling edge of the clock, so in every clock it shows the value that the state gives it in that
clock.
-/

namespace CoreVMcu.Sdio

open Clocked

/-! ## State -/

/-- `r_state`. -/
inductive CmdState where
  | idle | wait | waitBusy
  | txStart | txStop | txDir | txShift | txCrc
  | rxStart | rxStop | rxDir | rxShift | rxCrc
  deriving DecidableEq, Repr

/-- The registers of `sdio_txrx_cmd`. -/
structure SdioCmd where
  state : CmdState
  status : BitVec 6
  rsp : BitVec 136
  cmd : BitVec 38
  cnt : BitVec 8
  cntRunning : Bool
  crc : BitVec 7
  sdcmd : Bool
  sdcmdOen : Bool
  deriving DecidableEq, Repr

/-- The inputs of a clock. -/
structure SdioCmdInput where
  clrStat : Bool
  cmdStart : Bool
  cmdOp : BitVec 6
  cmdArg : BitVec 32
  cmdRspType : BitVec 3
  busy : Bool
  sdcmdI : Bool
  deriving DecidableEq, Repr

/-- What a response type says of the response. -/
structure RspFormat where
  en : Bool
  crc : Bool
  len : BitVec 8
  bsy : Bool

/-- The case statement of `cmd_rsp_type_i`. -/
def rspFormat (cmdRspType : BitVec 3) : RspFormat :=
  match cmdRspType.toNat with
  | 1 => { en := true, crc := true, len := 37, bsy := false }
  | 2 => { en := true, crc := false, len := 37, bsy := false }
  | 3 => { en := true, crc := false, len := 133, bsy := false }
  | 4 => { en := true, crc := true, len := 37, bsy := true }
  | _ => { en := false, crc := false, len := 0xFF, bsy := false }

def statusRspTimeout : BitVec 6 := 0b000001
def statusRspWrongDir : BitVec 6 := 0b000010
def statusRspBusyTimeout : BitVec 6 := 0b000100

/-- The combinational signals of a clock. -/
structure CmdSignals where
  state : CmdState
  sdcmd : Bool
  sdcmdOen : Bool
  shiftCmd : Bool
  shiftResp : Bool
  crcShift : Bool
  crcEn : Bool
  crcClr : Bool
  cntStart : Bool
  cntTarget : BitVec 8
  status : BitVec 6
  statusSample : Bool
  eot : Bool
  clkEn : Bool
  startWrite : Bool
  startRead : Bool

namespace SdioCmd

variable (cmd : SdioCmd) (input : SdioCmdInput)

def reset : SdioCmd where
  state := .idle
  status := 0
  rsp := 0
  cmd := 0
  cnt := 0xFF
  cntRunning := false
  crc := 0
  sdcmd := true
  sdcmdOen := true

/-- `s_cnt_done`. -/
def cntDone : Bool := cmd.cnt == 0

/-- The values before the case statement. -/
def defaults : CmdSignals where
  state := cmd.state
  sdcmd := true
  sdcmdOen := true
  shiftCmd := false
  shiftResp := false
  crcShift := false
  crcEn := false
  crcClr := false
  cntStart := false
  cntTarget := 0
  status := 0
  statusSample := false
  eot := false
  clkEn := true
  startWrite := false
  startRead := false

/-- The case statement of `r_state`. -/
def signals : CmdSignals :=
  let defaults := cmd.defaults
  let format := rspFormat input.cmdRspType
  match cmd.state with
  | .idle =>
      if input.cmdStart then { defaults with statusSample := true, state := .txStart }
      else { defaults with clkEn := false }
  | .txStart =>
      { defaults with sdcmd := false, sdcmdOen := false, crcClr := true, state := .txDir }
  | .txDir =>
      { defaults with
        sdcmd := true, sdcmdOen := false, crcEn := true, cntStart := true, cntTarget := 37
        state := .txShift }
  | .txShift =>
      let shifting :=
        { defaults with
          sdcmd := cmd.cmd.getLsbD 37, sdcmdOen := false, shiftCmd := true, crcEn := true }
      if cmd.cntDone then { shifting with state := .txCrc, cntStart := true, cntTarget := 6 }
      else shifting
  | .txCrc =>
      let shifting :=
        { defaults with
          sdcmd := crc7Serial cmd.crc, sdcmdOen := false, crcShift := true, crcEn := true }
      if cmd.cntDone then { shifting with state := .txStop } else shifting
  | .txStop =>
      let stopping :=
        { defaults with sdcmd := true, sdcmdOen := false, startRead := true, cntStart := true }
      if format.en then
        { stopping with cntTarget := 37, sdcmdOen := true, state := .rxStart }
      else { stopping with cntTarget := 7, state := .wait }
  | .rxStart =>
      if !input.sdcmdI then { defaults with state := .rxDir }
      else if cmd.cntDone then
        { defaults with
          status := cmd.status ||| statusRspTimeout, statusSample := true, state := .idle }
      else defaults
  | .rxDir =>
      if !input.sdcmdI then
        { defaults with cntStart := true, cntTarget := format.len, state := .rxShift }
      else
        { defaults with
          status := cmd.status ||| statusRspWrongDir, statusSample := true, state := .idle }
  | .rxShift =>
      let shifting := { defaults with shiftResp := true, crcEn := true }
      if cmd.cntDone then
        if format.crc then { shifting with state := .rxCrc, cntStart := true, cntTarget := 7 }
        else if format.bsy then
          { shifting with cntStart := true, cntTarget := 0xFF, state := .waitBusy }
        else { shifting with cntStart := true, cntTarget := 7, state := .wait }
      else shifting
  | .rxCrc =>
      if cmd.cntDone then { defaults with cntStart := true, cntTarget := 7, state := .wait }
      else defaults
  | .waitBusy =>
      if !input.busy then { defaults with cntStart := true, cntTarget := 7, state := .wait }
      else if cmd.cntDone then
        { defaults with
          status := cmd.status ||| statusRspBusyTimeout, statusSample := true, cntStart := true
          cntTarget := 7, state := .wait }
      else defaults
  | .wait =>
      if cmd.cntDone then { defaults with eot := true, startWrite := true, state := .idle }
      else defaults
  | .rxStop => defaults

/-- The inputs of the CRC unit: `s_crc_intx` is never set, so it follows the line. -/
def crcInput : CrcInput where
  data := (cmd.signals input).sdcmd
  shift := (cmd.signals input).crcShift
  clr := (cmd.signals input).crcClr
  sample := (cmd.signals input).crcEn

/-- `r_cnt` and `r_cnt_running` after an edge. -/
def nextCnt : BitVec 8 × Bool :=
  if (cmd.signals input).cntStart then ((cmd.signals input).cntTarget, true)
  else if cmd.cntDone then (0xFF, false)
  else if cmd.cntRunning then (cmd.cnt - 1, cmd.cntRunning)
  else (cmd.cnt, cmd.cntRunning)

/-- `r_cmd` after an edge: a start loads it in every state. -/
def nextCmd : BitVec 38 :=
  if input.cmdStart then input.cmdOp ++ input.cmdArg
  else if (cmd.signals input).shiftCmd then cmd.cmd <<< 1
  else cmd.cmd

/-- One clock. -/
def step : SdioCmd where
  state := if input.clrStat then .idle else (cmd.signals input).state
  status :=
    if input.clrStat then 0
    else if (cmd.signals input).statusSample then (cmd.signals input).status
    else cmd.status
  rsp :=
    if input.clrStat then 0
    else if (cmd.signals input).shiftResp then
      cmd.rsp.extractLsb' 0 135 ++ BitVec.ofBool input.sdcmdI
    else cmd.rsp
  cmd := if input.clrStat then 0 else cmd.nextCmd input
  cnt := (cmd.nextCnt input).1
  cntRunning := (cmd.nextCnt input).2
  crc := crc7 cmd.crc (cmd.crcInput input)
  sdcmd := (cmd.signals input).sdcmd
  sdcmdOen := (cmd.signals input).sdcmdOen

end SdioCmd

/-- `sdio_txrx_cmd` after reset. -/
def sdioCmd : Machine SdioCmd SdioCmdInput where
  init := .reset
  step := SdioCmd.step

end CoreVMcu.Sdio
