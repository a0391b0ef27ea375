import CoreVMcu.Clocked.Machine
import CoreVMcu.Udma.GenericFifo

/-!
# The SPI command interpreter

`udma_spim_ctrl` reads a stream of command words, sets up the transfers of the
serializer and waits for them to be done.  The commands of a repeat block are
recorded in a FIFO, from which they are replayed; a replayed command is put back
into the FIFO while it is taken out of it.
-/

namespace CoreVMcu.Spi

open Clocked CoreVMcu.Udma

/-- The commands of a stream, bits 31 to 28 of a word. -/
inductive SpiCmd where
  | cfg
  | sot
  | sendCmd
  | dummy
  | wait
  | txData
  | rxData
  | rpt
  | eot
  | rptEnd
  | rxCheck
  | fullDupl
  | setupUca
  | setupUcs
  deriving DecidableEq, Repr

/-- Decoding of a command word; the other codes are no command. -/
def spiCmd (word : BitVec 32) : Option SpiCmd :=
  match (word.extractLsb' 28 4).toNat with
  | 0x0 => some .cfg
  | 0x1 => some .sot
  | 0x2 => some .sendCmd
  | 0x4 => some .dummy
  | 0x5 => some .wait
  | 0x6 => some .txData
  | 0x7 => some .rxData
  | 0x8 => some .rpt
  | 0x9 => some .eot
  | 0xA => some .rptEnd
  | 0xB => some .rxCheck
  | 0xC => some .fullDupl
  | 0xD => some .setupUca
  | 0xE => some .setupUcs
  | _ => none

/-! ## Fields of a command word -/

def cdCfgCpol (word : BitVec 32) : Bool := word.getLsbD 9
def cdCfgCpha (word : BitVec 32) : Bool := word.getLsbD 8
def cdCfgClkdiv (word : BitVec 32) : BitVec 8 := word.extractLsb' 0 8
def cdCs (word : BitVec 32) : BitVec 2 := word.extractLsb' 0 2
def cdCfgQpi (word : BitVec 32) : Bool := word.getLsbD 27
def cdCfgLsb (word : BitVec 32) : Bool := word.getLsbD 26
def cdWordstransf (word : BitVec 32) : BitVec 2 := word.extractLsb' 21 2
def cdWordsize (word : BitVec 32) : BitVec 5 := word.extractLsb' 16 5
def cdSizeLong (word : BitVec 32) : BitVec 16 := word.extractLsb' 0 16
def cdEotEvt (word : BitVec 32) : Bool := word.getLsbD 0
def cdEotKeepCs (word : BitVec 32) : Bool := word.getLsbD 1
def cdCfgCheck (word : BitVec 32) : BitVec 16 := word.extractLsb' 0 16
def cdCfgChkType (word : BitVec 32) : BitVec 2 := word.extractLsb' 24 2
def cdWaitEvt (word : BitVec 32) : BitVec 2 := word.extractLsb' 0 2
def cdWaitCyc (word : BitVec 32) : BitVec 8 := word.extractLsb' 0 8
def cdWaitTyp (word : BitVec 32) : BitVec 2 := word.extractLsb' 8 2

/-- `s_wordstransf`: one less than the number of words in a transfer of 32 bits. -/
def wordstransf (word : BitVec 32) : BitVec 2 :=
  match (cdWordstransf word).toNat with
  | 0 => 0
  | 1 => 1
  | 2 => 3
  | _ => 0

/-! ## The registers and their next values -/

/-- `state`. -/
inductive CtrlState where
  | idle
  | waitDone
  | waitCheck
  | waitEvent
  | doRepeat
  | waitCycle
  | clearCs
  deriving DecidableEq, Repr

/-- `r_status`. -/
inductive SpiStatus where
  | none
  | check
  | eol
  deriving DecidableEq, Repr

/-- `REPLAY_BUFFER_DEPTH` as the top level sets it. -/
abbrev replayBufferDepth : Nat := 6

/-- Registers of `udma_spim_ctrl`.  A word of the replay buffer goes with the flag of
the first word of its block. -/
structure SpimCtrl where
  state : CtrlState
  cntRunning : Bool
  cntTarget : BitVec 8
  cnt : BitVec 8
  cfgCpol : Bool
  cfgCpha : Bool
  cfgClkdiv : BitVec 8
  updateCfg : Bool
  qpi : Bool
  isDummy : Bool
  evtSel : BitVec 2
  isFul : Bool
  txDone : Bool
  rxDone : Bool
  chkType : BitVec 2
  chk : BitVec 16
  chkResult : Bool
  isReplay : Bool
  firstReplay : Bool
  status : SpiStatus
  rptNum : BitVec 16
  csn : BitVec 4
  replayBuffer : IoGenericFifo (Bool × BitVec 32)

/-- Inputs of a cycle: the two streams of the uDMA, the events and the outputs of the
serializer. -/
structure CtrlInput where
  event : BitVec 4
  udmaCmd : BitVec 32
  udmaCmdValid : Bool
  udmaTxData : BitVec 32
  udmaTxDataValid : Bool
  udmaRxDataReady : Bool
  txDone : Bool
  txDataReady : Bool
  rxDone : Bool
  rxData : BitVec 32
  rxDataValid : Bool

/-- The setup of a transfer in one direction. -/
structure TransferSetup where
  start : Bool
  size : BitVec 16
  bitsword : BitVec 5
  wordtransf : BitVec 2
  lsbfirst : Bool
  qpi : Bool
  deriving DecidableEq, Repr

/-- What the state machine drives in a cycle. -/
structure CtrlSignals where
  stateNext : CtrlState
  udmaCmdReady : Bool
  udmaTxDataReady : Bool
  udmaRxData : BitVec 32
  udmaRxDataValid : Bool
  rxDataReady : Bool
  tx : TransferSetup
  txData : BitVec 32
  txDataValid : Bool
  rx : TransferSetup
  eot : Bool
  updateChk : Bool
  updateCfg : Bool
  updateCs : Bool
  updateQpi : Bool
  updateEvt : Bool
  clearCs : Bool
  isDummy : Bool
  qpi : Bool
  isFul : Bool
  updateChkResult : Bool
  chkResult : Bool
  isReplay : Bool
  setupReplay : Bool
  rptNum : BitVec 16
  updateRpt : Bool
  clrRptBuf : Bool
  cntStart : Bool
  cntTarget : BitVec 8
  replayBufferOutReady : Bool
  setFirstReply : Bool
  clrFirstReply : Bool
  updateStatus : Bool
  status : SpiStatus

namespace SpimCtrl

/-- The registers after reset. -/
def reset : SpimCtrl :=
  { state := .idle, cntRunning := false, cntTarget := 0, cnt := 0, cfgCpol := false
    cfgCpha := false, cfgClkdiv := 0, updateCfg := false, qpi := false, isDummy := false
    evtSel := 0, isFul := false, txDone := false, rxDone := false, chkType := 0, chk := 0
    chkResult := false, isReplay := false, firstReplay := false, status := .none, rptNum := 0
    csn := 0xF, replayBuffer := .reset (false, 0) }

variable (ctrl : SpimCtrl) (input : CtrlInput)

/-- The word that is decoded: the next one of the stream or of the replay buffer. -/
def word : BitVec 32 := if ctrl.isReplay then ctrl.replayBuffer.data.2 else input.udmaCmd

/-- `s_first_replay`. -/
def firstOfBlock : Bool := ctrl.replayBuffer.data.1

/-- `s_done`. -/
def done : Bool :=
  if ctrl.isFul then (input.txDone || ctrl.txDone) && (input.rxDone || ctrl.rxDone)
  else input.txDone || input.rxDone

/-- `s_event`: the selected event. -/
def event : Bool := input.event.getLsbD ctrl.evtSel.toNat

/-- `s_cnt_done`. -/
def cntDone : Bool := ctrl.cntRunning && ctrl.cntTarget == ctrl.cnt

/-- `s_chk_result`, by the type of the check. -/
def checkResult : Bool :=
  let data := input.rxData.extractLsb' 0 16
  match ctrl.chkType.toNat with
  | 0 => data == ctrl.chk
  | 1 => data &&& ctrl.chk == ctrl.chk
  | 2 => ~~~data &&& ~~~ctrl.chk == ~~~ctrl.chk
  | _ => data &&& ctrl.chk != ctrl.chk

/-- What the state machine drives unless a state says otherwise. -/
def defaults : CtrlSignals :=
  let noTransfer : TransferSetup :=
    { start := false, size := 0, bitsword := 0, wordtransf := 0, lsbfirst := false
      qpi := ctrl.qpi }
  { stateNext := ctrl.state, udmaCmdReady := false, udmaTxDataReady := false, udmaRxData := 0
    udmaRxDataValid := false, rxDataReady := false, tx := noTransfer, txData := 0
    txDataValid := false, rx := noTransfer, eot := false, updateChk := false, updateCfg := false
    updateCs := false, updateQpi := false, updateEvt := false, clearCs := false
    isDummy := ctrl.isDummy, qpi := ctrl.qpi, isFul := ctrl.isFul, updateChkResult := false
    chkResult := false, isReplay := ctrl.isReplay, setupReplay := false, rptNum := ctrl.rptNum
    updateRpt := false, clrRptBuf := false, cntStart := false, cntTarget := 0
    replayBufferOutReady := false, setFirstReply := false, clrFirstReply := false
    updateStatus := false, status := ctrl.status }

/-- A command is there to be decoded. -/
def cmdAvailable : Bool :=
  if ctrl.isReplay then ctrl.replayBuffer.valid else input.udmaCmdValid

/-- A replayed command that ends the loop. -/
def leavesLoop : Bool := (ctrl.rptNum == 0 && ctrl.firstOfBlock) || ctrl.chkResult

/-- Where a command is taken from, and the bookkeeping of the loop. -/
def taken : CtrlSignals :=
  let base := { ctrl.defaults with isFul := false }
  if !ctrl.isReplay then { base with udmaCmdReady := true }
  else
    let replayed := { base with replayBufferOutReady := true }
    if ctrl.leavesLoop then
      { replayed with
        updateStatus := true, status := if ctrl.chkResult then .check else .eol
        updateChkResult := true, chkResult := false, isReplay := false }
    else if ctrl.firstOfBlock then
      { replayed with updateRpt := true, rptNum := ctrl.rptNum - 1 }
    else replayed

/-- What a decoded command does. -/
def execute (base : CtrlSignals) (word : BitVec 32) : CtrlSignals :=
  match spiCmd word with
  | some .cfg =>
      { base with updateCfg := true, cntStart := true, cntTarget := 1, stateNext := .waitCycle }
  | some .sot =>
      { base with
        updateCs := true, cntStart := true, cntTarget := cdWaitCyc word, stateNext := .waitCycle }
  | some .sendCmd =>
      { base with
        updateQpi := true, qpi := cdCfgQpi word
        tx :=
          { start := true, size := 0, bitsword := cdWordsize word, wordtransf := 0
            lsbfirst := false, qpi := cdCfgQpi word }
        txDataValid := true, txData := (cdSizeLong word).setWidth 32, stateNext := .waitDone }
  | some .wait =>
      if cdWaitTyp word == 0 then { base with updateEvt := true, stateNext := .waitEvent }
      else if cdWaitTyp word == 1 then
        { base with cntStart := true, cntTarget := cdWaitCyc word, stateNext := .waitCycle }
      else base
  | some .dummy =>
      { base with
        updateQpi := true, qpi := cdCfgQpi word
        rx :=
          { start := true, size := 0, bitsword := cdWordsize word, wordtransf := 0
            lsbfirst := false, qpi := cdCfgQpi word }
        isDummy := true, stateNext := .waitDone }
  | some .txData =>
      { base with
        updateQpi := true, qpi := cdCfgQpi word
        tx :=
          { start := true, size := cdSizeLong word, bitsword := cdWordsize word
            wordtransf := wordstransf word, lsbfirst := cdCfgLsb word, qpi := cdCfgQpi word }
        stateNext := .waitDone }
  | some .rxData =>
      { base with
        updateQpi := true, qpi := cdCfgQpi word
        rx :=
          { start := true, size := cdSizeLong word, bitsword := cdWordsize word
            wordtransf := wordstransf word, lsbfirst := cdCfgLsb word, qpi := cdCfgQpi word }
        stateNext := .waitDone }
  | some .fullDupl =>
      let transfer : TransferSetup :=
        { start := true, size := cdSizeLong word, bitsword := cdWordsize word
          wordtransf := wordstransf word, lsbfirst := cdCfgLsb word, qpi := false }
      { base with
        isFul := true, updateQpi := true, qpi := false, tx := transfer, rx := transfer
        stateNext := .waitDone }
  | some .rxCheck =>
      { base with
        updateQpi := true, updateChk := true, qpi := cdCfgQpi word
        rx :=
          { start := true, size := 0, bitsword := (cdWordsize word).extractLsb' 0 4 |>.setWidth 5
            wordtransf := 0, lsbfirst := cdCfgLsb word, qpi := cdCfgQpi word }
        stateNext := .waitCheck }
  | some .rpt =>
      { base with
        updateRpt := true, clrRptBuf := true, rptNum := cdSizeLong word, setFirstReply := true
        stateNext := .doRepeat, updateStatus := true, status := .none }
  | some .eot =>
      { base with
        eot := cdEotEvt word
        stateNext := if cdEotKeepCs word then .idle else .clearCs }
  | some .rptEnd | some .setupUca | some .setupUcs | none => base

/-- `IDLE`. -/
def idle : CtrlSignals :=
  if ctrl.cmdAvailable input then execute ctrl.taken (ctrl.word input)
  else { ctrl.defaults with isFul := false }

/-- `DO_REPEAT`: the commands are recorded up to the end of the block. -/
def doRepeat : CtrlSignals :=
  if input.udmaCmdValid then
    let recorded := { ctrl.defaults with clrFirstReply := true, udmaCmdReady := true }
    if spiCmd (ctrl.word input) = some .rptEnd then
      { recorded with setupReplay := false, isReplay := true, stateNext := .idle }
    else { recorded with setupReplay := true }
  else ctrl.defaults

/-- `WAIT_DONE`. -/
def waitDone : CtrlSignals :=
  let passing :=
    { ctrl.defaults with
      txData := input.udmaTxData
      txDataValid := input.udmaTxDataValid
      udmaTxDataReady := input.txDataReady
      udmaRxData := input.rxData
      udmaRxDataValid := !ctrl.isDummy && input.rxDataValid
      rxDataReady := input.udmaRxDataReady }
  if ctrl.done input then { passing with stateNext := .idle, isDummy := false } else passing

/-- `WAIT_CHECK`. -/
def waitCheck : CtrlSignals :=
  let checking :=
    { ctrl.defaults with
      rxDataReady := true
      updateChkResult := input.rxDataValid
      chkResult := input.rxDataValid && ctrl.checkResult input }
  if input.rxDone then { checking with stateNext := .idle, isDummy := false } else checking

/-- The combinational part of the state machine. -/
def signals : CtrlSignals :=
  match ctrl.state with
  | .idle => ctrl.idle input
  | .doRepeat => ctrl.doRepeat input
  | .waitDone => ctrl.waitDone input
  | .waitCheck => ctrl.waitCheck input
  | .waitEvent =>
      if ctrl.event input then { ctrl.defaults with stateNext := .idle } else ctrl.defaults
  | .waitCycle =>
      if ctrl.cntDone then { ctrl.defaults with stateNext := .idle } else ctrl.defaults
  | .clearCs => { ctrl.defaults with clearCs := true, stateNext := .idle }

/-- The replay buffer after a clock edge: a replayed word is put back in the cycle in
which it is taken out. -/
def nextReplayBuffer (signals : CtrlSignals) : IoGenericFifo (Bool × BitVec 32) :=
  let word := if ctrl.isReplay then ctrl.replayBuffer.data else (ctrl.firstReplay, input.udmaCmd)
  let valid :=
    if signals.setupReplay then input.udmaCmdValid
    else ctrl.isReplay && (signals.replayBufferOutReady && ctrl.replayBuffer.valid)
  ctrl.replayBuffer.step replayBufferDepth signals.clrRptBuf valid word
    signals.replayBufferOutReady

/-- The chip selects (active low) after a clock edge. -/
def nextCsn (signals : CtrlSignals) : BitVec 4 :=
  if signals.updateCs then ctrl.csn &&& ~~~(1#4 <<< (cdCs (ctrl.word input)).toNat)
  else if signals.clearCs then 0xF
  else ctrl.csn

/-- One clock edge. -/
def step : SpimCtrl :=
  let signals := ctrl.signals input
  let word := ctrl.word input
  { state := signals.stateNext
    cntTarget := if signals.cntStart then signals.cntTarget else ctrl.cntTarget
    cntRunning :=
      if ctrl.cntRunning then !(ctrl.cntDone && !signals.cntStart) else signals.cntStart
    cnt := if ctrl.cntRunning then if ctrl.cntDone then 0 else ctrl.cnt + 1 else ctrl.cnt
    cfgCpol := if signals.updateCfg then cdCfgCpol word else ctrl.cfgCpol
    cfgCpha := if signals.updateCfg then cdCfgCpha word else ctrl.cfgCpha
    cfgClkdiv := if signals.updateCfg then cdCfgClkdiv word else ctrl.cfgClkdiv
    updateCfg := signals.updateCfg
    qpi := if signals.updateQpi then signals.qpi else ctrl.qpi
    isDummy := signals.isDummy
    evtSel := if signals.updateEvt then cdWaitEvt word else ctrl.evtSel
    isFul := signals.isFul
    txDone := input.txDone
    rxDone := input.rxDone
    chkType := if signals.updateChk then cdCfgChkType word else ctrl.chkType
    chk := if signals.updateChk then cdCfgCheck word else ctrl.chk
    chkResult := if signals.updateChkResult then signals.chkResult else ctrl.chkResult
    isReplay := signals.isReplay
    firstReplay :=
      if signals.clrFirstReply then false else signals.setFirstReply || ctrl.firstReplay
    status := if signals.updateStatus then signals.status else ctrl.status
    rptNum := if signals.updateRpt then signals.rptNum else ctrl.rptNum
    csn := ctrl.nextCsn input signals
    replayBuffer := ctrl.nextReplayBuffer input signals }

end SpimCtrl

end CoreVMcu.Spi
