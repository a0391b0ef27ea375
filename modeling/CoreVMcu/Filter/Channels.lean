import Mathlib.Data.BitVec
import CoreVMcu.Udma.AddrGen
import CoreVMcu.Udma.GenericFifo

/-!
# The registers of the filter

`udma_filter_reg_if` has its registers twice: the ones that are written, and the
committed ones that the filter works with.  A start commits the registers when the
filter is done with the transfer before.

`udma_filter_tx_datafetch` fetches an operand and `udma_filter_rx_dataout` writes the
output back.  Both walk over addresses in two nested loops and are done with the last
word.
-/

namespace CoreVMcu.Filter

/-- The registers of an L2 channel. -/
structure ChannelCfg (aWidth transSize : Nat) where
  startAddr : BitVec aWidth
  datasize : BitVec 2
  mode : BitVec 2
  len0 : BitVec transSize
  len1 : BitVec transSize
  len2 : BitVec transSize

/-- The registers of the filter: the connection mode and the channels of operand A, of
operand B and of the output. -/
structure FilterCfg (aWidth transSize : Nat) where
  mode : BitVec 4
  txCh0 : ChannelCfg aWidth transSize
  txCh1 : ChannelCfg aWidth transSize
  rxCh : ChannelCfg aWidth transSize

variable {aWidth transSize : Nat}

/-- The registers after reset. -/
def ChannelCfg.zero : ChannelCfg aWidth transSize := ⟨0, 0, 0, 0, 0, 0⟩

def FilterCfg.zero : FilterCfg aWidth transSize := ⟨0, .zero, .zero, .zero⟩

/-- A register write: the registers of a channel stand one after the other. -/
def ChannelCfg.write (cfg : ChannelCfg aWidth transSize) (position : Nat) (data : BitVec 32) :
    ChannelCfg aWidth transSize :=
  match position with
  | 0 => { cfg with startAddr := data.setWidth aWidth }
  | 1 => { cfg with datasize := data.extractLsb' 0 2, mode := data.extractLsb' 8 2 }
  | 2 => { cfg with len0 := data.setWidth transSize }
  | 3 => { cfg with len1 := data.setWidth transSize }
  | _ => { cfg with len2 := data.setWidth transSize }

/-- A register write of the output channel: a length takes the low half of the word. -/
def ChannelCfg.writeRx (cfg : ChannelCfg aWidth transSize) (position : Nat) (data : BitVec 32) :
    ChannelCfg aWidth transSize :=
  match position with
  | 0 | 1 => cfg.write position data
  | _ => cfg.write position ((data.extractLsb' 0 16).setWidth 32)

/-- `UDMA_FILTER_REG_FILT` and `UDMA_FILTER_REG_FILT_CMD`. -/
def filtAddr : Nat := 22

def filtCmdAddr : Nat := 23

/-- A write to the register at an address. -/
def FilterCfg.write (cfg : FilterCfg aWidth transSize) (addr : BitVec 5) (data : BitVec 32) :
    FilterCfg aWidth transSize :=
  if addr.toNat < 5 then { cfg with txCh0 := cfg.txCh0.write addr.toNat data }
  else if addr.toNat < 10 then { cfg with txCh1 := cfg.txCh1.write (addr.toNat - 5) data }
  else if addr.toNat < 15 then { cfg with rxCh := cfg.rxCh.writeRx (addr.toNat - 10) data }
  else if addr.toNat = filtAddr then { cfg with mode := data.extractLsb' 0 4 }
  else cfg

/-- `r_state`. -/
inductive RegIfState
  | idle
  | sample
  | busy
  deriving DecidableEq

/-- The registers of `udma_filter_reg_if`. -/
structure RegIf (aWidth transSize : Nat) where
  rState : RegIfState
  rPending : Bool
  rFilterStart : Bool
  rFilter : FilterCfg aWidth transSize
  rCommit : FilterCfg aWidth transSize

/-- The configuration port in a cycle. -/
structure CfgWrite where
  cfgValid : Bool
  cfgRwn : Bool
  cfgAddr : BitVec 5
  cfgData : BitVec 32

namespace RegIf

variable (regIf : RegIf aWidth transSize) (filterDone : Bool)

def reset : RegIf aWidth transSize := ⟨.idle, false, false, .zero, .zero⟩

/-- `cfg_filter_start_o`. -/
def filterStart : Bool := regIf.rState == .sample

/-- `s_sample_commit`. -/
def sampleCommit : Bool :=
  match regIf.rState with
  | .idle => regIf.rFilterStart
  | .sample => false
  | .busy => filterDone && (regIf.rFilterStart || regIf.rPending)

/-- `s_state`. -/
def stateNext : RegIfState :=
  match regIf.rState with
  | .idle => if regIf.rFilterStart then .sample else .idle
  | .sample => .busy
  | .busy =>
      if filterDone then if regIf.rFilterStart || regIf.rPending then .sample else .idle
      else .busy

/-- `s_set_pending`. -/
def setPending : Bool := regIf.rState == .busy && regIf.rFilterStart && !filterDone

/-- `s_clr_pending`. -/
def clrPending : Bool :=
  regIf.rState == .busy && !regIf.rFilterStart && filterDone && regIf.rPending

/-- One clock edge. -/
def step (write : CfgWrite) : RegIf aWidth transSize where
  rState := regIf.stateNext filterDone
  rPending :=
    if regIf.clrPending filterDone then false
    else if regIf.setPending filterDone then true
    else regIf.rPending
  rFilterStart :=
    write.cfgValid && !write.cfgRwn && decide (write.cfgAddr.toNat = filtCmdAddr) &&
      write.cfgData.getLsbD 0
  rFilter :=
    if write.cfgValid && !write.cfgRwn then regIf.rFilter.write write.cfgAddr write.cfgData
    else regIf.rFilter
  rCommit := if regIf.sampleCommit filterDone then regIf.rFilter else regIf.rCommit

end RegIf

/-! ## The L2 channels of the filter -/

open Udma

variable {aWidth transSize dataWidth : Nat}

/-- The loops of a channel. -/
structure Walk (aWidth transSize : Nat) where
  rLocStartaddr : BitVec aWidth
  rLocPointer : BitVec aWidth
  rPtnBufferW : BitVec transSize
  rPtnBufferL : BitVec transSize

namespace Walk

variable (walk : Walk aWidth transSize) (cfg : ChannelCfg aWidth transSize)

def zero : Walk aWidth transSize := ⟨0, 0, 0, 0⟩

/-- The loops at the start of a transfer. -/
def start : Walk aWidth transSize := ⟨cfg.startAddr, cfg.startAddr, 0, 0⟩

/-- `s_datasize_toadd` as it is added to an address. -/
def toAdd : BitVec aWidth := (datasizeToAdd transSize cfg.datasize).setWidth aWidth

/-- The inner loop goes on by an amount. -/
def inner (amount : BitVec aWidth) : Walk aWidth transSize :=
  { walk with rPtnBufferW := walk.rPtnBufferW + 1, rLocPointer := walk.rLocPointer + amount }

/-- The outer loop goes on at an address. -/
def outer (address : BitVec aWidth) : Walk aWidth transSize :=
  { rLocStartaddr := address, rLocPointer := address, rPtnBufferW := 0
    rPtnBufferL := walk.rPtnBufferL + 1 }

/-- Both loops are in their last round. -/
def isLast : Bool := walk.rPtnBufferW == cfg.len0 && walk.rPtnBufferL == cfg.len1

end Walk

/-- The registers of `udma_filter_tx_datafetch`, without the marks of the first and last
words. -/
structure TxDatafetch (aWidth transSize dataWidth : Nat) where
  running : Bool
  rMode : BitVec 2
  walk : Walk aWidth transSize
  fifo : TxFifo 4 2 (BitVec dataWidth)

/-- The inputs of a fetching channel from L2 and from the arithmetic unit. -/
structure FetchInput (dataWidth : Nat) where
  gnt : Bool
  valid : Bool
  data : BitVec dataWidth
  streamReady : Bool

namespace TxDatafetch

variable (fetch : TxDatafetch aWidth transSize dataWidth) (cfg : ChannelCfg aWidth transSize)

def reset : TxDatafetch aWidth transSize dataWidth where
  running := false
  rMode := 0
  walk := .zero
  fifo := .reset 0

/-- `tx_ch_req_o`. -/
def req : Bool := fetch.fifo.req && fetch.running

/-- `s_start`. -/
def starts (cmdStart : Bool) : Bool := !fetch.running && cmdStart

/-- A word is granted to the FIFO. -/
def granted (input : FetchInput dataWidth) : Bool := fetch.fifo.req && input.gnt

/-- `cmd_done_o`. -/
def done (input : FetchInput dataWidth) : Bool :=
  fetch.granted input &&
    if fetch.rMode = 0 then fetch.walk.rPtnBufferW == cfg.len0 else fetch.walk.isLast cfg

/-- The loops after a granted word. -/
def walkNext : Walk aWidth transSize :=
  let walk := fetch.walk
  if fetch.rMode = 0 then
    -- linear
    if walk.rPtnBufferW == cfg.len0 then { walk with rPtnBufferW := 0 }
    else walk.inner (Walk.toAdd cfg)
  else if walk.isLast cfg then { walk with rPtnBufferW := 0, rPtnBufferL := 0 }
  else if walk.rPtnBufferW == cfg.len0 then
    -- sliding, circular and two-dimensional
    if fetch.rMode = 1 then walk.outer (walk.rLocStartaddr + Walk.toAdd cfg)
    else if fetch.rMode = 2 then walk.outer walk.rLocStartaddr
    else walk.outer (walk.rLocStartaddr + cfg.len2.setWidth aWidth)
  else walk.inner (Walk.toAdd cfg)

/-- One clock edge. -/
def step (cmdStart : Bool) (input : FetchInput dataWidth) :
    TxDatafetch aWidth transSize dataWidth where
  running := if fetch.running then !fetch.done cfg input else cmdStart
  rMode := if fetch.starts cmdStart then cfg.mode else fetch.rMode
  walk :=
    if fetch.starts cmdStart then .start cfg
    else if fetch.granted input then fetch.walkNext cfg
    else fetch.walk
  fifo := fetch.fifo.step
    { clr := false, gnt := input.gnt, validIn := input.valid, dataIn := input.data
      readyIn := input.streamReady }

end TxDatafetch

/-! ## Writing the output back -/

/-- The registers of `udma_filter_rx_dataout`. -/
structure RxDataout (aWidth transSize dataWidth : Nat) where
  running : Bool
  rMode : BitVec 2
  walk : Walk aWidth transSize
  fifo : IoGenericFifo (BitVec dataWidth)

/-- The inputs of the output channel from L2 and from the units before it. -/
structure DataoutInput (dataWidth : Nat) where
  ready : Bool
  streamValid : Bool
  streamData : BitVec dataWidth

namespace RxDataout

variable (out : RxDataout aWidth transSize dataWidth) (cfg : ChannelCfg aWidth transSize)

def reset : RxDataout aWidth transSize dataWidth where
  running := false
  rMode := 0
  walk := .zero
  fifo := .reset 0

/-- `s_start`. -/
def starts (cmdStart : Bool) : Bool := !out.running && cmdStart

/-- A word is written back while the channel runs. -/
def written (input : DataoutInput dataWidth) : Bool :=
  out.running && out.fifo.valid && input.ready

/-- `cmd_done_o`; the channel has no fourth mode. -/
def done (input : DataoutInput dataWidth) : Bool :=
  out.written input &&
    if out.rMode = 0 then out.walk.rPtnBufferW == cfg.len0
    else if out.rMode = 3 then false
    else out.walk.isLast cfg

/-- The loops after a written word. -/
def walkNext : Walk aWidth transSize :=
  let walk := out.walk
  if out.rMode = 0 then
    if walk.rPtnBufferW == cfg.len0 then { walk with rPtnBufferW := 0 }
    else walk.inner (Walk.toAdd cfg)
  else if out.rMode = 3 then walk
  else if walk.isLast cfg then { walk with rPtnBufferW := 0, rPtnBufferL := 0 }
  else if out.rMode = 1 then
    -- row by row
    if walk.rPtnBufferW == cfg.len0 then
      walk.outer (walk.rLocStartaddr + cfg.len2.setWidth aWidth)
    else walk.inner (Walk.toAdd cfg)
  else if walk.rPtnBufferL == cfg.len1 then
    -- column by column, with the loops the other way
    { rLocStartaddr := walk.rLocStartaddr + Walk.toAdd cfg
      rLocPointer := walk.rLocStartaddr + Walk.toAdd cfg
      rPtnBufferL := 0
      rPtnBufferW := walk.rPtnBufferW + 1 }
  else
    { walk with
      rPtnBufferL := walk.rPtnBufferL + 1
      rLocPointer := walk.rLocPointer + cfg.len2.setWidth aWidth }

/-- One clock edge. -/
def step (cmdStart : Bool) (input : DataoutInput dataWidth) :
    RxDataout aWidth transSize dataWidth where
  running := if out.running then !out.done cfg input else cmdStart
  rMode := if out.starts cmdStart then cfg.mode else out.rMode
  walk :=
    if out.starts cmdStart then .start cfg
    else if out.written input then out.walkNext cfg
    else out.walk
  fifo := out.fifo.step 4 false input.streamValid input.streamData input.ready

end RxDataout

end CoreVMcu.Filter
