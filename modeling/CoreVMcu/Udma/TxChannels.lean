import CoreVMcu.Clocked.Machine
import CoreVMcu.Clocked.Lanes
import CoreVMcu.Udma.GenericFifo
import CoreVMcu.Udma.AddrGen
import CoreVMcu.Udma.L2Access

/-!
# TX channels of the uDMA

`udma_tx_channels` with a 32-bit L2 port: the requests of the linear and the
external channels are arbitrated, a granted request gets its address in the next
cycle and waits in a FIFO for the L2 port, and the answer of the L2 port is
realigned and delivered to the channel.  A linear channel takes its addresses
from its address generator, an external one brings its own.
-/

namespace CoreVMcu.Udma

open Clocked

/-- Inputs of a linear channel. -/
structure TxLinInput (aWidth transSize idWidth : Nat) where
  req : Bool
  datasize : BitVec 2
  destination : BitVec 2
  ready : Bool
  cfg : ChannelCfg aWidth transSize idWidth

/-- Inputs of an external channel. -/
structure TxExtInput (aWidth : Nat) where
  req : Bool
  addr : BitVec aWidth
  datasize : BitVec 2
  destination : BitVec 2
  ready : Bool

/-- Inputs of all channels. -/
structure TxInput (nLin nExt aWidth transSize idWidth : Nat) where
  lin : Fin nLin → TxLinInput aWidth transSize idWidth
  ext : Fin nExt → TxExtInput aWidth

/-- Inputs from the L2 port. -/
structure L2Reply where
  gnt : Bool
  rvalid : Bool
  rdata : BitVec 32

/-- `s_fifoin`: an access on its way to the L2 port. -/
structure TxAccess (aWidth : Nat) where
  dest : BitVec 2
  resp : Nat
  size : BitVec 2
  addr : BitVec aWidth
  deriving DecidableEq, Repr

/-- `r_tx_state`. -/
inductive TxState where
  | idle
  | nonAligned
  deriving DecidableEq, Repr

/-- Registers of `udma_tx_channels`. -/
structure TxChannels (aWidth transSize idWidth : Nat) {nLin nExt : Nat}
    (arbiter : Arbiter (nLin + nExt)) where
  arbiterState : arbiter.State
  addrgen : Fin nLin → ChAddrgen aWidth transSize idWidth
  fifo : IoGenericFifo (TxAccess aWidth)
  rGrant : Option (Fin (nLin + nExt))
  rInSize : BitVec 2
  rInDest : BitVec 2
  rInAddr : BitVec aWidth
  rTxState : TxState
  rResp : Nat
  rRespDly : Nat
  rValid : Bool
  rIsNa : Bool
  rSize : BitVec 2
  rAddr : BitVec 2
  rData : BitVec 32

/-- `s_data`: realignment of the answer of the L2 port. -/
def txData (size lsb : BitVec 2) (isNa wasNa : Bool) (data rdata : BitVec 32) : BitVec 32 :=
  match size.toNat with
  | 0 =>
      match lsb.toNat with
      | 0 => 0#24 ++ rdata.extractLsb' 0 8
      | 1 => 0#24 ++ rdata.extractLsb' 8 8
      | 2 => 0#24 ++ rdata.extractLsb' 16 8
      | _ => 0#24 ++ rdata.extractLsb' 24 8
  | 1 =>
      if isNa then 0#24 ++ rdata.extractLsb' 24 8
      else if wasNa then
        data.extractLsb' 16 16 ++ (rdata.extractLsb' 0 8 ++ data.extractLsb' 0 8)
      else
        match lsb.toNat with
        | 0 => 0#16 ++ rdata.extractLsb' 0 16
        | 1 => 0#16 ++ rdata.extractLsb' 8 16
        | _ => 0#16 ++ rdata.extractLsb' 16 16
  | 2 =>
      if isNa then
        match lsb.toNat with
        | 1 => 0#8 ++ rdata.extractLsb' 8 24
        | 2 => 0#16 ++ rdata.extractLsb' 16 16
        | _ => 0#24 ++ rdata.extractLsb' 24 8
      else if wasNa then
        match lsb.toNat with
        | 1 => rdata.extractLsb' 0 8 ++ data.extractLsb' 0 24
        | 2 => rdata.extractLsb' 0 16 ++ data.extractLsb' 0 16
        | _ => rdata.extractLsb' 0 24 ++ data.extractLsb' 0 8
      else rdata
  | _ => 0xDEADBEEF

/-- Depth of the FIFO in front of the L2 port. -/
def accessDepth : Nat := 4

namespace TxChannels

variable {nLin nExt aWidth transSize idWidth : Nat} {arbiter : Arbiter (nLin + nExt)}
variable (channels : TxChannels aWidth transSize idWidth arbiter)
variable (input : TxInput nLin nExt aWidth transSize idWidth) (reply : L2Reply)

/-- The registers after reset. -/
def reset : TxChannels aWidth transSize idWidth arbiter :=
  { arbiterState := arbiter.init, addrgen := fun _ => .reset
    fifo := .reset { dest := 0, resp := 0, size := 0, addr := 0 }
    rGrant := none, rInSize := 0, rInDest := 0, rInAddr := 0, rTxState := .idle, rResp := 0
    rRespDly := 0, rValid := false, rIsNa := false, rSize := 0, rAddr := 0, rData := 0 }

/-- `s_sample_indata`: there is room for one more access. -/
def sampleIndata : Bool := channels.fifo.ready accessDepth

/-- Inputs of the address generator of a linear channel. -/
def chControl (j : Fin nLin) : ChannelControl :=
  { notStall := channels.sampleIndata, datasize := channels.rInSize
    grant := channels.rGrant == some (j.castAdd nExt) }

/-- Configuration of the address generator of a linear channel: no stream. -/
def chCfg (j : Fin nLin) : ChannelCfg aWidth transSize idWidth :=
  { (input.lin j).cfg with stream := 0, streamId := 0 }

/-- `s_ch_en`, also `lin_en_o`. -/
def chEn (j : Fin nLin) : Bool := (channels.addrgen j).enPrev (chCfg input j) (channels.chControl j)

/-- `s_req`. -/
def req : Fin (nLin + nExt) → Bool :=
  Fin.append (fun j => (input.lin j).req && channels.chEn input j) (fun j => (input.ext j).req)

/-- `s_grant`. -/
def grant : Option (Fin (nLin + nExt)) :=
  arbiter.grant channels.arbiterState (channels.req input)

/-- `s_gnt`, the grants seen by the channels. -/
def gnt (lane : Fin (nLin + nExt)) : Bool :=
  channels.sampleIndata && channels.grant input == some lane

/-- `s_in_size`. -/
def inSize : BitVec 2 :=
  match channels.grant input with
  | some lane => Fin.append (fun j => (input.lin j).datasize) (fun j => (input.ext j).datasize) lane
  | none => 0

/-- `s_in_dest`. -/
def inDest : BitVec 2 :=
  match channels.grant input with
  | some lane =>
      Fin.append (fun j => (input.lin j).destination) (fun j => (input.ext j).destination) lane
  | none => 0

/-- `s_addr`. -/
def addr : BitVec aWidth :=
  match channels.rGrant with
  | some lane =>
      Fin.append (fun j => (channels.addrgen j).addresses)
        (fun _ : Fin nExt => channels.rInAddr) lane
  | none => 0

/-- `s_grant_log`. -/
def grantLog : Nat :=
  match channels.rGrant with
  | some lane => lane
  | none => 0

/-- `s_fifoin`. -/
def fifoIn : TxAccess aWidth :=
  { dest := channels.rInDest, resp := channels.grantLog, size := channels.rInSize
    addr := channels.addr }

/-- `s_fifoout`. -/
def fifoOut : TxAccess aWidth := channels.fifo.data

/-- `s_is_na`: the second word of an access is addressed. -/
def isNa : Bool := channels.rTxState == .nonAligned

/-- `s_detect_na` for the access at the L2 port. -/
def detectsNa : Bool :=
  detectNa channels.fifoOut.size (channels.fifoOut.addr.setWidth 2)

/-- `s_l2_gnt`: the access at the L2 port is complete. -/
def l2Gnt : Bool :=
  match channels.rTxState with
  | .idle => !channels.detectsNa && reply.gnt
  | .nonAligned => reply.gnt

/-- `s_tx_state_next`. -/
def txStateNext : TxState :=
  match channels.rTxState with
  | .idle => if channels.detectsNa && reply.gnt then .nonAligned else .idle
  | .nonAligned => if reply.gnt then .idle else .nonAligned

/-- `s_ch_ready`. -/
def chReady : Fin (nLin + nExt) → Bool :=
  Fin.append (fun j => (input.lin j).ready) (fun j => (input.ext j).ready)

/-- `s_stall`: the ready vector is masked with the bits of a channel number. -/
def stall : Bool :=
  (List.finRange (nLin + nExt)).any
    (fun lane => !chReady input lane && channels.rResp.testBit lane) && channels.rValid

/-- `l2_req_o`. -/
def l2Req : Bool := channels.fifo.valid && !channels.stall input

/-- `l2_addr_o`. -/
def l2Address : BitVec 32 := l2Addr channels.fifoOut.dest channels.fifoOut.addr channels.isNa

/-- `s_data`. -/
def data : BitVec 32 :=
  txData channels.rSize channels.rAddr channels.isNa channels.rIsNa channels.rData reply.rdata

/-- `lin_valid_o` and `ext_valid_o`. -/
def chValid (lane : Fin (nLin + nExt)) : Bool := channels.rRespDly == lane.val && channels.rValid

/-- `lin_data_o` and `ext_data_o`. -/
def chData (lane : Fin (nLin + nExt)) : BitVec 32 :=
  if channels.rRespDly == lane.val then channels.rData else 0xDEADBEEF

/-- One clock edge. -/
def step : TxChannels aWidth transSize idWidth arbiter :=
  let sample := channels.sampleIndata
  let issued := channels.fifo.valid && reply.gnt && !channels.isNa
  { arbiterState := arbiter.next channels.arbiterState (channels.req input) sample
    addrgen := fun j => (channels.addrgen j).step (chCfg input j) (channels.chControl j)
    fifo :=
      channels.fifo.step accessDepth false channels.rGrant.isSome channels.fifoIn
        (channels.l2Gnt reply)
    rGrant := if sample then channels.grant input else channels.rGrant
    rInSize := if sample then channels.inSize input else channels.rInSize
    rInDest := if sample then channels.inDest input else channels.rInDest
    rInAddr :=
      match channels.grant input with
      | some lane =>
          if sample then
            Fin.append (fun _ : Fin nLin => channels.rInAddr) (fun j => (input.ext j).addr) lane
          else channels.rInAddr
      | none => channels.rInAddr
    rTxState := channels.txStateNext reply
    rResp := if issued then channels.fifoOut.resp else channels.rResp
    rRespDly := channels.rResp
    rValid := reply.rvalid && !channels.isNa
    rIsNa := channels.isNa
    rSize := if issued then channels.fifoOut.size else channels.rSize
    rAddr := if issued then channels.fifoOut.addr.setWidth 2 else channels.rAddr
    rData := if reply.rvalid then channels.data reply else channels.rData }

end TxChannels

/-! ## The channels with their L2 port -/

/-- The channels and the L2 port, which answers in the cycle after a grant with the
word at the granted address. -/
structure TxSystem (aWidth transSize idWidth : Nat) {nLin nExt : Nat}
    (arbiter : Arbiter (nLin + nExt)) where
  channels : TxChannels aWidth transSize idWidth arbiter
  answering : Option (BitVec 32)

/-- Inputs of a cycle.  The L2 port grants a request when it is ready. -/
structure TxSystemInput (nLin nExt aWidth transSize idWidth : Nat) extends
    TxInput nLin nExt aWidth transSize idWidth where
  l2Ready : Bool

namespace TxSystem

variable {nLin nExt aWidth transSize idWidth : Nat} {arbiter : Arbiter (nLin + nExt)}
variable (memory : BitVec 32 → BitVec 8) (system : TxSystem aWidth transSize idWidth arbiter)
variable (input : TxSystemInput nLin nExt aWidth transSize idWidth)

/-- What the L2 port drives. -/
def reply : L2Reply :=
  { gnt := system.channels.l2Req input.toTxInput && input.l2Ready
    rvalid := system.answering.isSome
    rdata := (system.answering.map (readWord memory)).getD 0 }

/-- One clock edge. -/
def step : TxSystem aWidth transSize idWidth arbiter :=
  { channels := system.channels.step input.toTxInput (system.reply memory input)
    answering :=
      if (system.reply memory input).gnt then some system.channels.l2Address else none }

end TxSystem

/-- The channels and their L2 port from reset. -/
def txMachine {nLin nExt : Nat} (aWidth transSize idWidth : Nat) (arbiter : Arbiter (nLin + nExt))
    (memory : BitVec 32 → BitVec 8) :
    Machine (TxSystem aWidth transSize idWidth arbiter)
      (TxSystemInput nLin nExt aWidth transSize idWidth) where
  init := { channels := .reset, answering := none }
  step := TxSystem.step memory

end CoreVMcu.Udma
