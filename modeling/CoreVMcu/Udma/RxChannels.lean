import CoreVMcu.Clocked.Machine
import CoreVMcu.Clocked.Lanes
import CoreVMcu.Udma.GenericFifo
import CoreVMcu.Udma.AddrGen
import CoreVMcu.Udma.L2Access

/-!
# RX channels of the uDMA

`udma_rx_channels` with a 32-bit L2 port: the words of the linear and the external
channels are arbitrated and sampled, and in the next cycle a sampled word is pushed
into the FIFO of the L2 port or into the FIFO of the stream units, as the stream
mode of its channel says.  A linear channel takes its addresses from its address
generator, an external one brings its own.

The stream units only listen to the FIFO of the streams.  Their ready signals, which
`udma_stream_unit` does not drive, are inputs.
-/

namespace CoreVMcu.Udma

open Clocked

/-- Inputs of a linear channel. -/
structure RxLinInput (aWidth transSize idWidth : Nat) where
  valid : Bool
  data : BitVec 32
  datasize : BitVec 2
  destination : BitVec 2
  cfg : ChannelCfg aWidth transSize idWidth

/-- Inputs of an external channel. -/
structure RxExtInput (aWidth idWidth : Nat) where
  addr : BitVec aWidth
  datasize : BitVec 2
  destination : BitVec 2
  stream : BitVec 2
  streamId : BitVec idWidth
  sot : Bool
  eot : Bool
  valid : Bool
  data : BitVec 32

/-- Inputs of a cycle: the channels, `l2_gnt_i` and `s_stream_ready`. -/
structure RxInput (nLin nExt aWidth transSize idWidth : Nat) where
  lin : Fin nLin → RxLinInput aWidth transSize idWidth
  ext : Fin nExt → RxExtInput aWidth idWidth
  l2Gnt : Bool
  streamReady : BitVec idWidth → Bool

/-- `s_fifoin`: a word on its way to the L2 port. -/
structure RxAccess (aWidth idWidth : Nat) where
  bytes : BitVec 2
  storeL2 : Bool
  streamId : BitVec idWidth
  dest : BitVec 2
  size : BitVec 2
  addr : BitVec aWidth
  data : BitVec 32
  deriving DecidableEq, Repr

/-- `s_fifoin_stream`: a word on its way to a stream unit. -/
structure StreamWord where
  sot : Bool
  eot : Bool
  dest : BitVec 2
  size : BitVec 2
  data : BitVec 32
  deriving DecidableEq, Repr

/-- `s_stream_dest`: the bits of the word above its data size. -/
def StreamWord.unit (idWidth : Nat) (word : StreamWord) : BitVec idWidth :=
  (BitVec.ofBool word.sot ++ BitVec.ofBool word.eot ++ word.dest).setWidth idWidth

/-- `r_rx_state`. -/
inductive RxState where
  | idle
  | nonAligned
  deriving DecidableEq, Repr

/-- Registers of `udma_rx_channels`. -/
structure RxChannels (aWidth transSize idWidth : Nat) {nLin nExt : Nat}
    (arbiter : Arbiter (nLin + nExt)) where
  arbiterState : arbiter.State
  addrgen : Fin nLin → ChAddrgen aWidth transSize idWidth
  fifo : IoGenericFifo (RxAccess aWidth idWidth)
  filterFifo : IoGenericFifo StreamWord
  rData : BitVec 32
  rGrant : Option (Fin (nLin + nExt))
  rSize : BitVec 2
  rDest : BitVec 2
  rExtAddr : BitVec aWidth
  rExtStream : BitVec 2
  rExtStreamId : BitVec idWidth
  rExtSot : Bool
  rExtEot : Bool
  rRxState : RxState

/-- What the address generator or the external channel of the sampled word gives. -/
structure InsideMux (aWidth idWidth : Nat) where
  addr : BitVec aWidth
  bytes : BitVec 2
  stream : BitVec 2
  streamId : BitVec idWidth
  eot : Bool
  sot : Bool

/-- What the granted channel gives. -/
structure InputMux where
  size : BitVec 2
  data : BitVec 32
  dest : BitVec 2

/-- `s_default_bytes`. -/
def defaultBytes (size : BitVec 2) : BitVec 2 :=
  match size.toNat with
  | 1 => 1
  | 2 => 3
  | _ => 0

/-- `s_is_stream` and `!s_stream_use_buff`: the word goes to a stream unit. -/
def streamDirect (stream : BitVec 2) : Bool := stream.getLsbD 1 && !stream.getLsbD 0

/-- `s_stream_storel2`: the word of a stream goes to a buffer in L2. -/
def streamStoreL2 (stream : BitVec 2) : Bool := stream.getLsbD 1 && stream.getLsbD 0

/-- `s_target_l2`. -/
def targetL2 (stream : BitVec 2) : Bool := streamStoreL2 stream || !stream.getLsbD 1

/-- `s_l2_be` of an access of `bytes + 1` bytes. -/
def rxBe (size bytes lsb : BitVec 2) (isNa : Bool) : BitVec 4 :=
  match size.toNat with
  | 0 =>
      match lsb.toNat with
      | 0 => 0b0001
      | 1 => 0b0010
      | 2 => 0b0100
      | _ => 0b1000
  | 1 =>
      if bytes = 0 then
        match lsb.toNat with
        | 0 => 0b0001
        | 1 => 0b0010
        | 2 => 0b0100
        | _ => if isNa then 0b0000 else 0b1000
      else
        match lsb.toNat with
        | 0 => 0b0011
        | 1 => 0b0110
        | 2 => 0b1100
        | _ => if isNa then 0b0001 else 0b1000
  | 2 =>
      match bytes.toNat, lsb.toNat with
      | 0, 0 => 0b0001
      | 0, 1 => if isNa then 0b0000 else 0b0010
      | 0, 2 => if isNa then 0b0000 else 0b0100
      | 0, _ => if isNa then 0b0000 else 0b1000
      | 1, 0 => 0b0011
      | 1, 1 => if isNa then 0b0000 else 0b0110
      | 1, 2 => if isNa then 0b0000 else 0b1100
      | 1, _ => if isNa then 0b0001 else 0b1000
      | 2, 0 => 0b0111
      | 2, 1 => if isNa then 0b0000 else 0b1110
      | 2, 2 => if isNa then 0b0001 else 0b1100
      | 2, _ => if isNa then 0b0011 else 0b1000
      | _, 0 => 0b1111
      | _, 1 => if isNa then 0b0001 else 0b1110
      | _, 2 => if isNa then 0b0011 else 0b1100
      | _, _ => if isNa then 0b0111 else 0b1000
  | _ => 0b0000

/-- `l2_wdata_o`. -/
def rxWdata (size lsb : BitVec 2) (isNa : Bool) (data : BitVec 32) : BitVec 32 :=
  match size.toNat with
  | 0 =>
      match lsb.toNat with
      | 0 => 0#24 ++ data.extractLsb' 0 8
      | 1 => 0#16 ++ (data.extractLsb' 0 8 ++ 0#8)
      | 2 => 0#8 ++ (data.extractLsb' 0 8 ++ 0#16)
      | _ => data.extractLsb' 0 8 ++ 0#24
  | 1 =>
      match lsb.toNat with
      | 0 => 0#16 ++ data.extractLsb' 0 16
      | 1 => 0#8 ++ (data.extractLsb' 0 16 ++ 0#8)
      | 2 => data.extractLsb' 0 16 ++ 0#16
      | _ => if isNa then 0#24 ++ data.extractLsb' 8 8 else data.extractLsb' 0 8 ++ 0#24
  | 2 =>
      match lsb.toNat with
      | 0 => data
      | 1 => if isNa then 0#24 ++ data.extractLsb' 24 8 else data.extractLsb' 0 24 ++ 0#8
      | 2 => if isNa then 0#16 ++ data.extractLsb' 16 16 else data.extractLsb' 0 16 ++ 0#16
      | _ => if isNa then 0#8 ++ data.extractLsb' 8 24 else data.extractLsb' 0 8 ++ 0#24
  | _ => 0xDEADBEEF

/-- Depth of the two FIFOs. -/
def rxDepth : Nat := 4

namespace RxChannels

variable {nLin nExt aWidth transSize idWidth : Nat} {arbiter : Arbiter (nLin + nExt)}
variable (channels : RxChannels aWidth transSize idWidth arbiter)
variable (input : RxInput nLin nExt aWidth transSize idWidth)

/-- The registers after reset. -/
def reset : RxChannels aWidth transSize idWidth arbiter :=
  { arbiterState := arbiter.init, addrgen := fun _ => .reset
    fifo :=
      .reset
        { bytes := 0, storeL2 := false, streamId := 0, dest := 0, size := 0, addr := 0, data := 0 }
    filterFifo := .reset { sot := false, eot := false, dest := 0, size := 0, data := 0 }
    rData := 0, rGrant := none, rSize := 0, rDest := 0, rExtAddr := 0, rExtStream := 0
    rExtStreamId := 0, rExtSot := false, rExtEot := false, rRxState := .idle }

/-- `s_sample_indata`: both FIFOs have room. -/
def sampleIndata : Bool := channels.filterFifo.ready rxDepth && channels.fifo.ready rxDepth

/-- Inputs of the address generator of a linear channel. -/
def chControl (j : Fin nLin) : ChannelControl :=
  { notStall := channels.sampleIndata, datasize := channels.rSize
    grant := channels.rGrant == some (j.castAdd nExt) }

/-- `s_ch_en`, also `lin_ch_en_o`. -/
def chEn (j : Fin nLin) : Bool :=
  (channels.addrgen j).enPrev (input.lin j).cfg (channels.chControl j)

/-- `lin_ch_events_o`. -/
def chEvent (j : Fin nLin) : Bool := (channels.addrgen j).event

/-- `s_req`. -/
def req : Fin (nLin + nExt) → Bool :=
  Fin.append (fun j => (input.lin j).valid && channels.chEn input j) (fun j => (input.ext j).valid)

/-- `s_grant`. -/
def grant : Option (Fin (nLin + nExt)) :=
  arbiter.grant channels.arbiterState (channels.req input)

/-- `lin_ch_ready_o` and `ext_ch_ready_o`. -/
def chReady (lane : Fin (nLin + nExt)) : Bool :=
  channels.sampleIndata && channels.grant input == some lane

/-- `input_mux`. -/
def inputMux : InputMux :=
  match channels.grant input with
  | some lane =>
      Fin.append
        (fun j =>
          { size := (input.lin j).datasize, data := (input.lin j).data
            dest := (input.lin j).destination })
        (fun j =>
          { size := (input.ext j).datasize, data := (input.ext j).data
            dest := (input.ext j).destination })
        lane
  | none => { size := 0, data := 0, dest := 0 }

/-- `inside_mux` for a linear channel. -/
def linMux (j : Fin nLin) : InsideMux aWidth idWidth :=
  { addr := (channels.addrgen j).addresses
    bytes := (channels.addrgen j).currBytes (channels.chControl j)
    stream := (channels.addrgen j).stream, streamId := (channels.addrgen j).streamId
    eot := (channels.addrgen j).event, sot := (channels.addrgen j).sot }

/-- `inside_mux` for an external channel. -/
def extMux : InsideMux aWidth idWidth :=
  { addr := channels.rExtAddr, bytes := defaultBytes channels.rSize
    stream := channels.rExtStream, streamId := channels.rExtStreamId, eot := channels.rExtEot
    sot := channels.rExtSot }

/-- `inside_mux`. -/
def insideMux : InsideMux aWidth idWidth :=
  match channels.rGrant with
  | some lane => Fin.append channels.linMux (fun _ : Fin nExt => channels.extMux) lane
  | none => { addr := 0, bytes := 0, stream := 0, streamId := 0, eot := false, sot := false }

/-- `s_push_l2`. -/
def pushL2 : Bool := channels.rGrant.isSome && targetL2 channels.insideMux.stream

/-- `s_push_filter`. -/
def pushFilter : Bool := channels.rGrant.isSome && streamDirect channels.insideMux.stream

/-- `s_fifoin`. -/
def fifoIn : RxAccess aWidth idWidth :=
  { bytes := channels.insideMux.bytes, storeL2 := streamStoreL2 channels.insideMux.stream
    streamId := channels.insideMux.streamId, dest := channels.rDest, size := channels.rSize
    addr := channels.insideMux.addr, data := channels.rData }

/-- `s_fifoin_stream`. -/
def fifoInStream : StreamWord :=
  { sot := channels.insideMux.sot, eot := channels.insideMux.eot, dest := channels.rDest
    size := channels.rSize, data := channels.rData }

/-- `s_fifoout`. -/
def fifoOut : RxAccess aWidth idWidth := channels.fifo.data

/-- `s_fifoout_stream`. -/
def fifoOutStream : StreamWord := channels.filterFifo.data

/-- `s_stream_ready_demux`: the stream unit that the word is for is ready. -/
def streamReadyDemux : Bool := input.streamReady (channels.fifoOutStream.unit idWidth)

/-- `s_is_na`: the second word of an access is addressed. -/
def isNa : Bool := channels.rRxState == .nonAligned

/-- `s_detect_na` for the access at the L2 port. -/
def detectsNa : Bool :=
  detectNa channels.fifoOut.size (channels.fifoOut.addr.setWidth 2)

/-- `s_l2_gnt`: the access at the L2 port is complete. -/
def accessGnt : Bool :=
  match channels.rRxState with
  | .idle => !channels.detectsNa && input.l2Gnt
  | .nonAligned => input.l2Gnt

/-- `s_rx_state_next`. -/
def rxStateNext : RxState :=
  match channels.rRxState with
  | .idle => if channels.detectsNa && input.l2Gnt then .nonAligned else .idle
  | .nonAligned => if input.l2Gnt then .idle else .nonAligned

/-- `l2_req_o`. -/
def l2Req : Bool := channels.fifo.valid

/-- `l2_addr_o`. -/
def l2Address : BitVec 32 := l2Addr channels.fifoOut.dest channels.fifoOut.addr channels.isNa

/-- `l2_be_o`. -/
def l2Be : BitVec 4 :=
  rxBe channels.fifoOut.size channels.fifoOut.bytes (channels.fifoOut.addr.setWidth 2)
    channels.isNa

/-- `l2_wdata_o`. -/
def l2Wdata : BitVec 32 :=
  rxWdata channels.fifoOut.size (channels.fifoOut.addr.setWidth 2) channels.isNa
    channels.fifoOut.data

/-- One clock edge. -/
def step : RxChannels aWidth transSize idWidth arbiter :=
  let sample := channels.sampleIndata
  let granted := channels.inputMux input
  let sampledExt : Option (Fin nExt) :=
    if sample then
      (channels.grant input).bind fun lane => Fin.append (fun _ : Fin nLin => none) some lane
    else none
  { arbiterState := arbiter.next channels.arbiterState (channels.req input) sample
    addrgen := fun j => (channels.addrgen j).step (input.lin j).cfg (channels.chControl j)
    fifo :=
      channels.fifo.step rxDepth false channels.pushL2 channels.fifoIn (channels.accessGnt input)
    filterFifo :=
      channels.filterFifo.step rxDepth false channels.pushFilter channels.fifoInStream
        (channels.streamReadyDemux input)
    rData := if sample then granted.data else channels.rData
    rGrant := if sample then channels.grant input else channels.rGrant
    rSize := if sample then granted.size else channels.rSize
    rDest := if sample then granted.dest else channels.rDest
    rExtAddr := (sampledExt.map fun i => (input.ext i).addr).getD channels.rExtAddr
    rExtStream := (sampledExt.map fun i => (input.ext i).stream).getD channels.rExtStream
    rExtStreamId := (sampledExt.map fun i => (input.ext i).streamId).getD channels.rExtStreamId
    rExtSot := (sampledExt.map fun i => (input.ext i).sot).getD channels.rExtSot
    rExtEot := (sampledExt.map fun i => (input.ext i).eot).getD channels.rExtEot
    rRxState := channels.rxStateNext input }

end RxChannels

/-- The channels from reset. -/
def rxMachine {nLin nExt : Nat} (aWidth transSize idWidth : Nat)
    (arbiter : Arbiter (nLin + nExt)) :
    Machine (RxChannels aWidth transSize idWidth arbiter)
      (RxInput nLin nExt aWidth transSize idWidth) where
  init := .reset
  step := RxChannels.step

end CoreVMcu.Udma
