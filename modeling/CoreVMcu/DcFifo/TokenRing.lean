import CoreVMcu.Clocked.Machine
import CoreVMcu.Clocked.RingBuffer

/-!
# The dual-clock token-ring FIFO

`dc_token_ring_fifo_din` writes words into a buffer at the position of a two-hot
write token; `dc_token_ring_fifo_dout` reads them at the position of a two-hot
read token.  The write token reaches the destination through two flip-flops.  The
read pointer reaches the full detector directly, and its verdict is synchronised.
-/

namespace CoreVMcu.DcFifo

open Clocked

variable {dataWidth bufferDepth : Nat}

/-- `dc_synchronizer`: two flip-flops. -/
structure DcSynchronizer (Value : Type) where
  dMiddle : Value
  dOut : Value

/-- One clock edge of a synchroniser. -/
def DcSynchronizer.step {Value : Type} (synchronizer : DcSynchronizer Value) (dIn : Value) :
    DcSynchronizer Value :=
  { dMiddle := dIn, dOut := synchronizer.dMiddle }

/-- `onehot_to_bin`: the union of the indices of all raised bits. -/
def onehotToBin (onehot : BitVec bufferDepth) : Nat :=
  (List.range bufferDepth).foldl
    (fun bin index => if onehot.getLsbD index then bin ||| index else bin) 0

/-- `|v`, the reduction of a vector. -/
def anyBit (vector : BitVec bufferDepth) : Bool := vector != BitVec.ofNat bufferDepth 0

/-! ## The source side -/

/-- Registers of `dc_token_ring_fifo_din`: the write token, the full detector and
the data buffer. -/
structure TokenRingDin (dataWidth bufferDepth : Nat) where
  writeToken : BitVec bufferDepth
  fullSynch : DcSynchronizer Bool
  latchedFull : Bool
  buffer : Nat → BitVec dataWidth

namespace TokenRingDin

variable (din : TokenRingDin dataWidth bufferDepth)

/-- `write_pointer`. -/
def writePointer : BitVec bufferDepth := din.writeToken.rotateLeft 1 &&& din.writeToken

/-- `full_dn` of the full detector: at most two slots are free. -/
def fullDn (readPointer : BitVec bufferDepth) : Bool :=
  anyBit (readPointer &&& din.writePointer.rotateLeft 1) ||
    anyBit (readPointer &&& din.writePointer.rotateLeft 2) ||
    anyBit (readPointer &&& din.writePointer.rotateLeft 3)

/-- `stall`, the output of the full detector. -/
def stall : Bool := din.latchedFull && din.fullSynch.dOut

def ready : Bool := !din.stall

def writeEnable (valid : Bool) : Bool := valid && din.ready

/-- `data_async`. -/
def dataAsync (readPointer : BitVec bufferDepth) : BitVec dataWidth :=
  din.buffer (onehotToBin readPointer)

/-- One edge of the source clock. -/
def step (readPointer : BitVec bufferDepth) (valid : Bool) (data : BitVec dataWidth) :
    TokenRingDin dataWidth bufferDepth where
  writeToken := if din.writeEnable valid then din.writeToken.rotateLeft 1 else din.writeToken
  fullSynch := din.fullSynch.step (din.fullDn readPointer)
  latchedFull := din.fullSynch.dOut || valid
  buffer :=
    if din.writeEnable valid then
      Function.update din.buffer (onehotToBin din.writePointer) data
    else din.buffer

end TokenRingDin

/-- Registers of `dc_token_ring_fifo_dout`: the read token and the synchronised
write token. -/
structure TokenRingDout (bufferDepth : Nat) where
  readToken : BitVec bufferDepth
  emptySynch : DcSynchronizer (BitVec bufferDepth)

namespace TokenRingDout

variable (dout : TokenRingDout bufferDepth)

/-- `read_pointer`. -/
def readPointer : BitVec bufferDepth :=
  dout.readToken.rotateLeft 2 &&& dout.readToken.rotateLeft 3

/-- `empty`. -/
def empty : BitVec bufferDepth :=
  ~~~dout.emptySynch.dOut &&& dout.emptySynch.dOut.rotateRight 1 &&&
    dout.readPointer.rotateRight 2

def valid : Bool := !anyBit dout.empty

def readEnable (ready : Bool) : Bool := dout.valid && ready

/-- One edge of the destination clock. -/
def step (writeToken : BitVec bufferDepth) (ready : Bool) : TokenRingDout bufferDepth where
  readToken := if dout.readEnable ready then dout.readToken.rotateLeft 1 else dout.readToken
  emptySynch := dout.emptySynch.step writeToken

end TokenRingDout

/-! ## The two sides connected -/

/-- `dc_token_ring_fifo_din` connected to `dc_token_ring_fifo_dout`. -/
structure TokenRingFifo (dataWidth bufferDepth : Nat) where
  din : TokenRingDin dataWidth bufferDepth
  dout : TokenRingDout bufferDepth

/-- The clock edges of one instant, each with the inputs that it samples: `valid`
and `data` at an edge of the source clock, `ready` at one of the destination
clock. -/
structure ClockEdges (dataWidth : Nat) where
  source : Option (Bool × BitVec dataWidth)
  destination : Option Bool

/-- Both sides from a common reset. -/
def fifoMachine (dataWidth bufferDepth : Nat) :
    Machine (TokenRingFifo dataWidth bufferDepth) (ClockEdges dataWidth) where
  init :=
    { din :=
        { writeToken := BitVec.ofNat bufferDepth 0xC
          fullSynch := ⟨false, false⟩
          latchedFull := false
          buffer := fun _ => 0 }
      dout :=
        { readToken := BitVec.ofNat bufferDepth 0x3
          emptySynch := ⟨BitVec.ofNat bufferDepth 0xC, BitVec.ofNat bufferDepth 0xC⟩ } }
  step fifo edges :=
    { din :=
        match edges.source with
        | some (valid, data) => fifo.din.step fifo.dout.readPointer valid data
        | none => fifo.din
      dout :=
        match edges.destination with
        | some ready => fifo.dout.step fifo.din.writeToken ready
        | none => fifo.dout }

/-- Words accepted at the source at an instant. -/
def accepted (fifo : TokenRingFifo dataWidth bufferDepth) (edges : ClockEdges dataWidth) :
    List (BitVec dataWidth) :=
  match edges.source with
  | some (valid, data) => if fifo.din.writeEnable valid then [data] else []
  | none => []

/-- Slots written at an instant. -/
def writtenSlots (fifo : TokenRingFifo dataWidth bufferDepth) (edges : ClockEdges dataWidth) :
    List Nat :=
  (accepted fifo edges).map fun _ => onehotToBin fifo.din.writePointer

/-- Words transferred at the destination at an instant. -/
def transferred (fifo : TokenRingFifo dataWidth bufferDepth) (edges : ClockEdges dataWidth) :
    List (BitVec dataWidth) :=
  match edges.destination with
  | some ready =>
      if fifo.dout.readEnable ready then [fifo.din.dataAsync fifo.dout.readPointer] else []
  | none => []

/-- The FIFO after a run, and at the instant after it. -/
structure FifoIsFifo (dataWidth bufferDepth : Nat) (inputs : List (ClockEdges dataWidth)) :
    Prop where
  /-- No loss, no duplication, no reordering. -/
  inOrder : (fifoMachine dataWidth bufferDepth).observed transferred inputs <+:
    (fifoMachine dataWidth bufferDepth).observed accepted inputs
  /-- The slot written next holds no word that is yet to be read. -/
  noOverwrite : ∀ valid,
    ((fifoMachine dataWidth bufferDepth).run inputs).din.writeEnable valid = true →
    onehotToBin ((fifoMachine dataWidth bufferDepth).run inputs).din.writePointer ∉
      ((fifoMachine dataWidth bufferDepth).observed writtenSlots inputs).drop
        ((fifoMachine dataWidth bufferDepth).observed transferred inputs).length
  /-- `valid` at the destination promises an unread word. -/
  validUnread : ((fifoMachine dataWidth bufferDepth).run inputs).dout.valid = true →
    ((fifoMachine dataWidth bufferDepth).observed transferred inputs).length <
      ((fifoMachine dataWidth bufferDepth).observed accepted inputs).length

end CoreVMcu.DcFifo
