import CoreVMcu.Clocked.AsyncFifo
import CoreVMcu.Clocked.GrayCode
import CoreVMcu.Clocked.RingBuffer

/-!
# The asynchronous FIFO of the eFPGA subsystem

`A2_fifo` with its controller `fifo_ctl` (`fifo_push`, `fifo_pop` and the
synchronisers between them) and its memory `fifo_ram`, for `2 ^ aWidth` words.
The registers are grouped by the clock that writes them.

`fifo_ram` is written on `push & !full`, and `fifo_pop` advances on `pop & !empty`.
The address of `fifo_push` advances on `push` alone.
-/

namespace CoreVMcu.Efpga

open Clocked

variable {width aWidth : Nat}

/-- Registers of `fifo_push`, `poptopush1`, `poptopush2` and `data_ram`. -/
structure A2PushSide (width aWidth : Nat) where
  waddr : BitVec (aWidth + 1)
  gcoutReg : BitVec (aWidth + 1)
  full : Bool
  almostFull : Bool
  poptopush1 : BitVec (aWidth + 1)
  poptopush2 : BitVec (aWidth + 1)
  dataRam : BitVec aWidth → BitVec width

/-- Registers of `fifo_pop`, `pushtopop1`, `pushtopop2` and `latched_raddr`. -/
structure A2PopSide (aWidth : Nat) where
  raddr : BitVec (aWidth + 1)
  gcoutReg : BitVec (aWidth + 1)
  ffRaddr : BitVec aWidth
  empty : Bool
  almostEmpty : Bool
  pushtopop1 : BitVec (aWidth + 1)
  pushtopop2 : BitVec (aWidth + 1)
  latchedRaddr : BitVec aWidth

/-- `A2_fifo`. -/
@[ext]
structure A2Fifo (width aWidth : Nat) where
  push : A2PushSide width aWidth
  pop : A2PopSide aWidth

/-- The registers of `fifo_ram`, which have no reset. -/
structure UnresetRam (width aWidth : Nat) where
  dataRam : BitVec aWidth → BitVec width
  latchedRaddr : BitVec aWidth

namespace A2PushSide

/-- `f1` and `f2`: the addresses differ in their top bit only. -/
def fullAt (waddr raddr : BitVec (aWidth + 1)) : Bool :=
  BitVec.cons (!waddr.msb) (waddr.setWidth aWidth) == raddr

/-- `p1` and `p2`: one word is free, or the FIFO is nearly empty by one turn. -/
def almostFullAt (waddr raddr : BitVec (aWidth + 1)) : Bool :=
  waddr.setWidth aWidth + BitVec.ofNat aWidth 1 == raddr.setWidth aWidth

variable (side : A2PushSide width aWidth)

/-- `raddr_next`. -/
def raddrNext : BitVec (aWidth + 1) := grayDecode side.poptopush2

/-- `waddr_next` on a push, and the present address otherwise. -/
def waddrAfter (push : Bool) : BitVec (aWidth + 1) :=
  if push then side.waddr + 1#(aWidth + 1) else side.waddr

/-- One edge of `wclk`. -/
def edge (poptopush0 : BitVec (aWidth + 1)) (request : Option (BitVec width)) :
    A2PushSide width aWidth where
  waddr := side.waddrAfter request.isSome
  gcoutReg :=
    if request.isSome then grayEncode (side.waddr + 1#(aWidth + 1)) else side.gcoutReg
  full := fullAt (side.waddrAfter request.isSome) side.raddrNext
  almostFull := almostFullAt (side.waddrAfter request.isSome) side.raddrNext
  poptopush1 := poptopush0
  poptopush2 := side.poptopush1
  dataRam :=
    match request with
    | some wdata =>
        if side.full then side.dataRam
        else Function.update side.dataRam (side.waddr.setWidth aWidth) wdata
    | none => side.dataRam

end A2PushSide

namespace A2PopSide

/-- `o1` and `o2`. -/
def almostEmptyAt (raddr waddr : BitVec (aWidth + 1)) : Bool :=
  ((raddr + 1#(aWidth + 1)).setWidth aWidth).setWidth (aWidth + 1) == waddr

variable (side : A2PopSide aWidth)

/-- `waddr_next`. -/
def waddrNext : BitVec (aWidth + 1) := grayDecode side.pushtopop2

/-- `ren_in & !empty`. -/
def advances (pop : Bool) : Bool := pop && !side.empty

/-- `raddr_next` when the address advances, and the present address otherwise. -/
def raddrAfter (pop : Bool) : BitVec (aWidth + 1) :=
  if side.advances pop then side.raddr + 1#(aWidth + 1) else side.raddr

/-- `empty_next`. -/
def emptyNext (pop : Bool) : Bool := side.raddrAfter pop == side.waddrNext

/-- One edge of `rclk`. -/
def edge (pushtopop0 : BitVec (aWidth + 1)) (pop : Bool) : A2PopSide aWidth where
  raddr := side.raddrAfter pop
  gcoutReg :=
    if side.advances pop then grayEncode (side.raddr + 1#(aWidth + 1)) else side.gcoutReg
  ffRaddr :=
    if side.empty && !side.emptyNext pop then (side.raddr + 1#(aWidth + 1)).setWidth aWidth
    else if side.advances pop && !side.emptyNext pop then side.ffRaddr + BitVec.ofNat aWidth 1
    else side.ffRaddr
  empty := side.emptyNext pop
  almostEmpty := almostEmptyAt (side.raddrAfter pop) side.waddrNext
  pushtopop1 := pushtopop0
  pushtopop2 := side.pushtopop1
  latchedRaddr := if side.empty || pop then side.ffRaddr else side.latchedRaddr

end A2PopSide

namespace A2Fifo

/-- After `fflush`. -/
def flushed (ram : UnresetRam width aWidth) : A2Fifo width aWidth where
  push :=
    { waddr := 0, gcoutReg := 0, full := false, almostFull := false, poptopush1 := 0
      poptopush2 := 0, dataRam := ram.dataRam }
  pop :=
    { raddr := 0, gcoutReg := 0, ffRaddr := 0, empty := true, almostEmpty := false
      pushtopop1 := 0, pushtopop2 := 0, latchedRaddr := ram.latchedRaddr }

variable (fifo : A2Fifo width aWidth)

/-- `rdata`. -/
def rdata : BitVec width := fifo.push.dataRam fifo.pop.latchedRaddr

/-- The edges of one instant.  An edge of `wclk` samples `push` with `wdata`, one
of `rclk` samples `pop`. -/
def step (edges : FifoEdges (BitVec width)) : A2Fifo width aWidth where
  push :=
    match edges.push with
    | some request => fifo.push.edge fifo.pop.gcoutReg request
    | none => fifo.push
  pop :=
    match edges.pop with
    | some pop => fifo.pop.edge fifo.push.gcoutReg pop
    | none => fifo.pop

/-- Words pushed while not full. -/
def accepted (edges : FifoEdges (BitVec width)) : List (BitVec width) :=
  match edges.push with
  | some (some wdata) => if fifo.push.full then [] else [wdata]
  | _ => []

/-- Words popped while not empty. -/
def delivered (edges : FifoEdges (BitVec width)) : List (BitVec width) :=
  match edges.pop with
  | some pop => if fifo.pop.advances pop then [fifo.rdata] else []
  | none => []

end A2Fifo

end CoreVMcu.Efpga
