import CoreVMcu.Clocked.Machine
import Mathlib.Data.List.Forall2

/-!
# The TCDM to AXI bridge

`lint_2_axi` with 32-bit data and without a registered grant issues the requests of a
TCDM master as AXI transactions of one beat.  The payload of the AXI channels is taken
from the request inputs while the master holds them.
-/

namespace CoreVMcu.Interconnect

open Clocked

/-- A request at the TCDM port. -/
structure LintRequest (idWidth auxWidth : Nat) where
  addr : BitVec 32
  we : Bool
  wdata : BitVec 32
  be : BitVec 4
  id : BitVec idWidth
  aux : BitVec auxWidth
  deriving DecidableEq, Repr

/-- Inputs of a cycle. -/
structure Lint2AxiInput (idWidth auxWidth : Nat) where
  dataReq : Bool
  request : LintRequest idWidth auxWidth
  awReady : Bool
  wReady : Bool
  bValid : Bool
  bResp : BitVec 2
  arReady : Bool
  rValid : Bool
  rData : BitVec 32
  rResp : BitVec 2

/-- States of the FSM. -/
inductive Lint2AxiState where
  | idle
  | readWait
  | writeData
  | writeAddr
  | writeWait
  deriving DecidableEq, Repr

/-- What the FSM drives. -/
structure Lint2AxiOut where
  next : Lint2AxiState
  granted : Bool
  valid : Bool
  rOpc : Bool
  awValid : Bool
  wValid : Bool
  bReady : Bool
  arValid : Bool
  rReady : Bool

/-- A beat of an address channel. -/
structure AxiAddrBeat where
  addr : BitVec 32
  size : BitVec 3
  len : BitVec 8
  burst : BitVec 2
  deriving DecidableEq, Repr

/-- A beat of the write data channel. -/
structure AxiDataBeat where
  data : BitVec 32
  strb : BitVec 4
  last : Bool
  deriving DecidableEq, Repr

/-- What the master gets with `data_rvalid_o`. -/
structure LintAnswer (idWidth auxWidth : Nat) where
  rdata : BitVec 32
  ropc : Bool
  id : BitVec idWidth
  aux : BitVec auxWidth
  deriving DecidableEq, Repr

namespace LintRequest

variable {idWidth auxWidth : Nat} (request : LintRequest idWidth auxWidth)

/-- `aw_addr_o` and `ar_addr_o` with the length of one beat. -/
def addrBeat : AxiAddrBeat :=
  { addr := request.addr, size := 0b010, len := 0, burst := 0 }

/-- `w_data_o`, `w_strb_o` and `w_last_o`. -/
def dataBeat : AxiDataBeat := { data := request.wdata, strb := request.be, last := true }

end LintRequest

/-- Registers of the bridge. -/
structure Lint2Axi (idWidth auxWidth : Nat) where
  cs : Lint2AxiState
  rId : BitVec idWidth
  rAux : BitVec auxWidth
  deriving DecidableEq, Repr

namespace Lint2Axi

variable {idWidth auxWidth : Nat}

/-- The registers after reset. -/
def reset : Lint2Axi idWidth auxWidth := { cs := .idle, rId := 0, rAux := 0 }

variable (bridge : Lint2Axi idWidth auxWidth) (input : Lint2AxiInput idWidth auxWidth)

/-- The FSM. -/
def out : Lint2AxiOut :=
  let quiet : Lint2AxiOut :=
    { next := bridge.cs, granted := false, valid := false, rOpc := false, awValid := false
      wValid := false, bReady := false, arValid := false, rReady := false }
  match bridge.cs with
  | .idle =>
      if input.dataReq then
        if input.request.we then
          let issues := { quiet with awValid := true, wValid := true }
          if input.awReady then
            if input.wReady then { issues with granted := true, next := .writeWait }
            else { issues with next := .writeData }
          else if input.wReady then { issues with next := .writeAddr }
          else { issues with next := .idle }
        else
          let issues := { quiet with arValid := true }
          if input.arReady then { issues with granted := true, next := .readWait }
          else { issues with next := .idle }
      else { quiet with next := .idle }
  | .writeData =>
      let issues := { quiet with wValid := true }
      if input.wReady then { issues with granted := true, next := .writeWait } else issues
  | .writeAddr =>
      let issues := { quiet with awValid := true }
      if input.awReady then { issues with granted := true, next := .writeWait } else issues
  | .writeWait =>
      let waits := { quiet with bReady := true }
      if input.bValid then
        { waits with valid := true, rOpc := input.bResp.getLsbD 1, next := .idle }
      else waits
  | .readWait =>
      if input.rValid then
        { quiet with valid := true, rReady := true, rOpc := input.rResp.getLsbD 1, next := .idle }
      else quiet

/-- One clock edge. -/
def step : Lint2Axi idWidth auxWidth :=
  let granted := (bridge.out input).granted
  { cs := (bridge.out input).next
    rId := if granted then input.request.id else bridge.rId
    rAux := if granted then input.request.aux else bridge.rAux }

def awFires : Bool := (bridge.out input).awValid && input.awReady

def wFires : Bool := (bridge.out input).wValid && input.wReady

def arFires : Bool := (bridge.out input).arValid && input.arReady

def bFires : Bool := input.bValid && (bridge.out input).bReady

def rFires : Bool := input.rValid && (bridge.out input).rReady

/-- What is answered at the TCDM port. -/
def answer : LintAnswer idWidth auxWidth :=
  { rdata := input.rData, ropc := (bridge.out input).rOpc, id := bridge.rId, aux := bridge.rAux }

end Lint2Axi

/-! ## The bridge between a master and a slave -/

/-- A response beat of the slave. -/
inductive AxiResponse where
  | b (resp : BitVec 2)
  | r (data : BitVec 32) (resp : BitVec 2)
  deriving DecidableEq, Repr

/-- The bridge with what its partners see: the request and the beats that were
presented but not taken in the last cycle, and the handshakes so far. -/
structure Lint2AxiSystem (idWidth auxWidth : Nat) where
  bridge : Lint2Axi idWidth auxWidth
  held : Option (LintRequest idWidth auxWidth)
  stalledAw : Option AxiAddrBeat
  stalledW : Option AxiDataBeat
  stalledAr : Option AxiAddrBeat
  aws : Nat
  ws : Nat
  bs : Nat
  ars : Nat
  rs : Nat
  deriving DecidableEq

namespace Lint2AxiSystem

variable {idWidth auxWidth : Nat}
variable (system : Lint2AxiSystem idWidth auxWidth) (input : Lint2AxiInput idWidth auxWidth)

/-- One clock edge. -/
def step : Lint2AxiSystem idWidth auxWidth where
  bridge := system.bridge.step input
  held := if input.dataReq && !(system.bridge.out input).granted then some input.request else none
  stalledAw :=
    if (system.bridge.out input).awValid && !input.awReady then some input.request.addrBeat
    else none
  stalledW :=
    if (system.bridge.out input).wValid && !input.wReady then some input.request.dataBeat
    else none
  stalledAr :=
    if (system.bridge.out input).arValid && !input.arReady then some input.request.addrBeat
    else none
  aws := system.aws + (system.bridge.awFires input).toNat
  ws := system.ws + (system.bridge.wFires input).toNat
  bs := system.bs + (system.bridge.bFires input).toNat
  ars := system.ars + (system.bridge.arFires input).toNat
  rs := system.rs + (system.bridge.rFires input).toNat

/-- The master holds a request unchanged until it is granted. -/
def HoldsRequest (system : Lint2AxiSystem idWidth auxWidth)
    (input : Lint2AxiInput idWidth auxWidth) : Prop :=
  ∀ request ∈ system.held, input.dataReq = true ∧ input.request = request

instance : Decidable (system.HoldsRequest input) :=
  inferInstanceAs (Decidable (∀ request ∈ system.held, _ = true ∧ input.request = request))

/-- A beat that was not taken is presented again. -/
structure KeepsBeats (system : Lint2AxiSystem idWidth auxWidth)
    (input : Lint2AxiInput idWidth auxWidth) : Prop where
  aw : ∀ beat ∈ system.stalledAw,
    (system.bridge.out input).awValid = true ∧ input.request.addrBeat = beat
  w : ∀ beat ∈ system.stalledW,
    (system.bridge.out input).wValid = true ∧ input.request.dataBeat = beat
  ar : ∀ beat ∈ system.stalledAr,
    (system.bridge.out input).arValid = true ∧ input.request.addrBeat = beat

/-- The slave has not answered a write whose address and data it has taken. -/
def OwesB : Prop := system.bs < system.aws ∧ system.bs < system.ws

/-- The slave has not answered a read whose address it has taken. -/
def OwesR : Prop := system.rs < system.ars

instance : Decidable system.OwesB := inferInstanceAs (Decidable (_ < _ ∧ _ < _))

instance : Decidable system.OwesR := inferInstanceAs (Decidable (_ < _))

end Lint2AxiSystem

/-- The bridge after reset. -/
def lint2AxiMachine (idWidth auxWidth : Nat) :
    Machine (Lint2AxiSystem idWidth auxWidth) (Lint2AxiInput idWidth auxWidth) where
  init :=
    { bridge := .reset, held := none, stalledAw := none, stalledW := none, stalledAr := none
      aws := 0, ws := 0, bs := 0, ars := 0, rs := 0 }
  step := Lint2AxiSystem.step

/-! ## What passes the ports -/

/-- Requests that the master starts to present, those granted, the beats taken by the
slave, the response beats taken by the bridge and the answers, oldest first. -/
structure Lint2AxiLog (idWidth auxWidth : Nat) where
  presented : List (LintRequest idWidth auxWidth)
  granted : List (LintRequest idWidth auxWidth)
  aw : List AxiAddrBeat
  w : List AxiDataBeat
  ar : List AxiAddrBeat
  responses : List AxiResponse
  answers : List (LintAnswer idWidth auxWidth)

namespace Lint2AxiLog

variable {idWidth auxWidth : Nat}

/-- Nothing has passed. -/
def empty : Lint2AxiLog idWidth auxWidth :=
  { presented := [], granted := [], aw := [], w := [], ar := [], responses := [], answers := [] }

/-- What passes in a cycle. -/
def cycle (system : Lint2AxiSystem idWidth auxWidth) (input : Lint2AxiInput idWidth auxWidth) :
    Lint2AxiLog idWidth auxWidth where
  presented := if input.dataReq && system.held.isNone then [input.request] else []
  granted := if (system.bridge.out input).granted then [input.request] else []
  aw := if system.bridge.awFires input then [input.request.addrBeat] else []
  w := if system.bridge.wFires input then [input.request.dataBeat] else []
  ar := if system.bridge.arFires input then [input.request.addrBeat] else []
  responses :=
    (if system.bridge.bFires input then [.b input.bResp] else []) ++
      if system.bridge.rFires input then [.r input.rData input.rResp] else []
  answers := if (system.bridge.out input).valid then [system.bridge.answer input] else []

/-- One log after another. -/
def append (log later : Lint2AxiLog idWidth auxWidth) : Lint2AxiLog idWidth auxWidth where
  presented := log.presented ++ later.presented
  granted := log.granted ++ later.granted
  aw := log.aw ++ later.aw
  w := log.w ++ later.w
  ar := log.ar ++ later.ar
  responses := log.responses ++ later.responses
  answers := log.answers ++ later.answers

/-- What passes along a run from reset. -/
def ofRun (inputs : List (Lint2AxiInput idWidth auxWidth)) : Lint2AxiLog idWidth auxWidth :=
  ((lint2AxiMachine idWidth auxWidth).observed (fun system input => [cycle system input])
    inputs).foldl append empty

/-- The answer of a request with the response of its transaction: its error flag, and
the data of a read. -/
def Answers (transaction : LintRequest idWidth auxWidth × AxiResponse)
    (answer : LintAnswer idWidth auxWidth) : Prop :=
  answer.id = transaction.1.id ∧ answer.aux = transaction.1.aux ∧
    match transaction.2 with
    | .b resp => transaction.1.we = true ∧ answer.ropc = resp.getLsbD 1
    | .r data resp =>
        transaction.1.we = false ∧ answer.rdata = data ∧ answer.ropc = resp.getLsbD 1

/-- The address beats of the writes and of the reads, and the data beats. -/
def writeAddrs (requests : List (LintRequest idWidth auxWidth)) : List AxiAddrBeat :=
  (requests.filter (·.we)).map LintRequest.addrBeat

def readAddrs (requests : List (LintRequest idWidth auxWidth)) : List AxiAddrBeat :=
  (requests.filter (!·.we)).map LintRequest.addrBeat

def writeData (requests : List (LintRequest idWidth auxWidth)) : List AxiDataBeat :=
  (requests.filter (·.we)).map LintRequest.dataBeat

/-- Requests, transactions and answers correspond one to one: all presented requests
but the last one are granted, every granted one has had its transaction, the next one
at most the beats of its own, and all granted requests but the last one are answered. -/
structure OneToOne (log : Lint2AxiLog idWidth auxWidth) : Prop where
  grants : ∃ held : Option (LintRequest idWidth auxWidth),
    log.presented = log.granted ++ held.toList
  awDone : writeAddrs log.granted <+: log.aw
  awOnce : log.aw <+: writeAddrs log.presented
  wDone : writeData log.granted <+: log.w
  wOnce : log.w <+: writeData log.presented
  ar : log.ar = readAddrs log.granted
  answered : List.Forall₂ Answers (log.granted.zip log.responses) log.answers
  responded : log.responses.length ≤ log.granted.length
  outstanding : log.granted.length ≤ log.responses.length + 1

end Lint2AxiLog

variable {idWidth auxWidth : Nat}

/-- The state before a cycle of a schedule. -/
def lint2AxiAt (schedule : Nat → Lint2AxiInput idWidth auxWidth) (n : Nat) :
    Lint2AxiSystem idWidth auxWidth :=
  (lint2AxiMachine idWidth auxWidth).run (inputsUpTo schedule n)

/-- The log of the first cycles of a schedule. -/
def lint2AxiLogAt (schedule : Nat → Lint2AxiInput idWidth auxWidth) (n : Nat) :
    Lint2AxiLog idWidth auxWidth :=
  .ofRun (inputsUpTo schedule n)

/-- The master of a schedule holds its requests. -/
def HoldsRequests (schedule : Nat → Lint2AxiInput idWidth auxWidth) : Prop :=
  ∀ n, (lint2AxiAt schedule n).HoldsRequest (schedule n)

/-- No beat is refused and no response is withheld for ever. -/
structure Responsive (schedule : Nat → Lint2AxiInput idWidth auxWidth) : Prop where
  aw : ∀ n, ∃ m ≥ n, ((lint2AxiAt schedule m).bridge.out (schedule m)).awValid = true →
    (schedule m).awReady = true
  w : ∀ n, ∃ m ≥ n, ((lint2AxiAt schedule m).bridge.out (schedule m)).wValid = true →
    (schedule m).wReady = true
  ar : ∀ n, ∃ m ≥ n, ((lint2AxiAt schedule m).bridge.out (schedule m)).arValid = true →
    (schedule m).arReady = true
  b : ∀ n, ∃ m ≥ n, (lint2AxiAt schedule m).OwesB → (schedule m).bValid = true
  r : ∀ n, ∃ m ≥ n, (lint2AxiAt schedule m).OwesR → (schedule m).rValid = true

end CoreVMcu.Interconnect
