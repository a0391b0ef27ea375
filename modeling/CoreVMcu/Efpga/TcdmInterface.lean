import CoreVMcu.Efpga.A2Refinement

/-!
# The eFPGA TCDM bridge

`tcdm_interface` carries the requests of the eFPGA to the SoC and the responses
back, each through an `A2_fifo` of four words.  The `full` output of the response
FIFO is left open: nothing but the traffic keeps it from overflowing.

The SoC side grants a presented request when it likes and returns `soc_valid` in
the SoC cycle after every grant.
-/

namespace CoreVMcu.Efpga

open Clocked

/-- `tcdm_interface`. -/
structure TcdmInterface where
  reqFifo : A2Fifo 57 2
  respFifo : A2Fifo 32 2

namespace TcdmInterface

variable (bridge : TcdmInterface)

def reqFull : Bool := bridge.reqFifo.push.full

/-- `efpga_gnt`. -/
def efpgaGnt : Bool := !bridge.reqFull

/-- `soc_req`. -/
def socReq : Bool := !bridge.reqFifo.pop.empty

/-- `efpga_valid`. -/
def efpgaValid : Bool := !bridge.respFifo.pop.empty

/-- `soc_req_data` and `efpga_rdata`. -/
def socReqData : BitVec 57 := bridge.reqFifo.rdata

def efpgaRdata : BitVec 32 := bridge.respFifo.rdata

end TcdmInterface

/-- What an edge of the SoC clock samples: whether the SoC grants, and
`soc_rdata`. -/
structure SocSample where
  grant : Bool
  socRdata : BitVec 32

/-- The clock edges of one instant.  An edge of the eFPGA clock samples
`efpga_req` with `efpga_req_data`. -/
structure TcdmInput where
  efpga : Option (Option (BitVec 57))
  soc : Option SocSample

/-- The bridge with the SoC, which remembers whether it granted in its last cycle,
and the responses counted at the two ports: those returned by the SoC, those
taken by the eFPGA, and the latter as they were at the last three edges of the
SoC clock. -/
structure TcdmSystem where
  bridge : TcdmInterface
  socValid : Bool
  returned : Nat
  taken : Nat
  takenOnce : Nat
  takenTwice : Nat
  takenThrice : Nat

namespace TcdmSystem

variable (system : TcdmSystem) (input : TcdmInput)

/-- `soc_gnt` at an edge of the SoC clock: only presented requests are granted. -/
def socGnt (sample : SocSample) : Bool := sample.grant && system.bridge.socReq

/-- The edges of the request FIFO, with `req_push` and `soc_gnt`. -/
def reqEdges : FifoEdges (BitVec 57) where
  push := input.efpga.map fun request => if system.bridge.reqFull then none else request
  pop := input.soc.map system.socGnt

/-- The edges of the response FIFO, with `soc_valid` and `efpga_valid`. -/
def respEdges : FifoEdges (BitVec 32) where
  push := input.soc.map fun sample => if system.socValid then some sample.socRdata else none
  pop := input.efpga.map fun _ => system.bridge.efpgaValid

/-- Requests accepted from the eFPGA at an instant. -/
def acceptedRequests : List (BitVec 57) :=
  match input.efpga with
  | some (some request) => if system.bridge.efpgaGnt then [request] else []
  | _ => []

/-- Requests issued on the SoC port and granted at an instant. -/
def issuedRequests : List (BitVec 57) :=
  match input.soc with
  | some sample => if system.socGnt sample then [system.bridge.socReqData] else []
  | none => []

/-- Read data that the SoC returns at an instant, for the request granted in its
cycle before. -/
def returnedData : List (BitVec 32) :=
  match input.soc with
  | some sample => if system.socValid then [sample.socRdata] else []
  | none => []

/-- Responses to the eFPGA at an instant. -/
def answeredData : List (BitVec 32) :=
  match input.efpga with
  | some _ => if system.bridge.efpgaValid then [system.bridge.efpgaRdata] else []
  | none => []

/-- One instant. -/
def step : TcdmSystem where
  bridge :=
    { reqFifo := system.bridge.reqFifo.step (system.reqEdges input)
      respFifo := system.bridge.respFifo.step (system.respEdges input) }
  socValid :=
    match input.soc with
    | some sample => system.socGnt sample
    | none => system.socValid
  returned := system.returned + (system.returnedData input).length
  taken := system.taken + (system.answeredData input).length
  takenOnce := if input.soc.isSome then system.taken else system.takenOnce
  takenTwice := if input.soc.isSome then system.takenOnce else system.takenTwice
  takenThrice := if input.soc.isSome then system.takenTwice else system.takenThrice

end TcdmSystem

/-- The bridge after reset. -/
def tcdmMachine (reqRam : UnresetRam 57 2) (respRam : UnresetRam 32 2) :
    Machine TcdmSystem TcdmInput where
  init :=
    { bridge := ⟨.flushed reqRam, .flushed respRam⟩, socValid := false, returned := 0
      taken := 0, takenOnce := 0, takenTwice := 0, takenThrice := 0 }
  step := TcdmSystem.step

/-- The eFPGA requests nothing and the SoC grants. -/
def TcdmInput.Drains (input : TcdmInput) : Prop :=
  (∀ request, input.efpga ≠ some (some request)) ∧
    ∀ sample, input.soc = some sample → sample.grant = true

/-- Draining instants with enough edges of both clocks: seven of the SoC clock
to issue all requests, one to return the last response, and seven of the eFPGA
clock to take all responses. -/
structure Completes (later : List TcdmInput) : Prop where
  drains : ∀ input ∈ later, input.Drains
  enough : ∃ issuing returning answering, later = issuing ++ returning ++ answering ∧
    7 ≤ issuing.countP (·.soc.isSome) ∧ 1 ≤ returning.countP (·.soc.isSome) ∧
      7 ≤ answering.countP (·.efpga.isSome)

/-- The response FIFO is not pushed while it is full. -/
def RespNeverFull (system : TcdmSystem) (input : TcdmInput) : Prop :=
  NoPushWhileFull system.bridge.respFifo (system.respEdges input)

/-- When the SoC returns a response, fewer than four of the responses returned
before were not yet taken three edges of the SoC clock earlier. -/
def RespondsInTime (system : TcdmSystem) (input : TcdmInput) : Prop :=
  input.soc.isSome = true → system.socValid = true →
    system.returned < system.takenThrice + 4

/-- The bridge along a run. -/
structure TcdmBridgeCorrect (reqRam : UnresetRam 57 2) (respRam : UnresetRam 32 2)
    (inputs : List TcdmInput) : Prop where
  /-- Accepted requests are issued once and in order. -/
  issuedInOrder : (tcdmMachine reqRam respRam).observed TcdmSystem.issuedRequests inputs <+:
    (tcdmMachine reqRam respRam).observed TcdmSystem.acceptedRequests inputs
  /-- Every issued request has one response, in the SoC cycle after its grant. -/
  oneResponse : ((tcdmMachine reqRam respRam).observed TcdmSystem.returnedData inputs).length +
      ((tcdmMachine reqRam respRam).run inputs).socValid.toNat =
    ((tcdmMachine reqRam respRam).observed TcdmSystem.issuedRequests inputs).length
  /-- The k-th response to the eFPGA is the k-th one of the SoC. -/
  answeredInOrder : (tcdmMachine reqRam respRam).observed TcdmSystem.answeredData inputs <+:
    (tcdmMachine reqRam respRam).observed TcdmSystem.returnedData inputs
  neverFull : (tcdmMachine reqRam respRam).Always RespNeverFull inputs
  /-- When the eFPGA stops to request and both clocks go on, all accepted requests
  are issued and answered. -/
  completed : ∀ later, Completes later →
    (tcdmMachine reqRam respRam).Always RespondsInTime (inputs ++ later) →
    (tcdmMachine reqRam respRam).observed TcdmSystem.issuedRequests (inputs ++ later) =
      (tcdmMachine reqRam respRam).observed TcdmSystem.acceptedRequests inputs ∧
    ((tcdmMachine reqRam respRam).observed TcdmSystem.answeredData (inputs ++ later)).length =
      ((tcdmMachine reqRam respRam).observed TcdmSystem.acceptedRequests inputs).length

end CoreVMcu.Efpga
