import CoreVMcu.Efpga.A2Refinement

/-!
# The eFPGA register bridge

`apbt1_interface` carries the register accesses of the SoC to the eFPGA through a
request FIFO and its responses back through a response FIFO.  `efpga_subsystem`
wraps it: the shift register `d_lint_GNT` counts the cycles of a request, lets
only its first cycle into the bridge and grants it from the sixth on, once a
response is there.

The master holds a request until it is granted and reads the response in the
cycle after the grant.  The eFPGA accepts presented requests when it likes and
answers each of them once, in order, at a later edge of its clock.
-/

namespace CoreVMcu.Efpga

open Clocked

/-- `apbt1_interface`. -/
structure Apbt1Interface where
  reqFifo : A2Fifo 57 2
  respFifo : A2Fifo 32 2
  lintValid : Bool

namespace Apbt1Interface

variable (bridge : Apbt1Interface)

/-- `lint_gnt`: a response is there. -/
def lintGnt : Bool := !bridge.respFifo.pop.empty

/-- `efpga_req`. -/
def efpgaReq : Bool := !bridge.reqFifo.pop.empty

/-- `efpga_req_data` and `lint_rdata`. -/
def efpgaReqData : BitVec 57 := bridge.reqFifo.rdata

def lintRdata : BitVec 32 := bridge.respFifo.rdata

end Apbt1Interface

/-- What an edge of the SoC clock samples: `enable_apb_efpga_i`, and the request
that the master presents when it holds none. -/
structure ApbSample where
  enable : Bool
  newRequest : Option (BitVec 57)

/-- What an edge of the eFPGA clock samples: `efpga_gnt`, and the answer to an
accepted request. -/
structure EfpgaSample where
  grant : Bool
  answer : Option (BitVec 32)

/-- The clock edges of one instant. -/
structure ApbInput where
  soc : Option ApbSample
  efpga : Option EfpgaSample

/-- The bridge and its shift register, with the request that the master holds,
whether it was granted in the last cycle, and the number of accepted requests
that the eFPGA has not answered. -/
structure ApbSystem where
  bridge : Apbt1Interface
  dLintGnt : BitVec 5
  held : Option (BitVec 57)
  granted : Bool
  owed : Nat

namespace ApbSystem

variable (system : ApbSystem) (input : ApbInput)

/-- The request of the master, `apbt1_i.req` with its data. -/
def request (sample : ApbSample) : Option (BitVec 57) := system.held.or sample.newRequest

/-- `s_lint_REQ`. -/
def lintReq (sample : ApbSample) : Bool :=
  if sample.enable then
    (system.request sample).isSome && !(system.dLintGnt.getLsbD 0 || system.dLintGnt.getLsbD 1)
  else false

/-- `apbt1_i.gnt`. -/
def gnt (sample : ApbSample) : Bool :=
  if sample.enable then system.dLintGnt.getLsbD 4 && system.bridge.lintGnt
  else (system.request sample).isSome

/-- The request that is granted at an edge of the SoC clock. -/
def grantedAt (sample : ApbSample) : Option (BitVec 57) :=
  if system.gnt sample then system.request sample else none

/-- `efpga_gnt` at an edge of the eFPGA clock: only presented requests are
accepted. -/
def efpgaGnt (sample : EfpgaSample) : Bool := sample.grant && system.bridge.efpgaReq

/-- `efpga_valid` with `efpga_rdata`: only accepted requests are answered. -/
def efpgaResponse (sample : EfpgaSample) : Option (BitVec 32) :=
  if 0 < system.owed then sample.answer else none

/-- The edges of the request FIFO, with `req_push`. -/
def reqEdges : FifoEdges (BitVec 57) where
  push := input.soc.map fun sample =>
    if system.lintReq sample && !system.bridge.reqFifo.push.full then system.request sample
    else none
  pop := input.efpga.map system.efpgaGnt

/-- The edges of the response FIFO. -/
def respEdges : FifoEdges (BitVec 32) where
  push := input.efpga.map system.efpgaResponse
  pop := input.soc.map fun _ => system.bridge.lintValid

/-- Requests granted to the master at an instant. -/
def grantedRequests : List (BitVec 57) :=
  match input.soc with
  | some sample => (system.grantedAt sample).toList
  | none => []

/-- Requests accepted by the eFPGA at an instant. -/
def presentedRequests : List (BitVec 57) :=
  match input.efpga with
  | some sample => if system.efpgaGnt sample then [system.bridge.efpgaReqData] else []
  | none => []

/-- Answers of the eFPGA at an instant. -/
def efpgaResponses : List (BitVec 32) :=
  match input.efpga with
  | some sample => (system.efpgaResponse sample).toList
  | none => []

/-- Responses that the master reads at an instant, in the cycle after a grant. -/
def returnedResponses : List (BitVec 32) :=
  match input.soc with
  | some _ => if system.granted then [system.bridge.lintRdata] else []
  | none => []

/-- One instant. -/
def step : ApbSystem where
  bridge :=
    { reqFifo := system.bridge.reqFifo.step (system.reqEdges input)
      respFifo := system.bridge.respFifo.step (system.respEdges input)
      lintValid := if input.soc.isSome then system.bridge.lintGnt else system.bridge.lintValid }
  dLintGnt :=
    match input.soc with
    | some sample =>
        if (system.request sample).isSome then (system.dLintGnt <<< 1) ||| 1#5 else 0#5
    | none => system.dLintGnt
  held :=
    match input.soc with
    | some sample => if system.gnt sample then none else system.request sample
    | none => system.held
  granted :=
    match input.soc with
    | some sample => (system.grantedAt sample).isSome
    | none => system.granted
  owed := system.owed + (system.presentedRequests input).length -
    (system.efpgaResponses input).length

end ApbSystem

/-- The bridge after reset. -/
def apbMachine (reqRam : UnresetRam 57 2) (respRam : UnresetRam 32 2) :
    Machine ApbSystem ApbInput where
  init :=
    { bridge := ⟨.flushed reqRam, .flushed respRam, false⟩, dLintGnt := 0, held := none
      granted := false, owed := 0 }
  step := ApbSystem.step

/-- The bridge along a run. -/
structure ApbBridgeCorrect (reqRam : UnresetRam 57 2) (respRam : UnresetRam 32 2)
    (inputs : List ApbInput) : Prop where
  /-- Granted requests are presented to the eFPGA, in order and with their data. -/
  grantedArePresented : (apbMachine reqRam respRam).observed ApbSystem.grantedRequests inputs <+:
    (apbMachine reqRam respRam).observed ApbSystem.presentedRequests inputs
  /-- Nothing else is presented but the request that the master holds. -/
  presentedOnce : (apbMachine reqRam respRam).observed ApbSystem.presentedRequests inputs <+:
    (apbMachine reqRam respRam).observed ApbSystem.grantedRequests inputs ++
      ((apbMachine reqRam respRam).run inputs).held.toList
  /-- Every grant is followed by one response. -/
  oneResponse :
    ((apbMachine reqRam respRam).observed ApbSystem.returnedResponses inputs).length +
      ((apbMachine reqRam respRam).run inputs).granted.toNat =
    ((apbMachine reqRam respRam).observed ApbSystem.grantedRequests inputs).length
  /-- The response to the k-th grant is the k-th answer of the eFPGA. -/
  ownResponse : (apbMachine reqRam respRam).observed ApbSystem.returnedResponses inputs <+:
    (apbMachine reqRam respRam).observed ApbSystem.efpgaResponses inputs

/-- The timing that the bridge needs: it is enabled while there is a request, no
request is presented in the SoC cycle after a grant, and the eFPGA does not answer
before the second edge of the SoC clock from the one that pushed the request. -/
structure ApbPaced (system : ApbSystem) (input : ApbInput) : Prop where
  enabled : ∀ sample ∈ input.soc, (system.request sample).isSome = true → sample.enable = true
  notBackToBack : ∀ sample ∈ input.soc, system.granted = true → sample.newRequest = none
  notTooFast : ∀ sample ∈ input.efpga, (system.efpgaResponse sample).isSome = true →
    system.dLintGnt.getLsbD 1 = true ∨
      system.dLintGnt.getLsbD 0 = true ∧ input.soc.isSome = true

instance (system : ApbSystem) (input : ApbInput) : Decidable (ApbPaced system input) :=
  decidable_of_iff (_ ∧ _ ∧ _)
    ⟨fun ⟨enabled, notBackToBack, notTooFast⟩ => ⟨enabled, notBackToBack, notTooFast⟩,
      fun paced => ⟨paced.enabled, paced.notBackToBack, paced.notTooFast⟩⟩

end CoreVMcu.Efpga
