import CoreVMcu.Efpga.A2FifoCorrect
import CoreVMcu.Efpga.TcdmInterface
import CoreVMcu.Soc.ApbSocCtrl
import Mathlib.Data.Fintype.Basic
import Mathlib.Tactic.FinCases

/-!
# The TCDM ports of the eFPGA

A register of `apb_soc_ctrl` holds one enable bit for each TCDM port of the eFPGA.
`efpga_subsystem` lets a request of a port into its bridge when an enable is set.
-/

namespace CoreVMcu.Efpga

open Clocked Soc

/-- `enable_tcdm3_efpga_o` to `enable_tcdm0_efpga_o`. -/
structure TcdmEnables where
  enableTcdm3 : Bool
  enableTcdm2 : Bool
  enableTcdm1 : Bool
  enableTcdm0 : Bool

/-- The low bits of `r_enable_inout_efpga`, as `apb_soc_ctrl` names them. -/
def tcdmEnables (ctrl : ApbSocCtrl) : TcdmEnables where
  enableTcdm3 := ctrl.regs.rEnableInoutEfpga.getLsbD 3
  enableTcdm2 := ctrl.regs.rEnableInoutEfpga.getLsbD 2
  enableTcdm1 := ctrl.regs.rEnableInoutEfpga.getLsbD 1
  enableTcdm0 := ctrl.regs.rEnableInoutEfpga.getLsbD 0

/-- The enable in the assignment of `tcdm_req_fpga_gated` for each port, from port 0 on. -/
def TcdmEnables.gates (enables : TcdmEnables) : Vector Bool 4 :=
  #v[enables.enableTcdm0, enables.enableTcdm2, enables.enableTcdm1, enables.enableTcdm3]

/-- The enable bit of a port: `ENABLE_TCDM_P0` is bit 0 of `ENABLE_IN_OUT_EFPGA`. -/
def enableBit (ctrl : ApbSocCtrl) (port : Fin 4) : Bool :=
  ctrl.regs.rEnableInoutEfpga.getLsbD port

/-- What an edge of `asic_clk_i` samples at a port: `gnt`, and `r_valid` with `r_rdata`. -/
structure TcdmReply where
  gnt : Bool
  rValid : Bool
  rRdata : BitVec 32

/-- The edges of a bridge at one instant.  An edge of `efpga_clk` samples `efpga_req` with
`efpga_req_data`. -/
def TcdmInterface.edges (bridge : TcdmInterface) (request : Option (Option (BitVec 57)))
    (reply : Option TcdmReply) : TcdmInterface where
  reqFifo := bridge.reqFifo.step
    { push := request.map fun request => if bridge.reqFull then none else request
      pop := reply.map (·.gnt) }
  respFifo := bridge.respFifo.step
    { push := reply.map fun reply => if reply.rValid then some reply.rRdata else none
      pop := request.map fun _ => bridge.efpgaValid }

/-- `apb_soc_ctrl` and the bridges of the ports. -/
structure TcdmPorts where
  ctrl : ApbSocCtrl
  bridges : Fin 4 → TcdmInterface

/-- The clock edges of one instant: those of `apb_soc_ctrl`, the edges of the clocks of the
ports with `tcdm_req_fpga` and its data, and an edge of `asic_clk_i`. -/
structure TcdmPortsInput where
  ctrl : SocCtrlEdges
  requests : Fin 4 → Option (Option (BitVec 57))
  asic : Option (Fin 4 → TcdmReply)

namespace TcdmPorts

variable (ports : TcdmPorts) (input : TcdmPortsInput) (port : Fin 4)

/-- `tcdm_req_fpga_gated`, with the data of the request. -/
def tcdmReqFpgaGated : Option (Option (BitVec 57)) :=
  (input.requests port).map fun request =>
    if (tcdmEnables ports.ctrl).gates.get port && (ports.bridges port).efpgaGnt then request
    else none

def reply : Option TcdmReply := input.asic.map fun replies => replies port

/-- One instant. -/
def step (params : SocCtrlParams) : TcdmPorts where
  ctrl := ports.ctrl.step params input.ctrl
  bridges port := (ports.bridges port).edges (ports.tcdmReqFpgaGated input port)
    (reply input port)

/-- The requests that the eFPGA raises at an instant and that its port grants. -/
def raisedRequests : List (BitVec 57) :=
  ((input.requests port).join.filter fun _ => (ports.bridges port).efpgaGnt).toList

/-- Those of them raised while the enable bit of the port is set. -/
def enabledRequests : List (BitVec 57) :=
  if enableBit ports.ctrl port then ports.raisedRequests input port else []

/-- Requests that enter the bridge of a port at an instant. -/
def pushedRequests : List (BitVec 57) :=
  (ports.tcdmReqFpgaGated input port).join.toList

/-- Requests that the L2 interconnect grants at an instant. -/
def issuedRequests : List (BitVec 57) :=
  match reply input port with
  | some reply =>
      if reply.gnt && (ports.bridges port).socReq then [(ports.bridges port).socReqData] else []
  | none => []

/-- The edges of the request FIFO of a port. -/
def reqEdges : FifoEdges (BitVec 57) where
  push := (ports.tcdmReqFpgaGated input port).map fun request =>
    if (ports.bridges port).reqFull then none else request
  pop := (reply input port).map (·.gnt)

end TcdmPorts

/-- The memories of the FIFOs of a bridge before the first pushes. -/
structure TcdmRams where
  req : UnresetRam 57 2
  resp : UnresetRam 32 2

variable (params : SocCtrlParams) (dmactive bootsel : Bool) (rams : Fin 4 → TcdmRams)

/-- The ports after reset. -/
def tcdmPorts : Machine TcdmPorts TcdmPortsInput where
  init :=
    { ctrl := .reset dmactive bootsel
      bridges := fun port => ⟨.flushed (rams port).req, .flushed (rams port).resp⟩ }
  step ports input := ports.step input params

/-- A port requests nothing, and the L2 interconnect grants. -/
def TcdmPortsInput.Drains (port : Fin 4) (input : TcdmPortsInput) : Prop :=
  (input.requests port).join = none ∧
    ∀ replies, input.asic = some replies → (replies port).gnt = true

/-- What the L2 interconnect sees of a port along a run. -/
structure PortIsolated (inputs : List TcdmPortsInput) (port : Fin 4) : Prop where
  /-- A request that is raised enters the bridge exactly when the enable bit is set. -/
  gated : (tcdmPorts params dmactive bootsel rams).Always (fun ports input =>
    ports.pushedRequests input port = ports.enabledRequests input port) inputs
  /-- The requests issued, and the one presented, are those raised while enabled, in order. -/
  issued : (tcdmPorts params dmactive bootsel rams).observed
      (TcdmPorts.issuedRequests · · port) inputs <+:
    (tcdmPorts params dmactive bootsel rams).observed
      (TcdmPorts.enabledRequests · · port) inputs
  presented :
    (((tcdmPorts params dmactive bootsel rams).run inputs).bridges port).socReq = true →
    (tcdmPorts params dmactive bootsel rams).observed
        (TcdmPorts.issuedRequests · · port) inputs ++
        [(((tcdmPorts params dmactive bootsel rams).run inputs).bridges port).socReqData] <+:
      (tcdmPorts params dmactive bootsel rams).observed
        (TcdmPorts.enabledRequests · · port) inputs
  /-- All of them are issued when the port stops to request and is granted. -/
  forwarded : ∀ later, (∀ input ∈ later, input.Drains port) →
    7 ≤ later.countP (·.asic.isSome) →
    (tcdmPorts params dmactive bootsel rams).observed
        (TcdmPorts.issuedRequests · · port) (inputs ++ later) =
      (tcdmPorts params dmactive bootsel rams).observed
        (TcdmPorts.enabledRequests · · port) inputs

/-- While port 1 or port 2 raises a request that it grants, their enable bits agree. -/
def EnablesAgree (ports : TcdmPorts) (input : TcdmPortsInput) : Prop :=
  ports.raisedRequests input 1 ≠ [] ∨ ports.raisedRequests input 2 ≠ [] →
    enableBit ports.ctrl 1 = enableBit ports.ctrl 2

/-! ## The request FIFO of a port -/

section Requests

variable (ports : TcdmPorts) (input : TcdmPortsInput) (port : Fin 4)

theorem pushedRequests_eq : ports.pushedRequests input port =
    (ports.bridges port).reqFifo.accepted (ports.reqEdges input port) := by
  unfold TcdmPorts.pushedRequests A2Fifo.accepted TcdmPorts.reqEdges TcdmPorts.tcdmReqFpgaGated
    TcdmInterface.efpgaGnt TcdmInterface.reqFull
  cases input.requests port with
  | none => rfl
  | some request =>
      cases full : (ports.bridges port).reqFifo.push.full <;>
        cases (tcdmEnables ports.ctrl).gates.get port <;> cases request <;> simp

theorem issuedRequests_eq_delivered : ports.issuedRequests input port =
    (ports.bridges port).reqFifo.delivered (ports.reqEdges input port) := by
  unfold TcdmPorts.issuedRequests A2Fifo.delivered TcdmPorts.reqEdges
  cases TcdmPorts.reply input port <;> rfl

theorem reqEdges_room :
    NoPushWhileFull (ports.bridges port).reqFifo (ports.reqEdges input port) := by
  intro request push isPush
  unfold TcdmPorts.reqEdges TcdmInterface.reqFull at push
  cases full : (ports.bridges port).reqFifo.push.full with
  | false => rfl
  | true =>
      cases gated : ports.tcdmReqFpgaGated input port with
      | none => simp [gated] at push
      | some gatedRequest =>
          simp only [gated, full, Option.map_some, if_true, Option.some.injEq] at push
          simp [← push] at isPush

end Requests

variable {params dmactive bootsel rams}

section Runs

variable (inputs : List TcdmPortsInput) (port : Fin 4)

/-- The edges of the request FIFO of a port along a run. -/
def portEdges (params : SocCtrlParams) (dmactive bootsel : Bool) (rams : Fin 4 → TcdmRams)
    (inputs : List TcdmPortsInput) (port : Fin 4) : List (FifoEdges (BitVec 57)) :=
  (tcdmPorts params dmactive bootsel rams).observed
    (fun ports input => [ports.reqEdges input port]) inputs

/-- The request FIFO of a port runs on these edges alone. -/
theorem reqFifo_run :
    (((tcdmPorts params dmactive bootsel rams).run inputs).bridges port).reqFifo =
      (a2Machine (rams port).req).run (portEdges params dmactive bootsel rams inputs port) := by
  induction inputs using List.reverseRecOn with
  | nil => rfl
  | append_singleton inputs input inductionHypothesis =>
      rw [portEdges, Machine.observed_snoc, Machine.run_snoc, Machine.run_snoc, ← portEdges,
        ← inductionHypothesis]
      rfl

theorem observed_pushedRequests :
    (tcdmPorts params dmactive bootsel rams).observed (TcdmPorts.pushedRequests · · port) inputs =
      (a2Machine (rams port).req).observed A2Fifo.accepted
        (portEdges params dmactive bootsel rams inputs port) := by
  induction inputs using List.reverseRecOn with
  | nil => rfl
  | append_singleton inputs input inductionHypothesis =>
      rw [portEdges, Machine.observed_snoc, Machine.observed_snoc, Machine.observed_snoc,
        ← portEdges, ← reqFifo_run, ← inductionHypothesis, pushedRequests_eq]

theorem observed_issuedRequests :
    (tcdmPorts params dmactive bootsel rams).observed (TcdmPorts.issuedRequests · · port) inputs =
      (a2Machine (rams port).req).observed A2Fifo.delivered
        (portEdges params dmactive bootsel rams inputs port) := by
  induction inputs using List.reverseRecOn with
  | nil => rfl
  | append_singleton inputs input inductionHypothesis =>
      rw [portEdges, Machine.observed_snoc, Machine.observed_snoc, Machine.observed_snoc,
        ← portEdges, ← reqFifo_run, ← inductionHypothesis, issuedRequests_eq_delivered]

/-- The registers of the request FIFO encode an abstract FIFO with the words of the run. -/
theorem tracksPort (params : SocCtrlParams) (dmactive bootsel : Bool) (rams : Fin 4 → TcdmRams)
    (inputs : List TcdmPortsInput) (port : Fin 4) : ∃ abstract, A2Tracks (rams port).req
    (portEdges params dmactive bootsel rams inputs port) abstract := by
  refine a2Tracks _ ?_
  induction inputs using List.reverseRecOn with
  | nil => trivial
  | append_singleton inputs input inductionHypothesis =>
      rw [portEdges, Machine.observed_snoc, Machine.always_snoc, ← portEdges, ← reqFifo_run]
      exact ⟨inductionHypothesis, reqEdges_room _ _ _⟩

end Runs

section Gating

variable {ports : TcdmPorts} {input : TcdmPortsInput} {port : Fin 4}

theorem pushedRequests_gate : ports.pushedRequests input port =
    if (tcdmEnables ports.ctrl).gates.get port then ports.raisedRequests input port else [] := by
  unfold TcdmPorts.pushedRequests TcdmPorts.tcdmReqFpgaGated TcdmPorts.raisedRequests
  cases input.requests port with
  | none => simp
  | some request =>
      cases (tcdmEnables ports.ctrl).gates.get port <;>
        cases (ports.bridges port).efpgaGnt <;> cases request <;> rfl

/-- A port is gated as its own bit says when the enable that gates it agrees with that bit or
nothing is granted. -/
theorem pushed_eq_enabled_iff :
    ports.pushedRequests input port = ports.enabledRequests input port ↔
      (ports.raisedRequests input port ≠ [] →
        (tcdmEnables ports.ctrl).gates.get port = enableBit ports.ctrl port) := by
  rw [pushedRequests_gate, TcdmPorts.enabledRequests]
  by_cases raises : ports.raisedRequests input port = []
  · simp [raises]
  · cases (tcdmEnables ports.ctrl).gates.get port <;> cases enableBit ports.ctrl port <;>
      simp [raises, eq_comm]

/-- Ports 1 and 2 are gated by the enable of the other one. -/
theorem enablesAgree_iff : EnablesAgree ports input ↔
    ∀ port, ports.pushedRequests input port = ports.enabledRequests input port := by
  constructor
  · intro agree port
    rw [pushed_eq_enabled_iff]
    intro raises
    fin_cases port
    · rfl
    · exact (agree (.inl raises)).symm
    · exact agree (.inr raises)
    · rfl
  · intro gated raises
    cases raises with
    | inl raises => exact (pushed_eq_enabled_iff.mp (gated 1) raises).symm
    | inr raises => exact pushed_eq_enabled_iff.mp (gated 2) raises

theorem drains_reqEdges (drains : input.Drains port) : Drains (ports.reqEdges input port) := by
  obtain ⟨quiet, granting⟩ := drains
  constructor
  · intro wdata
    unfold TcdmPorts.reqEdges TcdmPorts.tcdmReqFpgaGated
    cases edge : input.requests port with
    | none => simp
    | some request =>
        cases request with
        | none => simp
        | some wdata => simp [edge] at quiet
  · unfold TcdmPorts.reqEdges TcdmPorts.reply
    cases asic : input.asic with
    | none => simp
    | some replies => simp [granting replies asic]

theorem isSome_reqEdges_pop : (ports.reqEdges input port).pop.isSome = input.asic.isSome := by
  unfold TcdmPorts.reqEdges TcdmPorts.reply
  cases input.asic <;> rfl

end Gating

/-! ## Isolation -/

section Isolation

variable {inputs : List TcdmPortsInput} {port : Fin 4}

/-- Draining instants are draining instants of the request FIFO. -/
theorem portEdges_append (later : List TcdmPortsInput)
    (drains : ∀ input ∈ later, input.Drains port) :
    ∃ laterEdges, portEdges params dmactive bootsel rams (inputs ++ later) port =
        portEdges params dmactive bootsel rams inputs port ++ laterEdges ∧
      (∀ edges ∈ laterEdges, Drains edges) ∧
      laterEdges.countP (·.pop.isSome) = later.countP (·.asic.isSome) := by
  induction later using List.reverseRecOn with
  | nil => exact ⟨[], by simp, by simp, rfl⟩
  | append_singleton later input inductionHypothesis =>
      obtain ⟨laterEdges, appended, draining, count⟩ := inductionHypothesis fun other member =>
        drains other (List.mem_append_left _ member)
      have drainsLast := drains input (by simp)
      refine ⟨laterEdges ++
        [((tcdmPorts params dmactive bootsel rams).run (inputs ++ later)).reqEdges input port],
        ?_, ?_, ?_⟩
      · rw [portEdges, ← List.append_assoc, Machine.observed_snoc, ← portEdges, appended,
          List.append_assoc]
      · intro edges member
        rcases List.mem_append.mp member with member | member
        · exact draining edges member
        · rw [List.mem_singleton.mp member]
          exact drains_reqEdges drainsLast
      · rw [List.countP_append, List.countP_append, count, List.countP_singleton,
          List.countP_singleton, isSome_reqEdges_pop]

/-- A port whose requests are gated by its own bit is isolated: the bridge forwards what enters
it. -/
theorem portIsolated_of_gated
    (gated : (tcdmPorts params dmactive bootsel rams).Always (fun ports input =>
      ports.pushedRequests input port = ports.enabledRequests input port) inputs) :
    PortIsolated params dmactive bootsel rams inputs port := by
  have pushed := Machine.observed_congr _ _ gated
  obtain ⟨abstract, tracks⟩ := tracksPort params dmactive bootsel rams inputs port
  rw [observed_pushedRequests] at pushed
  constructor
  case gated => exact gated
  case issued =>
    rw [observed_issuedRequests, ← pushed]
    exact Carries.inOrder tracks
  case presented =>
    intro presented
    have offers := presented
    simp only [TcdmInterface.socReq, Bool.not_eq_true', reqFifo_run] at offers
    rw [observed_issuedRequests, ← pushed, TcdmInterface.socReqData, reqFifo_run]
    exact Carries.offered tracks offers
  case forwarded =>
    intro later drains enough
    obtain ⟨laterEdges, appended, draining, count⟩ := portEdges_append later drains
    obtain ⟨drained, tracks', words, rank⟩ := tracks.drain laterEdges draining
    have bound := (Carries.represents tracks).ordered.rank_le
    rw [observed_issuedRequests, appended, Carries.drained tracks' (by omega), tracks'.pushed,
      words, ← tracks.pushed, pushed]

end Isolation

/-- For every run of accesses to `apb_soc_ctrl` and of requests of the eFPGA: the ports are
isolated as their enable bits say in exactly the runs in which the bits of ports 1 and 2 agree
while one of them requests. -/
theorem tcdmPorts_isolated_iff (params : SocCtrlParams) (dmactive bootsel : Bool)
    (rams : Fin 4 → TcdmRams) (inputs : List TcdmPortsInput) :
    (∀ port, PortIsolated params dmactive bootsel rams inputs port) ↔
      (tcdmPorts params dmactive bootsel rams).Always EnablesAgree inputs := by
  have bits : (tcdmPorts params dmactive bootsel rams).Always EnablesAgree inputs ↔
      (tcdmPorts params dmactive bootsel rams).Always (fun ports input =>
        ∀ port, ports.pushedRequests input port = ports.enabledRequests input port) inputs :=
    Machine.always_congr (fun _ _ => enablesAgree_iff) inputs
  rw [bits, Machine.always_forall]
  constructor
  · intro isolated port
    exact (isolated port).gated
  · intro gated port
    exact portIsolated_of_gated (gated port)

/-- An access that writes a register, at an edge of `HCLK`. -/
def writeEdge (paddr : BitVec 12) (pwdata : BitVec 32) : TcdmPortsInput where
  ctrl :=
    { hclk := some
        { selFllClk := false, bootsel := false, dmactive := false, statusOut := 0, version := 0
          socJtagReg := 0, startRto := false, peripheralRto := 0, missingPad := (0, 0)
          paddr, pwdata, pwrite := true, psel := true, penable := true }
      refClk := none }
  requests _ := none
  asic := none

/-- One port of the eFPGA requests. -/
def portRequest (port : Fin 4) (request : BitVec 57) : TcdmPortsInput where
  ctrl := ⟨none, none⟩
  requests other := if other = port then some (some request) else none
  asic := none

/-- The L2 interconnect grants all ports. -/
def l2Grants : TcdmPortsInput where
  ctrl := ⟨none, none⟩
  requests _ := none
  asic := some fun _ => ⟨true, false, 0⟩

/-- `ENABLE_TCDM_P1` is written alone, and port 2 requests. -/
def enablesOne : List TcdmPortsInput :=
  [writeEdge 0xEC 2, writeEdge 0xEC 2, portRequest 2 7, l2Grants, l2Grants, l2Grants, l2Grants]

def zeroRams : TcdmRams := ⟨⟨fun _ => 0, 0⟩, ⟨fun _ => 0, 0⟩⟩

/-- The request of the disabled port reaches the L2 interconnect. -/
theorem enablesOne_not_isolated :
    ¬∀ port, PortIsolated ⟨0, 0, 0, 0⟩ false false (fun _ => zeroRams) enablesOne port :=
  fun isolated => absurd (isolated 2).issued (by decide +kernel)

end CoreVMcu.Efpga
