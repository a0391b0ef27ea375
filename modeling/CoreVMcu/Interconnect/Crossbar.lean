import CoreVMcu.Clocked.Machine
import CoreVMcu.Interconnect.Routing
import Mathlib.Data.Fin.Basic
import Mathlib.Data.Fintype.Basic

/-!
# The contiguous crossbar with its error slave

`contiguous_crossbar` decodes the address of every master, arbitrates the masters
at every slave port and returns the response of the port that was selected in the
cycle before.  Its last port is the error port, to which `tcdm_error_slave` is
attached: it grants every request and raises `r_opc`.

The slaves answer with a latency of one cycle, so their `r_valid` is not used.

With one master there is no arbiter: its requests pass, and whatever any port grants is a
grant for it.
-/

namespace CoreVMcu.Interconnect

open Clocked

variable {nrMasterPorts nrSlavePorts : Nat}

/-- Registers of the crossbar: one arbiter for each slave port, and the response
multiplexer (`vld_q`, `bank_sel_q` of `addr_dec_resp_mux`) of each master. -/
structure Crossbar (arbiter : Arbiter nrMasterPorts) (nrSlavePorts : Nat) where
  arb : Fin (nrSlavePorts + 1) → arbiter.State
  vldQ : Fin nrMasterPorts → Bool
  bankSelQ : Fin nrMasterPorts → Fin (nrSlavePorts + 1)
  errorValidQ : Bool

/-- Inputs of the crossbar in one cycle. -/
structure CrossbarInput (nrMasterPorts nrSlavePorts : Nat) where
  req : Fin nrMasterPorts → Bool
  request : Fin nrMasterPorts → TcdmRequest
  slaveGnt : Fin nrSlavePorts → Bool
  slaveResponse : Fin nrSlavePorts → TcdmResponse

section Crossbar

variable (arbiter : Arbiter nrMasterPorts)
variable (addrRules : List (AddrMapRule (nrSlavePorts + 1)))

/-- `DEFAULT_IDX`: addresses that no rule matches go to the error port. -/
def errorPort : Fin (nrSlavePorts + 1) := Fin.last nrSlavePorts

/-- `port_sel` of a master. -/
def targetPort (addr : BitVec 32) : Fin (nrSlavePorts + 1) :=
  addrDecode errorPort addrRules addr

/-- Requests of the masters for one port, `sl_req`. -/
def slReq (input : CrossbarInput nrMasterPorts nrSlavePorts)
    (port : Fin (nrSlavePorts + 1)) (master : Fin nrMasterPorts) : Bool :=
  decide (targetPort addrRules (input.request master).add = port) && input.req master

variable {arbiter}

/-- The master whose request passes at a port: the one that the arbiter selects, or the only
one. -/
def Crossbar.selected (crossbar : Crossbar arbiter nrSlavePorts)
    (input : CrossbarInput nrMasterPorts nrSlavePorts) (port : Fin (nrSlavePorts + 1)) :
    Option (Fin nrMasterPorts) :=
  arbiter.grant (crossbar.arb port) (slReq addrRules input port)

/-- `req_o` of the crossbar at a port. -/
def Crossbar.slaveReq (crossbar : Crossbar arbiter nrSlavePorts)
    (input : CrossbarInput nrMasterPorts nrSlavePorts) (port : Fin (nrSlavePorts + 1)) : Bool :=
  (crossbar.selected addrRules input port).isSome

/-- The request forwarded to a port, if any. -/
def Crossbar.slaveRequest (crossbar : Crossbar arbiter nrSlavePorts)
    (input : CrossbarInput nrMasterPorts nrSlavePorts) (port : Fin (nrSlavePorts + 1)) :
    Option TcdmRequest :=
  (crossbar.selected addrRules input port).map input.request

/-- `gnt_i` of the crossbar at a port: the error slave grants every request. -/
def Crossbar.slaveGnt (crossbar : Crossbar arbiter nrSlavePorts)
    (input : CrossbarInput nrMasterPorts nrSlavePorts) (port : Fin (nrSlavePorts + 1)) : Bool :=
  Fin.lastCases (motive := fun _ => Bool) (crossbar.slaveReq addrRules input errorPort)
    input.slaveGnt port

/-- `ERROR_RESPONSE` of `tcdm_error_slave`. -/
def errorResponse : BitVec 32 := 0xBADACCE5#32

/-- The response half of a port.  `r_opc` of the error slave is its request
input of the same cycle. -/
def Crossbar.portResponse (crossbar : Crossbar arbiter nrSlavePorts)
    (input : CrossbarInput nrMasterPorts nrSlavePorts) (port : Fin (nrSlavePorts + 1)) :
    TcdmResponse :=
  Fin.lastCases (motive := fun _ => TcdmResponse)
    ⟨errorResponse, crossbar.slaveReq addrRules input errorPort⟩ input.slaveResponse port

/-- `sl_gnt` of a port for a master. -/
def Crossbar.slGnt (crossbar : Crossbar arbiter nrSlavePorts)
    (input : CrossbarInput nrMasterPorts nrSlavePorts) (port : Fin (nrSlavePorts + 1))
    (master : Fin nrMasterPorts) : Bool :=
  if nrMasterPorts = 1 then crossbar.slaveGnt addrRules input port
  else
    decide (crossbar.selected addrRules input port = some master) &&
      crossbar.slaveGnt addrRules input port

/-- `gnt_o` of the crossbar for a master. -/
def Crossbar.gnt (crossbar : Crossbar arbiter nrSlavePorts)
    (input : CrossbarInput nrMasterPorts nrSlavePorts) (master : Fin nrMasterPorts) : Bool :=
  decide (∃ port, crossbar.slGnt addrRules input port master = true)

/-- `r_valid` of a master port. -/
def Crossbar.rValid (crossbar : Crossbar arbiter nrSlavePorts) (master : Fin nrMasterPorts) :
    Bool :=
  crossbar.vldQ master

/-- `r_rdata` and `r_opc` of a master port. -/
def Crossbar.response (crossbar : Crossbar arbiter nrSlavePorts)
    (input : CrossbarInput nrMasterPorts nrSlavePorts) (master : Fin nrMasterPorts) :
    TcdmResponse :=
  crossbar.portResponse addrRules input (crossbar.bankSelQ master)

/-- One clock edge of the crossbar and the error slave. -/
def Crossbar.step (crossbar : Crossbar arbiter nrSlavePorts)
    (input : CrossbarInput nrMasterPorts nrSlavePorts) : Crossbar arbiter nrSlavePorts where
  arb port := arbiter.next (crossbar.arb port) (slReq addrRules input port)
    (crossbar.slaveGnt addrRules input port)
  vldQ := crossbar.gnt addrRules input
  bankSelQ master := targetPort addrRules (input.request master).add
  errorValidQ := crossbar.slaveReq addrRules input errorPort

@[simp] theorem Crossbar.rValid_step (crossbar : Crossbar arbiter nrSlavePorts)
    (input : CrossbarInput nrMasterPorts nrSlavePorts) (master : Fin nrMasterPorts) :
    (crossbar.step addrRules input).rValid master = crossbar.gnt addrRules input master := rfl

/-- Some master requests a port exactly when the crossbar requests it. -/
theorem Crossbar.slaveReq_iff {crossbar : Crossbar arbiter nrSlavePorts}
    {input : CrossbarInput nrMasterPorts nrSlavePorts} {port : Fin (nrSlavePorts + 1)} :
    crossbar.slaveReq addrRules input port = true ↔
      ∃ master, input.req master = true ∧
        targetPort addrRules (input.request master).add = port := by
  simp only [Crossbar.slaveReq, Crossbar.selected, arbiter.isSome_grant_iff, slReq,
    Bool.and_eq_true, decide_eq_true_eq]
  exact exists_congr fun master => and_comm

/-- The crossbar together with the requests that it granted in the cycle
before. -/
structure WatchedCrossbar (arbiter : Arbiter nrMasterPorts) (nrSlavePorts : Nat) where
  crossbar : Crossbar arbiter nrSlavePorts
  granted : Fin nrMasterPorts → Option TcdmRequest

/-- A request of a master is granted. -/
def Crossbar.grants (crossbar : Crossbar arbiter nrSlavePorts)
    (input : CrossbarInput nrMasterPorts nrSlavePorts) (master : Fin nrMasterPorts) : Bool :=
  input.req master && crossbar.gnt addrRules input master

/-- The crossbar from reset, watched. -/
def crossbarMachine (arbiter : Arbiter nrMasterPorts)
    (addrRules : List (AddrMapRule (nrSlavePorts + 1))) :
    Machine (WatchedCrossbar arbiter nrSlavePorts) (CrossbarInput nrMasterPorts nrSlavePorts) where
  init :=
    { crossbar :=
        { arb := fun _ => arbiter.init, vldQ := fun _ => false, bankSelQ := fun _ => 0
          errorValidQ := false }
      granted := fun _ => none }
  step watched input :=
    { crossbar := watched.crossbar.step addrRules input
      granted := fun master =>
        if watched.crossbar.grants addrRules input master then some (input.request master)
        else none }

/-- A granted request is forwarded to the port that its address decodes to, which
grants it; in the next cycle, and in no other, the master gets one response, with the
data of that port. -/
structure RoutesResponses (addrRules : List (AddrMapRule (nrSlavePorts + 1)))
    (watched : WatchedCrossbar arbiter nrSlavePorts)
    (input : CrossbarInput nrMasterPorts nrSlavePorts) : Prop where
  forwarded : ∀ master, watched.crossbar.grants addrRules input master = true →
    watched.crossbar.slaveRequest addrRules input
        (targetPort addrRules (input.request master).add) = some (input.request master) ∧
      watched.crossbar.slaveGnt addrRules input
        (targetPort addrRules (input.request master).add) = true
  answered : ∀ master, (watched.crossbar.step addrRules input).rValid master =
    watched.crossbar.grants addrRules input master
  data : ∀ master request, watched.granted master = some request →
    watched.crossbar.response addrRules input master =
      watched.crossbar.portResponse addrRules input (targetPort addrRules request.add)

/-- In a cycle with `r_valid` a master sees `r_opc` exactly when its request of
the cycle before matched no rule. -/
def OpcExact (addrRules : List (AddrMapRule (nrSlavePorts + 1)))
    (watched : WatchedCrossbar arbiter nrSlavePorts)
    (input : CrossbarInput nrMasterPorts nrSlavePorts) : Prop :=
  ∀ master, watched.crossbar.rValid master = true →
    ((watched.crossbar.response addrRules input master).rOpc = true ↔
      ∃ request, watched.granted master = some request ∧
        decValid addrRules request.add = false)

/-- With one master: a slave grants only while the master makes a request, and then the
slave that is addressed grants as well. -/
def GrantsRequested (addrRules : List (AddrMapRule (nrSlavePorts + 1)))
    (input : CrossbarInput nrMasterPorts nrSlavePorts) : Prop :=
  nrMasterPorts = 1 → ∀ master port, input.slaveGnt port = true →
    input.req master = true ∧
      Fin.lastCases (motive := fun _ => Prop) True (fun addressed => input.slaveGnt addressed = true)
        (targetPort addrRules (input.request master).add)

/-- Some master requests the error port. -/
def ErrorPortRequested (addrRules : List (AddrMapRule (nrSlavePorts + 1)))
    (input : CrossbarInput nrMasterPorts nrSlavePorts) : Prop :=
  ∃ master, input.req master = true ∧
    targetPort addrRules (input.request master).add = errorPort

/-- In the cycle after a granted request: if it matched no rule, some master
requests the error port again; if it matched a rule for a slave, that slave does
not raise `r_opc`; if it matched a rule that names the error port, no master
requests that port. -/
def ErrorRequestFollows (addrRules : List (AddrMapRule (nrSlavePorts + 1)))
    (watched : WatchedCrossbar arbiter nrSlavePorts)
    (input : CrossbarInput nrMasterPorts nrSlavePorts) : Prop :=
  ∀ master request, watched.granted master = some request →
    if decValid addrRules request.add then
      Fin.lastCases (motive := fun _ => Prop) (¬ErrorPortRequested addrRules input)
        (fun port => (input.slaveResponse port).rOpc = false)
        (targetPort addrRules request.add)
    else ErrorPortRequested addrRules input

/-! ## One cycle -/

variable {addrRules}

/-- The slave that is addressed grants, or the error slave does. -/
theorem Crossbar.slaveGnt_iff {crossbar : Crossbar arbiter nrSlavePorts}
    {input : CrossbarInput nrMasterPorts nrSlavePorts} {master : Fin nrMasterPorts}
    (requested : input.req master = true) :
    crossbar.slaveGnt addrRules input (targetPort addrRules (input.request master).add) = true ↔
      Fin.lastCases (motive := fun _ => Prop) True (fun addressed => input.slaveGnt addressed = true)
        (targetPort addrRules (input.request master).add) := by
  generalize target : targetPort addrRules (input.request master).add = port
  cases port using Fin.lastCases with
  | last =>
      have errorRequest : crossbar.slaveReq addrRules input errorPort = true :=
        (Crossbar.slaveReq_iff addrRules).mpr ⟨master, requested, target⟩
      simp [Crossbar.slaveGnt, errorRequest]
  | cast port => simp [Crossbar.slaveGnt]

/-- A master whose request is granted is selected at the port that its address decodes to. -/
theorem Crossbar.selected_of_grants {crossbar : Crossbar arbiter nrSlavePorts}
    {input : CrossbarInput nrMasterPorts nrSlavePorts} {master : Fin nrMasterPorts}
    (granted : crossbar.grants addrRules input master = true) :
    crossbar.selected addrRules input
      (targetPort addrRules (input.request master).add) = some master := by
  simp only [Crossbar.grants, Crossbar.gnt, Bool.and_eq_true, decide_eq_true_eq] at granted
  obtain ⟨requested, port, granting⟩ := granted
  by_cases single : nrMasterPorts = 1
  · have someone : (crossbar.selected addrRules input
        (targetPort addrRules (input.request master).add)).isSome = true :=
      (Crossbar.slaveReq_iff addrRules).mpr ⟨master, requested, rfl⟩
    obtain ⟨other, selected⟩ := Option.isSome_iff_exists.mp someone
    subst single
    rw [selected, Subsingleton.elim other master]
  · simp only [Crossbar.slGnt, if_neg single, Bool.and_eq_true, decide_eq_true_eq] at granting
    have requests := arbiter.requested granting.1
    simp only [slReq, Bool.and_eq_true, decide_eq_true_eq] at requests
    rw [requests.1]
    exact granting.1

/-- With several masters only a request is granted, by the port that its address decodes
to. -/
theorem Crossbar.gnt_of_several {crossbar : Crossbar arbiter nrSlavePorts}
    {input : CrossbarInput nrMasterPorts nrSlavePorts} {master : Fin nrMasterPorts}
    (several : nrMasterPorts ≠ 1) (granted : crossbar.gnt addrRules input master = true) :
    input.req master = true ∧
      crossbar.slaveGnt addrRules input (targetPort addrRules (input.request master).add) =
        true := by
  simp only [Crossbar.gnt, Crossbar.slGnt, if_neg several, decide_eq_true_eq,
    Bool.and_eq_true] at granted
  obtain ⟨port, selected, granting⟩ := granted
  have requests := arbiter.requested selected
  simp only [slReq, Bool.and_eq_true, decide_eq_true_eq] at requests
  rw [requests.1]
  exact ⟨requests.2, granting⟩

/-- With one master every port that grants is a grant for it. -/
theorem Crossbar.gnt_of_single {crossbar : Crossbar arbiter nrSlavePorts}
    {input : CrossbarInput nrMasterPorts nrSlavePorts} (single : nrMasterPorts = 1)
    (master : Fin nrMasterPorts) :
    crossbar.gnt addrRules input master = true ↔
      ∃ port, crossbar.slaveGnt addrRules input port = true := by
  simp [Crossbar.gnt, Crossbar.slGnt, single]

/-- A request of the cycle before is still held by the response multiplexer of its
master. -/
def WatchedCrossbar.Remembers (addrRules : List (AddrMapRule (nrSlavePorts + 1)))
    (watched : WatchedCrossbar arbiter nrSlavePorts) : Prop :=
  ∀ master request, watched.granted master = some request →
    watched.crossbar.bankSelQ master = targetPort addrRules request.add

theorem crossbar_remembers (inputs : List (CrossbarInput nrMasterPorts nrSlavePorts)) :
    ((crossbarMachine arbiter addrRules).run inputs).Remembers addrRules := by
  refine Machine.run_invariant ?_ ?_ inputs
  · intro master request granted
    cases granted
  · intro watched input _ master request granted
    simp only [crossbarMachine, Crossbar.step] at granted ⊢
    split at granted
    · cases granted
      rfl
    · cases granted

/-- The responses are routed in a cycle exactly when the slaves of a single master grant
only what it requests. -/
theorem routesResponses_iff {watched : WatchedCrossbar arbiter nrSlavePorts}
    (remembers : watched.Remembers addrRules)
    {input : CrossbarInput nrMasterPorts nrSlavePorts} :
    RoutesResponses addrRules watched input ↔ GrantsRequested addrRules input := by
  constructor
  · intro routes single master port granting
    have granted : watched.crossbar.gnt addrRules input master = true := by
      refine (Crossbar.gnt_of_single single master).mpr ⟨port.castSucc, ?_⟩
      simpa [Crossbar.slaveGnt] using granting
    have request := routes.answered master
    rw [Crossbar.rValid_step, granted] at request
    have requested := (Bool.and_eq_true_iff.mp request.symm).1
    exact ⟨requested, (Crossbar.slaveGnt_iff requested).mp (routes.forwarded master request.symm).2⟩
  · intro requested
    have accepts : ∀ master, watched.crossbar.gnt addrRules input master = true →
        input.req master = true ∧ watched.crossbar.slaveGnt addrRules input
          (targetPort addrRules (input.request master).add) = true := by
      intro master granted
      by_cases single : nrMasterPorts = 1
      · obtain ⟨port, granting⟩ := (Crossbar.gnt_of_single single master).mp granted
        cases port using Fin.lastCases with
        | last =>
            have errorRequest : watched.crossbar.slaveReq addrRules input errorPort = true := by
              simpa [Crossbar.slaveGnt] using granting
            obtain ⟨other, requests, target⟩ := (Crossbar.slaveReq_iff addrRules).mp errorRequest
            subst single
            rw [Subsingleton.elim master other, target]
            exact ⟨requests, granting⟩
        | cast port =>
            obtain ⟨requests, addressed⟩ := requested single master port
              (by simpa [Crossbar.slaveGnt] using granting)
            exact ⟨requests, (Crossbar.slaveGnt_iff requests).mpr addressed⟩
      · exact Crossbar.gnt_of_several single granted
    constructor
    case forwarded =>
      intro master granted
      refine ⟨?_, (accepts master (Bool.and_eq_true_iff.mp granted).2).2⟩
      rw [Crossbar.slaveRequest, Crossbar.selected_of_grants granted, Option.map_some]
    case answered =>
      intro master
      rw [Crossbar.rValid_step, Crossbar.grants]
      cases granted : watched.crossbar.gnt addrRules input master with
      | false => rw [Bool.and_false]
      | true => rw [(accepts master granted).1, Bool.and_self]
    case data =>
      intro master request granted
      rw [Crossbar.response, remembers master request granted]

/-- A master with `r_valid` has had a request granted in the cycle before. -/
def WatchedCrossbar.Answers (watched : WatchedCrossbar arbiter nrSlavePorts) : Prop :=
  ∀ master, watched.crossbar.vldQ master = (watched.granted master).isSome

theorem WatchedCrossbar.answers_step {watched : WatchedCrossbar arbiter nrSlavePorts}
    {input : CrossbarInput nrMasterPorts nrSlavePorts}
    (routes : RoutesResponses addrRules watched input) :
    ((crossbarMachine arbiter addrRules).step watched input).Answers := by
  intro master
  change (watched.crossbar.step addrRules input).rValid master =
    (if watched.crossbar.grants addrRules input master then some (input.request master)
      else none).isSome
  rw [routes.answered master]
  cases watched.crossbar.grants addrRules input master <;> rfl

theorem crossbar_answers {inputs : List (CrossbarInput nrMasterPorts nrSlavePorts)}
    (routes : (crossbarMachine arbiter addrRules).Always (RoutesResponses addrRules) inputs) :
    ((crossbarMachine arbiter addrRules).run inputs).Answers :=
  Machine.run_induction (motive := fun _ watched => watched.Answers) (fun _ => rfl)
    (fun _ _ _ _ routesNow => WatchedCrossbar.answers_step routesNow) inputs routes

/-- An address that no rule matches decodes to the error port. -/
theorem targetPort_of_not_decValid {addr : BitVec 32}
    (unmatched : decValid addrRules addr = false) : targetPort addrRules addr = errorPort :=
  addrDecode_of_not_decValid unmatched

theorem errorPort_rOpc_iff {crossbar : Crossbar arbiter nrSlavePorts}
    {input : CrossbarInput nrMasterPorts nrSlavePorts} :
    (crossbar.portResponse addrRules input errorPort).rOpc = true ↔
      ErrorPortRequested addrRules input := by
  simp only [Crossbar.portResponse, errorPort, Fin.lastCases_last]
  exact Crossbar.slaveReq_iff addrRules

/-- When every response answers a request, the error flags are exact if and only if the
error port is requested at the right cycles. -/
theorem opcExact_iff {watched : WatchedCrossbar arbiter nrSlavePorts}
    (remembers : watched.Remembers addrRules) (answers : watched.Answers)
    {input : CrossbarInput nrMasterPorts nrSlavePorts} :
    OpcExact addrRules watched input ↔ ErrorRequestFollows addrRules watched input := by
  refine forall_congr' fun master => ?_
  rw [Crossbar.rValid, answers master, Crossbar.response]
  cases granted : watched.granted master with
  | none => simp
  | some request =>
      rw [remembers master request granted]
      simp only [Option.isSome_some, forall_const, Option.some.injEq, exists_eq_left',
        forall_eq']
      cases matched : decValid addrRules request.add with
      | false =>
          rw [targetPort_of_not_decValid matched, errorPort_rOpc_iff]
          simp
      | true =>
          rw [if_pos rfl]
          generalize targetPort addrRules request.add = port
          cases port using Fin.lastCases with
          | last =>
              rw [Fin.lastCases_last, ← errorPort, errorPort_rOpc_iff]
              simp
          | cast port => simp [Crossbar.portResponse]

/-! ## Runs -/

theorem always_routesResponses_iff (inputs : List (CrossbarInput nrMasterPorts nrSlavePorts)) :
    (crossbarMachine arbiter addrRules).Always (RoutesResponses addrRules) inputs ↔
      (crossbarMachine arbiter addrRules).Always (fun _ => GrantsRequested addrRules) inputs :=
  Machine.always_congr (fun before _ => routesResponses_iff (crossbar_remembers before)) inputs

theorem always_opcExact_iff {inputs : List (CrossbarInput nrMasterPorts nrSlavePorts)}
    (routes : (crossbarMachine arbiter addrRules).Always (RoutesResponses addrRules) inputs) :
    (crossbarMachine arbiter addrRules).Always (OpcExact addrRules) inputs ↔
      (crossbarMachine arbiter addrRules).Always (ErrorRequestFollows addrRules) inputs := by
  induction inputs using List.reverseRecOn with
  | nil => exact Iff.rfl
  | append_singleton inputs input inductionHypothesis =>
      have before := routes.of_append
      rw [Machine.always_snoc, Machine.always_snoc, inductionHypothesis before]
      exact and_congr_right fun _ =>
        opcExact_iff (crossbar_remembers inputs) (crossbar_answers before)

/-- Requests and responses of the crossbar, for every number of masters, every arbiter, every
list of rules and every interleaving: every granted request is answered once in the next cycle
by the port that its address decodes to, if and only if the slaves of a single master grant
only what it requests; and the error flags are exact as well if and only if every response
meets the condition on the requests for the error port. -/
theorem crossbar_routes_and_opcExact_iff (arbiter : Arbiter nrMasterPorts)
    (addrRules : List (AddrMapRule (nrSlavePorts + 1)))
    (inputs : List (CrossbarInput nrMasterPorts nrSlavePorts)) :
    ((crossbarMachine arbiter addrRules).Always (RoutesResponses addrRules) inputs ↔
        (crossbarMachine arbiter addrRules).Always (fun _ => GrantsRequested addrRules) inputs) ∧
      ((crossbarMachine arbiter addrRules).Always (fun watched input =>
          RoutesResponses addrRules watched input ∧ OpcExact addrRules watched input) inputs ↔
        (crossbarMachine arbiter addrRules).Always (fun watched input =>
          GrantsRequested addrRules input ∧ ErrorRequestFollows addrRules watched input)
          inputs) := by
  refine ⟨always_routesResponses_iff inputs, ?_⟩
  rw [Machine.always_and, Machine.always_and, ← always_routesResponses_iff]
  exact and_congr_right always_opcExact_iff

end Crossbar

/-- One read that no rule matches, and an idle cycle in which it is answered. -/
def singleBusError : List (CrossbarInput 1 1) :=
  [{ req := fun _ => true, request := fun _ => ⟨0x1B000000#32, true, 0#32, 0xF#4⟩
     slaveGnt := fun _ => false, slaveResponse := fun _ => ⟨0#32, false⟩ },
   { req := fun _ => false, request := fun _ => ⟨0x1B000000#32, true, 0#32, 0xF#4⟩
     slaveGnt := fun _ => false, slaveResponse := fun _ => ⟨0#32, false⟩ }]

/-- The error response of a single bad read comes without `r_opc`. -/
theorem singleBusError_not_opcExact :
    ¬(crossbarMachine (rrArbTree 1) []).Always (OpcExact []) singleBusError := by
  rintro ⟨-, flagged, -⟩
  exact absurd ((flagged 0 (by decide)).mpr ⟨_, rfl, rfl⟩) (by decide)

end CoreVMcu.Interconnect
