import CoreVMcu.Clocked.Machine
import CoreVMcu.Clocked.Lanes
import CoreVMcu.Interconnect.Routing
import Mathlib.Algebra.Ring.Nat

/-!
# The TCDM demultiplexer

`tcdm_demux` routes the requests of one master to several slaves by address and
waits for the response of the slave that granted the last request.  The slaves
are the environment: they grant and answer when they like, but every slave
answers each of its granted requests exactly once, in a later cycle.
-/

namespace CoreVMcu.Interconnect

open Clocked

/-- `state_e` of `tcdm_demux`. -/
inductive DemuxState where
  | idle
  | pending
  deriving DecidableEq, Repr

/-- Registers of `tcdm_demux`. -/
structure TcdmDemux (nrOutputs : Nat) where
  stateQ : DemuxState
  activeSlaveQ : Fin nrOutputs
  deriving DecidableEq

/-- Inputs of `tcdm_demux` in one cycle: the request half of the master port and
the response halves of the slave ports. -/
structure DemuxInput (nrOutputs : Nat) where
  req : Bool
  request : TcdmRequest
  slaveGnt : Fin nrOutputs → Bool
  slaveRValid : Fin nrOutputs → Bool
  slaveResponse : Fin nrOutputs → TcdmResponse

/-- Outputs and next register values of `tcdm_demux` in one cycle. -/
structure DemuxOutput (nrOutputs : Nat) where
  gnt : Bool
  rValid : Bool
  response : TcdmResponse
  slaveReq : Fin nrOutputs → Bool
  slaveRequest : Fin nrOutputs → TcdmRequest
  stateD : DemuxState
  activeSlaveD : Fin nrOutputs

section Demux

variable {nrOutputs : Nat} [NeZero nrOutputs]
variable (addrMapRules : List (AddrMapRule nrOutputs))

/-- `port_sel`; without a matching rule the first slave port is selected. -/
def portSel (input : DemuxInput nrOutputs) : Fin nrOutputs :=
  addrDecode 0 addrMapRules input.request.add

/-- The transaction FSM of `tcdm_demux`. -/
def transactionFsm (demux : TcdmDemux nrOutputs) (input : DemuxInput nrOutputs) :
    DemuxOutput nrOutputs :=
  let sel := portSel addrMapRules input
  let default : DemuxOutput nrOutputs :=
    { gnt := false, rValid := false, response := ⟨0, false⟩
      slaveReq := fun _ => false
      slaveRequest := fun port =>
        if port = sel then input.request else ⟨0, true, 0, 0⟩
      stateD := demux.stateQ, activeSlaveD := demux.activeSlaveQ }
  -- The same four assignments issue a request in both states.
  let issue (output : DemuxOutput nrOutputs) : DemuxOutput nrOutputs :=
    { output with
      slaveReq := fun port => decide (port = sel) && input.req
      activeSlaveD := sel
      gnt := input.slaveGnt sel
      stateD := if input.slaveGnt sel then .pending else .idle }
  match demux.stateQ with
  | .idle => if input.req then issue default else { default with stateD := .idle }
  | .pending =>
      let answered : DemuxOutput nrOutputs :=
        { default with
          rValid := input.slaveRValid demux.activeSlaveQ
          response := input.slaveResponse demux.activeSlaveQ }
      if input.slaveRValid demux.activeSlaveQ then
        if input.req then issue answered else { answered with stateD := .idle }
      else { answered with stateD := .pending }

/-- One clock edge of `tcdm_demux`. -/
def TcdmDemux.step (demux : TcdmDemux nrOutputs) (input : DemuxInput nrOutputs) :
    TcdmDemux nrOutputs :=
  let output := transactionFsm addrMapRules demux input
  ⟨output.stateD, output.activeSlaveD⟩

/-- The FSM issues the request of the master when nothing is outstanding, or when
the outstanding response arrives. -/
def issues (demux : TcdmDemux nrOutputs) (input : DemuxInput nrOutputs) : Bool :=
  input.req && (demux.stateQ == .idle || input.slaveRValid demux.activeSlaveQ)

variable {addrMapRules}
variable (demux : TcdmDemux nrOutputs) (input : DemuxInput nrOutputs)

theorem transactionFsm_slaveReq (port : Fin nrOutputs) :
    (transactionFsm addrMapRules demux input).slaveReq port =
      (decide (port = portSel addrMapRules input) && issues demux input) := by
  cases state : demux.stateQ <;> cases req : input.req <;>
    cases valid : input.slaveRValid demux.activeSlaveQ <;>
    simp [transactionFsm, issues, state, req, valid]

theorem transactionFsm_gnt :
    (transactionFsm addrMapRules demux input).gnt =
      (issues demux input && input.slaveGnt (portSel addrMapRules input)) := by
  cases state : demux.stateQ <;> cases req : input.req <;>
    cases valid : input.slaveRValid demux.activeSlaveQ <;>
    simp [transactionFsm, issues, state, req, valid]

theorem transactionFsm_rValid :
    (transactionFsm addrMapRules demux input).rValid =
      (demux.stateQ == .pending && input.slaveRValid demux.activeSlaveQ) := by
  cases state : demux.stateQ <;> cases req : input.req <;>
    cases valid : input.slaveRValid demux.activeSlaveQ <;>
    simp [transactionFsm, state, req, valid]

theorem transactionFsm_response (pending : demux.stateQ = .pending) :
    (transactionFsm addrMapRules demux input).response =
      input.slaveResponse demux.activeSlaveQ := by
  cases req : input.req <;> cases valid : input.slaveRValid demux.activeSlaveQ <;>
    simp [transactionFsm, pending, req, valid]

/-! ## The demultiplexer with its slaves -/

section System

variable (addrMapRules)

/-- The demultiplexer and, for every slave, the number of requests it has
granted and not yet answered. -/
structure DemuxSystem (nrOutputs : Nat) where
  demux : TcdmDemux nrOutputs
  owed : Fin nrOutputs → Nat

/-- The requests a slave grants in a cycle. -/
def slaveGrants (system : DemuxSystem nrOutputs) (input : DemuxInput nrOutputs)
    (port : Fin nrOutputs) : Bool :=
  (transactionFsm addrMapRules system.demux input).slaveReq port && input.slaveGnt port

/-- One cycle of the demultiplexer with its slaves. -/
def DemuxSystem.step (system : DemuxSystem nrOutputs) (input : DemuxInput nrOutputs) :
    DemuxSystem nrOutputs where
  demux := system.demux.step addrMapRules input
  owed port := system.owed port + (slaveGrants addrMapRules system input port).toNat -
    (input.slaveRValid port).toNat

/-- The demultiplexer with its slaves, from reset. -/
def demuxMachine : Machine (DemuxSystem nrOutputs) (DemuxInput nrOutputs) where
  init := { demux := { stateQ := .idle, activeSlaveQ := 0 }, owed := fun _ => 0 }
  step := DemuxSystem.step addrMapRules

/-- A slave answers only a request that it granted in an earlier cycle and has
not answered yet. -/
def SlavesAnswerOnce (system : DemuxSystem nrOutputs) (input : DemuxInput nrOutputs) : Prop :=
  ∀ port, input.slaveRValid port = true → 0 < system.owed port

instance (system : DemuxSystem nrOutputs) (input : DemuxInput nrOutputs) :
    Decidable (SlavesAnswerOnce system input) :=
  inferInstanceAs (Decidable (∀ _, _))

/-- The slaves that grant a request in a cycle. -/
def grantedBySlaves (system : DemuxSystem nrOutputs) (input : DemuxInput nrOutputs) :
    List (Fin nrOutputs) :=
  raised (slaveGrants addrMapRules system input)

/-- The target of the request that the master port sees granted in a cycle. -/
def grantedToMaster (system : DemuxSystem nrOutputs) (input : DemuxInput nrOutputs) :
    List (Fin nrOutputs) :=
  if (transactionFsm addrMapRules system.demux input).gnt then
    [portSel addrMapRules input]
  else []

/-- The answers the slaves give in a cycle. -/
def answeredBySlaves (_ : DemuxSystem nrOutputs) (input : DemuxInput nrOutputs) :
    List (Fin nrOutputs × TcdmResponse) :=
  (raised input.slaveRValid).map fun port => (port, input.slaveResponse port)

/-- The response that the master port sees in a cycle. -/
def answeredToMaster (system : DemuxSystem nrOutputs) (input : DemuxInput nrOutputs) :
    List TcdmResponse :=
  let output := transactionFsm addrMapRules system.demux input
  if output.rValid then [output.response] else []

/-- What is outstanding in a state of the FSM. -/
def outstanding (demux : TcdmDemux nrOutputs) : List (Fin nrOutputs) :=
  match demux.stateQ with
  | .idle => []
  | .pending => [demux.activeSlaveQ]

/-- The slaves owe answers exactly for what the FSM remembers as outstanding. -/
def OwesOutstanding (system : DemuxSystem nrOutputs) : Prop :=
  ∀ port, system.owed port = (outstanding system.demux).count port

end System

variable {system : DemuxSystem nrOutputs} {input : DemuxInput nrOutputs}

/-- Only the selected slave can grant, and it does so when the master port is
granted. -/
theorem grantedBySlaves_eq_grantedToMaster :
    grantedBySlaves addrMapRules system input =
      grantedToMaster addrMapRules system input := by
  have grants : ∀ port, slaveGrants addrMapRules system input port =
      (decide (port = portSel addrMapRules input) &&
        (transactionFsm addrMapRules system.demux input).gnt) := by
    intro port
    rw [slaveGrants, transactionFsm_slaveReq, transactionFsm_gnt]
    by_cases selected : port = portSel addrMapRules input <;> simp [selected]
  unfold grantedBySlaves grantedToMaster
  split
  next granted =>
    exact raised_eq_singleton (by simp [grants, granted])
      (fun port high => by simpa [grants, granted] using high)
  next refused =>
    exact raised_eq_nil fun port => by simp [grants, refused]

omit [NeZero nrOutputs] in
/-- Only the outstanding slave can answer. -/
theorem answeredBySlaves_eq (owes : OwesOutstanding system)
    (answerOnce : SlavesAnswerOnce system input) :
    answeredBySlaves system input =
      ((outstanding system.demux).filter input.slaveRValid).map
        fun port => (port, input.slaveResponse port) := by
  have answers : raised input.slaveRValid =
      (outstanding system.demux).filter input.slaveRValid := by
    have owing : ∀ port, input.slaveRValid port = true →
        port ∈ outstanding system.demux := by
      intro port valid
      have positive := answerOnce port valid
      rw [owes port] at positive
      exact List.count_pos_iff.mp positive
    cases state : system.demux.stateQ with
    | idle =>
        simp only [outstanding, state, List.not_mem_nil, imp_false,
          Bool.not_eq_true] at owing ⊢
        exact raised_eq_nil owing
    | pending =>
        simp only [outstanding, state, List.mem_singleton] at owing ⊢
        cases valid : input.slaveRValid system.demux.activeSlaveQ with
        | true => simpa [valid] using raised_eq_singleton valid owing
        | false =>
            simp only [valid, Bool.false_eq_true, not_false_eq_true,
              List.filter_cons_of_neg, List.filter_nil]
            refine raised_eq_nil fun port => ?_
            cases other : input.slaveRValid port with
            | false => rfl
            | true => exact absurd other (by simp [owing port other, valid])
  rw [answeredBySlaves, answers]

/-- The master port sees every answer of the outstanding slave, and nothing
else. -/
theorem answeredToMaster_eq :
    answeredToMaster addrMapRules system input =
      ((outstanding system.demux).filter input.slaveRValid).map input.slaveResponse := by
  simp only [answeredToMaster, transactionFsm_rValid]
  cases state : system.demux.stateQ with
  | idle => simp [outstanding, state]
  | pending =>
      rw [transactionFsm_response _ _ state]
      cases valid : input.slaveRValid system.demux.activeSlaveQ <;>
        simp [outstanding, state, valid]

/-- One cycle moves the answered request out of what is outstanding and the
granted one into it. -/
theorem outstanding_step :
    outstanding system.demux ++ grantedToMaster addrMapRules system input =
      (outstanding system.demux).filter input.slaveRValid ++
        outstanding (system.demux.step addrMapRules input) := by
  unfold grantedToMaster
  rw [transactionFsm_gnt]
  cases state : system.demux.stateQ <;> cases req : input.req <;>
    cases valid : input.slaveRValid system.demux.activeSlaveQ <;>
    cases gnt : input.slaveGnt (portSel addrMapRules input) <;>
    simp [outstanding, TcdmDemux.step, transactionFsm, issues, state, req, valid, gnt]

theorem owesOutstanding_step (owes : OwesOutstanding system)
    (answerOnce : SlavesAnswerOnce system input) :
    OwesOutstanding (system.step addrMapRules input) := by
  intro port
  have grants : (grantedToMaster addrMapRules system input).count port =
      (slaveGrants addrMapRules system input port).toNat := by
    rw [← grantedBySlaves_eq_grantedToMaster]
    exact count_raised _ port
  have answers : ((outstanding system.demux).filter input.slaveRValid).count port =
      (input.slaveRValid port).toNat := by
    have answered := congrArg (List.map Prod.fst) (answeredBySlaves_eq owes answerOnce)
    simp only [answeredBySlaves, List.map_map, Function.comp_def, List.map_id'] at answered
    rw [← answered]
    exact count_raised _ port
  have moved := congrArg (List.count port)
    (outstanding_step : outstanding system.demux ++ grantedToMaster addrMapRules system input = _)
  simp only [List.count_append, grants, answers] at moved
  simp only [DemuxSystem.step, owes port]
  omega

/-- What the demultiplexer promises its master along a run. -/
structure DemuxAnswersInTurn (addrMapRules : List (AddrMapRule nrOutputs))
    (inputs : List (DemuxInput nrOutputs)) : Prop where
  /-- The slaves grant exactly what the master sees granted, at the slave that
  the address selects. -/
  granted : (demuxMachine addrMapRules).observed (grantedBySlaves addrMapRules) inputs =
    (demuxMachine addrMapRules).observed (grantedToMaster addrMapRules) inputs
  /-- The master sees every answer of a slave, with its data and `opc`. -/
  answered : (demuxMachine addrMapRules).observed (answeredToMaster addrMapRules) inputs =
    ((demuxMachine addrMapRules).observed answeredBySlaves inputs).map Prod.snd
  /-- The k-th answer comes from the slave that granted the k-th request. -/
  inTurn : ((demuxMachine addrMapRules).observed answeredBySlaves inputs).map Prod.fst <+:
    (demuxMachine addrMapRules).observed (grantedToMaster addrMapRules) inputs
  /-- At most one granted request is without its answer. -/
  atMostOne :
    ((demuxMachine addrMapRules).observed (grantedToMaster addrMapRules) inputs).length ≤
      ((demuxMachine addrMapRules).observed (answeredToMaster addrMapRules) inputs).length + 1
  /-- A grant answers a request of the same cycle. -/
  grantsRequests : (demuxMachine addrMapRules).Always
    (fun system input =>
      (transactionFsm addrMapRules system.demux input).gnt = true → input.req = true) inputs
  /-- No request is forwarded while a response is pending. -/
  forwardsNone : (demuxMachine addrMapRules).Always
    (fun system input =>
      (∃ port, 0 < system.owed port) → (∀ port, input.slaveRValid port = false) →
        ∀ port, (transactionFsm addrMapRules system.demux input).slaveReq port = false) inputs

/-- The grants of a run are its answers followed by what is outstanding. -/
structure DemuxRunInvariant (addrMapRules : List (AddrMapRule nrOutputs))
    (inputs : List (DemuxInput nrOutputs)) (system : DemuxSystem nrOutputs) : Prop where
  owes : OwesOutstanding system
  granted : (demuxMachine addrMapRules).observed (grantedToMaster addrMapRules) inputs =
    ((demuxMachine addrMapRules).observed answeredBySlaves inputs).map Prod.fst ++
      outstanding system.demux
  answered : (demuxMachine addrMapRules).observed (answeredToMaster addrMapRules) inputs =
    ((demuxMachine addrMapRules).observed answeredBySlaves inputs).map Prod.snd

theorem demuxRunInvariant (inputs : List (DemuxInput nrOutputs))
    (answerOnce : (demuxMachine addrMapRules).Always SlavesAnswerOnce inputs) :
    DemuxRunInvariant addrMapRules inputs ((demuxMachine addrMapRules).run inputs) := by
  refine Machine.run_induction (motive := DemuxRunInvariant addrMapRules) ?_ ?_ inputs
    answerOnce
  · exact ⟨fun port => rfl, rfl, rfl⟩
  · intro inputs input _ invariant once
    have answers := answeredBySlaves_eq invariant.owes once
    refine ⟨owesOutstanding_step invariant.owes once, ?_, ?_⟩
    · rw [Machine.observed_snoc, Machine.observed_snoc, invariant.granted, answers,
        List.append_assoc, outstanding_step]
      simp [demuxMachine, DemuxSystem.step, Function.comp_def]
    · rw [Machine.observed_snoc, Machine.observed_snoc, invariant.answered, answers,
        answeredToMaster_eq]
      simp [Function.comp_def]

/-- For every request stream, every address mix and every timing of the slaves:
one request is outstanding at a time, and each granted request is answered
exactly once by the slave that granted it. -/
theorem demux_answersInTurn (addrMapRules : List (AddrMapRule nrOutputs))
    (inputs : List (DemuxInput nrOutputs))
    (answerOnce : (demuxMachine addrMapRules).Always SlavesAnswerOnce inputs) :
    DemuxAnswersInTurn addrMapRules inputs := by
  have invariant := demuxRunInvariant inputs answerOnce
  constructor
  case granted =>
    congr 1
    funext system input
    exact grantedBySlaves_eq_grantedToMaster
  case answered => exact invariant.answered
  case inTurn =>
    rw [invariant.granted]
    exact List.prefix_append ..
  case atMostOne =>
    have single : (outstanding ((demuxMachine addrMapRules).run inputs).demux).length ≤ 1 := by
      cases state : ((demuxMachine addrMapRules).run inputs).demux.stateQ <;>
        simp [outstanding, state]
    rw [invariant.granted, invariant.answered]
    simp only [List.length_append, List.length_map]
    omega
  case grantsRequests =>
    refine answerOnce.mono fun system input _ granted => ?_
    rw [transactionFsm_gnt, issues] at granted
    simp only [Bool.and_eq_true] at granted
    exact granted.1.1
  case forwardsNone =>
    refine Machine.Always.of_invariant demuxRunInvariant ?_ answerOnce
    rintro inputs input ⟨owes, -, -⟩ - ⟨port, owing⟩ silent other
    have pending : ((demuxMachine addrMapRules).run inputs).demux.stateQ = .pending := by
      rw [owes port] at owing
      cases state : ((demuxMachine addrMapRules).run inputs).demux.stateQ with
      | pending => rfl
      | idle => simp [outstanding, state] at owing
    simp [transactionFsm_slaveReq, issues, pending, silent]

end Demux

/-- Three slaves at 0x1A000000, 0x1C000000 and everywhere else. -/
def threeRegions : List (AddrMapRule 3) :=
  [⟨1, 0x1A000000#32, 0x1B000000#32⟩, ⟨2, 0x1C000000#32, 0x1D000000#32⟩]

/-- One cycle of a run with three slaves. -/
def demuxCycle (req : Bool) (add : BitVec 32) (gnt rValid : Fin 3 → Bool) : DemuxInput 3 :=
  { req, request := ⟨add, true, 0#32, 0xF#4⟩, slaveGnt := gnt, slaveRValid := rValid
    slaveResponse := fun port => ⟨BitVec.ofNat 32 port, false⟩ }

/-- A read of slave 1 that is granted in its second cycle and answered two cycles
later, back to back with a read of slave 2. -/
def backToBackReads : List (DemuxInput 3) :=
  [demuxCycle true 0x1A000010#32 (fun _ => false) (fun _ => false),
   demuxCycle true 0x1A000010#32 (· == 1) (fun _ => false),
   demuxCycle true 0x1C000020#32 (fun _ => true) (fun _ => false),
   demuxCycle true 0x1C000020#32 (fun _ => true) (· == 1),
   demuxCycle false 0x1C000024#32 (fun _ => true) (· == 2)]

theorem backToBackReads_answersInTurn :
    DemuxAnswersInTurn threeRegions backToBackReads ∧
      (demuxMachine threeRegions).observed (answeredToMaster threeRegions) backToBackReads =
        [⟨1#32, false⟩, ⟨2#32, false⟩] :=
  ⟨demux_answersInTurn threeRegions backToBackReads (by decide), by decide⟩

end CoreVMcu.Interconnect
