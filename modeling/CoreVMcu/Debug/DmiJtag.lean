import CoreVMcu.Cdc.TwoPhase
import CoreVMcu.Clocked.Composition

/-!
# The JTAG debug transport

`dmi_jtag` lets a host read and write the registers of the debug module.  A word that the host
shifts into the data register of its TAP becomes a request; the request goes through `dmi_cdc`
to the clock of the debug module, which answers every request, and the answer comes back the
same way.  What the host shifts out is the address and the data of its last word, or an error
when the request has not been answered yet.

The registers of the debug module are not part of this: with each request that it takes, it
puts some word into its response queue.
-/

namespace CoreVMcu.Debug

open Clocked Cdc

/-- `tap_state_e`. -/
inductive TapState where
  | testLogicReset | runTestIdle | selectDrScan
  | captureDr | shiftDr | exit1Dr | pauseDr | exit2Dr
  | updateDr | selectIrScan | captureIr | shiftIr
  | exit1Ir | pauseIr | exit2Ir | updateIr
  deriving DecidableEq, Repr

/-- `tap_state_d`. -/
def TapState.next (tms : Bool) : TapState → TapState
  | testLogicReset => if tms then testLogicReset else runTestIdle
  | runTestIdle => if tms then selectDrScan else runTestIdle
  | selectDrScan => if tms then selectIrScan else captureDr
  | captureDr => if tms then exit1Dr else shiftDr
  | shiftDr => if tms then exit1Dr else shiftDr
  | exit1Dr => if tms then updateDr else pauseDr
  | pauseDr => if tms then exit2Dr else pauseDr
  | exit2Dr => if tms then updateDr else shiftDr
  | updateDr => if tms then selectDrScan else runTestIdle
  | selectIrScan => if tms then testLogicReset else captureIr
  | captureIr => if tms then exit1Ir else shiftIr
  | shiftIr => if tms then exit1Ir else shiftIr
  | exit1Ir => if tms then updateIr else pauseIr
  | pauseIr => if tms then exit2Ir else pauseIr
  | exit2Ir => if tms then updateIr else shiftIr
  | updateIr => if tms then selectDrScan else runTestIdle

/-- The instructions of `ir_reg_e` that select a register; every other one selects the bypass
register. -/
def idcodeIr : BitVec 5 := 0x01
def dtmcsrIr : BitVec 5 := 0x10
def dmiaccessIr : BitVec 5 := 0x11

/-- Registers of `dmi_jtag_tap`. -/
structure JtagTap where
  state : TapState
  irShift : BitVec 5
  ir : BitVec 5
  idcode : BitVec 32
  bypass : Bool
  dtmcs : BitVec 32

/-- A bit is shifted into the top of a register. -/
def shiftDown {width : Nat} (bit : Bool) (word : BitVec (width + 1)) : BitVec (width + 1) :=
  BitVec.cons bit (word.extractLsb' 1 width)

namespace JtagTap

def reset (idcodeValue : BitVec 32) : JtagTap :=
  { state := .runTestIdle, irShift := 0, ir := idcodeIr, idcode := idcodeValue, bypass := false
    dtmcs := 0 }

variable (tap : JtagTap)

def dmiAccess : Bool := tap.ir == dmiaccessIr

def dtmcsSelect : Bool := tap.ir == dtmcsrIr

def idcodeSelect : Bool := tap.ir == idcodeIr

def bypassSelect : Bool := !tap.dmiAccess && !tap.dtmcsSelect && !tap.idcodeSelect

/-- `dmi_reset_o`, a bit of `dtmcs_q`. -/
def dmiReset : Bool := tap.dtmcs.getLsbD 16

/-- `tdo_mux`, which is on `td_o` when the host samples it. -/
def tdo (dmiTdo : Bool) : Bool :=
  if tap.state = .shiftIr then tap.irShift.getLsbD 0
  else if tap.idcodeSelect then tap.idcode.getLsbD 0
  else if tap.dtmcsSelect then tap.dtmcs.getLsbD 0
  else if tap.dmiAccess then dmiTdo
  else tap.bypass

/-- What is captured in `dtmcs_q`: `idle` is 1, `abits` is 7, `version` is 1. -/
def dtmcsCapture (dmiError : BitVec 2) : BitVec 32 := 0x1071 ||| dmiError.setWidth 32 <<< 10

/-- One edge of the test clock. -/
def step (idcodeValue : BitVec 32) (tms td : Bool) (dmiError : BitVec 2) : JtagTap where
  state := tap.state.next tms
  irShift :=
    match tap.state with
    | .testLogicReset => 0
    | .captureIr => 0x05
    | .shiftIr => shiftDown td tap.irShift
    | _ => tap.irShift
  ir :=
    match tap.state with
    | .testLogicReset => idcodeIr
    | .updateIr => tap.irShift
    | _ => tap.ir
  idcode :=
    match tap.state with
    | .testLogicReset => idcodeValue
    | .captureDr => if tap.idcodeSelect then idcodeValue else tap.idcode
    | .shiftDr => if tap.idcodeSelect then shiftDown td tap.idcode else tap.idcode
    | _ => tap.idcode
  bypass :=
    match tap.state with
    | .testLogicReset => false
    | .captureDr => if tap.bypassSelect then false else tap.bypass
    | .shiftDr => if tap.bypassSelect then td else tap.bypass
    | _ => tap.bypass
  dtmcs :=
    match tap.state with
    | .captureDr => if tap.dtmcsSelect then dtmcsCapture dmiError else tap.dtmcs
    | .shiftDr => if tap.dtmcsSelect then shiftDown td tap.dtmcs else tap.dtmcs
    | _ => tap.dtmcs

end JtagTap

/-- `dm::dmi_req_t`. -/
structure DmiReq where
  addr : BitVec 7
  op : BitVec 2
  data : BitVec 32
  deriving DecidableEq, Repr

def DmiReq.zero : DmiReq := { addr := 0, op := 0, data := 0 }

/-- `dm::dtm_op_e`. -/
def dtmRead : BitVec 2 := 1
def dtmWrite : BitVec 2 := 2

/-- `dmi_error_e`. -/
def dmiNoError : BitVec 2 := 0
def dmiBusy : BitVec 2 := 3

/-- `state_e`. -/
inductive DtmState where
  | idle | read | waitReadValid | write | waitWriteValid
  deriving DecidableEq, Repr

/-- `dmi_t`: the data register is an address, a word of data and an operation. -/
def dmiWord (addr : BitVec 7) (data : BitVec 32) (op : BitVec 2) : BitVec 41 := addr ++ data ++ op

def dmiAddress (dr : BitVec 41) : BitVec 7 := dr.extractLsb' 34 7
def dmiData (dr : BitVec 41) : BitVec 32 := dr.extractLsb' 2 32
def dmiOp (dr : BitVec 41) : BitVec 2 := dr.extractLsb' 0 2

@[simp] theorem dmiOp_dmiWord (addr : BitVec 7) (data : BitVec 32) (op : BitVec 2) :
    dmiOp (dmiWord addr data op) = op := by
  ext i inside
  have bit : (dmiWord addr data op).getLsbD i = op.getLsbD i :=
    (BitVec.getLsbD_append ..).trans (if_pos inside)
  simp [dmiOp, bit, BitVec.getLsbD_eq_getElem inside]

/-- Registers of `dmi_jtag`. -/
structure DmiJtag where
  tap : JtagTap
  state : DtmState
  dr : BitVec 41
  address : BitVec 7
  data : BitVec 32
  error : BitVec 2

/-- What is sampled at an edge of the test clock: the pads, and the answers of `dmi_cdc`. -/
structure TckInput where
  tms : Bool
  td : Bool
  reqReady : Bool
  respValid : Bool
  respData : BitVec 32

namespace DmiJtag

def reset (idcodeValue : BitVec 32) : DmiJtag :=
  { tap := .reset idcodeValue, state := .idle, dr := 0, address := 0, data := 0
    error := dmiNoError }

variable (jtag : DmiJtag) (input : TckInput)

def updateDr : Bool := jtag.tap.state == .updateDr
def captureDr : Bool := jtag.tap.state == .captureDr
def shiftDr : Bool := jtag.tap.state == .shiftDr

/-- `dmi_req`. -/
def req : DmiReq :=
  { addr := jtag.address, op := if jtag.state = .write then dtmWrite else dtmRead
    data := jtag.data }

/-- `dmi_req_valid`. -/
def reqValid : Bool :=
  match jtag.state with
  | .read | .write => true
  | _ => false

/-- A word of the host is taken. -/
def accepts : Bool :=
  jtag.state == .idle && jtag.tap.dmiAccess && jtag.updateDr && jtag.error == dmiNoError

/-- `error_dmi_busy`. -/
def errorDmiBusy : Bool :=
  jtag.updateDr && jtag.state != .idle ||
    jtag.captureDr && (jtag.state == .read || jtag.state == .waitReadValid)

/-- `state_d`. -/
def stateNext : DtmState :=
  match jtag.state with
  | .idle =>
      if jtag.accepts then
        if dmiOp jtag.dr = dtmRead then .read
        else if dmiOp jtag.dr = dtmWrite then .write
        else .idle
      else .idle
  | .read => if input.reqReady then .waitReadValid else .read
  | .waitReadValid => if input.respValid then .idle else .waitReadValid
  | .write => if input.reqReady then .waitWriteValid else .write
  | .waitWriteValid => if input.respValid then .idle else .waitWriteValid

/-- The word that is captured for the host. -/
def report : BitVec 41 :=
  if jtag.error == dmiNoError && !jtag.errorDmiBusy then
    dmiWord jtag.address jtag.data dmiNoError
  else if jtag.error == dmiBusy || jtag.errorDmiBusy then
    dmiWord jtag.address jtag.data dmiBusy
  else jtag.dr

/-- One edge of the test clock. -/
def step (idcodeValue : BitVec 32) : DmiJtag where
  tap := jtag.tap.step idcodeValue input.tms input.td jtag.error
  state := jtag.stateNext input
  address := if jtag.accepts then dmiAddress jtag.dr else jtag.address
  data :=
    if jtag.accepts then dmiData jtag.dr
    else if jtag.state = .waitReadValid ∧ input.respValid then input.respData
    else jtag.data
  error :=
    if jtag.updateDr && jtag.tap.dmiReset && jtag.tap.dtmcsSelect then dmiNoError
    else if jtag.errorDmiBusy then dmiBusy
    else jtag.error
  dr :=
    match jtag.tap.state with
    | .testLogicReset => 0
    | .captureDr => if jtag.tap.dmiAccess then jtag.report else jtag.dr
    | .shiftDr => if jtag.tap.dmiAccess then shiftDown input.td jtag.dr else jtag.dr
    | _ => jtag.dr

/-- `td_o`. -/
def tdo : Bool := jtag.tap.tdo (jtag.dr.getLsbD 0)

end DmiJtag

/-! ## With the clock domain crossings and the response queue -/

/-- `dmi_jtag` with the two crossings of `dmi_cdc`, and the response FIFO of `dm_csrs`, which has
two places. -/
structure DebugLink where
  jtag : DmiJtag
  cdcReq : TwoPhase DmiReq
  cdcResp : TwoPhase (BitVec 32)
  respQueue : List (BitVec 32)

/-- The clock edges of an instant: that of the test clock with `tms_i` and `td_i`, and that of
the debug module with `resp_queue_data`. -/
structure DebugEdges where
  tck : Option (Bool × Bool)
  clk : Option (BitVec 32)

namespace DebugLink

variable (link : DebugLink) (edges : DebugEdges)

def tckInput (pads : Bool × Bool) : TckInput :=
  { tms := pads.1, td := pads.2, reqReady := link.cdcReq.src.ready
    respValid := link.cdcResp.dst.valid, respData := link.cdcResp.dst.dataDst }

/-- `dmi_req_ready_o` of the debug module. -/
def respQueueRoom : Bool := link.respQueue.length != 2

/-- `i_cdc_req`. -/
def reqEdges : TwoPhaseEdges DmiReq where
  source := edges.tck.map fun _ => (link.jtag.reqValid, link.jtag.req)
  destination := edges.clk.map fun _ => link.respQueueRoom

/-- `i_cdc_resp`: `dmi_jtag` is always ready. -/
def respEdges : TwoPhaseEdges (BitVec 32) where
  source := edges.clk.map fun _ => (!link.respQueue.isEmpty, link.respQueue.headD 0)
  destination := edges.tck.map fun _ => true

/-- The request that the debug module takes, with its answer. -/
def serves : List (DmiReq × BitVec 32) :=
  match edges.clk with
  | some data => (transferred link.cdcReq (link.reqEdges edges)).map fun req => (req, data)
  | none => []

/-- The word of the host that is taken. -/
def accepts : List (BitVec 41) :=
  if edges.tck.isSome && link.jtag.accepts then [link.jtag.dr] else []

/-- The clock edges of an instant. -/
def step (idcodeValue : BitVec 32) : DebugLink where
  jtag :=
    match edges.tck with
    | some pads => link.jtag.step (link.tckInput pads) idcodeValue
    | none => link.jtag
  cdcReq := (twoPhaseMachine DmiReq.zero).step link.cdcReq (link.reqEdges edges)
  cdcResp := (twoPhaseMachine 0).step link.cdcResp (link.respEdges edges)
  respQueue :=
    link.respQueue.drop (accepted link.cdcResp (link.respEdges edges)).length ++
      (link.serves edges).map Prod.snd

end DebugLink

/-- The transport from reset. -/
def debugMachine (idcodeValue : BitVec 32) : Machine DebugLink DebugEdges where
  init :=
    { jtag := .reset idcodeValue
      cdcReq := (twoPhaseMachine DmiReq.zero).init
      cdcResp := (twoPhaseMachine 0).init
      respQueue := [] }
  step link edges := link.step edges idcodeValue

/-- The crossing of the requests. -/
def debugReq (idcodeValue : BitVec 32) :
    Component (debugMachine idcodeValue) (twoPhaseMachine DmiReq.zero) where
  view := DebugLink.cdcReq
  feed link edges := some (link.reqEdges edges)
  reset := rfl
  edge _ _ := rfl

/-- The crossing of the answers. -/
def debugResp (idcodeValue : BitVec 32) :
    Component (debugMachine idcodeValue) (twoPhaseMachine (0 : BitVec 32)) where
  view := DebugLink.cdcResp
  feed link edges := some (link.respEdges edges)
  reset := rfl
  edge _ _ := rfl

section Runs

variable (idcodeValue : BitVec 32) (inputs : List DebugEdges)

/-- The words of the host that were taken. -/
def hostWords : List (BitVec 41) :=
  (debugMachine idcodeValue).observed DebugLink.accepts inputs

/-- The requests that the debug module has taken, with their answers. -/
def served : List (DmiReq × BitVec 32) :=
  (debugMachine idcodeValue).observed DebugLink.serves inputs

/-- The request that a word of the host asks for. -/
def requestOf (dr : BitVec 41) : List DmiReq :=
  if dmiOp dr = dtmRead ∨ dmiOp dr = dtmWrite then
    [{ addr := dmiAddress dr, op := dmiOp dr, data := dmiData dr }]
  else []

/-- What the host is told about its last word: the address and the data of it, or of the answer
when it was a read. -/
def answerTo (answers : List (DmiReq × BitVec 32)) (dr : BitVec 41) : BitVec 41 :=
  if dmiOp dr = dtmRead then
    dmiWord (dmiAddress dr) ((answers.getLast?.map Prod.snd).getD 0) dmiNoError
  else dmiWord (dmiAddress dr) (dmiData dr) dmiNoError

/-- The debug module takes the requests of the words of the host, each once and in order, at most
one is under way, and a report without an error answers the last word. -/
structure DebugAnswers : Prop where
  inOrder : (served idcodeValue inputs).map Prod.fst <+:
    (hostWords idcodeValue inputs).flatMap requestOf
  oneUnderWay : ((hostWords idcodeValue inputs).flatMap requestOf).length ≤
    (served idcodeValue inputs).length + 1
  reports : dmiOp ((debugMachine idcodeValue).run inputs).jtag.report = dmiNoError →
    ((debugMachine idcodeValue).run inputs).jtag.captureDr = true →
    ∀ dr ∈ (hostWords idcodeValue inputs).getLast?,
      ((debugMachine idcodeValue).run inputs).jtag.report =
        answerTo (served idcodeValue inputs) dr
  idleServed : ((debugMachine idcodeValue).run inputs).jtag.state = .idle →
    (served idcodeValue inputs).map Prod.fst = (hostWords idcodeValue inputs).flatMap requestOf

/-- The requests that have been launched. -/
def launched : List DmiReq :=
  (debugMachine idcodeValue).observed
    (fun link edges => accepted link.cdcReq (link.reqEdges edges)) inputs

/-- The answers that have come back. -/
def answered : List (BitVec 32) :=
  (debugMachine idcodeValue).observed
    (fun link edges => transferred link.cdcResp (link.respEdges edges)) inputs

variable {idcodeValue inputs}

theorem launched_eq (idcodeValue : BitVec 32) (inputs : List DebugEdges) :
    launched idcodeValue inputs =
      (served idcodeValue inputs).map Prod.fst ++
        ((debugMachine idcodeValue).run inputs).cdcReq.held := by
  have sent : launched idcodeValue inputs = (twoPhaseMachine DmiReq.zero).observed accepted
      ((debugReq idcodeValue).fed inputs) := by
    rw [← Component.observed_watches, launched]
    congr 1
    funext link edges
    exact (List.append_nil _).symm
  have taken : (served idcodeValue inputs).map Prod.fst =
      (twoPhaseMachine DmiReq.zero).observed transferred ((debugReq idcodeValue).fed inputs) := by
    rw [← Component.observed_watches, served, Machine.map_observed]
    congr 1
    funext link edges
    change _ = transferred link.cdcReq (link.reqEdges edges) ++ []
    rw [List.append_nil, DebugLink.serves]
    cases ticks : edges.clk with
    | none => simp [transferred, DebugLink.reqEdges, ticks]
    | some data => simp [Function.comp_def]
  obtain ⟨-, -, -, -, conserved⟩ :=
    twoPhaseTracks DmiReq.zero ((debugReq idcodeValue).fed inputs)
  rw [sent, taken, conserved, ← Component.view_run]
  rfl

/-- The head of the queue is what the crossing of the answers takes. -/
theorem accepted_respQueue (link : DebugLink) (edges : DebugEdges) :
    accepted link.cdcResp (link.respEdges edges) ++
        link.respQueue.drop (accepted link.cdcResp (link.respEdges edges)).length =
      link.respQueue := by
  cases ticks : edges.clk with
  | none => simp [accepted, DebugLink.respEdges, ticks]
  | some data =>
      cases queue : link.respQueue with
      | nil => simp [accepted, DebugLink.respEdges, ticks, queue]
      | cons first rest =>
          cases ready : link.cdcResp.src.ready <;>
            simp [accepted, DebugLink.respEdges, ticks, queue, ready]

theorem served_eq (idcodeValue : BitVec 32) (inputs : List DebugEdges) :
    (served idcodeValue inputs).map Prod.snd =
      answered idcodeValue inputs ++ ((debugMachine idcodeValue).run inputs).cdcResp.held ++
        ((debugMachine idcodeValue).run inputs).respQueue := by
  have popped : ∀ run, (served idcodeValue run).map Prod.snd =
      (debugMachine idcodeValue).observed
          (fun link edges => accepted link.cdcResp (link.respEdges edges)) run ++
        ((debugMachine idcodeValue).run run).respQueue := by
    intro run
    induction run using List.reverseRecOn with
    | nil => rfl
    | append_singleton run edges inductionHypothesis =>
        have queue : ((debugMachine idcodeValue).run (run ++ [edges])).respQueue =
            ((debugMachine idcodeValue).run run).respQueue.drop
                (accepted ((debugMachine idcodeValue).run run).cdcResp
                  (((debugMachine idcodeValue).run run).respEdges edges)).length ++
              (((debugMachine idcodeValue).run run).serves edges).map Prod.snd := by
          rw [Machine.run_snoc]
          rfl
        rw [served, Machine.observed_snoc, List.map_append, ← served, inductionHypothesis, queue,
          Machine.observed_snoc, List.append_assoc, List.append_assoc, ← List.append_assoc
            (accepted _ _), accepted_respQueue]
  have sent : (debugMachine idcodeValue).observed
      (fun link edges => accepted link.cdcResp (link.respEdges edges)) inputs =
        (twoPhaseMachine 0).observed accepted ((debugResp idcodeValue).fed inputs) := by
    rw [← Component.observed_watches]
    congr 1
    funext link edges
    exact (List.append_nil _).symm
  have back : answered idcodeValue inputs =
      (twoPhaseMachine 0).observed transferred ((debugResp idcodeValue).fed inputs) := by
    rw [← Component.observed_watches, answered]
    congr 1
    funext link edges
    exact (List.append_nil _).symm
  obtain ⟨-, -, -, -, conserved⟩ := twoPhaseTracks 0 ((debugResp idcodeValue).fed inputs)
  rw [popped inputs, sent, back, conserved, ← Component.view_run]
  rfl

theorem reqHeld_of_valid (valid :
    ((debugMachine idcodeValue).run inputs).cdcReq.dst.valid = true) :
    ((debugMachine idcodeValue).run inputs).cdcReq.held ≠ [] := by
  obtain ⟨counts, tracks, -⟩ := twoPhaseTracks DmiReq.zero ((debugReq idcodeValue).fed inputs)
  rw [← Component.view_run] at tracks
  have held := tracks.held_of_valid valid
  exact held ▸ List.cons_ne_nil _ _

theorem respHeld_of_valid (valid :
    ((debugMachine idcodeValue).run inputs).cdcResp.dst.valid = true) :
    ((debugMachine idcodeValue).run inputs).cdcResp.held =
      [((debugMachine idcodeValue).run inputs).cdcResp.dst.dataDst] := by
  obtain ⟨counts, tracks, -⟩ := twoPhaseTracks 0 ((debugResp idcodeValue).fed inputs)
  rw [← Component.view_run] at tracks
  exact tracks.held_of_valid valid

/-- An answer is awaited. -/
def DmiJtag.waits (jtag : DmiJtag) : Bool :=
  match jtag.state with
  | .waitReadValid | .waitWriteValid => true
  | _ => false

/-- The registers hold the last word of the host, or the answer to it. -/
def DmiJtag.Holds (jtag : DmiJtag) (last : Option (BitVec 41))
    (answers : List (DmiReq × BitVec 32)) : Prop :=
  match jtag.state with
  | .idle => ∀ dr ∈ last, dmiWord jtag.address jtag.data dmiNoError = answerTo answers dr
  | .read | .waitReadValid =>
      ∃ dr ∈ last, dmiOp dr = dtmRead ∧ jtag.address = dmiAddress dr ∧ jtag.data = dmiData dr
  | .write | .waitWriteValid =>
      ∃ dr ∈ last, dmiOp dr = dtmWrite ∧ jtag.address = dmiAddress dr ∧ jtag.data = dmiData dr

/-- The debug transport module after a run. -/
structure DmiJtag.Follows (jtag : DmiJtag) (words : List (BitVec 41)) (launched : List DmiReq)
    (answered : Nat) (answers : List (DmiReq × BitVec 32)) : Prop where
  requested : words.flatMap requestOf = launched ++ if jtag.reqValid then [jtag.req] else []
  outstanding : launched.length = answered + jtag.waits.toNat
  holds : jtag.Holds words.getLast? answers
  error : jtag.error = dmiNoError ∨ jtag.error = dmiBusy

section Step

variable {jtag : DmiJtag} {words : List (BitVec 41)} {answers : List (DmiReq × BitVec 32)}

/-- Only an idle module takes a word. -/
theorem DmiJtag.accepts_of_busy (busy : jtag.state ≠ .idle) : jtag.accepts = false := by
  rw [DmiJtag.accepts, beq_eq_false_iff_ne.mpr busy]
  rfl

/-- A word that is taken becomes the request of the module. -/
theorem DmiJtag.requested_step {launched : List DmiReq} (input : TckInput)
    (idcodeValue : BitVec 32)
    (requested : words.flatMap requestOf = launched ++ if jtag.reqValid then [jtag.req] else []) :
    (words ++ if jtag.accepts then [jtag.dr] else []).flatMap requestOf =
      (launched ++ if jtag.reqValid && input.reqReady then [jtag.req] else []) ++
        if (jtag.step input idcodeValue).reqValid then [(jtag.step input idcodeValue).req]
        else [] := by
  rw [List.flatMap_append, requested]
  cases state : jtag.state with
  | idle =>
      cases accepts : jtag.accepts with
      | false =>
          simp [DmiJtag.reqValid, DmiJtag.step, DmiJtag.stateNext, state, accepts]
      | true =>
          by_cases read : dmiOp jtag.dr = dtmRead
          · simp [DmiJtag.reqValid, DmiJtag.step, DmiJtag.stateNext, DmiJtag.req, requestOf, state,
              accepts, read]
          · by_cases write : dmiOp jtag.dr = dtmWrite
            · have differ : ¬dtmWrite = dtmRead := by decide
              simp [DmiJtag.reqValid, DmiJtag.step, DmiJtag.stateNext, DmiJtag.req, requestOf,
                state, accepts, write, differ]
            · simp [DmiJtag.reqValid, DmiJtag.step, DmiJtag.stateNext, requestOf, state, accepts,
                read, write]
  | read =>
      have refuses : jtag.accepts = false := DmiJtag.accepts_of_busy (by simp [state])
      cases ready : input.reqReady <;>
        simp [DmiJtag.reqValid, DmiJtag.step, DmiJtag.stateNext, DmiJtag.req, state, refuses, ready]
  | write =>
      have refuses : jtag.accepts = false := DmiJtag.accepts_of_busy (by simp [state])
      cases ready : input.reqReady <;>
        simp [DmiJtag.reqValid, DmiJtag.step, DmiJtag.stateNext, DmiJtag.req, state, refuses, ready]
  | waitReadValid =>
      have refuses : jtag.accepts = false := DmiJtag.accepts_of_busy (by simp [state])
      cases valid : input.respValid <;>
        simp [DmiJtag.reqValid, DmiJtag.step, DmiJtag.stateNext, state, refuses, valid]
  | waitWriteValid =>
      have refuses : jtag.accepts = false := DmiJtag.accepts_of_busy (by simp [state])
      cases valid : input.respValid <;>
        simp [DmiJtag.reqValid, DmiJtag.step, DmiJtag.stateNext, state, refuses, valid]

/-- A request that is launched is awaited until its answer comes back. -/
theorem DmiJtag.waits_step (input : TckInput) (idcodeValue : BitVec 32)
    (awaited : input.respValid = true → jtag.waits = true) :
    jtag.waits.toNat + (jtag.reqValid && input.reqReady).toNat =
      input.respValid.toNat + (jtag.step input idcodeValue).waits.toNat := by
  cases state : jtag.state with
  | idle =>
      have none : input.respValid = false := by
        cases valid : input.respValid with
        | false => rfl
        | true => simpa [DmiJtag.waits, state] using awaited valid
      cases accepts : jtag.accepts with
      | false =>
          simp [DmiJtag.waits, DmiJtag.reqValid, DmiJtag.step, DmiJtag.stateNext, state, none,
            accepts]
      | true =>
          by_cases read : dmiOp jtag.dr = dtmRead
          · simp [DmiJtag.waits, DmiJtag.reqValid, DmiJtag.step, DmiJtag.stateNext, state, none,
              accepts, read]
          · by_cases write : dmiOp jtag.dr = dtmWrite
            · have differ : ¬dtmWrite = dtmRead := by decide
              simp [DmiJtag.waits, DmiJtag.reqValid, DmiJtag.step, DmiJtag.stateNext, state, none,
                accepts, write, differ]
            · simp [DmiJtag.waits, DmiJtag.reqValid, DmiJtag.step, DmiJtag.stateNext, state, none,
                accepts, read, write]
  | read =>
      have none : input.respValid = false := by
        cases valid : input.respValid with
        | false => rfl
        | true => simpa [DmiJtag.waits, state] using awaited valid
      cases ready : input.reqReady <;>
        simp [DmiJtag.waits, DmiJtag.reqValid, DmiJtag.step, DmiJtag.stateNext, state, none, ready]
  | write =>
      have none : input.respValid = false := by
        cases valid : input.respValid with
        | false => rfl
        | true => simpa [DmiJtag.waits, state] using awaited valid
      cases ready : input.reqReady <;>
        simp [DmiJtag.waits, DmiJtag.reqValid, DmiJtag.step, DmiJtag.stateNext, state, none, ready]
  | waitReadValid =>
      cases valid : input.respValid <;>
        simp [DmiJtag.waits, DmiJtag.reqValid, DmiJtag.step, DmiJtag.stateNext, state, valid]
  | waitWriteValid =>
      cases valid : input.respValid <;>
        simp [DmiJtag.waits, DmiJtag.reqValid, DmiJtag.step, DmiJtag.stateNext, state, valid]

/-- The registers go on holding the last word of the host, or the answer to it. -/
theorem DmiJtag.holds_step (input : TckInput) (idcodeValue : BitVec 32)
    (holds : jtag.Holds words.getLast? answers)
    (last : input.respValid = true → answers.getLast?.map Prod.snd = some input.respData) :
    (jtag.step input idcodeValue).Holds
      (words ++ if jtag.accepts then [jtag.dr] else []).getLast? answers := by
  cases state : jtag.state with
  | idle =>
      simp only [DmiJtag.Holds, state] at holds
      cases accepts : jtag.accepts with
      | false =>
          simpa [DmiJtag.Holds, DmiJtag.step, DmiJtag.stateNext, state, accepts] using holds
      | true =>
          by_cases read : dmiOp jtag.dr = dtmRead
          · simp [DmiJtag.Holds, DmiJtag.step, DmiJtag.stateNext, state, accepts, read]
          · by_cases write : dmiOp jtag.dr = dtmWrite
            · have differ : ¬dtmWrite = dtmRead := by decide
              simp [DmiJtag.Holds, DmiJtag.step, DmiJtag.stateNext, state, accepts, write, differ]
            · simp [DmiJtag.Holds, DmiJtag.step, DmiJtag.stateNext, answerTo, state, accepts, read,
                write]
  | read =>
      have refuses : jtag.accepts = false := DmiJtag.accepts_of_busy (by simp [state])
      simp only [DmiJtag.Holds, state] at holds
      cases ready : input.reqReady <;>
        simpa [DmiJtag.Holds, DmiJtag.step, DmiJtag.stateNext, state, refuses, ready] using holds
  | write =>
      have refuses : jtag.accepts = false := DmiJtag.accepts_of_busy (by simp [state])
      simp only [DmiJtag.Holds, state] at holds
      cases ready : input.reqReady <;>
        simpa [DmiJtag.Holds, DmiJtag.step, DmiJtag.stateNext, state, refuses, ready] using holds
  | waitReadValid =>
      have refuses : jtag.accepts = false := DmiJtag.accepts_of_busy (by simp [state])
      simp only [DmiJtag.Holds, state] at holds
      cases valid : input.respValid with
      | false =>
          simpa [DmiJtag.Holds, DmiJtag.step, DmiJtag.stateNext, state, refuses, valid] using holds
      | true =>
          obtain ⟨dr, isLast, read, address, -⟩ := holds
          have newest := last valid
          simp only [DmiJtag.Holds, DmiJtag.step, DmiJtag.stateNext, state, refuses, valid,
            Bool.false_eq_true, if_false, List.append_nil, if_true, and_self]
          intro other isOther
          cases Option.mem_unique isLast isOther
          rw [answerTo, if_pos read, address, newest, Option.getD_some]
  | waitWriteValid =>
      have refuses : jtag.accepts = false := DmiJtag.accepts_of_busy (by simp [state])
      simp only [DmiJtag.Holds, state] at holds
      cases valid : input.respValid with
      | false =>
          simpa [DmiJtag.Holds, DmiJtag.step, DmiJtag.stateNext, state, refuses, valid] using holds
      | true =>
          obtain ⟨dr, isLast, write, address, data⟩ := holds
          have differ : ¬dtmWrite = dtmRead := by decide
          simp only [DmiJtag.Holds, DmiJtag.step, DmiJtag.stateNext, state, refuses, valid,
            Bool.false_eq_true, if_false, List.append_nil, if_true]
          intro other isOther
          cases Option.mem_unique isLast isOther
          rw [answerTo, write, if_neg differ, address, ← data]
          rfl

/-- An edge of the test clock, with the answer that comes back, if any. -/
theorem DmiJtag.Follows.step {launched : List DmiReq} {answered : Nat}
    (follows : jtag.Follows words launched answered answers) (input : TckInput)
    (idcodeValue : BitVec 32) (awaited : input.respValid = true → jtag.waits = true)
    (last : input.respValid = true → answers.getLast?.map Prod.snd = some input.respData) :
    (jtag.step input idcodeValue).Follows (words ++ if jtag.accepts then [jtag.dr] else [])
      (launched ++ if jtag.reqValid && input.reqReady then [jtag.req] else [])
      (answered + input.respValid.toNat) answers where
  requested := DmiJtag.requested_step input idcodeValue follows.requested
  outstanding := by
    have counts := DmiJtag.waits_step input idcodeValue awaited
    have before := follows.outstanding
    have one : (if jtag.reqValid && input.reqReady then [jtag.req] else []).length =
        (jtag.reqValid && input.reqReady).toNat := by
      cases jtag.reqValid && input.reqReady <;> rfl
    rw [List.length_append, one]
    omega
  holds := DmiJtag.holds_step input idcodeValue follows.holds last
  error := by
    have before := follows.error
    simp only [DmiJtag.step]
    split
    · exact .inl rfl
    · split
      · exact .inr rfl
      · exact before

/-- Only an idle module has an answer to report. -/
theorem DmiJtag.Holds.of_busy {last : Option (BitVec 41)} {later : List (DmiReq × BitVec 32)}
    (holds : jtag.Holds last answers) (same : jtag.state = .idle → later = answers) :
    jtag.Holds last later := by
  cases state : jtag.state with
  | idle => rwa [same state]
  | read => simpa only [DmiJtag.Holds, state] using holds
  | write => simpa only [DmiJtag.Holds, state] using holds
  | waitReadValid => simpa only [DmiJtag.Holds, state] using holds
  | waitWriteValid => simpa only [DmiJtag.Holds, state] using holds

end Step

/-- The numbers of requests and answers on the way. -/
theorem inFlight (idcodeValue : BitVec 32) (inputs : List DebugEdges) :
    (launched idcodeValue inputs).length = (served idcodeValue inputs).length +
        ((debugMachine idcodeValue).run inputs).cdcReq.held.length ∧
      (served idcodeValue inputs).length = (answered idcodeValue inputs).length +
        ((debugMachine idcodeValue).run inputs).cdcResp.held.length +
        ((debugMachine idcodeValue).run inputs).respQueue.length := by
  have requests := congrArg List.length (launched_eq idcodeValue inputs)
  have answers := congrArg List.length (served_eq idcodeValue inputs)
  simp only [List.length_append, List.length_map] at requests answers
  exact ⟨requests, answers⟩

/-- A read that has not been answered is reported as busy. -/
theorem DmiJtag.report_of_noError {jtag : DmiJtag}
    (error : jtag.error = dmiNoError ∨ jtag.error = dmiBusy) (captures : jtag.captureDr = true)
    (noError : dmiOp jtag.report = dmiNoError) :
    jtag.report = dmiWord jtag.address jtag.data dmiNoError ∧
      jtag.state ≠ .read ∧ jtag.state ≠ .waitReadValid := by
  have differ : ¬dmiBusy = dmiNoError := by decide
  rw [DmiJtag.report] at noError ⊢
  cases busy : jtag.errorDmiBusy with
  | true => simp [busy, differ] at noError
  | false =>
      rcases error with clear | sticky
      · rw [clear]
        refine ⟨rfl, ?_, ?_⟩
        · intro reading
          simp [DmiJtag.errorDmiBusy, captures, reading] at busy
        · intro reading
          simp [DmiJtag.errorDmiBusy, captures, reading] at busy
      · simp [sticky, differ] at noError

/-- A report without an error answers the last word. -/
theorem report_answers {jtag : DmiJtag} {words : List (BitVec 41)} {launched : List DmiReq}
    {answered : Nat} {answers : List (DmiReq × BitVec 32)}
    (follows : jtag.Follows words launched answered answers) (captures : jtag.captureDr = true)
    (noError : dmiOp jtag.report = dmiNoError) :
    ∀ dr ∈ words.getLast?, jtag.report = answerTo answers dr := by
  intro dr isLast
  have holds := follows.holds
  obtain ⟨report, notRead, notWaiting⟩ :=
    DmiJtag.report_of_noError follows.error captures noError
  rw [report]
  rw [DmiJtag.Holds] at holds
  have differ : ¬dtmWrite = dtmRead := by decide
  cases state : jtag.state with
  | read => exact absurd state notRead
  | waitReadValid => exact absurd state notWaiting
  | idle =>
      rw [state] at holds
      exact holds dr isLast
  | write | waitWriteValid =>
      rw [state] at holds
      obtain ⟨other, isOther, write, address, data⟩ := holds
      cases Option.mem_unique isLast isOther
      rw [answerTo, write, if_neg differ, address, data]

section Follows

variable {link : DebugLink} {edges : DebugEdges}

/-- When an answer comes back it is awaited, and it is the last one. -/
theorem answer_last
    (follows : ((debugMachine idcodeValue).run inputs).jtag.Follows (hostWords idcodeValue inputs)
      (launched idcodeValue inputs) (answered idcodeValue inputs).length
      (served idcodeValue inputs))
    (valid : ((debugMachine idcodeValue).run inputs).cdcResp.dst.valid = true) :
    ((debugMachine idcodeValue).run inputs).jtag.waits = true ∧
      ((debugMachine idcodeValue).run inputs).cdcReq.held = [] ∧
      (served idcodeValue inputs).getLast?.map Prod.snd =
        some ((debugMachine idcodeValue).run inputs).cdcResp.dst.dataDst := by
  obtain ⟨requests, answers⟩ := inFlight idcodeValue inputs
  have held := respHeld_of_valid valid
  have outstanding := follows.outstanding
  have atMost := Bool.toNat_le ((debugMachine idcodeValue).run inputs).jtag.waits
  rw [held, List.length_singleton] at answers
  have noRequest : ((debugMachine idcodeValue).run inputs).cdcReq.held = [] :=
    List.eq_nil_of_length_eq_zero (by omega)
  have noQueue : ((debugMachine idcodeValue).run inputs).respQueue = [] :=
    List.eq_nil_of_length_eq_zero (by omega)
  refine ⟨?_, noRequest, ?_⟩
  · cases waits : ((debugMachine idcodeValue).run inputs).jtag.waits with
    | true => rfl
    | false =>
        rw [waits, Bool.toNat_false] at outstanding
        omega
  · rw [← List.getLast?_map, served_eq, held, noQueue, List.append_nil, List.getLast?_concat]

/-- A request that is served is awaited, and its answer has not come back. -/
theorem serves_awaited
    (follows : ((debugMachine idcodeValue).run inputs).jtag.Follows (hostWords idcodeValue inputs)
      (launched idcodeValue inputs) (answered idcodeValue inputs).length
      (served idcodeValue inputs))
    (serves : ((debugMachine idcodeValue).run inputs).serves edges ≠ []) :
    ((debugMachine idcodeValue).run inputs).jtag.waits = true ∧
      ((debugMachine idcodeValue).run inputs).cdcResp.dst.valid = false := by
  obtain ⟨requests, answers⟩ := inFlight idcodeValue inputs
  have valid : ((debugMachine idcodeValue).run inputs).cdcReq.dst.valid = true := by
    cases valid : ((debugMachine idcodeValue).run inputs).cdcReq.dst.valid with
    | true => rfl
    | false =>
        cases ticks : edges.clk with
        | none => simp [DebugLink.serves, ticks] at serves
        | some data =>
            simp [DebugLink.serves, transferred, DebugLink.reqEdges, ticks, valid] at serves
  have held := List.length_pos_iff.mpr (reqHeld_of_valid valid)
  have outstanding := follows.outstanding
  constructor
  · cases waits : ((debugMachine idcodeValue).run inputs).jtag.waits with
    | true => rfl
    | false =>
        rw [waits, Bool.toNat_false] at outstanding
        omega
  · cases back : ((debugMachine idcodeValue).run inputs).cdcResp.dst.valid with
    | false => rfl
    | true =>
        obtain ⟨-, none, -⟩ := answer_last follows back
        exact absurd none (reqHeld_of_valid valid)

theorem dtmFollows (idcodeValue : BitVec 32) (inputs : List DebugEdges) :
    ((debugMachine idcodeValue).run inputs).jtag.Follows (hostWords idcodeValue inputs)
      (launched idcodeValue inputs) (answered idcodeValue inputs).length
      (served idcodeValue inputs) := by
  induction inputs using List.reverseRecOn with
  | nil =>
      constructor
      case requested => rfl
      case outstanding => rfl
      case holds => exact fun _ none => nomatch none
      case error => exact .inl rfl
  | append_singleton inputs edges follows =>
      have words : hostWords idcodeValue (inputs ++ [edges]) = hostWords idcodeValue inputs ++
          ((debugMachine idcodeValue).run inputs).accepts edges := Machine.observed_snoc ..
      have answers : served idcodeValue (inputs ++ [edges]) = served idcodeValue inputs ++
          ((debugMachine idcodeValue).run inputs).serves edges := Machine.observed_snoc ..
      have sent : launched idcodeValue (inputs ++ [edges]) = launched idcodeValue inputs ++
          accepted ((debugMachine idcodeValue).run inputs).cdcReq
            (((debugMachine idcodeValue).run inputs).reqEdges edges) := Machine.observed_snoc ..
      have back : answered idcodeValue (inputs ++ [edges]) = answered idcodeValue inputs ++
          transferred ((debugMachine idcodeValue).run inputs).cdcResp
            (((debugMachine idcodeValue).run inputs).respEdges edges) := Machine.observed_snoc ..
      rw [words, answers, sent, back, List.length_append]
      cases ticks : edges.tck with
      | none =>
          have same : ((debugMachine idcodeValue).run (inputs ++ [edges])).jtag =
              ((debugMachine idcodeValue).run inputs).jtag := by
            rw [Machine.run_snoc]
            simp [debugMachine, DebugLink.step, ticks]
          have quiet : (((debugMachine idcodeValue).run inputs).jtag.state = .idle →
              served idcodeValue inputs ++ ((debugMachine idcodeValue).run inputs).serves edges =
                served idcodeValue inputs) := by
            intro idle
            by_contra more
            have serves : ((debugMachine idcodeValue).run inputs).serves edges ≠ [] := by
              intro none
              rw [none, List.append_nil] at more
              exact more rfl
            simpa [DmiJtag.waits, idle] using (serves_awaited follows serves).1
          have kept := follows.holds.of_busy quiet
          rw [same]
          constructor
          case requested =>
            simpa [DebugLink.accepts, accepted, DebugLink.reqEdges, ticks] using follows.requested
          case outstanding =>
            simpa [accepted, transferred, DebugLink.reqEdges, DebugLink.respEdges, ticks] using
              follows.outstanding
          case holds => simpa [DebugLink.accepts, ticks] using kept
          case error => exact follows.error
      | some pads =>
          have stepped : ((debugMachine idcodeValue).run (inputs ++ [edges])).jtag =
              ((debugMachine idcodeValue).run inputs).jtag.step
                (((debugMachine idcodeValue).run inputs).tckInput pads) idcodeValue := by
            rw [Machine.run_snoc]
            simp [debugMachine, DebugLink.step, ticks]
          have next := follows.step (((debugMachine idcodeValue).run inputs).tckInput pads)
            idcodeValue (fun valid => (answer_last follows valid).1)
            (fun valid => (answer_last follows valid).2.2)
          have quiet : (((debugMachine idcodeValue).run inputs).jtag.step
                (((debugMachine idcodeValue).run inputs).tckInput pads) idcodeValue).state = .idle →
              served idcodeValue inputs ++ ((debugMachine idcodeValue).run inputs).serves edges =
                served idcodeValue inputs := by
            intro idle
            by_contra more
            have serves : ((debugMachine idcodeValue).run inputs).serves edges ≠ [] := by
              intro none
              rw [none, List.append_nil] at more
              exact more rfl
            obtain ⟨waits, notBack⟩ := serves_awaited follows serves
            rw [DmiJtag.waits] at waits
            rw [DmiJtag.step, DmiJtag.stateNext] at idle
            cases state : ((debugMachine idcodeValue).run inputs).jtag.state <;>
              simp [state, DebugLink.tckInput, notBack] at waits idle
          have kept := next.holds.of_busy quiet
          have word : ((debugMachine idcodeValue).run inputs).accepts edges =
              if ((debugMachine idcodeValue).run inputs).jtag.accepts then
                [((debugMachine idcodeValue).run inputs).jtag.dr] else [] := by
            simp [DebugLink.accepts, ticks]
          have request : accepted ((debugMachine idcodeValue).run inputs).cdcReq
              (((debugMachine idcodeValue).run inputs).reqEdges edges) =
              if ((debugMachine idcodeValue).run inputs).jtag.reqValid &&
                  (((debugMachine idcodeValue).run inputs).tckInput pads).reqReady then
                [((debugMachine idcodeValue).run inputs).jtag.req] else [] := by
            simp [accepted, DebugLink.reqEdges, DebugLink.tckInput, ticks]
          have answer : (transferred ((debugMachine idcodeValue).run inputs).cdcResp
              (((debugMachine idcodeValue).run inputs).respEdges edges)).length =
              (((debugMachine idcodeValue).run inputs).tckInput pads).respValid.toNat := by
            cases valid : ((debugMachine idcodeValue).run inputs).cdcResp.dst.valid <;>
              simp [transferred, DebugLink.respEdges, DebugLink.tckInput, ticks, valid]
          rw [stepped, word, request, answer]
          exact ⟨next.requested, next.outstanding, kept, next.error⟩

end Follows

/-- For every interleaving of the test clock and the clock of the debug module, whatever the host
does on its pads and the debug module answers, reads and writes are served as `DebugAnswers`
says. -/
theorem debug_answers (idcodeValue : BitVec 32) (inputs : List DebugEdges) :
    DebugAnswers idcodeValue inputs := by
  have follows := dtmFollows idcodeValue inputs
  obtain ⟨requests, answers⟩ := inFlight idcodeValue inputs
  have conserved := launched_eq idcodeValue inputs
  have outstanding := follows.outstanding
  constructor
  case inOrder =>
    rw [follows.requested, conserved, List.append_assoc]
    exact List.prefix_append ..
  case oneUnderWay =>
    rw [follows.requested, List.length_append]
    cases state : ((debugMachine idcodeValue).run inputs).jtag.state <;>
      simp [DmiJtag.waits, DmiJtag.reqValid, state] at outstanding ⊢ <;> omega
  case idleServed =>
    intro idle
    have noneWaits : ((debugMachine idcodeValue).run inputs).jtag.waits = false := by
      rw [DmiJtag.waits, idle]
    have noneSent : ((debugMachine idcodeValue).run inputs).jtag.reqValid = false := by
      rw [DmiJtag.reqValid, idle]
    rw [noneWaits, Bool.toNat_false] at outstanding
    have noneHeld : ((debugMachine idcodeValue).run inputs).cdcReq.held = [] :=
      List.eq_nil_of_length_eq_zero (by omega)
    rw [follows.requested, noneSent, conserved, noneHeld]
    simp
  case reports =>
    intro noError captures
    exact report_answers follows captures noError

end Runs

/-! ## Scans of the data register -/

/-- `dmi_jtag` on its own. -/
def jtagMachine (idcodeValue : BitVec 32) : Machine DmiJtag TckInput where
  init := .reset idcodeValue
  step jtag input := jtag.step input idcodeValue

/-- `dmi_jtag` runs on the test clock. -/
def debugJtag (idcodeValue : BitVec 32) :
    Component (debugMachine idcodeValue) (jtagMachine idcodeValue) where
  view := DebugLink.jtag
  feed link edges := edges.tck.map link.tckInput
  reset := rfl
  edge link edges := by
    cases ticks : edges.tck with
    | none => simp [debugMachine, DebugLink.step, ticks]
    | some pads => simp [debugMachine, DebugLink.step, jtagMachine, ticks]

/-- The bits of a register, the lowest one first. -/
def bitsOf {width : Nat} (word : BitVec width) : List Bool :=
  (List.range width).map word.getLsbD

theorem bitsOf_injective {width : Nat} {word other : BitVec width}
    (same : bitsOf word = bitsOf other) : word = other := by
  apply BitVec.eq_of_getLsbD_eq
  intro i inside
  exact List.map_inj_left.mp same i (List.mem_range.mpr inside)

/-- A bit that is shifted in comes behind the others. -/
theorem bitsOf_shiftDown {width : Nat} (bit : Bool) (word : BitVec (width + 1)) :
    bitsOf (shiftDown bit word) = (bitsOf word).tail ++ [bit] := by
  have rest : (bitsOf word).tail = (List.range width).map fun i => word.getLsbD (i + 1) := by
    rw [bitsOf, List.range_succ_eq_map, List.map_cons, List.tail_cons, List.map_map]
    rfl
  rw [rest, bitsOf, List.range_succ, List.map_append]
  congr 1
  · apply List.map_congr_left
    intro i member
    have inside := List.mem_range.mp member
    simp [shiftDown, BitVec.getLsbD_cons, Nat.ne_of_lt inside, inside, Nat.add_comm]
  · rw [List.map_singleton, shiftDown, BitVec.getLsbD_cons, if_pos rfl]

/-- What a host drives on `tms_i` and `td_i` to exchange a word, from Run-Test/Idle to
Update-DR. -/
def scanPads (word : BitVec 41) : List (Bool × Bool) :=
  [(true, false), (false, false), (false, false)] ++
    (List.range 40).map (fun i => (false, word.getLsbD i)) ++
    [(true, word.getLsbD 40), (true, false)]

/-- What it drives while the bits of the word are exchanged. -/
def exchangePads (word : BitVec 41) : List (Bool × Bool) :=
  (List.range 40).map (fun i => (false, word.getLsbD i)) ++ [(true, word.getLsbD 40)]

theorem scanPads_eq (word : BitVec 41) :
    scanPads word = (true, false) :: (false, false) :: (false, false) ::
      (exchangePads word ++ [(true, false)]) := by
  rw [scanPads, exchangePads, List.append_assoc, List.append_assoc]
  rfl

section Scan

variable {idcodeValue : BitVec 32} {jtag : DmiJtag}

/-- The data register is selected and is being shifted. -/
structure DmiJtag.Shifts (jtag : DmiJtag) : Prop where
  state : jtag.tap.state = .shiftDr
  access : jtag.tap.ir = dmiaccessIr

/-- One bit is exchanged. -/
theorem DmiJtag.Shifts.step (shifts : jtag.Shifts) (input : TckInput) (idcodeValue : BitVec 32) :
    (jtag.step input idcodeValue).tap.ir = dmiaccessIr ∧
      (jtag.step input idcodeValue).tap.state = TapState.shiftDr.next input.tms ∧
      bitsOf (jtag.step input idcodeValue).dr = (bitsOf jtag.dr).tail ++ [input.td] ∧
      some jtag.tdo = (bitsOf jtag.dr).head? := by
  have access : jtag.tap.dmiAccess = true := by
    rw [JtagTap.dmiAccess, shifts.access]
    rfl
  refine ⟨?_, ?_, ?_, ?_⟩
  · simp [DmiJtag.step, JtagTap.step, shifts.state, shifts.access]
  · simp [DmiJtag.step, JtagTap.step, shifts.state]
  · rw [← bitsOf_shiftDown]
    simp [DmiJtag.step, shifts.state, access]
  · have others : jtag.tap.idcodeSelect = false ∧ jtag.tap.dtmcsSelect = false := by
      rw [JtagTap.idcodeSelect, JtagTap.dtmcsSelect, shifts.access]
      decide
    rw [DmiJtag.tdo, JtagTap.tdo, bitsOf, List.range_succ_eq_map]
    simp [shifts.state, others, access]

/-- Some bits are exchanged. -/
theorem DmiJtag.Shifts.run (idcodeValue : BitVec 32) (sampled : List TckInput) :
    ∀ {jtag : DmiJtag}, jtag.Shifts → (∀ input ∈ sampled, input.tms = false) →
      sampled.length ≤ 41 →
      ((jtagMachine idcodeValue).runFrom jtag sampled).Shifts ∧
        bitsOf ((jtagMachine idcodeValue).runFrom jtag sampled).dr =
          (bitsOf jtag.dr).drop sampled.length ++ sampled.map TckInput.td ∧
        (jtagMachine idcodeValue).observedFrom (fun jtag _ => [jtag.tdo]) jtag sampled =
          (bitsOf jtag.dr).take sampled.length := by
  induction sampled with
  | nil =>
      intro jtag shifts _ _
      exact ⟨shifts, (List.append_nil _).symm, rfl⟩
  | cons input sampled inductionHypothesis =>
      intro jtag shifts stays short
      obtain ⟨access, state, bits, out⟩ := shifts.step input idcodeValue
      rw [stays input List.mem_cons_self] at state
      have next : (jtag.step input idcodeValue).Shifts := ⟨state, access⟩
      obtain ⟨shiftsLater, bitsLater, outLater⟩ := inductionHypothesis next
        (fun other member => stays other (List.mem_cons_of_mem _ member))
        (Nat.le_trans (Nat.le_succ _) short)
      have enough : sampled.length ≤ (bitsOf jtag.dr).tail.length := by
        rw [List.length_tail, bitsOf, List.length_map, List.length_range]
        exact Nat.le_of_succ_le_succ short
      have first : jtag.tdo :: (bitsOf jtag.dr).tail = bitsOf jtag.dr := by
        cases whole : bitsOf jtag.dr with
        | nil => simp [whole] at out
        | cons bit rest =>
            rw [whole, List.head?_cons, Option.some.injEq] at out
            rw [out, List.tail_cons]
      refine ⟨shiftsLater, ?_, ?_⟩
      · rw [bits, List.drop_append_of_le_length enough, List.drop_tail, List.append_assoc]
          at bitsLater
        exact bitsLater
      · rw [bits, List.take_append_of_le_length enough] at outLater
        rw [Machine.observedFrom, List.length_cons, ← first, List.take_succ_cons]
        exact congrArg (jtag.tdo :: ·) outLater

/-- Away from the states of the instruction register the instruction stays. -/
theorem DmiJtag.ir_step (input : TckInput) (idcodeValue : BitVec 32)
    (notReset : jtag.tap.state ≠ .testLogicReset) (notUpdate : jtag.tap.state ≠ .updateIr) :
    (jtag.step input idcodeValue).tap.ir = jtag.tap.ir := by
  cases state : jtag.tap.state with
  | testLogicReset => exact absurd state notReset
  | updateIr => exact absurd state notUpdate
  | _ => simp [DmiJtag.step, JtagTap.step, state]

theorem DmiJtag.dr_step (input : TckInput) (idcodeValue : BitVec 32)
    (exits : jtag.tap.state = .exit1Dr) : (jtag.step input idcodeValue).dr = jtag.dr := by
  simp [DmiJtag.step, exits]

/-- From Run-Test/Idle a host reaches Capture-DR. -/
theorem DmiJtag.reaches_captureDr (idcodeValue : BitVec 32) {select capture : TckInput}
    (rests : jtag.tap.state = .runTestIdle) (access : jtag.tap.ir = dmiaccessIr)
    (selects : select.tms = true) (captures : capture.tms = false) :
    ((jtag.step select idcodeValue).step capture idcodeValue).tap.state = .captureDr ∧
      ((jtag.step select idcodeValue).step capture idcodeValue).tap.ir = dmiaccessIr := by
  have selected : (jtag.step select idcodeValue).tap.state = .selectDrScan := by
    simp [DmiJtag.step, JtagTap.step, TapState.next, rests, selects]
  constructor
  · change (jtag.step select idcodeValue).tap.state.next capture.tms = _
    rw [selected, captures]
    rfl
  · rw [DmiJtag.ir_step capture idcodeValue (by rw [selected]; decide) (by rw [selected]; decide),
      DmiJtag.ir_step select idcodeValue (by rw [rests]; decide) (by rw [rests]; decide), access]

/-- The report of Capture-DR is what is shifted. -/
theorem DmiJtag.shifts_of_captureDr (idcodeValue : BitVec 32) {start : TckInput}
    (captured : jtag.tap.state = .captureDr) (access : jtag.tap.ir = dmiaccessIr)
    (starts : start.tms = false) :
    (jtag.step start idcodeValue).Shifts ∧ (jtag.step start idcodeValue).dr = jtag.report := by
  refine ⟨⟨?_, ?_⟩, ?_⟩
  · change jtag.tap.state.next start.tms = _
    rw [captured, starts]
    rfl
  · rw [DmiJtag.ir_step start idcodeValue (by rw [captured]; decide) (by rw [captured]; decide),
      access]
  · simp [DmiJtag.step, captured, JtagTap.dmiAccess, access]

/-- A word is exchanged for the one in the register, the last bit on the way out of Shift-DR. -/
theorem DmiJtag.Shifts.exchanges (shifts : jtag.Shifts) (idcodeValue : BitVec 32)
    {word : BitVec 41} {sampled : List TckInput}
    (driven : sampled.map (fun input => (input.tms, input.td)) = exchangePads word) :
    (jtagMachine idcodeValue).observedFrom (fun jtag _ => [jtag.tdo]) jtag sampled =
        bitsOf jtag.dr ∧
      ((jtagMachine idcodeValue).runFrom jtag sampled).tap.state = .exit1Dr ∧
      ((jtagMachine idcodeValue).runFrom jtag sampled).tap.ir = dmiaccessIr ∧
      ((jtagMachine idcodeValue).runFrom jtag sampled).dr = word := by
  obtain ⟨middle, last, rfl, shiftsIn, ends⟩ := List.map_eq_append_iff.mp driven
  obtain ⟨final, rfl, finals⟩ := List.map_eq_singleton_iff.mp ends
  obtain ⟨leaves, lastBit⟩ := Prod.mk.inj finals
  have stays : ∀ input ∈ middle, input.tms = false := by
    intro input member
    have driven : (input.tms, input.td) ∈
        (List.range 40).map fun i => (false, word.getLsbD i) :=
      shiftsIn ▸ List.mem_map_of_mem member
    obtain ⟨i, -, same⟩ := List.mem_map.mp driven
    exact (congrArg Prod.fst same).symm
  have bitsIn : middle.map TckInput.td = (List.range 40).map word.getLsbD := by
    have seconds := congrArg (List.map Prod.snd) shiftsIn
    rwa [List.map_map, List.map_map] at seconds
  have forty : middle.length = 40 := by
    have lengths := congrArg List.length shiftsIn
    rwa [List.length_map, List.length_map, List.length_range] at lengths
  obtain ⟨shiftsLater, bitsLater, outs⟩ :=
    shifts.run idcodeValue middle stays (Nat.le_trans (Nat.le_of_eq forty) (by decide))
  obtain ⟨access, state, bits, out⟩ := shiftsLater.step final idcodeValue
  have one : ((bitsOf jtag.dr).drop middle.length).length = 1 := by
    rw [List.length_drop, bitsOf, List.length_map, List.length_range, forty]
  obtain ⟨top, isTop⟩ := List.length_eq_one_iff.mp one
  rw [bitsLater, isTop, bitsIn] at bits out
  have lastIs : ((jtagMachine idcodeValue).runFrom jtag middle).tdo = top := Option.some.inj out
  rw [Machine.runFrom_append, Machine.observedFrom_append]
  refine ⟨?_, ?_, access, ?_⟩
  · rw [outs]
    change _ ++ [((jtagMachine idcodeValue).runFrom jtag middle).tdo] = _
    rw [lastIs, ← isTop, List.take_append_drop]
  · exact state.trans (congrArg TapState.shiftDr.next leaves)
  · apply bitsOf_injective
    refine bits.trans ?_
    rw [lastBit, bitsOf, List.range_succ, List.map_append]
    rfl

/-- A host that drives a scan reads the report, and its word is in the register at the end. -/
theorem scan_run (idcodeValue : BitVec 32) {word : BitVec 41} {sampled : List TckInput}
    (pads : sampled.map (fun input => (input.tms, input.td)) = scanPads word)
    (rests : jtag.tap.state = .runTestIdle) (access : jtag.tap.ir = dmiaccessIr) :
    ((jtagMachine idcodeValue).runFrom jtag (sampled.take 2)).tap.state = .captureDr ∧
      (((jtagMachine idcodeValue).observedFrom (fun jtag _ => [jtag.tdo]) jtag sampled).drop
          3).take 41 =
        bitsOf ((jtagMachine idcodeValue).runFrom jtag (sampled.take 2)).report ∧
      ((jtagMachine idcodeValue).runFrom jtag sampled).tap.state = .updateDr ∧
      ((jtagMachine idcodeValue).runFrom jtag sampled).tap.ir = dmiaccessIr ∧
      ((jtagMachine idcodeValue).runFrom jtag sampled).dr = word := by
  rw [scanPads_eq] at pads
  obtain ⟨select, rest, rfl, selects, pads⟩ := List.map_eq_cons_iff.mp pads
  obtain ⟨capture, rest, rfl, captures, pads⟩ := List.map_eq_cons_iff.mp pads
  obtain ⟨start, rest, rfl, starts, pads⟩ := List.map_eq_cons_iff.mp pads
  obtain ⟨exchanging, closing, rfl, driven, closes⟩ := List.map_eq_append_iff.mp pads
  obtain ⟨leave, rfl, leaves⟩ := List.map_eq_singleton_iff.mp closes
  obtain ⟨captured, capturedIr⟩ := DmiJtag.reaches_captureDr idcodeValue rests access
    (congrArg Prod.fst selects) (congrArg Prod.fst captures)
  obtain ⟨shifts, loaded⟩ := DmiJtag.shifts_of_captureDr idcodeValue captured capturedIr
    (congrArg Prod.fst starts)
  obtain ⟨outs, exits, stays, holds⟩ := shifts.exchanges idcodeValue driven
  rw [loaded] at outs
  have runs : (jtagMachine idcodeValue).runFrom jtag
      (select :: capture :: start :: (exchanging ++ [leave])) =
        ((jtagMachine idcodeValue).runFrom (((jtag.step select idcodeValue).step capture
          idcodeValue).step start idcodeValue) exchanging).step leave idcodeValue :=
    Machine.runFrom_append ..
  refine ⟨captured, ?_, ?_, ?_, ?_⟩
  · have observes : ((jtagMachine idcodeValue).observedFrom (fun jtag _ => [jtag.tdo]) jtag
        (select :: capture :: start :: (exchanging ++ [leave]))).drop 3 =
          (jtagMachine idcodeValue).observedFrom (fun jtag _ => [jtag.tdo])
            (((jtag.step select idcodeValue).step capture idcodeValue).step start idcodeValue)
            (exchanging ++ [leave]) :=
      rfl
    rw [observes, Machine.observedFrom_append, outs]
    apply List.take_left'
    rw [bitsOf, List.length_map, List.length_range]
  · have ends : leave.tms = true := congrArg Prod.fst leaves
    rw [runs]
    change ((jtagMachine idcodeValue).runFrom _ exchanging).tap.state.next leave.tms = _
    rw [exits, ends]
    rfl
  · rw [runs, DmiJtag.ir_step leave idcodeValue (by rw [exits]; decide) (by rw [exits]; decide),
      stays]
  · rw [runs, DmiJtag.dr_step leave idcodeValue exits, holds]

/-- What the host reads on `td_o` while it shifts. -/
def scanOut (idcodeValue : BitVec 32) (inputs later : List DebugEdges) : List Bool :=
  (((debugMachine idcodeValue).observedFrom
    (fun link edges => if edges.tck.isSome then [link.jtag.tdo] else [])
    ((debugMachine idcodeValue).run inputs) later).drop 3).take 41

/-- A host that drives a scan reads the report of a moment of it, which is an error or answers the
last word of the host; at its end the new word is taken if the module is idle and has no error. -/
structure DebugScan (idcodeValue : BitVec 32) (inputs later : List DebugEdges)
    (word : BitVec 41) : Prop where
  reads : ∃ before, before <+: later ∧
    ((debugMachine idcodeValue).run (inputs ++ before)).jtag.captureDr = true ∧
    scanOut idcodeValue inputs later =
      bitsOf ((debugMachine idcodeValue).run (inputs ++ before)).jtag.report ∧
    (dmiOp ((debugMachine idcodeValue).run (inputs ++ before)).jtag.report = dmiNoError →
      ∀ dr ∈ (hostWords idcodeValue (inputs ++ before)).getLast?,
        scanOut idcodeValue inputs later =
          bitsOf (answerTo (served idcodeValue (inputs ++ before)) dr))
  taken : ((debugMachine idcodeValue).run (inputs ++ later)).jtag.state = .idle →
    ((debugMachine idcodeValue).run (inputs ++ later)).jtag.error = dmiNoError →
    ∀ edges : DebugEdges, edges.tck.isSome →
      hostWords idcodeValue (inputs ++ later ++ [edges]) =
        hostWords idcodeValue (inputs ++ later) ++ [word]

theorem pads_samples (idcodeValue : BitVec 32) (later : List DebugEdges) :
    ∀ link, ((debugMachine idcodeValue).observedFrom (debugJtag idcodeValue).samples link
      later).map (fun input => (input.tms, input.td)) = later.filterMap DebugEdges.tck := by
  induction later with
  | nil => exact fun _ => rfl
  | cons edges later inductionHypothesis =>
      intro link
      rw [Machine.observedFrom, List.map_append, inductionHypothesis, List.filterMap_cons]
      cases ticks : edges.tck with
      | none => simp [Component.samples, debugJtag, ticks]
      | some pads => simp [Component.samples, debugJtag, DebugLink.tckInput, ticks]

/-- For every interleaving of the clocks, a scan from Run-Test/Idle exchanges a word of the host
for a report. -/
theorem debug_scan (idcodeValue : BitVec 32) (inputs later : List DebugEdges) (word : BitVec 41)
    (rests : ((debugMachine idcodeValue).run inputs).jtag.tap.state = .runTestIdle)
    (access : ((debugMachine idcodeValue).run inputs).jtag.tap.ir = dmiaccessIr)
    (pads : later.filterMap DebugEdges.tck = scanPads word) :
    DebugScan idcodeValue inputs later word := by
  obtain ⟨captures, reads, state, selects, holds⟩ := scan_run idcodeValue
    ((pads_samples idcodeValue later ((debugMachine idcodeValue).run inputs)).trans pads) rests
    access
  obtain ⟨before, isPrefix, two⟩ := (debugJtag idcodeValue).exists_isPrefix
    ((debugMachine idcodeValue).run inputs) later 2
  have captured : ((debugMachine idcodeValue).run (inputs ++ before)).jtag =
      (jtagMachine idcodeValue).runFrom ((debugMachine idcodeValue).run inputs).jtag
        (((debugMachine idcodeValue).observedFrom (debugJtag idcodeValue).samples
          ((debugMachine idcodeValue).run inputs) later).take 2) := by
    rw [Machine.run_append, ← two]
    exact (debugJtag idcodeValue).view_runFrom _ before
  have finished : ((debugMachine idcodeValue).run (inputs ++ later)).jtag =
      (jtagMachine idcodeValue).runFrom ((debugMachine idcodeValue).run inputs).jtag
        ((debugMachine idcodeValue).observedFrom (debugJtag idcodeValue).samples
          ((debugMachine idcodeValue).run inputs) later) := by
    rw [Machine.run_append]
    exact (debugJtag idcodeValue).view_runFrom _ later
  have out : (debugMachine idcodeValue).observedFrom
      (fun link edges => if edges.tck.isSome then [link.jtag.tdo] else [])
      ((debugMachine idcodeValue).run inputs) later =
        (jtagMachine idcodeValue).observedFrom (fun jtag _ => [jtag.tdo])
          ((debugMachine idcodeValue).run inputs).jtag
          ((debugMachine idcodeValue).observedFrom (debugJtag idcodeValue).samples
            ((debugMachine idcodeValue).run inputs) later) := by
    refine Eq.trans ?_ ((debugJtag idcodeValue).observedFrom_watches _ _ later)
    congr 1
    funext link edges
    cases ticks : edges.tck with
    | none => simp [Component.watches, Component.samples, debugJtag, ticks]
    | some pads => simp [Component.watches, Component.samples, debugJtag, ticks]
  rw [← captured] at captures reads
  rw [← finished] at state selects holds
  constructor
  case reads =>
    have capturesDr : ((debugMachine idcodeValue).run (inputs ++ before)).jtag.captureDr =
        true := by
      rw [DmiJtag.captureDr, captures]
      rfl
    have report : scanOut idcodeValue inputs later =
        bitsOf ((debugMachine idcodeValue).run (inputs ++ before)).jtag.report := by
      rw [scanOut, out, reads]
    refine ⟨before, isPrefix, capturesDr, report, ?_⟩
    intro noError dr isLast
    rw [report, report_answers (dtmFollows idcodeValue (inputs ++ before)) capturesDr noError dr
      isLast]
  case taken =>
    intro idle noError edges ticks
    have accepts : ((debugMachine idcodeValue).run (inputs ++ later)).jtag.accepts = true := by
      rw [DmiJtag.accepts, DmiJtag.updateDr, JtagTap.dmiAccess, idle, state, selects, noError]
      decide
    rw [hostWords, Machine.observed_snoc, ← hostWords, DebugLink.accepts, ticks, accepts, holds]
    rfl

/-- The pads of a host, with an edge of the other clock at each of the test clock and one
between. -/
def interleaved (pads : List (Bool × Bool)) : List DebugEdges :=
  pads.flatMap fun pad => [{ tck := some pad, clk := some 5 }, { tck := none, clk := some 6 }]

/-- From reset, a host selects the data register. -/
def selectPads : List (Bool × Bool) :=
  [(true, false), (true, false), (false, false), (false, false)] ++
    [(false, true), (false, false), (false, false), (false, false), (true, true)] ++
    [(true, false), (false, false)]

theorem writeRun_scan :
    DebugScan 1 (interleaved selectPads) (interleaved (scanPads (dmiWord 0x10 1 dtmWrite)))
      (dmiWord 0x10 1 dtmWrite) :=
  debug_scan 1 (interleaved selectPads) (interleaved (scanPads (dmiWord 0x10 1 dtmWrite)))
    (dmiWord 0x10 1 dtmWrite) (by decide) (by decide) (by decide)

end Scan

end CoreVMcu.Debug
