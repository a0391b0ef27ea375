import CoreVMcu.Efpga.TcdmInterface

/-!
# What the TCDM bridge guarantees

Both FIFOs refine abstract ones.  The request FIFO is never pushed while full.
The response FIFO is full exactly when four of the words pushed were not yet
popped three edges of the SoC clock earlier, which a counter at its ports can
tell.
-/

namespace CoreVMcu.Efpga

open Clocked

variable {system : TcdmSystem} {input : TcdmInput}

theorem acceptedRequests_eq :
    system.acceptedRequests input = system.bridge.reqFifo.accepted (system.reqEdges input) := by
  unfold TcdmSystem.acceptedRequests A2Fifo.accepted TcdmSystem.reqEdges TcdmInterface.efpgaGnt
    TcdmInterface.reqFull
  cases input.efpga with
  | none => rfl
  | some request =>
      cases full : system.bridge.reqFifo.push.full <;> cases request <;> simp

theorem issuedRequests_eq :
    system.issuedRequests input = system.bridge.reqFifo.delivered (system.reqEdges input) := by
  unfold TcdmSystem.issuedRequests A2Fifo.delivered TcdmSystem.reqEdges
  cases input.soc with
  | none => rfl
  | some sample =>
      have advances : system.bridge.reqFifo.pop.advances (system.socGnt sample) =
          system.socGnt sample := by
        simp [A2PopSide.advances, TcdmSystem.socGnt, TcdmInterface.socReq]
      simp only [Option.map_some, advances]
      rfl

theorem returnedData_eq (neverFull : RespNeverFull system input) :
    system.returnedData input = system.bridge.respFifo.accepted (system.respEdges input) := by
  unfold TcdmSystem.returnedData A2Fifo.accepted
  cases soc : input.soc with
  | none => simp [TcdmSystem.respEdges, soc]
  | some sample =>
      cases valid : system.socValid with
      | false => simp [TcdmSystem.respEdges, soc, valid]
      | true =>
          have push : (system.respEdges input).push = some (some sample.socRdata) := by
            simp [TcdmSystem.respEdges, soc, valid]
          have notFull := neverFull _ push rfl
          simp [push, notFull]

theorem answeredData_eq :
    system.answeredData input = system.bridge.respFifo.delivered (system.respEdges input) := by
  unfold TcdmSystem.answeredData A2Fifo.delivered TcdmSystem.respEdges
  cases input.efpga with
  | none => rfl
  | some request =>
      cases empty : system.bridge.respFifo.pop.empty <;>
        simp [A2PopSide.advances, TcdmInterface.efpgaValid, empty, TcdmInterface.efpgaRdata]

/-- The request FIFO is guarded by its full flag. -/
theorem reqFifo_neverFull : NoPushWhileFull system.bridge.reqFifo (system.reqEdges input) := by
  intro request push isPush
  unfold TcdmSystem.reqEdges at push
  cases efpga : input.efpga with
  | none => simp [efpga] at push
  | some asked =>
      cases full : system.bridge.reqFifo.push.full with
      | false => rfl
      | true =>
          simp only [efpga, TcdmInterface.reqFull, full, if_true, Option.map_some,
            Option.some.injEq] at push
          simp [← push] at isPush

/-! ## The invariant -/

/-- The FIFOs encode abstract ones, and the counters at the ports are theirs. -/
structure TcdmTracks (system : TcdmSystem) (accepted issued : List (BitVec 57))
    (returned answered : List (BitVec 32)) (req : AsyncFifo (BitVec 57))
    (resp : AsyncFifo (BitVec 32)) : Prop where
  requests : Carries system.bridge.reqFifo req accepted issued
  responses : Carries system.bridge.respFifo resp returned answered
  oneResponse : returned.length + system.socValid.toNat = issued.length
  returnedCount : system.returned = returned.length
  takenCount : system.taken = answered.length
  takenOnce : system.takenOnce = resp.push.first
  takenTwice : system.takenTwice = resp.push.second
  takenThrice : system.takenThrice = resp.push.seen

variable {accepted issued : List (BitVec 57)} {returned answered : List (BitVec 32)}
  {req : AsyncFifo (BitVec 57)} {resp : AsyncFifo (BitVec 32)}

/-- The response FIFO has room exactly when the SoC responds in time. -/
theorem TcdmTracks.neverFull_iff (tracks : TcdmTracks system accepted issued returned answered
    req resp) : RespNeverFull system input ↔ RespondsInTime system input := by
  have bounded := tracks.responses.represents.ordered.bounded
  have count : system.returned = resp.push.words.length := by
    rw [tracks.returnedCount, tracks.responses.pushed]
  have full : system.bridge.respFifo.push.full = false ↔
      system.returned < system.takenThrice + 4 := by
    rw [tracks.responses.represents.push.full, PushSide.full, decide_eq_false_iff_not, count,
      tracks.takenThrice]
    omega
  unfold RespNeverFull NoPushWhileFull PushesRoom RespondsInTime TcdmSystem.respEdges
  rw [full]
  cases input.soc with
  | none => simp
  | some sample => cases system.socValid <;> simp

/-- One instant in which the SoC responds in time. -/
theorem TcdmTracks.step (tracks : TcdmTracks system accepted issued returned answered req resp)
    (neverFull : RespNeverFull system input) :
    TcdmTracks (system.step input) (accepted ++ system.acceptedRequests input)
      (issued ++ system.issuedRequests input) (returned ++ system.returnedData input)
      (answered ++ system.answeredData input) (req.step 4 (system.reqEdges input))
      (resp.step 4 (system.respEdges input)) where
  requests := by
    rw [acceptedRequests_eq, issuedRequests_eq]
    exact tracks.requests.step reqFifo_neverFull
  responses := by
    rw [returnedData_eq neverFull, answeredData_eq]
    exact tracks.responses.step neverFull
  oneResponse := by
    have balance := tracks.oneResponse
    simp only [List.length_append, TcdmSystem.step, TcdmSystem.returnedData,
      TcdmSystem.issuedRequests]
    cases input.soc with
    | none => simpa using balance
    | some sample =>
        cases valid : system.socValid <;> cases granted : system.socGnt sample <;>
          simp [valid, granted] at balance ⊢ <;> omega
  returnedCount := by simp [TcdmSystem.step, tracks.returnedCount]
  takenCount := by simp [TcdmSystem.step, tracks.takenCount]
  takenOnce := by
    have count := tracks.responses.length_popped
    simp only [TcdmSystem.step, AsyncFifo.step, TcdmSystem.respEdges]
    cases input.soc with
    | none => exact tracks.takenOnce
    | some sample => simp [PushSide.edge, tracks.takenCount, count]
  takenTwice := by
    simp only [TcdmSystem.step, AsyncFifo.step, TcdmSystem.respEdges]
    cases input.soc with
    | none => exact tracks.takenTwice
    | some sample => simp [PushSide.edge, tracks.takenOnce]
  takenThrice := by
    simp only [TcdmSystem.step, AsyncFifo.step, TcdmSystem.respEdges]
    cases input.soc with
    | none => exact tracks.takenThrice
    | some sample => simp [PushSide.edge, tracks.takenTwice]

variable {reqRam : UnresetRam 57 2} {respRam : UnresetRam 32 2}

/-- The invariant with the words of a run. -/
def TracksRun (reqRam : UnresetRam 57 2) (respRam : UnresetRam 32 2) (inputs : List TcdmInput)
    (req : AsyncFifo (BitVec 57)) (resp : AsyncFifo (BitVec 32)) : Prop :=
  TcdmTracks ((tcdmMachine reqRam respRam).run inputs)
    ((tcdmMachine reqRam respRam).observed TcdmSystem.acceptedRequests inputs)
    ((tcdmMachine reqRam respRam).observed TcdmSystem.issuedRequests inputs)
    ((tcdmMachine reqRam respRam).observed TcdmSystem.returnedData inputs)
    ((tcdmMachine reqRam respRam).observed TcdmSystem.answeredData inputs) req resp

theorem TracksRun.snoc {inputs : List TcdmInput} {req : AsyncFifo (BitVec 57)}
    {resp : AsyncFifo (BitVec 32)} (tracks : TracksRun reqRam respRam inputs req resp)
    (neverFull : RespNeverFull ((tcdmMachine reqRam respRam).run inputs) input) :
    TracksRun reqRam respRam (inputs ++ [input])
      (req.step 4 (((tcdmMachine reqRam respRam).run inputs).reqEdges input))
      (resp.step 4 (((tcdmMachine reqRam respRam).run inputs).respEdges input)) := by
  unfold TracksRun
  simp only [Machine.run_snoc, Machine.observed_snoc]
  exact TcdmTracks.step tracks neverFull

theorem tracksRun (inputs : List TcdmInput)
    (neverFull : (tcdmMachine reqRam respRam).Always RespNeverFull inputs) :
    ∃ req resp, TracksRun reqRam respRam inputs req resp := by
  refine Machine.run_induction
    (motive := fun inputs _ => ∃ req resp, TracksRun reqRam respRam inputs req resp)
    ?_ ?_ inputs neverFull
  · refine ⟨.reset, .reset, ?_⟩
    exact
      { requests := carries_flushed reqRam
        responses := carries_flushed respRam
        oneResponse := rfl
        returnedCount := rfl
        takenCount := rfl
        takenOnce := rfl
        takenTwice := rfl
        takenThrice := rfl }
  · rintro inputs input - ⟨req, resp, tracks⟩ neverFull
    exact ⟨_, _, tracks.snoc neverFull⟩

theorem neverFull_iff_respondsInTime (inputs : List TcdmInput) :
    (tcdmMachine reqRam respRam).Always RespondsInTime inputs ↔
      (tcdmMachine reqRam respRam).Always RespNeverFull inputs :=
  Machine.always_congr_of_invariant
    (motive := fun inputs _ => ∃ req resp, TracksRun reqRam respRam inputs req resp)
    tracksRun (fun _ _ ⟨_, _, tracks⟩ => (TcdmTracks.neverFull_iff tracks).symm) inputs

/-- Progress over draining instants with `socs` edges of the SoC clock and
`efpgas` edges of the eFPGA clock: the requests drain at the first, and once none
is left and no response is due, the responses drain at the others. -/
structure Progress (req later : AsyncFifo (BitVec 57)) (resp laterResp : AsyncFifo (BitVec 32))
    (due laterDue : Bool) (socs efpgas : Nat) : Prop where
  words : later.push.words = req.push.words
  reqRank : later.rank ≤ req.rank - socs
  idle : req.rank = 0 → due = false ∨ 1 ≤ socs → laterDue = false
  respRank : req.rank = 0 → due = false → laterResp.rank ≤ resp.rank - efpgas

/-- One draining instant. -/
theorem TcdmTracks.progress
    (tracks : TcdmTracks system accepted issued returned answered req resp)
    (drains : input.Drains) :
    Progress req (req.step 4 (system.reqEdges input)) resp
      (resp.step 4 (system.respEdges input)) system.socValid (system.step input).socValid
      input.soc.isSome.toNat input.efpga.isSome.toNat := by
  obtain ⟨quiet, granting⟩ := drains
  have ordered := tracks.requests.represents.ordered
  have respOrdered := tracks.responses.represents.ordered
  have noRequest : req.accepted 4 (system.reqEdges input) = [] := by
    rw [← tracks.requests.represents.accepted_eq_four, ← acceptedRequests_eq]
    unfold TcdmSystem.acceptedRequests
    split
    next request asks => exact absurd asks (quiet request)
    next => rfl
  have reqEmpty := tracks.requests.represents.pop.empty
  have reqAsked : req.asked (system.reqEdges input) = input.soc.isSome := by
    cases soc : input.soc with
    | none => simp [AsyncFifo.asked, TcdmSystem.reqEdges, soc]
    | some sample =>
        simp [AsyncFifo.asked, TcdmSystem.reqEdges, TcdmSystem.socGnt, TcdmInterface.socReq, soc,
          granting sample soc, reqEmpty]
  have reqCloser := AsyncFifo.rank_step ordered noRequest
  rw [reqAsked] at reqCloser
  refine ⟨?_, reqCloser, ?_, ?_⟩
  · rw [AsyncFifo.words_step, noRequest, List.append_nil]
  · intro drained settled
    have empty : system.bridge.reqFifo.pop.empty = true := by
      rw [reqEmpty]
      exact AsyncFifo.empty_of_rank drained ordered
    cases soc : input.soc with
    | none => simpa [TcdmSystem.step, soc] using settled
    | some sample =>
        simp [TcdmSystem.step, soc, TcdmSystem.socGnt, TcdmInterface.socReq, empty]
  · intro drained settled
    have noResponse : resp.accepted 4 (system.respEdges input) = [] := by
      unfold AsyncFifo.accepted TcdmSystem.respEdges PushSide.accepts
      cases input.soc <;> simp [settled]
    have respEmpty := tracks.responses.represents.pop.empty
    have respAsked : resp.asked (system.respEdges input) = input.efpga.isSome := by
      cases efpga : input.efpga <;>
        simp [AsyncFifo.asked, TcdmSystem.respEdges, TcdmInterface.efpgaValid, efpga, respEmpty]
    have respCloser := AsyncFifo.rank_step respOrdered noResponse
    rwa [respAsked] at respCloser

theorem Progress.trans {req later last : AsyncFifo (BitVec 57)}
    {resp laterResp lastResp : AsyncFifo (BitVec 32)} {due laterDue lastDue : Bool}
    {socs efpgas moreSocs moreEfpgas : Nat}
    (first : Progress req later resp laterResp due laterDue socs efpgas)
    (second : Progress later last laterResp lastResp laterDue lastDue moreSocs moreEfpgas) :
    Progress req last resp lastResp due lastDue (socs + moreSocs) (efpgas + moreEfpgas) where
  words := second.words.trans first.words
  reqRank := by
    have one := first.reqRank
    have two := second.reqRank
    omega
  idle drained settled := by
    have rank := first.reqRank
    refine second.idle (by omega) ?_
    rcases settled with settled | ticks
    · exact .inl (first.idle drained (.inl settled))
    · rcases Nat.eq_zero_or_pos socs with none | some
      · exact .inr (by omega)
      · exact .inl (first.idle drained (.inr some))
  respRank drained settled := by
    have rank := first.reqRank
    have one := first.respRank drained settled
    have two := second.respRank (by omega) (first.idle drained (.inl settled))
    omega

theorem TracksRun.drain {inputs : List TcdmInput} {req : AsyncFifo (BitVec 57)}
    {resp : AsyncFifo (BitVec 32)} (tracks : TracksRun reqRam respRam inputs req resp)
    (later : List TcdmInput) (drains : ∀ input ∈ later, input.Drains)
    (neverFull : (tcdmMachine reqRam respRam).Always RespNeverFull (inputs ++ later)) :
    ∃ laterReq laterResp, TracksRun reqRam respRam (inputs ++ later) laterReq laterResp ∧
      Progress req laterReq resp laterResp ((tcdmMachine reqRam respRam).run inputs).socValid
        ((tcdmMachine reqRam respRam).run (inputs ++ later)).socValid
        (later.countP (·.soc.isSome)) (later.countP (·.efpga.isSome)) := by
  induction later using List.reverseRecOn with
  | nil =>
      rw [List.append_nil]
      exact ⟨req, resp, tracks, rfl, Nat.le_refl _, fun _ settled => by simpa using settled,
        fun _ _ => Nat.le_refl _⟩
  | append_singleton later input inductionHypothesis =>
      rw [← List.append_assoc, Machine.always_snoc] at neverFull
      obtain ⟨laterReq, laterResp, tracks, progress⟩ := inductionHypothesis
        (fun other member => drains other (List.mem_append_left _ member)) neverFull.1
      have closer := TcdmTracks.progress tracks (drains input (by simp))
      have socs : [input].countP (·.soc.isSome) = input.soc.isSome.toNat := by
        cases soc : input.soc <;> simp [soc]
      have efpgas : [input].countP (·.efpga.isSome) = input.efpga.isSome.toNat := by
        cases efpga : input.efpga <;> simp [efpga]
      rw [← List.append_assoc, List.countP_append, List.countP_append, socs, efpgas,
        Machine.run_snoc]
      exact ⟨_, _, tracks.snoc neverFull.2, progress.trans closer⟩

/-! ## The bridge -/

/-- For every interleaving of the clocks, every grant delay and every request
pattern of the eFPGA: the bridge is correct along exactly the runs in which the
responses are returned in time. -/
theorem tcdmBridge_correct_iff (reqRam : UnresetRam 57 2) (respRam : UnresetRam 32 2)
    (inputs : List TcdmInput) :
    TcdmBridgeCorrect reqRam respRam inputs ↔
      (tcdmMachine reqRam respRam).Always RespondsInTime inputs := by
  rw [neverFull_iff_respondsInTime]
  constructor
  · intro correct
    exact correct.neverFull
  · intro neverFull
    obtain ⟨req, resp, tracks⟩ := tracksRun inputs neverFull
    constructor
    case issuedInOrder => exact tracks.requests.inOrder
    case oneResponse => exact tracks.oneResponse
    case answeredInOrder => exact tracks.responses.inOrder
    case neverFull => exact neverFull
    case completed =>
      rintro later ⟨drains, issuing, returning, answering, rfl, issues, returns, answers⟩ inTime
      have room := (neverFull_iff_respondsInTime _).mp inTime
      simp only [List.forall_mem_append] at drains
      rw [← List.append_assoc, ← List.append_assoc] at room ⊢
      obtain ⟨issued, respIssued, tracksIssued, first⟩ :=
        tracks.drain issuing drains.1.1 room.of_append.of_append
      obtain ⟨returned, respReturned, tracksReturned, second⟩ :=
        tracksIssued.drain returning drains.1.2 room.of_append
      obtain ⟨last, respLast, tracksLast, third⟩ := tracksReturned.drain answering drains.2 room
      have reqBound := tracks.requests.represents.ordered.rank_le
      have respBound := tracksReturned.responses.represents.ordered.rank_le
      have reqFirst := first.reqRank
      have reqSecond := second.reqRank
      have reqThird := third.reqRank
      have settled := second.idle (by omega) (.inr returns)
      have settledLast := third.idle (by omega) (.inl settled)
      have respRank := third.respRank (by omega) settled
      have allIssued : _ = (tcdmMachine reqRam respRam).observed TcdmSystem.acceptedRequests _ :=
        tracksLast.requests.drained (by omega)
      have allAnswered := tracksLast.responses.drained (by omega)
      have words : (tcdmMachine reqRam respRam).observed TcdmSystem.acceptedRequests
          (inputs ++ issuing ++ returning ++ answering) =
          (tcdmMachine reqRam respRam).observed TcdmSystem.acceptedRequests inputs := by
        rw [tracksLast.requests.pushed, third.words, second.words, first.words,
          tracks.requests.pushed]
      have balance := tracksLast.oneResponse
      rw [settledLast, allIssued, words] at balance
      rw [allIssued, allAnswered, words]
      exact ⟨rfl, balance⟩

/-- An edge of the eFPGA clock with a request, one without, and one of the SoC
clock. -/
def requestEdge (request : BitVec 57) : TcdmInput := ⟨some (some request), none⟩

def efpgaEdge : TcdmInput := ⟨some none, none⟩

def socEdge (grant : Bool) (socRdata : BitVec 32) : TcdmInput := ⟨none, some ⟨grant, socRdata⟩⟩

/-- The first request is granted before the second edge of the eFPGA clock and
answered after it, which lets the eFPGA have five requests outstanding.  The SoC
then grants the other four within one period of the eFPGA clock. -/
def burstOfGrants : List TcdmInput :=
  [requestEdge 1#57, socEdge false 0#32, socEdge false 0#32, socEdge false 0#32,
   socEdge true 0#32, requestEdge 2#57, socEdge false 0x11#32, requestEdge 3#57,
   requestEdge 4#57, requestEdge 5#57, socEdge false 0#32, socEdge false 0#32,
   socEdge false 0#32, socEdge true 0#32, socEdge true 0x22#32, socEdge true 0x33#32,
   socEdge true 0x44#32, socEdge false 0x55#32, efpgaEdge, efpgaEdge, efpgaEdge, efpgaEdge,
   efpgaEdge, efpgaEdge, efpgaEdge, efpgaEdge, efpgaEdge]

/-- The fifth response is lost: the eFPGA receives the first one again. -/
theorem burstOfGrants_not_correct :
    ¬TcdmBridgeCorrect ⟨fun _ => 0#57, 0#2⟩ ⟨fun _ => 0#32, 0#2⟩ burstOfGrants :=
  fun correct => absurd correct.answeredInOrder (by decide +kernel)

end CoreVMcu.Efpga
