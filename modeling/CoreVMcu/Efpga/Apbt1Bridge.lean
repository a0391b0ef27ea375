import CoreVMcu.Efpga.Apbt1Interface

/-!
# What the register bridge guarantees

At most one request is in flight.  A side that samples both pointers of the other
clock domain at the same edges sees them equally old, so the bound on the requests
in flight is also a bound on what it sees: neither FIFO is ever pushed while full.
The response becomes visible to the SoC no earlier than the shift register allows
the grant.
-/

namespace CoreVMcu.Efpga

open Clocked

variable {system : ApbSystem} {input : ApbInput}

theorem presentedRequests_eq :
    system.presentedRequests input =
      system.bridge.reqFifo.delivered (system.reqEdges input) := by
  unfold ApbSystem.presentedRequests A2Fifo.delivered ApbSystem.reqEdges
  cases input.efpga with
  | none => rfl
  | some sample =>
      have advances : system.bridge.reqFifo.pop.advances (system.efpgaGnt sample) =
          system.efpgaGnt sample := by
        simp [A2PopSide.advances, ApbSystem.efpgaGnt, Apbt1Interface.efpgaReq]
      simp only [Option.map_some, advances]
      rfl

theorem efpgaResponses_eq
    (neverFull : NoPushWhileFull system.bridge.respFifo (system.respEdges input)) :
    system.efpgaResponses input =
      system.bridge.respFifo.accepted (system.respEdges input) := by
  unfold ApbSystem.efpgaResponses A2Fifo.accepted
  cases efpga : input.efpga with
  | none => simp [ApbSystem.respEdges, efpga]
  | some sample =>
      have push : (system.respEdges input).push = some (system.efpgaResponse sample) := by
        simp [ApbSystem.respEdges, efpga]
      cases response : system.efpgaResponse sample with
      | none => simp [push, response]
      | some answer =>
          have notFull := neverFull _ push (by simp [response])
          simp [push, response, notFull]

/-- The eFPGA answers no more than it owes. -/
theorem length_efpgaResponses (system : ApbSystem) (input : ApbInput) :
    (system.efpgaResponses input).length ≤ system.owed := by
  unfold ApbSystem.efpgaResponses ApbSystem.efpgaResponse
  cases input.efpga with
  | none => simp
  | some sample =>
      by_cases owing : 0 < system.owed
      · simp only [owing, if_true]
        cases sample.answer with
        | none => exact Nat.zero_le _
        | some answer => exact owing
      · simp [owing]

theorem reqFifo_guarded : NoPushWhileFull system.bridge.reqFifo (system.reqEdges input) := by
  intro request push isPush
  unfold ApbSystem.reqEdges at push
  cases soc : input.soc with
  | none => simp [soc] at push
  | some sample =>
      cases full : system.bridge.reqFifo.push.full with
      | false => rfl
      | true =>
          simp only [soc, full, Bool.not_true, Bool.and_false, Bool.false_eq_true, if_false,
            Option.map_some, Option.some.injEq] at push
          simp [← push] at isPush

/-- Each side sees the two FIFOs as they were at one instant: the SoC sees no more
responses than accepted requests, and the eFPGA no more than one request beyond
the responses that were read. -/
structure EquallyOld (req : AsyncFifo (BitVec 57)) (resp : AsyncFifo (BitVec 32)) : Prop where
  answered : resp.push.words.length ≤ req.pop.count
  inFlight : req.push.words.length ≤ resp.pop.count + 1
  socFirst : resp.pop.first ≤ req.push.first
  socSecond : resp.pop.second ≤ req.push.second
  socSeen : resp.pop.seen ≤ req.push.seen
  efpgaFirst : req.pop.first ≤ resp.push.first + 1
  efpgaSecond : req.pop.second ≤ resp.push.second + 1
  efpgaSeen : req.pop.seen ≤ resp.push.seen + 1

variable {req : AsyncFifo (BitVec 57)} {resp : AsyncFifo (BitVec 32)}

theorem EquallyOld.step (old : EquallyOld req resp)
    (answered : (resp.step 4 (system.respEdges input)).push.words.length ≤
      (req.step 4 (system.reqEdges input)).pop.count)
    (inFlight : (req.step 4 (system.reqEdges input)).push.words.length ≤
      (resp.step 4 (system.respEdges input)).pop.count + 1) :
    EquallyOld (req.step 4 (system.reqEdges input)) (resp.step 4 (system.respEdges input)) := by
  obtain ⟨answeredOld, inFlightOld, socFirst, socSecond, socSeen, efpgaFirst, efpgaSecond,
    efpgaSeen⟩ := old
  refine ⟨answered, inFlight, ?_, ?_, ?_, ?_, ?_, ?_⟩ <;>
    simp only [AsyncFifo.step, ApbSystem.reqEdges, ApbSystem.respEdges] <;>
    cases input.soc <;> cases input.efpga <;>
    simp only [Option.map_none, Option.map_some, PushSide.edge, PopSide.edge] <;> assumption

/-- No request is in the bridge. -/
structure Idle (system : ApbSystem) (req : AsyncFifo (BitVec 57))
    (resp : AsyncFifo (BitVec 32)) : Prop where
  held : system.held = none
  granted : system.granted = false
  shift : system.dLintGnt = 0#5
  balance : req.push.words.length = resp.pop.count

/-- The master waits for its request.  The shift register is ahead of the response
on its way back. -/
structure Waiting (system : ApbSystem) (req : AsyncFifo (BitVec 57))
    (resp : AsyncFifo (BitVec 32)) : Prop where
  held : system.held.isSome = true
  granted : system.granted = false
  lintValid : system.bridge.lintValid = false
  started : system.dLintGnt.getLsbD 0 = true
  balance : req.push.words.length = resp.pop.count + 1
  pushed : resp.pop.count < resp.push.words.length → system.dLintGnt.getLsbD 1 = true
  first : resp.pop.count < resp.pop.first → system.dLintGnt.getLsbD 2 = true
  second : resp.pop.count < resp.pop.second → system.dLintGnt.getLsbD 3 = true
  seen : resp.pop.count < resp.pop.seen → system.dLintGnt.getLsbD 4 = true

/-- The request was granted in the last cycle, and its response is read in this
one. -/
structure Answered (system : ApbSystem) (req : AsyncFifo (BitVec 57))
    (resp : AsyncFifo (BitVec 32)) : Prop where
  held : system.held = none
  granted : system.granted = true
  lintValid : system.bridge.lintValid = true
  balance : req.push.words.length = resp.pop.count + 1
  seen : resp.pop.count < resp.pop.seen

/-- The invariant of the bridge. -/
structure ApbTracks (system : ApbSystem) (granted presented : List (BitVec 57))
    (answers returned : List (BitVec 32)) (req : AsyncFifo (BitVec 57))
    (resp : AsyncFifo (BitVec 32)) : Prop where
  requests : Carries system.bridge.reqFifo req (granted ++ system.held.toList) presented
  responses : Carries system.bridge.respFifo resp answers returned
  owed : resp.push.words.length + system.owed = req.pop.count
  equallyOld : EquallyOld req resp
  phase : Idle system req resp ∨ Waiting system req resp ∨ Answered system req resp

variable {granted presented : List (BitVec 57)} {answers returned : List (BitVec 32)}

/-- The response FIFO is never full when the eFPGA answers: it saw the request only
after it saw that the response before was read. -/
theorem ApbTracks.respFifo_neverFull
    (tracks : ApbTracks system granted presented answers returned req resp) :
    NoPushWhileFull system.bridge.respFifo (system.respEdges input) := by
  intro request push isPush
  have owing : 0 < system.owed := by
    unfold ApbSystem.respEdges ApbSystem.efpgaResponse at push
    cases efpga : input.efpga with
    | none => simp [efpga] at push
    | some sample =>
        by_contra none
        simp only [efpga, none, Option.map_some, if_false, Option.some.injEq] at push
        simp [← push] at isPush
  have owed := tracks.owed
  have seen := tracks.equallyOld.efpgaSeen
  have accepted := tracks.requests.represents.ordered.poppedSeen
  rw [tracks.responses.represents.push.full, PushSide.full, decide_eq_false_iff_not]
  omega

/-- The request FIFO is never full when a request enters. -/
theorem ApbTracks.reqFifo_notFull
    (tracks : ApbTracks system granted presented answers returned req resp)
    (balance : req.push.words.length = resp.pop.count) :
    system.bridge.reqFifo.push.full = false := by
  have seen := tracks.equallyOld.socSeen
  have taken := tracks.responses.represents.ordered.poppedSeen
  rw [tracks.requests.represents.push.full, PushSide.full, decide_eq_false_iff_not]
  omega

/-! ## One instant -/

/-- What one instant does to the request and to the words at the SoC side. -/
structure PhaseStep (system : ApbSystem) (input : ApbInput) (req : AsyncFifo (BitVec 57))
    (resp : AsyncFifo (BitVec 32)) : Prop where
  requests : system.grantedRequests input ++ (system.step input).held.toList =
    system.held.toList ++ system.bridge.reqFifo.accepted (system.reqEdges input)
  returned : system.returnedResponses input =
    system.bridge.respFifo.delivered (system.respEdges input)
  phase : Idle (system.step input) (req.step 4 (system.reqEdges input))
      (resp.step 4 (system.respEdges input)) ∨
    Waiting (system.step input) (req.step 4 (system.reqEdges input))
      (resp.step 4 (system.respEdges input)) ∨
    Answered (system.step input) (req.step 4 (system.reqEdges input))
      (resp.step 4 (system.respEdges input))

/-- The eFPGA answers only while the shift register allows it. -/
theorem ApbTracks.answers_step
    (tracks : ApbTracks system granted presented answers returned req resp)
    (paced : ApbPaced system input) :
    (resp.step 4 (system.respEdges input)).push.words.length = resp.push.words.length ∨
      0 < system.owed ∧ (system.dLintGnt.getLsbD 1 = true ∨
        system.dLintGnt.getLsbD 0 = true ∧ input.soc.isSome = true) := by
  rw [AsyncFifo.words_step, ← tracks.responses.represents.accepted_eq_four,
    ← efpgaResponses_eq tracks.respFifo_neverFull]
  unfold ApbSystem.efpgaResponses
  cases efpga : input.efpga with
  | none => exact .inl (by simp)
  | some sample =>
      cases response : system.efpgaResponse sample with
      | none => exact .inl (by simp [response])
      | some answer =>
          refine .inr ⟨?_, paced.notTooFast sample efpga (by simp [response])⟩
          by_contra none
          simp [ApbSystem.efpgaResponse, none] at response

/-- An instant without an edge of the SoC clock. -/
theorem ApbTracks.phaseStep_noSoc
    (tracks : ApbTracks system granted presented answers returned req resp)
    (paced : ApbPaced system input) (noSoc : input.soc = none) :
    PhaseStep system input req resp := by
  have pushSide : (req.step 4 (system.reqEdges input)).push = req.push := by
    simp [AsyncFifo.step, ApbSystem.reqEdges, noSoc]
  have popSide : (resp.step 4 (system.respEdges input)).pop = resp.pop := by
    simp [AsyncFifo.step, ApbSystem.respEdges, noSoc]
  have held : (system.step input).held = system.held := by simp [ApbSystem.step, noSoc]
  have grant : (system.step input).granted = system.granted := by simp [ApbSystem.step, noSoc]
  have shift : (system.step input).dLintGnt = system.dLintGnt := by
    simp [ApbSystem.step, noSoc]
  have valid : (system.step input).bridge.lintValid = system.bridge.lintValid := by
    simp [ApbSystem.step, noSoc]
  refine ⟨?_, ?_, ?_⟩
  · simp [ApbSystem.grantedRequests, A2Fifo.accepted, ApbSystem.reqEdges, noSoc, held]
  · simp [ApbSystem.returnedResponses, A2Fifo.delivered, ApbSystem.respEdges, noSoc]
  · rcases tracks.phase with idle | waiting | answered
    · left
      obtain ⟨idleHeld, idleGranted, idleShift, balance⟩ := idle
      exact ⟨held.trans idleHeld, grant.trans idleGranted, shift.trans idleShift,
        by rw [pushSide, popSide]; exact balance⟩
    · right; left
      have answering := tracks.answers_step paced
      obtain ⟨waitingHeld, waitingGranted, waitingValid, started, balance, pushed, first, second,
        seen⟩ := waiting
      refine ⟨held ▸ waitingHeld, grant.trans waitingGranted, valid.trans waitingValid,
        shift ▸ started, ?_, ?_, ?_, ?_, ?_⟩ <;> rw [popSide]
      · rw [pushSide]
        exact balance
      · rw [shift]
        intro more
        rcases answering with same | ⟨-, allowed | ⟨-, ticks⟩⟩
        · exact pushed (same ▸ more)
        · exact allowed
        · simp [noSoc] at ticks
      · rwa [shift]
      · rwa [shift]
      · rwa [shift]
    · right; right
      obtain ⟨answeredHeld, answeredGranted, answeredValid, balance, seen⟩ := answered
      exact ⟨held.trans answeredHeld, grant.trans answeredGranted, valid.trans answeredValid,
        by rw [pushSide, popSide]; exact balance, by rw [popSide]; exact seen⟩

/-- The pop side of the response FIFO over an edge of the SoC clock. -/
theorem respPop_socEdge (system : ApbSystem) (resp : AsyncFifo (BitVec 32))
    {sample : ApbSample} (soc : input.soc = some sample) :
    (resp.step 4 (system.respEdges input)).pop =
      resp.pop.edge resp.push.words.length system.bridge.lintValid := by
  simp only [AsyncFifo.step, ApbSystem.respEdges, soc, Option.map_some]

/-- An edge of the SoC clock while no request is in the bridge. -/
theorem ApbTracks.phaseStep_idle
    (tracks : ApbTracks system granted presented answers returned req resp)
    (paced : ApbPaced system input) {sample : ApbSample} (soc : input.soc = some sample)
    (idle : Idle system req resp) : PhaseStep system input req resp := by
  obtain ⟨held, grant, shift, balance⟩ := idle
  have notFull := tracks.reqFifo_notFull balance
  have owed := tracks.owed
  have accepted := tracks.requests.count_le
  have words := AsyncFifo.words_step 4 req (system.reqEdges input)
  obtain ⟨-, -, -, poppedSeen, seenPushed, secondPushed, firstPushed, -⟩ :=
    tracks.responses.represents.ordered
  have settled : resp.pop.count = resp.pop.seen := by omega
  have empty : system.bridge.respFifo.pop.empty = true := by
    rw [tracks.responses.represents.pop.empty, PopSide.empty, decide_eq_true settled]
  have stays : (resp.step 4 (system.respEdges input)).pop.count = resp.pop.count := by
    rw [respPop_socEdge system resp soc]
    simp [PopSide.edge, PopSide.takes, PopSide.empty, settled]
  have refused : system.gnt sample = true → system.request sample = none := by
    unfold ApbSystem.gnt
    intro high
    cases enable : sample.enable with
    | true => simp [enable, shift] at high
    | false =>
        cases request : system.request sample with
        | none => rfl
        | some data =>
            have enabled := paced.enabled sample soc (by simp [request])
            rw [enable] at enabled
            cases enabled
  have returning : system.returnedResponses input =
      system.bridge.respFifo.delivered (system.respEdges input) := by
    simp [ApbSystem.returnedResponses, A2Fifo.delivered, ApbSystem.respEdges, soc, grant,
      A2PopSide.advances, empty]
  cases request : system.request sample with
  | none =>
      have grantedAt : system.grantedAt sample = none := by
        simp [ApbSystem.grantedAt, request]
      have lintReq : system.lintReq sample = false := by simp [ApbSystem.lintReq, request]
      have heldStep : (system.step input).held = none := by
        simp [ApbSystem.step, soc, request]
      have none : system.bridge.reqFifo.accepted (system.reqEdges input) = [] := by
        simp [A2Fifo.accepted, ApbSystem.reqEdges, soc, lintReq]
      refine ⟨?_, returning, .inl ⟨heldStep, ?_, ?_, ?_⟩⟩
      · simp [ApbSystem.grantedRequests, soc, grantedAt, heldStep, none, held]
      · simp [ApbSystem.step, soc, grantedAt]
      · simp [ApbSystem.step, soc, request]
      · rw [words, ← tracks.requests.represents.accepted_eq_four, none, stays, List.append_nil]
        exact balance
  | some data =>
      have enable := paced.enabled sample soc (by simp [request])
      have notGranted : system.gnt sample = false := by
        cases high : system.gnt sample with
        | false => rfl
        | true =>
            have none := refused high
            rw [request] at none
            cases none
      have lintReq : system.lintReq sample = true := by
        simp [ApbSystem.lintReq, enable, request, shift]
      have heldStep : (system.step input).held = some data := by
        simp [ApbSystem.step, soc, notGranted, request]
      have one : system.bridge.reqFifo.accepted (system.reqEdges input) = [data] := by
        simp [A2Fifo.accepted, ApbSystem.reqEdges, soc, lintReq, notFull, request]
      have shifted : (system.step input).dLintGnt = 1#5 := by
        simp [ApbSystem.step, soc, request, shift]
      refine ⟨?_, returning, .inr (.inl ⟨?_, ?_, ?_, ?_, ?_, ?_, ?_, ?_, ?_⟩)⟩
      · simp [ApbSystem.grantedRequests, soc, ApbSystem.grantedAt, notGranted, heldStep, one, held]
      · simp [heldStep]
      · simp [ApbSystem.step, soc, ApbSystem.grantedAt, notGranted]
      · simp [ApbSystem.step, soc, Apbt1Interface.lintGnt, empty]
      · simp [shifted]
      · rw [words, ← tracks.requests.represents.accepted_eq_four, one, stays, List.length_append]
        simp [balance]
      · intro more
        rcases tracks.answers_step paced with same | ⟨owing, -⟩
        · omega
        · omega
      all_goals
        intro more
        rw [stays, respPop_socEdge system resp soc] at more
        simp only [PopSide.edge] at more
        omega

/-- The bits of the shift register move up. -/
theorem getLsbD_shifted (shift : BitVec 5) {bit : Nat} (inside : bit < 4) :
    ((shift <<< 1) ||| 1#5).getLsbD (bit + 1) = shift.getLsbD bit := by
  rw [BitVec.getLsbD_or, BitVec.getLsbD_shiftLeft, BitVec.getLsbD_one]
  simp [Nat.lt_succ_of_lt inside]
  omega

/-- An edge of the SoC clock while the master waits. -/
theorem ApbTracks.phaseStep_waiting
    (tracks : ApbTracks system granted presented answers returned req resp)
    (paced : ApbPaced system input) {sample : ApbSample} (soc : input.soc = some sample)
    (waiting : Waiting system req resp) : PhaseStep system input req resp := by
  obtain ⟨held, grant, lintValid, started, balance, pushed, first, second, seen⟩ := waiting
  obtain ⟨data, heldData⟩ := Option.isSome_iff_exists.mp held
  obtain ⟨-, -, -, poppedSeen, seenPushed, secondPushed, firstPushed, -⟩ :=
    tracks.responses.represents.ordered
  have request : system.request sample = some data := by
    simp [ApbSystem.request, heldData]
  have enable := paced.enabled sample soc (by simp [request])
  have lintReq : system.lintReq sample = false := by
    simp only [ApbSystem.lintReq, enable, started, Bool.true_or, Bool.not_true, Bool.and_false,
      if_true]
  have none : system.bridge.reqFifo.accepted (system.reqEdges input) = [] := by
    simp [A2Fifo.accepted, ApbSystem.reqEdges, soc, lintReq]
  have words : (req.step 4 (system.reqEdges input)).push.words = req.push.words := by
    rw [AsyncFifo.words_step, ← tracks.requests.represents.accepted_eq_four, none, List.append_nil]
  have popEdge := respPop_socEdge system resp soc
  have stays : (resp.step 4 (system.respEdges input)).pop.count = resp.pop.count := by
    rw [popEdge]
    simp [PopSide.edge, PopSide.takes, lintValid]
  have returning : system.returnedResponses input =
      system.bridge.respFifo.delivered (system.respEdges input) := by
    simp [ApbSystem.returnedResponses, A2Fifo.delivered, ApbSystem.respEdges, soc, grant,
      A2PopSide.advances, lintValid]
  have shifted : (system.step input).dLintGnt = (system.dLintGnt <<< 1) ||| 1#5 := by
    simp [ApbSystem.step, soc, request]
  have respEmpty := tracks.responses.represents.pop.empty
  by_cases arrived : resp.pop.count < resp.pop.seen
  · -- the response is there, and the shift register has come to its end
    have notEmpty : system.bridge.respFifo.pop.empty = false := by
      rw [respEmpty, PopSide.empty, decide_eq_false (by omega)]
    have high : system.gnt sample = true := by
      simp [ApbSystem.gnt, enable, seen arrived, Apbt1Interface.lintGnt, notEmpty]
    have heldStep : (system.step input).held = Option.none := by
      simp [ApbSystem.step, soc, high]
    have grantedAt : system.grantedAt sample = some data := by
      simp [ApbSystem.grantedAt, high, request]
    refine ⟨?_, returning, .inr (.inr ⟨heldStep, ?_, ?_, ?_, ?_⟩)⟩
    · simp [ApbSystem.grantedRequests, soc, grantedAt, heldStep, none, heldData]
    · simp [ApbSystem.step, soc, grantedAt]
    · simp [ApbSystem.step, soc, Apbt1Interface.lintGnt, notEmpty]
    · rw [words, stays]
      exact balance
    · rw [stays, popEdge]
      simp only [PopSide.edge]
      omega
  · have empty : system.bridge.respFifo.pop.empty = true := by
      rw [respEmpty, PopSide.empty, decide_eq_true (by omega)]
    have low : system.gnt sample = false := by
      simp [ApbSystem.gnt, enable, Apbt1Interface.lintGnt, empty]
    have heldStep : (system.step input).held = some data := by
      simp [ApbSystem.step, soc, low, request]
    refine ⟨?_, returning, .inr (.inl ⟨?_, ?_, ?_, ?_, ?_, ?_, ?_, ?_, ?_⟩)⟩
    · simp [ApbSystem.grantedRequests, soc, ApbSystem.grantedAt, low, heldStep, none, heldData]
    · simp [heldStep]
    · simp [ApbSystem.step, soc, ApbSystem.grantedAt, low]
    · simp [ApbSystem.step, soc, Apbt1Interface.lintGnt, empty]
    · rw [shifted]
      simp
    · rw [words, stays]
      exact balance
    · intro more
      rw [shifted, getLsbD_shifted _ (by omega)]
      exact started
    all_goals
      rw [shifted, getLsbD_shifted _ (by omega), stays, popEdge]
      assumption

/-- An edge of the SoC clock in the cycle after the grant. -/
theorem ApbTracks.phaseStep_answered
    (tracks : ApbTracks system granted presented answers returned req resp)
    (paced : ApbPaced system input) {sample : ApbSample} (soc : input.soc = some sample)
    (answered : Answered system req resp) : PhaseStep system input req resp := by
  obtain ⟨held, grant, lintValid, balance, seen⟩ := answered
  have request : system.request sample = Option.none := by
    simp [ApbSystem.request, held, paced.notBackToBack sample soc grant]
  have lintReq : system.lintReq sample = false := by simp [ApbSystem.lintReq, request]
  have none : system.bridge.reqFifo.accepted (system.reqEdges input) = [] := by
    simp [A2Fifo.accepted, ApbSystem.reqEdges, soc, lintReq]
  have grantedAt : system.grantedAt sample = Option.none := by
    simp [ApbSystem.grantedAt, request]
  have heldStep : (system.step input).held = Option.none := by
    simp [ApbSystem.step, soc, request]
  have offered : resp.pop.empty = false := by
    rw [PopSide.empty, decide_eq_false (by omega)]
  have notEmpty : system.bridge.respFifo.pop.empty = false :=
    tracks.responses.represents.pop.empty.trans offered
  refine ⟨?_, ?_, .inl ⟨heldStep, ?_, ?_, ?_⟩⟩
  · simp [ApbSystem.grantedRequests, soc, grantedAt, heldStep, none, held]
  · simp [ApbSystem.returnedResponses, A2Fifo.delivered, ApbSystem.respEdges, soc, grant,
      A2PopSide.advances, lintValid, notEmpty, Apbt1Interface.lintRdata]
  · simp [ApbSystem.step, soc, grantedAt]
  · simp [ApbSystem.step, soc, request]
  · rw [AsyncFifo.words_step, ← tracks.requests.represents.accepted_eq_four, none, List.append_nil,
      respPop_socEdge system resp soc, balance]
    simp [PopSide.edge, PopSide.takes, lintValid, offered]

theorem ApbTracks.phaseStep
    (tracks : ApbTracks system granted presented answers returned req resp)
    (paced : ApbPaced system input) : PhaseStep system input req resp := by
  cases soc : input.soc with
  | none => exact tracks.phaseStep_noSoc paced soc
  | some sample =>
      rcases tracks.phase with idle | waiting | answered
      · exact tracks.phaseStep_idle paced soc idle
      · exact tracks.phaseStep_waiting paced soc waiting
      · exact tracks.phaseStep_answered paced soc answered

/-- In every phase at most one request is in flight. -/
theorem ApbTracks.inFlight {req : AsyncFifo (BitVec 57)} {resp : AsyncFifo (BitVec 32)}
    (phase : Idle system req resp ∨ Waiting system req resp ∨ Answered system req resp) :
    req.push.words.length ≤ resp.pop.count + 1 := by
  rcases phase with idle | waiting | answered
  · exact Nat.le_succ_of_le idle.balance.le
  · exact waiting.balance.le
  · exact answered.balance.le

theorem ApbTracks.step
    (tracks : ApbTracks system granted presented answers returned req resp)
    (paced : ApbPaced system input) :
    ApbTracks (system.step input) (granted ++ system.grantedRequests input)
      (presented ++ system.presentedRequests input) (answers ++ system.efpgaResponses input)
      (returned ++ system.returnedResponses input) (req.step 4 (system.reqEdges input))
      (resp.step 4 (system.respEdges input)) := by
  obtain ⟨requests, returning, phase⟩ := tracks.phaseStep paced
  have neverFull : NoPushWhileFull system.bridge.respFifo (system.respEdges input) :=
    tracks.respFifo_neverFull
  have owed := tracks.owed
  have accepting : (system.presentedRequests input).length =
      (req.taken (system.reqEdges input)).toNat := by
    rw [presentedRequests_eq, tracks.requests.represents.length_delivered]
  have answering := length_efpgaResponses system input
  have owing : (resp.step 4 (system.respEdges input)).push.words.length +
      (system.step input).owed = (req.step 4 (system.reqEdges input)).pop.count := by
    rw [AsyncFifo.words_step, AsyncFifo.count_step, List.length_append,
      ← tracks.responses.represents.accepted_eq_four, ← efpgaResponses_eq neverFull]
    simp only [ApbSystem.step]
    omega
  exact
    { requests := by
        rw [List.append_assoc, requests, ← List.append_assoc, presentedRequests_eq]
        exact tracks.requests.step reqFifo_guarded
      responses := by
        rw [efpgaResponses_eq neverFull, returning]
        exact tracks.responses.step neverFull
      owed := owing
      equallyOld := tracks.equallyOld.step (by omega) (ApbTracks.inFlight phase)
      phase }

/-- The invariant with the words of a run. -/
theorem apbTracks (reqRam : UnresetRam 57 2) (respRam : UnresetRam 32 2)
    (inputs : List ApbInput) (paced : (apbMachine reqRam respRam).Always ApbPaced inputs) :
    ∃ req resp, ApbTracks ((apbMachine reqRam respRam).run inputs)
      ((apbMachine reqRam respRam).observed ApbSystem.grantedRequests inputs)
      ((apbMachine reqRam respRam).observed ApbSystem.presentedRequests inputs)
      ((apbMachine reqRam respRam).observed ApbSystem.efpgaResponses inputs)
      ((apbMachine reqRam respRam).observed ApbSystem.returnedResponses inputs) req resp := by
  refine Machine.run_induction (motive := fun inputs system => ∃ req resp, ApbTracks system
    ((apbMachine reqRam respRam).observed ApbSystem.grantedRequests inputs)
    ((apbMachine reqRam respRam).observed ApbSystem.presentedRequests inputs)
    ((apbMachine reqRam respRam).observed ApbSystem.efpgaResponses inputs)
    ((apbMachine reqRam respRam).observed ApbSystem.returnedResponses inputs) req resp)
    ?_ ?_ inputs paced
  · refine ⟨.reset, .reset, ?_⟩
    exact
      { requests := carries_flushed reqRam
        responses := carries_flushed respRam
        owed := rfl
        equallyOld := by constructor <;> exact Nat.zero_le _
        phase := .inl ⟨rfl, rfl, rfl, rfl⟩ }
  · rintro inputs input - ⟨req, resp, tracks⟩ paced
    simp only [Machine.observed_snoc]
    exact ⟨_, _, tracks.step paced⟩

/-- For every ratio and interleaving of the clocks, every stream of requests and
every answer delay: the bridge is correct in every run that keeps its pace. -/
theorem apbBridge_correct (reqRam : UnresetRam 57 2) (respRam : UnresetRam 32 2)
    (inputs : List ApbInput) (paced : (apbMachine reqRam respRam).Always ApbPaced inputs) :
    ApbBridgeCorrect reqRam respRam inputs := by
  obtain ⟨req, resp, tracks⟩ := apbTracks reqRam respRam inputs paced
  have presented := tracks.requests.length_popped
  have pushed := congrArg List.length tracks.requests.pushed
  have returned := tracks.responses.length_popped
  have answered := tracks.equallyOld.answered
  have inOrder := tracks.requests.inOrder
  obtain ⟨-, -, -, poppedSeen, seenPushed, secondPushed, firstPushed, -⟩ :=
    tracks.responses.represents.ordered
  rw [List.length_append] at pushed
  have balance : ((apbMachine reqRam respRam).observed ApbSystem.grantedRequests inputs).length =
      resp.pop.count + ((apbMachine reqRam respRam).run inputs).granted.toNat ∧
      ((apbMachine reqRam respRam).observed ApbSystem.grantedRequests inputs).length ≤
        req.pop.count := by
    rcases tracks.phase with ⟨held, granted, -, count⟩ |
      ⟨held, granted, -, -, count, -, -, -, -⟩ | ⟨held, granted, -, count, seen⟩
    · rw [held, Option.toList_none, List.length_nil] at pushed
      rw [granted, Bool.toNat_false]
      omega
    · obtain ⟨data, heldData⟩ := Option.isSome_iff_exists.mp held
      rw [heldData, Option.toList_some, List.length_singleton] at pushed
      rw [granted, Bool.toNat_false]
      omega
    · rw [held, Option.toList_none, List.length_nil] at pushed
      rw [granted, Bool.toNat_true]
      omega
  exact
    { grantedArePresented := List.prefix_of_prefix_length_le (List.prefix_append _ _) inOrder
        (by omega)
      presentedOnce := inOrder
      oneResponse := by omega
      ownResponse := tracks.responses.inOrder }

/-! ## Runs of the bridge -/

/-- An edge of the SoC clock of the enabled bridge, and one of the eFPGA clock that
accepts and answers. -/
def socCycle (newRequest : Option (BitVec 57)) : ApbInput := ⟨some ⟨true, newRequest⟩, none⟩

def efpgaCycle (answer : Option (BitVec 32)) : ApbInput := ⟨none, some ⟨true, answer⟩⟩

/-- A request and its answer, up to the cycle of the grant: the request crosses to
the eFPGA and is accepted, two edges of the SoC clock later it is answered, and
the answer crosses back. -/
def accessUntilGrant (request : BitVec 57) (answer : BitVec 32) : List ApbInput :=
  [socCycle (some request), efpgaCycle none, efpgaCycle none, efpgaCycle none, efpgaCycle none,
   socCycle none, efpgaCycle (some answer), socCycle none, socCycle none, socCycle none,
   socCycle none]

/-- The master reads the response and presents its next request in the same
cycle. -/
def backToBackAccess : List ApbInput :=
  accessUntilGrant 0x11#57 0xAA#32 ++ [socCycle (some 0x22#57), socCycle none]

/-- The eFPGA answers within the first SoC cycle of the request. -/
def fastAnswer : List ApbInput :=
  [socCycle (some 0x11#57), efpgaCycle none, efpgaCycle none, efpgaCycle none, efpgaCycle none,
   efpgaCycle (some 0xAA#32), socCycle none, socCycle none, socCycle none, socCycle none,
   socCycle none, socCycle none]

/-- The request in the cycle after a grant is granted and never presented, and an
answer that is too fast is dropped before the grant. -/
theorem backToBackAccess_fastAnswer_not_correct :
    ¬ApbBridgeCorrect ⟨fun _ => 0#57, 0#2⟩ ⟨fun _ => 0#32, 0#2⟩ backToBackAccess ∧
      ¬ApbBridgeCorrect ⟨fun _ => 0#57, 0#2⟩ ⟨fun _ => 0#32, 0#2⟩ fastAnswer :=
  ⟨fun correct => absurd correct.grantedArePresented (by decide +kernel),
    fun correct => absurd correct.ownResponse (by decide +kernel)⟩

/-- Two accesses with an idle cycle between them. -/
def spacedAccesses : List ApbInput :=
  accessUntilGrant 0x11#57 0xAA#32 ++ [socCycle none] ++
    accessUntilGrant 0x22#57 0xBB#32 ++ [socCycle none]

theorem spacedAccesses_correct :
    ApbBridgeCorrect ⟨fun _ => 0#57, 0#2⟩ ⟨fun _ => 0#32, 0#2⟩ spacedAccesses ∧
      (apbMachine ⟨fun _ => 0#57, 0#2⟩ ⟨fun _ => 0#32, 0#2⟩).observed
        ApbSystem.returnedResponses spacedAccesses = [0xAA#32, 0xBB#32] :=
  ⟨apbBridge_correct _ _ spacedAccesses (by decide +kernel), by decide +kernel⟩

end CoreVMcu.Efpga
