import Mathlib.Data.List.Forall2
import Mathlib.Order.Monotone.Basic
import CoreVMcu.Interconnect.Lint2Axi

/-!
# Transfers through the TCDM to AXI bridge

The logs of the ports are determined by the granted requests and the state of the
bridge.
-/

namespace CoreVMcu.Interconnect

open Clocked

variable {idWidth auxWidth : Nat}

/-! ## The FSM in its states -/

namespace Lint2Axi

variable {bridge : Lint2Axi idWidth auxWidth} {input : Lint2AxiInput idWidth auxWidth}

/-- What the FSM drives when nothing happens. -/
def quiet (cs : Lint2AxiState) : Lint2AxiOut :=
  { next := cs, granted := false, valid := false, rOpc := false, awValid := false
    wValid := false, bReady := false, arValid := false, rReady := false }

theorem out_read (idle : bridge.cs = .idle) (request : input.dataReq = true)
    (read : input.request.we = false) :
    bridge.out input =
      { quiet (if input.arReady then .readWait else .idle) with
        granted := input.arReady, arValid := true } := by
  cases ready : input.arReady <;> simp [out, idle, request, read, ready, quiet]

theorem out_write (idle : bridge.cs = .idle) (request : input.dataReq = true)
    (write : input.request.we = true) :
    bridge.out input =
      { quiet (if input.awReady then (if input.wReady then .writeWait else .writeData)
          else if input.wReady then .writeAddr else .idle) with
        granted := input.awReady && input.wReady, awValid := true, wValid := true } := by
  cases awReady : input.awReady <;> cases wReady : input.wReady <;>
    simp [out, idle, request, write, awReady, wReady, quiet]

theorem out_writeData (state : bridge.cs = .writeData) :
    bridge.out input =
      { quiet (if input.wReady then .writeWait else .writeData) with
        granted := input.wReady, wValid := true } := by
  cases ready : input.wReady <;> simp [out, state, ready, quiet]

theorem out_writeAddr (state : bridge.cs = .writeAddr) :
    bridge.out input =
      { quiet (if input.awReady then .writeWait else .writeAddr) with
        granted := input.awReady, awValid := true } := by
  cases ready : input.awReady <;> simp [out, state, ready, quiet]

theorem out_writeWait (state : bridge.cs = .writeWait) :
    bridge.out input =
      { quiet (if input.bValid then .idle else .writeWait) with
        valid := input.bValid, rOpc := input.bValid && input.bResp.getLsbD 1, bReady := true } := by
  cases valid : input.bValid <;> simp [out, state, valid, quiet]

theorem out_readWait (state : bridge.cs = .readWait) :
    bridge.out input =
      { quiet (if input.rValid then .idle else .readWait) with
        valid := input.rValid, rOpc := input.rValid && input.rResp.getLsbD 1
        rReady := input.rValid } := by
  cases valid : input.rValid <;> simp [out, state, valid, quiet]

/-- What passes and what stalls in a cycle, channel by channel: the address of a write is ahead of
its grant in `writeData`, and the data in `writeAddr`. -/
structure Passes (bridge : Lint2Axi idWidth auxWidth) (input : Lint2AxiInput idWidth auxWidth)
    (out : Lint2AxiOut) : Prop where
  aw : (bridge.cs == .writeData).toNat + (out.awValid && input.awReady).toNat =
    (out.granted && input.request.we).toNat + (out.next == .writeData).toNat
  w : (bridge.cs == .writeAddr).toNat + (out.wValid && input.wReady).toNat =
    (out.granted && input.request.we).toNat + (out.next == .writeAddr).toNat
  ar : (out.arValid && input.arReady) = (out.granted && !input.request.we)
  granted : out.granted = true → input.dataReq = true
  busy : out.next = .writeData ∨ out.next = .writeAddr →
    input.dataReq = true ∧ out.granted = false ∧ input.request.we = true
  awStalls : out.awValid = true → input.awReady = false →
    (out.next = .idle ∨ out.next = .writeAddr) ∧
      input.dataReq = true ∧ out.granted = false ∧ input.request.we = true
  wStalls : out.wValid = true → input.wReady = false →
    (out.next = .idle ∨ out.next = .writeData) ∧
      input.dataReq = true ∧ out.granted = false ∧ input.request.we = true
  arStalls : out.arValid = true → input.arReady = false →
    out.next = .idle ∧ input.dataReq = true ∧ out.granted = false ∧ input.request.we = false
  before : bridge.cs ≠ .writeWait → bridge.cs ≠ .readWait →
    out.valid = false ∧ out.bReady = false ∧ out.rReady = false ∧
      (out.next = .writeWait ↔ out.granted = true ∧ input.request.we = true) ∧
      (out.next = .readWait ↔ out.granted = true ∧ input.request.we = false)

/-- In the middle of a write the write has to be at the port. -/
theorem passes (requested : bridge.cs = .writeData ∨ bridge.cs = .writeAddr →
    input.dataReq = true ∧ input.request.we = true) : Passes bridge input (bridge.out input) := by
  cases state : bridge.cs with
  | idle =>
      constructor <;> simp only [out, state] <;> cases input.dataReq <;>
        cases input.request.we <;> cases input.awReady <;> cases input.wReady <;>
        cases input.arReady <;> simp +decide
  | writeData =>
      obtain ⟨request, we⟩ := requested (Or.inl state)
      constructor <;> simp only [out, state, request, we] <;> cases input.wReady <;> simp +decide
  | writeAddr =>
      obtain ⟨request, we⟩ := requested (Or.inr state)
      constructor <;> simp only [out, state, request, we] <;> cases input.awReady <;> simp +decide
  | writeWait =>
      constructor <;> simp only [out, state] <;> cases input.bValid <;> simp +decide
  | readWait =>
      constructor <;> simp only [out, state] <;> cases input.rValid <;> simp +decide

/-- The handshakes of a channel differ by the transaction under way, whatever is at the port. -/
theorem fires_toNat (bridge : Lint2Axi idWidth auxWidth) (input : Lint2AxiInput idWidth auxWidth) :
    (bridge.cs == .writeData || bridge.cs == .writeWait).toNat + (bridge.awFires input).toNat =
        (bridge.bFires input).toNat +
          ((bridge.out input).next == .writeData || (bridge.out input).next == .writeWait).toNat ∧
      (bridge.cs == .writeAddr || bridge.cs == .writeWait).toNat + (bridge.wFires input).toNat =
        (bridge.bFires input).toNat +
          ((bridge.out input).next == .writeAddr || (bridge.out input).next == .writeWait).toNat ∧
      (bridge.cs == .readWait).toNat + (bridge.arFires input).toNat =
        (bridge.rFires input).toNat + ((bridge.out input).next == .readWait).toNat := by
  simp only [awFires, wFires, arFires, bFires, rFires]
  cases state : bridge.cs with
  | idle =>
      simp only [out, state]
      cases input.dataReq <;> cases input.request.we <;> cases input.awReady <;>
        cases input.wReady <;> cases input.arReady <;> simp +decide
  | writeData =>
      simp only [out, state]
      cases input.wReady <;> simp +decide
  | writeAddr =>
      simp only [out, state]
      cases input.awReady <;> simp +decide
  | writeWait =>
      simp only [out, state]
      cases input.bValid <;> simp +decide
  | readWait =>
      simp only [out, state]
      cases input.rValid <;> simp +decide

end Lint2Axi

/-! ## What is held -/

namespace Lint2AxiSystem

variable {system : Lint2AxiSystem idWidth auxWidth} {input : Lint2AxiInput idWidth auxWidth}

/-- The request that was presented but not granted in the last cycle is still there,
and beats that were not taken are its own. -/
structure Holding (system : Lint2AxiSystem idWidth auxWidth) : Prop where
  write : system.bridge.cs = .writeData ∨ system.bridge.cs = .writeAddr →
    ∃ request ∈ system.held, request.we = true
  aw : ∀ beat ∈ system.stalledAw, (system.bridge.cs = .idle ∨ system.bridge.cs = .writeAddr) ∧
    ∃ request ∈ system.held, request.we = true ∧ request.addrBeat = beat
  w : ∀ beat ∈ system.stalledW, (system.bridge.cs = .idle ∨ system.bridge.cs = .writeData) ∧
    ∃ request ∈ system.held, request.we = true ∧ request.dataBeat = beat
  ar : ∀ beat ∈ system.stalledAr, system.bridge.cs = .idle ∧
    ∃ request ∈ system.held, request.we = false ∧ request.addrBeat = beat

/-- In the states of a write whose beats were not both taken, the request is at the
port. -/
theorem Holding.requested (holding : system.Holding) (holds : system.HoldsRequest input)
    (busy : system.bridge.cs = .writeData ∨ system.bridge.cs = .writeAddr) :
    system.held = some input.request ∧ input.dataReq = true ∧ input.request.we = true := by
  obtain ⟨request, held, write⟩ := holding.write busy
  obtain ⟨present, same⟩ := holds request held
  rw [same]
  exact ⟨held, present, write⟩

theorem Holding.passes (holding : system.Holding) (holds : system.HoldsRequest input) :
    system.bridge.Passes input (system.bridge.out input) :=
  Lint2Axi.passes fun busy => (holding.requested holds busy).2

theorem held_step (request : input.dataReq = true)
    (notGranted : (system.bridge.out input).granted = false) :
    (system.step input).held = some input.request := by
  rw [step, request, notGranted]
  rfl

/-- A beat that stalls was driven and not taken. -/
theorem mem_stalled {Beat : Type} {driven ready : Bool} {beat stalled : Beat}
    (stalls : beat ∈ if driven && !ready then some stalled else none) :
    driven = true ∧ ready = false ∧ stalled = beat := by
  cases driven <;> cases ready <;> cases stalls
  exact ⟨rfl, rfl, rfl⟩

theorem Holding.step (holding : system.Holding) (holds : system.HoldsRequest input) :
    (system.step input).Holding := by
  have passes := holding.passes holds
  constructor
  · intro busy
    obtain ⟨request, notGranted, write⟩ := passes.busy busy
    exact ⟨_, held_step request notGranted, write⟩
  · intro beat stalled
    obtain ⟨driven, notReady, same⟩ := mem_stalled stalled
    obtain ⟨next, request, notGranted, write⟩ := passes.awStalls driven notReady
    exact ⟨next, _, held_step request notGranted, write, same⟩
  · intro beat stalled
    obtain ⟨driven, notReady, same⟩ := mem_stalled stalled
    obtain ⟨next, request, notGranted, write⟩ := passes.wStalls driven notReady
    exact ⟨next, _, held_step request notGranted, write, same⟩
  · intro beat stalled
    obtain ⟨driven, notReady, same⟩ := mem_stalled stalled
    obtain ⟨next, request, notGranted, read⟩ := passes.arStalls driven notReady
    exact ⟨next, _, held_step request notGranted, read, same⟩

/-- What is held is presented again. -/
theorem Holding.keepsBeats (holding : system.Holding) (holds : system.HoldsRequest input) :
    system.KeepsBeats input := by
  constructor
  · intro beat stalled
    obtain ⟨state, request, held, write, rfl⟩ := holding.aw beat stalled
    obtain ⟨present, rfl⟩ := holds request held
    refine ⟨?_, rfl⟩
    rcases state with idle | writeAddr
    · rw [Lint2Axi.out_write idle present write]
    · rw [Lint2Axi.out_writeAddr writeAddr]
  · intro beat stalled
    obtain ⟨state, request, held, write, rfl⟩ := holding.w beat stalled
    obtain ⟨present, rfl⟩ := holds request held
    refine ⟨?_, rfl⟩
    rcases state with idle | writeData
    · rw [Lint2Axi.out_write idle present write]
    · rw [Lint2Axi.out_writeData writeData]
  · intro beat stalled
    obtain ⟨idle, request, held, read, rfl⟩ := holding.ar beat stalled
    obtain ⟨present, rfl⟩ := holds request held
    refine ⟨?_, rfl⟩
    rw [Lint2Axi.out_read idle present read]

/-- The handshakes of the channels differ by the transaction under way. -/
def Counts (system : Lint2AxiSystem idWidth auxWidth) : Prop :=
  match system.bridge.cs with
  | .idle => system.aws = system.bs ∧ system.ws = system.bs ∧ system.ars = system.rs
  | .writeData => system.aws = system.bs + 1 ∧ system.ws = system.bs ∧ system.ars = system.rs
  | .writeAddr => system.aws = system.bs ∧ system.ws = system.bs + 1 ∧ system.ars = system.rs
  | .writeWait => system.aws = system.bs + 1 ∧ system.ws = system.bs + 1 ∧ system.ars = system.rs
  | .readWait => system.aws = system.bs ∧ system.ws = system.bs ∧ system.ars = system.rs + 1

theorem counts_iff (system : Lint2AxiSystem idWidth auxWidth) :
    system.Counts ↔
      system.aws = system.bs +
          (system.bridge.cs == .writeData || system.bridge.cs == .writeWait).toNat ∧
        system.ws = system.bs +
          (system.bridge.cs == .writeAddr || system.bridge.cs == .writeWait).toNat ∧
        system.ars = system.rs + (system.bridge.cs == .readWait).toNat := by
  rw [Counts]
  cases system.bridge.cs <;> exact Iff.rfl

theorem Counts.step (counts : system.Counts) : (system.step input).Counts := by
  rw [counts_iff] at counts ⊢
  obtain ⟨aws, ws, ars⟩ := counts
  obtain ⟨aw, w, ar⟩ := system.bridge.fires_toNat input
  refine ⟨?_, ?_, ?_⟩
  · change system.aws + _ = system.bs + _ + _
    rw [aws, Nat.add_assoc, aw, Nat.add_assoc]
    rfl
  · change system.ws + _ = system.bs + _ + _
    rw [ws, Nat.add_assoc, w, Nat.add_assoc]
    rfl
  · change system.ars + _ = system.rs + _ + _
    rw [ars, Nat.add_assoc, ar, Nat.add_assoc]
    rfl

end Lint2AxiSystem

namespace Lint2AxiLog

open Lint2AxiSystem

variable {system : Lint2AxiSystem idWidth auxWidth} {input : Lint2AxiInput idWidth auxWidth}
variable {log : Lint2AxiLog idWidth auxWidth}

/-- The logs up to a state without a transaction under way, or with one that waits for
its response. -/
def Answered (log : Lint2AxiLog idWidth auxWidth) : Prop :=
  log.granted.length = log.responses.length

/-- The last granted request waits for its response. -/
def Waits (log : Lint2AxiLog idWidth auxWidth) (bridge : Lint2Axi idWidth auxWidth) (we : Bool) :
    Prop :=
  ∃ before request, log.granted = before ++ [request] ∧ before.length = log.responses.length ∧
    request.we = we ∧ bridge.rId = request.id ∧ bridge.rAux = request.aux

/-- The logs in the states of the bridge. -/
structure Tracks (log : Lint2AxiLog idWidth auxWidth) (system : Lint2AxiSystem idWidth auxWidth) :
    Prop where
  presented : log.presented = log.granted ++ system.held.toList
  aw : log.aw = writeAddrs log.granted ++
    if system.bridge.cs = .writeData then writeAddrs system.held.toList else []
  w : log.w = writeData log.granted ++
    if system.bridge.cs = .writeAddr then writeData system.held.toList else []
  ar : log.ar = readAddrs log.granted
  answered : List.Forall₂ Answers (log.granted.zip log.responses) log.answers
  waiting :
    match system.bridge.cs with
    | .writeWait => log.Waits system.bridge true
    | .readWait => log.Waits system.bridge false
    | _ => log.Answered

theorem writeAddrs_append (requests later : List (LintRequest idWidth auxWidth)) :
    writeAddrs (requests ++ later) = writeAddrs requests ++ writeAddrs later := by
  rw [writeAddrs, List.filter_append, List.map_append, writeAddrs, writeAddrs]

theorem writeData_append (requests later : List (LintRequest idWidth auxWidth)) :
    writeData (requests ++ later) = writeData requests ++ writeData later := by
  rw [writeData, List.filter_append, List.map_append, writeData, writeData]

theorem readAddrs_append (requests later : List (LintRequest idWidth auxWidth)) :
    readAddrs (requests ++ later) = readAddrs requests ++ readAddrs later := by
  rw [readAddrs, List.filter_append, List.map_append, readAddrs, readAddrs]

/-- A grant adds no pair of a request and a response. -/
theorem Answered.zip_granted (answered : log.Answered)
    (later : List (LintRequest idWidth auxWidth)) :
    (log.granted ++ later).zip log.responses = log.granted.zip log.responses := by
  have zipped : (log.granted ++ later).zip (log.responses ++ []) = _ := List.zip_append answered
  rw [List.append_nil, List.zip_nil_right, List.append_nil] at zipped
  exact zipped

/-- The request at the port is the next one presented. -/
theorem Tracks.presented_append (tracks : log.Tracks system) (holds : system.HoldsRequest input) :
    log.presented ++ (cycle system input).presented =
      log.granted ++ if input.dataReq then [input.request] else [] := by
  rw [tracks.presented, cycle]
  cases held : system.held with
  | none => simp
  | some request =>
      obtain ⟨present, same⟩ := holds request held
      simp [present, same]

/-- A transaction is answered with its response. -/
theorem Waits.answer {bridge : Lint2Axi idWidth auxWidth} {we : Bool} (waits : log.Waits bridge we)
    (answered : List.Forall₂ Answers (log.granted.zip log.responses) log.answers)
    (response : AxiResponse) (answer : LintAnswer idWidth auxWidth)
    (answers : ∀ request : LintRequest idWidth auxWidth, request.we = we →
      bridge.rId = request.id → bridge.rAux = request.aux → Answers (request, response) answer) :
    List.Forall₂ Answers (log.granted.zip (log.responses ++ [response]))
        (log.answers ++ [answer]) ∧
      log.granted.length = (log.responses ++ [response]).length := by
  obtain ⟨before, request, granted, length, kind, id, aux⟩ := waits
  rw [granted] at answered ⊢
  rw [List.zip_append length]
  have earlier : (before ++ [request]).zip log.responses = before.zip log.responses := by
    have zipped : (before ++ [request]).zip (log.responses ++ []) = _ := List.zip_append length
    rw [List.append_nil, List.zip_nil_right, List.append_nil] at zipped
    exact zipped
  rw [earlier] at answered
  constructor
  · exact List.rel_append answered (.cons (answers request kind id aux) .nil)
  · rw [List.length_append, List.length_append, length]
    rfl

theorem ite_singleton {Beat : Type} (passes : Bool) (beat : Beat) :
    (if passes then [beat] else []) = List.replicate passes.toNat beat := by
  cases passes <;> rfl

theorem writeAddrs_ite (request : LintRequest idWidth auxWidth) (passes : Bool) :
    writeAddrs (if passes then [request] else []) =
      List.replicate (passes && request.we).toNat request.addrBeat := by
  rw [writeAddrs]
  cases we : request.we <;> cases passes <;> simp [we]

theorem writeData_ite (request : LintRequest idWidth auxWidth) (passes : Bool) :
    writeData (if passes then [request] else []) =
      List.replicate (passes && request.we).toNat request.dataBeat := by
  rw [writeData]
  cases we : request.we <;> cases passes <;> simp [we]

theorem readAddrs_ite (request : LintRequest idWidth auxWidth) (passes : Bool) :
    readAddrs (if passes then [request] else []) =
      if passes && !request.we then [request.addrBeat] else [] := by
  rw [readAddrs]
  cases we : request.we <;> cases passes <;> simp [we]

/-- In a state in which the request is held, the beats that have passed are its own. -/
theorem ahead_eq {Beat : Type} {state ahead : Lint2AxiState}
    {held : Option (LintRequest idWidth auxWidth)} {request : LintRequest idWidth auxWidth}
    {beats : List (LintRequest idWidth auxWidth) → List Beat} {beat : Beat}
    (single : request.we = true → beats [request] = [beat])
    (holds : state = ahead → held = some request ∧ request.we = true) :
    (if state = ahead then beats held.toList else []) =
      List.replicate (state == ahead).toNat beat := by
  by_cases inState : state = ahead
  · obtain ⟨rfl, write⟩ := holds inState
    rw [if_pos inState, beq_iff_eq.2 inState]
    exact single write
  · rw [if_neg inState, beq_eq_false_iff_ne.2 inState]
    rfl

/-- Where the logs stand with the answers, in a state of the bridge. -/
def Stands (log : Lint2AxiLog idWidth auxWidth) (bridge : Lint2Axi idWidth auxWidth) : Prop :=
  match bridge.cs with
  | .writeWait => log.Waits bridge true
  | .readWait => log.Waits bridge false
  | _ => log.Answered

/-- Before the wait for the response a cycle adds a granted request at most. -/
theorem Answered.step (answered : log.Answered)
    (answers : List.Forall₂ Answers (log.granted.zip log.responses) log.answers)
    (passes : system.bridge.Passes input (system.bridge.out input))
    (notWrite : system.bridge.cs ≠ .writeWait) (notRead : system.bridge.cs ≠ .readWait) :
    List.Forall₂ Answers ((log.append (cycle system input)).granted.zip
        (log.append (cycle system input)).responses) (log.append (cycle system input)).answers ∧
      (log.append (cycle system input)).Stands (system.step input).bridge := by
  obtain ⟨noAnswer, noB, noR, nextWrite, nextRead⟩ := passes.before notWrite notRead
  have responses : (log.append (cycle system input)).responses = log.responses := by
    rw [append, cycle, Lint2Axi.bFires, Lint2Axi.rFires, noB, noR, Bool.and_false, Bool.and_false]
    exact List.append_nil _
  have unanswered : (log.append (cycle system input)).answers = log.answers := by
    rw [append, cycle, noAnswer]
    exact List.append_nil _
  have waits (granted : (system.bridge.out input).granted = true) :
      (log.append (cycle system input)).Waits (system.step input).bridge input.request.we := by
    refine ⟨log.granted, input.request, ?_, ?_, rfl, if_pos granted, if_pos granted⟩
    · exact congrArg (log.granted ++ ·) (if_pos granted)
    · rw [responses]
      exact answered
  refine ⟨?_, ?_⟩
  · rw [responses, unanswered]
    change List.Forall₂ _ ((log.granted ++ _).zip _) _
    rw [answered.zip_granted]
    exact answers
  · rw [Stands]
    change match (system.bridge.out input).next with
      | .writeWait => _
      | .readWait => _
      | _ => _
    split
    · next state =>
        obtain ⟨granted, write⟩ := nextWrite.1 state
        rw [← write]
        exact waits granted
    · next state =>
        obtain ⟨granted, read⟩ := nextRead.1 state
        rw [← read]
        exact waits granted
    · next noWrite noRead =>
        have notGranted : (system.bridge.out input).granted = false := by
          cases granted : (system.bridge.out input).granted with
          | false => rfl
          | true =>
              cases we : input.request.we with
              | true => exact absurd (nextWrite.2 ⟨granted, we⟩) noWrite
              | false => exact absurd (nextRead.2 ⟨granted, we⟩) noRead
        rw [Answered, responses, append, cycle, notGranted]
        change (log.granted ++ []).length = _
        rw [List.append_nil]
        exact answered

/-- While a response is waited for, a cycle brings it or changes nothing. -/
theorem Waits.step {we answered : Bool} {response : AxiResponse}
    (waits : log.Waits system.bridge we)
    (answers : List.Forall₂ Answers (log.granted.zip log.responses) log.answers)
    (notGranted : (system.bridge.out input).granted = false)
    (valid : (system.bridge.out input).valid = answered)
    (next : (system.bridge.out input).next =
      if answered then .idle else if we then .writeWait else .readWait)
    (responses : (cycle system input).responses = if answered then [response] else [])
    (fits : answered = true → ∀ request : LintRequest idWidth auxWidth, request.we = we →
      system.bridge.rId = request.id → system.bridge.rAux = request.aux →
        Answers (request, response) (system.bridge.answer input)) :
    List.Forall₂ Answers ((log.append (cycle system input)).granted.zip
        (log.append (cycle system input)).responses) (log.append (cycle system input)).answers ∧
      (log.append (cycle system input)).Stands (system.step input).bridge := by
  have granted : (log.append (cycle system input)).granted = log.granted := by
    rw [append, cycle, notGranted]
    exact List.append_nil _
  have answersNow : (cycle system input).answers =
      if answered then [system.bridge.answer input] else [] := by
    rw [cycle, valid]
  have nextState : (system.step input).bridge.cs = _ := next
  rw [Stands, nextState, granted]
  cases answered with
  | true =>
      have answered :=
        waits.answer answers response (system.bridge.answer input) (fits rfl)
      rw [← granted] at answered ⊢
      rw [append, responses, answersNow]
      exact answered
  | false =>
      have noResponse : (log.append (cycle system input)).responses = log.responses := by
        rw [append, responses]
        exact List.append_nil _
      have noAnswer : (log.append (cycle system input)).answers = log.answers := by
        rw [append, answersNow]
        exact List.append_nil _
      obtain ⟨before, request, last, length, kind, id, aux⟩ := waits
      have still : (log.append (cycle system input)).Waits (system.step input).bridge we := by
        refine ⟨before, request, granted.trans last, ?_, kind, ?_, ?_⟩
        · rw [noResponse]
          exact length
        · exact (if_neg (ne_true_of_eq_false notGranted)).trans id
        · exact (if_neg (ne_true_of_eq_false notGranted)).trans aux
      rw [noResponse, noAnswer]
      refine ⟨answers, ?_⟩
      cases we <;> exact still

theorem Tracks.stands_step (tracks : log.Tracks system)
    (passes : system.bridge.Passes input (system.bridge.out input)) :
    List.Forall₂ Answers ((log.append (cycle system input)).granted.zip
        (log.append (cycle system input)).responses) (log.append (cycle system input)).answers ∧
      (log.append (cycle system input)).Stands (system.step input).bridge := by
  have stands : log.Stands system.bridge := tracks.waiting
  rw [Stands] at stands
  cases state : system.bridge.cs with
  | idle | writeData | writeAddr =>
      rw [state] at stands
      exact Answered.step stands tracks.answered passes (by rw [state]; exact nofun)
        (by rw [state]; exact nofun)
  | writeWait =>
      rw [state] at stands
      have out := @Lint2Axi.out_writeWait _ _ _ input state
      refine @Waits.step _ _ _ _ _ true input.bValid (.b input.bResp) stands
        tracks.answered ?_ ?_ ?_
        ?_ fun answered request kind id aux => ⟨id, aux, kind, ?_⟩
      · rw [out]
        rfl
      · rw [out]
      · rw [out]
        rfl
      · rw [cycle, Lint2Axi.bFires, Lint2Axi.rFires, out]
        cases input.bValid <;> cases input.rValid <;> rfl
      · rw [Lint2Axi.answer, out, answered]
        rfl
  | readWait =>
      rw [state] at stands
      have out := @Lint2Axi.out_readWait _ _ _ input state
      refine @Waits.step _ _ _ _ _ false input.rValid (.r input.rData input.rResp) stands
        tracks.answered ?_ ?_ ?_ ?_ fun answered request kind id aux => ⟨id, aux, kind, rfl, ?_⟩
      · rw [out]
        rfl
      · rw [out]
      · rw [out]
        rfl
      · rw [cycle, Lint2Axi.bFires, Lint2Axi.rFires, out]
        cases input.bValid <;> cases input.rValid <;> rfl
      · rw [Lint2Axi.answer, out, answered]
        rfl

theorem Tracks.step (tracks : log.Tracks system) (holding : system.Holding)
    (holds : system.HoldsRequest input) :
    (log.append (cycle system input)).Tracks (system.step input) := by
  have passes := holding.passes holds
  have requested := holding.requested holds
  have heldNext : ∀ busy : (system.step input).bridge.cs = .writeData ∨
      (system.step input).bridge.cs = .writeAddr,
      (system.step input).held = some input.request ∧ input.request.we = true := by
    intro busy
    obtain ⟨request, notGranted, write⟩ := passes.busy busy
    exact ⟨held_step request notGranted, write⟩
  have addr (write : input.request.we = true) :
      writeAddrs [input.request] = [input.request.addrBeat] := by
    have one := writeAddrs_ite input.request true
    rwa [write] at one
  have data (write : input.request.we = true) :
      writeData [input.request] = [input.request.dataBeat] := by
    have one := writeData_ite input.request true
    rwa [write] at one
  constructor
  · change log.presented ++ (cycle system input).presented =
      (log.granted ++ if _ then _ else _) ++ Option.toList (if _ then _ else _)
    rw [tracks.presented_append holds, List.append_assoc]
    cases granted : (system.bridge.out input).granted with
    | true =>
        rw [passes.granted granted]
        rfl
    | false => cases input.dataReq <;> rfl
  · change log.aw ++ (if system.bridge.awFires input then _ else _) =
      writeAddrs (log.granted ++ if _ then _ else _) ++ _
    rw [tracks.aw, writeAddrs_append, ite_singleton, writeAddrs_ite, List.append_assoc,
      List.append_assoc,
      ahead_eq addr fun state => ⟨(requested (Or.inl state)).1, (requested (Or.inl state)).2.2⟩,
      ahead_eq addr fun state => heldNext (Or.inl state), List.replicate_append_replicate,
      List.replicate_append_replicate]
    exact congrArg (_ ++ List.replicate · _) passes.aw
  · change log.w ++ (if system.bridge.wFires input then _ else _) =
      writeData (log.granted ++ if _ then _ else _) ++ _
    rw [tracks.w, writeData_append, ite_singleton, writeData_ite, List.append_assoc,
      List.append_assoc,
      ahead_eq data fun state => ⟨(requested (Or.inr state)).1, (requested (Or.inr state)).2.2⟩,
      ahead_eq data fun state => heldNext (Or.inr state), List.replicate_append_replicate,
      List.replicate_append_replicate]
    exact congrArg (_ ++ List.replicate · _) passes.w
  · change log.ar ++ (if system.bridge.arFires input then _ else _) =
      readAddrs (log.granted ++ if _ then _ else _)
    rw [tracks.ar, readAddrs_append, readAddrs_ite, Lint2Axi.arFires, passes.ar]
  · exact (tracks.stands_step passes).1
  · exact (tracks.stands_step passes).2

/-- The logs of a state correspond one to one. -/
theorem Tracks.oneToOne (tracks : log.Tracks system) : log.OneToOne := by
  have lengths : log.responses.length ≤ log.granted.length ∧
      log.granted.length ≤ log.responses.length + 1 := by
    have waiting := tracks.waiting
    split at waiting
    · obtain ⟨before, request, granted, length, -⟩ := waiting
      rw [granted, List.length_append, length]
      exact ⟨Nat.le_add_right _ _, Nat.le_refl _⟩
    · obtain ⟨before, request, granted, length, -⟩ := waiting
      rw [granted, List.length_append, length]
      exact ⟨Nat.le_add_right _ _, Nat.le_refl _⟩
    · rw [Answered] at waiting
      rw [waiting]
      exact ⟨Nat.le_refl _, Nat.le_succ _⟩
  refine ⟨⟨_, tracks.presented⟩, ?_, ?_, ?_, ?_, tracks.ar, tracks.answered, lengths.1, lengths.2⟩
  · exact tracks.aw ▸ List.prefix_append ..
  · rw [tracks.aw, tracks.presented, writeAddrs_append]
    split
    · exact List.prefix_refl _
    · rw [List.append_nil]
      exact List.prefix_append ..
  · exact tracks.w ▸ List.prefix_append ..
  · rw [tracks.w, tracks.presented, writeData_append]
    split
    · exact List.prefix_refl _
    · rw [List.append_nil]
      exact List.prefix_append ..

@[simp] theorem ofRun_nil : ofRun ([] : List (Lint2AxiInput idWidth auxWidth)) = empty := rfl

@[simp] theorem ofRun_snoc (inputs : List (Lint2AxiInput idWidth auxWidth))
    (input : Lint2AxiInput idWidth auxWidth) :
    ofRun (inputs ++ [input]) =
      (ofRun inputs).append (cycle ((lint2AxiMachine idWidth auxWidth).run inputs) input) := by
  rw [ofRun, Machine.observed_snoc, List.foldl_append]
  rfl

theorem tracks_reset :
    (empty : Lint2AxiLog idWidth auxWidth).Tracks (lint2AxiMachine idWidth auxWidth).init where
  presented := rfl
  aw := rfl
  w := rfl
  ar := rfl
  answered := .nil
  waiting := rfl

theorem holding_reset : (lint2AxiMachine idWidth auxWidth).init.Holding := by
  constructor <;> simp [lint2AxiMachine, Lint2Axi.reset]

/-- The logs of every run with a master that holds its requests. -/
theorem ofRun_tracks (inputs : List (Lint2AxiInput idWidth auxWidth))
    (holds : (lint2AxiMachine idWidth auxWidth).Always Lint2AxiSystem.HoldsRequest inputs) :
    ((lint2AxiMachine idWidth auxWidth).run inputs).Holding ∧
      (ofRun inputs).Tracks ((lint2AxiMachine idWidth auxWidth).run inputs) := by
  refine Machine.run_induction (motive := fun inputs system =>
    system.Holding ∧ (ofRun inputs).Tracks system) ⟨holding_reset, tracks_reset⟩ ?_ inputs holds
  intro inputs input _ before holds
  rw [ofRun_snoc]
  exact ⟨before.1.step holds, before.2.step before.1 holds⟩

theorem run_counts (inputs : List (Lint2AxiInput idWidth auxWidth)) :
    ((lint2AxiMachine idWidth auxWidth).run inputs).Counts :=
  Machine.run_invariant ⟨rfl, rfl, rfl⟩ (fun _ _ counts => counts.step) inputs

end Lint2AxiLog

section Progress

open Lint2AxiSystem

variable {schedule : Nat → Lint2AxiInput idWidth auxWidth}

@[simp] theorem lint2AxiAt_succ (n : Nat) :
    lint2AxiAt schedule (n + 1) = (lint2AxiAt schedule n).step (schedule n) := by
  rw [lint2AxiAt, inputsUpTo_succ, Machine.run_snoc]
  rfl

@[simp] theorem lint2AxiLogAt_succ (n : Nat) :
    lint2AxiLogAt schedule (n + 1) =
      (lint2AxiLogAt schedule n).append (.cycle (lint2AxiAt schedule n) (schedule n)) := by
  rw [lint2AxiLogAt, inputsUpTo_succ, Lint2AxiLog.ofRun_snoc]
  rfl

/-- The state of the bridge before a cycle. -/
def csAt (schedule : Nat → Lint2AxiInput idWidth auxWidth) (n : Nat) : Lint2AxiState :=
  (lint2AxiAt schedule n).bridge.cs

theorem csAt_succ (n : Nat) :
    csAt schedule (n + 1) = ((lint2AxiAt schedule n).bridge.out (schedule n)).next := by
  rw [csAt, lint2AxiAt_succ]
  rfl

/-- The bridge waits for a response. -/
def WaitsAt (schedule : Nat → Lint2AxiInput idWidth auxWidth) (n : Nat) : Prop :=
  csAt schedule n = .writeWait ∨ csAt schedule n = .readWait

/-- A transaction is answered in a cycle. -/
def AnsweredAt (schedule : Nat → Lint2AxiInput idWidth auxWidth) (n : Nat) : Prop :=
  ((lint2AxiAt schedule n).bridge.out (schedule n)).valid = true

theorem counts_at (n : Nat) : (lint2AxiAt schedule n).Counts := Lint2AxiLog.run_counts _

/-- A write waits for its response until there is one. -/
theorem answered_of_writeWait (responsive : Responsive schedule) {n : Nat}
    (waits : csAt schedule n = .writeWait) : ∃ m ≥ n, AnsweredAt schedule m := by
  obtain ⟨later, after, responds⟩ := responsive.b n
  have goesOn : ∀ m, csAt schedule m = .writeWait →
      ¬((lint2AxiAt schedule m).OwesB → (schedule m).bValid = true) →
      csAt schedule (m + 1) = .writeWait := by
    intro m waits silent
    have quiet : (schedule m).bValid = false := Bool.eq_false_iff.mpr fun valid =>
      silent fun _ => valid
    rw [csAt_succ, Lint2Axi.out_writeWait waits, quiet]
    rfl
  obtain ⟨m, inside, still, responds⟩ :=
    Machine.stays_until _ _ goesOn waits after responds
  have owes : (lint2AxiAt schedule m).OwesB := by
    have counts : (lint2AxiAt schedule m).Counts := counts_at m
    rw [csAt] at still
    simp only [Counts, still] at counts
    exact ⟨counts.1 ▸ Nat.lt_succ_self _, counts.2.1 ▸ Nat.lt_succ_self _⟩
  refine ⟨m, inside, ?_⟩
  rw [AnsweredAt, Lint2Axi.out_writeWait still, responds owes]

theorem answered_of_readWait (responsive : Responsive schedule) {n : Nat}
    (waits : csAt schedule n = .readWait) : ∃ m ≥ n, AnsweredAt schedule m := by
  obtain ⟨later, after, responds⟩ := responsive.r n
  have goesOn : ∀ m, csAt schedule m = .readWait →
      ¬((lint2AxiAt schedule m).OwesR → (schedule m).rValid = true) →
      csAt schedule (m + 1) = .readWait := by
    intro m waits silent
    have quiet : (schedule m).rValid = false := Bool.eq_false_iff.mpr fun valid =>
      silent fun _ => valid
    rw [csAt_succ, Lint2Axi.out_readWait waits, quiet]
    rfl
  obtain ⟨m, inside, still, responds⟩ :=
    Machine.stays_until _ _ goesOn waits after responds
  have owes : (lint2AxiAt schedule m).OwesR := by
    have counts : (lint2AxiAt schedule m).Counts := counts_at m
    rw [csAt] at still
    simp only [Counts, still] at counts
    rw [OwesR, counts.2.2]
    exact Nat.lt_succ_self _
  refine ⟨m, inside, ?_⟩
  rw [AnsweredAt, Lint2Axi.out_readWait still, responds owes]

/-- A write whose data is not taken yet gets through. -/
theorem waits_of_writeData (responsive : Responsive schedule) {n : Nat}
    (waits : csAt schedule n = .writeData) : ∃ m ≥ n, csAt schedule m = .writeWait := by
  obtain ⟨later, after, ready⟩ := responsive.w n
  have goesOn : ∀ m, csAt schedule m = .writeData →
      ¬(((lint2AxiAt schedule m).bridge.out (schedule m)).wValid = true →
        (schedule m).wReady = true) →
      csAt schedule (m + 1) = .writeData := by
    intro m waits refuses
    have busy : (schedule m).wReady = false := Bool.eq_false_iff.mpr fun ready =>
      refuses fun _ => ready
    rw [csAt_succ, Lint2Axi.out_writeData waits, busy]
    rfl
  obtain ⟨m, inside, still, ready⟩ := Machine.stays_until _ _ goesOn waits after ready
  rw [Lint2Axi.out_writeData still] at ready
  refine ⟨m + 1, Nat.le_succ_of_le inside, ?_⟩
  rw [csAt_succ, Lint2Axi.out_writeData still, ready rfl]
  rfl

/-- A write is at the port and its address is not taken yet. -/
def WritesAt (schedule : Nat → Lint2AxiInput idWidth auxWidth) (n : Nat) : Prop :=
  csAt schedule n = .writeAddr ∨
    csAt schedule n = .idle ∧ (schedule n).dataReq = true ∧ (schedule n).request.we = true

/-- A read is at the port. -/
def ReadsAt (schedule : Nat → Lint2AxiInput idWidth auxWidth) (n : Nat) : Prop :=
  csAt schedule n = .idle ∧ (schedule n).dataReq = true ∧ (schedule n).request.we = false

/-- A request that is not granted is presented again. -/
theorem HoldsRequests.next (holds : HoldsRequests schedule) {n : Nat}
    (request : (schedule n).dataReq = true)
    (notGranted : ((lint2AxiAt schedule n).bridge.out (schedule n)).granted = false) :
    (schedule (n + 1)).dataReq = true ∧ (schedule (n + 1)).request = (schedule n).request := by
  apply holds (n + 1)
  rw [lint2AxiAt_succ, Lint2AxiSystem.step, request, notGranted]
  rfl

/-- A write whose address is not taken yet gets through. -/
theorem waits_of_writesAt (holds : HoldsRequests schedule) (responsive : Responsive schedule)
    {n : Nat} (writes : WritesAt schedule n) : ∃ m ≥ n, csAt schedule m = .writeWait := by
  obtain ⟨later, after, ready⟩ := responsive.aw n
  have goesOn : ∀ m, WritesAt schedule m →
      ¬(((lint2AxiAt schedule m).bridge.out (schedule m)).awValid = true →
        (schedule m).awReady = true) →
      WritesAt schedule (m + 1) := by
    intro m writes refuses
    have busy : (schedule m).awReady = false := Bool.eq_false_iff.mpr fun ready =>
      refuses fun _ => ready
    rcases writes with state | ⟨idle, request, write⟩
    · left
      rw [csAt_succ, Lint2Axi.out_writeAddr state, busy]
      rfl
    · have out := Lint2Axi.out_write idle request write
      obtain ⟨requestNext, same⟩ := holds.next request (by rw [out, busy]; rfl)
      cases wReady : (schedule m).wReady with
      | true =>
          left
          rw [csAt_succ, out, busy, wReady]
          rfl
      | false =>
          right
          rw [same, csAt_succ, out, busy, wReady]
          exact ⟨rfl, requestNext, write⟩
  obtain ⟨m, inside, still, ready⟩ := Machine.stays_until _ _ goesOn writes after ready
  rcases still with state | ⟨idle, request, write⟩
  · rw [Lint2Axi.out_writeAddr state] at ready
    refine ⟨m + 1, Nat.le_succ_of_le inside, ?_⟩
    rw [csAt_succ, Lint2Axi.out_writeAddr state, ready rfl]
    rfl
  · have out := Lint2Axi.out_write idle request write
    rw [out] at ready
    cases wReady : (schedule m).wReady with
    | true =>
        refine ⟨m + 1, Nat.le_succ_of_le inside, ?_⟩
        rw [csAt_succ, out, ready rfl, wReady]
        rfl
    | false =>
        have waits : csAt schedule (m + 1) = .writeData := by
          rw [csAt_succ, out, ready rfl, wReady]
          rfl
        obtain ⟨k, beyond, found⟩ := waits_of_writeData responsive waits
        exact ⟨k, Nat.le_trans (Nat.le_succ_of_le inside) beyond, found⟩

/-- A read gets through. -/
theorem waits_of_readsAt (holds : HoldsRequests schedule) (responsive : Responsive schedule)
    {n : Nat} (reads : ReadsAt schedule n) : ∃ m ≥ n, csAt schedule m = .readWait := by
  obtain ⟨later, after, ready⟩ := responsive.ar n
  have goesOn : ∀ m, ReadsAt schedule m →
      ¬(((lint2AxiAt schedule m).bridge.out (schedule m)).arValid = true →
        (schedule m).arReady = true) →
      ReadsAt schedule (m + 1) := by
    intro m reads refuses
    obtain ⟨idle, request, read⟩ := reads
    have busy : (schedule m).arReady = false := Bool.eq_false_iff.mpr fun ready =>
      refuses fun _ => ready
    have out := Lint2Axi.out_read idle request read
    obtain ⟨requestNext, same⟩ := holds.next request (by rw [out, busy])
    rw [ReadsAt, same, csAt_succ, out, busy]
    exact ⟨rfl, requestNext, read⟩
  obtain ⟨m, inside, ⟨idle, request, read⟩, ready⟩ :=
    Machine.stays_until _ _ goesOn reads after ready
  have out := Lint2Axi.out_read idle request read
  rw [out] at ready
  refine ⟨m + 1, Nat.le_succ_of_le inside, ?_⟩
  rw [csAt_succ, out, ready rfl]
  rfl

theorem tracks_at (holds : HoldsRequests schedule) (n : Nat) :
    (lint2AxiAt schedule n).Holding ∧
      (lint2AxiLogAt schedule n).Tracks (lint2AxiAt schedule n) := by
  apply Lint2AxiLog.ofRun_tracks
  induction n with
  | zero => exact Machine.always_nil ..
  | succ n inductionHypothesis =>
      rw [inputsUpTo_succ, Machine.always_snoc]
      exact ⟨inductionHypothesis, holds n⟩

/-- A granted request is answered. -/
theorem answered_of_waits (responsive : Responsive schedule) {n : Nat}
    (waits : WaitsAt schedule n) : ∃ m ≥ n, AnsweredAt schedule m := by
  rcases waits with write | read
  · exact answered_of_writeWait responsive write
  · exact answered_of_readWait responsive read

/-- A presented request is answered. -/
theorem answered_of_held (holds : HoldsRequests schedule) (responsive : Responsive schedule)
    {n : Nat} {request : LintRequest idWidth auxWidth}
    (held : (lint2AxiAt schedule n).held = some request) : ∃ m ≥ n, AnsweredAt schedule m := by
  obtain ⟨present, same⟩ := holds n request held
  have gets : ∃ m ≥ n, WaitsAt schedule m := by
    cases state : csAt schedule n with
    | idle =>
        cases we : (schedule n).request.we with
        | true =>
            obtain ⟨m, inside, waits⟩ :=
              waits_of_writesAt holds responsive (Or.inr ⟨state, present, we⟩)
            exact ⟨m, inside, Or.inl waits⟩
        | false =>
            obtain ⟨m, inside, waits⟩ := waits_of_readsAt holds responsive ⟨state, present, we⟩
            exact ⟨m, inside, Or.inr waits⟩
    | writeData =>
        obtain ⟨m, inside, waits⟩ := waits_of_writeData responsive state
        exact ⟨m, inside, Or.inl waits⟩
    | writeAddr =>
        obtain ⟨m, inside, waits⟩ := waits_of_writesAt holds responsive (Or.inl state)
        exact ⟨m, inside, Or.inl waits⟩
    | writeWait => exact ⟨n, Nat.le_refl n, Or.inl state⟩
    | readWait => exact ⟨n, Nat.le_refl n, Or.inr state⟩
  obtain ⟨m, inside, waits⟩ := gets
  obtain ⟨k, beyond, answered⟩ := answered_of_waits responsive waits
  exact ⟨k, Nat.le_trans inside beyond, answered⟩

/-- As long as not all presented requests are answered, another one will be. -/
theorem answers_grow (holds : HoldsRequests schedule) (responsive : Responsive schedule)
    {n : Nat} (behind : (lint2AxiLogAt schedule n).answers.length <
      (lint2AxiLogAt schedule n).presented.length) :
    ∃ m ≥ n, AnsweredAt schedule m := by
  have tracks := (tracks_at holds n).2
  have answers := tracks.answered.length_eq
  rw [List.length_zip] at answers
  have waiting := tracks.waiting
  cases held : (lint2AxiAt schedule n).held with
  | some request => exact answered_of_held holds responsive held
  | none =>
      rw [tracks.presented, held, Option.toList_none, List.append_nil] at behind
      split at waiting
      · next state => exact answered_of_writeWait responsive state
      · next state => exact answered_of_readWait responsive state
      · rw [Lint2AxiLog.Answered] at waiting
        omega

theorem presented_mono {n m : Nat} (later : n ≤ m) :
    (lint2AxiLogAt schedule n).presented.length ≤ (lint2AxiLogAt schedule m).presented.length := by
  apply monotone_nat_of_le_succ (f := fun n => (lint2AxiLogAt schedule n).presented.length) _ later
  intro n
  rw [lint2AxiLogAt_succ, Lint2AxiLog.append, List.length_append]
  exact Nat.le_add_right _ _

theorem answers_mono {n m : Nat} (later : n ≤ m) :
    (lint2AxiLogAt schedule n).answers.length ≤ (lint2AxiLogAt schedule m).answers.length := by
  apply monotone_nat_of_le_succ (f := fun n => (lint2AxiLogAt schedule n).answers.length) _ later
  intro n
  rw [lint2AxiLogAt_succ, Lint2AxiLog.append, List.length_append]
  exact Nat.le_add_right _ _

/-- As many requests are answered as have been presented. -/
theorem answers_reach (holds : HoldsRequests schedule) (responsive : Responsive schedule)
    (n : Nat) {k : Nat} (presented : k ≤ (lint2AxiLogAt schedule n).presented.length) :
    ∃ m ≥ n, k ≤ (lint2AxiLogAt schedule m).answers.length := by
  induction k with
  | zero => exact ⟨n, Nat.le_refl n, Nat.zero_le _⟩
  | succ k inductionHypothesis =>
      obtain ⟨m, inside, reached⟩ := inductionHypothesis (Nat.le_of_succ_le presented)
      cases Nat.lt_or_ge k (lint2AxiLogAt schedule m).answers.length with
      | inl already => exact ⟨m, inside, already⟩
      | inr notYet =>
          have behind : (lint2AxiLogAt schedule m).answers.length <
              (lint2AxiLogAt schedule m).presented.length :=
            Nat.lt_of_lt_of_le (Nat.lt_of_le_of_lt notYet presented) (presented_mono inside)
          obtain ⟨later, beyond, answered⟩ := answers_grow holds responsive behind
          refine ⟨later + 1, Nat.le_trans inside (Nat.le_succ_of_le beyond), ?_⟩
          have one :
              (Lint2AxiLog.cycle (lint2AxiAt schedule later) (schedule later)).answers.length =
              1 := by
            rw [AnsweredAt] at answered
            simp [Lint2AxiLog.cycle, answered]
          rw [lint2AxiLogAt_succ, Lint2AxiLog.append, List.length_append, one]
          exact Nat.succ_le_succ (Nat.le_trans reached (answers_mono beyond))

/-- With a master that holds its requests, the requests, the AXI transactions and the
answers correspond one to one at any time and a beat that is not taken is kept; when
the slave delays nothing for ever, every presented request is answered. -/
theorem lint2Axi_oneToOne (schedule : Nat → Lint2AxiInput idWidth auxWidth)
    (holds : HoldsRequests schedule) :
    (∀ n, (lint2AxiLogAt schedule n).OneToOne ∧
      (lint2AxiAt schedule n).KeepsBeats (schedule n)) ∧
      (Responsive schedule → ∀ n, ∃ m ≥ n,
        (lint2AxiLogAt schedule n).presented.length ≤
          (lint2AxiLogAt schedule m).answers.length) := by
  constructor
  · intro n
    obtain ⟨holding, tracks⟩ := tracks_at holds n
    exact ⟨tracks.oneToOne, holding.keepsBeats (holds n)⟩
  · intro responsive n
    exact answers_reach holds responsive n (Nat.le_refl _)

end Progress

/-- A cycle in which the slave is ready, without a request or a response. -/
def readyCycle : Lint2AxiInput 1 1 :=
  { dataReq := false
    request := { addr := 0, we := false, wdata := 0, be := 0, id := 0, aux := 0 }
    awReady := true, wReady := true, bValid := false, bResp := 0
    arReady := true, rValid := false, rData := 0, rResp := 0 }

/-- A write whose address is taken before its data, then a read with an error. -/
def writeThenRead : List (Lint2AxiInput 1 1) :=
  let write : LintRequest 1 1 := ⟨0x1C000010, true, 0xCAFE, 0xF, 0, 0⟩
  let read : LintRequest 1 1 := ⟨0x1C000014, false, 0, 0xF, 1, 0⟩
  [{ readyCycle with dataReq := true, request := write, wReady := false },
    { readyCycle with dataReq := true, request := write },
    { readyCycle with bValid := true },
    { readyCycle with dataReq := true, request := read },
    { readyCycle with rValid := true, rData := 0xBEEF, rResp := 0b10 }]

/-- The state stays as the two requests leave it. -/
theorem writeThenRead_rests (n : Nat) :
    lint2AxiAt (thenQuiet writeThenRead readyCycle) n =
      (lint2AxiMachine 1 1).run (writeThenRead.take n) :=
  Machine.run_thenQuiet _ (by decide) n

/-- The two requests are answered. -/
theorem writeThenRead_answered :
    HoldsRequests (thenQuiet writeThenRead readyCycle) ∧
      Responsive (thenQuiet writeThenRead readyCycle) ∧
      ∃ m ≥ 5, (lint2AxiLogAt (thenQuiet writeThenRead readyCycle) 5).presented.length ≤
        (lint2AxiLogAt (thenQuiet writeThenRead readyCycle) m).answers.length := by
  have after : ∀ n, lint2AxiAt (thenQuiet writeThenRead readyCycle) (n + 5) =
      (lint2AxiMachine 1 1).run writeThenRead := by
    intro n
    rw [writeThenRead_rests, List.take_of_length_le (Nat.le_add_left 5 n)]
  have quiet : ∀ n, thenQuiet writeThenRead readyCycle (n + 5) = readyCycle := fun n =>
    thenQuiet_after (Nat.le_add_left 5 n)
  have holds : HoldsRequests (thenQuiet writeThenRead readyCycle) := by
    intro n
    match n with
    | 0 | 1 | 2 | 3 | 4 =>
        rw [writeThenRead_rests]
        decide +kernel
    | n + 5 =>
        rw [after, quiet]
        decide +kernel
  have responsive : Responsive (thenQuiet writeThenRead readyCycle) := by
    constructor <;> intro n <;> refine ⟨n + 5, Nat.le_add_right n 5, ?_⟩ <;>
      rw [after, quiet] <;> decide +kernel
  exact ⟨holds, responsive, (lint2Axi_oneToOne _ holds).2 responsive 5⟩

end CoreVMcu.Interconnect
