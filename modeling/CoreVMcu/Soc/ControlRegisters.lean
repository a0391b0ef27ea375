import CoreVMcu.Clocked.ApbMaster
import CoreVMcu.Soc.ApbSocCtrl

/-!
# The control registers as their accesses leave them

An access reaches the registers at one instant, whatever the other inputs do and however the
edges of the reference clock fall.  So after a run the registers are those that the accesses
leave when they are served one after the other.
-/

namespace CoreVMcu.Soc

open Clocked Apb

/-- An access to the control registers. -/
abbrev CtrlAccess := Access 12 32

/-- An access with its answer. -/
abbrev CtrlAnswer := Answered 12 32

/-- The inputs beside the bus at an instant. -/
structure SocCtrlEnv where
  hclk : Option SocCtrlPins
  refClk : Option Bool

/-- The inputs of an edge of `HCLK`. -/
def SocCtrlPins.withLines (pins : SocCtrlPins) (lines : Lines 12 32) : SocCtrlInput :=
  { pins with
    paddr := lines.access.addr, pwdata := lines.access.data, pwrite := lines.access.write
    psel := lines.psel, penable := lines.penable }

def SocCtrlEnv.edges (env : SocCtrlEnv) (lines : Lines 12 32) : SocCtrlEdges :=
  { hclk := env.hclk.map fun pins => pins.withLines lines, refClk := env.refClk }

/-- `apb_soc_ctrl` as a slave, with the pins that are sampled during reset. -/
def socCtrlSlave (params : SocCtrlParams) (dmactive bootsel : Bool) :
    Slave ApbSocCtrl SocCtrlEnv 12 32 where
  init := .reset dmactive bootsel
  ticks env := env.hclk.isSome
  step ctrl env lines := ctrl.step params (env.edges lines)
  ready := ApbSocCtrl.pready
  rdata := ApbSocCtrl.prdata
  err := ApbSocCtrl.pslverr

abbrev CtrlSystem := System ApbSocCtrl 12 32

/-- The control registers with their master, from reset. -/
abbrev socCtrlMachine (params : SocCtrlParams) (dmactive bootsel : Bool) :=
  machine (socCtrlSlave params dmactive bootsel)

/-- The registers after an access. -/
def CtrlRegs.serve (regs : CtrlRegs) (access : CtrlAccess) : CtrlRegs :=
  if access.write then (regs.write access.addr access.data).getD regs
  else regs.afterRead access.addr

/-- The registers after some accesses, from reset. -/
def regsAfter (answers : List CtrlAnswer) : CtrlRegs :=
  answers.foldl (fun regs answer => regs.serve answer.access) .reset

@[simp] theorem regsAfter_nil : regsAfter [] = .reset := rfl

@[simp] theorem regsAfter_snoc (answers : List CtrlAnswer) (answer : CtrlAnswer) :
    regsAfter (answers ++ [answer]) = (regsAfter answers).serve answer.access := by
  rw [regsAfter, List.foldl_append]
  rfl

/-- An answer is the one that the registers of a state give. -/
def RightAnswer (params : SocCtrlParams) (ctrl : ApbSocCtrl) (answer : CtrlAnswer) : Prop :=
  if answer.access.write then
    answer.err = (ctrl.regs.write answer.access.addr answer.access.data).isNone
  else ∃ pins : SocCtrlPins,
    answer.rdata = ctrl.readData params pins answer.access.addr ∧
      answer.err = ctrl.readErr params pins answer.access.addr

/-- How far the slave is with the access of its master. -/
inductive InStep : Phase 12 32 → ApbSocCtrl → Prop where
  | idle {ctrl : ApbSocCtrl} : ctrl.apbFsm = .idle → ctrl.pready = false → InStep .idle ctrl
  | setup {ctrl : ApbSocCtrl} (access : CtrlAccess) :
      ctrl.apbFsm = .idle → ctrl.pready = false → InStep (.setup access) ctrl
  | waits {ctrl : ApbSocCtrl} (access : CtrlAccess) :
      ctrl.apbFsm = .idle → ctrl.pready = false → InStep (.enable access) ctrl
  | writes {ctrl : ApbSocCtrl} (access : CtrlAccess) :
      ctrl.apbFsm = .write → ctrl.pready = false → ctrl.pslverr = false → access.write = true →
        InStep (.enable access) ctrl
  | reads {ctrl : ApbSocCtrl} (access : CtrlAccess) :
      ctrl.apbFsm = .read → ctrl.pready = false → ctrl.pslverr = false → access.write = false →
        InStep (.enable access) ctrl
  | answers {ctrl : ApbSocCtrl} (access : CtrlAccess) :
      ctrl.apbFsm = .wait → ctrl.pready = true → InStep (.enable access) ctrl

variable {params : SocCtrlParams} {dmactive bootsel : Bool}

/-- The accesses that reached the registers: the one that is being answered did so as well. -/
def performed (params : SocCtrlParams) (dmactive bootsel : Bool) (system : CtrlSystem) :
    List CtrlAnswer :=
  system.done ++ system.answered (socCtrlSlave params dmactive bootsel)

/-- An edge of `HCLK` leaves the access phases as they are, or an access reaches the registers. -/
def Advances (params : SocCtrlParams) (dmactive bootsel : Bool) (system next : CtrlSystem) :
    Prop :=
  (performed params dmactive bootsel next = performed params dmactive bootsel system ∧
      next.slave.regs = system.slave.regs) ∨
    ∃ answer, performed params dmactive bootsel next =
        performed params dmactive bootsel system ++ [answer] ∧
      next.slave.regs = system.slave.regs.serve answer.access ∧
      RightAnswer params system.slave answer

section Step

variable {ctrl : ApbSocCtrl} {done : List CtrlAnswer} {phase : Phase 12 32} {access : CtrlAccess}

/-- An instant without an edge of `HCLK`. -/
theorem InStep.quiet (params : SocCtrlParams) (refClk : Option Bool) (lines : Lines 12 32)
    (inStep : InStep phase ctrl) :
    InStep phase (ctrl.step params (SocCtrlEnv.edges { hclk := none, refClk } lines)) := by
  cases inStep with
  | idle fsm ready => exact .idle fsm ready
  | setup access fsm ready => exact .setup access fsm ready
  | waits access fsm ready => exact .waits access fsm ready
  | writes access fsm ready noErr isWrite => exact .writes access fsm ready noErr isWrite
  | reads access fsm ready noErr isRead => exact .reads access fsm ready noErr isRead
  | answers access fsm ready => exact .answers access fsm ready

/-- The slave after an edge of `HCLK`. -/
def atEdge (params : SocCtrlParams) (ctrl : ApbSocCtrl) (pins : SocCtrlPins)
    (refClk : Option Bool) (lines : Lines 12 32) : ApbSocCtrl :=
  ctrl.step params (SocCtrlEnv.edges { hclk := some pins, refClk } lines)

variable (params) (pins : SocCtrlPins) (refClk : Option Bool)

/-- While no access is enabled the slave rests. -/
theorem atEdge_rests (lines : Lines 12 32) (fsm : ctrl.apbFsm = .idle)
    (notEnabled : (lines.psel && lines.penable) = false) :
    (atEdge params ctrl pins refClk lines).apbFsm = .idle ∧
      (atEdge params ctrl pins refClk lines).pready = false ∧
      (atEdge params ctrl pins refClk lines).regs = ctrl.regs := by
  simp [atEdge, ApbSocCtrl.step, SocCtrlEnv.edges, SocCtrlPins.withLines, ApbSocCtrl.hclkStep,
    fsm, notEnabled, ApbSocCtrl.tick]

/-- The lines of an access that is enabled. -/
def enabled (access : CtrlAccess) : Lines 12 32 := { psel := true, penable := true, access }

/-- An access is taken. -/
theorem atEdge_takes (access : CtrlAccess) (fsm : ctrl.apbFsm = .idle) :
    (atEdge params ctrl pins refClk (enabled access)).apbFsm =
        (if access.write then .write else .read) ∧
      InStep (.enable access) (atEdge params ctrl pins refClk (enabled access)) ∧
      (atEdge params ctrl pins refClk (enabled access)).pready = false ∧
      (atEdge params ctrl pins refClk (enabled access)).regs = ctrl.regs := by
  have step : (atEdge params ctrl pins refClk (enabled access)).apbFsm =
      if access.write then .write else .read := by
    simp [atEdge, enabled, ApbSocCtrl.step, SocCtrlEnv.edges, SocCtrlPins.withLines,
      ApbSocCtrl.hclkStep, fsm]
  have fields : (atEdge params ctrl pins refClk (enabled access)).pready = false ∧
      (atEdge params ctrl pins refClk (enabled access)).pslverr = false ∧
      (atEdge params ctrl pins refClk (enabled access)).regs = ctrl.regs := by
    simp [atEdge, ApbSocCtrl.step, SocCtrlEnv.edges, ApbSocCtrl.hclkStep, fsm, ApbSocCtrl.tick]
  refine ⟨step, ?_, fields.1, fields.2.2⟩
  cases direction : access.write with
  | true =>
      rw [direction] at step
      exact .writes access step fields.1 fields.2.1 direction
  | false =>
      rw [direction] at step
      exact .reads access step fields.1 fields.2.1 direction

/-- The master may begin an access. -/
theorem inStep_between (request : Option CtrlAccess) {next : ApbSocCtrl}
    (fsm : next.apbFsm = .idle) (ready : next.pready = false) :
    InStep (request.elim .idle .setup) next := by
  cases request with
  | none => exact .idle fsm ready
  | some access => exact .setup access fsm ready

/-- An access whose answer is not there. -/
theorem performed_notReady {next : ApbSocCtrl} (ready : next.pready = false) :
    performed params dmactive bootsel { slave := next, phase, done } = done := by
  rw [performed]
  cases phase with
  | idle | setup access => exact List.append_nil done
  | enable access =>
      rw [System.answered]
      simp only [socCtrlSlave, ready, Bool.false_eq_true, if_false, List.append_nil]

/-- An access whose answer is there. -/
theorem performed_ready {next : ApbSocCtrl} (ready : next.pready = true) :
    performed params dmactive bootsel { slave := next, phase := .enable access, done } =
      done ++ [{ access, rdata := next.prdata, err := next.pslverr }] := by
  rw [performed, System.answered]
  simp only [socCtrlSlave, ready, if_true]

theorem atEdge_writes (access : CtrlAccess) (fsm : ctrl.apbFsm = .write)
    (noErr : ctrl.pslverr = false) :
    (atEdge params ctrl pins refClk (enabled access)).apbFsm = .wait ∧
      (atEdge params ctrl pins refClk (enabled access)).pready = true ∧
      (atEdge params ctrl pins refClk (enabled access)).regs =
        (ctrl.regs.write access.addr access.data).getD ctrl.regs ∧
      (atEdge params ctrl pins refClk (enabled access)).pslverr =
        (ctrl.regs.write access.addr access.data).isNone := by
  simp [atEdge, enabled, ApbSocCtrl.step, SocCtrlEnv.edges, SocCtrlPins.withLines,
    ApbSocCtrl.hclkStep, fsm, ApbSocCtrl.doWrite, noErr]

theorem atEdge_reads (access : CtrlAccess) (fsm : ctrl.apbFsm = .read)
    (noErr : ctrl.pslverr = false) :
    (atEdge params ctrl pins refClk (enabled access)).apbFsm = .wait ∧
      (atEdge params ctrl pins refClk (enabled access)).pready = true ∧
      (atEdge params ctrl pins refClk (enabled access)).regs = ctrl.regs.afterRead access.addr ∧
      (atEdge params ctrl pins refClk (enabled access)).prdata =
        ctrl.readData params pins access.addr ∧
      (atEdge params ctrl pins refClk (enabled access)).pslverr =
        ctrl.readErr params pins access.addr := by
  simp [atEdge, enabled, ApbSocCtrl.step, SocCtrlEnv.edges, SocCtrlPins.withLines,
    ApbSocCtrl.hclkStep, fsm, ApbSocCtrl.doRead, noErr]

theorem atEdge_answers (lines : Lines 12 32) (fsm : ctrl.apbFsm = .wait) :
    (atEdge params ctrl pins refClk lines).apbFsm = .idle ∧
      (atEdge params ctrl pins refClk lines).pready = false ∧
      (atEdge params ctrl pins refClk lines).regs = ctrl.regs := by
  simp [atEdge, ApbSocCtrl.step, SocCtrlEnv.edges, ApbSocCtrl.hclkStep, fsm, ApbSocCtrl.tick]

/-! ## One instant -/

variable (dmactive bootsel : Bool) (request : Option CtrlAccess) (resting : Lines 12 32)

/-- An edge of `HCLK` while no access is wanted from the slave. -/
theorem step_idle :
    (socCtrlMachine params dmactive bootsel).step { slave := ctrl, phase := .idle, done }
        { env := { hclk := some pins, refClk }, request, resting } =
      { slave := atEdge params ctrl pins refClk { resting with psel := false }
        phase := request.elim .idle .setup, done := done ++ [] } := rfl

theorem step_setup :
    (socCtrlMachine params dmactive bootsel).step { slave := ctrl, phase := .setup access, done }
        { env := { hclk := some pins, refClk }, request, resting } =
      { slave := atEdge params ctrl pins refClk { psel := true, penable := false, access }
        phase := .enable access, done := done ++ [] } := rfl

theorem step_waits (ready : ctrl.pready = false) :
    (socCtrlMachine params dmactive bootsel).step { slave := ctrl, phase := .enable access, done }
        { env := { hclk := some pins, refClk }, request, resting } =
      { slave := atEdge params ctrl pins refClk (enabled access)
        phase := .enable access, done := done ++ [] } := by
  change System.mk _ (if ctrl.pready then _ else _) (done ++ if ctrl.pready then _ else _) = _
  rw [ready]
  rfl

theorem step_answers (ready : ctrl.pready = true) :
    (socCtrlMachine params dmactive bootsel).step { slave := ctrl, phase := .enable access, done }
        { env := { hclk := some pins, refClk }, request, resting } =
      { slave := atEdge params ctrl pins refClk (enabled access)
        phase := request.elim .idle .setup
        done := done ++ [{ access, rdata := ctrl.prdata, err := ctrl.pslverr }] } := by
  change System.mk _ (if ctrl.pready then _ else _) (done ++ if ctrl.pready then _ else _) = _
  rw [ready]
  rfl

end Step

/-- One instant of the slave with its master. -/
theorem InStep.advances {system : CtrlSystem} (inStep : InStep system.phase system.slave)
    (params : SocCtrlParams) (dmactive bootsel : Bool) (instant : Instant SocCtrlEnv 12 32) :
    InStep ((socCtrlMachine params dmactive bootsel).step system instant).phase
        ((socCtrlMachine params dmactive bootsel).step system instant).slave ∧
      Advances params dmactive bootsel system
        ((socCtrlMachine params dmactive bootsel).step system instant) := by
  rcases system with ⟨ctrl, phase, done⟩
  rcases instant with ⟨⟨hclk, refClk⟩, request, resting⟩
  cases hclk with
  | none => exact ⟨inStep.quiet params refClk _, .inl ⟨rfl, rfl⟩⟩
  | some pins =>
      cases inStep with
      | idle fsm ready =>
          obtain ⟨fsm', ready', regs'⟩ := atEdge_rests params pins refClk
            { resting with psel := false } fsm rfl
          rw [step_idle, Advances, performed_notReady params ready,
            performed_notReady params ready']
          exact ⟨inStep_between request fsm' ready', .inl ⟨List.append_nil done, regs'⟩⟩
      | setup access fsm ready =>
          obtain ⟨fsm', ready', regs'⟩ := atEdge_rests params pins refClk
            { psel := true, penable := false, access } fsm rfl
          rw [step_setup, Advances, performed_notReady params ready,
            performed_notReady params ready']
          exact ⟨.waits access fsm' ready', .inl ⟨List.append_nil done, regs'⟩⟩
      | waits access fsm ready =>
          obtain ⟨-, inStep', ready', regs'⟩ := atEdge_takes params pins refClk access fsm
          rw [step_waits _ _ _ _ _ _ _ ready, Advances, performed_notReady params ready,
            performed_notReady params ready']
          exact ⟨inStep', .inl ⟨List.append_nil done, regs'⟩⟩
      | writes access fsm ready noErr isWrite =>
          obtain ⟨fsm', ready', regs', err'⟩ :=
            atEdge_writes params pins refClk access fsm noErr
          rw [step_waits _ _ _ _ _ _ _ ready, Advances, performed_notReady params ready,
            performed_ready params ready', List.append_nil]
          refine ⟨.answers access fsm' ready', .inr ⟨_, rfl, ?_, ?_⟩⟩
          · rw [CtrlRegs.serve, isWrite]
            exact regs'
          · rw [RightAnswer, isWrite]
            exact err'
      | reads access fsm ready noErr isRead =>
          obtain ⟨fsm', ready', regs', data', err'⟩ :=
            atEdge_reads params pins refClk access fsm noErr
          rw [step_waits _ _ _ _ _ _ _ ready, Advances, performed_notReady params ready,
            performed_ready params ready', List.append_nil]
          refine ⟨.answers access fsm' ready', .inr ⟨_, rfl, ?_, ?_⟩⟩
          · rw [CtrlRegs.serve, isRead]
            exact regs'
          · rw [RightAnswer, isRead]
            exact ⟨pins, data', err'⟩
      | answers access fsm ready =>
          obtain ⟨fsm', ready', regs'⟩ := atEdge_answers params pins refClk
            (enabled access) fsm
          rw [step_answers _ _ _ _ _ _ _ ready, Advances, performed_ready params ready,
            performed_notReady params ready']
          exact ⟨inStep_between request fsm' ready', .inl ⟨rfl, regs'⟩⟩

/-- The registers are those that some accesses leave, and each of these was answered from the
registers that the ones before it left. -/
structure Served (params : SocCtrlParams) (ctrl : ApbSocCtrl) (answers : List CtrlAnswer) :
    Prop where
  regs : ctrl.regs = regsAfter answers
  right : ∀ before answer after, answers = before ++ answer :: after →
    ∃ state : ApbSocCtrl, state.regs = regsAfter before ∧ RightAnswer params state answer

/-- One more access is served. -/
theorem Served.snoc {ctrl next : ApbSocCtrl} {answers : List CtrlAnswer} {answer : CtrlAnswer}
    (served : Served params ctrl answers) (regs : next.regs = ctrl.regs.serve answer.access)
    (right : RightAnswer params ctrl answer) : Served params next (answers ++ [answer]) where
  regs := by rw [regs, served.regs, regsAfter_snoc]
  right := by
    intro before found after split
    cases after using List.reverseRecOn with
    | nil =>
        obtain ⟨same, last⟩ := List.append_inj' split rfl
        cases same
        cases last
        exact ⟨ctrl, served.regs, right⟩
    | append_singleton after last =>
        rw [← List.cons_append, ← List.append_assoc] at split
        exact served.right before found after (List.append_inj' split rfl).1

variable (params dmactive bootsel) in
/-- The slave is in step with its master and serves the accesses one after the other. -/
theorem served_run (instants : List (Instant SocCtrlEnv 12 32)) :
    InStep ((socCtrlMachine params dmactive bootsel).run instants).phase
        ((socCtrlMachine params dmactive bootsel).run instants).slave ∧
      Served params ((socCtrlMachine params dmactive bootsel).run instants).slave
        (performed params dmactive bootsel
          ((socCtrlMachine params dmactive bootsel).run instants)) := by
  induction instants using List.reverseRecOn with
  | nil =>
      refine ⟨.idle rfl rfl, rfl, ?_⟩
      intro before answer after split
      cases before <;> cases split
  | append_singleton instants instant inductionHypothesis =>
      obtain ⟨inStep, served⟩ := inductionHypothesis
      obtain ⟨inStep', advances⟩ := inStep.advances params dmactive bootsel instant
      rw [Machine.run_snoc]
      refine ⟨inStep', ?_⟩
      rcases advances with ⟨same, regs⟩ | ⟨answer, more, regs, right⟩
      · rw [same]
        exact ⟨regs.trans served.regs, served.right⟩
      · rw [more]
        exact served.snoc regs right

/-- An access that was answered was answered from the registers that the ones before it left. -/
theorem done_right (instants : List (Instant SocCtrlEnv 12 32)) {before after : List CtrlAnswer}
    {answer : CtrlAnswer}
    (split : ((socCtrlMachine params dmactive bootsel).run instants).done =
      before ++ answer :: after) :
    ∃ state : ApbSocCtrl, state.regs = regsAfter before ∧ RightAnswer params state answer := by
  obtain ⟨-, served⟩ := served_run params dmactive bootsel instants
  apply served.right before answer
  rw [performed, split, List.append_assoc, List.cons_append]

/-! ## Every access is answered -/

/-- The edges of `HCLK` until an access that is enabled is answered. -/
def ApbFsm.remaining : ApbFsm → Nat
  | .idle => 3
  | .read | .write => 2
  | .wait => 1

/-- The edges of `HCLK` until the access of the master is answered. -/
def remaining (ctrl : ApbSocCtrl) : Phase 12 32 → Nat
  | .idle => 0
  | .setup _ => 4
  | .enable _ => ctrl.apbFsm.remaining

/-- The access that the master presents. -/
def presented : Phase 12 32 → Option CtrlAccess
  | .idle => none
  | .setup access | .enable access => some access

/-- A presented access is answered, at the next edge or later. -/
theorem answered_orNearer {system : CtrlSystem} {access : CtrlAccess}
    (inStep : InStep system.phase system.slave) (wanted : presented system.phase = some access)
    (pins : SocCtrlPins) (refClk : Option Bool) (request : Option CtrlAccess)
    (resting : Lines 12 32) {next : CtrlSystem}
    (step : (socCtrlMachine params dmactive bootsel).step system
      { env := { hclk := some pins, refClk }, request, resting } = next) :
    (∃ answer : CtrlAnswer, answer.access = access ∧ next.done = system.done ++ [answer]) ∨
      (presented next.phase = some access ∧ next.done = system.done ∧
        remaining next.slave next.phase + 1 = remaining system.slave system.phase) := by
  rcases system with ⟨ctrl, phase, done⟩
  cases inStep with
  | idle fsm ready => cases wanted
  | setup access' fsm ready =>
      cases wanted
      obtain ⟨fsm', -, -⟩ := atEdge_rests params pins refClk
        { psel := true, penable := false, access } fsm rfl
      rw [step_setup] at step
      cases step
      refine .inr ⟨rfl, List.append_nil done, ?_⟩
      change ApbFsm.remaining _ + 1 = 4
      rw [fsm']
      rfl
  | waits access' fsm ready =>
      cases wanted
      obtain ⟨fsm', -⟩ := atEdge_takes params pins refClk access fsm
      rw [step_waits _ _ _ _ _ _ _ ready] at step
      cases step
      refine .inr ⟨rfl, List.append_nil done, ?_⟩
      change ApbFsm.remaining _ + 1 = ctrl.apbFsm.remaining
      rw [fsm', fsm]
      cases access.write <;> rfl
  | writes access' fsm ready noErr isWrite =>
      cases wanted
      obtain ⟨fsm', -⟩ := atEdge_writes params pins refClk access fsm noErr
      rw [step_waits _ _ _ _ _ _ _ ready] at step
      cases step
      refine .inr ⟨rfl, List.append_nil done, ?_⟩
      change ApbFsm.remaining _ + 1 = ctrl.apbFsm.remaining
      rw [fsm', fsm]
      rfl
  | reads access' fsm ready noErr isRead =>
      cases wanted
      obtain ⟨fsm', -⟩ := atEdge_reads params pins refClk access fsm noErr
      rw [step_waits _ _ _ _ _ _ _ ready] at step
      cases step
      refine .inr ⟨rfl, List.append_nil done, ?_⟩
      change ApbFsm.remaining _ + 1 = ctrl.apbFsm.remaining
      rw [fsm', fsm]
      rfl
  | answers access' fsm ready =>
      cases wanted
      rw [step_answers _ _ _ _ _ _ _ ready] at step
      cases step
      exact .inl ⟨_, rfl, rfl⟩

/-- A presented access is answered within its remaining edges of `HCLK`. -/
theorem answered_within {system : CtrlSystem} {access : CtrlAccess}
    (inStep : InStep system.phase system.slave) (wanted : presented system.phase = some access)
    (instants : List (Instant SocCtrlEnv 12 32))
    (enough : remaining system.slave system.phase ≤
      instants.countP fun instant => instant.env.hclk.isSome) :
    ∃ answer : CtrlAnswer, answer.access = access ∧
      system.done ++ [answer] <+:
        ((socCtrlMachine params dmactive bootsel).runFrom system instants).done := by
  induction instants generalizing system with
  | nil =>
      rcases system with ⟨ctrl, phase, done⟩
      cases phase with
      | idle => cases wanted
      | setup access => cases enough
      | enable access =>
          rw [List.countP_nil, remaining] at enough
          cases fsm : ctrl.apbFsm <;> rw [fsm] at enough <;> cases enough
  | cons instant instants inductionHypothesis =>
      rcases instant with ⟨⟨hclk, refClk⟩, request, resting⟩
      obtain ⟨inStep', -⟩ := inStep.advances params dmactive bootsel
        ⟨⟨hclk, refClk⟩, request, resting⟩
      rw [Machine.runFrom_cons]
      cases hclk with
      | none =>
          rw [List.countP_cons_of_neg Bool.false_ne_true] at enough
          exact inductionHypothesis inStep' wanted enough
      | some pins =>
          rw [List.countP_cons_of_pos rfl] at enough
          rcases answered_orNearer inStep wanted pins refClk request resting rfl with
            ⟨answer, same, done⟩ | ⟨wanted', done, nearer⟩
          · refine ⟨answer, same, ?_⟩
            rw [← done]
            exact done_runFrom _ instants
          · rw [← done]
            rw [← nearer] at enough
            exact inductionHypothesis inStep' wanted' (Nat.le_of_succ_le_succ enough)

end CoreVMcu.Soc
