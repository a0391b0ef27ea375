import CoreVMcu.Spi.ReplayRun

/-!
# When a repeat block is executed as often as it says

Whatever the interpreter waits for comes some time, so a run goes on until the
commands behind the loop are executed.  By then the first command of the body has
been executed once more than the block says, except after a matched check.
-/

namespace CoreVMcu.Spi

open Clocked CoreVMcu.Udma

/-! ## The counter of the waits -/

namespace SpimCtrl

variable {ctrl : SpimCtrl} {input : CtrlInput}

/-- The counter runs during a wait for cycles. -/
def Counts (ctrl : SpimCtrl) : Prop := ctrl.state = .waitCycle → ctrl.cntRunning = true

theorem step_cntRunning :
    (ctrl.step input).cntRunning =
      if ctrl.cntRunning then !(ctrl.cntDone && !(ctrl.signals input).cntStart)
      else (ctrl.signals input).cntStart := rfl

theorem step_counts (counts : ctrl.Counts) : (ctrl.step input).Counts := by
  intro next
  change (ctrl.signals input).stateNext = .waitCycle at next
  have started : (ctrl.signals input).cntStart = true → (ctrl.step input).cntRunning = true := by
    intro starts
    rw [step_cntRunning, starts]
    cases ctrl.cntRunning <;> simp
  cases state : ctrl.state with
  | idle =>
      apply started
      simp only [signals, state, idle] at next ⊢
      split at next
      · next available =>
          rw [if_pos available]
          cases isRpt : decide (spiCmd (ctrl.word input) = some .rpt) with
          | true =>
              rw [execute, of_decide_eq_true isRpt] at next
              cases next
          | false =>
              have leads := execute_leadsTo (of_decide_eq_false isRpt)
                ((taken_stateNext ctrl).trans state)
              exact leads.counts next
      · rw [show ctrl.defaults.stateNext = .idle from state] at next
        cases next
  | waitCycle =>
      rw [step_cntRunning, counts state, if_pos rfl]
      simp only [signals, state] at next
      split at next
      · cases next
      · next running => simp [running]
  | doRepeat =>
      simp only [signals, state, doRepeat] at next
      split at next
      · split at next
        · cases next
        · rw [show ctrl.defaults.stateNext = .doRepeat from state] at next
          cases next
      · rw [show ctrl.defaults.stateNext = .doRepeat from state] at next
        cases next
  | waitDone =>
      simp only [signals, state, waitDone] at next
      split at next
      · cases next
      · rw [show ctrl.defaults.stateNext = .waitDone from state] at next
        cases next
  | waitCheck =>
      simp only [signals, state, waitCheck] at next
      split at next
      · cases next
      · rw [show ctrl.defaults.stateNext = .waitCheck from state] at next
        cases next
  | waitEvent =>
      simp only [signals, state] at next
      split at next
      · cases next
      · rw [show ctrl.defaults.stateNext = .waitEvent from state] at next
        cases next
  | clearCs =>
      simp only [signals, state] at next
      cases next

/-- The wait for cycles ends when the counter has reached its target, and comes closer
to its end otherwise. -/
theorem step_waitCycle (state : ctrl.state = .waitCycle) (running : ctrl.cntRunning = true)
    (input : CtrlInput) :
    (ctrl.step input).state = .idle ∨
      (ctrl.step input).state = .waitCycle ∧
        ((ctrl.step input).cntTarget - (ctrl.step input).cnt).toNat + 1 =
          (ctrl.cntTarget - ctrl.cnt).toNat := by
  cases done : ctrl.cntDone with
  | true =>
      left
      simp only [step, signals, state, done, if_true]
  | false =>
      right
      have signals : ctrl.signals input = ctrl.defaults := by
        simp [SpimCtrl.signals, state, done]
      have notReached : ctrl.cntTarget ≠ ctrl.cnt := by
        intro reached
        simp [cntDone, running, reached] at done
      rw [step, signals]
      refine ⟨state, ?_⟩
      simp only [running, done, if_true]
      change (ctrl.cntTarget - (ctrl.cnt + 1)).toNat + 1 = _
      have different : ctrl.cntTarget.toNat ≠ ctrl.cnt.toNat :=
        fun same => notReached (BitVec.eq_of_toNat_eq same)
      have one : (1 : BitVec 8).toNat = 1 := rfl
      have bounded := ctrl.cnt.isLt
      have targetBounded := ctrl.cntTarget.isLt
      rw [BitVec.toNat_sub, BitVec.toNat_sub, BitVec.toNat_add, one]
      omega

/-- What the interpreter waits for, other than a command or the counter, is there. -/
def comes (ctrl : SpimCtrl) (input : CtrlInput) : Bool :=
  match ctrl.state with
  | .waitDone => ctrl.done input
  | .waitCheck => input.rxDone
  | .waitEvent => ctrl.event input
  | .clearCs => true
  | _ => false

theorem step_comes (busy : ctrl.busy = true) (notCounting : ctrl.state ≠ .waitCycle) :
    (ctrl.step input).state = if ctrl.comes input then .idle else ctrl.state := by
  change (ctrl.signals input).stateNext = _
  cases state : ctrl.state with
  | idle | doRepeat => simp [SpimCtrl.busy, state] at busy
  | waitCycle => exact absurd state notCounting
  | waitDone =>
      simp only [signals, state, waitDone, comes]
      split
      · rfl
      · exact state
  | waitCheck =>
      simp only [signals, state, waitCheck, comes]
      split
      · rfl
      · exact state
  | waitEvent =>
      simp only [signals, state, comes]
      split
      · rfl
      · exact state
  | clearCs => rw [signals, comes, state]; rfl

end SpimCtrl

/-! ## A run goes on -/

section Progress

variable {start : SpimCtrl} {schedule : Nat → CtrlInput} {block : RepeatBlock}

theorem stateAt_succ (n : Nat) :
    stateAt start schedule (n + 1) = (stateAt start schedule n).step (schedule n) := by
  rw [stateAt, inputsUpTo_succ, Machine.run_snoc]
  rfl

theorem phase_run (state : start.state = .idle) (noReplay : start.isReplay = false)
    (presents : Presents start schedule block.stream) (n : Nat) :
    LoopPhase block start.chkResult (stateAt start schedule n) (consumedBefore start schedule n)
      (executedBefore start schedule n) := by
  induction n with
  | zero => exact .starting state noReplay rfl
  | succ n inductionHypothesis =>
      have next := inductionHypothesis.step (presents.inOrder n)
      rw [stateAt_succ, consumedBefore, executedBefore, inputsUpTo_succ, Machine.observed_snoc,
        Machine.observed_snoc]
      exact next

theorem counts_run (state : start.state = .idle) (n : Nat) :
    (stateAt start schedule n).Counts := by
  induction n with
  | zero =>
      intro waits
      rw [show (stateAt start schedule 0).state = .idle from state] at waits
      cases waits
  | succ n inductionHypothesis =>
      rw [stateAt_succ]
      exact SpimCtrl.step_counts inductionHypothesis

/-- A command that is being executed is over some time. -/
theorem leaves_busy (state : start.state = .idle)
    (presents : Presents start schedule block.stream) {n : Nat}
    (busy : (stateAt start schedule n).busy = true) :
    ∃ m, n ≤ m ∧ (stateAt start schedule m).state = .idle := by
  by_cases counting : (stateAt start schedule n).state = .waitCycle
  · -- the distance of the counter to its target
    generalize distance : ((stateAt start schedule n).cntTarget -
      (stateAt start schedule n).cnt).toNat = d
    induction d generalizing n with
    | zero =>
        rcases SpimCtrl.step_waitCycle counting (counts_run state n counting) (schedule n) with
          ended | ⟨-, closer⟩
        · exact ⟨n + 1, Nat.le_succ n, by rw [stateAt_succ]; exact ended⟩
        · omega
    | succ d inductionHypothesis =>
        rcases SpimCtrl.step_waitCycle counting (counts_run state n counting) (schedule n) with
          ended | ⟨goesOn, closer⟩
        · exact ⟨n + 1, Nat.le_succ n, by rw [stateAt_succ]; exact ended⟩
        · rw [← stateAt_succ] at goesOn closer
          have stillBusy : (stateAt start schedule (n + 1)).busy = true := by
            rw [SpimCtrl.busy, goesOn]
          obtain ⟨m, later, ended⟩ := inductionHypothesis stillBusy goesOn (by omega)
          exact ⟨m, Nat.le_of_succ_le later, ended⟩
  · have comesSomeTime : ∃ k, n ≤ k ∧
        ((stateAt start schedule k).state = (stateAt start schedule n).state →
          (stateAt start schedule k).comes (schedule k) = true) := by
      cases waits : (stateAt start schedule n).state with
      | idle | doRepeat => simp [SpimCtrl.busy, waits] at busy
      | waitCycle => exact absurd waits counting
      | waitDone =>
          obtain ⟨k, later, done⟩ := presents.completes n waits
          exact ⟨k, later, fun same => by rw [SpimCtrl.comes, same]; exact done⟩
      | waitCheck =>
          obtain ⟨k, later, done⟩ := presents.checks n waits
          exact ⟨k, later, fun same => by rw [SpimCtrl.comes, same]; exact done⟩
      | waitEvent =>
          obtain ⟨k, later, happens⟩ := presents.happens n waits
          exact ⟨k, later, fun same => by rw [SpimCtrl.comes, same]; exact happens⟩
      | clearCs => exact ⟨n, Nat.le_refl n, fun same => by rw [SpimCtrl.comes, same]⟩
    obtain ⟨k, later, comes⟩ := comesSomeTime
    have busyHere : ∀ j, (stateAt start schedule j).state = (stateAt start schedule n).state →
        (stateAt start schedule j).busy = true ∧
          (stateAt start schedule j).state ≠ .waitCycle := by
      intro j same
      rw [SpimCtrl.busy, same]
      exact ⟨busy, counting⟩
    have goesOn : ∀ j, (stateAt start schedule j).state = (stateAt start schedule n).state →
        ¬((stateAt start schedule j).state = (stateAt start schedule n).state →
          (stateAt start schedule j).comes (schedule j) = true) →
        (stateAt start schedule (j + 1)).state = (stateAt start schedule n).state := by
      intro j same notYet
      rw [stateAt_succ, SpimCtrl.step_comes (busyHere j same).1 (busyHere j same).2,
        if_neg (fun there => notYet fun _ => there)]
      exact same
    obtain ⟨m, after, same, condition⟩ := Machine.stays_until _ _ goesOn rfl later comes
    refine ⟨m + 1, Nat.le_succ_of_le after, ?_⟩
    rw [stateAt_succ, SpimCtrl.step_comes (busyHere m same).1 (busyHere m same).2,
      if_pos (condition same)]

/-- An interpreter that is ready for a command is given it some time. -/
theorem takes_next (presents : Presents start schedule block.stream) {n : Nat}
    (takes : (stateAt start schedule n).takesCommand = true)
    (more : (consumedBefore start schedule n).length < block.stream.length) :
    ∃ m, n ≤ m ∧
      (consumedBefore start schedule n).length <
        (consumedBefore start schedule (m + 1)).length := by
  obtain ⟨k, later, valid⟩ := presents.offers n takes more
  have goesOn : ∀ j, (stateAt start schedule j).takesCommand = true →
      ¬(schedule j).udmaCmdValid = true → (stateAt start schedule (j + 1)).takesCommand = true := by
    intro j takesNow notYet
    rw [Bool.not_eq_true] at notYet
    have waits : (stateAt start schedule j).state = .idle ∧
          (stateAt start schedule j).cmdAvailable (schedule j) = false ∨
        (stateAt start schedule j).state = .doRepeat ∧ (schedule j).udmaCmdValid = false := by
      cases state : (stateAt start schedule j).state with
      | idle =>
          rw [SpimCtrl.takesCommand, state, Bool.not_eq_true'] at takesNow
          exact Or.inl ⟨rfl, (cmdAvailable_stream takesNow).trans notYet⟩
      | doRepeat => exact Or.inr ⟨rfl, notYet⟩
      | _ => simp [SpimCtrl.takesCommand, state] at takesNow
    obtain ⟨same, sameState, -⟩ := SpimCtrl.step_waiting waits
    rw [stateAt_succ, SpimCtrl.takesCommand, sameState, same.isReplay]
    exact takesNow
  obtain ⟨m, after, takesThen, validThen⟩ := Machine.stays_until _ _ goesOn takes later valid
  refine ⟨m, after, ?_⟩
  have grown := ((spimCtrlFrom start).observed_inputsUpTo_mono SpimCtrl.consumedCmd schedule
    after).length_le
  have taken : (consumedBefore start schedule (m + 1)).length =
      (consumedBefore start schedule m).length + 1 := by
    rw [consumedBefore, inputsUpTo_succ, Machine.observed_snoc, SpimCtrl.consumedCmd_eq,
      show ((spimCtrlFrom start).run _).takesCommand = true from takesThen, validThen,
      List.length_append]
    rfl
  rw [taken]
  exact Nat.lt_succ_of_le grown

/-- How far a run is. -/
def progress (start : SpimCtrl) (schedule : Nat → CtrlInput) (n : Nat) : Nat :=
  (consumedBefore start schedule n).length + (executedBefore start schedule n).length

theorem progress_mono {n m : Nat} (earlier : n ≤ m) :
    progress start schedule n ≤ progress start schedule m :=
  Nat.add_le_add
    ((spimCtrlFrom start).observed_inputsUpTo_mono SpimCtrl.consumedCmd schedule
      earlier).length_le
    ((spimCtrlFrom start).observed_inputsUpTo_mono SpimCtrl.executedCmd schedule
      earlier).length_le

/-- Everything of the stream has been executed. -/
def Finished (start : SpimCtrl) (schedule : Nat → CtrlInput) (block : RepeatBlock) (n : Nat) :
    Prop :=
  ∃ loop, LeftWith block start.chkResult loop ∧
    executedBefore start schedule n = loop ++ block.after

/-- A run that is not busy goes on unless it is finished. -/
theorem goes_on_of_not_busy (state : start.state = .idle) (noReplay : start.isReplay = false)
    (presents : Presents start schedule block.stream) {n : Nat}
    (notBusy : (stateAt start schedule n).busy = false) :
    Finished start schedule block n ∨
      ∃ m, progress start schedule n < progress start schedule m := by
  have taken : (stateAt start schedule n).takesCommand = true →
      (consumedBefore start schedule n).length < block.stream.length →
      ∃ m, progress start schedule n < progress start schedule m := by
    intro takes more
    obtain ⟨m, later, longer⟩ := takes_next presents takes more
    refine ⟨m + 1, Nat.add_lt_add_of_lt_of_le longer ?_⟩
    exact ((spimCtrlFrom start).observed_inputsUpTo_mono SpimCtrl.executedCmd schedule
      (Nat.le_succ_of_le later)).length_le
  have phase := phase_run state noReplay presents n
  generalize consumedIs : consumedBefore start schedule n = consumed at phase taken
  generalize executedIs : executedBefore start schedule n = executed at phase
  cases phase with
  | starting idle notReplaying result =>
      right
      apply taken
      · rw [SpimCtrl.takesCommand, idle, notReplaying]
        rfl
      · simp [RepeatBlock.stream]
  | recording recorded rest split repeats notReplaying result count first buffer =>
      right
      apply taken
      · rw [SpimCtrl.takesCommand, repeats]
      · simp only [RepeatBlock.stream, split, List.length_cons, List.length_append]
        omega
  | replaying queue executed notRepeat replays result buffer known turn =>
      right
      have idle : (stateAt start schedule n).state = .idle := by
        revert notBusy notRepeat
        rw [SpimCtrl.busy]
        cases (stateAt start schedule n).state <;> simp
      obtain ⟨⟨first, word⟩, rest, rfl⟩ := List.exists_cons_of_ne_nil turn.nonempty
      have notRpt := (block.bodyCmd word (known (first, word) (List.mem_cons_self ..))).1
      have isWord : (stateAt start schedule n).word (schedule n) = word := by
        rw [SpimCtrl.word, replays, if_pos rfl, buffer.data_eq]
      have wordExecuted : (stateAt start schedule n).executedCmd (schedule n) = [word] := by
        rw [SpimCtrl.executedCmd, isWord, SpimCtrl.cmdAvailable, replays, if_pos rfl,
          buffer.valid_eq]
        exact if_pos ⟨idle, rfl, notRpt⟩
      refine ⟨n + 1, Nat.add_lt_add_of_le_of_lt ?_ ?_⟩
      · exact ((spimCtrlFrom start).observed_inputsUpTo_mono SpimCtrl.consumedCmd schedule
          (Nat.le_succ n)).length_le
      · rw [executedBefore, executedBefore, inputsUpTo_succ, Machine.observed_snoc,
          List.length_append]
        change _ < _ + ((stateAt start schedule n).executedCmd (schedule n)).length
        rw [wordExecuted]
        exact Nat.lt_succ_self _
  | left loop done rest split notRepeat notReplaying leftWith =>
      have idle : (stateAt start schedule n).state = .idle := by
        revert notBusy notRepeat
        rw [SpimCtrl.busy]
        cases (stateAt start schedule n).state <;> simp
      cases rest with
      | nil =>
          rw [List.append_nil] at split
          exact Or.inl ⟨loop, leftWith, by rw [executedIs, split]⟩
      | cons word rest =>
          right
          apply taken
          · rw [SpimCtrl.takesCommand, idle, notReplaying]
            rfl
          · simp only [RepeatBlock.stream, split, List.length_cons, List.length_append]
            omega

/-- A run goes on until it is finished. -/
theorem goes_on (state : start.state = .idle) (noReplay : start.isReplay = false)
    (presents : Presents start schedule block.stream) (k : Nat) :
    ∃ n, Finished start schedule block n ∨ k ≤ progress start schedule n := by
  induction k with
  | zero => exact ⟨0, Or.inr (Nat.zero_le _)⟩
  | succ k inductionHypothesis =>
      obtain ⟨n, finished | far⟩ := inductionHypothesis
      · exact ⟨n, Or.inl finished⟩
      · have rested : ∃ m, n ≤ m ∧ (stateAt start schedule m).busy = false := by
          cases busy : (stateAt start schedule n).busy with
          | false => exact ⟨n, Nat.le_refl n, busy⟩
          | true =>
              obtain ⟨m, later, idle⟩ := leaves_busy state presents busy
              exact ⟨m, later, by rw [SpimCtrl.busy, idle]⟩
        obtain ⟨m, later, notBusy⟩ := rested
        have before : progress start schedule n ≤ progress start schedule m := progress_mono later
        rcases goes_on_of_not_busy state noReplay presents notBusy with finished | ⟨next, farther⟩
        · exact ⟨m, Or.inl finished⟩
        · exact ⟨next, Or.inr (by omega)⟩

theorem length_consumed_le (state : start.state = .idle) (noReplay : start.isReplay = false)
    (presents : Presents start schedule block.stream) (n : Nat) :
    (consumedBefore start schedule n).length ≤ block.stream.length := by
  have phase := phase_run state noReplay presents n
  generalize consumedBefore start schedule n = consumed at phase
  generalize executedBefore start schedule n = executed at phase
  cases phase with
  | starting => exact Nat.zero_le _
  | recording recorded rest split =>
      simp only [RepeatBlock.stream, split, List.length_cons, List.length_append]
      omega
  | replaying =>
      simp only [RepeatBlock.stream, List.length_cons, List.length_append, List.length_nil]
      omega
  | left loop done rest split =>
      simp only [RepeatBlock.stream, split, List.length_cons, List.length_append]
      omega

/-- After a matched check the loop is left at its first command. -/
theorem executed_of_checked (state : start.state = .idle) (noReplay : start.isReplay = false)
    (presents : Presents start schedule block.stream) (checked : start.chkResult = true) (n : Nat) :
    executedBefore start schedule n <+: block.body.take 1 ++ block.after := by
  have phase := phase_run state noReplay presents n
  generalize executedBefore start schedule n = executed at phase
  generalize consumedBefore start schedule n = consumed at phase
  cases phase with
  | starting | recording => exact List.nil_prefix
  | replaying queue executed notRepeat replays result buffer known turn =>
      cases turn with
      | first => exact List.nil_prefix
      | turning before after executed word unchecked => rw [checked] at unchecked; cases unchecked
      | lost rest executed unchecked => rw [checked] at unchecked; cases unchecked
  | left loop done rest split notRepeat notReplaying leftWith =>
      rw [LeftWith, checked, if_pos rfl] at leftWith
      rw [leftWith, split]
      exact (List.prefix_append_right_inj _).mpr (List.prefix_append ..)

/-- Without a matched check more is executed than is expected, some time. -/
theorem executed_of_unchecked (state : start.state = .idle) (noReplay : start.isReplay = false)
    (presents : Presents start schedule block.stream) (unchecked : start.chkResult = false) :
    ∃ n, block.expected.length < (executedBefore start schedule n).length := by
  obtain ⟨n, ⟨loop, leftWith, executed⟩ | far⟩ :=
    goes_on state noReplay presents (block.stream.length + block.expected.length + 1)
  · refine ⟨n, ?_⟩
    rw [LeftWith, unchecked, if_neg Bool.false_ne_true] at leftWith
    rw [executed, block.length_expected, List.length_append, leftWith]
    omega
  · have bounded := length_consumed_le state noReplay presents n
    refine ⟨n, ?_⟩
    rw [progress] at far
    omega

/-- After a matched check everything that is executed has been some time. -/
theorem finished_of_checked (state : start.state = .idle) (noReplay : start.isReplay = false)
    (presents : Presents start schedule block.stream) (checked : start.chkResult = true) :
    ∃ n, executedBefore start schedule n = block.body.take 1 ++ block.after := by
  obtain ⟨n, ⟨loop, leftWith, executed⟩ | far⟩ := goes_on state noReplay presents
    (block.stream.length + (block.body.take 1 ++ block.after).length)
  · rw [LeftWith, checked, if_pos rfl] at leftWith
    exact ⟨n, by rw [executed, leftWith]⟩
  · refine ⟨n, (executed_of_checked state noReplay presents checked n).eq_of_length_le ?_⟩
    have bounded := length_consumed_le state noReplay presents n
    rw [progress] at far
    omega

end Progress

/-- For every block, whatever the commands wait for and however long: the block is
executed as often as it says exactly when a check has matched before and the block
asks for a single execution of a single command. -/
theorem spimCtrl_repeats_iff (start : SpimCtrl) (schedule : Nat → CtrlInput)
    (block : RepeatBlock) (state : start.state = .idle) (noReplay : start.isReplay = false)
    (presents : Presents start schedule block.stream) :
    Repeats start schedule block ↔
      start.chkResult = true ∧ block.times = 1 ∧ block.body.length = 1 := by
  have times := block.times_pos
  have length : 0 < block.body.length := List.length_pos_of_ne_nil block.nonempty
  constructor
  · intro repeats
    cases checked : start.chkResult with
    | false =>
        obtain ⟨n, tooMany⟩ := executed_of_unchecked state noReplay presents checked
        have atMost := (repeats.inOrder n).length_le
        omega
    | true =>
        obtain ⟨n, all⟩ := repeats.allOfThem
        have atMost := (executed_of_checked state noReplay presents checked n).length_le
        rw [all, block.length_expected, List.length_append, List.length_take] at atMost
        have single : block.times * block.body.length ≤ 1 := by omega
        have both : block.times * block.body.length = 1 :=
          Nat.le_antisymm single (Nat.mul_pos times length)
        exact ⟨rfl, Nat.eq_one_of_mul_eq_one_right both, Nat.eq_one_of_mul_eq_one_left both⟩
  · rintro ⟨checked, once, one⟩
    have expected : block.expected = block.body.take 1 ++ block.after := by
      rw [RepeatBlock.expected, once, List.take_of_length_le (Nat.le_of_eq one)]
      simp
    constructor
    · intro n
      rw [expected]
      exact executed_of_checked state noReplay presents checked n
    · rw [expected]
      exact finished_of_checked state noReplay presents checked

/-- A block that is to raise the end-of-transmission event once. -/
def oneEvent : RepeatBlock where
  rpt := 0x80000001
  body := [0x90000003]
  rptEnd := 0xA0000000
  after := []
  isRpt := by decide
  counts := by decide
  nonempty := by decide
  fits := by decide
  bodyCmd := by
    intro word member
    rw [List.mem_singleton.mp member]
    decide
  isEnd := by decide
  afterCmd := nofun

/-- A cycle with a command, or none. -/
def commandInput (cmd : Option (BitVec 32)) : CtrlInput :=
  { event := 0, udmaCmd := cmd.getD 0, udmaCmdValid := cmd.isSome, udmaTxData := 0
    udmaTxDataValid := false, udmaRxDataReady := true, txDone := false, txDataReady := false
    rxDone := false, rxData := 0, rxDataValid := false }

/-- The commands of the block one after the other. -/
def oneEventSchedule : Nat → CtrlInput :=
  thenQuiet (oneEvent.stream.map fun cmd => commandInput (some cmd)) (commandInput none)

/-- After five cycles the interpreter is idle for ever. -/
theorem oneEvent_rests (n : Nat) :
    (stateAt .reset oneEventSchedule (n + 5)).state = .idle ∧
      (stateAt .reset oneEventSchedule (n + 5)).isReplay = false ∧
      (consumedBefore .reset oneEventSchedule (n + 5)).length = 3 := by
  induction n with
  | zero => decide
  | succ n inductionHypothesis =>
      obtain ⟨state, noReplay, consumed⟩ := inductionHypothesis
      have quiet : oneEventSchedule (n + 5) = commandInput none :=
        thenQuiet_after (Nat.le_add_left 3 (n + 2))
      obtain ⟨same, sameState, -⟩ := SpimCtrl.step_waiting
        (Or.inl ⟨state, (cmdAvailable_stream noReplay).trans (congrArg _ quiet)⟩)
      rw [Nat.add_right_comm, stateAt_succ, sameState, same.isReplay, consumedBefore,
        inputsUpTo_succ, Machine.observed_snoc, SpimCtrl.consumedCmd_eq, quiet,
        show (commandInput none).udmaCmdValid = false from rfl, Bool.and_false,
        if_neg Bool.false_ne_true, List.append_nil]
      exact ⟨state, noReplay, consumed⟩

theorem oneEvent_presents : Presents .reset oneEventSchedule oneEvent.stream := by
  have early : ∀ n, n < 5 → (stateAt .reset oneEventSchedule n).state ≠ .waitDone ∧
      (stateAt .reset oneEventSchedule n).state ≠ .waitCheck ∧
      (stateAt .reset oneEventSchedule n).state ≠ .waitEvent ∧
      ((oneEventSchedule n).udmaCmdValid = true →
        oneEvent.stream[(consumedBefore .reset oneEventSchedule n).length]? =
          some (oneEventSchedule n).udmaCmd) ∧
      ((consumedBefore .reset oneEventSchedule n).length < 3 →
        (oneEventSchedule n).udmaCmdValid = true) := by
    decide
  have never : ∀ n, (stateAt .reset oneEventSchedule n).state ≠ .waitDone ∧
      (stateAt .reset oneEventSchedule n).state ≠ .waitCheck ∧
      (stateAt .reset oneEventSchedule n).state ≠ .waitEvent := by
    intro n
    cases Nat.lt_or_ge n 5 with
    | inl inside => exact ⟨(early n inside).1, (early n inside).2.1, (early n inside).2.2.1⟩
    | inr after =>
        obtain ⟨later, rfl⟩ := Nat.exists_eq_add_of_le' after
        rw [(oneEvent_rests later).1]
        exact ⟨nofun, nofun, nofun⟩
  constructor
  · intro n valid
    cases Nat.lt_or_ge n 5 with
    | inl inside => exact (early n inside).2.2.2.1 valid
    | inr after =>
        rw [oneEventSchedule, thenQuiet_after (Nat.le_trans (by decide) after)] at valid
        cases valid
  · intro n takes more
    cases Nat.lt_or_ge n 5 with
    | inl inside => exact ⟨n, Nat.le_refl n, (early n inside).2.2.2.2 more⟩
    | inr after =>
        obtain ⟨later, rfl⟩ := Nat.exists_eq_add_of_le' after
        rw [(oneEvent_rests later).2.2] at more
        exact absurd more (Nat.lt_irrefl 3)
  · exact fun n waits => absurd waits (never n).1
  · exact fun n waits => absurd waits (never n).2.1
  · exact fun n waits => absurd waits (never n).2.2

/-- The event is raised twice. -/
theorem oneEvent_not_repeats : ¬Repeats .reset oneEventSchedule oneEvent := by
  intro repeats
  have executed := repeats.inOrder 5
  have twice : executedBefore .reset oneEventSchedule 5 = [0x90000003, 0x90000003] := by
    decide +kernel
  have expected : oneEvent.expected = [0x90000003] := by decide +kernel
  rw [twice, expected] at executed
  exact absurd executed.length_le (by decide)

theorem oneEvent_repeats_iff :
    Repeats .reset oneEventSchedule oneEvent ↔
      SpimCtrl.reset.chkResult = true ∧ oneEvent.times = 1 ∧ oneEvent.body.length = 1 :=
  spimCtrl_repeats_iff .reset oneEventSchedule oneEvent rfl rfl oneEvent_presents

end CoreVMcu.Spi
