import CoreVMcu.Clocked.Counters
import CoreVMcu.Spi.Replay

/-!
# The repeat block along a run

From the start of a block to the end of its stream the interpreter goes through four
phases.  The number of commands that are still to be replayed follows from the
count and from the place of the first command of the body in the FIFO.
-/

namespace CoreVMcu.Spi

open Clocked CoreVMcu.Udma

/-- The words of a body as they are recorded, the first one flagged. -/
def flagged : List (BitVec 32) → List (Bool × BitVec 32)
  | [] => []
  | word :: rest => (true, word) :: rest.map (Prod.mk false)

theorem flagged_snoc (words : List (BitVec 32)) (word : BitVec 32) :
    flagged (words ++ [word]) = flagged words ++ [(words.isEmpty, word)] := by
  cases words with
  | nil => rfl
  | cons first rest => simp [flagged]

@[simp] theorem length_flagged (words : List (BitVec 32)) :
    (flagged words).length = words.length := by
  cases words with
  | nil => rfl
  | cons first rest => simp [flagged]

theorem mem_of_mem_flagged {words : List (BitVec 32)} {entry : Bool × BitVec 32}
    (member : entry ∈ flagged words) : entry.2 ∈ words := by
  cases words with
  | nil => cases member
  | cons first rest =>
      rcases List.mem_cons.mp member with rfl | later
      · exact List.mem_cons_self ..
      · obtain ⟨word, inside, rfl⟩ := List.mem_map.mp later
        exact List.mem_cons_of_mem _ inside

/-- Where the replay of a block is: at its very beginning, turning with the flagged
command `before` places from the front of the FIFO, or turning without it. -/
inductive Turn (block : RepeatBlock) (checked : Bool) (rptNum : Nat) :
    List (Bool × BitVec 32) → List (BitVec 32) → Prop where
  | first (count : rptNum = block.times) : Turn block checked rptNum (flagged block.body) []
  | turning (before after executed : List (BitVec 32)) (word : BitVec 32)
      (unchecked : checked = false) (short : block.body.length < replayBufferDepth)
      (whole : before.length + 1 + after.length = block.body.length)
      (count : executed.length + before.length + rptNum * block.body.length =
        block.times * block.body.length) :
      Turn block checked rptNum
        (before.map (Prod.mk false) ++ (true, word) :: after.map (Prod.mk false)) executed
  | lost (rest executed : List (BitVec 32)) (unchecked : checked = false)
      (five : rest.length = 5) : Turn block checked rptNum (rest.map (Prod.mk false)) executed

/-- What has been executed when the loop is left. -/
def LeftWith (block : RepeatBlock) (checked : Bool) (executed : List (BitVec 32)) : Prop :=
  if checked then executed = block.body.take 1
  else executed.length = block.times * block.body.length + 1

theorem Turn.nonempty {block : RepeatBlock} {checked : Bool} {rptNum : Nat}
    {queue : List (Bool × BitVec 32)} {executed : List (BitVec 32)}
    (turn : Turn block checked rptNum queue executed) : queue ≠ [] := by
  cases turn with
  | first =>
      intro empty
      have none := congrArg List.length empty
      rw [length_flagged] at none
      exact block.nonempty (List.length_eq_zero_iff.mp none)
  | turning => simp
  | lost rest executed unchecked five =>
      intro empty
      rw [List.map_eq_nil_iff.mp empty] at five
      cases five

/-- The turn after a replayed command, or what has been executed when it ends the
loop. -/
theorem Turn.next {block : RepeatBlock} {checked first : Bool} {rptNum : Nat} {word : BitVec 32}
    {rest : List (Bool × BitVec 32)} {executed : List (BitVec 32)}
    (turn : Turn block checked rptNum ((first, word) :: rest) executed) :
    if (rptNum == 0 && first) || checked then LeftWith block checked (executed ++ [word])
    else
      Turn block checked (if first then rptNum - 1 else rptNum)
        (rest ++ if rest.length + 1 < replayBufferDepth then [(first, word)] else [])
        (executed ++ [word]) := by
  have positive := block.times_pos
  generalize entry : (first, word) :: rest = queue at turn
  cases turn with
  | first count =>
      obtain ⟨head, tail, body⟩ := List.exists_cons_of_ne_nil block.nonempty
      rw [body, flagged, List.cons.injEq, Prod.mk.injEq] at entry
      obtain ⟨⟨rfl, rfl⟩, rfl⟩ := entry
      have notZero : (rptNum == 0) = false := by
        rw [beq_eq_false_iff_ne]
        omega
      rw [notZero, Bool.false_and, Bool.false_or]
      cases checked with
      | true => simp [LeftWith, body]
      | false =>
          have length : block.body.length = tail.length + 1 := by rw [body, List.length_cons]
          obtain ⟨times, isTimes⟩ : ∃ times, block.times = times + 1 :=
            ⟨block.times - 1, by omega⟩
          rw [if_neg Bool.false_ne_true, if_pos rfl, count, isTimes, Nat.add_sub_cancel,
            List.length_map]
          split
          · next short =>
              refine .turning tail [] [word] word rfl (by omega) (by rw [length]; rfl) ?_
              rw [isTimes, Nat.succ_mul, length, List.length_singleton]
              omega
          · next full =>
              have fits := block.fits
              rw [List.append_nil]
              refine .lost tail _ rfl ?_
              simp only [replayBufferDepth] at full fits
              omega
  | turning before after executed other unchecked short whole count =>
      rw [unchecked, Bool.or_false]
      cases before with
      | nil =>
          rw [List.map_nil, List.nil_append, List.cons.injEq, Prod.mk.injEq] at entry
          obtain ⟨⟨rfl, rfl⟩, rfl⟩ := entry
          rw [List.length_nil] at whole count
          cases rptNum with
          | zero =>
              simp only [BEq.rfl, Bool.and_self, if_true, LeftWith, Bool.false_eq_true, if_false,
                List.length_append, List.length_singleton]
              omega
          | succ rptNum =>
              have room : (after.map (Prod.mk false)).length + 1 < replayBufferDepth := by
                rw [List.length_map]
                omega
              rw [if_neg (by simp), if_pos rfl, if_pos room]
              refine .turning after [] _ word rfl short (by simpa [Nat.add_comm] using whole) ?_
              rw [Nat.succ_mul] at count
              rw [List.length_append, List.length_singleton, Nat.add_sub_cancel]
              omega
      | cons next before =>
          rw [List.map_cons, List.cons_append, List.cons.injEq, Prod.mk.injEq] at entry
          obtain ⟨⟨rfl, rfl⟩, rfl⟩ := entry
          rw [List.length_cons] at whole count
          have room : (before.map (Prod.mk false) ++
              (true, other) :: after.map (Prod.mk false)).length + 1 < replayBufferDepth := by
            simp only [List.length_append, List.length_map, List.length_cons]
            omega
          rw [Bool.and_false, if_neg Bool.false_ne_true, if_neg Bool.false_ne_true, if_pos room]
          have turned : Turn block false rptNum
              (before.map (Prod.mk false) ++
                (true, other) :: (after ++ [word]).map (Prod.mk false)) (executed ++ [word]) := by
            refine .turning before (after ++ [word]) _ other rfl short ?_ ?_ <;>
              rw [List.length_append, List.length_singleton] <;> omega
          simpa using turned
  | lost words executed unchecked five =>
      cases words with
      | nil => cases five
      | cons next words =>
          rw [List.map_cons, List.cons.injEq, Prod.mk.injEq] at entry
          obtain ⟨⟨rfl, rfl⟩, rfl⟩ := entry
          rw [List.length_cons] at five
          have room : (words.map (Prod.mk false)).length + 1 < replayBufferDepth := by
            rw [List.length_map]
            simp only [replayBufferDepth]
            omega
          rw [unchecked, Bool.and_false, Bool.or_false, if_neg Bool.false_ne_true,
            if_neg Bool.false_ne_true, if_pos room]
          have turned : Turn block false rptNum ((words ++ [word]).map (Prod.mk false))
              (executed ++ [word]) := by
            refine .lost (words ++ [word]) _ rfl ?_
            rw [List.length_append, List.length_singleton]
            omega
          simpa using turned

/-- The phases of a block. -/
inductive LoopPhase (block : RepeatBlock) (checked : Bool) (ctrl : SpimCtrl) :
    List (BitVec 32) → List (BitVec 32) → Prop where
  | starting (state : ctrl.state = .idle) (noReplay : ctrl.isReplay = false)
      (result : ctrl.chkResult = checked) : LoopPhase block checked ctrl [] []
  | recording (recorded rest : List (BitVec 32)) (split : block.body = recorded ++ rest)
      (state : ctrl.state = .doRepeat) (noReplay : ctrl.isReplay = false)
      (result : ctrl.chkResult = checked) (count : ctrl.rptNum = cdSizeLong block.rpt)
      (first : ctrl.firstReplay = recorded.isEmpty)
      (buffer : IoGenericFifo.Represents replayBufferDepth ctrl.replayBuffer (flagged recorded)) :
      LoopPhase block checked ctrl (block.rpt :: recorded) []
  | replaying (queue : List (Bool × BitVec 32)) (executed : List (BitVec 32))
      (state : ctrl.state ≠ .doRepeat ∧ ctrl.state ≠ .waitCheck)
      (replays : ctrl.isReplay = true) (result : ctrl.chkResult = checked)
      (buffer : IoGenericFifo.Represents replayBufferDepth ctrl.replayBuffer queue)
      (known : ∀ entry ∈ queue, entry.2 ∈ block.body)
      (turn : Turn block checked ctrl.rptNum.toNat queue executed) :
      LoopPhase block checked ctrl (block.rpt :: block.body ++ [block.rptEnd]) executed
  | left (loop done rest : List (BitVec 32)) (split : block.after = done ++ rest)
      (state : ctrl.state ≠ .doRepeat) (noReplay : ctrl.isReplay = false)
      (leftWith : LeftWith block checked loop) :
      LoopPhase block checked ctrl (block.rpt :: block.body ++ block.rptEnd :: done) (loop ++ done)

section Step

variable {block : RepeatBlock} {checked : Bool} {ctrl : SpimCtrl} {input : CtrlInput}
variable {consumed executed : List (BitVec 32)}

/-- A phase and what a cycle adds to the commands taken and executed. -/
def PhaseStep (block : RepeatBlock) (checked : Bool) (ctrl : SpimCtrl) (input : CtrlInput)
    (consumed executed : List (BitVec 32)) : Prop :=
  LoopPhase block checked (ctrl.step input) (consumed ++ ctrl.consumedCmd input)
    (executed ++ ctrl.executedCmd input)

/-- In a cycle without a command the phase stays what it is. -/
theorem phaseStep_quiet
    (quiet : LoopPhase block checked (ctrl.step input) consumed executed)
    (noCommand : (ctrl.takesCommand && input.udmaCmdValid) = false)
    (noReplay : ctrl.state = .idle → ctrl.isReplay = false) :
    PhaseStep block checked ctrl input consumed executed := by
  have nothingTaken : ctrl.consumedCmd input = [] := by
    rw [SpimCtrl.consumedCmd_eq, noCommand, if_neg Bool.false_ne_true]
  have nothingExecuted : ctrl.executedCmd input = [] := by
    rw [SpimCtrl.executedCmd]
    apply if_neg
    rintro ⟨state, available, -⟩
    rw [SpimCtrl.takesCommand, state, noReplay state] at noCommand
    rw [SpimCtrl.cmdAvailable, noReplay state, if_neg Bool.false_ne_true] at available
    rw [available] at noCommand
    cases noCommand
  rw [PhaseStep, nothingTaken, nothingExecuted, List.append_nil, List.append_nil]
  exact quiet

theorem cmdAvailable_stream (noReplay : ctrl.isReplay = false) :
    ctrl.cmdAvailable input = input.udmaCmdValid := by
  rw [SpimCtrl.cmdAvailable, noReplay, if_neg Bool.false_ne_true]

theorem word_stream (noReplay : ctrl.isReplay = false) : ctrl.word input = input.udmaCmd := by
  rw [SpimCtrl.word, noReplay, if_neg Bool.false_ne_true]

/-- A command of the stream that is taken in a state that does not execute it. -/
theorem phaseStep_taken (valid : input.udmaCmdValid = true) (takes : ctrl.takesCommand = true)
    (notExecuted : ctrl.state ≠ .idle ∨
      ctrl.isReplay = false ∧ spiCmd input.udmaCmd = some .rpt)
    (next : LoopPhase block checked (ctrl.step input) (consumed ++ [input.udmaCmd]) executed) :
    PhaseStep block checked ctrl input consumed executed := by
  have nothingExecuted : ctrl.executedCmd input = [] := by
    rcases notExecuted with notIdle | ⟨noReplay, isRpt⟩
    · exact SpimCtrl.executedCmd_of_not_idle notIdle
    · rw [SpimCtrl.executedCmd, word_stream noReplay]
      exact if_neg fun both => both.2.2 isRpt
  rw [PhaseStep, nothingExecuted, List.append_nil, SpimCtrl.consumedCmd_eq, takes, valid,
    Bool.and_self, if_pos rfl]
  exact next

/-- The block begins. -/
theorem LoopPhase.step_starting (state : ctrl.state = .idle) (noReplay : ctrl.isReplay = false)
    (result : ctrl.chkResult = checked)
    (inOrder : input.udmaCmdValid = true → input.udmaCmd = block.rpt) :
    PhaseStep block checked ctrl input [] [] := by
  have takes : ctrl.takesCommand = true := by
    rw [SpimCtrl.takesCommand, state, noReplay]
    rfl
  cases valid : input.udmaCmdValid with
  | false =>
      obtain ⟨same, sameState, sameResult⟩ := SpimCtrl.step_waiting
        (Or.inl ⟨state, (cmdAvailable_stream noReplay).trans valid⟩)
      refine phaseStep_quiet (.starting ?_ ?_ ?_) (by simp [valid]) fun _ => noReplay
      · rw [sameState, state]
      · rw [same.isReplay, noReplay]
      · rw [sameResult, result]
  | true =>
      have isRpt : spiCmd input.udmaCmd = some .rpt := by
        rw [inOrder valid]
        exact block.isRpt
      obtain ⟨nextState, isReplay, count, first, chk, buffer⟩ :=
        SpimCtrl.step_rpt state noReplay valid isRpt
      refine phaseStep_taken valid takes (Or.inr ⟨noReplay, isRpt⟩) ?_
      rw [List.nil_append, inOrder valid]
      refine .recording [] block.body rfl nextState isReplay ?_ ?_ first buffer
      · rw [chk, result]
      · rw [count, inOrder valid]

/-- A command of the body is recorded, or the body ends. -/
theorem LoopPhase.step_recording {recorded rest : List (BitVec 32)}
    (split : block.body = recorded ++ rest) (state : ctrl.state = .doRepeat)
    (noReplay : ctrl.isReplay = false) (result : ctrl.chkResult = checked)
    (count : ctrl.rptNum = cdSizeLong block.rpt)
    (first : ctrl.firstReplay = recorded.isEmpty)
    (buffer : IoGenericFifo.Represents replayBufferDepth ctrl.replayBuffer (flagged recorded))
    (inOrder : input.udmaCmdValid = true →
      (rest ++ block.rptEnd :: block.after)[0]? = some input.udmaCmd) :
    PhaseStep block checked ctrl input (block.rpt :: recorded) [] := by
  have takes : ctrl.takesCommand = true := by rw [SpimCtrl.takesCommand, state]
  have notIdle : ctrl.state ≠ .idle := by
    rw [state]
    intro same
    cases same
  cases valid : input.udmaCmdValid with
  | false =>
      obtain ⟨same, sameState, sameResult⟩ := SpimCtrl.step_waiting (Or.inr ⟨state, valid⟩)
      refine phaseStep_quiet (.recording recorded rest split ?_ ?_ ?_ ?_ ?_ ?_) (by simp [valid])
        fun idle => absurd idle notIdle
      · rw [sameState, state]
      · rw [same.isReplay, noReplay]
      · rw [sameResult, result]
      · rw [same.rptNum, count]
      · rw [same.firstReplay, first]
      · rw [same.replayBuffer]
        exact buffer
  | true =>
      have command := inOrder valid
      refine phaseStep_taken valid takes (Or.inl notIdle) ?_
      cases rest with
      | nil =>
          have isEnd : block.rptEnd = input.udmaCmd := by simpa using command
          rw [List.append_nil] at split
          obtain ⟨nextState, isReplay, sameCount, chk, sameBuffer⟩ :=
            SpimCtrl.step_rptEnd state noReplay valid (by rw [← isEnd]; exact block.isEnd)
          rw [← split, ← isEnd]
          refine .replaying (flagged block.body) [] ?_ isReplay ?_ ?_ ?_ (.first ?_)
          · rw [nextState]
            constructor <;> (intro same; cases same)
          · rw [chk, result]
          · rw [sameBuffer, split]
            exact buffer
          · intro entry member
            exact mem_of_mem_flagged member
          · rw [sameCount, count]
            rfl
      | cons word rest =>
          have isWord : word = input.udmaCmd := by simpa using command
          have member : word ∈ block.body := by simp [split]
          have room : (flagged recorded).length < replayBufferDepth := by
            have fits := block.fits
            rw [split, List.length_append, List.length_cons] at fits
            rw [length_flagged]
            omega
          obtain ⟨nextState, isReplay, sameCount, notFirst, chk, pushed⟩ :=
            SpimCtrl.step_record state noReplay valid
              (by rw [← isWord]; exact (block.bodyCmd word member).2.1) buffer room
          rw [← isWord, List.cons_append]
          refine .recording (recorded ++ [word]) rest ?_ nextState isReplay ?_ ?_ ?_ ?_
          · rw [split, List.append_assoc]
            rfl
          · rw [chk, result]
          · rw [sameCount, count]
          · rw [notFirst]
            simp
          · rw [flagged_snoc, ← first, isWord]
            exact pushed

/-- A command that is being executed goes on, or is over. -/
theorem SpimCtrl.busy_of_state (notIdle : ctrl.state ≠ .idle) (notRepeat : ctrl.state ≠ .doRepeat) :
    ctrl.busy = true ∧ ctrl.takesCommand = false := by
  unfold SpimCtrl.busy SpimCtrl.takesCommand
  cases state : ctrl.state with
  | idle => exact absurd state notIdle
  | doRepeat => exact absurd state notRepeat
  | _ => exact ⟨rfl, rfl⟩

/-- A command is replayed, or one is being executed. -/
theorem LoopPhase.step_replaying {queue : List (Bool × BitVec 32)}
    (state : ctrl.state ≠ .doRepeat ∧ ctrl.state ≠ .waitCheck)
    (replays : ctrl.isReplay = true) (result : ctrl.chkResult = checked)
    (buffer : IoGenericFifo.Represents replayBufferDepth ctrl.replayBuffer queue)
    (known : ∀ entry ∈ queue, entry.2 ∈ block.body)
    (turn : Turn block checked ctrl.rptNum.toNat queue executed) :
    PhaseStep block checked ctrl input (block.rpt :: block.body ++ [block.rptEnd]) executed := by
  by_cases idle : ctrl.state = .idle
  · obtain ⟨⟨first, word⟩, rest, rfl⟩ := List.exists_cons_of_ne_nil turn.nonempty
    have inBody : word ∈ block.body := known (first, word) (List.mem_cons_self ..)
    have bodyCmd := block.bodyCmd word inBody
    obtain ⟨isReplay, count, chk, leads, circulated⟩ :=
      SpimCtrl.step_replay idle replays buffer bodyCmd.1 input
    have nothingTaken : ctrl.consumedCmd input = [] := by
      rw [SpimCtrl.consumedCmd_eq, SpimCtrl.takesCommand, idle, replays]
      rfl
    have isWord : ctrl.word input = word := by
      rw [SpimCtrl.word, replays, if_pos rfl, buffer.data_eq]
    have wordExecuted : ctrl.executedCmd input = [word] := by
      rw [SpimCtrl.executedCmd, isWord, SpimCtrl.cmdAvailable, replays, if_pos rfl, buffer.valid_eq]
      exact if_pos ⟨idle, rfl, bodyCmd.1⟩
    rw [PhaseStep, nothingTaken, wordExecuted, List.append_nil]
    have next := turn.next
    have zero : (ctrl.rptNum.toNat == 0) = (ctrl.rptNum == 0) := by
      rw [Bool.eq_iff_iff, beq_iff_eq, beq_iff_eq]
      exact ⟨fun zero => BitVec.eq_of_toNat_eq zero, fun zero => by rw [zero]; rfl⟩
    have nextState : (ctrl.step input).state = (ctrl.signals input).stateNext := rfl
    rw [zero, ← result] at next
    cases leaves : (ctrl.rptNum == 0 && first) || ctrl.chkResult with
    | true =>
        rw [leaves, if_pos rfl] at next
        rw [leaves] at isReplay
        have left : LoopPhase block ctrl.chkResult (ctrl.step input)
            (block.rpt :: block.body ++ [block.rptEnd]) (executed ++ [word] ++ []) :=
          .left (executed ++ [word]) [] block.after rfl (by rw [nextState]; exact leads.notRepeat)
            isReplay next
        rw [List.append_nil, result] at left
        exact left
    | false =>
        rw [leaves, if_neg Bool.false_ne_true] at next
        rw [leaves] at isReplay
        rw [leaves, Bool.not_false, Bool.true_and] at count
        have unchecked : checked = false := by
          rw [Bool.or_eq_false_iff, result] at leaves
          exact leaves.2
        refine .replaying _ _ ⟨?_, ?_⟩ isReplay ?_ circulated ?_ ?_
        · rw [nextState]
          exact leads.notRepeat
        · rw [nextState]
          exact fun checks => bodyCmd.2.2 (leads.checks checks)
        · rw [chk, unchecked]
        · intro entry member
          rcases List.mem_append.mp member with inRest | again
          · exact known entry (List.mem_cons_of_mem _ inRest)
          · split at again
            · rw [List.mem_singleton.mp again]
              exact inBody
            · cases again
        · rw [count, result] at *
          cases first with
          | false => exact next
          | true =>
              have notZero : ctrl.rptNum ≠ 0 := by
                intro isZero
                simp [isZero] at leaves
              rw [if_pos rfl, toNat_pred (toNat_pos_of_ne notZero)]
              exact next
  · obtain ⟨busy, takesNone⟩ := SpimCtrl.busy_of_state idle state.1
    have same := SpimCtrl.step_busy busy input
    obtain ⟨nextState, sameResult⟩ := SpimCtrl.step_busy_state busy input
    refine phaseStep_quiet (.replaying queue executed ?_ ?_ ?_ ?_ known ?_) (by simp [takesNone])
      fun isIdle => absurd isIdle idle
    · rcases nextState with stays | ended
      · rw [stays]
        exact state
      · rw [ended]
        constructor <;> (intro same; cases same)
    · rw [same.isReplay, replays]
    · rw [sameResult state.2, result]
    · rw [same.replayBuffer]
      exact buffer
    · rw [same.rptNum]
      exact turn

/-- After the loop the commands of the stream are executed as they come. -/
theorem LoopPhase.step_left {loop done rest : List (BitVec 32)} (split : block.after = done ++ rest)
    (state : ctrl.state ≠ .doRepeat) (noReplay : ctrl.isReplay = false)
    (leftWith : LeftWith block checked loop)
    (inOrder : input.udmaCmdValid = true → rest[0]? = some input.udmaCmd) :
    PhaseStep block checked ctrl input (block.rpt :: block.body ++ block.rptEnd :: done)
      (loop ++ done) := by
  by_cases idle : ctrl.state = .idle
  · have takes : ctrl.takesCommand = true := by
      rw [SpimCtrl.takesCommand, idle, noReplay]
      rfl
    cases valid : input.udmaCmdValid with
    | false =>
        obtain ⟨same, sameState, -⟩ := SpimCtrl.step_waiting
          (Or.inl ⟨idle, (cmdAvailable_stream noReplay).trans valid⟩)
        refine phaseStep_quiet (.left loop done rest split ?_ ?_ leftWith) (by simp [valid])
          fun _ => noReplay
        · rw [sameState]
          exact state
        · rw [same.isReplay, noReplay]
    | true =>
        cases rest with
        | nil => cases inOrder valid
        | cons word rest =>
            have isWord : word = input.udmaCmd := by simpa using inOrder valid
            have notRpt : spiCmd input.udmaCmd ≠ some .rpt := by
              rw [← isWord]
              exact block.afterCmd word (by simp [split])
            obtain ⟨same, leads, -⟩ := SpimCtrl.step_command idle noReplay valid notRpt
            have wordExecuted : ctrl.executedCmd input = [word] := by
              rw [SpimCtrl.executedCmd, word_stream noReplay, cmdAvailable_stream noReplay, isWord]
              exact if_pos ⟨idle, valid, notRpt⟩
            rw [PhaseStep, wordExecuted, SpimCtrl.consumedCmd_eq, takes, valid, Bool.and_self,
              if_pos rfl, ← isWord, List.append_assoc, List.append_assoc, List.cons_append]
            refine .left loop (done ++ [word]) rest ?_ leads.notRepeat ?_ leftWith
            · rw [split, List.append_assoc]
              rfl
            · rw [same.isReplay, noReplay]
  · obtain ⟨busy, takesNone⟩ := SpimCtrl.busy_of_state idle state
    have same := SpimCtrl.step_busy busy input
    refine phaseStep_quiet (.left loop done rest split ?_ ?_ leftWith) (by simp [takesNone])
      fun isIdle => absurd isIdle idle
    · rcases (SpimCtrl.step_busy_state busy input).1 with stays | ended
      · rw [stays]
        exact state
      · rw [ended]
        intro same
        cases same
    · rw [same.isReplay, noReplay]

/-- One clock edge leads from a phase to a phase. -/
theorem LoopPhase.step (phase : LoopPhase block checked ctrl consumed executed)
    (inOrder : input.udmaCmdValid = true → block.stream[consumed.length]? = some input.udmaCmd) :
    PhaseStep block checked ctrl input consumed executed := by
  cases phase with
  | starting state noReplay result =>
      refine step_starting state noReplay result fun valid => ?_
      have command := inOrder valid
      simpa [RepeatBlock.stream, eq_comm] using command
  | recording recorded rest split state noReplay result count first buffer =>
      refine step_recording split state noReplay result count first buffer fun valid => ?_
      have command := inOrder valid
      rw [RepeatBlock.stream, split, List.cons_append, List.length_cons, List.getElem?_cons_succ,
        List.append_assoc, List.getElem?_append_right (Nat.le_refl _), Nat.sub_self] at command
      exact command
  | replaying queue executed state replays result buffer known turn =>
      exact step_replaying state replays result buffer known turn
  | left loop done rest split state noReplay leftWith =>
      refine step_left split state noReplay leftWith fun valid => ?_
      have command := inOrder valid
      rw [RepeatBlock.stream, split] at command
      have regroup : block.rpt :: block.body ++ block.rptEnd :: (done ++ rest) =
          (block.rpt :: block.body ++ block.rptEnd :: done) ++ rest := by simp
      rw [regroup, List.getElem?_append_right (Nat.le_refl _), Nat.sub_self] at command
      exact command

end Step

end CoreVMcu.Spi
