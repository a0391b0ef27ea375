import CoreVMcu.Clocked.TwoRuns
import CoreVMcu.Sdio.CmdFrame

/-!
# Responses with a busy signal

A response of the type `RSP_TYPE_48_BSY` is checked like one of the type `RSP_TYPE_48_CRC`.
After the check the state machine goes to its last wait without waiting for the busy signal,
so the end of the command comes at a fixed distance from the start bit of the response.
-/

namespace CoreVMcu.Sdio

open Clocked

/-- `RSP_TYPE_48_BSY`. -/
def rspType48Bsy : BitVec 3 := 4

/-- `eot_o`. -/
def SdioCmd.eotO (cmd : SdioCmd) (input : SdioCmdInput) : Bool := (cmd.signals input).eot

section Command

variable (accepted : SdioCmd) (schedule : Nat → SdioCmdInput)

/-- The registers in a clock after the one in which the command was accepted. -/
def cmdAt (n : Nat) : SdioCmd := sdioCmd.runFrom accepted (inputsUpTo schedule n)

/-- The command has not ended before a clock. -/
def UnderWay (n : Nat) : Prop := ∀ m ≤ n, (cmdAt accepted schedule m).state ≠ .idle

/-- The command ends with the card busy only if it has set the busy-timeout bit. -/
def RespectsBusy : Prop :=
  ∀ n, UnderWay accepted schedule n →
    (cmdAt accepted schedule n).eotO (schedule n) = true → (schedule n).busy = true →
      (cmdAt accepted schedule n).status &&& statusRspBusyTimeout ≠ 0

/-- The start bit of the response comes in the given clock of the wait for it. -/
def StartBitAt (start : Nat) : Prop :=
  start ≤ 37 ∧ (∀ k < start, (schedule (48 + k)).sdcmdI = true) ∧
    (schedule (48 + start)).sdcmdI = false

/-- The card responds: a start bit and the direction bit of a response. -/
def RespondsAt (start : Nat) : Prop :=
  StartBitAt schedule start ∧ (schedule (49 + start)).sdcmdI = false

/-- 54 clocks after the direction bit of a response the card is not busy. -/
def ReadyAfterResponse : Prop :=
  ∀ start, RespondsAt schedule start → (schedule (103 + start)).busy = false

end Command

theorem cmdAt_succ (accepted : SdioCmd) (schedule : Nat → SdioCmdInput) (n : Nat) :
    cmdAt accepted schedule (n + 1) = (cmdAt accepted schedule n).step (schedule n) := by
  rw [cmdAt, inputsUpTo_succ, Machine.runFrom_snoc]
  rfl

theorem StartBitAt.unique {schedule : Nat → SdioCmdInput} {start other : Nat}
    (first : StartBitAt schedule start) (second : StartBitAt schedule other) : start = other := by
  rcases Nat.lt_trichotomy start other with before | same | after
  · exact absurd ((second.2.1 start before).symm.trans first.2.2) Bool.noConfusion
  · exact same
  · exact absurd ((first.2.1 other after).symm.trans second.2.2) Bool.noConfusion

/-! ## The clocks of a command -/

/-- Where a command with a busy response is in a clock; a counted state is kept for `left`
more clocks. -/
inductive BusyStage (schedule : Nat → SdioCmdInput) : Nat → SdioCmd → Prop
  | txStart {cmd : SdioCmd} (state : cmd.state = .txStart) : BusyStage schedule 0 cmd
  | txDir {cmd : SdioCmd} (state : cmd.state = .txDir) : BusyStage schedule 1 cmd
  | txShift {cmd : SdioCmd} {n left : Nat} (state : cmd.state = .txShift) (counts : Counts cmd left)
      (bound : left ≤ 37) (clock : n + left = 39) : BusyStage schedule n cmd
  | txCrc {cmd : SdioCmd} {n left : Nat} (state : cmd.state = .txCrc) (counts : Counts cmd left)
      (bound : left ≤ 6) (clock : n + left = 46) : BusyStage schedule n cmd
  | txStop {cmd : SdioCmd} (state : cmd.state = .txStop) : BusyStage schedule 47 cmd
  | rxStart {cmd : SdioCmd} {waited left : Nat} (state : cmd.state = .rxStart)
      (counts : Counts cmd left) (clock : waited + left = 37)
      (high : ∀ k < waited, (schedule (48 + k)).sdcmdI = true) :
      BusyStage schedule (48 + waited) cmd
  | rxDir {cmd : SdioCmd} {start : Nat} (state : cmd.state = .rxDir)
      (starts : StartBitAt schedule start) : BusyStage schedule (49 + start) cmd
  | rxShift {cmd : SdioCmd} {n start left : Nat} (state : cmd.state = .rxShift)
      (counts : Counts cmd left) (bound : left ≤ 37) (responds : RespondsAt schedule start)
      (clock : n + left = 87 + start) : BusyStage schedule n cmd
  | rxCrc {cmd : SdioCmd} {n start left : Nat} (state : cmd.state = .rxCrc)
      (counts : Counts cmd left) (bound : left ≤ 7) (responds : RespondsAt schedule start)
      (clock : n + left = 95 + start) : BusyStage schedule n cmd
  | wait {cmd : SdioCmd} {n start left : Nat} (state : cmd.state = .wait)
      (counts : Counts cmd left) (bound : left ≤ 7) (responds : RespondsAt schedule start)
      (clock : n + left = 103 + start) : BusyStage schedule n cmd

/-- A clock of the command: it is not cleared and the type of the response is held. -/
def HoldsBusyType (input : SdioCmdInput) : Prop :=
  input.clrStat = false ∧ input.cmdRspType = rspType48Bsy

section Steps

variable {cmd : SdioCmd} {input : SdioCmdInput} {schedule : Nat → SdioCmdInput} {n left : Nat}

/-- The stop bit starts the wait for the response. -/
theorem step_txStop_busy (state : cmd.state = .txStop) (holds : HoldsBusyType input) :
    (cmd.step input).state = .rxStart ∧ Counts (cmd.step input) 37 ∧
      (cmd.step input).status = cmd.status := by
  simp [SdioCmd.step, SdioCmd.signals, SdioCmd.nextCnt, SdioCmd.defaults, Counts, rspFormat,
    rspType48Bsy, state, holds.1, holds.2]

theorem step_rxStart_high (state : cmd.state = .rxStart) (counts : Counts cmd (left + 1))
    (bound : left + 1 ≤ 37) (noClear : input.clrStat = false) (high : input.sdcmdI = true) :
    (cmd.step input).state = .rxStart ∧ Counts (cmd.step input) left ∧
      (cmd.step input).status = cmd.status := by
  have running : cmd.cntDone = false := by simp [counts.cntDone (show left + 1 < 256 by omega)]
  simp [SdioCmd.step, SdioCmd.signals, SdioCmd.nextCnt, SdioCmd.defaults, Counts, state, noClear,
    high, running, counts.2, counts.next]

theorem step_rxStart_last (state : cmd.state = .rxStart) (counts : Counts cmd 0)
    (noClear : input.clrStat = false) (high : input.sdcmdI = true) :
    (cmd.step input).state = .idle := by
  have done : cmd.cntDone = true := by simp [counts.cntDone]
  simp [SdioCmd.step, SdioCmd.signals, noClear, state, high, done]

theorem step_rxStart_low (state : cmd.state = .rxStart) (noClear : input.clrStat = false)
    (low : input.sdcmdI = false) :
    (cmd.step input).state = .rxDir ∧ (cmd.step input).status = cmd.status := by
  simp [SdioCmd.step, SdioCmd.signals, SdioCmd.defaults, noClear, state, low]

theorem step_rxDir_low (state : cmd.state = .rxDir) (holds : HoldsBusyType input)
    (low : input.sdcmdI = false) :
    (cmd.step input).state = .rxShift ∧ Counts (cmd.step input) 37 ∧
      (cmd.step input).status = cmd.status := by
  simp [SdioCmd.step, SdioCmd.signals, SdioCmd.nextCnt, SdioCmd.defaults, Counts, rspFormat,
    rspType48Bsy, state, holds.1, holds.2, low]

theorem step_rxDir_high (state : cmd.state = .rxDir) (noClear : input.clrStat = false)
    (high : input.sdcmdI = true) : (cmd.step input).state = .idle := by
  simp [SdioCmd.step, SdioCmd.signals, noClear, state, high]

/-- Behind the last bit of the response comes its check, with or without a busy signal. -/
theorem step_rxShift_last (state : cmd.state = .rxShift) (counts : Counts cmd 0)
    (holds : HoldsBusyType input) :
    (cmd.step input).state = .rxCrc ∧ Counts (cmd.step input) 7 ∧
      (cmd.step input).status = cmd.status := by
  have done : cmd.cntDone = true := by simp [counts.cntDone]
  simp [SdioCmd.step, SdioCmd.signals, SdioCmd.nextCnt, SdioCmd.defaults, Counts, rspFormat,
    rspType48Bsy, state, holds.1, holds.2, done]

/-- Behind the check comes the last wait. -/
theorem step_rxCrc_ends (state : cmd.state = .rxCrc) (counts : Counts cmd 0)
    (noClear : input.clrStat = false) :
    (cmd.step input).state = .wait ∧ Counts (cmd.step input) 7 ∧
      (cmd.step input).status = cmd.status := by
  have done : cmd.cntDone = true := by simp [counts.cntDone]
  simp [SdioCmd.step, SdioCmd.signals, SdioCmd.nextCnt, SdioCmd.defaults, Counts, state, noClear,
    done]

/-- A counted state is kept while its count runs. -/
theorem step_counted {state : CmdState}
    (counted : state ∈ [CmdState.txShift, .txCrc, .rxShift, .rxCrc, .wait])
    (is : cmd.state = state) (counts : Counts cmd (left + 1)) (bound : left + 1 < 256)
    (noClear : input.clrStat = false) :
    (cmd.step input).state = state ∧ Counts (cmd.step input) left ∧
      (cmd.step input).status = cmd.status := by
  have running : cmd.cntDone = false := by simp [counts.cntDone bound]
  simp only [List.mem_cons, List.not_mem_nil, or_false] at counted
  rcases counted with rfl | rfl | rfl | rfl | rfl <;>
    simp [SdioCmd.step, SdioCmd.signals, SdioCmd.nextCnt, SdioCmd.defaults, Counts, is, noClear,
      running, counts.2, counts.next]

/-- The status stays while the command is sent. -/
theorem step_status_sending {state : CmdState}
    (sending : state ∈ [CmdState.txStart, .txDir, .txShift, .txCrc]) (is : cmd.state = state)
    (noClear : input.clrStat = false) : (cmd.step input).status = cmd.status := by
  have unsampled : (cmd.signals input).statusSample = false := by
    simp only [List.mem_cons, List.not_mem_nil, or_false] at sending
    rcases sending with rfl | rfl | rfl | rfl <;> simp only [SdioCmd.signals, is] <;>
      first | rfl | split <;> rfl
  rw [SdioCmd.step, noClear, unsampled]
  rfl

theorem step_wait_last (state : cmd.state = .wait) (counts : Counts cmd 0)
    (noClear : input.clrStat = false) : (cmd.step input).state = .idle := by
  have done : cmd.cntDone = true := by simp [counts.cntDone]
  simp [SdioCmd.step, SdioCmd.signals, state, noClear, done]

/-- A start clears the status. -/
theorem step_starts_status (starts : StartsCommand cmd input) : (cmd.step input).status = 0 := by
  obtain ⟨idle, start, noClear⟩ := starts
  simp [SdioCmd.step, SdioCmd.signals, SdioCmd.defaults, idle, start, noClear]

theorem eotO_eq (cmd : SdioCmd) (input : SdioCmdInput) :
    cmd.eotO input = (decide (cmd.state = .wait) && cmd.cntDone) := by
  rw [SdioCmd.eotO, SdioCmd.signals]
  cases state : cmd.state <;> simp [SdioCmd.defaults] <;> split_ifs <;> simp_all

/-- A clock leads to the next stage, or it ends the command: the card has not responded, or
this is the clock of the end. -/
theorem BusyStage.step (stage : BusyStage schedule n cmd) (holds : HoldsBusyType (schedule n)) :
    (BusyStage schedule (n + 1) (cmd.step (schedule n)) ∧
        (cmd.step (schedule n)).status = cmd.status) ∨
      ((cmd.step (schedule n)).state = .idle ∧
        ∀ start, RespondsAt schedule start → n = 103 + start) := by
  have noClear := holds.1
  cases stage with
  | txStart state =>
      exact .inl ⟨.txDir (step_txStart state noClear).2.1,
        step_status_sending (by simp) state noClear⟩
  | txDir state =>
      obtain ⟨-, next, -, -, counts⟩ := @step_txDir _ (schedule 1) state noClear
      exact .inl ⟨.txShift next counts (Nat.le_refl _) rfl,
        step_status_sending (by simp) state noClear⟩
  | @txShift _ _ left state counts bound clock =>
      cases left with
      | zero =>
          obtain ⟨-, next, -, counts⟩ := step_txShift_last state counts noClear
          exact .inl ⟨.txCrc next counts (Nat.le_refl _) (by omega),
            step_status_sending (by simp) state noClear⟩
      | succ left =>
          obtain ⟨next, counts, status⟩ :=
            step_counted (by simp) state counts (by omega) noClear
          exact .inl ⟨.txShift next counts (by omega) (by omega), status⟩
  | @txCrc _ _ left state counts bound clock =>
      cases left with
      | zero =>
          obtain rfl : n = 46 := by omega
          exact .inl ⟨.txStop (step_txCrc_last state counts noClear),
            step_status_sending (by simp) state noClear⟩
      | succ left =>
          obtain ⟨next, counts, status⟩ :=
            step_counted (by simp) state counts (by omega) noClear
          exact .inl ⟨.txCrc next counts (by omega) (by omega), status⟩
  | txStop state =>
      obtain ⟨next, counts, status⟩ := step_txStop_busy state holds
      exact .inl ⟨@BusyStage.rxStart _ _ 0 _ next counts rfl
        fun k before => absurd before k.not_lt_zero, status⟩
  | @rxStart _ waited left state counts clock high =>
      cases line : (schedule (48 + waited)).sdcmdI with
      | false =>
          obtain ⟨next, status⟩ := step_rxStart_low state noClear line
          refine .inl ⟨?_, status⟩
          rw [Nat.add_right_comm]
          exact .rxDir next ⟨by omega, high, line⟩
      | true =>
          have higher : ∀ k < waited + 1, (schedule (48 + k)).sdcmdI = true := by
            intro k before
            rcases Nat.lt_succ_iff_lt_or_eq.mp before with earlier | rfl
            · exact high k earlier
            · exact line
          cases left with
          | zero =>
              refine .inr ⟨step_rxStart_last state counts noClear line, ?_⟩
              rintro start ⟨⟨inside, -, low⟩, -⟩
              exact absurd ((higher start (by omega)).symm.trans low) Bool.noConfusion
          | succ left =>
              obtain ⟨next, counts, status⟩ :=
                step_rxStart_high state counts (by omega) noClear line
              exact .inl ⟨.rxStart next counts (by omega) higher, status⟩
  | @rxDir _ start state starts =>
      cases line : (schedule (49 + start)).sdcmdI with
      | false =>
          obtain ⟨next, counts, status⟩ := step_rxDir_low state holds line
          exact .inl ⟨.rxShift next counts (Nat.le_refl _) ⟨starts, line⟩ (by omega), status⟩
      | true =>
          refine .inr ⟨step_rxDir_high state noClear line, ?_⟩
          rintro other ⟨otherStarts, low⟩
          rw [starts.unique otherStarts] at line
          exact absurd (line.symm.trans low) Bool.noConfusion
  | @rxShift _ _ start left state counts bound responds clock =>
      cases left with
      | zero =>
          obtain ⟨next, counts, status⟩ := step_rxShift_last state counts holds
          exact .inl ⟨.rxCrc next counts (Nat.le_refl _) responds (by omega), status⟩
      | succ left =>
          obtain ⟨next, counts, status⟩ :=
            step_counted (by simp) state counts (by omega) noClear
          exact .inl ⟨.rxShift next counts (by omega) responds (by omega), status⟩
  | @rxCrc _ _ start left state counts bound responds clock =>
      cases left with
      | zero =>
          obtain ⟨next, counts, status⟩ := step_rxCrc_ends state counts noClear
          exact .inl ⟨.wait next counts (Nat.le_refl _) responds (by omega), status⟩
      | succ left =>
          obtain ⟨next, counts, status⟩ :=
            step_counted (by simp) state counts (by omega) noClear
          exact .inl ⟨.rxCrc next counts (by omega) responds (by omega), status⟩
  | @wait _ _ start left state counts bound responds clock =>
      cases left with
      | zero =>
          refine .inr ⟨step_wait_last state counts noClear, fun other otherResponds => ?_⟩
          rw [responds.1.unique otherResponds.1] at clock
          exact clock
      | succ left =>
          obtain ⟨next, counts, status⟩ :=
            step_counted (by simp) state counts (by omega) noClear
          exact .inl ⟨.wait next counts (by omega) responds (by omega), status⟩

theorem BusyStage.not_idle (stage : BusyStage schedule n cmd) : cmd.state ≠ .idle := by
  cases stage with
  | txStart state | txDir state | txShift state | txCrc state | txStop state | rxStart state
  | rxDir state | rxShift state | rxCrc state | wait state =>
      rw [state]
      exact CmdState.noConfusion

/-- The command ends only in the clock that its response determines. -/
theorem BusyStage.ends (stage : BusyStage schedule n cmd) (eot : cmd.eotO input = true) :
    ∃ start, RespondsAt schedule start ∧ n = 103 + start := by
  rw [eotO_eq, Bool.and_eq_true, decide_eq_true_eq] at eot
  obtain ⟨waits, done⟩ := eot
  cases stage with
  | @wait _ _ start left state counts bound responds clock =>
      rw [counts.cntDone (by omega), decide_eq_true_eq] at done
      exact ⟨start, responds, by omega⟩
  | txStart state | txDir state | txShift state | txCrc state | txStop state | rxStart state
  | rxDir state | rxShift state | rxCrc state =>
      exact absurd (state.symm.trans waits) CmdState.noConfusion

/-- In that clock the command ends. -/
theorem BusyStage.eotO {start : Nat} (stage : BusyStage schedule n cmd) (clock : n = 103 + start)
    (responds : RespondsAt schedule start) (input : SdioCmdInput) : cmd.eotO input = true := by
  cases stage with
  | @wait _ _ other left state counts bound otherResponds otherClock =>
      obtain rfl := responds.1.unique otherResponds.1
      obtain rfl : left = 0 := by omega
      rw [eotO_eq, state, counts.cntDone (by omega)]
      rfl
  | txStart | txDir | txShift _ _ _ earlier | txCrc _ _ _ earlier | txStop => omega
  | rxStart _ _ earlier => omega
  | rxDir _ starts =>
      have := responds.1.unique starts
      omega
  | rxShift _ _ _ otherResponds earlier | rxCrc _ _ _ otherResponds earlier =>
      have := responds.1.unique otherResponds.1
      omega

end Steps

/-! ## Commands -/

section Commands

variable {accepted : SdioCmd} {schedule : Nat → SdioCmdInput}

/-- A command under way is in one of its stages, and no status bit is set. -/
theorem busyStage_run (starts : accepted.state = .txStart) (cleared : accepted.status = 0)
    (holds : ∀ n, UnderWay accepted schedule n → HoldsBusyType (schedule n)) (n : Nat)
    (underWay : UnderWay accepted schedule n) :
    BusyStage schedule n (cmdAt accepted schedule n) ∧ (cmdAt accepted schedule n).status = 0 := by
  induction n with
  | zero => exact ⟨.txStart starts, cleared⟩
  | succ n inductionHypothesis =>
      have before : UnderWay accepted schedule n := fun m upTo =>
        underWay m (Nat.le_succ_of_le upTo)
      obtain ⟨stage, status⟩ := inductionHypothesis before
      have now := underWay (n + 1) (Nat.le_refl _)
      rw [cmdAt_succ] at now ⊢
      rcases stage.step (holds n before) with ⟨next, same⟩ | ⟨idle, -⟩
      · exact ⟨next, same.trans status⟩
      · exact absurd idle now

/-- A command that the card responds to is under way up to its end. -/
theorem underWay_of_responds (starts : accepted.state = .txStart) (cleared : accepted.status = 0)
    (holds : ∀ n, UnderWay accepted schedule n → HoldsBusyType (schedule n)) {start : Nat}
    (responds : RespondsAt schedule start) (n : Nat) (before : n ≤ 103 + start) :
    UnderWay accepted schedule n := by
  induction n with
  | zero =>
      intro m upTo
      rw [Nat.le_zero.mp upTo]
      change accepted.state ≠ _
      rw [starts]
      exact CmdState.noConfusion
  | succ n inductionHypothesis =>
      have earlier := inductionHypothesis (Nat.le_of_succ_le before)
      obtain ⟨stage, -⟩ := busyStage_run starts cleared holds n earlier
      intro m upTo
      rcases Nat.le_succ_iff.mp upTo with inside | rfl
      · exact earlier m inside
      · rw [cmdAt_succ]
        rcases stage.step (holds n earlier) with ⟨next, -⟩ | ⟨-, ends⟩
        · exact next.not_idle
        · have := ends start responds
          omega

/-- A command with a busy response ends with the card ready, or with the busy timeout, if and
only if the card is not busy 54 clocks after the direction bit of its response. -/
theorem respectsBusy_iff (earlier : List SdioCmdInput) (start : SdioCmdInput)
    (starts : StartsCommand (sdioCmd.run earlier) start)
    (holds : ∀ n, UnderWay (sdioCmd.run (earlier ++ [start])) schedule n →
      HoldsBusyType (schedule n)) :
    RespectsBusy (sdioCmd.run (earlier ++ [start])) schedule ↔ ReadyAfterResponse schedule := by
  rw [Machine.run_snoc] at holds ⊢
  have begins : (sdioCmd.step (sdioCmd.run earlier) start).state = .txStart :=
    (step_starts starts).1
  have cleared : (sdioCmd.step (sdioCmd.run earlier) start).status = 0 := step_starts_status starts
  constructor
  · intro respects first responds
    have underWay :=
      underWay_of_responds begins cleared holds responds (103 + first) (Nat.le_refl _)
    obtain ⟨stage, status⟩ := busyStage_run begins cleared holds _ underWay
    rw [← Bool.not_eq_true]
    intro busy
    refine respects _ underWay (stage.eotO rfl responds _) busy ?_
    rw [status]
    rfl
  · intro ready n underWay eot busy
    obtain ⟨stage, -⟩ := busyStage_run begins cleared holds n underWay
    obtain ⟨first, responds, rfl⟩ := stage.ends eot
    exact absurd ((ready first responds).symm.trans busy) Bool.noConfusion

end Commands

/-- A clock of a command with a busy response. -/
def busyClock (start busy sdcmdI : Bool) : SdioCmdInput where
  clrStat := false
  cmdStart := start
  cmdOp := 12
  cmdArg := 0
  cmdRspType := rspType48Bsy
  busy := busy
  sdcmdI := sdcmdI

/-- The card responds at once and is busy all the time, or not at all. -/
def respondsAtOnce (busy : Bool) (n : Nat) : SdioCmdInput := busyClock false busy (n < 48)

theorem respondsAtOnce_ready :
    RespectsBusy (sdioCmd.run ([] ++ [busyClock true false true])) (respondsAtOnce false) :=
  (respectsBusy_iff [] (busyClock true false true) ⟨rfl, rfl, rfl⟩ fun _ _ => ⟨rfl, rfl⟩).mpr
    fun _ _ => rfl

/-- The command ends while the card is busy. -/
theorem respondsAtOnce_not_respectsBusy :
    StartsCommand (sdioCmd.run []) (busyClock true false true) ∧
      (∀ n, HoldsBusyType (respondsAtOnce true n)) ∧
      ¬RespectsBusy (sdioCmd.run [busyClock true false true]) (respondsAtOnce true) := by
  refine ⟨⟨rfl, rfl, rfl⟩, fun _ => ⟨rfl, rfl⟩, fun respects => ?_⟩
  have underWay : UnderWay (sdioCmd.run [busyClock true false true]) (respondsAtOnce true) 103 := by
    have all : ∀ m < 104,
        (cmdAt (sdioCmd.run [busyClock true false true]) (respondsAtOnce true) m).state ≠
          .idle := by
      decide +kernel
    exact fun m upTo => all m (Nat.lt_succ_of_le upTo)
  exact respects 103 underWay (by decide +kernel) rfl (by decide +kernel)

end CoreVMcu.Sdio
