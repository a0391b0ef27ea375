import CoreVMcu.Sdio.DataInvariant
import CoreVMcu.Clocked.Counters
import Mathlib.Order.OrderIsoNat

/-!
# The waits of the data engine

A read waits for a start bit, a write for the end of the busy signal.  The counter that bounds
the first wait is not started, and the outer counter of the second one is cleared in every clock
that does not raise it.
-/

namespace CoreVMcu.Sdio

open Clocked

/-- `r_cnt`, `r_cnt_running` and `r_sdio_timeout`. -/
def SdioData.timeoutRegisters (data : SdioData) : BitVec 9 × Bool × BitVec 11 :=
  (data.cnt, data.cntRunning, data.sdioTimeout)

/-- The state is kept along some clocks. -/
def Waits (data : SdioData) (inputs : List SdioDataInput) : Prop :=
  (∀ input ∈ inputs, input.clrStat = false) ∧
    ∀ n ≤ inputs.length, (sdioData.runFrom data (inputs.take n)).state = data.state

/-- The line does not answer: there is no start bit, or the card stays busy. -/
def Unanswered (state : DataState) (input : SdioDataInput) : Prop :=
  input.sddataI.getLsbD 0 = decide (state = .rxStart)

/-- A clock goes back to idle, with the end of the transfer or with the status of a timeout. -/
def TimesOut (data : SdioData) (input : SdioDataInput) : Prop :=
  (data.step input).state = .idle ∧
    (data.eotO input = true ∨ (data.step input).status &&& dataRspTimeout ≠ 0)

/-- The wait in a state is bounded by the timeout registers. -/
structure WaitBounded (data : SdioData) : Prop where
  decreases : ∃ measure : BitVec 9 × Bool × BitVec 11 → Nat,
    ∀ inputs input, Waits data (inputs ++ [input]) →
      measure (sdioData.runFrom data (inputs ++ [input])).timeoutRegisters <
        measure (sdioData.runFrom data inputs).timeoutRegisters
  ends : ∀ schedule : Nat → SdioDataInput,
    (∀ n, (schedule n).clrStat = false ∧ Unanswered data.state (schedule n)) →
      ∃ n, Waits data (inputsUpTo schedule n) ∧
        TimesOut (sdioData.runFrom data (inputsUpTo schedule n)) (schedule n)

section Waiting

variable {data : SdioData} {input : SdioDataInput}

/-! ## Waits without an end -/

/-- A state that is kept for good has no measure. -/
theorem not_waitBounded_of_kept {input : SdioDataInput}
    (kept : ∀ n, Waits data (List.replicate n input)) : ¬WaitBounded data := by
  rintro ⟨⟨measure, decreases⟩, _⟩
  obtain ⟨n, stays⟩ := WellFounded.not_rel_apply_succ (r := (· < ·)) fun n =>
    measure (sdioData.runFrom data (List.replicate n input)).timeoutRegisters
  refine stays ?_
  have next := decreases (List.replicate n input) input
  rw [← List.replicate_succ'] at next
  exact next (kept (n + 1))

/-- What holds in a state and keeps it is kept for good. -/
theorem waits_replicate {input : SdioDataInput} {motive : SdioData → Prop}
    (noClear : input.clrStat = false) (now : motive data)
    (next : ∀ later, motive later → later.state = data.state →
      motive (later.step input) ∧ (later.step input).state = data.state) (n : Nat) :
    Waits data (List.replicate n input) := by
  have along : ∀ n, motive (sdioData.runFrom data (List.replicate n input)) ∧
      (sdioData.runFrom data (List.replicate n input)).state = data.state := by
    intro n
    induction n with
    | zero => exact ⟨now, rfl⟩
    | succ n inductionHypothesis =>
        rw [List.replicate_succ', Machine.runFrom_append]
        exact next _ inductionHypothesis.1 inductionHypothesis.2
  refine ⟨fun member inside => (List.eq_of_mem_replicate inside) ▸ noClear, fun k before => ?_⟩
  rw [List.take_replicate]
  exact (along _).2

/-- The wait for a start bit changes nothing but the count. -/
theorem signals_rxStart (state : data.state = .rxStart) (noAnswer : input.sddataI.getLsbD 0 = true)
    (running : data.cntDone input = false) : data.signals input = data.defaults := by
  simp only [SdioData.signals, state, noAnswer, running]
  rfl

theorem step_rxStart (state : data.state = .rxStart) (noClear : input.clrStat = false)
    (noAnswer : input.sddataI.getLsbD 0 = true) (running : data.cntDone input = false) :
    (data.step input).state = .rxStart := by
  simp [SdioData.step, noClear, signals_rxStart state noAnswer running, SdioData.defaults, state]

/-- The wait for a start bit while no count runs. -/
theorem step_rxStart_stopped (consistent : Consistent data) (state : data.state = .rxStart)
    (stopped : data.cntRunning = false) (noClear : input.clrStat = false)
    (noAnswer : input.sddataI.getLsbD 0 = true) :
    (data.step input).state = .rxStart ∧ (data.step input).cntRunning = false := by
  have clocks : data.cntByte = false := by simp [consistent.byte, state]
  have running : data.cntDone input = false := by
    rw [cntDone_of_noByte clocks, consistent.stopped stopped]
    rfl
  refine ⟨step_rxStart state noClear noAnswer running, ?_⟩
  have quiet : (data.signals input).cntStart = false := by
    rw [signals_rxStart state noAnswer running]
    rfl
  exact (nextCnt_goesOn quiet running).1.trans stopped

/-- The wait for the end of the busy signal. -/
theorem step_txBusy_unanswered (consistent : Consistent data) (state : data.state = .txBusy)
    (noClear : input.clrStat = false) (noAnswer : input.sddataI.getLsbD 0 = false) :
    (data.step input).state = .txBusy := by
  have below : (data.sdioTimeout == 0x3FF) = false := by
    rcases consistent.timeout with zero | ⟨one, _⟩
    · rw [zero]
      rfl
    · rw [one]
      rfl
  cases done : data.cntDone input <;>
    simp only [SdioData.step, SdioData.signals, state, noClear, noAnswer, done, below] <;>
    exact state

/-! ## A wait with an end -/

/-- A wait for a start bit while a count runs. -/
structure CountsDown (data : SdioData) : Prop where
  state : data.state = .rxStart
  running : data.cntRunning = true
  clocks : data.cntByte = false

theorem CountsDown.timesOut (counts : CountsDown data) (noClear : input.clrStat = false)
    (noAnswer : input.sddataI.getLsbD 0 = true) (ended : data.cnt = 0) : TimesOut data input := by
  have done : data.cntDone input = true := by
    rw [cntDone_of_noByte counts.clocks, ended]
    rfl
  have signals : data.signals input =
      { data.defaults with
        status := data.status ||| dataRspTimeout, statusSample := true, state := .idle } := by
    simp only [SdioData.signals, counts.state, noAnswer, done]
    rfl
  refine ⟨by simp [SdioData.step, signals, noClear], .inr ?_⟩
  simp only [SdioData.step, signals, noClear]
  intro clear
  have bit := congrArg (·.getLsbD 0) clear
  simp [dataRspTimeout] at bit

theorem CountsDown.goesOn (counts : CountsDown data) (noClear : input.clrStat = false)
    (noAnswer : input.sddataI.getLsbD 0 = true) (more : data.cnt ≠ 0) :
    (data.step input).state = .rxStart := by
  refine step_rxStart counts.state noClear noAnswer ?_
  rw [cntDone_of_noByte counts.clocks]
  simpa using more

/-- A clock in which the wait goes on lowers the count. -/
theorem CountsDown.keeps (counts : CountsDown data) (noClear : input.clrStat = false)
    (kept : (data.step input).state = .rxStart) :
    CountsDown (data.step input) ∧ (data.step input).cnt.toNat + 1 = data.cnt.toNat := by
  have waits : input.sddataI.getLsbD 0 = true ∧ data.cntDone input = false := by
    simp only [SdioData.step, SdioData.signals, counts.state, noClear] at kept
    cases answer : input.sddataI.getLsbD 0 <;> cases done : data.cntDone input <;>
      simp_all
  have quiet := signals_rxStart counts.state waits.1 waits.2
  have counters : data.nextCnt input = (data.cnt - 1, true, false, data.byteInWord) := by
    simp [SdioData.nextCnt, quiet, SdioData.defaults, waits.2, counts.running, counts.clocks]
  have more : data.cnt ≠ 0 := by
    have running := waits.2
    rw [cntDone_of_noByte counts.clocks] at running
    simpa using running
  refine ⟨⟨kept, congrArg (·.2.1) counters, congrArg (·.2.2.1) counters⟩, ?_⟩
  have next : (data.step input).cnt = data.cnt - 1 := congrArg (·.1) counters
  rw [next, toNat_pred_add_one more]

theorem waits_snoc {inputs : List SdioDataInput} :
    Waits data (inputs ++ [input]) ↔
      Waits data inputs ∧ input.clrStat = false ∧
        (sdioData.runFrom data (inputs ++ [input])).state = data.state := by
  constructor
  · intro waits
    refine ⟨⟨fun member inside => waits.1 member (List.mem_append_left _ inside), ?_⟩,
      waits.1 input (by simp), ?_⟩
    · intro n inside
      have kept := waits.2 n (by simp only [List.length_append]; omega)
      rwa [List.take_append_of_le_length inside] at kept
    · have kept := waits.2 (inputs ++ [input]).length (Nat.le_refl _)
      rwa [List.take_length] at kept
  · rintro ⟨waits, noClear, kept⟩
    refine ⟨?_, fun n inside => ?_⟩
    · rw [List.forall_mem_append]
      exact ⟨waits.1, by simpa using noClear⟩
    · rw [List.length_append, List.length_singleton] at inside
      rcases Nat.lt_or_eq_of_le inside with before | last
      · rw [List.take_append_of_le_length (Nat.le_of_lt_succ before)]
        exact waits.2 n (Nat.le_of_lt_succ before)
      · rwa [last, ← List.length_singleton (a := input), ← List.length_append, List.take_length]

theorem waits_nil : Waits data [] := by
  refine ⟨by simp, fun n _ => ?_⟩
  rw [List.take_nil]
  rfl

/-- While the wait goes on the count runs. -/
theorem CountsDown.along (counts : CountsDown data) {inputs : List SdioDataInput}
    (waits : Waits data inputs) : CountsDown (sdioData.runFrom data inputs) := by
  induction inputs using List.reverseRecOn with
  | nil => exact counts
  | append_singleton inputs input inductionHypothesis =>
      obtain ⟨before, noClear, kept⟩ := waits_snoc.mp waits
      rw [Machine.runFrom_append] at kept ⊢
      exact ((inductionHypothesis before).keeps noClear (kept.trans counts.state)).1

/-- Without an answer the wait goes on until the count is over. -/
theorem CountsDown.waits_inputsUpTo (counts : CountsDown data) {schedule : Nat → SdioDataInput}
    (noClear : ∀ n, (schedule n).clrStat = false)
    (noAnswer : ∀ n, (schedule n).sddataI.getLsbD 0 = true) {n : Nat}
    (within : n ≤ data.cnt.toNat) :
    Waits data (inputsUpTo schedule n) ∧
      (sdioData.runFrom data (inputsUpTo schedule n)).cnt.toNat + n = data.cnt.toNat := by
  induction n with
  | zero => exact ⟨waits_nil, rfl⟩
  | succ n inductionHypothesis =>
      obtain ⟨waits, left⟩ := inductionHypothesis (Nat.le_of_succ_le within)
      have now := counts.along waits
      have more : (sdioData.runFrom data (inputsUpTo schedule n)).cnt ≠ 0 := by
        intro ended
        rw [ended] at left
        exact absurd left (by simp; omega)
      have kept := now.goesOn (noClear n) (noAnswer n) more
      have lower := (now.keeps (noClear n) kept).2
      rw [inputsUpTo_succ, waits_snoc, Machine.runFrom_append]
      refine ⟨⟨waits, noClear n, kept.trans counts.state.symm⟩, ?_⟩
      change (SdioData.step _ (schedule n)).cnt.toNat + (n + 1) = _
      omega

theorem CountsDown.waitBounded (counts : CountsDown data) : WaitBounded data where
  decreases := by
    refine ⟨fun registers => registers.1.toNat, fun inputs input waits => ?_⟩
    obtain ⟨before, noClear, kept⟩ := waits_snoc.mp waits
    rw [Machine.runFrom_append] at kept ⊢
    have lower := ((counts.along before).keeps noClear (kept.trans counts.state)).2
    exact Nat.lt_of_succ_le lower.le
  ends := by
    intro schedule unanswered
    have noAnswer : ∀ n, (schedule n).sddataI.getLsbD 0 = true := fun n => by
      rw [(unanswered n).2, counts.state]
      rfl
    obtain ⟨waits, left⟩ := counts.waits_inputsUpTo (fun n => (unanswered n).1) noAnswer
      (Nat.le_refl data.cnt.toNat)
    refine ⟨data.cnt.toNat, waits, (counts.along waits).timesOut (unanswered _).1 (noAnswer _) ?_⟩
    apply BitVec.eq_of_toNat_eq
    exact Nat.add_eq_right.mp left

end Waiting

/-- The card keeps the line low. -/
def busyData : SdioDataInput := { quietData with sddataI := 0 }

theorem not_waitBounded_rxStart {data : SdioData} (consistent : Consistent data)
    (state : data.state = .rxStart) (stopped : data.cntRunning = false) : ¬WaitBounded data := by
  refine not_waitBounded_of_kept fun n =>
    waits_replicate (motive := fun later => Consistent later ∧ later.cntRunning = false)
      (show quietData.clrStat = false from rfl) ⟨consistent, stopped⟩ ?_ n
  rintro later ⟨now, rests⟩ same
  obtain ⟨kept, next⟩ := step_rxStart_stopped now (same.trans state) rests
    (show quietData.clrStat = false from rfl) rfl
  exact ⟨⟨now.step rfl, next⟩, kept.trans state.symm⟩

theorem not_waitBounded_txBusy {data : SdioData} (consistent : Consistent data)
    (state : data.state = .txBusy) : ¬WaitBounded data := by
  refine not_waitBounded_of_kept fun n =>
    waits_replicate (motive := Consistent) (show busyData.clrStat = false from rfl) consistent ?_ n
  intro later now same
  refine ⟨now.step rfl, (step_txBusy_unanswered now (same.trans state) ?_ rfl).trans state.symm⟩
  rfl

/-- The waits of every run: only a wait for a start bit with a count left over from before is
bounded. -/
theorem waitBounded_iff (inputs : List SdioDataInput)
    (noClear : ∀ input ∈ inputs, input.clrStat = false)
    (waits : (sdioData.run inputs).state = .rxStart ∨ (sdioData.run inputs).state = .txBusy) :
    WaitBounded (sdioData.run inputs) ↔
      (sdioData.run inputs).state = .rxStart ∧ (sdioData.run inputs).cntRunning = true := by
  have consistent := run_consistent noClear
  constructor
  · intro bounded
    rcases waits with state | state
    · refine ⟨state, ?_⟩
      by_contra stopped
      exact not_waitBounded_rxStart consistent state (Bool.eq_false_of_not_eq_true stopped) bounded
    · exact absurd bounded (not_waitBounded_txBusy consistent state)
  · rintro ⟨state, running⟩
    exact CountsDown.waitBounded ⟨state, running, by simp [consistent.byte, state]⟩

/-- After a read has been started from reset. -/
theorem startsRead_waitBounded_iff :
    WaitBounded (sdioData.run [startsRead]) ↔
      (sdioData.run [startsRead]).state = .rxStart ∧
        (sdioData.run [startsRead]).cntRunning = true :=
  waitBounded_iff [startsRead] (by decide) (.inl rfl)

/-- The first read after reset waits for its start bit for good. -/
theorem startsRead_not_waitBounded :
    (sdioData.run [startsRead]).state = .rxStart ∧ ¬WaitBounded (sdioData.run [startsRead]) :=
  ⟨rfl, not_waitBounded_rxStart (run_consistent (by decide)) rfl rfl⟩

end CoreVMcu.Sdio
