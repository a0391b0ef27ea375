import CoreVMcu.Sdio.Data

/-!
# What holds of the data engine in every clock

While a count goes on the state tells whether it counts bytes or clocks.
-/

namespace CoreVMcu.Sdio

open Clocked

/-- The states that wait for the end of a count which they were entered with. -/
@[simp] def DataState.counting : DataState → Bool
  | .txShift | .txCrc | .txCrcstat | .txBusy | .rxShift | .rxCrc => true
  | .idle | .wait | .txStart | .txStop | .txEnd | .rxStart | .rxStop => false

/-- The states that move data. -/
@[simp] def DataState.shifting : DataState → Bool
  | .txShift | .rxShift => true
  | .idle | .wait | .txStart | .txStop | .txCrc | .txEnd | .txCrcstat | .txBusy | .rxStart
  | .rxStop | .rxCrc => false

/-- The counters agree with the state. -/
structure Consistent (data : SdioData) : Prop where
  byte : data.cntByte = data.state.shifting
  bits : data.cntByte = false → data.bitCnt = 0
  stopped : data.cntRunning = false → data.cnt = 0x1FF
  running : data.state.counting = true → data.cntRunning = true
  timeout : data.sdioTimeout = 0 ∨ data.sdioTimeout = 1 ∧ data.cnt = 0x1FF ∧ data.cntByte = false

theorem Consistent.reset : Consistent .reset where
  byte := rfl
  bits := fun _ => rfl
  stopped := fun _ => rfl
  running := fun counting => absurd counting (by decide)
  timeout := .inl rfl

/-- What the signals of a clock do to the counts: the state is kept, a count starts, or no count
is left. -/
inductive Counted (data : SdioData) (input : SdioDataInput) (signals : DataSignals) : Prop where
  | keeps (state : signals.state = data.state) (quiet : signals.cntStart = false)
      (timeout : signals.sdioTimeout = 0)
      (goesOn : data.state.counting = true → data.cntDone input = false)
  | starts (starts : signals.cntStart = true) (byte : signals.cntByte = signals.state.shifting)
      (timeout : signals.sdioTimeout = 0 ∨
        signals.sdioTimeout = data.sdioTimeout + 1 ∧ data.cntDone input = true ∧
          signals.cntTarget = 0x1FF ∧ signals.cntByte = false)
      (ended : data.state.shifting = true → data.cntDone input = true)
  | ends (quiet : signals.cntStart = false) (timeout : signals.sdioTimeout = 0)
      (waits : signals.state.counting = false) (noByte : data.state.shifting = false)

section Step

variable {data : SdioData} {input : SdioDataInput}

theorem signals_counted (data : SdioData) (input : SdioDataInput) :
    Counted data input (data.signals input) := by
  unfold SdioData.signals
  cases state : data.state with
  | idle =>
      dsimp only
      split
      · refine .ends rfl rfl ?_ (by simp [state])
        dsimp only
        split <;> rfl
      · exact .keeps rfl rfl rfl (by simp [state])
  | txStart => exact .starts rfl rfl (.inl rfl) (by simp [state])
  | txShift =>
      dsimp only
      split
      · next done => exact .starts rfl rfl (.inl rfl) fun _ => done
      · next running => exact .keeps rfl rfl rfl fun _ => by simpa using running
  | txCrc =>
      dsimp only
      split
      · exact .ends rfl rfl rfl (by simp [state])
      · next running => exact .keeps rfl rfl rfl fun _ => by simpa using running
  | txEnd => exact .starts rfl rfl (.inl rfl) (by simp [state])
  | txCrcstat =>
      dsimp only
      split
      · exact .starts rfl rfl (.inl rfl) (by simp [state])
      · next running => exact .keeps rfl rfl rfl fun _ => by simpa using running
  | txBusy =>
      dsimp only
      split
      · next done =>
        split
        · exact .ends rfl rfl rfl (by simp [state])
        · exact .starts rfl (by simp [SdioData.defaults, state]) (.inr ⟨rfl, done, rfl, rfl⟩)
            (by simp [state])
      · next running =>
        split
        · split
          · exact .ends rfl rfl rfl (by simp [state])
          · exact .ends rfl rfl rfl (by simp [state])
        · exact .keeps rfl rfl rfl fun _ => by simpa using running
  | rxStart =>
      dsimp only
      split
      · exact .starts rfl rfl (.inl rfl) (by simp [state])
      · split
        · exact .ends rfl rfl rfl (by simp [state])
        · exact .keeps rfl rfl rfl (by simp [state])
  | rxShift =>
      dsimp only
      split
      · next done => exact .starts rfl rfl (.inl rfl) fun _ => done
      · next running => exact .keeps rfl rfl rfl fun _ => by simpa using running
  | rxCrc =>
      dsimp only
      split
      · split
        · exact .ends rfl rfl rfl (by simp [state])
        · exact .ends rfl rfl rfl (by simp [state])
      · next running => exact .keeps rfl rfl rfl fun _ => by simpa using running
  | wait =>
      dsimp only
      split
      · exact .ends rfl rfl rfl (by simp [state])
      · exact .keeps rfl rfl rfl (by simp [state])
  | txStop => exact .keeps rfl rfl rfl (by simp [state])
  | rxStop => exact .keeps rfl rfl rfl (by simp [state])

/-! ## The counters after a clock -/

theorem DataState.counting_of_shifting {state : DataState} (shifting : state.shifting = true) :
    state.counting = true := by
  cases state <;> simp_all

theorem nextCnt_starts (starts : (data.signals input).cntStart = true) :
    data.nextCnt input =
      ((data.signals input).cntTarget, true, (data.signals input).cntByte, 0) := by
  simp [SdioData.nextCnt, starts]

theorem nextCnt_done (quiet : (data.signals input).cntStart = false)
    (done : data.cntDone input = true) : data.nextCnt input = (0x1FF, false, false, 0) := by
  simp [SdioData.nextCnt, quiet, done]

/-- A count that is not over goes on as it was. -/
theorem nextCnt_goesOn (quiet : (data.signals input).cntStart = false)
    (running : data.cntDone input = false) :
    (data.nextCnt input).2.1 = data.cntRunning ∧ (data.nextCnt input).2.2.1 = data.cntByte := by
  rw [SdioData.nextCnt, quiet, running]
  simp only [Bool.false_eq_true, if_false]
  split <;> exact ⟨rfl, rfl⟩

theorem nextCnt_stopped (quiet : (data.signals input).cntStart = false)
    (stopped : data.cntRunning = false → data.cnt = 0x1FF)
    (after : (data.nextCnt input).2.1 = false) : (data.nextCnt input).1 = 0x1FF := by
  cases done : data.cntDone input with
  | true => rw [nextCnt_done quiet done]
  | false =>
      rw [(nextCnt_goesOn quiet done).1] at after
      simp [SdioData.nextCnt, quiet, done, after, stopped after]

theorem nextCnt_noByte (quiet : (data.signals input).cntStart = false)
    (noByte : data.cntByte = false) : (data.nextCnt input).2.2.1 = false := by
  cases done : data.cntDone input with
  | true => rw [nextCnt_done quiet done]
  | false => rw [(nextCnt_goesOn quiet done).2, noByte]

theorem cntDone_of_noByte (noByte : data.cntByte = false) :
    data.cntDone input = (data.cnt == 0) := by
  simp [SdioData.cntDone, noByte]

/-- A count of bytes is over with the last bit of one. -/
theorem nextBitCnt_of_over (bits : data.cntByte = false → data.bitCnt = 0)
    (ended : data.cntByte = true → data.cntDone input = true) : data.nextBitCnt input = 0 := by
  cases byte : data.cntByte with
  | false => simp [SdioData.nextBitCnt, byte, bits byte]
  | true =>
      have done := ended byte
      simp only [SdioData.cntDone, byte, if_true, Bool.and_eq_true] at done
      simp [SdioData.nextBitCnt, byte, done.2]

theorem Consistent.step (consistent : Consistent data) (noClear : input.clrStat = false) :
    Consistent (data.step input) := by
  have next : (data.step input).state = (data.signals input).state := by
    simp [SdioData.step, noClear]
  cases signals_counted data input with
  | keeps state quiet timeout goesOn =>
      have byteGoesOn : data.cntByte = true → data.cntDone input = false := fun byte =>
        goesOn (DataState.counting_of_shifting (consistent.byte ▸ byte))
      refine ⟨?_, ?_, nextCnt_stopped quiet consistent.stopped, ?_, .inl timeout⟩
      · rw [next, state, ← consistent.byte]
        change (data.nextCnt input).2.2.1 = _
        cases byte : data.cntByte with
        | true => rw [(nextCnt_goesOn quiet (byteGoesOn byte)).2, byte]
        | false => exact nextCnt_noByte quiet byte
      · intro after
        cases byte : data.cntByte with
        | true =>
            have same : data.cntByte = false :=
              (nextCnt_goesOn quiet (byteGoesOn byte)).2.symm.trans after
            exact Bool.noConfusion (byte.symm.trans same)
        | false => exact nextBitCnt_of_over consistent.bits (by simp [byte])
      · intro counting
        rw [next, state] at counting
        exact (nextCnt_goesOn quiet (goesOn counting)).1.trans (consistent.running counting)
  | starts starts byte timeout ended =>
      have counters := nextCnt_starts starts
      refine ⟨?_, ?_, ?_, ?_, ?_⟩
      · rw [next, ← byte]
        exact congrArg (·.2.2.1) counters
      · exact fun _ => nextBitCnt_of_over consistent.bits fun byte =>
          ended (consistent.byte ▸ byte)
      · intro stopped
        exact Bool.noConfusion ((congrArg (·.2.1) counters).symm.trans stopped)
      · exact fun _ => congrArg (·.2.1) counters
      · rcases timeout with none | ⟨more, done, target, noByte⟩
        · exact .inl none
        · refine .inr ⟨more.trans ?_, (congrArg (·.1) counters).trans target,
            (congrArg (·.2.2.1) counters).trans noByte⟩
          rcases consistent.timeout with zero | ⟨_, full, clocks⟩
          · rw [zero]
            rfl
          · rw [cntDone_of_noByte clocks, full] at done
            exact absurd done (by decide)
  | ends quiet timeout waits noByte =>
      have clocks : data.cntByte = false := consistent.byte.trans noByte
      refine ⟨?_, ?_, nextCnt_stopped quiet consistent.stopped, ?_, .inl timeout⟩
      · rw [next]
        refine (nextCnt_noByte quiet clocks).trans (Eq.symm ?_)
        cases shifting : (data.signals input).state.shifting with
        | false => rfl
        | true =>
            exact Bool.noConfusion (waits.symm.trans (DataState.counting_of_shifting shifting))
      · exact fun _ => nextBitCnt_of_over consistent.bits (by simp [clocks])
      · intro counting
        rw [next] at counting
        exact Bool.noConfusion (waits.symm.trans counting)

end Step

theorem Consistent.runFrom {data : SdioData} (consistent : Consistent data)
    {inputs : List SdioDataInput} (noClear : ∀ input ∈ inputs, input.clrStat = false) :
    Consistent (sdioData.runFrom data inputs) := by
  induction inputs generalizing data with
  | nil => exact consistent
  | cons input inputs inductionHypothesis =>
      rw [List.forall_mem_cons] at noClear
      exact inductionHypothesis (consistent.step noClear.1) noClear.2

/-- In every run in which the status is not cleared. -/
theorem run_consistent {inputs : List SdioDataInput}
    (noClear : ∀ input ∈ inputs, input.clrStat = false) : Consistent (sdioData.run inputs) :=
  Consistent.reset.runFrom noClear

end CoreVMcu.Sdio
