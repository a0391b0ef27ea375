import CoreVMcu.Soc.EventDelivery

/-!
# The error registers of the event generator

An overflow of an event queue sets the bit of its line; a read of the error register of the
line returns the bits and clears them.
-/

namespace CoreVMcu.Soc

open Clocked Arbitration

theorem oneBit_getLsbD {i : Nat} (lane : Nat) (inside : i < 256) :
    (1#256 <<< lane).getLsbD i = decide (lane = i) := by
  rw [BitVec.getLsbD_shiftLeft, BitVec.getLsbD_one, decide_eq_true inside, Bool.eq_iff_iff]
  simp
  omega

theorem lowWord_getLsbD (i : Nat) : (0xFFFFFFFF#256).getLsbD i = decide (i < 32) := by
  have ones : 0xFFFFFFFF#256 = (BitVec.allOnes 32).setWidth 256 := rfl
  rw [ones, BitVec.getLsbD_setWidth, BitVec.getLsbD_allOnes, Bool.eq_iff_iff]
  simp only [Bool.and_eq_true, decide_eq_true_eq]
  omega

/-- A bit of a word that is read. -/
theorem readWord_getLsbD (vector : BitVec 256) (i : Nat) :
    (readWord vector (i / 32)).getLsbD (i % 32) = vector.getLsbD i := by
  rw [readWord, BitVec.getLsbD_extractLsb', Nat.div_add_mod,
    decide_eq_true (Nat.mod_lt i (by decide)),
    Bool.true_and]

/-- Clearing a word. -/
theorem writeWord_zero_getLsbD (vector : BitVec 256) (index i : Nat) (inside : i < 256) :
    (writeWord vector index 0#32).getLsbD i = (vector.getLsbD i && !decide (i / 32 = index)) := by
  have zero : (0#32).setWidth 256 <<< (32 * index) = 0#256 := by simp
  rw [writeWord, zero, BitVec.or_zero, BitVec.getLsbD_and,
    BitVec.getLsbD_not, BitVec.getLsbD_shiftLeft, lowWord_getLsbD, decide_eq_true inside]
  have inWord : (!decide (i < 32 * index) && decide (i - 32 * index < 32)) =
      decide (i / 32 = index) := by
    rw [Bool.eq_iff_iff]
    simp only [Bool.and_eq_true, Bool.not_eq_true', decide_eq_false_iff_not, decide_eq_true_eq]
    omega
  rw [Bool.true_and, Bool.true_and, inWord]

/-- Bits that are set one after the other. -/
theorem foldl_setBits_getLsbD {Lane : Type} (number : Lane → Nat) (sets : Lane → Bool)
    (lanes : List Lane) (vector : BitVec 256) {i : Nat} (inside : i < 256) :
    (lanes.foldl (fun vector lane =>
        if sets lane then vector ||| (1#256 <<< number lane) else vector) vector).getLsbD i =
      (vector.getLsbD i || lanes.any fun lane => sets lane && decide (number lane = i)) := by
  induction lanes generalizing vector with
  | nil => exact (Bool.or_false _).symm
  | cons lane lanes inductionHypothesis =>
      rw [List.foldl_cons, inductionHypothesis, List.any_cons]
      cases sets lane with
      | false => rfl
      | true => rw [if_pos rfl, BitVec.getLsbD_or, oneBit_getLsbD _ inside, Bool.true_and,
          Bool.or_assoc]

variable {perEvntNum apbEvntNum : Nat} {arbiter : Arbiter (evntNum perEvntNum apbEvntNum)}
variable (lane : Fin (evntNum perEvntNum apbEvntNum))
variable (generator : SocEventGenerator arbiter) (input : EventInput perEvntNum)

/-- The bit of a line is set when its queue overflows. -/
theorem errVector_getLsbD (fits : evntNum perEvntNum apbEvntNum ≤ 256) :
    (generator.errVector input).getLsbD lane = generator.queueErr input lane := by
  rw [SocEventGenerator.errVector,
    foldl_setBits_getLsbD _ _ _ _ (Nat.lt_of_lt_of_le lane.isLt fits), BitVec.getLsbD_zero,
    Bool.false_or, Bool.eq_iff_iff, List.any_eq_true]
  constructor
  · rintro ⟨other, -, both⟩
    rw [Bool.and_eq_true, decide_eq_true_eq] at both
    rw [← Fin.ext both.2]
    exact both.1
  · intro overflows
    exact ⟨lane, List.mem_finRange lane, by rw [overflows, decide_eq_true rfl]; rfl⟩

/-! ## Overflows and reads of a line -/

/-- A read of the error register of a line. -/
def readsErr : Bool := input.reads && input.apbAddr == regErr + lane.val / 32

/-- A read that returns the bit of a line. -/
def returnsErr : Bool := readsErr lane input && (generator.prdata input).getLsbD (lane.val % 32)

/-- The bit of a line. -/
def errBit : Bool := generator.err.getLsbD lane

theorem bankWord_regErr (fits : evntNum perEvntNum apbEvntNum ≤ 256) :
    bankWord regErr (regErr + lane.val / 32) = some (lane.val / 32) := by
  rw [bankWord, regErr, if_pos (by omega), Nat.add_sub_cancel_left]

theorem bankWord_other {base addr index : Nat} (found : bankWord base addr = some index) :
    addr = base + index := by
  rw [bankWord] at found
  split at found
  · next inside => rw [← Option.some.inj found, Nat.add_sub_cancel' inside.1]
  · cases found

/-- A read returns the bit that is stored. -/
theorem returnsErr_eq (fits : evntNum perEvntNum apbEvntNum ≤ 256) :
    returnsErr lane generator input = (readsErr lane input && errBit lane generator) := by
  rw [returnsErr]
  cases reads : readsErr lane input with
  | false => rfl
  | true =>
      rw [readsErr, Bool.and_eq_true, beq_iff_eq] at reads
      have word := bankWord_regErr lane fits
      have others : ∀ base, base + 8 ≤ regErr → bankWord base (regErr + lane.val / 32) = none :=
        fun base below => if_neg (by omega)
      rw [SocEventGenerator.prdata, reads.2, readBank, readBank, readBank, readBank,
        others regFcMask (by decide), others regClMask (by decide), others regPrMask (by decide),
        word]
      exact congrArg (true && ·) (readWord_getLsbD generator.err lane)

/-- One cycle of the bit of a line: a read clears it even in the cycle of an overflow. -/
theorem errBit_step (fits : evntNum perEvntNum apbEvntNum ≤ 256) :
    errBit lane (generator.step input) =
      ((errBit lane generator || generator.queueErr input lane) && !readsErr lane input) := by
  have set : (generator.err ||| generator.errVector input).getLsbD lane =
      (errBit lane generator || generator.queueErr input lane) := by
    rw [BitVec.getLsbD_or, errVector_getLsbD lane generator input fits]
    rfl
  rw [errBit, SocEventGenerator.step, readsErr]
  cases reads : input.reads with
  | false =>
      rw [Bool.false_and, Bool.not_false, Bool.and_true]
      exact set
  | true =>
      change (writeBank regErr input.apbAddr _ 0#32).getLsbD lane = _
      rw [writeBank, Bool.true_and]
      cases found : bankWord regErr input.apbAddr with
      | none =>
          have other : (input.apbAddr == regErr + lane.val / 32) = false := by
            rw [beq_eq_false_iff_ne]
            intro same
            rw [same, bankWord_regErr lane fits] at found
            cases found
          rw [other, Bool.not_false, Bool.and_true]
          exact set
      | some index =>
          have same : (input.apbAddr == regErr + lane.val / 32) =
              decide (lane.val / 32 = index) := by
            rw [bankWord_other found, Bool.eq_iff_iff, beq_iff_eq, decide_eq_true_eq,
              Nat.add_left_cancel_iff, eq_comm]
          rw [same, ← set]
          exact writeWord_zero_getLsbD _ index lane (Nat.lt_of_lt_of_le lane.isLt fits)

/-! ## Every overflow is reported -/

/-- Every overflow of a line before a later read of its error register is returned by some read
from its own cycle on, and a bit that is set or being set is only cleared by a read that
returns it. -/
structure OverflowsReported (arbiter : Arbiter (evntNum perEvntNum apbEvntNum))
    (inputs : List (EventInput perEvntNum)) : Prop where
  visible : ∀ (lane : Fin (evntNum perEvntNum apbEvntNum)) (i j : Nat) (earlier : i < j)
    (inside : j < inputs.length),
    ((eventMachine arbiter).run (inputs.take i)).queueErr inputs[i] lane = true →
    readsErr lane inputs[j] = true →
    ∃ (k : Nat) (within : k ≤ j), i ≤ k ∧
      returnsErr lane ((eventMachine arbiter).run (inputs.take k)) inputs[k] = true
  cleared : (eventMachine arbiter).Always (fun generator input => ∀ lane,
    (errBit lane generator || generator.queueErr input lane) = true →
    errBit lane (generator.step input) = false → returnsErr lane generator input = true) inputs

/-- A line whose error register is read overflows only when its bit is set already. -/
def NoOverflowWhenRead (generator : SocEventGenerator arbiter) (input : EventInput perEvntNum) :
    Prop :=
  ∀ lane, readsErr lane input = true → generator.queueErr input lane = true →
    errBit lane generator = true

instance : Decidable (NoOverflowWhenRead generator input) :=
  inferInstanceAs (Decidable (∀ lane, readsErr lane input = true →
    generator.queueErr input lane = true → errBit lane generator = true))

/-- In one cycle. -/
theorem cleared_iff (fits : evntNum perEvntNum apbEvntNum ≤ 256) :
    (∀ lane, (errBit lane generator || generator.queueErr input lane) = true →
      errBit lane (generator.step input) = false → returnsErr lane generator input = true) ↔
      NoOverflowWhenRead generator input := by
  refine forall_congr' fun lane => ?_
  rw [errBit_step lane generator input fits, returnsErr_eq lane generator input fits]
  cases readsErr lane input <;> cases errBit lane generator <;>
    cases generator.queueErr input lane <;> decide

/-- A bit that is set stays until a read returns it. -/
theorem errBit_returned (fits : evntNum perEvntNum apbEvntNum ≤ 256)
    {inputs : List (EventInput perEvntNum)} {i j : Nat} (earlier : i ≤ j)
    (inside : j < inputs.length)
    (set : errBit lane ((eventMachine arbiter).run (inputs.take i)) = true)
    (reads : readsErr lane inputs[j] = true) :
    ∃ (k : Nat) (within : k ≤ j), i ≤ k ∧
      returnsErr lane ((eventMachine arbiter).run (inputs.take k)) inputs[k] = true := by
  induction earlier using Nat.decreasingInduction with
  | self =>
      refine ⟨j, Nat.le_refl j, Nat.le_refl j, ?_⟩
      rw [returnsErr_eq lane _ _ fits, reads, set]
      rfl
  | of_succ i below inductionHypothesis =>
      have here : i < inputs.length := Nat.lt_of_le_of_lt (Nat.le_of_lt below) inside
      cases readsNow : readsErr lane inputs[i] with
      | true =>
          refine ⟨i, Nat.le_of_lt below, Nat.le_refl i, ?_⟩
          rw [returnsErr_eq lane _ _ fits, readsNow, set]
          rfl
      | false =>
          obtain ⟨k, within, after, returned⟩ := inductionHypothesis (by
            rw [Machine.run_take_succ _ here]
            change errBit lane (SocEventGenerator.step _ _) = true
            rw [errBit_step lane _ _ fits, readsNow, set]
            rfl)
          exact ⟨k, within, Nat.le_of_succ_le after, returned⟩

/-- For every arbiter and every run of at most 256 lines: the overflows are reported exactly
when no line whose error register is read overflows with its bit still clear. -/
theorem overflowsReported_iff (arbiter : Arbiter (evntNum perEvntNum apbEvntNum))
    (fits : evntNum perEvntNum apbEvntNum ≤ 256) (inputs : List (EventInput perEvntNum)) :
    OverflowsReported arbiter inputs ↔
      (eventMachine arbiter).Always NoOverflowWhenRead inputs := by
  have everyCycle : (eventMachine arbiter).Always (fun generator input => ∀ lane,
        (errBit lane generator || generator.queueErr input lane) = true →
        errBit lane (generator.step input) = false → returnsErr lane generator input = true)
        inputs ↔ (eventMachine arbiter).Always NoOverflowWhenRead inputs :=
    Machine.always_congr (fun _ _ => cleared_iff _ _ fits) inputs
  constructor
  · exact fun reported => everyCycle.mp reported.cleared
  · intro quiet
    refine ⟨?_, everyCycle.mpr quiet⟩
    intro lane i j earlier inside overflows reads
    have here : i < inputs.length := Nat.lt_trans earlier inside
    cases readsNow : readsErr lane inputs[i] with
    | true =>
        have set := quiet.getElem here lane readsNow overflows
        refine ⟨i, Nat.le_of_lt earlier, Nat.le_refl i, ?_⟩
        rw [returnsErr_eq lane _ _ fits, readsNow, set]
        rfl
    | false =>
        have set : errBit lane ((eventMachine arbiter).run (inputs.take (i + 1))) = true := by
          rw [Machine.run_take_succ _ here]
          change errBit lane (SocEventGenerator.step _ _) = true
          rw [errBit_step lane _ _ fits, readsNow, overflows, Bool.or_true]
          rfl
        obtain ⟨k, within, after, returned⟩ := errBit_returned lane fits earlier inside set reads
        exact ⟨k, within, Nat.le_of_succ_le after, returned⟩

/-- A read of the first error register. -/
def errRead (event : Bool) : EventInput 1 :=
  { eventCycle event false false with paddr := 0x64#12, psel := true, penable := true }

/-- A fourth occurrence overflows the queue and its register is read later. -/
def readAfterOverflow : List (EventInput 1) :=
  [unmaskCycle 0x24#12, eventCycle true false false, eventCycle true false false,
   eventCycle true false false, eventCycle true false false, errRead false]

theorem readAfterOverflow_reported :
    OverflowsReported (socEventArbiter (evntNum 1 1)) readAfterOverflow :=
  (overflowsReported_iff (socEventArbiter (evntNum 1 1)) (by decide) readAfterOverflow).mpr
    (by decide +kernel)

/-- A fourth occurrence overflows the queue in the cycle of a read, and a later read does not
return it. -/
def readAtOverflow : List (EventInput 1) :=
  [unmaskCycle 0x24#12, eventCycle true false false, eventCycle true false false,
   eventCycle true false false, errRead true, errRead false]

theorem readAtOverflow_not_reported :
    ¬OverflowsReported (socEventArbiter (evntNum 1 1)) readAtOverflow := by
  intro reported
  obtain ⟨k, within, after, returned⟩ :=
    reported.visible 0 4 5 (by decide) (by decide) (by decide +kernel) (by decide +kernel)
  have silent : ∀ k, (within : k ≤ 5) → 4 ≤ k →
      returnsErr 0 ((eventMachine (socEventArbiter (evntNum 1 1))).run (readAtOverflow.take k))
        (readAtOverflow.get ⟨k, Nat.lt_succ_of_le within⟩) = false := by
    decide +kernel
  exact absurd (returned.symm.trans (silent k within after)) Bool.noConfusion

end CoreVMcu.Soc
