import CoreVMcu.Filter.Au

/-!
# The binarisation counter of the filter

`udma_filter_bincu` compares the samples with a threshold, counts those above it and raises an
event when the counter comes to its target.  The comparison is always one of unsigned words,
and a sample is counted in every cycle in which it is valid.
-/

namespace CoreVMcu.Filter

open Clocked

variable {transSize : Nat}

/-- The configuration of the binarisation counter. -/
structure BincuCfg (transSize : Nat) where
  useSigned : Bool
  outEnable : Bool
  enCounter : Bool
  threshold : BitVec 32
  counter : BitVec transSize
  datasize : BitVec 2

/-- The inputs of the binarisation counter in a cycle. -/
structure BincuInput where
  inputData : BitVec 32
  inputValid : Bool
  outputReady : Bool

/-- The registers of the binarisation counter. -/
structure Bincu (transSize : Nat) where
  rCounter : BitVec transSize
  rCountOf : Bool

namespace BincuCfg

variable (cfg : BincuCfg transSize) (input : BincuInput)

/-- `s_input_data`. -/
def inputData : BitVec 32 := extendSample cfg.useSigned cfg.datasize input.inputData

/-- `s_th_event`. -/
def thEvent : Bool := cfg.threshold.ult (cfg.inputData input)

/-- `input_ready_o`. -/
def inputReady : Bool := if cfg.outEnable then input.outputReady else true

/-- `output_data_o`, which is valid with the input. -/
def outputData : BitVec 32 := if cfg.thEvent input then 1 else 0

/-- A sample is counted. -/
def counts : Bool := cfg.enCounter && cfg.thEvent input && input.inputValid

/-- The sample is above the threshold, as a signed or as an unsigned number. -/
def above : Bool :=
  if cfg.useSigned then cfg.threshold.slt (cfg.inputData input)
  else cfg.threshold.ult (cfg.inputData input)

/-- A sample above the threshold is transferred. -/
def transfersAbove : Bool := input.inputValid && cfg.inputReady input && cfg.above input

end BincuCfg

namespace Bincu

variable (bincu : Bincu transSize) (cfg : BincuCfg transSize) (cmdStart : Bool)
variable (input : BincuInput)

def reset : Bincu transSize := ⟨0, false⟩

/-- `s_counter_of`. -/
def counterOf : Bool := bincu.rCounter == cfg.counter

/-- `act_event_o`. -/
def actEvent : Bool := if cfg.enCounter then bincu.counterOf cfg && !bincu.rCountOf else false

/-- One clock edge. -/
def step : Bincu transSize :=
  if cmdStart then ⟨0, false⟩
  else
    { rCounter := if cfg.counts input then bincu.rCounter + 1 else bincu.rCounter
      rCountOf := bincu.counterOf cfg }

end Bincu

/-! ## Counting after a start -/

section Runs

variable (cfg : BincuCfg transSize) (bincu : Bincu transSize) (first : BincuInput)
variable (schedule : Nat → BincuInput)

/-- The counter after a start in any state. -/
def bincuMachine : Machine (Bincu transSize) BincuInput where
  init := bincu.step cfg true first
  step := fun bincu => bincu.step cfg false

/-- The registers in a cycle after the start. -/
def bincuAt (n : Nat) : Bincu transSize :=
  (bincuMachine cfg bincu first).run (inputsUpTo schedule n)

/-- The number of samples above the threshold that are transferred before a cycle. -/
def transferredAbove (n : Nat) : Nat := (inputsUpTo schedule n).countP cfg.transfersAbove

/-- The number of transferred samples above the threshold comes to the target. -/
def ReachesTarget (n : Nat) : Prop :=
  transferredAbove cfg schedule n = cfg.counter.toNat ∧
    ∀ m < n, transferredAbove cfg schedule m ≠ cfg.counter.toNat

/-- The counter is the number of transferred samples above the threshold, and the event is
raised when that number comes to the target and at no other time. -/
def CountsTransferred : Prop :=
  ∀ n, (bincuAt cfg bincu first schedule n).rCounter.toNat = transferredAbove cfg schedule n ∧
    ((bincuAt cfg bincu first schedule n).actEvent cfg = true ↔ ReachesTarget cfg schedule n)

/-- A valid sample is transferred with the counter enabled, and its sign is that of the threshold
if the numbers are signed; or it is as an unsigned number not above the threshold, though it is
not transferred; or the counter is disabled and the sample is not transferred or not above. -/
def CountedRightly (input : BincuInput) : Prop :=
  input.inputValid = true →
    if cfg.enCounter then
      if cfg.inputReady input then
        cfg.useSigned = true → (cfg.inputData input).msb = cfg.threshold.msb
      else cfg.inputData input ≤ cfg.threshold
    else cfg.inputReady input = true → cfg.above input = false

/-- Every sample is counted rightly, the counter does not overflow, and a disabled counter has
a target. -/
structure CountableRun : Prop where
  rightly : ∀ n, CountedRightly cfg (schedule n)
  bounded : ∀ n, transferredAbove cfg schedule n < 2 ^ transSize
  target : cfg.enCounter = true ∨ cfg.counter ≠ 0

end Runs

/-! ## One cycle -/

/-- A signed comparison is an unsigned one exactly between numbers of the same sign. -/
theorem slt_eq_ult_iff (low high : BitVec 32) :
    low.slt high = low.ult high ↔ high.msb = low.msb := by
  rw [BitVec.slt_eq_ult]
  cases low.msb <;> cases high.msb <;> cases low.ult high <;> decide

theorem countedRightly_iff (cfg : BincuCfg transSize) (input : BincuInput) :
    CountedRightly cfg input ↔ cfg.counts input = cfg.transfersAbove input := by
  rw [CountedRightly, BincuCfg.counts, BincuCfg.transfersAbove]
  cases input.inputValid with
  | false => simp only [Bool.and_false, Bool.false_and, Bool.false_eq_true, false_imp_iff]
  | true =>
      rw [Bool.and_true, Bool.true_and, forall_prop_of_true rfl]
      cases cfg.enCounter with
      | false =>
          rw [if_neg Bool.false_ne_true, Bool.false_and]
          cases cfg.inputReady input with
          | false => exact iff_of_true (fun absurd => nomatch absurd) rfl
          | true => exact ⟨fun notAbove => (notAbove rfl).symm, fun none _ => none.symm⟩
      | true =>
          rw [if_pos rfl, Bool.true_and]
          cases cfg.inputReady input with
          | false =>
              rw [if_neg Bool.false_ne_true, Bool.false_and, BincuCfg.thEvent,
                ← Bool.not_eq_true, BitVec.ult_iff_lt, BitVec.not_lt]
          | true =>
              rw [if_pos rfl, Bool.true_and, BincuCfg.thEvent, BincuCfg.above]
              cases cfg.useSigned with
              | false => exact iff_of_true (fun absurd => nomatch absurd) rfl
              | true => rw [forall_prop_of_true rfl, if_pos rfl, ← slt_eq_ult_iff, eq_comm]

section Runs

variable {cfg : BincuCfg transSize} {bincu : Bincu transSize} {first : BincuInput}
variable {schedule : Nat → BincuInput}

theorem bincuAt_succ (n : Nat) :
    bincuAt cfg bincu first schedule (n + 1) =
      (bincuAt cfg bincu first schedule n).step cfg false (schedule n) := by
  rw [bincuAt, inputsUpTo_succ, Machine.run_snoc]
  rfl

theorem transferredAbove_succ (n : Nat) :
    transferredAbove cfg schedule (n + 1) =
      transferredAbove cfg schedule n + (cfg.transfersAbove (schedule n)).toNat := by
  rw [transferredAbove, inputsUpTo_succ, List.countP_append, List.countP_singleton]
  cases cfg.transfersAbove (schedule n) <;> rfl

theorem transferredAbove_mono {m n : Nat} (before : m ≤ n) :
    transferredAbove cfg schedule m ≤ transferredAbove cfg schedule n := by
  induction n, before using Nat.le_induction with
  | base => exact le_rfl
  | succ n _ ih => rw [transferredAbove_succ]; exact ih.trans (Nat.le_add_right _ _)

theorem rCountOf_succ (n : Nat) :
    (bincuAt cfg bincu first schedule (n + 1)).rCountOf =
      (bincuAt cfg bincu first schedule n).counterOf cfg := by
  rw [bincuAt_succ]
  rfl

theorem rCounter_succ (n : Nat) :
    (bincuAt cfg bincu first schedule (n + 1)).rCounter =
      if cfg.counts (schedule n) then (bincuAt cfg bincu first schedule n).rCounter + 1
      else (bincuAt cfg bincu first schedule n).rCounter := by
  rw [bincuAt_succ]
  rfl

theorem toNat_add_one {count : BitVec transSize} (positive : 0 < transSize) :
    (count + 1).toNat = (count.toNat + 1) % 2 ^ transSize := by
  have one : (1 : BitVec transSize).toNat = 1 := BitVec.toNat_one positive
  rw [BitVec.toNat_add, one]

/-- A count that wraps around is another one. -/
theorem succ_mod_ne {size : Nat} (many : 1 < size) (count : Nat) : (count + 1) % size ≠ count := by
  intro same
  have inside : count < size := same ▸ Nat.mod_lt _ (Nat.zero_lt_of_lt many)
  cases Nat.lt_or_eq_of_le (Nat.succ_le_of_lt inside) with
  | inl below => exact Nat.succ_ne_self count ((Nat.mod_eq_of_lt below).symm.trans same)
  | inr last =>
      rw [← last, Nat.mod_self] at same
      rw [← last, ← same] at many
      exact absurd many (Nat.lt_irrefl 1)

/-- The counter is right in every cycle if and only if each sample is counted exactly if it is
transferred above the threshold, and the number fits. -/
theorem rCounter_eq_iff (positive : 0 < transSize) :
    (∀ n, (bincuAt cfg bincu first schedule n).rCounter.toNat =
        transferredAbove cfg schedule n) ↔
      (∀ n, CountedRightly cfg (schedule n)) ∧
        ∀ n, transferredAbove cfg schedule n < 2 ^ transSize := by
  constructor
  · intro equal
    have bounded : ∀ n, transferredAbove cfg schedule n < 2 ^ transSize := fun n =>
      equal n ▸ BitVec.isLt _
    refine ⟨fun n => (countedRightly_iff cfg _).2 ?_, bounded⟩
    have now := equal n
    have later := equal (n + 1)
    rw [rCounter_succ, transferredAbove_succ] at later
    cases counts : cfg.counts (schedule n) <;>
      cases transfers : cfg.transfersAbove (schedule n)
    · rfl
    · rw [counts, transfers, if_neg Bool.false_ne_true, now] at later
      exact absurd later (Nat.succ_ne_self _).symm
    · rw [counts, transfers, if_pos rfl, toNat_add_one positive, now] at later
      exact absurd later (succ_mod_ne (Nat.one_lt_two_pow positive.ne') _)
    · rfl
  · rintro ⟨rightly, bounded⟩ n
    induction n with
    | zero => rfl
    | succ n ih =>
        have transferred : transferredAbove cfg schedule (n + 1) = _ := transferredAbove_succ n
        rw [rCounter_succ, (countedRightly_iff cfg _).1 (rightly n), transferred]
        cases transfers : cfg.transfersAbove (schedule n) with
        | false => exact ih
        | true =>
            rw [if_pos rfl, toNat_add_one positive, ih]
            rw [transfers] at transferred
            exact Nat.mod_eq_of_lt (transferred ▸ bounded (n + 1))

theorem transferredAbove_of_disabled (disabled : cfg.enCounter = false)
    (rightly : ∀ n, CountedRightly cfg (schedule n)) (n : Nat) :
    transferredAbove cfg schedule n = 0 := by
  induction n with
  | zero => rfl
  | succ n ih =>
      rw [transferredAbove_succ, ih, ← (countedRightly_iff cfg _).1 (rightly n), BincuCfg.counts,
        disabled]
      rfl

/-- The event of an enabled counter comes when the counter comes to its target. -/
theorem actEvent_iff_reachesTarget
    (equal : ∀ n, (bincuAt cfg bincu first schedule n).rCounter.toNat =
      transferredAbove cfg schedule n) (enabled : cfg.enCounter = true) (n : Nat) :
    (bincuAt cfg bincu first schedule n).actEvent cfg = true ↔ ReachesTarget cfg schedule n := by
  have reached : ∀ m, (bincuAt cfg bincu first schedule m).counterOf cfg = true ↔
      transferredAbove cfg schedule m = cfg.counter.toNat := by
    intro m
    rw [Bincu.counterOf, beq_iff_eq, ← BitVec.toNat_inj, equal]
  rw [Bincu.actEvent, if_pos enabled, Bool.and_eq_true, reached, ReachesTarget, Bool.not_eq_true']
  refine and_congr_right fun now => ?_
  cases n with
  | zero => exact iff_of_true rfl (fun m before => absurd before (Nat.not_lt_zero m))
  | succ n =>
      rw [rCountOf_succ, ← Bool.not_eq_true, reached]
      constructor
      · -- the number does not come down again, so it was not there before either
        intro notYet m before there
        have low : transferredAbove cfg schedule m ≤ transferredAbove cfg schedule n :=
          transferredAbove_mono (Nat.le_of_lt_succ before)
        have high : transferredAbove cfg schedule n ≤ transferredAbove cfg schedule (n + 1) :=
          transferredAbove_mono (Nat.le_succ n)
        exact notYet (Nat.le_antisymm (high.trans_eq now) (there.symm.le.trans low))
      · exact fun first => first n (Nat.lt_succ_self n)

/-- The counter and its event are right in a run if and only if each sample is counted rightly,
the number fits the counter, and a disabled counter has a target. -/
theorem countsTransferred_iff (positive : 0 < transSize) :
    CountsTransferred cfg bincu first schedule ↔ CountableRun cfg schedule := by
  constructor
  · intro counts
    have equal := fun n => (counts n).1
    obtain ⟨rightly, bounded⟩ := (rCounter_eq_iff positive).1 equal
    refine ⟨rightly, bounded, ?_⟩
    cases enabled : cfg.enCounter with
    | true => exact Or.inl rfl
    | false =>
        -- nothing has been counted in the first cycle, so an event for zero is missed
        refine Or.inr fun zero => ?_
        have missed : (bincuAt cfg bincu first schedule 0).actEvent cfg = false := by
          rw [Bincu.actEvent, enabled]; rfl
        have reaches : ReachesTarget cfg schedule 0 :=
          ⟨by rw [zero]; rfl, fun m before => absurd before (Nat.not_lt_zero m)⟩
        rw [← (counts 0).2, missed] at reaches
        cases reaches
  · intro countable
    have equal : ∀ n, (bincuAt cfg bincu first schedule n).rCounter.toNat =
        transferredAbove cfg schedule n :=
      (rCounter_eq_iff positive).2 ⟨countable.rightly, countable.bounded⟩
    refine fun n => ⟨equal n, ?_⟩
    cases enabled : cfg.enCounter with
    | true => exact actEvent_iff_reachesTarget equal enabled n
    | false =>
        have missed : (bincuAt cfg bincu first schedule n).actEvent cfg = false := by
          rw [Bincu.actEvent, enabled]; rfl
        have target : cfg.counter ≠ 0 :=
          countable.target.resolve_left (by rw [enabled]; exact Bool.false_ne_true)
        rw [missed, ReachesTarget, transferredAbove_of_disabled enabled countable.rightly]
        refine iff_of_false Bool.false_ne_true fun reaches => target ?_
        exact BitVec.eq_of_toNat_eq reaches.1.symm

end Runs

/-- A counter of 32-bit samples above a threshold, with the output disabled and target one. -/
def oneAbove (useSigned : Bool) (threshold : BitVec 32) : BincuCfg 16 :=
  ⟨useSigned, false, true, threshold, 1, 2⟩

/-- One valid sample. -/
def oneSample (data : BitVec 32) (n : Nat) : BincuInput := ⟨data, n == 0, true⟩

theorem oneSample_transferred (n : Nat) :
    transferredAbove (oneAbove false 4) (oneSample 5) n = min n 1 := by
  induction n with
  | zero => rfl
  | succ n ih =>
      rw [transferredAbove_succ, ih]
      cases n with
      | zero => rfl
      | succ n => rw [Nat.min_eq_right (Nat.succ_pos n), Nat.min_eq_right (Nat.succ_pos _)]; rfl

/-- Five is above four. -/
theorem fiveAboveFour_countsTransferred :
    CountsTransferred (oneAbove false 4) .reset (oneSample 5 0) (oneSample 5) :=
  (countsTransferred_iff (by decide)).2
    { rightly := fun _ _ absurd => nomatch absurd
      bounded := fun n => by
        rw [oneSample_transferred]
        exact (Nat.min_le_right n 1).trans_lt (by decide)
      target := Or.inl rfl }

/-- As a signed number minus one is not above zero, but it is counted. -/
theorem minusOneAboveZero_not_countsTransferred :
    ¬CountsTransferred (oneAbove true 0) .reset (oneSample (-1) 0) (oneSample (-1)) :=
  fun counts => absurd (counts 1).1 (by decide)

end CoreVMcu.Filter
