import CoreVMcu.Clocked.TwoRuns
import CoreVMcu.Timer.Comparator

/-!
# Shadowed configuration of the advanced timer

The comparators, the prescaler and the input stage take their configuration when
`s_ctrl_update_all` is raised.  The controller raises it at a start and with every count
event, since `cnt_update_i` is connected to `s_cnt_evt`; the clock selection has no copy.
-/

namespace CoreVMcu.Timer

open Clocked

variable {numBits nExtSig : Nat}

/-- The configuration that the comparators, the prescaler and the input stage work with. -/
@[ext] structure InEffect (numBits : Nat) where
  comps : Fin 4 → CompCfg numBits
  presc : BitVec 8
  sel : BitVec 8
  mode : BitVec 3
  selClk : Bool
  deriving DecidableEq

namespace TimerModule

variable (timer : TimerModule numBits) (input : ModuleInput numBits nExtSig)

/-- The configuration in effect in a cycle. -/
def inEffect : InEffect numBits where
  comps := fun channel => (timer.comps channel).cfg
  presc := timer.timer.prescaler.presc
  sel := timer.timer.stage.sel
  mode := timer.timer.stage.mode
  selClk := input.timer.cfgSelClk

/-- The configuration registers. -/
def configured (input : ModuleInput numBits nExtSig) : InEffect numBits where
  comps := input.comps
  presc := input.timer.cfgPresc
  sel := input.timer.cfgSel
  mode := input.timer.cfgMode
  selClk := input.timer.cfgSelClk

/-- An UPDATE command, now or pending, is applied. -/
def appliesUpdate : Bool :=
  (timer.timer.ctrl.cntUpd input.timer || timer.timer.counter.pendingUpdate) &&
    timer.timer.counter.doUpdate (timer.timer.counterInput input.timer)

/-- A start command, or the application of an UPDATE command. -/
def updatePoint : Bool := timer.timer.ctrl.starts input.timer || timer.appliesUpdate input

end TimerModule

section Schedules

variable (schedule : Nat → ModuleInput numBits nExtSig)

/-- The timer in a cycle of a schedule. -/
def timerAt (n : Nat) : TimerModule numBits :=
  (timerModuleMachine numBits nExtSig).run (inputsUpTo schedule n)

/-- Between two update points the configuration in effect does not change. -/
def Shadowed : Prop :=
  ∀ first last, first ≤ last →
    (∀ n, first ≤ n → n < last → (timerAt schedule n).updatePoint (schedule n) = false) →
    (timerAt schedule first).inEffect (schedule first) =
      (timerAt schedule last).inEffect (schedule last)

/-- In a cycle that is no update point, the configuration registers hold what is in effect
if there is a count event, and the clock selection is not written. -/
def KeepsConfig (n : Nat) : Prop :=
  (timerAt schedule n).updatePoint (schedule n) = false →
    ((timerAt schedule n).cntEvt = true →
      TimerModule.configured (schedule n) = (timerAt schedule n).inEffect (schedule n)) ∧
    (schedule (n + 1)).timer.cfgSelClk = (schedule n).timer.cfgSelClk

end Schedules

namespace TimerModule

variable {timer : TimerModule numBits} {input : ModuleInput numBits nExtSig}

/-- All copies are taken by the same strobe. -/
theorem step_inEffect (timer : TimerModule numBits) (input next : ModuleInput numBits nExtSig) :
    (timer.step input).inEffect next =
      { (if timer.updateAll input then configured input else timer.inEffect input) with
        selClk := next.timer.cfgSelClk } := by
  have comps : (fun channel => ((timer.step input).comps channel).cfg) =
      if timer.updateAll input then input.comps else fun channel => (timer.comps channel).cfg := by
    funext channel
    rw [step, Comparator.step_cfg, comparatorInput]
    split <;> rfl
  have presc : (timer.step input).timer.prescaler.presc =
      if timer.updateAll input then input.timer.cfgPresc else timer.timer.prescaler.presc :=
    Prescaler.step_presc ..
  rw [inEffect, comps, presc]
  change InEffect.mk _ _ (if timer.updateAll input then _ else _)
    (if timer.updateAll input then _ else _) _ = _
  split <;> rfl

theorem updateAll_of_quiet (quiet : timer.updatePoint input = false) :
    timer.updateAll input = timer.cntEvt := by
  rw [updatePoint, Bool.or_eq_false_iff] at quiet
  rw [updateAll, TimerCntrl.allUpd, quiet.1, if_neg Bool.false_ne_true]

end TimerModule

theorem timerAt_succ (schedule : Nat → ModuleInput numBits nExtSig) (n : Nat) :
    timerAt schedule (n + 1) = (timerAt schedule n).step (schedule n) := by
  rw [timerAt, inputsUpTo_succ, Machine.run_snoc]
  rfl

/-- A cycle that is no update point leaves the configuration in effect exactly under the
condition on the registers. -/
theorem inEffect_succ_iff (schedule : Nat → ModuleInput numBits nExtSig) {n : Nat}
    (quiet : (timerAt schedule n).updatePoint (schedule n) = false) :
    (timerAt schedule n).inEffect (schedule n) =
        (timerAt schedule (n + 1)).inEffect (schedule (n + 1)) ↔
      KeepsConfig schedule n := by
  rw [timerAt_succ, TimerModule.step_inEffect, TimerModule.updateAll_of_quiet quiet, KeepsConfig]
  cases counts : (timerAt schedule n).cntEvt with
  | false =>
      simp only [quiet, Bool.false_eq_true, if_false, false_imp_iff, true_and, forall_const]
      constructor
      · intro same
        exact (congrArg InEffect.selClk same).symm
      · intro same
        rw [same]
        rfl
  | true =>
      simp only [quiet, if_true, forall_const]
      constructor
      · intro same
        have selClk : (schedule (n + 1)).timer.cfgSelClk = (schedule n).timer.cfgSelClk :=
          (congrArg InEffect.selClk same).symm
        rw [selClk] at same
        exact ⟨same.symm, selClk⟩
      · rintro ⟨same, selClk⟩
        rw [selClk, same]
        rfl

/-- In every run, the configuration in effect changes at update points only if and only if
in every other cycle with a count event the registers hold what is in effect, and the clock
selection is written at update points only. -/
theorem advTimer_shadowed_iff (schedule : Nat → ModuleInput numBits nExtSig) :
    Shadowed schedule ↔ ∀ n, KeepsConfig schedule n := by
  constructor
  · intro shadowed n
    cases quiet : (timerAt schedule n).updatePoint (schedule n) with
    | true => exact fun none => absurd (quiet.symm.trans none) Bool.noConfusion
    | false =>
        refine (inEffect_succ_iff schedule quiet).mp (shadowed n (n + 1) (Nat.le_succ n) ?_)
        intro m after before
        rw [Nat.le_antisymm (Nat.le_of_lt_succ before) after]
        exact quiet
  · intro keeps first last ordered none
    induction ordered with
    | refl => rfl
    | @step last ordered inductionHypothesis =>
        rw [inductionHypothesis fun n after before => none n after (Nat.lt_succ_of_lt before)]
        have quiet := none last ordered (Nat.lt_succ_self last)
        exact (inEffect_succ_iff schedule quiet).mpr (keeps last)

/-- A cycle in which channel 0 is configured with a threshold. -/
def withThreshold (start : Bool) (threshold : BitVec 16) : ModuleInput 16 48 where
  timer :=
    { cfgStart := start, cfgStop := false, cfgRst := false, cfgUpdate := false, cfgArm := false
      cfgSel := 0, cfgSelClk := false, cfgMode := 0, cfgPresc := 0, cfgSawtooth := true
      cfgCntStart := 0, cfgCntEnd := 9, lsClk := false, signal := 0 }
  comps := fun _ => { comp := threshold, compOp := 3 }

/-- The timer is started with a threshold of 5, and 7 is written without an UPDATE. -/
def writesThreshold (n : Nat) : ModuleInput 16 48 :=
  if n = 0 then withThreshold true 5 else if n < 3 then withThreshold false 5
  else withThreshold false 7

/-- The next count event takes the threshold. -/
theorem writesThreshold_not_shadowed :
    ((timerAt writesThreshold 3).inEffect (writesThreshold 3)).comps 0 = ⟨5, 3⟩ ∧
      ((timerAt writesThreshold 5).inEffect (writesThreshold 5)).comps 0 = ⟨7, 3⟩ ∧
      ¬Shadowed writesThreshold := by
  refine ⟨by decide +kernel, by decide +kernel, fun shadowed => ?_⟩
  have same :=
    congrArg (fun effect => effect.comps 0) (shadowed 3 5 (by decide) (by decide +kernel))
  revert same
  decide +kernel

end CoreVMcu.Timer
