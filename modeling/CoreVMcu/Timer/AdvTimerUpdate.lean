import Mathlib.Tactic.MkIffOfInductiveProp
import CoreVMcu.Timer.AdvTimer

/-!
# Update requests of the advanced timer

An UPDATE of the active timer is to be applied at the first counter event that ends
the period.  The counter compares with `r_start-1` on the way down and forgets a
request when it is at its end without an event.
-/

namespace CoreVMcu.Timer

open Clocked

variable {numBits nExtSig : Nat}

/-- The timer with the update request that was issued while it was active and is not
yet applied. -/
structure AdvTimerSystem (numBits : Nat) where
  timer : AdvTimer numBits
  owed : Bool
  deriving DecidableEq, Repr

namespace AdvTimerSystem

variable (system : AdvTimerSystem numBits) (input : AdvTimerInput numBits nExtSig)

/-- A start or an update of the stopped timer, which takes the configuration at once. -/
def reloads : Bool := system.timer.ctrl.cntUpd input && !system.timer.ctrl.active

/-- An update of the active timer was issued and is not yet applied. -/
def outstanding : Bool := system.owed || input.cfgUpdate && system.timer.ctrl.active

/-- An event of the running counter. -/
def counterEvent : Bool := system.timer.prescaler.event && system.timer.ctrl.active

/-- The counter is where a period ends: at its end, or back at its start. -/
def atPeriodEnd : Bool :=
  let counter := system.timer.counter
  if counter.sawtooth then counter.counter == counter.finish
  else counter.direction && counter.counter == counter.start

/-- A counter event ends the period. -/
def endsPeriod : Bool := system.counterEvent && system.atPeriodEnd

/-- When the configuration is to be taken: an outstanding update at the end of the
period, and otherwise only on a command. -/
def takesConfig : Bool :=
  if system.reloads input then true
  else if system.outstanding input then system.endsPeriod
  else system.timer.ctrl.rst input

/-- The update that is still owed after the cycle. -/
def owedNext : Bool :=
  system.outstanding input && !system.reloads input && !system.endsPeriod

/-- One clock edge. -/
def step : AdvTimerSystem numBits where
  timer := system.timer.step input
  owed := system.owedNext input

/-- What the counter works with. -/
structure Period (numBits : Nat) where
  start : BitVec numBits
  finish : BitVec numBits
  sawtooth : Bool
  deriving DecidableEq

def period : Period numBits :=
  { start := system.timer.counter.start, finish := system.timer.counter.finish
    sawtooth := system.timer.counter.sawtooth }

/-- The configuration is taken when it is to be taken, the old one is used before and
the new one after, from its start; an update stays pending as long as it is owed. -/
@[mk_iff]
structure AppliesUpdates (system : AdvTimerSystem numBits)
    (input : AdvTimerInput numBits nExtSig) : Prop where
  applied : system.timer.counter.doUpdate (system.timer.counterInput input) =
    system.takesConfig input
  pending : (system.step input).timer.counter.pendingUpdate = system.owedNext input
  period : (system.step input).period =
    if system.takesConfig input then
      { start := input.cfgCntStart, finish := input.cfgCntEnd, sawtooth := input.cfgSawtooth }
    else system.period
  restarts : system.takesConfig input = true →
    (system.step input).timer.counter.counter = input.cfgCntStart ∧
      (system.step input).timer.counter.direction = false

/-- While an update is outstanding: in the sawtooth mode the counter is at its end only
with an event, in the triangular mode it does not come back to its start with one, nor
passes it downwards. -/
def MeetsPeriodEnd (system : AdvTimerSystem numBits) (input : AdvTimerInput numBits nExtSig) :
    Prop :=
  let counter := system.timer.counter
  system.reloads input = false → system.outstanding input = true →
    if counter.sawtooth then counter.counter = counter.finish → system.counterEvent = true
    else
      counter.isUpdate = false ∧
        (counter.direction = true → counter.counter = counter.start → system.counterEvent = false)

instance : Decidable (system.AppliesUpdates input) :=
  decidable_of_iff _ (appliesUpdates_iff system input).symm

instance : Decidable (system.MeetsPeriodEnd input) := inferInstanceAs (Decidable (_ → _ → _))

end AdvTimerSystem

/-- The timer from reset. -/
def advTimerMachine (numBits nExtSig : Nat) :
    Machine (AdvTimerSystem numBits) (AdvTimerInput numBits nExtSig) where
  init := { timer := .reset, owed := false }
  step := AdvTimerSystem.step

/-! ## The counter -/

namespace UpDownCounter

variable {counter : UpDownCounter numBits} {input : UpDownInput numBits}

@[simp] theorem step_pendingUpdate :
    (counter.step input).pendingUpdate = (counter.updates input).1 := by
  rw [step]
  split
  · rfl
  · split <;> rfl

/-- The configuration is loaded with an update and kept otherwise. -/
theorem step_start : (counter.step input).start =
    if counter.doUpdate input then input.cfgStart else counter.start := by
  rw [step]
  split
  · rfl
  · split <;> rfl

theorem step_finish : (counter.step input).finish =
    if counter.doUpdate input then input.cfgEnd else counter.finish := by
  rw [step]
  split
  · rfl
  · split <;> rfl

theorem step_sawtooth : (counter.step input).sawtooth =
    if counter.doUpdate input then input.cfgSawtooth else counter.sawtooth := by
  rw [step]
  split
  · rfl
  · split <;> rfl

theorem step_of_doUpdate (loads : counter.doUpdate input = true) :
    (counter.step input).counter = input.cfgStart ∧ (counter.step input).direction = false := by
  rw [step, if_pos loads]
  exact ⟨rfl, rfl⟩

/-- A counter that is one below its start is not at it. -/
theorem isUpdate_ne_start (down : counter.sawtooth = false) (update : counter.isUpdate = true) :
    counter.direction = true ∧ counter.counter ≠ counter.start := by
  rw [isUpdate, down, if_neg Bool.false_ne_true, Bool.and_eq_true, beq_iff_eq] at update
  refine ⟨update.1, fun same => ?_⟩
  have below := update.2
  rw [same] at below
  have values := congrArg BitVec.toNat (sub_eq_self.mp below.symm)
  have wide : 2 ^ 1 ≤ 2 ^ max numBits 32 := Nat.pow_le_pow_right Nat.two_pos (by omega)
  rw [BitVec.toNat_ofNat, Nat.mod_eq_of_lt (by omega)] at values
  exact absurd values Nat.one_ne_zero

end UpDownCounter

namespace AdvTimerSystem

variable {system : AdvTimerSystem numBits} {input : AdvTimerInput numBits nExtSig}

/-- The load and the pending flag are right exactly when the period ends are met, as
long as the flag says what is owed. -/
theorem updates_iff (flag : system.timer.counter.pendingUpdate = system.owed) :
    system.timer.counter.updates (system.timer.counterInput input) =
        (system.owedNext input, system.takesConfig input) ↔
      system.MeetsPeriodEnd input := by
  have asked : (system.timer.ctrl.cntUpd input || system.owed) =
      (system.reloads input || system.outstanding input) := by
    rw [reloads, outstanding, TimerCntrl.cntUpd, TimerCntrl.starts]
    cases system.timer.ctrl.active <;> cases input.cfgStart <;> cases input.cfgUpdate <;>
      cases system.owed <;> rfl
  rw [UpDownCounter.updates, flag, owedNext, takesConfig, MeetsPeriodEnd]
  change (if (system.timer.ctrl.cntUpd input || system.owed) = true then
    if system.reloads input = true then _ else _ else _) = _ ↔ _
  rw [asked]
  cases system.reloads input with
  | true => simp
  | false =>
      cases outstanding : system.outstanding input with
      | false =>
          have none : system.owed = false := (Bool.or_eq_false_iff.mp outstanding).1
          rw [Bool.false_or, if_neg Bool.false_ne_true, none]
          cases rst : system.timer.ctrl.rst input <;> simp [AdvTimer.counterInput, rst]
      | true =>
          have same : (system.timer.counterInput input).event = system.timer.prescaler.event := rfl
          have event : system.counterEvent = true → system.timer.prescaler.event = true :=
            fun both => (Bool.and_eq_true_iff.mp both).1
          rw [Bool.false_or, if_pos rfl, if_neg Bool.false_ne_true, if_neg Bool.false_ne_true,
            if_pos rfl, same, endsPeriod]
          cases sawtooth : system.timer.counter.sawtooth with
          | true =>
              have position : system.timer.counter.isUpdate = system.atPeriodEnd := by
                rw [UpDownCounter.isUpdate, atPeriodEnd, sawtooth]
                rfl
              have finish : system.atPeriodEnd = true ↔
                  system.timer.counter.counter = system.timer.counter.finish := by
                simp [atPeriodEnd, sawtooth]
              rw [position, if_pos rfl, ← finish]
              cases system.atPeriodEnd <;> cases ticks : system.counterEvent <;> simp_all
          | false =>
              have start : system.atPeriodEnd = true ↔ system.timer.counter.direction = true ∧
                  system.timer.counter.counter = system.timer.counter.start := by
                simp [atPeriodEnd, sawtooth]
              have apart : system.timer.counter.isUpdate = true → system.atPeriodEnd = false :=
                fun update => Bool.eq_false_iff.mpr fun ends =>
                  (UpDownCounter.isUpdate_ne_start sawtooth update).2 (start.mp ends).2
              have back : (system.timer.counter.direction = true →
                  system.timer.counter.counter = system.timer.counter.start →
                  system.counterEvent = false) ↔
                  (system.atPeriodEnd = true → system.counterEvent = false) := by
                rw [start, and_imp]
              rw [if_neg Bool.false_ne_true, back]
              cases update : system.timer.counter.isUpdate <;>
                cases ends : system.atPeriodEnd <;> cases ticks : system.counterEvent <;> simp_all

theorem applies_iff_meets (flag : system.timer.counter.pendingUpdate = system.owed) :
    system.AppliesUpdates input ↔ system.MeetsPeriodEnd input := by
  rw [← updates_iff flag]
  constructor
  · intro applies
    apply Prod.ext
    · have pending := applies.pending
      rw [step, AdvTimer.step, UpDownCounter.step_pendingUpdate] at pending
      exact pending
    · exact applies.applied
  · intro updates
    have loads : system.timer.counter.doUpdate (system.timer.counterInput input) =
        system.takesConfig input := congrArg Prod.snd updates
    refine ⟨loads, ?_, ?_, ?_⟩
    · rw [step, AdvTimer.step, UpDownCounter.step_pendingUpdate, updates]
    · rw [period, step, AdvTimer.step, UpDownCounter.step_start, UpDownCounter.step_finish,
        UpDownCounter.step_sawtooth, loads]
      split <;> rfl
    · intro takes
      exact UpDownCounter.step_of_doUpdate (loads.trans takes)

end AdvTimerSystem

/-! ## Runs -/

/-- As long as the period ends are met, the counter knows what is owed. -/
theorem pendingUpdate_eq_owed (inputs : List (AdvTimerInput numBits nExtSig))
    (meets : (advTimerMachine numBits nExtSig).Always AdvTimerSystem.MeetsPeriodEnd inputs) :
    ((advTimerMachine numBits nExtSig).run inputs).timer.counter.pendingUpdate =
      ((advTimerMachine numBits nExtSig).run inputs).owed := by
  refine Machine.run_induction (motive := fun _ (system : AdvTimerSystem numBits) =>
    system.timer.counter.pendingUpdate = system.owed) rfl ?_ inputs meets
  intro inputs input _ flag meets
  exact ((AdvTimerSystem.applies_iff_meets flag).mpr meets).pending

/-- In every run, updates of the active timer are pending until they are applied once
at the end of the period if and only if, while one is outstanding, the counter meets
the ends of the period with an event and never on its way down. -/
theorem advTimer_appliesUpdates_iff (inputs : List (AdvTimerInput numBits nExtSig)) :
    (advTimerMachine numBits nExtSig).Always AdvTimerSystem.AppliesUpdates inputs ↔
      (advTimerMachine numBits nExtSig).Always AdvTimerSystem.MeetsPeriodEnd inputs :=
  Machine.always_congr_of_invariant
    (motive := fun _ (system : AdvTimerSystem numBits) =>
      system.timer.counter.pendingUpdate = system.owed)
    pendingUpdate_eq_owed (fun _ _ flag => AdvTimerSystem.applies_iff_meets flag) inputs

/-- A cycle without a command, counting every `presc + 1` cycles between the bounds. -/
def countingCycle (sawtooth : Bool) (presc : BitVec 8) (start finish : BitVec 16) :
    AdvTimerInput 16 48 where
  cfgStart := false
  cfgStop := false
  cfgRst := false
  cfgUpdate := false
  cfgArm := false
  cfgSel := 0
  cfgSelClk := false
  cfgMode := 0
  cfgPresc := presc
  cfgSawtooth := sawtooth
  cfgCntStart := start
  cfgCntEnd := finish
  lsClk := false
  signal := 0

/-- An update comes while a prescaled sawtooth counter waits at its end. -/
def updateAtEnd : List (AdvTimerInput 16 48) :=
  let cycle := countingCycle true 1 0 1
  [{ cycle with cfgStart := true }, cycle, cycle, cycle, { cycle with cfgUpdate := true }]

/-- An update comes before a triangular counter is back at its start. -/
def updateOfTriangle : List (AdvTimerInput 16 48) :=
  let cycle := countingCycle false 0 1 2
  [{ cycle with cfgStart := true }, { cycle with cfgUpdate := true }, cycle, cycle, cycle]

/-- The first update is forgotten, the second one is not applied. -/
theorem advTimer_misses_updates :
    (¬(advTimerMachine 16 48).Always AdvTimerSystem.AppliesUpdates updateAtEnd ∧
      ((advTimerMachine 16 48).run updateAtEnd).owed = true ∧
      ((advTimerMachine 16 48).run updateAtEnd).timer.counter.pendingUpdate = false) ∧
    ¬(advTimerMachine 16 48).Always AdvTimerSystem.AppliesUpdates updateOfTriangle := by
  decide +kernel

end CoreVMcu.Timer
