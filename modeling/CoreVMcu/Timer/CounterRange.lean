import CoreVMcu.Clocked.Sweep
import CoreVMcu.Timer.AdvTimerUpdate

/-!
# The range of the advanced timer's counter

Between two loads of its configuration `up_down_counter` sweeps over the range from its
start to its end.  It compares for equality only, so a triangle that has its start at its
end does not turn.
-/

namespace CoreVMcu.Timer

open Clocked

variable {numBits : Nat}

/-- The counter with the number of count events since its last load. -/
structure SweepingCounter (numBits : Nat) where
  counter : UpDownCounter numBits
  events : Nat
  deriving DecidableEq, Repr

namespace SweepingCounter

variable (sweeping : SweepingCounter numBits) (input : UpDownInput numBits)

/-- A count event: the counter is active, gets an event and is not loaded. -/
def counts : Bool := input.event && input.active && !sweeping.counter.doUpdate input

def step : SweepingCounter numBits where
  counter := sweeping.counter.step input
  events :=
    if sweeping.counter.doUpdate input then 0
    else sweeping.events + (sweeping.counts input).toNat

/-- The number of places after the first one. -/
def span : Nat := sweeping.counter.finish.toNat - sweeping.counter.start.toNat

/-- How far the counter is to be above its start. -/
def place : Nat :=
  if sweeping.counter.sawtooth then sawtooth sweeping.span sweeping.events
  else triangle sweeping.span sweeping.events

/-- The counter is in its range, at the place of the sweep that the events have led to. -/
structure Sweeps : Prop where
  fromStart : sweeping.counter.start ≤ sweeping.counter.counter
  toEnd : sweeping.counter.counter ≤ sweeping.counter.finish
  place : sweeping.counter.counter.toNat = sweeping.counter.start.toNat + sweeping.place

/-- What is loaded is a range. -/
def LoadsRange : Prop :=
  sweeping.counter.doUpdate input = true → input.cfgStart ≤ input.cfgEnd

/-- A triangle of a single place is not counted. -/
def CountsTurning : Prop :=
  sweeping.counts input = true → sweeping.counter.sawtooth = false →
    sweeping.counter.start ≠ sweeping.counter.finish

instance : Decidable (sweeping.LoadsRange input) := inferInstanceAs (Decidable (_ → _))

instance : Decidable (sweeping.CountsTurning input) := inferInstanceAs (Decidable (_ → _ → _))

end SweepingCounter

/-- The counter from reset. -/
def upDownMachine (numBits : Nat) : Machine (SweepingCounter numBits) (UpDownInput numBits) where
  init := { counter := AdvTimer.reset.counter, events := 0 }
  step := SweepingCounter.step

/-! ## Steps -/

namespace SweepingCounter

variable {sweeping : SweepingCounter numBits} {input : UpDownInput numBits}

/-- A load starts a sweep. -/
theorem step_of_load (loads : sweeping.counter.doUpdate input = true) :
    ((sweeping.step input).counter.counter = input.cfgStart ∧
      (sweeping.step input).counter.direction = false) ∧
    (sweeping.step input).counter.start = input.cfgStart ∧
    (sweeping.step input).counter.finish = input.cfgEnd ∧ (sweeping.step input).events = 0 := by
  refine ⟨UpDownCounter.step_of_doUpdate loads, ?_, ?_, ?_⟩
  · rw [step, UpDownCounter.step_start, if_pos loads]
  · rw [step, UpDownCounter.step_finish, if_pos loads]
  · rw [step, if_pos loads]

/-- Between loads the range stays, and only a count event moves the counter. -/
theorem step_of_keeps (keeps : sweeping.counter.doUpdate input = false) :
    (sweeping.step input).counter.start = sweeping.counter.start ∧
    (sweeping.step input).counter.finish = sweeping.counter.finish ∧
    (sweeping.step input).counter.sawtooth = sweeping.counter.sawtooth ∧
    ((sweeping.step input).counter.counter, (sweeping.step input).counter.direction) =
      (if sweeping.counts input then sweeping.counter.counted
        else (sweeping.counter.counter, sweeping.counter.direction)) ∧
    (sweeping.step input).events = sweeping.events + (sweeping.counts input).toNat := by
  have stays : ¬sweeping.counter.doUpdate input = true := by rw [keeps]; exact Bool.false_ne_true
  refine ⟨?_, ?_, ?_, ?_, ?_⟩
  · rw [step, UpDownCounter.step_start, if_neg stays]
  · rw [step, UpDownCounter.step_finish, if_neg stays]
  · rw [step, UpDownCounter.step_sawtooth, if_neg stays]
  · rw [step, UpDownCounter.step, if_neg stays, counts, keeps, Bool.not_false, Bool.and_true]
    cases input.event && input.active <;> rfl
  · rw [step, if_neg stays]

/-- The counter is at the place of its sweep and knows the way it goes. -/
structure Swept (sweeping : SweepingCounter numBits) : Prop where
  range : sweeping.counter.start.toNat ≤ sweeping.counter.finish.toNat
  place : sweeping.counter.counter.toNat = sweeping.counter.start.toNat + sweeping.place
  direction : sweeping.counter.direction =
    (!sweeping.counter.sawtooth && falling sweeping.span sweeping.events)

theorem place_sawtooth (saw : sweeping.counter.sawtooth = true) :
    sweeping.place = sawtooth sweeping.span sweeping.events := by
  rw [place, if_pos saw]

theorem place_triangle (saw : sweeping.counter.sawtooth = false) :
    sweeping.place = triangle sweeping.span sweeping.events := by
  rw [place, saw, if_neg Bool.false_ne_true]

theorem place_le (sweeping : SweepingCounter numBits) : sweeping.place ≤ sweeping.span := by
  rw [place]
  split
  · exact sawtooth_le _ _
  · exact triangle_le _ _

theorem Swept.sweeps (swept : sweeping.Swept) : sweeping.Sweeps := by
  have place := swept.place
  have within := sweeping.place_le
  have range := swept.range
  rw [span] at within
  refine ⟨?_, ?_, place⟩
  · rw [BitVec.le_def]
    omega
  · rw [BitVec.le_def]
    omega

theorem toNat_up {count : BitVec numBits} (room : count.toNat + 1 < 2 ^ numBits) :
    (count + BitVec.ofNat numBits 1).toNat = count.toNat + 1 := by
  rw [BitVec.toNat_add, BitVec.toNat_ofNat, Nat.mod_eq_of_lt (a := 1) (by omega),
    Nat.mod_eq_of_lt room]

theorem toNat_down {count : BitVec numBits} (positive : 0 < count.toNat) :
    (count - BitVec.ofNat numBits 1).toNat = count.toNat - 1 := by
  have below := count.isLt
  have one : (BitVec.ofNat numBits 1).toNat = 1 := by
    rw [BitVec.toNat_ofNat, Nat.mod_eq_of_lt (by omega)]
  rw [BitVec.toNat_sub_of_le, one]
  rw [BitVec.le_def, one]
  exact positive

/-- A counter is at a bound exactly when its place is. -/
theorem Swept.atFinish (swept : sweeping.Swept) :
    sweeping.counter.counter = sweeping.counter.finish ↔ sweeping.place = sweeping.span := by
  have place := swept.place
  have range := swept.range
  rw [← BitVec.toNat_inj, place, span]
  omega

theorem Swept.atStart (swept : sweeping.Swept) :
    sweeping.counter.counter = sweeping.counter.start ↔ sweeping.place = 0 := by
  rw [← BitVec.toNat_inj, swept.place]
  omega

/-- Where the sweep goes with the next event. -/
def placeNext (sweeping : SweepingCounter numBits) : Nat :=
  { sweeping with events := sweeping.events + 1 : SweepingCounter numBits }.place

/-- A count event of a sawtooth. -/
theorem Swept.counted_sawtooth (swept : sweeping.Swept)
    (saw : sweeping.counter.sawtooth = true) :
    sweeping.counter.counted.1.toNat = sweeping.counter.start.toNat + sweeping.placeNext ∧
      sweeping.counter.counted.2 = false := by
  have up : sweeping.counter.direction = false := by rw [swept.direction, saw]; rfl
  have placed := place_sawtooth saw
  have placedNext : sweeping.placeNext = sawtooth sweeping.span (sweeping.events + 1) :=
    @place_sawtooth _ { sweeping with events := sweeping.events + 1 } saw
  rw [UpDownCounter.counted, up, placedNext]
  cases (inferInstance : Decidable (sweeping.counter.counter = sweeping.counter.finish)) with
  | isTrue last =>
      rw [if_pos (by simpa using last), if_pos saw]
      rw [swept.atFinish, placed] at last
      rw [sawtooth_last last]
      exact ⟨rfl, rfl⟩
  | isFalse inside =>
      rw [if_neg (by simpa using inside), if_neg (by simp), if_neg (by simp)]
      rw [swept.atFinish, placed] at inside
      rw [sawtooth_inside inside, ← placed]
      have place := swept.place
      have within := sweeping.place_le
      have bound := sweeping.counter.finish.isLt
      have range := swept.range
      rw [← placed] at inside
      refine ⟨?_, rfl⟩
      rw [span] at within inside
      rw [toNat_up (by omega)]
      omega

/-- A count event of a triangle of more than one place. -/
theorem Swept.counted_triangle (swept : sweeping.Swept)
    (saw : sweeping.counter.sawtooth = false)
    (turning : sweeping.counter.start ≠ sweeping.counter.finish) :
    sweeping.counter.counted.1.toNat = sweeping.counter.start.toNat + sweeping.placeNext ∧
      sweeping.counter.counted.2 = falling sweeping.span (sweeping.events + 1) := by
  have way : sweeping.counter.direction = falling sweeping.span sweeping.events := by
    rw [swept.direction, saw]
    rfl
  have placed := place_triangle saw
  have placedNext : sweeping.placeNext = triangle sweeping.span (sweeping.events + 1) :=
    @place_triangle _ { sweeping with events := sweeping.events + 1 } saw
  have moves : 0 < sweeping.span := by
    have range := swept.range
    have apart := mt BitVec.eq_of_toNat_eq turning
    rw [span]
    omega
  have place := swept.place
  have within := sweeping.place_le
  have bound := sweeping.counter.finish.isLt
  have range := swept.range
  have atFinish := swept.atFinish
  have atStart := swept.atStart
  have spanned : sweeping.span = sweeping.counter.finish.toNat - sweeping.counter.start.toNat := rfl
  rw [placed] at place within atFinish atStart
  rw [UpDownCounter.counted, way, placedNext]
  cases up : falling sweeping.span sweeping.events with
  | false =>
      cases (inferInstance : Decidable (sweeping.counter.counter = sweeping.counter.finish)) with
      | isTrue last =>
          obtain ⟨turned, down⟩ := triangle_turns moves (atFinish.mp last)
          rw [if_pos (by simpa using last), if_neg (by rw [saw]; exact Bool.false_ne_true), turned,
            down, toNat_down (by rw [atFinish] at last; omega)]
          rw [atFinish] at last
          exact ⟨by omega, rfl⟩
      | isFalse inside =>
          obtain ⟨risen, goesOn⟩ := triangle_rises moves up (mt atFinish.mpr inside)
          rw [if_neg (by simpa using inside), if_neg (by simp), if_neg (by simp), risen, goesOn,
            toNat_up (by rw [atFinish] at inside; omega)]
          exact ⟨by omega, rfl⟩
  | true =>
      rw [if_neg (by simp)]
      cases (inferInstance : Decidable (sweeping.counter.counter = sweeping.counter.start)) with
      | isTrue first =>
          obtain ⟨turned, goesUp⟩ := triangle_turnsBack moves (atStart.mp first)
          rw [if_pos (by simpa using first), turned, goesUp,
            toNat_up (by rw [atStart] at first; omega)]
          rw [atStart] at first
          exact ⟨by omega, rfl⟩
      | isFalse inside =>
          obtain ⟨fallen, goesOn⟩ := triangle_falls moves up (mt atStart.mpr inside)
          rw [if_neg (by simpa using inside), if_pos rfl, fallen, goesOn,
            toNat_down (by rw [atStart] at inside; omega)]
          rw [atStart] at inside
          exact ⟨by omega, rfl⟩

/-- One cycle keeps the counter on its sweep. -/
theorem Swept.step (swept : sweeping.Swept) (range : sweeping.LoadsRange input)
    (turning : sweeping.CountsTurning input) : (sweeping.step input).Swept := by
  cases loads : sweeping.counter.doUpdate input with
  | true =>
      obtain ⟨⟨counter, direction⟩, start, finish, events⟩ := step_of_load loads
      refine ⟨?_, ?_, ?_⟩
      · rw [start, finish]
        exact BitVec.le_def.mp (range loads)
      · rw [counter, start, SweepingCounter.place, events, sawtooth_zero, triangle_zero, ite_self,
          Nat.add_zero]
      · rw [direction, events, falling_zero, Bool.and_false]
  | false =>
      obtain ⟨start, finish, saw, moved, events⟩ := step_of_keeps loads
      have span : (sweeping.step input).span = sweeping.span := by
        rw [SweepingCounter.span, start, finish]
        rfl
      cases counts : sweeping.counts input with
      | false =>
          rw [counts] at moved events
          rw [if_neg Bool.false_ne_true] at moved
          injection moved with counter direction
          refine ⟨?_, ?_, ?_⟩
          · rw [start, finish]
            exact swept.range
          · rw [counter, start, swept.place, SweepingCounter.place, SweepingCounter.place, saw,
              span,
              events]
            rfl
          · rw [direction, swept.direction, saw, span, events]
            rfl
      | true =>
          rw [counts] at moved events
          rw [if_pos rfl] at moved
          have placed : (sweeping.step input).place = sweeping.placeNext := by
            rw [SweepingCounter.place, saw, span, events]
            rfl
          have counter := congrArg Prod.fst moved
          have direction := congrArg Prod.snd moved
          dsimp only at counter direction
          have next : sweeping.counter.counted.1.toNat =
                sweeping.counter.start.toNat + sweeping.placeNext ∧
              sweeping.counter.counted.2 =
                (!sweeping.counter.sawtooth && falling sweeping.span (sweeping.events + 1)) := by
            cases kind : sweeping.counter.sawtooth with
            | true => exact swept.counted_sawtooth kind
            | false => exact swept.counted_triangle kind (turning counts kind)
          refine ⟨?_, ?_, ?_⟩
          · rw [start, finish]
            exact swept.range
          · rw [counter, start, placed]
            exact next.1
          · rw [direction, saw, span, events]
            exact next.2

end SweepingCounter

/-- A triangle of a single place leaves its range with a count event. -/
theorem SweepingCounter.Swept.not_sweeps {sweeping : SweepingCounter (numBits + 1)}
    {input : UpDownInput (numBits + 1)} (swept : sweeping.Swept)
    (still : ¬sweeping.CountsTurning input) : ¬(sweeping.step input).Sweeps := by
  rw [CountsTurning, Classical.not_imp, Classical.not_imp, Classical.not_not] at still
  obtain ⟨counts, saw, single⟩ := still
  intro sweeps
  have keeps : sweeping.counter.doUpdate input = false := by
    rw [SweepingCounter.counts, Bool.and_eq_true, Bool.not_eq_true'] at counts
    exact counts.2
  obtain ⟨start, finish, -, moved, -⟩ := step_of_keeps keeps
  rw [if_pos counts] at moved
  have low := BitVec.le_def.mp sweeps.fromStart
  have high := BitVec.le_def.mp sweeps.toEnd
  rw [start] at low
  rw [finish, ← single] at high
  have stays : (sweeping.step input).counter.counter = sweeping.counter.start :=
    BitVec.eq_of_toNat_eq (Nat.le_antisymm high low)
  have now : sweeping.counter.counter = sweeping.counter.start := by
    have within := sweeping.place_le
    rw [span, single, Nat.sub_self, Nat.le_zero] at within
    exact swept.atStart.mpr within
  have one : BitVec.ofNat (numBits + 1) 1 ≠ 0 := fun zero => by
    have values := congrArg BitVec.toNat zero
    exact absurd ((toNat_one numBits).symm.trans values) Nat.one_ne_zero
  have counted := (congrArg Prod.fst moved).symm.trans stays
  rw [UpDownCounter.counted, ← single, now, saw] at counted
  cases way : sweeping.counter.direction with
  | false =>
      rw [way] at counted
      simp only [Bool.not_false, beq_self_eq_true, Bool.and_self, if_true, Bool.false_eq_true,
        if_false] at counted
      exact one (sub_eq_self.mp counted)
  | true =>
      rw [way] at counted
      simp only [Bool.not_true, Bool.false_and, beq_self_eq_true, Bool.and_self, if_true,
        Bool.false_eq_true, if_false] at counted
      exact one (add_eq_left.mp counted)

/-! ## Runs -/

/-- As long as ranges are loaded and single places are not counted, the counter is on its
sweep. -/
theorem swept_run (inputs : List (UpDownInput numBits))
    (always : (upDownMachine numBits).Always
      (fun sweeping input => sweeping.LoadsRange input ∧ sweeping.CountsTurning input) inputs) :
    ((upDownMachine numBits).run inputs).Swept := by
  refine Machine.run_induction (motive := fun _ (sweeping : SweepingCounter numBits) =>
    sweeping.Swept) ?_ ?_ inputs always
  · exact ⟨Nat.le_refl _, rfl, rfl⟩
  · intro inputs input _ swept allowed
    exact swept.step allowed.1 allowed.2

/-- In every run whose loaded configurations are ranges, the counter stays in its range and
takes the places of the sweep one after the other if and only if no triangle of a single
place is counted. -/
theorem upDownCounter_sweeps_iff (inputs : List (UpDownInput (numBits + 1)))
    (ranges : (upDownMachine (numBits + 1)).Always SweepingCounter.LoadsRange inputs) :
    (∀ before, before <+: inputs → ((upDownMachine (numBits + 1)).run before).Sweeps) ↔
      (upDownMachine (numBits + 1)).Always SweepingCounter.CountsTurning inputs := by
  induction inputs using List.reverseRecOn with
  | nil =>
      constructor
      · intro _
        exact Machine.always_nil ..
      · intro _ before prefixes
        rw [List.prefix_nil.mp prefixes]
        exact (swept_run [] (Machine.always_nil ..)).sweeps
  | append_singleton inputs input inductionHypothesis =>
      rw [Machine.always_snoc] at ranges
      have earlier := inductionHypothesis ranges.1
      rw [Machine.always_snoc]
      constructor
      · intro sweeps
        have turning := earlier.mp fun before prefixes =>
          sweeps before (prefixes.trans (List.prefix_append ..))
        refine ⟨turning, Classical.byContradiction fun still => ?_⟩
        have now := swept_run inputs (Machine.always_and.mpr ⟨ranges.1, turning⟩)
        have next := sweeps (inputs ++ [input]) (List.prefix_refl _)
        rw [Machine.run_snoc] at next
        exact now.not_sweeps still next
      · rintro ⟨turning, now⟩ before prefixes
        rcases List.prefix_concat_iff.mp prefixes with rfl | inside
        · exact (swept_run _ ((Machine.always_snoc ..).mpr
            ⟨Machine.always_and.mpr ⟨ranges.1, turning⟩, ranges.2, now⟩)).sweeps
        · exact earlier.mpr turning before inside

/-- A cycle of the counter with a count event. -/
def countEvent (sawtooth : Bool) (start finish : BitVec 16) : UpDownInput 16 where
  cfgSawtooth := sawtooth
  cfgStart := start
  cfgEnd := finish
  update := false
  rst := false
  active := true
  event := true

/-- A range is loaded by a reset and then counted. -/
def resetAndCount (sawtooth : Bool) (start finish : BitVec 16) (events : Nat) :
    List (UpDownInput 16) :=
  let cycle := countEvent sawtooth start finish
  { cycle with rst := true } :: List.replicate events cycle

/-- A triangle over three places turns at both ends. -/
theorem resetAndCount_sweeps :
    (upDownMachine 16).Always SweepingCounter.LoadsRange (resetAndCount false 4 6 5) ∧
      ∀ before, before <+: resetAndCount false 4 6 5 → ((upDownMachine 16).run before).Sweeps :=
  have ranges : (upDownMachine 16).Always SweepingCounter.LoadsRange
      (resetAndCount false 4 6 5) := by
    decide +kernel
  ⟨ranges, (upDownCounter_sweeps_iff _ ranges).mpr (by decide +kernel)⟩

/-- A triangle with its start at its end counts down from it without turning. -/
theorem singlePlace_not_sweeps :
    (upDownMachine 16).Always SweepingCounter.LoadsRange (resetAndCount false 4 4 3) ∧
      ((upDownMachine 16).run (resetAndCount false 4 4 3)).counter.counter = 1 ∧
      ¬∀ before, before <+: resetAndCount false 4 4 3 →
        ((upDownMachine 16).run before).Sweeps := by
  refine ⟨by decide +kernel, by decide +kernel, fun sweeps => ?_⟩
  have low := (sweeps _ (List.prefix_refl _)).fromStart
  revert low
  decide +kernel

end CoreVMcu.Timer
