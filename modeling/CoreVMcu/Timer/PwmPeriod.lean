import CoreVMcu.Clocked.PeriodicActions
import CoreVMcu.Timer.Comparator
import CoreVMcu.Timer.CounterRange

/-!
# The period of the outputs of the advanced timer

A comparator that follows a counter through its sweeps repeats its output with the period of the
counter, unless it uses both of its events one period apart: with the threshold at the end of a
sawtooth, where the match takes precedence, and at a turning point of a triangle, which is passed
once in a period only.
-/

namespace CoreVMcu.Timer

open Clocked

variable {numBits : Nat}

/-- A comparator with the counter it follows. -/
structure PwmChannel (numBits : Nat) where
  counter : SweepingCounter numBits
  comparator : Comparator numBits

/-- The inputs of a cycle in which neither the timer is given a command nor the configuration
changes; `update` is the one of the comparator, at which it takes its configuration again. -/
structure PwmInput where
  active : Bool
  event : Bool
  update : Bool
  deriving DecidableEq

namespace PwmChannel

variable (channel : PwmChannel numBits) (input : PwmInput)

/-- What the counter gets. -/
def counterInput : UpDownInput numBits where
  cfgSawtooth := channel.counter.counter.sawtooth
  cfgStart := channel.counter.counter.start
  cfgEnd := channel.counter.counter.finish
  update := false
  rst := false
  active := input.active
  event := input.event

/-- What the comparator gets. -/
def comparatorInput : ComparatorInput numBits where
  active := input.active
  update := input.update
  rst := false
  cfg := channel.comparator.cfg
  timerEnd := channel.counter.counter.endO input.active
  timerValid := channel.counter.counter.evtO input.active
  timerSawtooth := channel.counter.counter.sawtooth
  timerCount := channel.counter.counter.counter

/-- One clock edge. -/
def step : PwmChannel numBits where
  counter := channel.counter.step (channel.counterInput input)
  comparator := channel.comparator.step (channel.comparatorInput input)

/-- The comparator sees a count event. -/
def cntEvt : Bool := channel.counter.counter.evtO input.active

/-- The counter sweeps over more than one place, none of its updates is pending, and the threshold
is in its range. -/
structure Configured : Prop where
  swept : channel.counter.Swept
  moves : channel.counter.counter.start < channel.counter.counter.finish
  settled : channel.counter.counter.pendingUpdate = false
  fromStart : channel.counter.counter.start ≤ channel.comparator.cfg.comp
  toEnd : channel.comparator.cfg.comp ≤ channel.counter.counter.finish

/-- The number of count events in a period of the counter. -/
def period : Nat :=
  if channel.counter.counter.sawtooth then channel.counter.span + 1 else 2 * channel.counter.span

end PwmChannel

/-- The comparator and its counter from some state on. -/
def pwmMachine (channel : PwmChannel numBits) : Machine (PwmChannel numBits) PwmInput where
  init := channel
  step := PwmChannel.step

/-- The output is a function of the number of count events. -/
def OutputIs (channel : PwmChannel numBits) (output : Nat → Bool) : Prop :=
  ∀ inputs, ((pwmMachine channel).run inputs).comparator.value =
    output ((pwmMachine channel).counted PwmChannel.cntEvt inputs)

/-- The operation toggles at the match and does something else at its second event. -/
def togglesFirst (compOp : BitVec 3) : Bool := compOp == 0b001 || compOp == 0b101

/-- The operation has two events. -/
def hasTwoEvents (compOp : BitVec 3) : Bool :=
  compOp == 0b001 || compOp == 0b010 || compOp == 0b101 || compOp == 0b110

/-- The two events of the operation are one period apart. -/
def PwmChannel.DoublesPeriod (channel : PwmChannel numBits) : Prop :=
  if channel.counter.counter.sawtooth then
    channel.comparator.cfg.comp = channel.counter.counter.finish ∧
      togglesFirst channel.comparator.cfg.compOp = true
  else
    (channel.comparator.cfg.comp = channel.counter.counter.start ∨
        channel.comparator.cfg.comp = channel.counter.counter.finish) ∧
      hasTwoEvents channel.comparator.cfg.compOp = true

/-! ## One count event -/

/-- `r_value` and `r_is_2nd_event` after a count event, from those before it. -/
def outcome (compOp : BitVec 3) (sawtooth isMatch isEnd : Bool) (values : Bool × Bool) :
    Bool × Bool :=
  Comparator.operated
    { cfg := { comp := 1, compOp }, value := values.1, is2ndEvent := values.2 }
    { active := true, update := false, rst := false, cfg := { comp := 1, compOp }
      timerEnd := isEnd, timerValid := true, timerSawtooth := sawtooth
      timerCount := BitVec.ofBool isMatch }

theorem operated_eq_outcome (comparator : Comparator numBits) (input : ComparatorInput numBits) :
    comparator.operated input =
      outcome comparator.cfg.compOp input.timerSawtooth (comparator.isMatch input) input.timerEnd
        (comparator.value, comparator.is2ndEvent) := by
  have matches' (matched : Bool) : (1#1 == BitVec.ofBool matched) = matched := by
    cases matched <;> rfl
  rcases comparator with ⟨⟨comp, compOp⟩, value, is2ndEvent⟩
  simp only [outcome, Comparator.operated, Comparator.single, Comparator.paired,
    Comparator.secondEvent, Comparator.isMatch, Bool.true_and]
  simp [matches']

section Operations

variable {compOp : BitVec 3} {sawtooth : Bool}

/-- In the triangular mode the end of the period does not matter. -/
theorem outcome_triangle (isMatch isEnd isEnd' : Bool) (values : Bool × Bool) :
    outcome compOp false isMatch isEnd values = outcome compOp false isMatch isEnd' values := by
  revert compOp isMatch isEnd isEnd' values
  decide

/-- The flag of the second event does not matter where there is none, and in the sawtooth mode. -/
theorem outcome_value (plain : sawtooth = true ∨ hasTwoEvents compOp = false) (isMatch isEnd : Bool)
    (values : Bool × Bool) :
    (outcome compOp sawtooth isMatch isEnd values).1 =
      (outcome compOp sawtooth isMatch isEnd (values.1, false)).1 := by
  revert compOp sawtooth isMatch isEnd values
  decide

/-- An operation that neither toggles nor keeps the output decides it at the match. -/
theorem outcome_match (notToggle : compOp ≠ 0b011) (acts : compOp ≠ 0b111)
    (decides : if sawtooth then togglesFirst compOp = false else hasTwoEvents compOp = false)
    (isEnd value value' : Bool) :
    (outcome compOp sawtooth true isEnd (value, false)).1 =
      (outcome compOp sawtooth true isEnd (value', false)).1 := by
  revert compOp sawtooth isEnd value value'
  decide

/-- One that toggles at the match decides it at the end of the period. -/
theorem outcome_end (toggles : togglesFirst compOp = true) (value value' : Bool) :
    (outcome compOp true false true (value, false)).1 =
      (outcome compOp true false true (value', false)).1 := by
  revert compOp value value'
  decide

/-- At the end of the period the match takes precedence. -/
theorem outcome_matchAtEnd (toggles : togglesFirst compOp = true) (isMatch value : Bool) :
    (outcome compOp true isMatch isMatch (value, false)).1 =
      if isMatch then !value else value := by
  revert compOp isMatch value
  decide

/-- An operation that keeps the output. -/
theorem outcome_keeps (isMatch isEnd : Bool) (values : Bool × Bool) :
    (outcome 0b111 sawtooth isMatch isEnd values).1 = values.1 := by
  revert sawtooth isMatch isEnd values
  decide

/-- A match of an operation with two events in the triangular mode. -/
def atMatch (compOp : BitVec 3) : Bool × Bool → Bool × Bool := outcome compOp false true false

theorem outcome_twoEvents (two : hasTwoEvents compOp = true) (isMatch isEnd : Bool)
    (values : Bool × Bool) :
    outcome compOp false isMatch isEnd values =
      if isMatch then atMatch compOp values else values := by
  revert compOp isMatch isEnd values
  decide

theorem atMatch_repeats (compOp : BitVec 3) (values : Bool × Bool) :
    atMatch compOp (atMatch compOp (atMatch compOp (atMatch compOp values))) =
      atMatch compOp (atMatch compOp values) := by
  revert compOp values
  decide

/-- The two events have opposite effects. -/
theorem atMatch_alternates (two : hasTwoEvents compOp = true) (values : Bool × Bool) :
    (atMatch compOp (atMatch compOp (atMatch compOp values))).1 =
      !(atMatch compOp (atMatch compOp values)).1 := by
  revert compOp values
  decide

end Operations

namespace PwmChannel

variable (channel : PwmChannel numBits)

/-- The number of the sweep's place that the next count event is about: one that the counter has
reached already is the current place. -/
def nextPlace : Nat :=
  if channel.counter.counter.event then channel.counter.events else channel.counter.events + 1

/-- How far the counter is above its start at a place of the sweep. -/
def placeAt (k : Nat) : Nat :=
  if channel.counter.counter.sawtooth then sawtooth channel.counter.span k
  else triangle channel.counter.span k

/-- How far the threshold is above the start. -/
def threshold : Nat :=
  channel.comparator.cfg.comp.toNat - channel.counter.counter.start.toNat

/-- The `i`-th count event from now on is a match. -/
def MatchAt (i : Nat) : Prop := channel.placeAt (channel.nextPlace + i) = channel.threshold

/-- The `i`-th count event from now on is at the end of the range. -/
def EndAt (i : Nat) : Prop := channel.placeAt (channel.nextPlace + i) = channel.counter.span

instance : DecidablePred channel.MatchAt := fun _ => inferInstanceAs (Decidable (_ = _))

instance : DecidablePred channel.EndAt := fun _ => inferInstanceAs (Decidable (_ = _))

/-- What the `i`-th count event from now on does to `r_value` and `r_is_2nd_event`. -/
def act (i : Nat) : Bool × Bool → Bool × Bool :=
  outcome channel.comparator.cfg.compOp channel.counter.counter.sawtooth
    (decide (channel.MatchAt i)) (decide (channel.EndAt i))

/-- `r_value` and `r_is_2nd_event`. -/
def values : Bool × Bool := (channel.comparator.value, channel.comparator.is2ndEvent)

variable {channel}

theorem placeAt_periodic (channel : PwmChannel numBits) :
    Function.Periodic channel.placeAt channel.period := by
  intro k
  rw [placeAt, placeAt, period]
  split
  · rw [sawtooth, sawtooth, Nat.add_mod_right]
  · rw [triangle, triangle, Nat.add_mod_right]

theorem matchAt_periodic (channel : PwmChannel numBits) :
    Function.Periodic channel.MatchAt channel.period := by
  intro i
  rw [MatchAt, MatchAt, ← Nat.add_assoc, placeAt_periodic]

theorem endAt_periodic (channel : PwmChannel numBits) :
    Function.Periodic channel.EndAt channel.period := by
  intro i
  rw [EndAt, EndAt, ← Nat.add_assoc, placeAt_periodic]

theorem act_periodic (channel : PwmChannel numBits) :
    Function.Periodic channel.act channel.period := by
  intro i
  simp only [act, matchAt_periodic channel i, endAt_periodic channel i]

/-- In the sawtooth mode every place is passed once in a period. -/
theorem count_sawtooth (saw : channel.counter.counter.sawtooth = true) {place : Nat}
    (inside : place ≤ channel.counter.span) :
    Nat.count (fun i => channel.placeAt (channel.nextPlace + i) = place) channel.period = 1 := by
  have periodic : Function.Periodic (fun i => channel.placeAt i = place) channel.period := by
    intro i
    simp only [placeAt_periodic channel i]
  rw [count_shifted periodic, Nat.count_eq_card_filter_range, Finset.card_eq_one]
  refine ⟨place, ?_⟩
  ext i
  simp only [Finset.mem_filter, Finset.mem_range, Finset.mem_singleton, placeAt, period, saw,
    if_true, sawtooth]
  constructor
  · rintro ⟨below, same⟩
    rwa [Nat.mod_eq_of_lt below] at same
  · rintro rfl
    exact ⟨by omega, Nat.mod_eq_of_lt (by omega)⟩

/-- A triangle passes its turning points once in a period and the other places twice. -/
theorem count_triangle (saw : channel.counter.counter.sawtooth = false)
    (moves : 0 < channel.counter.span) {place : Nat} (inside : place ≤ channel.counter.span) :
    Nat.count (fun i => channel.placeAt (channel.nextPlace + i) = place) channel.period =
      if place = 0 ∨ place = channel.counter.span then 1 else 2 := by
  have periodic : Function.Periodic (fun i => channel.placeAt i = place) channel.period := by
    intro i
    simp only [placeAt_periodic channel i]
  have back : (2 * channel.counter.span - place) % (2 * channel.counter.span) =
      if place = 0 then 0 else 2 * channel.counter.span - place := by
    split
    next zero => rw [zero, Nat.sub_zero, Nat.mod_self]
    next => exact Nat.mod_eq_of_lt (by omega)
  have passes : (Finset.range channel.period).filter (fun i => channel.placeAt i = place) =
      {place, (2 * channel.counter.span - place) % (2 * channel.counter.span)} := by
    ext i
    simp only [Finset.mem_filter, Finset.mem_range, Finset.mem_insert, Finset.mem_singleton,
      placeAt, period, saw, Bool.false_eq_true, if_false, triangle]
    rw [back]
    constructor
    · rintro ⟨below, same⟩
      rw [Nat.mod_eq_of_lt below] at same
      split <;> omega
    · intro passed
      have below : i < 2 * channel.counter.span := by
        split at passed <;> omega
      rw [Nat.mod_eq_of_lt below]
      split at passed <;> omega
  rw [count_shifted periodic, Nat.count_eq_card_filter_range, passes, back]
  by_cases turning : place = 0 ∨ place = channel.counter.span
  · have same : (if place = 0 then 0 else 2 * channel.counter.span - place) = place := by
      split <;> omega
    rw [if_pos turning, same, Finset.pair_eq_singleton, Finset.card_singleton]
  · rw [if_neg turning, Finset.card_pair]
    split <;> omega

/-! ## The values after some count events -/

/-- The values after the first count events from now on. -/
def valuesAfter (channel : PwmChannel numBits) (k : Nat) : Bool × Bool :=
  actedOn channel.act channel.values k

variable {k : Nat}

/-- Where the second event has a flag of its own in no mode, the output decides itself. -/
theorem valuesAfter_value
    (plain : channel.counter.counter.sawtooth = true ∨
      hasTwoEvents channel.comparator.cfg.compOp = false) (k : Nat) :
    (channel.valuesAfter k).1 =
      actedOn (fun i value => (channel.act i (value, false)).1) channel.values.1 k :=
  map_actedOn Prod.fst (fun _ values => outcome_value plain _ _ values) k

/-- Some count event of a sawtooth's period is at its end. -/
theorem exists_end (saw : channel.counter.counter.sawtooth = true) :
    ∃ i < channel.period, channel.EndAt i := by
  apply Nat.count_ne_iff_exists.mp
  have once : Nat.count channel.EndAt channel.period = 1 := count_sawtooth saw (Nat.le_refl _)
  rw [once]
  exact Nat.one_ne_zero

/-- The values of an operation with two events in the triangular mode, from the number of
matches. -/
theorem valuesAfter_twoEvents (saw : channel.counter.counter.sawtooth = false)
    (two : hasTwoEvents channel.comparator.cfg.compOp = true) (k : Nat) :
    channel.valuesAfter k =
      (atMatch channel.comparator.cfg.compOp)^[Nat.count channel.MatchAt k] channel.values := by
  apply actedOn_eq_iterate
  intro i values
  rw [act, saw, outcome_twoEvents two]
  simp only [decide_eq_true_eq]

/-- The matches before the count event one period later. -/
theorem count_later (channel : PwmChannel numBits) (k : Nat) :
    Nat.count channel.MatchAt (k + channel.period) =
      Nat.count channel.MatchAt k + Nat.count channel.MatchAt channel.period :=
  count_add_period (matchAt_periodic channel) k

theorem act_value_periodic (channel : PwmChannel numBits) :
    Function.Periodic (fun i value => (channel.act i (value, false)).1) channel.period := by
  intro i
  simp only [act_periodic channel i]

namespace Configured

theorem span_pos (configured : channel.Configured) : 0 < channel.counter.span := by
  have moves := BitVec.lt_def.mp configured.moves
  rw [SweepingCounter.span]
  omega

theorem threshold_le (configured : channel.Configured) :
    channel.threshold ≤ channel.counter.span := by
  have toEnd := BitVec.le_def.mp configured.toEnd
  rw [threshold, SweepingCounter.span]
  omega

theorem atStart (configured : channel.Configured) :
    channel.threshold = 0 ↔ channel.comparator.cfg.comp = channel.counter.counter.start := by
  have fromStart := BitVec.le_def.mp configured.fromStart
  rw [threshold, ← BitVec.toNat_inj]
  omega

theorem atFinish (configured : channel.Configured) :
    channel.threshold = channel.counter.span ↔
      channel.comparator.cfg.comp = channel.counter.counter.finish := by
  have fromStart := BitVec.le_def.mp configured.fromStart
  have moves := BitVec.lt_def.mp configured.moves
  rw [threshold, SweepingCounter.span, ← BitVec.toNat_inj]
  omega

/-- The number of matches in a period. -/
theorem count_matches (configured : channel.Configured) :
    Nat.count channel.MatchAt channel.period =
      if channel.counter.counter.sawtooth = true ∨ channel.threshold = 0 ∨
          channel.threshold = channel.counter.span then 1
      else 2 := by
  cases saw : channel.counter.counter.sawtooth with
  | true =>
    rw [if_pos (.inl rfl)]
    exact count_sawtooth saw configured.threshold_le
  | false =>
    simp only [Bool.false_eq_true, false_or]
    exact count_triangle saw configured.span_pos configured.threshold_le

/-- Some count event of a period is a match. -/
theorem exists_match (configured : channel.Configured) :
    ∃ i < channel.period, channel.MatchAt i := by
  apply Nat.count_ne_iff_exists.mp
  rw [configured.count_matches]
  split <;> decide

/-- The output repeats with the period of the counter. -/
theorem repeats (configured : channel.Configured)
    (notToggle : channel.comparator.cfg.compOp ≠ 0b011) (single : ¬channel.DoublesPeriod)
    (later : channel.period ≤ k) :
    (channel.valuesAfter (k + channel.period)).1 = (channel.valuesAfter k).1 := by
  rw [DoublesPeriod, ← configured.atStart, ← configured.atFinish] at single
  by_cases twoEvents : channel.counter.counter.sawtooth = false ∧
      hasTwoEvents channel.comparator.cfg.compOp = true
  · -- the two matches of a period have the two events
    obtain ⟨saw, two⟩ := twoEvents
    rw [saw, if_neg Bool.false_ne_true] at single
    have count := configured.count_matches
    rw [saw, if_neg (by simpa [two] using single)] at count
    have before := Nat.count_monotone channel.MatchAt later
    obtain ⟨rest, equal⟩ := Nat.exists_eq_add_of_le' (count ▸ before)
    rw [valuesAfter_twoEvents saw two, valuesAfter_twoEvents saw two, count_later, count, equal]
    simp only [Function.iterate_succ_apply', atMatch_repeats]
  · have plain : channel.counter.counter.sawtooth = true ∨
        hasTwoEvents channel.comparator.cfg.compOp = false := by
      rw [not_and_or, Bool.not_eq_false, Bool.not_eq_true] at twoEvents
      exact twoEvents
    rw [valuesAfter_value plain, valuesAfter_value plain]
    by_cases keeps : channel.comparator.cfg.compOp = 0b111
    · have idle (i : Nat) (value : Bool) : (channel.act i (value, false)).1 = value := by
        rw [act, keeps, outcome_keeps]
      rw [actedOn_id idle, actedOn_id idle]
    · by_cases toggles : channel.counter.counter.sawtooth = true ∧
          togglesFirst channel.comparator.cfg.compOp = true
      · -- the end of the period decides the output, as the threshold is elsewhere
        obtain ⟨saw, toggles⟩ := toggles
        rw [saw, if_pos rfl] at single
        obtain ⟨i, inside, atEnd⟩ := exists_end saw
        have noMatch : ¬channel.MatchAt i := by
          intro isMatch
          exact single ⟨isMatch.symm.trans atEnd, toggles⟩
        apply actedOn_repeats_of_forgets (act_value_periodic channel) inside _ later
        intro value value'
        simp only [act, saw, decide_eq_true atEnd, decide_eq_false noMatch]
        exact outcome_end toggles value value'
      · -- the match decides the output
        obtain ⟨i, inside, isMatch⟩ := configured.exists_match
        apply actedOn_repeats_of_forgets (act_value_periodic channel) inside _ later
        intro value value'
        simp only [act, decide_eq_true isMatch]
        apply outcome_match notToggle keeps
        cases saw : channel.counter.counter.sawtooth with
        | true =>
          rw [if_pos rfl, ← Bool.not_eq_true]
          exact fun isToggle => toggles ⟨saw, isToggle⟩
        | false =>
          rw [if_neg Bool.false_ne_true]
          rcases plain with isSaw | two
          · rw [saw] at isSaw
            cases isSaw
          · exact two

/-- The output is the opposite one period later. -/
theorem alternates (configured : channel.Configured) (double : channel.DoublesPeriod)
    (later : 2 * channel.period ≤ k) :
    (channel.valuesAfter (k + channel.period)).1 = !(channel.valuesAfter k).1 := by
  rw [DoublesPeriod, ← configured.atStart, ← configured.atFinish] at double
  have count := configured.count_matches
  cases saw : channel.counter.counter.sawtooth with
  | true =>
    rw [saw, if_pos rfl] at double
    rw [if_pos (.inl saw)] at count
    have toggles (i : Nat) (value : Bool) :
        (channel.act i (value, false)).1 = if channel.MatchAt i then !value else value := by
      have same : channel.EndAt i ↔ channel.MatchAt i := by
        rw [EndAt, MatchAt, double.1]
      rw [act, saw, decide_eq_decide.mpr same, outcome_matchAtEnd double.2]
      simp only [decide_eq_true_eq]
    rw [valuesAfter_value (.inl saw), valuesAfter_value (.inl saw), actedOn_eq_iterate toggles,
      actedOn_eq_iterate toggles, count_later, count, Function.iterate_succ_apply']
  | false =>
    rw [saw, if_neg Bool.false_ne_true] at double
    rw [if_pos (.inr double.1)] at count
    have before := Nat.count_monotone channel.MatchAt later
    rw [Nat.two_mul, count_later, count] at before
    obtain ⟨rest, equal⟩ := Nat.exists_eq_add_of_le' before
    rw [valuesAfter_twoEvents saw double.2, valuesAfter_twoEvents saw double.2, count_later, count,
      equal]
    simp only [Function.iterate_succ_apply', atMatch_alternates double.2]

end Configured

variable {later : PwmChannel numBits} {input : PwmInput}

/-- Two states of a channel with the same configuration. -/
structure SameSetting (channel later : PwmChannel numBits) : Prop where
  cfg : later.comparator.cfg = channel.comparator.cfg
  sawtooth : later.counter.counter.sawtooth = channel.counter.counter.sawtooth
  start : later.counter.counter.start = channel.counter.counter.start
  finish : later.counter.counter.finish = channel.counter.counter.finish

namespace SameSetting

theorem refl (channel : PwmChannel numBits) : SameSetting channel channel := ⟨rfl, rfl, rfl, rfl⟩

theorem trans {last : PwmChannel numBits} (first : SameSetting channel later)
    (second : SameSetting later last) : SameSetting channel last :=
  ⟨second.cfg.trans first.cfg, second.sawtooth.trans first.sawtooth,
    second.start.trans first.start, second.finish.trans first.finish⟩

/-- A later state does what the earlier one does after as many count events. -/
theorem act (same : SameSetting channel later) {n : Nat}
    (place : later.nextPlace = channel.nextPlace + n) (i : Nat) :
    later.act i = channel.act (n + i) := by
  have matchAt : later.MatchAt i ↔ channel.MatchAt (n + i) := by
    simp only [MatchAt, placeAt, threshold, SweepingCounter.span, same.cfg, same.sawtooth,
      same.start, same.finish, place, Nat.add_assoc]
  have endAt : later.EndAt i ↔ channel.EndAt (n + i) := by
    simp only [EndAt, placeAt, SweepingCounter.span, same.sawtooth, same.start, same.finish, place,
      Nat.add_assoc]
  rw [PwmChannel.act, PwmChannel.act, same.cfg, same.sawtooth, decide_eq_decide.mpr matchAt,
    decide_eq_decide.mpr endAt]

end SameSetting

/-- Without commands and with nothing pending the counter is not loaded. -/
theorem Configured.doUpdate (configured : channel.Configured) (input : PwmInput) :
    channel.counter.counter.updates (channel.counterInput input) = (false, false) := by
  rw [UpDownCounter.updates, configured.settled]
  rfl

theorem Configured.sameSetting (configured : channel.Configured) (input : PwmInput) :
    SameSetting channel (channel.step input) := by
  have keeps : channel.counter.counter.doUpdate (channel.counterInput input) = false :=
    congrArg Prod.snd (configured.doUpdate input)
  obtain ⟨start, finish, saw, -, -⟩ := SweepingCounter.step_of_keeps keeps
  refine ⟨?_, saw, start, finish⟩
  rw [step, Comparator.step_cfg]
  exact ite_self _

theorem Configured.step (configured : channel.Configured) (input : PwmInput) :
    (channel.step input).Configured := by
  have same := configured.sameSetting input
  refine ⟨?_, ?_, ?_, ?_, ?_⟩
  · apply configured.swept.step
    · intro loads
      rw [UpDownCounter.doUpdate, configured.doUpdate] at loads
      cases loads
    · intro _ _ still
      have moves := configured.moves
      rw [still] at moves
      exact absurd moves (BitVec.lt_irrefl _)
  · rw [same.start, same.finish]
    exact configured.moves
  · rw [PwmChannel.step, SweepingCounter.step, UpDownCounter.step_pendingUpdate,
      configured.doUpdate]
  · rw [same.start, same.cfg]
    exact configured.fromStart
  · rw [same.finish, same.cfg]
    exact configured.toEnd

/-- A count event brings the next place. -/
theorem Configured.nextPlace_step (configured : channel.Configured) (input : PwmInput) :
    (channel.step input).nextPlace = channel.nextPlace + (channel.cntEvt input).toNat := by
  have keeps : channel.counter.counter.doUpdate (channel.counterInput input) = false :=
    congrArg Prod.snd (configured.doUpdate input)
  obtain ⟨-, -, -, -, events⟩ := SweepingCounter.step_of_keeps keeps
  have event : (channel.step input).counter.counter.event =
      if input.active then input.event else channel.counter.counter.event := by
    rw [PwmChannel.step, SweepingCounter.step, UpDownCounter.step]
    split
    · rfl
    · split <;> rfl
  have counted : (channel.step input).counter.events =
      channel.counter.events + (input.event && input.active).toNat := by
    rw [PwmChannel.step, events, SweepingCounter.counts, keeps]
    simp [counterInput]
  rw [nextPlace, nextPlace, event, counted, cntEvt, UpDownCounter.evtO]
  cases input.active <;> cases input.event <;> cases channel.counter.counter.event <;> simp

/-- A count event is a match if the counter is at the threshold. -/
theorem Configured.matchAt_zero (configured : channel.Configured)
    (pending : channel.counter.counter.event = true) :
    channel.MatchAt 0 ↔ channel.comparator.cfg.comp = channel.counter.counter.counter := by
  have fromStart := BitVec.le_def.mp configured.fromStart
  have place := configured.swept.place
  have placeNow : channel.placeAt (channel.nextPlace + 0) = channel.counter.place := by
    rw [nextPlace, if_pos pending]
    rfl
  rw [MatchAt, placeNow, threshold, ← BitVec.toNat_inj]
  omega

/-- The end event of a sawtooth is at the end of its range. -/
theorem Configured.endAt_zero (configured : channel.Configured)
    (saw : channel.counter.counter.sawtooth = true)
    (pending : channel.counter.counter.event = true) :
    channel.EndAt 0 ↔ channel.counter.counter.isUpdate = true := by
  have placeNow : channel.placeAt (channel.nextPlace + 0) = channel.counter.place := by
    rw [nextPlace, if_pos pending]
    rfl
  rw [EndAt, placeNow, ← configured.swept.atFinish, UpDownCounter.isUpdate, if_pos saw, beq_iff_eq]

/-- Only a count event acts on the values. -/
theorem Configured.values_step (configured : channel.Configured) (input : PwmInput) :
    (channel.step input).values =
      if channel.cntEvt input then channel.act 0 channel.values else channel.values := by
  cases evt : channel.cntEvt input with
  | false =>
    rw [if_neg Bool.false_ne_true, values, PwmChannel.step, Comparator.step]
    have quiet : ((channel.comparatorInput input).timerValid &&
        (channel.comparatorInput input).active) = false := by
      change (channel.cntEvt input && input.active) = false
      rw [evt, Bool.false_and]
    rw [quiet]
    rfl
  | true =>
    obtain ⟨active, pending⟩ : input.active = true ∧ channel.counter.counter.event = true := by
      rw [cntEvt, UpDownCounter.evtO, Bool.and_eq_true] at evt
      exact evt
    have operated : (channel.step input).values =
        channel.comparator.operated (channel.comparatorInput input) := by
      rw [values, PwmChannel.step, Comparator.step]
      simp [comparatorInput, UpDownCounter.evtO, active, pending]
    have isMatch : channel.comparator.isMatch (channel.comparatorInput input) =
        decide (channel.MatchAt 0) := by
      rw [Bool.eq_iff_iff, decide_eq_true_iff, configured.matchAt_zero pending]
      simp [Comparator.isMatch, comparatorInput, UpDownCounter.evtO, active, pending]
    rw [if_pos rfl, operated, operated_eq_outcome, isMatch, act]
    cases saw : channel.counter.counter.sawtooth with
    | false =>
      simp only [comparatorInput, saw]
      exact outcome_triangle _ _ _ _
    | true =>
      have isEnd : channel.counter.counter.isUpdate = decide (channel.EndAt 0) := by
        rw [Bool.eq_iff_iff, decide_eq_true_iff, configured.endAt_zero saw pending]
      simp only [comparatorInput, saw, UpDownCounter.endO, active, pending, Bool.true_and, isEnd]
      rfl

/-- After a run the values are those of as many count events. -/
theorem Configured.run (configured : channel.Configured) (inputs : List PwmInput) :
    ((pwmMachine channel).run inputs).Configured ∧
      SameSetting channel ((pwmMachine channel).run inputs) ∧
      ((pwmMachine channel).run inputs).nextPlace =
        channel.nextPlace + (pwmMachine channel).counted cntEvt inputs ∧
      ((pwmMachine channel).run inputs).values =
        channel.valuesAfter ((pwmMachine channel).counted cntEvt inputs) := by
  induction inputs using List.reverseRecOn with
  | nil => exact ⟨configured, .refl channel, rfl, rfl⟩
  | append_singleton inputs input inductionHypothesis =>
    obtain ⟨now, same, place, values⟩ := inductionHypothesis
    rw [Machine.run_snoc, Machine.counted_snoc]
    refine ⟨now.step input, same.trans (now.sameSetting input), ?_, ?_⟩
    · exact (now.nextPlace_step input).trans (by rw [place, Nat.add_assoc])
    · refine (now.values_step input).trans ?_
      cases cntEvt ((pwmMachine channel).run inputs) input with
      | false => exact values
      | true =>
        rw [if_pos rfl, same.act place, values]
        rfl

/-- The output after a run, from the number of count events in it. -/
theorem Configured.outputIs (configured : channel.Configured) :
    OutputIs channel fun k => (channel.valuesAfter k).1 :=
  fun inputs => congrArg Prod.fst (configured.run inputs).2.2.2

end PwmChannel

/-- Unless the operation is the plain toggle, the output repeats with the period of the counter
once one period has elapsed; where the events of the operation are one period apart it repeats
with twice this period, and is the opposite one period later. -/
theorem pwm_periodic (channel : PwmChannel numBits) (configured : channel.Configured)
    (notToggle : channel.comparator.cfg.compOp ≠ 0b011) :
    ∃ output, OutputIs channel output ∧
      (¬channel.DoublesPeriod →
        ∀ k, channel.period ≤ k → output (k + channel.period) = output k) ∧
      (channel.DoublesPeriod →
        ∀ k, 2 * channel.period ≤ k →
          output (k + 2 * channel.period) = output k ∧
            output (k + channel.period) ≠ output k) := by
  refine ⟨_, configured.outputIs, ?_, ?_⟩
  · intro single k later
    exact configured.repeats notToggle single later
  · intro double k later
    have next := configured.alternates double later
    have afterNext := configured.alternates double
      (Nat.le_trans later (Nat.le_add_right k channel.period))
    rw [next, Bool.not_not, Nat.add_assoc, ← Nat.two_mul] at afterNext
    refine ⟨afterNext, ?_⟩
    rw [next]
    exact Bool.not_ne_self _

/-- A sawtooth from 2 to 5 with the threshold 3, that is set at the match and reset at the end. -/
def sawtoothChannel : PwmChannel 16 where
  counter :=
    { counter :=
        { counter := 2, start := 2, finish := 5, direction := false, sawtooth := true
          event := false, pendingUpdate := false }
      events := 0 }
  comparator := { cfg := { comp := 3, compOp := 0b010 }, value := false, is2ndEvent := false }

theorem sawtoothChannel_periodic :
    ∃ output, OutputIs sawtoothChannel output ∧ ∀ k, 4 ≤ k → output (k + 4) = output k := by
  obtain ⟨output, is, repeats, -⟩ := pwm_periodic sawtoothChannel
    { swept := { range := by decide, place := by decide, direction := by decide }
      moves := by decide
      settled := rfl
      fromStart := by decide
      toEnd := by decide } (by decide)
  exact ⟨output, is, repeats fun double => absurd double.2 (by decide)⟩

/-- A triangle between 2 and 5 with the threshold at its peak. -/
def peakChannel : PwmChannel 16 where
  counter :=
    { counter :=
        { counter := 2, start := 2, finish := 5, direction := false, sawtooth := false
          event := false, pendingUpdate := false }
      events := 0 }
  comparator := { cfg := { comp := 5, compOp := 0b010 }, value := false, is2ndEvent := false }

/-- At its peak the output is set in one period and reset in the next one. -/
theorem peakChannel_not_periodic :
    ¬∀ channel : PwmChannel 16, channel.Configured → channel.comparator.cfg.compOp ≠ 0b011 →
      ∃ output, OutputIs channel output ∧
        ∀ k, channel.period ≤ k → output (k + channel.period) = output k := by
  intro periodic
  obtain ⟨output, is, repeats⟩ := periodic peakChannel
    { swept := { range := by decide, place := by decide, direction := by decide }
      moves := by decide
      settled := rfl
      fromStart := by decide
      toEnd := by decide } (by decide)
  have early : true = output 8 :=
    is (List.replicate 9 { active := true, event := true, update := false })
  have late : false = output 14 :=
    is (List.replicate 15 { active := true, event := true, update := false })
  have same : output 14 = output 8 := repeats 8 (by decide)
  rw [← early, ← late] at same
  cases same

end CoreVMcu.Timer
