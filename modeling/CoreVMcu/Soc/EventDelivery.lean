import CoreVMcu.Soc.EventGenerator

/-!
# Delivery of SoC events

Occurrences of the event lines against what the destinations receive.  The queue
of the granted line is acknowledged when all its unmasked destinations are ready;
a destination that is ready before the others receives the event in every cycle
of the wait.  A full queue reports an occurrence even in the cycle in which an
acknowledge makes room for it.
-/

namespace CoreVMcu.Soc

open Clocked Arbitration

variable {perEvntNum apbEvntNum : Nat} {arbiter : Arbiter (evntNum perEvntNum apbEvntNum)}

/-- A destination takes the number of a line. -/
def delivers (destination : Destination) (lane : Fin (evntNum perEvntNum apbEvntNum))
    (generator : SocEventGenerator arbiter) (input : EventInput perEvntNum) : Bool :=
  generator.valid destination && generator.ready input destination &&
    generator.eventData == BitVec.ofNat 8 lane

/-- An occurrence leaves its queue while a destination is unmasked for it. -/
def grantedFor (destination : Destination) (lane : Fin (evntNum perEvntNum apbEvntNum))
    (generator : SocEventGenerator arbiter) (input : EventInput perEvntNum) : Bool :=
  generator.ack input lane && !generator.masked destination lane

/-- Every occurrence taken from a queue is delivered once to the destinations
that are unmasked for it and to no other, and every occurrence is taken, pending
or reported. -/
structure EventsDeliveredOnce (arbiter : Arbiter (evntNum perEvntNum apbEvntNum))
    (inputs : List (EventInput perEvntNum)) : Prop where
  delivered : ∀ destination lane,
    (eventMachine arbiter).counted (delivers destination lane) inputs =
      (eventMachine arbiter).counted (grantedFor destination lane) inputs
  conserved : ∀ lane,
    (eventMachine arbiter).counted (fun generator input => generator.events input lane) inputs =
      (eventMachine arbiter).counted (fun generator input => generator.ack input lane) inputs +
        (((eventMachine arbiter).run inputs).queue lane).eventCount.toNat +
        (eventMachine arbiter).counted
          (fun generator input => generator.queueErr input lane) inputs

/-- The unmasked destinations of the granted line are all ready, or none is. -/
def DestinationsAgree (generator : SocEventGenerator arbiter) (input : EventInput perEvntNum) :
    Prop :=
  ∀ lane, generator.grant = some lane → ∀ destination other,
    generator.masked destination lane = false → generator.masked other lane = false →
    generator.ready input destination = true → generator.ready input other = true

/-- A line with three pending occurrences that is granted while it has a new one
waits for some unmasked destination. -/
def FullLineWaits (generator : SocEventGenerator arbiter) (input : EventInput perEvntNum) :
    Prop :=
  ∀ lane, generator.grant = some lane → (generator.queue lane).eventCount = 3#2 →
    generator.events input lane = true →
    ∃ destination, generator.masked destination lane = false ∧
      generator.ready input destination = false

instance (generator : SocEventGenerator arbiter) (input : EventInput perEvntNum) :
    Decidable (DestinationsAgree generator input) :=
  inferInstanceAs (Decidable (∀ _, _ → ∀ _ _ : Destination, _))

instance (generator : SocEventGenerator arbiter) (input : EventInput perEvntNum) :
    Decidable (FullLineWaits generator input) :=
  inferInstanceAs (Decidable (∀ _, _ → _ → _ → ∃ _ : Destination, _))

variable {generator : SocEventGenerator arbiter} {input : EventInput perEvntNum}
variable {destination : Destination} {lane : Fin (evntNum perEvntNum apbEvntNum)}

theorem ack_iff :
    generator.ack input lane = true ↔ generator.grant = some lane ∧
      ∀ destination, generator.masked destination lane = false →
        generator.ready input destination = true := by
  simp only [SocEventGenerator.ack, Bool.and_eq_true, decide_eq_true_eq]
  refine and_congr_right fun granted => ?_
  have idle : ∀ destination, generator.readyOrIdle input destination = true ↔
      (generator.masked destination lane = false →
        generator.ready input destination = true) := by
    intro destination
    simp only [SocEventGenerator.readyOrIdle, SocEventGenerator.valid, granted, Option.any_some]
    cases generator.masked destination lane <;> simp
  simp only [SocEventGenerator.eventReady, Bool.and_eq_true, idle]
  constructor
  · rintro ⟨⟨fc, cl⟩, pr⟩ destination
    cases destination with
    | fc => exact fc
    | cl => exact cl
    | pr => exact pr
  · intro all
    exact ⟨⟨all .fc, all .cl⟩, all .pr⟩

/-- Event numbers of eight bits tell the lines apart. -/
theorem delivers_iff (fits : evntNum perEvntNum apbEvntNum ≤ 256) :
    delivers destination lane generator input = true ↔ generator.grant = some lane ∧
      generator.masked destination lane = false ∧
        generator.ready input destination = true := by
  simp only [delivers, SocEventGenerator.valid, SocEventGenerator.eventData, Bool.and_eq_true,
    beq_iff_eq]
  cases granted : generator.grant with
  | none => simp
  | some other =>
      have same : BitVec.ofNat 8 other.val = BitVec.ofNat 8 lane.val ↔ other = lane := by
        rw [Fin.ext_iff, ← BitVec.toNat_inj, BitVec.toNat_ofNat, BitVec.toNat_ofNat,
          Nat.mod_eq_of_lt (by omega), Nat.mod_eq_of_lt (by omega)]
      simp only [Option.any_some, Bool.not_eq_true', same, Option.some.injEq]
      constructor
      · rintro ⟨⟨unmasked, ready⟩, rfl⟩
        exact ⟨rfl, unmasked, ready⟩
      · rintro ⟨rfl, unmasked, ready⟩
        exact ⟨⟨unmasked, ready⟩, rfl⟩

theorem grantedFor_iff :
    grantedFor destination lane generator input = true ↔
      generator.ack input lane = true ∧ generator.masked destination lane = false := by
  simp [grantedFor]

/-- What leaves a queue is delivered to its unmasked destinations. -/
theorem delivers_of_grantedFor (fits : evntNum perEvntNum apbEvntNum ≤ 256)
    (taken : grantedFor destination lane generator input = true) :
    delivers destination lane generator input = true := by
  obtain ⟨acked, unmasked⟩ := grantedFor_iff.mp taken
  obtain ⟨granted, ready⟩ := ack_iff.mp acked
  exact (delivers_iff fits).mpr ⟨granted, unmasked, ready destination unmasked⟩

/-- In one cycle the deliveries match the acknowledged grants exactly when the
unmasked destinations agree. -/
theorem delivers_eq_iff_agree (fits : evntNum perEvntNum apbEvntNum ≤ 256) :
    (∀ destination lane, grantedFor destination lane generator input =
      delivers destination lane generator input) ↔ DestinationsAgree generator input := by
  constructor
  · intro equal lane granted destination other unmasked otherUnmasked ready
    have taken : grantedFor destination lane generator input = true :=
      (equal destination lane).trans ((delivers_iff fits).mpr ⟨granted, unmasked, ready⟩)
    exact (ack_iff.mp (grantedFor_iff.mp taken).1).2 other otherUnmasked
  · intro agree destination lane
    refine Bool.eq_iff_iff.mpr ⟨delivers_of_grantedFor fits, fun delivered => ?_⟩
    obtain ⟨granted, unmasked, ready⟩ := (delivers_iff fits).mp delivered
    refine grantedFor_iff.mpr ⟨ack_iff.mpr ⟨granted, fun other otherUnmasked => ?_⟩, unmasked⟩
    exact agree lane granted destination other unmasked otherUnmasked ready

/-- An occurrence is reported by a full queue and kept all the same. -/
def reportedAndKept (lane : Fin (evntNum perEvntNum apbEvntNum))
    (generator : SocEventGenerator arbiter) (input : EventInput perEvntNum) : Bool :=
  generator.ack input lane && generator.queueErr input lane

/-- No full line keeps what it reports exactly when full lines wait. -/
theorem reportedAndKept_iff :
    (∀ lane, reportedAndKept lane generator input = false) ↔ FullLineWaits generator input := by
  refine forall_congr' fun lane => ?_
  rw [← Bool.not_eq_true, reportedAndKept, Bool.and_eq_true, ack_iff]
  simp only [SocEventGenerator.queueErr, SocEventQueue.err, Bool.and_eq_true, beq_iff_eq]
  constructor
  · intro never granted full occurs
    by_contra ready
    simp only [not_exists, not_and, Bool.not_eq_false] at ready
    exact never ⟨⟨granted, ready⟩, occurs, full⟩
  · rintro waits ⟨⟨granted, ready⟩, occurs, full⟩
    obtain ⟨destination, unmasked, stalled⟩ := waits granted full occurs
    rw [ready destination unmasked] at stalled
    cases stalled

/-- Occurrences along a run, with those reported and kept counted once more. -/
theorem occurrences_balance (arbiter : Arbiter (evntNum perEvntNum apbEvntNum))
    (lane : Fin (evntNum perEvntNum apbEvntNum))
    (inputs : List (EventInput perEvntNum)) :
    (eventMachine arbiter).counted (fun generator input => generator.events input lane) inputs +
        (eventMachine arbiter).counted (reportedAndKept lane) inputs =
      (eventMachine arbiter).counted (fun generator input => generator.ack input lane) inputs +
        (((eventMachine arbiter).run inputs).queue lane).eventCount.toNat +
        (eventMachine arbiter).counted
          (fun generator input => generator.queueErr input lane) inputs := by
  induction inputs using List.reverseRecOn with
  | nil => rfl
  | append_singleton inputs input inductionHypothesis =>
      simp only [Machine.counted_snoc, Machine.run_snoc]
      have pending : ((eventMachine arbiter).run inputs).ack input lane = true →
          (((eventMachine arbiter).run inputs).queue lane).event = true := by
        intro acked
        exact arbiter.requested (ack_iff.mp acked).1
      have balance := SocEventQueue.step_balance
        (((eventMachine arbiter).run inputs).queue lane)
        (((eventMachine arbiter).run inputs).events input lane) pending
      simp only [eventMachine, SocEventGenerator.step, reportedAndKept,
        SocEventGenerator.queueErr] at balance inductionHypothesis ⊢
      omega

/-- For every arbiter, every run, every mask configuration and every ready
pattern: all occurrences are delivered exactly once and accounted for exactly
when, in every cycle, the unmasked destinations of the granted line agree and a
full line with a new occurrence waits. -/
theorem eventsDeliveredOnce_iff (arbiter : Arbiter (evntNum perEvntNum apbEvntNum))
    (fits : evntNum perEvntNum apbEvntNum ≤ 256) (inputs : List (EventInput perEvntNum)) :
    EventsDeliveredOnce arbiter inputs ↔
      (eventMachine arbiter).Always (fun generator input =>
        DestinationsAgree generator input ∧ FullLineWaits generator input) inputs := by
  have delivered : (∀ destination lane,
      (eventMachine arbiter).counted (delivers destination lane) inputs =
        (eventMachine arbiter).counted (grantedFor destination lane) inputs) ↔
      (eventMachine arbiter).Always DestinationsAgree inputs := by
    have everyCycle : (eventMachine arbiter).Always (fun generator input =>
          ∀ destination lane, grantedFor destination lane generator input =
            delivers destination lane generator input) inputs ↔
        (eventMachine arbiter).Always DestinationsAgree inputs :=
      Machine.always_congr (fun _ _ => delivers_eq_iff_agree fits) inputs
    simp only [← everyCycle, Machine.always_forall]
    refine forall_congr' fun destination => forall_congr' fun lane => ?_
    rw [eq_comm]
    exact Machine.counted_eq_counted_iff fun generator input => delivers_of_grantedFor fits
  have conserved : (∀ lane,
      (eventMachine arbiter).counted (reportedAndKept lane) inputs = 0) ↔
      (eventMachine arbiter).Always FullLineWaits inputs := by
    have everyCycle : (eventMachine arbiter).Always (fun generator input =>
          ∀ lane, reportedAndKept lane generator input = false) inputs ↔
        (eventMachine arbiter).Always FullLineWaits inputs :=
      Machine.always_congr (fun _ _ => reportedAndKept_iff) inputs
    simp only [← everyCycle, Machine.always_forall]
    exact forall_congr' fun lane => Machine.counted_eq_zero_iff
  rw [Machine.always_and, ← delivered, ← conserved]
  constructor
  · rintro ⟨delivered, conserved⟩
    refine ⟨delivered, fun lane => ?_⟩
    have balance := occurrences_balance arbiter lane inputs
    rw [conserved lane] at balance
    omega
  · rintro ⟨delivered, conserved⟩
    refine ⟨delivered, fun lane => ?_⟩
    have balance := occurrences_balance arbiter lane inputs
    rw [conserved lane] at balance
    omega

/-! ## Runs of a generator with one peripheral and one APB event -/

/-- A cycle with the peripheral event and the ready inputs given. -/
def eventCycle (event clReady prReady : Bool) : EventInput 1 :=
  { paddr := 0, pwdata := 0, pwrite := false, psel := false, penable := false
    lowSpeedClk := false, perEvents := fun _ => event, coreIrqAckId := 0
    coreIrqAck := false, clEventReady := clReady, prEventReady := prReady }

/-- A cycle in which software unmasks the first events of a bank. -/
def unmaskCycle (addr : BitVec 12) : EventInput 1 :=
  { eventCycle false false false with paddr := addr, pwrite := true, psel := true, penable := true }

/-- The cluster and the peripherals are unmasked and ready in different cycles. -/
def unevenReady : List (EventInput 1) :=
  [unmaskCycle 0x24#12, unmaskCycle 0x44#12, eventCycle true false false,
   eventCycle false true false, eventCycle false true true]

/-- The peripherals stall while the queue fills, and become ready in the cycle of
a fourth occurrence. -/
def fullQueue : List (EventInput 1) :=
  [unmaskCycle 0x44#12, eventCycle true false false, eventCycle true false false,
   eventCycle true false false, eventCycle true false true]

/-- The cluster receives one occurrence twice, and one occurrence is reported
although it is kept. -/
theorem unevenReady_fullQueue_not_deliveredOnce :
    ¬EventsDeliveredOnce (socEventArbiter (evntNum 1 1)) unevenReady ∧
      ¬EventsDeliveredOnce (socEventArbiter (evntNum 1 1)) fullQueue :=
  ⟨fun once => absurd (once.delivered .cl 0) (by decide +kernel),
    fun once => absurd (once.conserved 0) (by decide +kernel)⟩

/-- Both destinations stall together and then take the event in one cycle. -/
def evenReady : List (EventInput 1) :=
  [unmaskCycle 0x24#12, unmaskCycle 0x44#12, eventCycle true false false,
   eventCycle true false false, eventCycle false true true, eventCycle false true true]

theorem evenReady_deliveredOnce : EventsDeliveredOnce (socEventArbiter (evntNum 1 1)) evenReady :=
  (eventsDeliveredOnce_iff (socEventArbiter (evntNum 1 1)) (by decide) evenReady).mpr
    (by decide +kernel)

end CoreVMcu.Soc
