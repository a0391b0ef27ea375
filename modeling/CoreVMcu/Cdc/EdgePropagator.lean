import CoreVMcu.Clocked.Counters
import CoreVMcu.Clocked.Machine

/-!
# Pulses across clock domains

`edge_propagator` holds the level of a pulse until the other clock domain has seen it, so that
a pulse of one clock becomes a pulse of the other one.  `edge_propagator_tx` and
`edge_propagator_rx` are its two sides.

The registers on the way hold the parities of how often the level has changed, each count
behind the one before it.  So no pulse is made up.  A pulse that is raised while the one before
it is on its way may be lost; when each waits for the side of the sender to be at rest, every
pulse arrives once.
-/

namespace CoreVMcu.Cdc

open Clocked

/-- Registers of `edge_propagator_tx`: the level, and `sync_a[1]` and `sync_a[0]`. -/
structure EdgePropagatorTx where
  inputReg : Bool
  sync1 : Bool
  sync0 : Bool
  deriving DecidableEq

/-- One edge of the clock of the sender. -/
def EdgePropagatorTx.step (tx : EdgePropagatorTx) (valid ack : Bool) : EdgePropagatorTx where
  inputReg := valid || (tx.inputReg && !tx.sync0)
  sync1 := ack
  sync0 := tx.sync1

/-- Registers of `pulp_sync_wedge` with two stages. -/
structure SyncWedge where
  stage0 : Bool
  stage1 : Bool
  serial : Bool
  deriving DecidableEq

/-- `r_edge_o`. -/
def SyncWedge.rEdge (wedge : SyncWedge) : Bool := wedge.stage1 && !wedge.serial

/-- One edge of the clock of the receiver. -/
def SyncWedge.step (wedge : SyncWedge) (serial : Bool) : SyncWedge where
  stage0 := serial
  stage1 := wedge.stage0
  serial := wedge.stage1

/-- `edge_propagator`. -/
structure EdgePropagator where
  tx : EdgePropagatorTx
  rx : SyncWedge
  deriving DecidableEq

/-- The clock edges of an instant: that of the sender with `edge_i`, and that of the receiver. -/
structure PulseEdges where
  tx : Option Bool
  rx : Bool

/-- Both sides from reset. -/
def edgePropagatorMachine : Machine EdgePropagator PulseEdges where
  init :=
    { tx := { inputReg := false, sync1 := false, sync0 := false }
      rx := { stage0 := false, stage1 := false, serial := false } }
  step propagator edges :=
    { tx :=
        match edges.tx with
        | some valid => propagator.tx.step valid propagator.rx.serial
        | none => propagator.tx
      rx := if edges.rx then propagator.rx.step propagator.tx.inputReg else propagator.rx }

/-- A pulse is raised. -/
def raises (_ : EdgePropagator) (edges : PulseEdges) : Bool := edges.tx == some true

/-- A pulse is seen at an edge of the receiver. -/
def propagates (propagator : EdgePropagator) (edges : PulseEdges) : Bool :=
  edges.rx && propagator.rx.rEdge

/-- The sender is at rest. -/
def EdgePropagatorTx.Rests (tx : EdgePropagatorTx) : Prop :=
  tx = { inputReg := false, sync1 := false, sync0 := false }

instance (tx : EdgePropagatorTx) : Decidable tx.Rests := inferInstanceAs (Decidable (tx = _))

/-- Each pulse waits for the sender to be at rest. -/
def Spaced : List PulseEdges → Prop :=
  edgePropagatorMachine.Always fun propagator edges => edges.tx = some true → propagator.tx.Rests

/-! ## Counts of changes -/

/-- How often the level has changed, and how often that has been seen on the way to the receiver
and back. -/
structure Changes where
  level : Nat
  stage0 : Nat
  stage1 : Nat
  serial : Nat
  sync1 : Nat
  sync0 : Nat

/-- Each register holds the parity of its count, which is behind the one before it; the pulses
that have been seen are counted by the last register of the receiver. -/
structure EdgePropagator.Tracks (propagator : EdgePropagator) (changes : Changes)
    (raised propagated : Nat) : Prop where
  inputReg : propagator.tx.inputReg = changes.level.bodd
  stage0Reg : propagator.rx.stage0 = changes.stage0.bodd
  stage1Reg : propagator.rx.stage1 = changes.stage1.bodd
  serialReg : propagator.rx.serial = changes.serial.bodd
  sync1Reg : propagator.tx.sync1 = changes.sync1.bodd
  sync0Reg : propagator.tx.sync0 = changes.sync0.bodd
  stage0 : changes.stage0 ≤ changes.level
  stage1 : changes.stage1 ≤ changes.stage0
  serial : changes.serial ≤ changes.stage1
  sync1 : changes.sync1 ≤ changes.serial
  sync0 : changes.sync0 ≤ changes.sync1
  raised : (changes.level + 1) / 2 ≤ raised
  propagated : propagated = (changes.serial + 1) / 2

/-- The changes have been seen all around but for the last one, and each pulse has changed the
level. -/
structure Changes.Settled (changes : Changes) (raised : Nat) : Prop where
  close : changes.level ≤ changes.sync0 + 1
  each : raised = (changes.level + 1) / 2

/-- The changes after an instant. -/
def Changes.next (changes : Changes) (edges : PulseEdges) : Changes where
  level :=
    match edges.tx with
    | some true => if changes.level.bodd then changes.level else changes.level + 1
    | some false =>
        if changes.level.bodd && changes.sync0.bodd then changes.level + 1 else changes.level
    | none => changes.level
  stage0 := if edges.rx then follow changes.stage0 changes.level else changes.stage0
  stage1 := if edges.rx then follow changes.stage1 changes.stage0 else changes.stage1
  serial := if edges.rx then follow changes.serial changes.stage1 else changes.serial
  sync1 := if edges.tx.isSome then follow changes.sync1 changes.serial else changes.sync1
  sync0 := if edges.tx.isSome then follow changes.sync0 changes.sync1 else changes.sync0

theorem Changes.level_next (changes : Changes) (edges : PulseEdges) :
    changes.level ≤ (changes.next edges).level := by
  rw [Changes.next]
  cases edges.tx with
  | none => exact Nat.le_refl _
  | some valid =>
      cases valid with
      | false =>
          dsimp only
          split <;> omega
      | true =>
          dsimp only
          split <;> omega

/-- Half of a count that is rounded up counts its odd values. -/
theorem half_follow {early late : Nat} :
    (follow early late + 1) / 2 = (early + 1) / 2 + (late.bodd && !early.bodd).toNat := by
  have earlyParity := Nat.mod_two_of_bodd early
  rw [follow]
  cases odd : early.bodd <;> cases late.bodd <;>
    simp only [odd, Bool.toNat_false, Bool.toNat_true, Bool.false_eq_true, Bool.true_eq_false,
      if_true, if_false, Bool.not_true, Bool.not_false, Bool.and_true, Bool.and_false]
      at earlyParity ⊢ <;>
    omega

section Step

variable {propagator : EdgePropagator} {changes : Changes} {raised propagated : Nat}

theorem EdgePropagator.Tracks.level_bodd (tracks : propagator.Tracks changes raised propagated)
    (edges : PulseEdges) :
    (edgePropagatorMachine.step propagator edges).tx.inputReg =
      (changes.next edges).level.bodd := by
  simp only [edgePropagatorMachine, Changes.next]
  cases edges.tx with
  | none => exact tracks.inputReg
  | some valid =>
      simp only [EdgePropagatorTx.step, tracks.inputReg, tracks.sync0Reg]
      cases valid <;> cases odd : changes.level.bodd <;> cases changes.sync0.bodd <;>
        simp [odd]

theorem EdgePropagator.Tracks.half_level (tracks : propagator.Tracks changes raised propagated)
    (edges : PulseEdges) :
    ((changes.next edges).level + 1) / 2 ≤ raised + (raises propagator edges).toNat := by
  have bound := tracks.raised
  have parity := Nat.mod_two_of_bodd changes.level
  simp only [Changes.next, raises]
  cases edges.tx with
  | none => exact bound
  | some valid =>
      cases valid <;> cases odd : changes.level.bodd <;> cases changes.sync0.bodd <;>
        simp [odd] at parity ⊢ <;> omega

/-- An instant keeps the registers at the parities of the counts. -/
theorem EdgePropagator.Tracks.step (tracks : propagator.Tracks changes raised propagated)
    (edges : PulseEdges) :
    (edgePropagatorMachine.step propagator edges).Tracks (changes.next edges)
      (raised + (raises propagator edges).toNat)
      (propagated + (propagates propagator edges).toNat) := by
  have level := changes.level_next edges
  have inputRegNext := tracks.level_bodd edges
  have raisedNext := tracks.half_level edges
  obtain ⟨inputReg, stage0Reg, stage1Reg, serialReg, sync1Reg, sync0Reg, stage0, stage1, serial,
    sync1, sync0, -, seen⟩ := tracks
  constructor
  case inputReg => exact inputRegNext
  case raised => exact raisedNext
  case propagated =>
    rw [seen, propagates, Changes.next, SyncWedge.rEdge, stage1Reg, serialReg]
    cases edges.rx with
    | false => rfl
    | true => exact half_follow.symm
  case stage0 =>
    simp only [Changes.next]
    split
    · exact Nat.le_trans (follow_le stage0) level
    · exact Nat.le_trans stage0 level
  case stage1 =>
    simp only [Changes.next]
    split
    · exact Nat.le_trans (follow_le stage1) (le_follow ..)
    · exact stage1
  case serial =>
    simp only [Changes.next]
    split
    · exact Nat.le_trans (follow_le serial) (le_follow ..)
    · exact serial
  case sync1 =>
    have later : changes.serial ≤ (changes.next edges).serial := by
      simp only [Changes.next]
      split
      · exact le_follow ..
      · exact Nat.le_refl _
    apply Nat.le_trans _ later
    simp only [Changes.next]
    split
    · exact follow_le sync1
    · exact sync1
  case sync0 =>
    simp only [Changes.next]
    split
    · exact Nat.le_trans (follow_le sync0) (le_follow ..)
    · exact sync0
  case stage0Reg =>
    simp only [edgePropagatorMachine, Changes.next]
    split
    · exact inputReg.trans (bodd_follow ..).symm
    · exact stage0Reg
  case stage1Reg =>
    simp only [edgePropagatorMachine, Changes.next]
    split
    · exact stage0Reg.trans (bodd_follow ..).symm
    · exact stage1Reg
  case serialReg =>
    simp only [edgePropagatorMachine, Changes.next]
    split
    · exact stage1Reg.trans (bodd_follow ..).symm
    · exact serialReg
  case sync1Reg =>
    cases ticks : edges.tx with
    | none => simpa [edgePropagatorMachine, Changes.next, ticks] using sync1Reg
    | some valid =>
        simp only [edgePropagatorMachine, Changes.next, ticks]
        exact serialReg.trans (bodd_follow ..).symm
  case sync0Reg =>
    cases ticks : edges.tx with
    | none => simpa [edgePropagatorMachine, Changes.next, ticks] using sync0Reg
    | some valid =>
        simp only [edgePropagatorMachine, Changes.next, ticks]
        exact sync1Reg.trans (bodd_follow ..).symm

/-- A pulse that is raised at rest changes the level, and nothing else does before the last
change has been seen all around. -/
theorem EdgePropagator.Tracks.settled_step (tracks : propagator.Tracks changes raised propagated)
    (settled : changes.Settled raised) (edges : PulseEdges)
    (spaced : edges.tx = some true → propagator.tx.Rests) :
    (changes.next edges).Settled (raised + (raises propagator edges).toNat) := by
  have levelParity := Nat.mod_two_of_bodd changes.level
  have syncParity := Nat.mod_two_of_bodd changes.sync0
  have each := settled.each
  have close := settled.close
  have around : changes.sync0 ≤ changes.level :=
    Nat.le_trans tracks.sync0 (Nat.le_trans tracks.sync1 (Nat.le_trans tracks.serial
      (Nat.le_trans tracks.stage1 tracks.stage0)))
  have seen : changes.sync0 ≤ (changes.next edges).sync0 := by
    simp only [Changes.next]
    split
    · exact le_follow ..
    · exact Nat.le_refl _
  cases ticks : edges.tx with
  | none => exact ⟨by simpa [Changes.next, ticks] using close,
      by simpa [Changes.next, raises, ticks] using each⟩
  | some valid =>
      cases valid with
      | true =>
          have rests := spaced ticks
          have low : changes.level.bodd = false := by
            rw [← tracks.inputReg, rests]
          have lowSeen : changes.sync0.bodd = false := by
            rw [← tracks.sync0Reg, rests]
          have same := eq_of_bodd_eq around close (lowSeen.trans low.symm)
          have raisedNow : (changes.next edges).level = changes.level + 1 := by
            simp [Changes.next, ticks, low]
          rw [low] at levelParity
          constructor
          · omega
          · simp only [raises, ticks, beq_self_eq_true, Bool.toNat_true]
            rw [raisedNow]
            simp only [Bool.toNat_false] at levelParity
            omega
      | false =>
          have noPulse : (raises propagator edges).toNat = 0 := by simp [raises, ticks]
          rw [noPulse]
          by_cases falls : changes.level.bodd = true ∧ changes.sync0.bodd = true
          · have same := eq_of_bodd_eq around close (falls.2.trans falls.1.symm)
            have fallsNow : (changes.next edges).level = changes.level + 1 := by
              simp [Changes.next, ticks, falls]
            rw [falls.1] at levelParity
            simp only [Bool.toNat_true] at levelParity
            constructor <;> omega
          · have stays : (changes.next edges).level = changes.level := by
              simpa [Changes.next, ticks] using falls
            constructor <;> omega

/-- Edges of the receiver until so many changes have been seen. -/
def Changes.left (changes : Changes) (target : Nat) : Nat :=
  (if changes.serial < target then 1 else 0) + (if changes.stage1 < target then 1 else 0) +
    (if changes.stage0 < target then 1 else 0)

/-- An edge of the receiver brings a change nearer. -/
theorem EdgePropagator.Tracks.left_step (tracks : propagator.Tracks changes raised propagated)
    (settled : changes.Settled raised) (edges : PulseEdges) {target : Nat}
    (changed : target ≤ changes.level) :
    (changes.next edges).left target ≤ changes.left target - edges.rx.toNat := by
  have close := settled.close
  have sync0 := tracks.sync0
  have sync1 := tracks.sync1
  have serial := tracks.serial
  have stage1 := tracks.stage1
  have stage0 := tracks.stage0
  cases ticks : edges.rx with
  | false => simp [Changes.left, Changes.next, ticks]
  | true =>
      simp only [Changes.left, Changes.next, ticks, if_true,
        follow_of_close stage0 (by omega), follow_of_close stage1 (by omega),
        follow_of_close serial (by omega)]
      split_ifs <;> simp <;> omega

end Step

/-! ## Runs -/

section Runs

/-- How often a pulse has been raised. -/
def pulsesRaised (inputs : List PulseEdges) : Nat := edgePropagatorMachine.counted raises inputs

/-- How often a pulse has been seen by the receiver. -/
def pulsesSeen (inputs : List PulseEdges) : Nat := edgePropagatorMachine.counted propagates inputs

theorem edgePropagatorTracks (inputs : List PulseEdges) :
    ∃ changes, (edgePropagatorMachine.run inputs).Tracks changes (pulsesRaised inputs)
        (pulsesSeen inputs) ∧
      (Spaced inputs → changes.Settled (pulsesRaised inputs)) := by
  induction inputs using List.reverseRecOn with
  | nil =>
      have start : (0 : Nat) ≤ 0 := Nat.le_refl 0
      exact ⟨⟨0, 0, 0, 0, 0, 0⟩,
        ⟨rfl, rfl, rfl, rfl, rfl, rfl, start, start, start, start, start, start, rfl⟩,
        fun _ => ⟨by decide, rfl⟩⟩
  | append_singleton inputs edges inductionHypothesis =>
      obtain ⟨changes, tracks, settles⟩ := inductionHypothesis
      refine ⟨changes.next edges, ?_, ?_⟩
      · rw [Machine.run_snoc, pulsesRaised, pulsesSeen, Machine.counted_snoc, Machine.counted_snoc]
        exact tracks.step edges
      · intro spaced
        obtain ⟨before, now⟩ := (edgePropagatorMachine.always_snoc _ _ _).mp spaced
        rw [pulsesRaised, Machine.counted_snoc]
        exact tracks.settled_step (settles before) edges now

/-- Pulses that were raised are seen within three edges of the receiver. -/
theorem EdgePropagator.Tracks.arrives (later : List PulseEdges) :
    ∀ {propagator : EdgePropagator} {changes : Changes} {raised propagated target : Nat},
      propagator.Tracks changes raised propagated → changes.Settled raised →
      edgePropagatorMachine.AlwaysFrom
        (fun propagator edges => edges.tx = some true → propagator.tx.Rests) propagator later →
      target ≤ changes.level → changes.left target ≤ later.countP (·.rx) →
      (target + 1) / 2 ≤ propagated + edgePropagatorMachine.countedFrom propagates propagator
        later := by
  induction later with
  | nil =>
      intro propagator changes raised propagated target tracks settled spaced changed enough
      have seen := tracks.propagated
      rw [List.countP_nil, Changes.left] at enough
      have reached : target ≤ changes.serial := by
        by_contra behind
        rw [if_pos (Nat.lt_of_not_le behind)] at enough
        omega
      rw [Machine.countedFrom]
      omega
  | cons edges later inductionHypothesis =>
      intro propagator changes raised propagated target tracks settled spaced changed enough
      have nearer := tracks.left_step settled edges changed
      have stillChanged := Nat.le_trans changed (changes.level_next edges)
      rw [List.countP_cons] at enough
      have one : (if edges.rx = true then 1 else 0) = edges.rx.toNat := by
        cases edges.rx <;> rfl
      rw [one] at enough
      have seen := inductionHypothesis (tracks.step edges)
        (tracks.settled_step settled edges spaced.1) spaced.2 stillChanged (by omega)
      rw [Machine.countedFrom, ← Nat.add_assoc]
      exact seen

/-- No pulse is made up; and pulses that wait for the sender to be at rest are each seen once,
within three edges of the receiver. -/
structure PulsesPropagate (inputs : List PulseEdges) : Prop where
  neverInvents : pulsesSeen inputs ≤ pulsesRaised inputs
  eachOnce : Spaced inputs → pulsesRaised inputs ≤ pulsesSeen inputs + 1
  noneAtRest : Spaced inputs → (edgePropagatorMachine.run inputs).tx.Rests →
    pulsesSeen inputs = pulsesRaised inputs
  arrives : ∀ later, Spaced (inputs ++ later) → 3 ≤ later.countP (·.rx) →
    pulsesRaised inputs ≤ pulsesSeen (inputs ++ later)

/-- For every interleaving of the two clocks, pulses cross as `PulsesPropagate` says. -/
theorem pulses_propagate (inputs : List PulseEdges) : PulsesPropagate inputs := by
  obtain ⟨changes, tracks, settles⟩ := edgePropagatorTracks inputs
  have seen := tracks.propagated
  have raised := tracks.raised
  have stage0 := tracks.stage0
  have stage1 := tracks.stage1
  have serial := tracks.serial
  have sync1 := tracks.sync1
  have sync0 := tracks.sync0
  constructor
  case neverInvents => omega
  case eachOnce =>
    intro spaced
    obtain ⟨close, each⟩ := settles spaced
    omega
  case noneAtRest =>
    intro spaced rests
    obtain ⟨close, each⟩ := settles spaced
    have low : changes.level.bodd = false := by rw [← tracks.inputReg, rests]
    have lowSeen : changes.sync0.bodd = false := by rw [← tracks.sync0Reg, rests]
    have same := eq_of_bodd_eq (by omega) close (lowSeen.trans low.symm)
    omega
  case arrives =>
    intro later spaced enough
    obtain ⟨before, after⟩ := (edgePropagatorMachine.alwaysFrom_append _ _ _ _).mp spaced
    have settled := settles before
    have few : changes.left changes.level ≤ 3 := by
      rw [Changes.left]
      split_ifs <;> omega
    have arrived := EdgePropagator.Tracks.arrives later tracks settled after (Nat.le_refl _)
      (Nat.le_trans few enough)
    have appended : pulsesSeen (inputs ++ later) = pulsesSeen inputs +
        edgePropagatorMachine.countedFrom propagates (edgePropagatorMachine.run inputs) later :=
      edgePropagatorMachine.countedFrom_append _ _ _ _
    rw [appended, settled.each]
    exact arrived

/-- Two pulses, the second one after the handshake of the first one. -/
example : let inputs := ⟨some true, false⟩ :: (List.replicate 12 ⟨some false, true⟩ ++
      ⟨some true, false⟩ :: List.replicate 3 ⟨some false, true⟩)
    (edgePropagatorMachine.run (inputs.take 13)).tx.Rests ∧ pulsesSeen inputs = 2 := by
  decide

/-- A pulse that does not wait can be lost: of two pulses the receiver sees one. -/
example : pulsesRaised (⟨some true, false⟩ :: ⟨some true, false⟩ ::
      List.replicate 4 ⟨some false, true⟩) = 2 ∧
    pulsesSeen (⟨some true, false⟩ :: ⟨some true, false⟩ ::
      List.replicate 4 ⟨some false, true⟩) = 1 := by
  decide

end Runs

end CoreVMcu.Cdc
