import CoreVMcu.Clocked.Machine

/-!
# The interrupt latch of the fabric controller

`fc_subsystem` detects the rising edges of the events in the cycle after they
arrive and latches them until the core acknowledges the interrupt.  Line 11
follows its event without edge detection.
-/

namespace CoreVMcu.Fc

open Clocked

/-- Registers of the interrupt latch. -/
structure InterruptLatch where
  rInt : Fin 32 → Bool
  eventA : Fin 32 → Bool
  eventB : Fin 32 → Bool

/-- Inputs of a cycle: the events and the acknowledge of the core. -/
structure InterruptInput where
  events : Fin 32 → Bool
  coreIrqAck : Bool
  coreIrqAckId : Fin 32

namespace InterruptLatch

/-- The registers after reset. -/
def reset : InterruptLatch :=
  { rInt := fun _ => false, eventA := fun _ => false, eventB := fun _ => false }

/-- `event_r`: the rising edges. -/
def eventR (latch : InterruptLatch) (i : Fin 32) : Bool := !latch.eventB i && latch.eventA i

/-- One clock edge. -/
def step (latch : InterruptLatch) (input : InterruptInput) : InterruptLatch :=
  { eventA := input.events
    eventB := latch.eventA
    rInt := fun i =>
      if i = 11 then input.events 11
      else if input.coreIrqAck && input.coreIrqAckId == i then false
      else latch.eventR i || latch.rInt i }

end InterruptLatch

/-- The interrupt latch from reset. -/
def interruptMachine : Machine InterruptLatch InterruptInput where
  init := .reset
  step := .step

/-! ## Edges and acknowledges of a run -/

/-- The level of an event in a cycle; the events are low before the run. -/
def level (inputs : List InterruptInput) (i : Fin 32) (n : Nat) : Bool :=
  (inputs[n]?).elim false (·.events i)

/-- The event rises in cycle `n`. -/
def risesAt (inputs : List InterruptInput) (i : Fin 32) (n : Nat) : Bool :=
  level inputs i n && (n == 0 || !level inputs i (n - 1))

/-- The core acknowledges the interrupt in cycle `n`. -/
def acknowledgedAt (inputs : List InterruptInput) (i : Fin 32) (n : Nat) : Bool :=
  (inputs[n]?).elim false fun input => input.coreIrqAck && input.coreIrqAckId == i

/-- The interrupt is pending in cycle `n`. -/
def pendingAt (inputs : List InterruptInput) (i : Fin 32) (n : Nat) : Bool :=
  (interruptMachine.run (inputs.take n)).rInt i

/-- Every rising edge, which is latched at the end of the cycle after it, is pending
from then on until an acknowledge in a later cycle. -/
def KeepsEdges (inputs : List InterruptInput) (i : Fin 32) : Prop :=
  ∀ n m, risesAt inputs i n = true → n + 2 ≤ m → m ≤ inputs.length →
    (∀ k, n + 2 ≤ k → k < m → acknowledgedAt inputs i k = false) → pendingAt inputs i m = true

variable {inputs : List InterruptInput} {i : Fin 32}

theorem level_of_rises {n : Nat} (rises : risesAt inputs i n = true) :
    level inputs i n = true ∧ (n = 0 ∨ level inputs i (n - 1) = false) := by
  simpa [risesAt] using rises

/-- `event_a` and `event_b` hold the events of the last two cycles. -/
theorem eventA_eq {n : Nat} (inside : n < inputs.length) :
    (interruptMachine.run (inputs.take (n + 1))).eventA i = level inputs i n := by
  rw [Machine.run_take_succ _ inside, level, List.getElem?_eq_getElem inside]
  rfl

theorem eventB_eq {n : Nat} (inside : n < inputs.length) :
    (interruptMachine.run (inputs.take (n + 1))).eventB i =
      if n = 0 then false else level inputs i (n - 1) := by
  rw [Machine.run_take_succ _ inside]
  cases n with
  | zero => rfl
  | succ n => exact eventA_eq (Nat.lt_of_succ_lt inside)

/-- A rising edge is seen in the next cycle. -/
theorem eventR_of_rises {n : Nat} (rises : risesAt inputs i n = true)
    (inside : n < inputs.length) :
    (interruptMachine.run (inputs.take (n + 1))).eventR i = true := by
  obtain ⟨high, before⟩ := level_of_rises rises
  rw [InterruptLatch.eventR, eventA_eq inside, eventB_eq inside, high]
  rcases before with rfl | low
  · rfl
  · split
    · rfl
    · rw [low]
      rfl

/-- What a line other than the unlatched one becomes. -/
theorem pendingAt_succ {n : Nat} (latched : i ≠ 11) (inside : n < inputs.length) :
    pendingAt inputs i (n + 1) =
      (!acknowledgedAt inputs i n &&
        ((interruptMachine.run (inputs.take n)).eventR i || pendingAt inputs i n)) := by
  rw [pendingAt, Machine.run_take_succ _ inside, acknowledgedAt, List.getElem?_eq_getElem inside]
  change (if i = 11 then _ else if _ then _ else _) = _
  rw [if_neg latched]
  cases acknowledged : inputs[n].coreIrqAck && inputs[n].coreIrqAckId == i <;>
    simp [acknowledged, pendingAt]

/-- For every interleaving of edges and acknowledges: no edge of a line is lost along
exactly the runs in which no edge of the line is seen together with an acknowledge
of it, which the latch prefers. -/
theorem interruptLatch_keepsEdges_iff (inputs : List InterruptInput) (i : Fin 32)
    (latched : i ≠ 11) :
    KeepsEdges inputs i ↔
      ∀ n, risesAt inputs i n = true → acknowledgedAt inputs i (n + 1) = false := by
  constructor
  · intro keeps n rises
    cases inside : decide (n + 1 < inputs.length) with
    | false =>
        have outside : inputs[n + 1]? = none :=
          List.getElem?_eq_none (Nat.le_of_not_lt (of_decide_eq_false inside))
        rw [acknowledgedAt, outside]
        rfl
    | true =>
        have inside := of_decide_eq_true inside
        have pending := keeps n (n + 2) rises (Nat.le_refl _) inside
          fun k after before => absurd (Nat.lt_of_le_of_lt after before) (Nat.lt_irrefl _)
        rw [pendingAt_succ latched inside, Bool.and_eq_true, Bool.not_eq_true'] at pending
        exact pending.1
  · intro apart n m rises latchedBefore inside quiet
    induction latchedBefore with
    | refl =>
        have seen := eventR_of_rises rises (Nat.lt_of_succ_lt inside)
        rw [pendingAt_succ latched inside, apart n rises, seen]
        rfl
    | @step m before inductionHypothesis =>
        have pending := inductionHypothesis (Nat.le_of_succ_le inside)
          fun k after earlier => quiet k after (Nat.lt_succ_of_lt earlier)
        rw [pendingAt_succ latched inside, quiet m before (Nat.lt_succ_self m), pending,
          Bool.or_true]
        rfl

/-- A cycle with the level of line 3 and whether the core acknowledges it. -/
def lineThree (high acknowledge : Bool) : InterruptInput :=
  { events := fun i => high && i == 3, coreIrqAck := acknowledge, coreIrqAckId := 3 }

/-- A second edge arrives while the first one is pending, and is seen in the cycle in
which the first one is acknowledged. -/
def edgeAtAcknowledge : List InterruptInput :=
  [lineThree true false, lineThree false false, lineThree true false, lineThree false true,
    lineThree false false]

theorem edgeAtAcknowledge_not_keepsEdges : ¬KeepsEdges edgeAtAcknowledge 3 :=
  fun keeps =>
    have pending := keeps 2 4 (by decide) (by decide) (by decide)
      fun k after before => absurd (Nat.lt_of_le_of_lt after before) (by decide)
    absurd pending (by decide)

/-- The same edges with the acknowledge one cycle later. -/
def edgeBeforeAcknowledge : List InterruptInput :=
  [lineThree true false, lineThree false false, lineThree true false, lineThree false false,
    lineThree false true]

theorem edgeBeforeAcknowledge_keepsEdges : KeepsEdges edgeBeforeAcknowledge 3 :=
  (interruptLatch_keepsEdges_iff edgeBeforeAcknowledge 3 (by decide)).mpr fun n rises => by
    have small : n < 5 := by
      by_contra large
      have outside : edgeBeforeAcknowledge[n]? = none :=
        List.getElem?_eq_none (Nat.le_of_not_lt large)
      rw [risesAt, level, outside] at rises
      exact Bool.noConfusion rises
    revert rises
    revert n
    decide

end CoreVMcu.Fc
