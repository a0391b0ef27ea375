import Mathlib.Algebra.Ring.Nat
import Mathlib.Data.Nat.Log
import CoreVMcu.Clocked.Machine

/-!
# Queues of the SoC event generator

`soc_event_queue` counts the pending occurrences of one event line, up to three.
`generic_fifo` holds the event numbers that wait for the fabric controller.

Along every run of `soc_event_queue` the occurrences are compared with what is pending, what
has been acknowledged and what has been flagged.
-/

namespace CoreVMcu.Soc

/-- `soc_event_queue`: the number of pending occurrences. -/
structure SocEventQueue where
  eventCount : BitVec 2
  deriving DecidableEq, Repr

namespace SocEventQueue

/-- `event_o`. -/
def event (queue : SocEventQueue) : Bool := queue.eventCount != 0#2

/-- `err_o`. -/
def err (queue : SocEventQueue) (event : Bool) : Bool :=
  event && queue.eventCount == 3#2

/-- `s_event_count`. -/
def nextCount (queue : SocEventQueue) (event ack : Bool) : BitVec 2 :=
  if ack then
    if !event && queue.eventCount != 0#2 then queue.eventCount - 1#2 else queue.eventCount
  else if queue.eventCount != 3#2 then queue.eventCount + 1#2 else queue.eventCount

/-- One clock edge of the queue. -/
def step (queue : SocEventQueue) (event ack : Bool) : SocEventQueue where
  eventCount := if event || ack then queue.nextCount event ack else queue.eventCount

/-- An occurrence is either still pending, acknowledged or reported.  An
occurrence that meets a full queue in the cycle of an acknowledge is reported
although it is kept. -/
theorem step_balance (queue : SocEventQueue) (event : Bool) {ack : Bool}
    (acksPending : ack = true → queue.event = true) :
    (queue.step event ack).eventCount.toNat + ack.toNat + (queue.err event).toNat =
      queue.eventCount.toNat + event.toNat +
        (ack && queue.err event).toNat := by
  obtain ⟨count⟩ := queue
  revert acksPending
  revert event ack count
  decide

end SocEventQueue

/-! ## The generic FIFO -/

/-- `CS` of `generic_fifo`. -/
inductive GenericFifoState where
  | empty
  | full
  | middle
  deriving DecidableEq, Repr

/-- Registers of `generic_fifo` with `dataDepth` words. -/
structure GenericFifo (Word : Type) where
  cs : GenericFifoState
  popPointer : Nat
  pushPointer : Nat
  fifoRegisters : Nat → Word

namespace GenericFifo

variable {Word : Type} (dataDepth : Nat)

/-- The FIFO after reset. -/
def reset (zero : Word) : GenericFifo Word :=
  { cs := .empty, popPointer := 0, pushPointer := 0, fifoRegisters := fun _ => zero }

/-- `grant_o`: the FIFO accepts a word. -/
def grant (fifo : GenericFifo Word) : Bool := fifo.cs != .full

/-- `valid_o`: the FIFO offers a word. -/
def valid (fifo : GenericFifo Word) : Bool := fifo.cs != .empty

/-- `data_o`. -/
def data (fifo : GenericFifo Word) : Word := fifo.fifoRegisters fifo.popPointer

/-- The pointer after `pointer`, which wraps at the last word. -/
def nextPointer (pointer : Nat) : Nat :=
  if pointer = dataDepth - 1 then 0 else (pointer + 1) % 2 ^ Nat.clog 2 dataDepth

/-- One clock edge of the FIFO. -/
def step (fifo : GenericFifo Word) (validIn : Bool) (dataIn : Word) (grantIn : Bool) :
    GenericFifo Word :=
  let written : Nat → Word :=
    if fifo.grant && validIn && decide (fifo.pushPointer < dataDepth) then
      fun index => if index = fifo.pushPointer then dataIn else fifo.fifoRegisters index
    else fifo.fifoRegisters
  match fifo.cs, validIn, grantIn with
  | .empty, false, _ => { fifo with fifoRegisters := written }
  | .empty, true, _ =>
      { fifo with
        cs := .middle
        pushPointer := (fifo.pushPointer + 1) % 2 ^ Nat.clog 2 dataDepth
        fifoRegisters := written }
  | .middle, false, true =>
      { fifo with
        cs :=
          if fifo.popPointer + 1 = fifo.pushPointer ∨
            (fifo.popPointer = dataDepth - 1 ∧ fifo.pushPointer = 0) then .empty else .middle
        popPointer := nextPointer dataDepth fifo.popPointer
        fifoRegisters := written }
  | .middle, false, false => { fifo with fifoRegisters := written }
  | .middle, true, true =>
      { fifo with
        pushPointer := nextPointer dataDepth fifo.pushPointer
        popPointer := nextPointer dataDepth fifo.popPointer
        fifoRegisters := written }
  | .middle, true, false =>
      { fifo with
        cs :=
          if fifo.pushPointer + 1 = fifo.popPointer ∨
            (fifo.pushPointer = dataDepth - 1 ∧ fifo.popPointer = 0) then .full else .middle
        pushPointer := nextPointer dataDepth fifo.pushPointer
        fifoRegisters := written }
  | .full, _, true =>
      { fifo with
        cs := .middle
        popPointer := nextPointer dataDepth fifo.popPointer
        fifoRegisters := written }
  | .full, _, false => { fifo with fifoRegisters := written }

end GenericFifo

/-! ## The error flag of an event queue -/

open Clocked

/-- Inputs of `soc_event_queue` in one cycle. -/
structure QueueInput where
  event : Bool
  eventAck : Bool
  deriving DecidableEq

/-- `soc_event_queue` from reset. -/
def queueMachine : Machine SocEventQueue QueueInput where
  init := ⟨0#2⟩
  step queue input := queue.step input.event input.eventAck

namespace SocEventQueue

variable (queue : SocEventQueue) (input : QueueInput)

/-- The occurrence of a cycle is neither pending afterwards nor taken by an acknowledge. -/
def drops : Bool :=
  input.event && decide ((queue.step input.event input.eventAck).eventCount.toNat +
    input.eventAck.toNat < queue.eventCount.toNat + 1)

/-- An acknowledge comes with an occurrence that finds room, or without one when something is
pending. -/
def AckFits : Prop :=
  input.eventAck = true →
    input.event = true ∧ queue.eventCount ≠ 3#2 ∨ input.event = false ∧ queue.event = true

instance : Decidable (queue.AckFits input) :=
  inferInstanceAs (Decidable (input.eventAck = true →
    input.event = true ∧ queue.eventCount ≠ 3#2 ∨ input.event = false ∧ queue.event = true))

/-- The flag of a cycle is right unless a full queue is acknowledged. -/
theorem flagged_iff :
    (queue.err input.event = true ↔ queue.drops input = true) ↔
      (input.eventAck = true → input.event = true → queue.eventCount ≠ 3#2) := by
  obtain ⟨count⟩ := queue
  obtain ⟨event, ack⟩ := input
  revert count event ack
  decide

/-- One cycle keeps the balance of the occurrences exactly when the acknowledge fits. -/
theorem balanced_iff :
    (queue.step input.event input.eventAck).eventCount.toNat + input.eventAck.toNat +
        (queue.err input.event).toNat = queue.eventCount.toNat + input.event.toNat ↔
      queue.AckFits input := by
  obtain ⟨count⟩ := queue
  obtain ⟨event, ack⟩ := input
  revert count event ack
  decide

end SocEventQueue

/-- The occurrences are those pending, acknowledged and flagged. -/
def Balanced (inputs : List QueueInput) : Prop :=
  queueMachine.counted (fun _ input => input.event) inputs =
    (queueMachine.run inputs).eventCount.toNat +
      queueMachine.counted (fun _ input => input.eventAck) inputs +
      queueMachine.counted (fun queue input => queue.err input.event) inputs

/-- The flag is raised in the cycles in which an occurrence is dropped, and at every point of
the run the occurrences are accounted for. -/
structure ErrorExact (inputs : List QueueInput) : Prop where
  flagged : queueMachine.Always
    (fun queue input => queue.err input.event = true ↔ queue.drops input = true) inputs
  balanced : ∀ before, before <+: inputs → Balanced before

/-- A cycle that is balanced before is balanced after it exactly when its acknowledge fits. -/
theorem balanced_snoc_iff {inputs : List QueueInput} (before : Balanced inputs)
    (input : QueueInput) :
    Balanced (inputs ++ [input]) ↔ (queueMachine.run inputs).AckFits input := by
  have cycle := (queueMachine.run inputs).balanced_iff input
  rw [Balanced] at before
  rw [← cycle, Balanced]
  simp only [Machine.counted_snoc, Machine.run_snoc]
  change _ = ((queueMachine.run inputs).step input.event input.eventAck).eventCount.toNat +
    _ + _ ↔ _
  omega

/-- At every point of a run the occurrences are accounted for exactly when every acknowledge
fits. -/
theorem balanced_iff_ackFits (inputs : List QueueInput) :
    (∀ before, before <+: inputs → Balanced before) ↔
      queueMachine.Always SocEventQueue.AckFits inputs := by
  induction inputs using List.reverseRecOn with
  | nil =>
      refine ⟨fun _ => Machine.always_nil .., fun _ before isPrefix => ?_⟩
      rw [List.prefix_nil.mp isPrefix]
      rfl
  | append_singleton inputs input inductionHypothesis =>
      rw [Machine.always_snoc, ← inductionHypothesis]
      constructor
      · intro all
        have sofar : ∀ before, before <+: inputs → Balanced before := fun before isPrefix =>
          all before (isPrefix.trans (List.prefix_append ..))
        exact ⟨sofar, (balanced_snoc_iff (sofar inputs (List.prefix_refl _)) input).mp
          (all _ (List.prefix_refl _))⟩
      · rintro ⟨sofar, fits⟩ before isPrefix
        rcases List.prefix_concat_iff.mp isPrefix with rfl | earlier
        · exact (balanced_snoc_iff (sofar inputs (List.prefix_refl _)) input).mpr fits
        · exact sofar before earlier

/-- For every run: the flag is exact and the occurrences are accounted for exactly when every
acknowledge fits. -/
theorem socEventQueue_errorExact_iff (inputs : List QueueInput) :
    ErrorExact inputs ↔ queueMachine.Always SocEventQueue.AckFits inputs := by
  constructor
  · exact fun exact => (balanced_iff_ackFits inputs).mp exact.balanced
  · intro fits
    refine ⟨fits.mono fun queue input ackFits => ?_, (balanced_iff_ackFits inputs).mpr fits⟩
    refine (queue.flagged_iff input).mpr fun acked occurs => ?_
    rcases ackFits acked with ⟨_, notFull⟩ | ⟨silent, _⟩
    · exact notFull
    · exact absurd (silent.symm.trans occurs) Bool.false_ne_true

/-- Three occurrences fill the queue; a fourth one comes with an acknowledge. -/
def acknowledgedWhenFull : List QueueInput :=
  [⟨true, false⟩, ⟨true, false⟩, ⟨true, false⟩, ⟨true, true⟩]

/-- The fourth occurrence is kept and flagged all the same. -/
theorem acknowledgedWhenFull_not_errorExact : ¬ErrorExact acknowledgedWhenFull := fun exact =>
  absurd exact.flagged (by decide)

end CoreVMcu.Soc
