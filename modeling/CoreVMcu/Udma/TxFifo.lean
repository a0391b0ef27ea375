import CoreVMcu.Clocked.Counters
import CoreVMcu.DcFifo.TokenRing
import CoreVMcu.Udma.GenericFifo
import Mathlib.Data.Nat.Log

/-!
# Credits of the transmit FIFOs

`io_tx_fifo` requests a word only while it has a place for it besides those that are kept for
the words under way.  `io_tx_fifo_dc` does the same in front of a dual-clock FIFO.
-/

namespace CoreVMcu.Udma

open Clocked DcFifo

/-- `LOG_BUFFER_DEPTH`. -/
abbrev logBufferDepth (bufferDepth : Nat) : Nat := Nat.clog 2 bufferDepth

/-- `io_tx_fifo` from reset. -/
def txFifoMachine (bufferDepth : Nat) {Word : Type} (zero : Word) :
    Machine (TxFifo bufferDepth (logBufferDepth bufferDepth) Word) (TxFifoInput Word) where
  init := .reset zero
  step := TxFifo.step

/-- Registers of `io_tx_fifo_dc`. -/
structure TxFifoDc (syncDepth asyncDepth dataWidth : Nat) where
  src : TxFifo syncDepth (logBufferDepth syncDepth) (BitVec dataWidth)
  dcFifo : TokenRingFifo dataWidth asyncDepth

/-- Inputs at an edge of the source clock. -/
structure TxFifoDcSource (dataWidth : Nat) where
  clr : Bool
  gnt : Bool
  valid : Bool
  data : BitVec dataWidth

/-- The clock edges of one instant, each with the inputs that it samples. -/
structure TxFifoDcEdges (dataWidth : Nat) where
  source : Option (TxFifoDcSource dataWidth)
  destination : Option Bool

namespace TxFifoDc

variable {syncDepth asyncDepth dataWidth : Nat}
variable (fifo : TxFifoDc syncDepth asyncDepth dataWidth) (edges : TxFifoDcEdges dataWidth)

/-- What the FIFO of the source side sees: the dual-clock FIFO takes its words. -/
def sourceInput (source : TxFifoDcSource dataWidth) : TxFifoInput (BitVec dataWidth) :=
  { clr := source.clr, gnt := source.gnt, validIn := source.valid, dataIn := source.data
    readyIn := fifo.dcFifo.din.ready }

/-- The clock edges that the dual-clock FIFO sees. -/
def dcEdges : ClockEdges dataWidth :=
  { source := edges.source.map fun _ => (fifo.src.fifo.valid, fifo.src.fifo.data)
    destination := edges.destination }

def step : TxFifoDc syncDepth asyncDepth dataWidth where
  src :=
    match edges.source with
    | some source => fifo.src.step (fifo.sourceInput source)
    | none => fifo.src
  dcFifo := (fifoMachine dataWidth asyncDepth).step fifo.dcFifo (fifo.dcEdges edges)

end TxFifoDc

/-- `io_tx_fifo_dc` from reset. -/
def txFifoDcMachine (syncDepth asyncDepth dataWidth : Nat) :
    Machine (TxFifoDc syncDepth asyncDepth dataWidth) (TxFifoDcEdges dataWidth) where
  init := ⟨.reset 0, (fifoMachine dataWidth asyncDepth).init⟩
  step := TxFifoDc.step

/-! ## Credits -/

section Credits

variable {bufferDepth logDepth : Nat} {Word State Input : Type}

/-- A design that holds a transmit FIFO: its registers, and what it samples at an instant at
which its clock ticks. -/
structure HoldsTxFifo (bufferDepth logDepth : Nat) (Word State Input : Type) where
  fifo : State → TxFifo bufferDepth logDepth Word
  samples : State → Input → Option (TxFifoInput Word)

namespace HoldsTxFifo

variable (holds : HoldsTxFifo bufferDepth logDepth Word State Input)

/-- A request is granted. -/
def granted (state : State) (input : Input) : Bool :=
  (holds.samples state input).any fun sampled => (holds.fifo state).req && sampled.gnt

/-- A response arrives. -/
def answered (state : State) (input : Input) : Bool :=
  (holds.samples state input).any fun sampled => sampled.validIn

end HoldsTxFifo

/-- Every response answers a request that has been granted before and not been answered. -/
def AnswersGranted (machine : Machine State Input)
    (holds : HoldsTxFifo bufferDepth logDepth Word State Input) (inputs : List Input) : Prop :=
  ∀ before input, before ++ [input] <+: inputs →
    holds.answered (machine.run before) input = true →
    machine.counted holds.answered before < machine.counted holds.granted before

/-- The stored elements and the requests under way never exceed the depth, the counter is the
number of requests under way, and every response finds the FIFO ready. -/
structure KeepsCredit (machine : Machine State Input)
    (holds : HoldsTxFifo bufferDepth logDepth Word State Input) (inputs : List Input) : Prop where
  bounded : ∀ before, before <+: inputs → ∃ inflight,
    machine.counted holds.granted before = machine.counted holds.answered before + inflight ∧
      (holds.fifo (machine.run before)).fifo.elements + inflight ≤ bufferDepth ∧
      (holds.fifo (machine.run before)).rInflight.toNat = inflight
  taken : ∀ before input, before ++ [input] <+: inputs →
    holds.answered (machine.run before) input = true →
      (holds.fifo (machine.run before)).ready = true

variable {machine : Machine State Input}
variable {holds : HoldsTxFifo bufferDepth logDepth Word State Input} {inputs : List Input}

/-- The design steps its transmit FIFO when its clock ticks, and resets it. -/
structure HoldsTxFifo.Runs (holds : HoldsTxFifo bufferDepth logDepth Word State Input)
    (machine : Machine State Input) : Prop where
  reset : (holds.fifo machine.init).Credit 0
  step : ∀ state input, holds.fifo (machine.step state input) =
    match holds.samples state input with
    | some sampled => (holds.fifo state).step sampled
    | none => holds.fifo state

theorem AnswersGranted.of_append {later : List Input}
    (answers : AnswersGranted machine holds (inputs ++ later)) :
    AnswersGranted machine holds inputs := fun before input isPrefix =>
  answers before input (isPrefix.trans (List.prefix_append ..))

theorem answersGranted_of_forall
    (each : ∀ (n : Nat) (inside : n < inputs.length),
      holds.answered (machine.run (inputs.take n)) inputs[n] = true →
        machine.counted holds.answered (inputs.take n) <
          machine.counted holds.granted (inputs.take n)) :
    AnswersGranted machine holds inputs := by
  rintro before input ⟨rest, rfl⟩
  have now := each before.length (by simp)
  simpa using now

/-- The credit of a run. -/
theorem credit_run (runs : holds.Runs machine) (fits : bufferDepth ≤ 2 ^ logDepth)
    (answers : AnswersGranted machine holds inputs) :
    ∃ inflight, (holds.fifo (machine.run inputs)).Credit inflight ∧
      machine.counted holds.granted inputs = machine.counted holds.answered inputs + inflight := by
  induction inputs using List.reverseRecOn with
  | nil => exact ⟨0, runs.reset, rfl⟩
  | append_singleton inputs input inductionHypothesis =>
      obtain ⟨inflight, credit, count⟩ := inductionHypothesis answers.of_append
      have answersNow := answers inputs input (List.prefix_refl _)
      rw [count] at answersNow
      rw [Machine.run_snoc, Machine.counted_snoc, Machine.counted_snoc, runs.step]
      rw [HoldsTxFifo.answered] at answersNow
      rw [HoldsTxFifo.granted, HoldsTxFifo.answered]
      cases found : holds.samples (machine.run inputs) input with
      | none => exact ⟨inflight, credit, count⟩
      | some sampled =>
          rw [found] at answersNow
          obtain ⟨next, creditNext, balance⟩ := credit.step fits sampled fun valid => by
            have earlier := answersNow valid
            omega
          refine ⟨next, creditNext, ?_⟩
          change _ + ((holds.fifo (machine.run inputs)).req && sampled.gnt).toNat =
            _ + sampled.validIn.toNat + next
          omega

theorem keepsCredit_of_runs (runs : holds.Runs machine) (fits : bufferDepth ≤ 2 ^ logDepth)
    (answers : AnswersGranted machine holds inputs) : KeepsCredit machine holds inputs where
  bounded := by
    rintro before ⟨rest, rfl⟩
    obtain ⟨inflight, credit, count⟩ := credit_run runs fits answers.of_append
    exact ⟨inflight, count, credit.bounded, credit.counter⟩
  taken := by
    intro before input isPrefix answered
    have earlier := answers before input isPrefix answered
    obtain ⟨rest, rfl⟩ := isPrefix
    obtain ⟨inflight, credit, count⟩ := credit_run runs fits answers.of_append.of_append
    exact credit.ready (by omega)

end Credits

/-- `io_tx_fifo` samples its inputs in every cycle. -/
def holdsTxFifo (bufferDepth : Nat) (Word : Type) :
    HoldsTxFifo bufferDepth (logBufferDepth bufferDepth) Word
      (TxFifo bufferDepth (logBufferDepth bufferDepth) Word) (TxFifoInput Word) where
  fifo := id
  samples _ input := some input

/-- `io_tx_fifo_dc` samples the inputs of its source side at the edges of the source clock. -/
def holdsTxFifoDc (syncDepth asyncDepth dataWidth : Nat) :
    HoldsTxFifo syncDepth (logBufferDepth syncDepth) (BitVec dataWidth)
      (TxFifoDc syncDepth asyncDepth dataWidth) (TxFifoDcEdges dataWidth) where
  fifo := TxFifoDc.src
  samples fifo edges := edges.source.map fifo.sourceInput

theorem credit_reset {bufferDepth logDepth : Nat} {Word : Type} (zero : Word) :
    (TxFifo.reset zero : TxFifo bufferDepth logDepth Word).Credit 0 :=
  ⟨Nat.zero_le _, BitVec.toNat_zero⟩

/-- For every depth and every run in which every response answers a request that was granted
before: the credit of both FIFOs is kept. -/
theorem txFifos_keepCredit (bufferDepth syncDepth asyncDepth dataWidth : Nat) {Word : Type}
    (zero : Word) :
    (∀ inputs, AnswersGranted (txFifoMachine bufferDepth zero) (holdsTxFifo bufferDepth Word)
        inputs →
      KeepsCredit (txFifoMachine bufferDepth zero) (holdsTxFifo bufferDepth Word) inputs) ∧
    ∀ inputs, AnswersGranted (txFifoDcMachine syncDepth asyncDepth dataWidth)
        (holdsTxFifoDc syncDepth asyncDepth dataWidth) inputs →
      KeepsCredit (txFifoDcMachine syncDepth asyncDepth dataWidth)
        (holdsTxFifoDc syncDepth asyncDepth dataWidth) inputs := by
  constructor
  · intro inputs answers
    exact keepsCredit_of_runs ⟨credit_reset zero, fun _ _ => rfl⟩
      (Nat.le_pow_clog (by decide) bufferDepth) answers
  · intro inputs answers
    refine keepsCredit_of_runs ⟨credit_reset 0, fun fifo edges => ?_⟩
      (Nat.le_pow_clog (by decide) syncDepth) answers
    obtain ⟨source, destination⟩ := edges
    cases source <;> rfl

/-- A cycle in which a grant is offered, a response comes or the FIFO is cleared. -/
def creditCycle (clr gnt valid : Bool) : TxFifoInput Nat := ⟨clr, gnt, valid, 7, false⟩

/-- Two requests are granted; the FIFO is cleared while one is still under way. -/
def clearedUnderWay : List (TxFifoInput Nat) :=
  [creditCycle false true false, creditCycle false true true, creditCycle true false false,
    creditCycle false true true, creditCycle false true true]

/-- The same at the edges of the source clock, with an edge of the destination clock. -/
def clearedUnderWayDc : List (TxFifoDcEdges 8) :=
  [⟨some ⟨false, true, false, 7⟩, none⟩, ⟨some ⟨false, true, true, 7⟩, some true⟩,
    ⟨some ⟨true, false, false, 7⟩, none⟩, ⟨some ⟨false, true, true, 7⟩, none⟩]

theorem clearedUnderWay_keepsCredit :
    KeepsCredit (txFifoMachine 3 0) (holdsTxFifo 3 Nat) clearedUnderWay ∧
      KeepsCredit (txFifoDcMachine 2 4 8) (holdsTxFifoDc 2 4 8) clearedUnderWayDc :=
  ⟨(txFifos_keepCredit 3 2 4 8 0).1 _ (answersGranted_of_forall (by decide +kernel)),
    (txFifos_keepCredit 3 2 4 8 0).2 _ (answersGranted_of_forall (by decide +kernel))⟩

end CoreVMcu.Udma
