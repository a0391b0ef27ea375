import CoreVMcu.Clocked.BoundedQueue
import CoreVMcu.Clocked.TwoRuns
import CoreVMcu.Udma.GenericFifo
import Mathlib.Data.Nat.Log

/-!
# The generic FIFO over whole runs

`io_generic_fifo` refines a bounded queue, also with a depth that is not a power of two,
and its registers never outgrow their widths.
-/

namespace CoreVMcu.Udma

open Clocked

namespace IoGenericFifo

variable {Word : Type}

/-- The inputs of `io_generic_fifo`. -/
structure Input (Word : Type) where
  clr : Bool
  valid : Bool
  data : Word
  ready : Bool

/-- What is asked of the queue. -/
def Input.request (input : Input Word) : QueueRequest Word where
  clear := input.clr
  push := input.valid
  word := input.data
  pop := input.ready

/-- `io_generic_fifo` with the reset values of its buffer. -/
def machine (bufferDepth : Nat) (zero : Word) : Machine (IoGenericFifo Word) (Input Word) where
  init := reset zero
  step fifo input := fifo.step bufferDepth input.clr input.valid input.data input.ready

/-- `LOG_BUFFER_DEPTH`. -/
def logBufferDepth (bufferDepth : Nat) : Nat := Nat.clog 2 bufferDepth

/-- `elements_o`. -/
def elementsO (bufferDepth : Nat) (fifo : IoGenericFifo Word) :
    BitVec (logBufferDepth bufferDepth + 1) :=
  BitVec.ofNat _ fifo.elements

variable {bufferDepth : Nat} {fifo : IoGenericFifo Word} {words : List Word}

/-! ## Widths -/

/-- The registers hold their values without loss. -/
structure Fits (bufferDepth : Nat) (fifo : IoGenericFifo Word) : Prop where
  pointerIn : fifo.pointerIn < 2 ^ logBufferDepth bufferDepth
  pointerOut : fifo.pointerOut < 2 ^ logBufferDepth bufferDepth
  elements : fifo.elements < 2 ^ (logBufferDepth bufferDepth + 1)

theorem le_two_pow_logBufferDepth (bufferDepth : Nat) :
    bufferDepth ≤ 2 ^ logBufferDepth bufferDepth :=
  Nat.le_pow_clog Nat.one_lt_two bufferDepth

theorem Represents.pointerIn_lt (represents : Represents bufferDepth fifo words) :
    fifo.pointerIn < bufferDepth := by
  rw [represents.pointerIn]
  exact Nat.mod_lt _ (Nat.zero_lt_of_lt represents.pointerOut)

theorem Represents.fits (represents : Represents bufferDepth fifo words) :
    fifo.Fits bufferDepth where
  pointerIn := Nat.lt_of_lt_of_le represents.pointerIn_lt (le_two_pow_logBufferDepth bufferDepth)
  pointerOut := Nat.lt_of_lt_of_le represents.pointerOut (le_two_pow_logBufferDepth bufferDepth)
  elements := by
    have bounded := represents.bounded
    have room := le_two_pow_logBufferDepth bufferDepth
    rw [represents.elements, Nat.pow_succ]
    have positive := Nat.two_pow_pos (logBufferDepth bufferDepth)
    omega

theorem Represents.toNat_elementsO (represents : Represents bufferDepth fifo words) :
    (fifo.elementsO bufferDepth).toNat = words.length := by
  rw [elementsO, BitVec.toNat_ofNat, Nat.mod_eq_of_lt represents.fits.elements,
    represents.elements]

/-! ## Runs -/

/-- A clear sets the pointers and the count, whatever is written at the same time. -/
theorem Represents.clear (represents : Represents bufferDepth fifo words) (validIn : Bool)
    (dataIn : Word) (readyIn : Bool) :
    Represents bufferDepth (fifo.step bufferDepth true validIn dataIn readyIn) [] where
  bounded := Nat.zero_le _
  elements := rfl
  pointerOut := Nat.zero_lt_of_lt represents.pointerOut
  pointerIn := (Nat.zero_mod _).symm
  holds := .nil

theorem Represents.ready_eq (represents : Represents bufferDepth fifo words) :
    fifo.ready bufferDepth = !(words.length == bufferDepth) := by
  rw [ready, full, represents.elements]

/-- The FIFO stores the words of the queue. -/
def Implements (bufferDepth : Nat) (fifo : IoGenericFifo Word)
    (queue : BoundedQueue Word bufferDepth) : Prop :=
  Represents bufferDepth fifo queue.words

variable {zero : Word}

theorem Implements.step {queue : BoundedQueue Word bufferDepth}
    (implements : Implements bufferDepth fifo queue) (input : Input Word) :
    Implements bufferDepth ((machine bufferDepth zero).step fifo input)
      ((BoundedQueue.machine Word bufferDepth).step queue input.request) := by
  have represents : Represents bufferDepth fifo queue.words := implements
  simp only [machine, BoundedQueue.machine]
  cases clear : input.clr with
  | true =>
      rw [Implements, queue.step_cleared clear]
      exact represents.clear ..
  | false =>
      have next := represents.step input.valid input.data input.ready
      have leaves : queue.remaining input.request =
          queue.words.drop (input.ready && fifo.valid).toNat := by
        rw [BoundedQueue.remaining, Input.request, represents.valid_eq]
        cases input.ready <;> cases queue.words <;> rfl
      have joins : queue.accepted input.request =
          if input.valid && fifo.ready bufferDepth then [input.data] else [] := by
        rw [BoundedQueue.accepted, Input.request, represents.ready_eq]
        rfl
      rw [Implements, queue.words_step clear, leaves, joins]
      exact next

theorem implements_run (positive : 0 < bufferDepth) (inputs : List (Input Word)) :
    Implements bufferDepth ((machine bufferDepth zero).run inputs)
      ((BoundedQueue.machine Word bufferDepth).run (inputs.map Input.request)) := by
  apply Machine.run_refines (Implements bufferDepth) Input.request
  · exact represents_reset zero positive
  · intro _ _ input implements
    exact implements.step input

/-- Every depth from two on, and every sequence of requests: the outputs are those of a
queue of that capacity. -/
theorem refines_queue (large : 2 ≤ bufferDepth) (inputs : List (Input Word)) :
    let fifo := (machine bufferDepth zero).run inputs
    let queue := (BoundedQueue.machine Word bufferDepth).run (inputs.map Input.request)
    (fifo.ready bufferDepth = true ↔ queue.words.length < bufferDepth) ∧
      (fifo.valid = true ↔ queue.words ≠ []) ∧
      (∀ word, queue.words.head? = some word → fifo.data = word) ∧
      (fifo.elementsO bufferDepth).toNat = queue.words.length ∧
      ∀ input : Input Word, input.clr = true →
        ((machine bufferDepth zero).run (inputs ++ [input])).valid = false := by
  intro fifo queue
  have represents : Represents bufferDepth fifo queue.words :=
    implements_run (Nat.zero_lt_of_lt large) inputs
  refine ⟨represents.ready_iff, ?_, ?_, represents.toNat_elementsO, ?_⟩
  · rw [represents.valid_eq]
    cases queue.words <;> simp
  · intro word first
    obtain ⟨rest, equal⟩ := List.head?_eq_some_iff.mp first
    exact Represents.data_eq (equal ▸ represents)
  · intro input clear
    rw [Machine.run_snoc]
    simp only [machine, clear]
    exact (represents.clear ..).valid_eq

/-- A FIFO of three words: the second word is the head once the first one has been taken. -/
theorem refines_queue_three :
    ((machine 3 0).run [⟨false, true, 7, false⟩, ⟨false, true, 8, true⟩,
      ⟨false, true, 9, false⟩]).data = 8 :=
  (refines_queue (by decide) _).2.2.1 8 rfl

end IoGenericFifo

end CoreVMcu.Udma
