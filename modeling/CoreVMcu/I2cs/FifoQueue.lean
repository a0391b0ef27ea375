import CoreVMcu.Clocked.BoundedQueue
import CoreVMcu.Clocked.TwoRuns
import CoreVMcu.I2cs.FifoSync

/-!
# The FIFOs of the I2C slave over whole runs

With pushes, pops and flushes in any order, `FIFO_sync_256x8` refines a queue of 256 bytes,
and its flags are those that its tables give for the number of bytes.
-/

namespace CoreVMcu.I2cs

open Clocked

namespace FifoSync

/-- The inputs of `FIFO_sync_256x8`; `rst` is its flush. -/
structure Input where
  rst : Bool
  push : Bool
  wrData : BitVec 8
  pop : Bool

/-- What is asked of the queue. -/
def Input.request (input : Input) : QueueRequest (BitVec 8) where
  clear := input.rst
  push := input.push
  word := input.wrData
  pop := input.pop

/-- What the outputs are taken from in a cycle: `rst` acts at once. -/
def duringCycle (fifo : FifoSync) (input : Input) : FifoSync :=
  if input.rst then fifo.reset else fifo

/-- A clock edge. In reset the RAM is still written. -/
def clockEdge (fifo : FifoSync) (input : Input) : FifoSync :=
  let next := (fifo.duringCycle input).step input.push input.wrData input.pop
  if input.rst then next.reset else next

/-- `FIFO_sync_256x8` after a reset of the values at power-up. -/
def machine (powerUp : FifoSync) : Machine FifoSync Input where
  init := powerUp.reset
  step := clockEdge

/-- The byte that is popped in a cycle. -/
def popped (fifo : FifoSync) (input : Input) : List (BitVec 8) :=
  if input.pop && !fifo.empty then [fifo.rdData] else []

/-- The byte that is pushed in a cycle. -/
def pushed (fifo : FifoSync) (input : Input) : List (BitVec 8) :=
  if input.push && !fifo.full then [input.wrData] else []

/-! ## The tables of the flags

Their column `empty` is low without items, unlike `empty_o`. -/

/-- The read flags of a number of items. -/
def itemFlags (items : Nat) : BitVec 3 :=
  if 128 ≤ items then 0b111
  else if 64 ≤ items then 0b110
  else if 32 ≤ items then 0b101
  else if 8 ≤ items then 0b100
  else if 4 ≤ items then 0b011
  else if 2 ≤ items then 0b010
  else if 1 ≤ items then 0b001
  else 0b000

/-- The write flags of a number of spaces left. -/
def spaceFlags (spaces : Nat) : BitVec 3 :=
  if 128 ≤ spaces then 0b000
  else if 64 ≤ spaces then 0b001
  else if 32 ≤ spaces then 0b010
  else if 8 ≤ spaces then 0b011
  else if 4 ≤ spaces then 0b100
  else if 2 ≤ spaces then 0b101
  else if 1 ≤ spaces then 0b110
  else 0b111

theorem toNat_itemFlags (items : Nat) : (itemFlags items).toNat = rdLevel items := by
  unfold itemFlags rdLevel
  grind

theorem toNat_spaceFlags {count : Nat} (bound : count ≤ 256) :
    (spaceFlags (256 - count)).toNat = wrLevel count := by
  have left {least : Nat} (inside : least ≤ 256) :
      least ≤ 256 - count ↔ count ≤ 256 - least := by omega
  have last : count ≤ 255 ↔ count ≤ 254 ∨ count = 255 := by omega
  unfold spaceFlags wrLevel
  simp only [left, Nat.reduceLeDiff, Nat.reduceSub]
  split_ifs <;> first | rfl | omega

/-! ## Runs -/

/-- A FIFO in which all registers agree holds the bytes of the queue. -/
structure Implements (fifo : FifoSync) (queue : BoundedQueue (BitVec 8) 256) : Prop where
  wellFormed : fifo.WellFormed
  contents : fifo.contents = queue.words

variable {fifo : FifoSync} {queue : BoundedQueue (BitVec 8) 256}

theorem implements_reset (fifo : FifoSync) : fifo.reset.Implements .empty where
  wellFormed := fifo.wellFormed_reset
  contents := fifo.contents_reset

namespace Implements

variable (implements : fifo.Implements queue)

include implements

theorem count : fifo.fifoCnt.toNat = queue.words.length := by
  rw [← contents_length, implements.contents]

theorem full_eq : fifo.full = queue.full := by
  rw [Bool.eq_iff_iff, implements.wellFormed.full, queue.full_iff, implements.count]

theorem empty_eq : fifo.empty = queue.words.isEmpty := by
  rw [Bool.eq_iff_iff, implements.wellFormed.empty, implements.count, List.isEmpty_iff,
    List.length_eq_zero_iff]

theorem wrFlags_eq : fifo.wrFlags = spaceFlags (256 - queue.words.length) := by
  rw [← BitVec.toNat_inj, implements.wellFormed.wrFlags, toNat_spaceFlags queue.bounded,
    implements.count]

theorem rdFlags_eq : fifo.rdFlags = itemFlags queue.words.length := by
  rw [← BitVec.toNat_inj, implements.wellFormed.rdFlags, toNat_itemFlags, implements.count]

theorem rdData_eq {byte : BitVec 8} (first : queue.words.head? = some byte) :
    fifo.rdData = byte := by
  have held : fifo.contents ≠ [] := by
    rw [implements.contents]
    rintro none
    rw [none] at first
    cases first
  have shown := FifoSync.rdData_eq held
  rw [implements.contents, first] at shown
  exact (Option.some.inj shown).symm

theorem pushed_eq (input : Input) : fifo.pushed input = queue.accepted input.request := by
  rw [pushed, implements.full_eq]
  rfl

theorem popped_eq (input : Input) : fifo.popped input = queue.delivered input.request := by
  rw [popped, BoundedQueue.delivered, implements.empty_eq, Input.request]
  cases equal : queue.words with
  | nil => cases input.pop <;> rfl
  | cons byte rest =>
      have first : queue.words.head? = some byte := by rw [equal]; rfl
      rw [implements.rdData_eq first]
      cases input.pop <;> rfl

/-- A flush empties both; otherwise both lose and gain the same bytes. -/
theorem step (powerUp : FifoSync) (input : Input) :
    ((machine powerUp).step fifo input).Implements
      ((BoundedQueue.machine (BitVec 8) 256).step queue input.request) := by
  change (fifo.clockEdge input).Implements (queue.step input.request)
  unfold clockEdge FifoSync.duringCycle
  cases flush : input.rst with
  | true =>
      rw [queue.step_cleared flush]
      exact implements_reset _
  | false =>
      constructor
      · exact implements.wellFormed.step ..
      · rw [queue.words_step flush]
        refine (contents_step implements.wellFormed ..).trans ?_
        rw [implements.contents]
        congr 1
        exact implements.pushed_eq input

/-- What the FIFO shows while it is flushed is what an empty queue would show. -/
theorem duringCycle (input : Input) :
    (fifo.duringCycle input).Implements (if input.rst then .empty else queue) := by
  unfold FifoSync.duringCycle
  cases input.rst with
  | true => exact implements_reset fifo
  | false => exact implements

end Implements

variable (powerUp : FifoSync)

theorem implements_run (inputs : List Input) :
    ((machine powerUp).run inputs).Implements
      ((BoundedQueue.machine (BitVec 8) 256).run (inputs.map Input.request)) := by
  apply Machine.run_refines Implements Input.request
  · exact implements_reset powerUp
  · intro _ _ input implements
    exact implements.step powerUp input

/-- From any values at power-up and for every sequence of pushes, pops and flushes, also
onto a full and from an empty FIFO: the outputs in the cycle that follows are those of a queue
of 256 bytes, which is empty while it is flushed, and until the next flush the bytes that are
popped are those held and those pushed in order. -/
theorem outputs_refine_queue (inputs : List Input) (input : Input) :
    let state := (machine powerUp).run inputs
    let fifo := state.duringCycle input
    let queue := (BoundedQueue.machine (BitVec 8) 256).run (inputs.map Input.request)
    let bytes := if input.rst then [] else queue.words
    (fifo.full = true ↔ bytes.length = 256) ∧
      (fifo.empty = true ↔ bytes.length = 0) ∧
      fifo.wrFlags = spaceFlags (256 - bytes.length) ∧
      fifo.rdFlags = itemFlags bytes.length ∧
      (∀ byte, bytes.head? = some byte → fifo.rdData = byte) ∧
      ∀ later : List Input, (∀ other ∈ later, other.rst = false) →
        queue.words ++ (machine powerUp).observedFrom pushed state later =
          (machine powerUp).observedFrom popped state later ++
            ((machine powerUp).run (inputs ++ later)).contents := by
  intro state fifo queue bytes
  have implements : state.Implements queue := implements_run powerUp inputs
  have during := implements.duringCycle input
  have shown : (if input.rst then .empty else queue : BoundedQueue (BitVec 8) 256).words =
      bytes := by
    cases flush : input.rst <;> simp [bytes, flush, BoundedQueue.empty]
  rw [← shown]
  refine ⟨?_, ?_, during.wrFlags_eq, during.rdFlags_eq, fun _ => during.rdData_eq, ?_⟩
  · rw [during.full_eq, BoundedQueue.full_iff]
  · rw [during.empty_eq, List.isEmpty_iff, List.length_eq_zero_iff]
  · intro later kept
    have conserved := queue.words_append_accepted (later.map Input.request) ?_
    · rw [Machine.observedFrom_refines Implements Input.request
          (fun _ _ other related => related.step powerUp other)
          (fun _ _ other related => related.pushed_eq other) later implements,
        Machine.observedFrom_refines Implements Input.request
          (fun _ _ other related => related.step powerUp other)
          (fun _ _ other related => related.popped_eq other) later implements,
        (implements_run powerUp (inputs ++ later)).contents, List.map_append, Machine.run_append]
      exact conserved
    · intro request member
      obtain ⟨other, within, rfl⟩ := List.mem_map.mp member
      exact kept other within

end FifoSync

end CoreVMcu.I2cs
