import CoreVMcu.Clocked.Machine
import Mathlib.Order.Basic
import Mathlib.Tactic.SplitIfs

/-!
# Asynchronous FIFOs

The abstract asynchronous FIFO: a counter of the words pushed and a counter of
the words popped that never wrap, each seen by the other clock domain through two
synchronising registers and the register of a flag.  A push while full and a pop
while empty are refused.

The invariant is a chain.  Every view is older than what it views, so the push
side underestimates the free room and the pop side the words available.
-/

namespace Clocked

variable {Word : Type*}

/-- The push side: the words pushed, and the pop counter in its two synchronising
registers and as `full` was computed from it. -/
structure PushSide (Word : Type*) where
  words : List Word
  first : Nat
  second : Nat
  seen : Nat

/-- The pop side: the number of words popped, and the push counter in its two
synchronising registers and as `empty` was computed from it. -/
structure PopSide where
  count : Nat
  first : Nat
  second : Nat
  seen : Nat

/-- The abstract asynchronous FIFO. -/
structure AsyncFifo (Word : Type*) where
  push : PushSide Word
  pop : PopSide

/-- The clock edges of one instant with the requests that they sample: a word
that is pushed, if any, and whether a word is popped. -/
structure FifoEdges (Word : Type*) where
  push : Option (Option Word)
  pop : Option Bool

namespace PushSide

variable (depth : Nat) (side : PushSide Word)

def full : Bool := decide (side.words.length = side.seen + depth)

/-- Words accepted at an edge. -/
def accepts : Option Word → List Word
  | some word => if side.full depth then [] else [word]
  | none => []

/-- One edge of the push clock, with the pop counter from before it. -/
def edge (popped : Nat) (request : Option Word) : PushSide Word where
  words := side.words ++ side.accepts depth request
  first := popped
  second := side.first
  seen := side.second

end PushSide

namespace PopSide

variable (side : PopSide)

def empty : Bool := decide (side.count = side.seen)

/-- A word is taken at an edge. -/
def takes (pop : Bool) : Bool := pop && !side.empty

/-- One edge of the pop clock, with the push counter from before it. -/
def edge (pushed : Nat) (pop : Bool) : PopSide where
  count := if side.takes pop then side.count + 1 else side.count
  first := pushed
  second := side.first
  seen := side.second

end PopSide

namespace AsyncFifo

/-- The empty FIFO, with all views up to date. -/
def reset : AsyncFifo Word := ⟨⟨[], 0, 0, 0⟩, ⟨0, 0, 0, 0⟩⟩

variable (depth : Nat) (fifo : AsyncFifo Word)

/-- One instant.  Each side samples the other as it was before it. -/
def step (edges : FifoEdges Word) : AsyncFifo Word where
  push :=
    match edges.push with
    | some request => fifo.push.edge depth fifo.pop.count request
    | none => fifo.push
  pop :=
    match edges.pop with
    | some pop => fifo.pop.edge fifo.push.words.length pop
    | none => fifo.pop

/-- Words accepted at an instant. -/
def accepted (edges : FifoEdges Word) : List Word :=
  match edges.push with
  | some request => fifo.push.accepts depth request
  | none => []

/-- Whether a word is taken at an instant. -/
def taken (edges : FifoEdges Word) : Bool :=
  match edges.pop with
  | some pop => fifo.pop.takes pop
  | none => false

/-- Every view is older than what it views, and no more than `depth` words are
stored. -/
structure Ordered : Prop where
  seenPopped : fifo.push.seen ≤ fifo.push.second
  secondPopped : fifo.push.second ≤ fifo.push.first
  firstPopped : fifo.push.first ≤ fifo.pop.count
  poppedSeen : fifo.pop.count ≤ fifo.pop.seen
  seenPushed : fifo.pop.seen ≤ fifo.pop.second
  secondPushed : fifo.pop.second ≤ fifo.pop.first
  firstPushed : fifo.pop.first ≤ fifo.push.words.length
  bounded : fifo.push.words.length ≤ fifo.push.seen + depth

theorem ordered_reset : (reset : AsyncFifo Word).Ordered depth :=
  ⟨Nat.le_refl 0, Nat.le_refl 0, Nat.le_refl 0, Nat.le_refl 0, Nat.le_refl 0, Nat.le_refl 0,
    Nat.le_refl 0, Nat.zero_le _⟩

variable (edges : FifoEdges Word)

/-- The push counter grows by what is accepted. -/
theorem words_step :
    (fifo.step depth edges).push.words = fifo.push.words ++ fifo.accepted depth edges := by
  cases push : edges.push <;> simp [step, accepted, push, PushSide.edge]

/-- The pop counter grows by what is taken. -/
theorem count_step :
    (fifo.step depth edges).pop.count = fifo.pop.count + (fifo.taken edges).toNat := by
  cases pop : edges.pop with
  | none => simp [step, taken, pop]
  | some request =>
      simp only [step, taken, pop, PopSide.edge]
      cases fifo.pop.takes request <;> rfl

/-- The push side keeps its views or shifts the pop counter into them. -/
theorem pushViews_step :
    ((fifo.step depth edges).push.first = fifo.push.first ∧
        (fifo.step depth edges).push.second = fifo.push.second ∧
        (fifo.step depth edges).push.seen = fifo.push.seen) ∨
      ((fifo.step depth edges).push.first = fifo.pop.count ∧
        (fifo.step depth edges).push.second = fifo.push.first ∧
        (fifo.step depth edges).push.seen = fifo.push.second) := by
  cases push : edges.push with
  | none => exact .inl (by simp [step, push])
  | some request => exact .inr (by simp [step, push, PushSide.edge])

/-- The pop side keeps its views or shifts the push counter into them. -/
theorem popViews_step :
    ((fifo.step depth edges).pop.first = fifo.pop.first ∧
        (fifo.step depth edges).pop.second = fifo.pop.second ∧
        (fifo.step depth edges).pop.seen = fifo.pop.seen) ∨
      ((fifo.step depth edges).pop.first = fifo.push.words.length ∧
        (fifo.step depth edges).pop.second = fifo.pop.first ∧
        (fifo.step depth edges).pop.seen = fifo.pop.second) := by
  cases pop : edges.pop with
  | none => exact .inl (by simp [step, pop])
  | some request => exact .inr (by simp [step, pop, PopSide.edge])

variable {depth fifo} {edges}

/-- A word is accepted only while the push side sees room for it. -/
theorem Ordered.room (ordered : fifo.Ordered depth) (edges : FifoEdges Word) :
    fifo.push.words.length + (fifo.accepted depth edges).length ≤ fifo.push.seen + depth := by
  have bounded := ordered.bounded
  unfold accepted PushSide.accepts
  split
  next request _ =>
    split
    next word =>
      split
      next => exact bounded
      next room =>
        simp only [PushSide.full, decide_eq_true_eq] at room
        simp only [List.length_singleton]
        omega
    next => exact bounded
  next => exact bounded

/-- A word is taken only when the pop side sees one. -/
theorem Ordered.available (ordered : fifo.Ordered depth) (edges : FifoEdges Word) :
    fifo.pop.count + (fifo.taken edges).toNat ≤ fifo.pop.seen := by
  have seen := ordered.poppedSeen
  cases taken : fifo.taken edges with
  | false => exact seen
  | true =>
      unfold AsyncFifo.taken at taken
      split at taken
      next pop _ =>
        simp only [PopSide.takes, PopSide.empty, Bool.and_eq_true, Bool.not_eq_true',
          decide_eq_false_iff_not] at taken
        simp only [Bool.toNat_true]
        omega
      next => cases taken

theorem Ordered.step (ordered : fifo.Ordered depth) (edges : FifoEdges Word) :
    (fifo.step depth edges).Ordered depth := by
  have words : (fifo.step depth edges).push.words.length = _ :=
    congrArg List.length (words_step depth fifo edges)
  have count : (fifo.step depth edges).pop.count = _ := count_step depth fifo edges
  have room := ordered.room edges
  have available := ordered.available edges
  obtain ⟨seenPopped, secondPopped, firstPopped, poppedSeen, seenPushed, secondPushed,
    firstPushed, bounded⟩ := ordered
  rw [List.length_append] at words
  rcases pushViews_step depth fifo edges with ⟨pushFirst, pushSecond, pushSeen⟩ |
    ⟨pushFirst, pushSecond, pushSeen⟩ <;>
  rcases popViews_step depth fifo edges with ⟨popFirst, popSecond, popSeen⟩ |
    ⟨popFirst, popSecond, popSeen⟩ <;>
  exact
    { seenPopped := by omega, secondPopped := by omega, firstPopped := by omega
      poppedSeen := by omega, seenPushed := by omega, secondPushed := by omega
      firstPushed := by omega, bounded := by omega }

/-! ## Draining -/

/-- The words that are not yet popped, and the registers through which the push
counter has yet to pass. -/
def rank (fifo : AsyncFifo Word) : Nat :=
  fifo.push.words.length - fifo.pop.count +
    if fifo.pop.first ≠ fifo.push.words.length then 3
    else if fifo.pop.second ≠ fifo.push.words.length then 2
    else if fifo.pop.seen ≠ fifo.push.words.length then 1
    else 0

theorem Ordered.rank_le (ordered : fifo.Ordered depth) : fifo.rank ≤ depth + 3 := by
  obtain ⟨seenPopped, secondPopped, firstPopped, -, -, -, -, bounded⟩ := ordered
  unfold rank
  split_ifs <;> omega

theorem count_eq_of_rank (ordered : fifo.Ordered depth) (drained : fifo.rank = 0) :
    fifo.pop.count = fifo.push.words.length := by
  obtain ⟨-, -, -, poppedSeen, seenPushed, secondPushed, firstPushed, -⟩ := ordered
  unfold rank at drained
  omega

/-- At an edge of the pop clock the FIFO is asked for a word, or is empty. -/
def asked (fifo : AsyncFifo Word) (edges : FifoEdges Word) : Bool :=
  edges.pop.any fun pop => pop || fifo.pop.empty

/-- While nothing is pushed, every edge of the pop clock at which the FIFO is
asked comes closer to the end. -/
theorem rank_step (ordered : fifo.Ordered depth) (quiet : fifo.accepted depth edges = []) :
    (fifo.step depth edges).rank ≤ fifo.rank - (fifo.asked edges).toNat := by
  have words := words_step depth fifo edges
  have available := ordered.available edges
  have count := count_step depth fifo edges
  rw [quiet, List.append_nil] at words
  unfold rank
  rw [words, count]
  cases pop : edges.pop with
  | none =>
      have same : (fifo.step depth edges).pop = fifo.pop := by simp [AsyncFifo.step, pop]
      have none : fifo.taken edges = false := by simp [taken, pop]
      rw [same, none]
      simp [asked, pop]
  | some request =>
      have edge : (fifo.step depth edges).pop =
          fifo.pop.edge fifo.push.words.length request := by simp [AsyncFifo.step, pop]
      have first : (fifo.step depth edges).pop.first = fifo.push.words.length := by rw [edge]; rfl
      have second : (fifo.step depth edges).pop.second = fifo.pop.first := by rw [edge]; rfl
      have seen : (fifo.step depth edges).pop.seen = fifo.pop.second := by rw [edge]; rfl
      have taken : fifo.taken edges = (request && !fifo.pop.empty) := by
        simp [taken, pop, PopSide.takes]
      have asks : fifo.asked edges = (request || fifo.pop.empty) := by simp [asked, pop]
      have poppedSeen := ordered.poppedSeen
      rw [first, second, seen, asks]
      rw [taken] at available ⊢
      cases empty : fifo.pop.empty with
      | true =>
          have equal : fifo.pop.count = fifo.pop.seen := by simpa [PopSide.empty] using empty
          simp only [Bool.not_true, Bool.and_false, Bool.or_true, Bool.toNat_true,
            Bool.toNat_false]
          split_ifs <;> simp <;> omega
      | false =>
          simp only [empty, Bool.not_false, Bool.and_true, Bool.or_false] at available ⊢
          cases request <;> simp only [Bool.toNat_true, Bool.toNat_false] at available ⊢ <;>
            split_ifs <;> simp <;> omega

/-- An abstract FIFO of rank zero is seen empty. -/
theorem empty_of_rank (drained : fifo.rank = 0) (ordered : fifo.Ordered depth) :
    fifo.pop.empty = true := by
  obtain ⟨-, -, -, poppedSeen, seenPushed, secondPushed, firstPushed, -⟩ := ordered
  unfold rank at drained
  rw [PopSide.empty, decide_eq_true_eq]
  omega

end AsyncFifo

end Clocked
