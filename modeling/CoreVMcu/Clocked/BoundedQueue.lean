import CoreVMcu.Clocked.Machine

/-!
# Bounded queues

A queue of at most a given number of words.  In one cycle it may be cleared; otherwise its
oldest word may be taken and, if it was not full before, a word may join it.
-/

namespace Clocked

universe u

/-- What is asked of a queue in one cycle. -/
structure QueueRequest (Word : Type u) where
  clear : Bool
  push : Bool
  word : Word
  pop : Bool

/-- The words of a queue, the oldest first. -/
structure BoundedQueue (Word : Type u) (capacity : Nat) where
  words : List Word
  bounded : words.length ≤ capacity

namespace BoundedQueue

variable {Word : Type u} {capacity : Nat}

/-- The queue without words. -/
def empty : BoundedQueue Word capacity := ⟨[], Nat.zero_le capacity⟩

/-- The queue has no room. -/
def full (queue : BoundedQueue Word capacity) : Bool := queue.words.length == capacity

/-- The word that a request adds. -/
def accepted (queue : BoundedQueue Word capacity) (request : QueueRequest Word) : List Word :=
  if request.push && !queue.full then [request.word] else []

/-- The word that a request takes. -/
def delivered (queue : BoundedQueue Word capacity) (request : QueueRequest Word) : List Word :=
  if request.pop then queue.words.take 1 else []

/-- The words that a request leaves. -/
def remaining (queue : BoundedQueue Word capacity) (request : QueueRequest Word) : List Word :=
  if request.pop then queue.words.tail else queue.words

theorem full_iff (queue : BoundedQueue Word capacity) :
    queue.full = true ↔ queue.words.length = capacity := by
  rw [full, beq_iff_eq]

theorem delivered_append_remaining (queue : BoundedQueue Word capacity)
    (request : QueueRequest Word) :
    queue.delivered request ++ queue.remaining request = queue.words := by
  unfold delivered remaining
  cases request.pop with
  | false => rfl
  | true => cases queue.words <;> rfl

theorem length_step (queue : BoundedQueue Word capacity) (request : QueueRequest Word) :
    (queue.remaining request ++ queue.accepted request).length ≤ capacity := by
  have bounded := queue.bounded
  have fewer : (queue.remaining request).length ≤ queue.words.length := by
    rw [← queue.delivered_append_remaining request, List.length_append]
    exact Nat.le_add_left _ _
  rw [List.length_append]
  unfold accepted
  split
  next pushes =>
    have room : queue.words.length ≠ capacity := by
      rw [Ne, ← full_iff]
      simpa using (Bool.and_eq_true_iff.mp pushes).2
    rw [List.length_singleton]
    omega
  next => exact Nat.le_trans fewer bounded

/-- One cycle. -/
def step (queue : BoundedQueue Word capacity) (request : QueueRequest Word) :
    BoundedQueue Word capacity :=
  if request.clear then empty
  else ⟨queue.remaining request ++ queue.accepted request, queue.length_step request⟩

variable (Word capacity) in
/-- A queue that is empty at first. -/
def machine : Machine (BoundedQueue Word capacity) (QueueRequest Word) where
  init := empty
  step := step

theorem step_cleared (queue : BoundedQueue Word capacity) {request : QueueRequest Word}
    (clear : request.clear = true) : queue.step request = empty := by
  rw [step, if_pos clear]

theorem words_step (queue : BoundedQueue Word capacity) {request : QueueRequest Word}
    (kept : request.clear = false) :
    (queue.step request).words = queue.remaining request ++ queue.accepted request := by
  rw [step, kept]
  rfl

/-- While a queue is not cleared, the words it delivers and those it then has are the words
it had and the accepted ones in order. -/
theorem words_append_accepted (queue : BoundedQueue Word capacity)
    (requests : List (QueueRequest Word)) (kept : ∀ request ∈ requests, request.clear = false) :
    queue.words ++ (machine Word capacity).observedFrom accepted queue requests =
      (machine Word capacity).observedFrom delivered queue requests ++
        ((machine Word capacity).runFrom queue requests).words := by
  induction requests generalizing queue with
  | nil => exact List.append_nil _
  | cons request requests inductionHypothesis =>
      have now : ((machine Word capacity).step queue request).words = _ :=
        queue.words_step (kept request List.mem_cons_self)
      have later := inductionHypothesis ((machine Word capacity).step queue request)
        fun other member => kept other (List.mem_cons_of_mem _ member)
      rw [now] at later
      rw [Machine.observedFrom, Machine.observedFrom, Machine.runFrom_cons]
      calc queue.words ++ (queue.accepted request ++ _)
          = queue.delivered request ++
              (queue.remaining request ++ queue.accepted request ++ _) := by
            rw [List.append_assoc, ← List.append_assoc, ← List.append_assoc,
              delivered_append_remaining, List.append_assoc]
        _ = _ := by rw [later, List.append_assoc]

end BoundedQueue

end Clocked
