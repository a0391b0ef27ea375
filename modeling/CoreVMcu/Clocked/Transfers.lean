import Mathlib.Data.List.Basic

/-!
# Transfers one after the other

A channel is idle or moves the elements of a transfer, one at a time and in order.  A start
programs the elements of the next transfer.  If the channel moves nothing while it is idle,
then what it has moved is what has been programmed, up to the round in which it is.
-/

namespace Clocked

universe u

variable {Element : Type u}

/-- What a channel does in each cycle: whether it is in a transfer, whether a transfer starts
and with which elements, and which elements are moved. -/
structure Channel (Element : Type u) where
  running : Nat → Bool
  starts : Nat → Bool
  program : Nat → List Element
  moved : Nat → List Element

namespace Channel

variable (channel : Channel Element)

/-- The elements moved before a cycle. -/
def movedBefore : Nat → List Element
  | 0 => []
  | n + 1 => movedBefore n ++ channel.moved n

/-- The elements programmed by the starts before a cycle. -/
def programmedBefore : Nat → List Element
  | 0 => []
  | n + 1 => programmedBefore n ++ if channel.starts n then channel.program n else []

/-- A relation that says in which round of which transfer the channel is describes it. -/
structure Rounds (inRound : Nat → List Element → Nat → Prop) : Prop where
  reset : channel.running 0 = false
  inside : ∀ n elements round, inRound n elements round → round < elements.length
  starts : ∀ n, channel.running n = true → channel.starts n = false
  rests : ∀ n, channel.running n = false → channel.starts n = false →
    channel.running (n + 1) = false
  begins : ∀ n, channel.running n = false → channel.starts n = true →
    channel.running (n + 1) = true ∧ inRound (n + 1) (channel.program n) 0
  stays : ∀ n elements round, channel.running n = true → inRound n elements round →
    channel.moved n = [] → channel.running (n + 1) = true ∧ inRound (n + 1) elements round
  moves : ∀ n elements round, channel.running n = true → inRound n elements round →
    channel.moved n ≠ [] → elements[round]?.toList = channel.moved n ∧
      if round + 1 = elements.length then channel.running (n + 1) = false
      else channel.running (n + 1) = true ∧ inRound (n + 1) elements (round + 1)

/-- Nothing is moved in a cycle in which the channel is idle. -/
def Silent (n : Nat) : Prop := channel.running n = false → channel.moved n = []

/-- The transfers before have been moved, and the one that runs up to a round. -/
structure Progress (inRound : Nat → List Element → Nat → Prop) (n : Nat) : Prop where
  idle : channel.running n = false → channel.movedBefore n = channel.programmedBefore n
  busy : channel.running n = true → ∃ before elements round, inRound n elements round ∧
    channel.programmedBefore n = before ++ elements ∧
    channel.movedBefore n = before ++ elements.take round

variable {channel} {inRound : Nat → List Element → Nat → Prop} {n : Nat}

theorem programmedBefore_succ_of_rest (rests : channel.starts n = false) :
    channel.programmedBefore (n + 1) = channel.programmedBefore n := by
  rw [programmedBefore, rests]
  exact List.append_nil _

theorem movedBefore_succ_of_rest (rests : channel.moved n = []) :
    channel.movedBefore (n + 1) = channel.movedBefore n := by
  rw [movedBefore, rests, List.append_nil]

/-- A move goes one round further. -/
theorem Rounds.movedBefore_succ (rounds : channel.Rounds inRound)
    {before elements : List Element} {round : Nat} (running : channel.running n = true)
    (now : inRound n elements round) (moved : channel.movedBefore n = before ++ elements.take round)
    (moves : channel.moved n ≠ []) :
    channel.movedBefore (n + 1) = before ++ elements.take (round + 1) := by
  rw [movedBefore, moved, List.append_assoc, ← (rounds.moves n _ _ running now moves).1,
    List.take_add_one]

theorem Progress.step (rounds : channel.Rounds inRound) (progress : channel.Progress inRound n)
    (silent : channel.Silent n) : channel.Progress inRound (n + 1) := by
  cases running : channel.running n with
  | false =>
      have moved := movedBefore_succ_of_rest (silent running)
      have same := progress.idle running
      cases starts : channel.starts n with
      | false =>
          have next := rounds.rests n running starts
          refine ⟨fun _ => ?_, fun busy => absurd (next.symm.trans busy) Bool.false_ne_true⟩
          rw [moved, programmedBefore_succ_of_rest starts, same]
      | true =>
          obtain ⟨next, first⟩ := rounds.begins n running starts
          refine ⟨fun idle => absurd (idle.symm.trans next) Bool.false_ne_true, fun _ => ?_⟩
          refine ⟨channel.programmedBefore n, channel.program n, 0, first, ?_, ?_⟩
          · rw [programmedBefore, starts]
            rfl
          · rw [moved, same]
            exact (List.append_nil _).symm
  | true =>
      obtain ⟨before, elements, round, now, programmed, moved⟩ := progress.busy running
      rw [← programmedBefore_succ_of_rest (rounds.starts n running)] at programmed
      cases moves : channel.moved n with
      | nil =>
          obtain ⟨next, same⟩ := rounds.stays n _ _ running now moves
          refine ⟨fun idle => absurd (idle.symm.trans next) Bool.false_ne_true, fun _ => ?_⟩
          exact ⟨before, elements, round, same, programmed,
            (movedBefore_succ_of_rest moves).trans moved⟩
      | cons element others =>
          have some : channel.moved n ≠ [] := by rw [moves]; exact List.cons_ne_nil _ _
          have later := rounds.movedBefore_succ running now moved some
          have next := (rounds.moves n _ _ running now some).2
          cases (inferInstance : Decidable (round + 1 = elements.length)) with
          | isTrue last =>
              rw [if_pos last] at next
              refine ⟨fun _ => ?_, fun busy => absurd (next.symm.trans busy) Bool.false_ne_true⟩
              rw [later, programmed, last, List.take_length]
          | isFalse goesOn =>
              rw [if_neg goesOn] at next
              refine ⟨fun idle => absurd (idle.symm.trans next.1) Bool.false_ne_true, fun _ => ?_⟩
              exact ⟨before, elements, round + 1, next.2, programmed, later⟩

theorem Rounds.progress (rounds : channel.Rounds inRound) (silent : ∀ m < n, channel.Silent m) :
    channel.Progress inRound n := by
  induction n with
  | zero => exact ⟨fun _ => rfl, fun busy => absurd (rounds.reset.symm.trans busy)
      Bool.false_ne_true⟩
  | succ n ih =>
      have before := ih fun m earlier => silent m (Nat.lt_succ_of_lt earlier)
      exact before.step rounds (silent n (Nat.lt_succ_self n))

theorem Progress.inOrder (progress : channel.Progress inRound n) :
    channel.movedBefore n <+: channel.programmedBefore n := by
  cases running : channel.running n with
  | false => exact progress.idle running ▸ List.prefix_rfl
  | true =>
      obtain ⟨before, elements, round, -, programmed, moved⟩ := progress.busy running
      rw [programmed, moved, List.prefix_append_right_inj]
      exact List.take_prefix _ _

/-- A transfer that runs has elements left to move. -/
theorem Progress.idle_iff (rounds : channel.Rounds inRound)
    (progress : channel.Progress inRound n) :
    channel.running n = false ↔
      (channel.movedBefore n).length = (channel.programmedBefore n).length := by
  refine ⟨fun idle => congrArg _ (progress.idle idle), fun same => ?_⟩
  cases running : channel.running n with
  | false => rfl
  | true =>
      obtain ⟨before, elements, round, now, programmed, moved⟩ := progress.busy running
      have inside := rounds.inside n elements round now
      rw [programmed, moved, List.length_append, List.length_append, List.length_take,
        Nat.min_eq_left (Nat.le_of_lt inside), Nat.add_left_cancel_iff] at same
      exact absurd same (Nat.ne_of_lt inside)

/-- The move that ends a transfer is that of its last element. -/
theorem Progress.last (rounds : channel.Rounds inRound) (progress : channel.Progress inRound n)
    (running : channel.running n = true) (ends : channel.running (n + 1) = false) :
    channel.movedBefore (n + 1) = channel.programmedBefore n := by
  obtain ⟨before, elements, round, now, programmed, moved⟩ := progress.busy running
  have some : channel.moved n ≠ [] := by
    intro none
    have next := (rounds.stays n _ _ running now none).1
    exact Bool.false_ne_true (ends.symm.trans next)
  have next := (rounds.moves n _ _ running now some).2
  rw [rounds.movedBefore_succ running now moved some, programmed]
  split at next
  · next last => rw [last, List.take_length]
  · exact absurd (ends.symm.trans next.1) Bool.false_ne_true

/-- Each transfer that does not run any more has ended once. -/
theorem ends_counted {ends : Nat → Bool} (reset : channel.running 0 = false)
    (idle : ∀ n, channel.running n = false → ends n = false ∧
      channel.running (n + 1) = channel.starts n)
    (busy : ∀ n, channel.running n = true → channel.starts n = false ∧
      channel.running (n + 1) = !ends n) (n : Nat) :
    (List.range n).countP ends + (channel.running n).toNat =
      (List.range n).countP channel.starts := by
  induction n with
  | zero => rw [reset]; rfl
  | succ n ih =>
      rw [List.range_succ, List.countP_append, List.countP_append, List.countP_singleton,
        List.countP_singleton, ← ih]
      cases running : channel.running n with
      | false =>
          rw [(idle n running).1, (idle n running).2]
          cases channel.starts n <;> rfl
      | true =>
          rw [(busy n running).1, (busy n running).2]
          cases ends n <;> rfl

end Channel

end Clocked
