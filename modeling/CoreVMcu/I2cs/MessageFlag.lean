import CoreVMcu.I2cs.Registers

/-!
# The new-message flag of the I2C slave

`reg_0x11` is set by a message from the I2C side and cleared by the strobe of a read.  The strobe
is up for two cycles, in the second one of which the master is done with the read, and the data of
the read is older than the first one.
-/

namespace CoreVMcu.I2cs

open Clocked Apb

section Messages

variable (powerUp : PowerUp) (schedule : Nat → I2csInstant)

/-- The message that the I2C side writes in cycle `n`. -/
def messageAt (n : Nat) : List (BitVec 8) :=
  if (schedule n).env.writes 0x10 then [(schedule n).env.regWdata] else []

/-- The messages that were written before cycle `n`, oldest first. -/
def messages : Nat → List (BitVec 8)
  | 0 => []
  | n + 1 => messages n ++ messageAt schedule n

/-- The number of the latest message that a read of the message register returned before
cycle `n`: the data of a read is that of the cycle before its last one. -/
def messagesReturned : Nat → Nat
  | 0 => 0
  | n + 1 =>
      if readAnswered (systemAt powerUp schedule n) 0x40 then (messages schedule (n - 1)).length
      else messagesReturned n

/-- The flag is up in cycle `n` exactly if some message was not returned yet, and a read that is
answered returns the message that counts as returned. -/
structure StatusRight (n : Nat) : Prop where
  status : (registersAt powerUp schedule n).reg0x11 = true ↔
    messagesReturned powerUp schedule n < (messages schedule n).length
  data : readAnswered (systemAt powerUp schedule n) 0x40 = true →
    (registersAt powerUp schedule n).apbRegRdata =
      ((messages schedule (n - 1)).getLastD 0).setWidth 32

/-- When the strobe clears the flag in cycle `n`, all messages were returned: if it is the last
cycle of a read then no message was written in the cycle before. -/
def ClearsRightly (n : Nat) : Prop :=
  apbRegRdByteComplete powerUp schedule n = true → apbRegRaddr powerUp schedule n = 0x40 →
    (schedule n).env.writes 0x10 = false →
    if readAnswered (systemAt powerUp schedule n) 0x40 then
      messages schedule (n - 1) = messages schedule n
    else messagesReturned powerUp schedule n = (messages schedule n).length

variable {powerUp schedule}

theorem messages_mono {n m : Nat} (earlier : n ≤ m) :
    messages schedule n <+: messages schedule m := by
  induction earlier with
  | refl => exact List.prefix_refl _
  | step _ inductionHypothesis => exact inductionHypothesis.trans (List.prefix_append ..)

theorem messagesReturned_le (n : Nat) :
    messagesReturned powerUp schedule n ≤ (messages schedule n).length := by
  induction n with
  | zero => exact Nat.zero_le _
  | succ n inductionHypothesis =>
    rw [messagesReturned]
    split
    · exact (messages_mono (by omega)).length_le
    · exact inductionHypothesis.trans (messages_mono (Nat.le_succ n)).length_le

theorem reg0x10_succ (n : Nat) :
    (registersAt powerUp schedule (n + 1)).reg0x10 =
      if (schedule n).env.writes 0x10 then (schedule n).env.regWdata
      else (registersAt powerUp schedule n).reg0x10 := by
  rw [registersAt_succ]
  rfl

/-- The message register holds the latest message. -/
theorem reg0x10_eq (n : Nat) :
    (registersAt powerUp schedule n).reg0x10 = (messages schedule n).getLastD 0 := by
  induction n with
  | zero => rfl
  | succ n inductionHypothesis =>
    rw [reg0x10_succ, messages, messageAt]
    cases (schedule n).env.writes 0x10 with
    | false =>
      rw [if_neg Bool.false_ne_true, if_neg Bool.false_ne_true, List.append_nil]
      exact inductionHypothesis
    | true => simp

/-- A read of the message register returns a message that was the latest one. -/
theorem messageRead_data (n : Nat)
    (answered : readAnswered (systemAt powerUp schedule n) 0x40 = true) :
    (registersAt powerUp schedule n).apbRegRdata =
      ((messages schedule (n - 1)).getLastD 0).setWidth 32 := by
  cases n with
  | zero => cases answered
  | succ n =>
    rw [apbRegRdata_answered powerUp schedule answered, Nat.add_sub_cancel, ← reg0x10_eq]
    rfl

/-- The flag after a cycle. -/
theorem reg0x11_succ (n : Nat) :
    (registersAt powerUp schedule (n + 1)).reg0x11 =
      if (schedule n).env.writes 0x10 then true
      else if apbRegRdByteComplete powerUp schedule n && apbRegRaddr powerUp schedule n == 0x40
        then false
      else (registersAt powerUp schedule n).reg0x11 := by
  rw [registersAt_succ]
  rfl

/-- The flag is right after a cycle if it was right before and is cleared rightly. -/
theorem status_succ (n : Nat)
    (status : (registersAt powerUp schedule n).reg0x11 = true ↔
      messagesReturned powerUp schedule n < (messages schedule n).length) :
    ((registersAt powerUp schedule (n + 1)).reg0x11 = true ↔
      messagesReturned powerUp schedule (n + 1) < (messages schedule (n + 1)).length) ↔
    ClearsRightly powerUp schedule n := by
  have returned : messagesReturned powerUp schedule n ≤ (messages schedule n).length :=
    messagesReturned_le n
  have before : messages schedule (n - 1) <+: messages schedule n := messages_mono (Nat.sub_le n 1)
  rw [reg0x11_succ, messagesReturned, messages, List.length_append, messageAt, ClearsRightly]
  cases written : (schedule n).env.writes 0x10 with
  | true =>
    -- a new message sets the flag whatever is read
    simp only [if_true, List.length_singleton, reduceCtorEq, false_implies, implies_true, iff_true,
      true_iff]
    have shorter := before.length_le
    split <;> omega
  | false =>
    simp only [Bool.false_eq_true, if_false, List.length_nil, Nat.add_zero, true_implies]
    by_cases cleared :
      apbRegRdByteComplete powerUp schedule n = true ∧ apbRegRaddr powerUp schedule n = 0x40
    · obtain ⟨strobe, address⟩ := cleared
      rw [strobe, address]
      simp only [BEq.rfl, Bool.and_self, if_true, true_implies, Bool.false_eq_true, false_iff]
      split
      · constructor
        · intro all
          exact before.eq_of_length_le (Nat.le_of_not_lt all)
        · intro same
          rw [same]
          exact Nat.lt_irrefl _
      · omega
    · have notAnswered : readAnswered (systemAt powerUp schedule n) 0x40 = false := by
        rw [← Bool.not_eq_true]
        intro answered
        have := (keepsUp_systemAt powerUp schedule n).answered answered (schedule n)
        exact cleared ⟨this.1, this.2.1⟩
      have stays : (apbRegRdByteComplete powerUp schedule n &&
          apbRegRaddr powerUp schedule n == 0x40) = false := by
        rw [← Bool.not_eq_true, Bool.and_eq_true, beq_iff_eq]
        exact cleared
      rw [stays, notAnswered]
      simp only [Bool.false_eq_true, if_false, status, true_iff]
      intro strobe address
      exact absurd ⟨strobe, address⟩ cleared

/-- The flag is right in every cycle exactly if it is always cleared rightly. -/
theorem statusRight_iff (powerUp : PowerUp) (schedule : Nat → I2csInstant) :
    (∀ n, StatusRight powerUp schedule n) ↔ ∀ n, ClearsRightly powerUp schedule n := by
  constructor
  · intro right n
    exact (status_succ n (right n).status).mp (right (n + 1)).status
  · intro clears n
    refine ⟨?_, messageRead_data n⟩
    induction n with
    | zero => simp [messages, messagesReturned, registersAt, systemAt, Registers.reset,
        Machine.run_nil, machine, apbI2csSlave]
    | succ n inductionHypothesis => exact (status_succ n inductionHypothesis).mpr (clears n)

end Messages

/-- A read of the message register, in the first access cycle of which a message is written. -/
def lateMessage (n : Nat) : I2csInstant where
  env := if n = 2 then I2cAccess.write 0x10 0x5A else .quiet
  request := if n = 0 then some { write := false, addr := 0x40, data := 0 } else none
  resting := { psel := false, penable := false, access := { write := false, addr := 0, data := 0 } }

/-- The message is marked as read, and the read returned what was there before it. -/
theorem lateMessage_lost : ¬ ∀ n, StatusRight .zero lateMessage n := by
  intro right
  exact absurd (right 4).status (by decide)

end CoreVMcu.I2cs
