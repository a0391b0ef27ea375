import CoreVMcu.Arbitration.PrefixArbiter
import CoreVMcu.Clocked.Machine

/-!
# Round robin

Along every run of the arbiters the priority vector is one-hot, the grant goes to the first
requester at or after it, and no requester is served twice while another one waits.
-/

namespace CoreVMcu.Arbitration

open Clocked

variable {n : Nat} [NeZero n]

/-- Inputs of an arbiter in one cycle. -/
structure ArbiterInput (n : Nat) where
  req : Fin n → Bool
  grantAck : Bool

/-- The priority vector from reset. -/
def priorityMachine (n : Nat) [NeZero n] : Machine (Fin n → Bool) (ArbiterInput n) where
  init := oneHot ⟨0, Nat.pos_of_neZero n⟩
  step priority input := nextPriority priority input.req input.grantAck

/-- `udma_arbiter`. -/
def udmaArbiterMachine (n : Nat) [NeZero n] : Machine (Fin n → Bool) (ArbiterInput n) :=
  priorityMachine n

/-- `soc_event_arbiter`. -/
def socEventArbiterMachine (evntNum : Nat) [NeZero evntNum] :
    Machine (Fin evntNum → Bool) (ArbiterInput evntNum) :=
  priorityMachine evntNum

/-- A lane is granted and acknowledged in a cycle. -/
def serves (lane : Fin n) (priority : Fin n → Bool) (input : ArbiterInput n) : Bool :=
  prefixGrant priority input.req lane && input.grantAck

/-- What an arbiter promises about a run. -/
structure RoundRobin (machine : Machine (Fin n → Bool) (ArbiterInput n))
    (inputs : List (ArbiterInput n)) : Prop where
  oneHot : ∃ position, machine.run inputs = oneHot position
  first : ∀ position, machine.run inputs = Arbitration.oneHot position → ∀ req lane,
    prefixGrant (machine.run inputs) req lane = true ↔ FirstFrom position req lane
  single : ∀ req, (∃ lane, req lane = true) ↔
    ∃! lane, prefixGrant (machine.run inputs) req lane = true
  any : ∀ req, anyGrant (machine.run inputs) req = true ↔ ∃ lane, req lane = true
  fair : ∀ (lane other : Fin n) (i j : Nat) (earlier : i < j) (inside : j < inputs.length),
    lane ≠ other → serves lane (machine.run (inputs.take i)) inputs[i] = true →
    serves lane (machine.run (inputs.take j)) inputs[j] = true →
    (∀ (k : Nat) (within : k ≤ j), i < k → inputs[k].req other = true) →
    ∃ (k : Nat) (within : k < j), i < k ∧
      serves other (machine.run (inputs.take k)) inputs[k] = true

/-! ## One cycle -/

/-- From a position on, a lane comes before another one. -/
def ComesBefore (position other lane : Fin n) : Prop :=
  ∃ d < n, lanesBefore other d = position ∧ ∀ e ≤ d, lanesBefore other e ≠ lane

theorem lanesBefore_val {lane : Fin n} {d : Nat} (inside : d < n) :
    (lanesBefore lane d).val = if d ≤ lane.val then lane.val - d else lane.val + n - d := by
  have bound := lane.isLt
  simp only [lanesBefore, Nat.mod_eq_of_lt inside]
  split
  · next below =>
      have equal : lane.val + (n - d) = lane.val - d + n := by omega
      rw [equal, Nat.add_mod_right]
      exact Nat.mod_eq_of_lt (by omega)
  · next above =>
      rw [← Nat.add_sub_assoc (Nat.le_of_lt inside)]
      exact Nat.mod_eq_of_lt (by omega)

theorem lanesBefore_inj {lane : Fin n} {d e : Nat} (low : d < n) (high : e < n)
    (same : lanesBefore lane d = lanesBefore lane e) : d = e := by
  have values := congrArg Fin.val same
  rw [lanesBefore_val low, lanesBefore_val high] at values
  have bound := lane.isLt
  split at values <;> split at values <;> omega

/-- Behind a lane that has been served every other lane comes before it. -/
theorem comesBefore_of_served {lane other : Fin n} (distinct : lane ≠ other) :
    ComesBefore (lanesBefore lane (n - 1)) other lane := by
  obtain ⟨d, inside, atPosition⟩ := exists_lanesBefore other (lanesBefore lane (n - 1))
  refine ⟨d, inside, atPosition, fun e within same => ?_⟩
  have behind : lanesBefore other (d + 1) = lane := by
    rw [← lanesBefore_lanesBefore, atPosition, lanesBefore_pred_one]
  rcases Nat.lt_or_eq_of_le (Nat.succ_le_of_lt inside) with less | full
  · have equal := lanesBefore_inj (Nat.lt_of_le_of_lt within inside) less
      (same.trans behind.symm)
    omega
  · rw [← Nat.succ_eq_add_one, full, lanesBefore_full] at behind
    exact distinct behind.symm

/-- A lane that requests lets no lane behind it be granted. -/
theorem ComesBefore.not_first {position lane other : Fin n} {req : Fin n → Bool}
    (before : ComesBefore position other lane) (requests : req other = true) :
    ¬FirstFrom position req lane := by
  intro first
  obtain ⟨d, inside, atPosition, absent⟩ := before
  obtain ⟨e, within, firstBefore⟩ := exists_firstFrom_before requests inside atPosition
  exact absent e within (firstBefore.unique first)

/-- When a third lane is served, the order of the two others stays. -/
theorem ComesBefore.step {position lane other served : Fin n} {req : Fin n → Bool}
    (before : ComesBefore position other lane) (requests : req other = true)
    (first : FirstFrom position req served) (distinct : served ≠ other) :
    ComesBefore (lanesBefore served (n - 1)) other lane := by
  obtain ⟨d, inside, atPosition, absent⟩ := before
  obtain ⟨e, within, firstBefore⟩ := exists_firstFrom_before requests inside atPosition
  have reached := firstBefore.unique first
  cases e with
  | zero =>
      rw [lanesBefore_zero] at reached
      exact absurd reached.symm distinct
  | succ e =>
      refine ⟨e, by omega, ?_, fun k below => absent k (by omega)⟩
      have back : lanesBefore (lanesBefore other e) 1 = served := by
        rw [lanesBefore_lanesBefore, reached]
      rw [← back, lanesBefore_one_pred]

theorem serves_iff {lane position : Fin n} {input : ArbiterInput n} :
    serves lane (oneHot position) input = true ↔
      FirstFrom position input.req lane ∧ input.grantAck = true := by
  rw [serves, Bool.and_eq_true, prefixGrant_iff]

/-- One cycle in which a lane that requests is not served. -/
theorem ComesBefore.cycle {position lane other : Fin n} {input : ArbiterInput n}
    (before : ComesBefore position other lane) (requests : input.req other = true)
    (waits : serves other (oneHot position) input = false) :
    ∃ next, nextPriority (oneHot position) input.req input.grantAck = oneHot next ∧
      ComesBefore next other lane := by
  cases acked : input.grantAck with
  | false => exact ⟨position, nextPriority_stays (by simp), before⟩
  | true =>
      obtain ⟨served, first⟩ := exists_firstFrom position ⟨other, requests⟩
      refine ⟨_, nextPriority_granted first, before.step requests first ?_⟩
      rintro rfl
      rw [serves_iff.mpr ⟨first, acked⟩] at waits
      cases waits

/-! ## Runs -/

theorem priority_oneHot (inputs : List (ArbiterInput n)) :
    ∃ position, (priorityMachine n).run inputs = oneHot position :=
  Machine.run_invariant (motive := fun priority => ∃ position, priority = oneHot position)
    ⟨_, rfl⟩ (fun _ input isOneHot => nextPriority_oneHot input.grantAck isOneHot) inputs

/-- A lane that has been served is not served again before another one that requests. -/
theorem served_between {inputs : List (ArbiterInput n)} {lane other : Fin n} {i j : Nat}
    (earlier : i < j) (inside : j < inputs.length) (distinct : lane ≠ other)
    (served : serves lane ((priorityMachine n).run (inputs.take i)) inputs[i] = true)
    (again : serves lane ((priorityMachine n).run (inputs.take j)) inputs[j] = true)
    (requests : ∀ (k : Nat) (within : k ≤ j), i < k → inputs[k].req other = true) :
    ∃ (k : Nat) (within : k < j), i < k ∧
      serves other ((priorityMachine n).run (inputs.take k)) inputs[k] = true := by
  by_contra never
  -- while the other lane waits, it comes before the lane that was served
  have order : ∀ k, (within : k ≤ j) → i < k → ∃ position,
      (priorityMachine n).run (inputs.take k) = oneHot position ∧
        ComesBefore position other lane := by
    intro k
    induction k with
    | zero => exact fun _ late => absurd late (Nat.not_lt_zero i)
    | succ k inductionHypothesis =>
        intro within late
        have here : k < inputs.length := by omega
        rw [Machine.run_take_succ _ here]
        rcases Nat.lt_or_eq_of_le (Nat.le_of_lt_succ late) with after | rfl
        · obtain ⟨position, atPosition, before⟩ := inductionHypothesis (by omega) after
          rw [atPosition]
          refine before.cycle (requests k (by omega) after) ?_
          rw [← Bool.not_eq_true, ← atPosition]
          exact fun serving => never ⟨k, within, after, serving⟩
        · obtain ⟨position, atPosition⟩ := priority_oneHot (inputs.take i)
          rw [atPosition, serves_iff] at served
          rw [atPosition]
          change ∃ next, nextPriority (oneHot position) inputs[i].req inputs[i].grantAck = _ ∧ _
          rw [served.2]
          exact ⟨_, nextPriority_granted served.1, comesBefore_of_served distinct⟩
  obtain ⟨position, atPosition, before⟩ := order j (Nat.le_refl j) earlier
  rw [atPosition, serves_iff] at again
  exact before.not_first (requests j (Nat.le_refl j) earlier) again.1

theorem priorityMachine_roundRobin (inputs : List (ArbiterInput n)) :
    RoundRobin (priorityMachine n) inputs where
  oneHot := priority_oneHot inputs
  first := by
    intro position atPosition req lane
    rw [atPosition]
    exact prefixGrant_iff position lane
  single := by
    intro req
    obtain ⟨position, atPosition⟩ := priority_oneHot inputs
    rw [atPosition]
    simp only [prefixGrant_iff]
    constructor
    · intro high
      obtain ⟨lane, first⟩ := exists_firstFrom position high
      exact ⟨lane, first, fun other second => second.unique first⟩
    · rintro ⟨lane, first, -⟩
      exact ⟨lane, first.1⟩
  any := fun _ => anyGrant_iff
  fair := fun _ _ _ _ earlier inside distinct served again requests =>
    served_between earlier inside distinct served again requests

/-- Both arbiters, for every number of requesters from two on and every history. -/
theorem arbiters_roundRobin (others : Nat) (inputs : List (ArbiterInput (others + 2))) :
    RoundRobin (udmaArbiterMachine (others + 2)) inputs ∧
      RoundRobin (socEventArbiterMachine (others + 2)) inputs :=
  ⟨priorityMachine_roundRobin inputs, priorityMachine_roundRobin inputs⟩

end CoreVMcu.Arbitration
