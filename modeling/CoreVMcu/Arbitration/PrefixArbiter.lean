import CoreVMcu.Clocked.Lanes
import Mathlib.Data.List.FinRange
import Mathlib.Algebra.Ring.Nat
import Mathlib.Data.Nat.Log

/-!
# The parallel prefix arbiter

`udma_arbiter` and `soc_event_arbiter` are one design: a parallel prefix network
over the requests and a one-hot priority vector that moves next to the granted
output.  The network is compared with what it is for: the grant goes to the first
requester at or cyclically after the priority position.
-/

namespace CoreVMcu.Arbitration

open Clocked

variable {n : Nat} [NeZero n]

/-- The lane `k` positions before a lane, cyclically. -/
def lanesBefore (lane : Fin n) (k : Nat) : Fin n :=
  ⟨(lane + (n - k % n)) % n, Nat.mod_lt _ (Nat.pos_of_neZero n)⟩

theorem lanesBefore_zero (lane : Fin n) : lanesBefore lane 0 = lane := by
  apply Fin.ext
  simp [lanesBefore, Nat.mod_eq_of_lt lane.isLt]

theorem lanesBefore_full (lane : Fin n) : lanesBefore lane n = lane := by
  apply Fin.ext
  simp [lanesBefore, Nat.mod_eq_of_lt lane.isLt]

theorem lanesBefore_lanesBefore (lane : Fin n) (k l : Nat) :
    lanesBefore (lanesBefore lane k) l = lanesBefore lane (k + l) := by
  apply Fin.ext
  have positive : 0 < n := Nat.pos_of_neZero n
  have bounds := And.intro (Nat.mod_lt k positive) (Nat.mod_lt l positive)
  simp only [lanesBefore]
  rw [Nat.add_mod k l n, Nat.mod_add_mod]
  by_cases wraps : k % n + l % n < n
  · rw [Nat.mod_eq_of_lt wraps]
    have equal : lane.val + (n - k % n) + (n - l % n) =
        lane.val + (n - (k % n + l % n)) + n := by omega
    rw [equal, Nat.add_mod_right]
  · rw [Nat.mod_eq_sub_mod (Nat.le_of_not_lt wraps),
      Nat.mod_eq_of_lt (by omega : k % n + l % n - n < n)]
    congr 1
    omega

/-- The position `k` lanes below, when that does not wrap. -/
theorem lanesBefore_eq (lane target : Fin n) (k : Nat)
    (below : target.val + k = lane.val) : lanesBefore lane k = target := by
  apply Fin.ext
  simp only [lanesBefore]
  rw [Nat.mod_eq_of_lt (by omega : k < n),
    show lane.val + (n - k) = target.val + n by omega, Nat.add_mod_right,
    Nat.mod_eq_of_lt target.isLt]

/-- The position `k` lanes below, when that wraps. -/
theorem lanesBefore_eq_wrap (lane target : Fin n) (k : Nat) (bound : k ≤ n)
    (below : target.val + k = lane.val + n) : lanesBefore lane k = target := by
  rcases Nat.lt_or_eq_of_le bound with bound | rfl
  · apply Fin.ext
    simp only [lanesBefore]
    rw [Nat.mod_eq_of_lt bound, show lane.val + (n - k) = target.val by omega,
      Nat.mod_eq_of_lt target.isLt]
  · rw [lanesBefore_full]
    exact Fin.ext (by omega)

/-- The positions before a lane reach every lane. -/
theorem exists_lanesBefore (lane target : Fin n) :
    ∃ k < n, lanesBefore lane k = target := by
  by_cases below : target.val ≤ lane.val
  · exact ⟨lane.val - target.val, by omega, lanesBefore_eq _ _ _ (by omega)⟩
  · exact ⟨lane.val + n - target.val, by omega, lanesBefore_eq_wrap _ _ _ (by omega) (by omega)⟩

/-- The generate and propagate vectors `g[level]` and `p[level]`. -/
def prefixLevel (priority req : Fin n → Bool) : Nat → (Fin n → Bool) × (Fin n → Bool)
  | 0 => (priority, fun lane => !req (lanesBefore lane 1))
  | level + 1 =>
      let (g, p) := prefixLevel priority req level
      (fun lane => g lane || (p lane && g (lanesBefore lane (2 ^ level))),
        fun lane => p lane && p (lanesBefore lane (2 ^ level)))

/-- `S`, the number of prefix levels. -/
def levels (n : Nat) : Nat := Nat.clog 2 n

/-- `gnt` of the arbiters. -/
def prefixGrant (priority req : Fin n → Bool) (lane : Fin n) : Bool :=
  req lane && (prefixLevel priority req (levels n)).1 lane

/-- `anyGnt` of the arbiters, read from two lanes of the last propagate level. -/
def anyGrant (priority req : Fin n → Bool) : Bool :=
  let p := (prefixLevel priority req (levels n - 1)).2
  !(p ⟨n - 1, Nat.sub_lt (Nat.pos_of_neZero n) Nat.one_pos⟩ &&
    p ⟨n / 2 - 1, by have := Nat.pos_of_neZero n; omega⟩)

/-- The next `r_priority`: the grant vector shifted by one lane. -/
def nextPriority (priority req : Fin n → Bool) (ack : Bool) (lane : Fin n) : Bool :=
  if anyGrant priority req && ack then prefixGrant priority req (lanesBefore lane 1)
  else priority lane

variable {priority req : Fin n → Bool} {lane : Fin n}

/-- No lane of the `2 ^ level` lanes below propagates a request. -/
theorem propagate_iff (level : Nat) (lane : Fin n) :
    (prefixLevel priority req level).2 lane = true ↔
      ∀ k < 2 ^ level, req (lanesBefore lane (k + 1)) = false := by
  induction level generalizing lane with
  | zero => simp [prefixLevel]
  | succ level inductionHypothesis =>
      simp only [prefixLevel, Bool.and_eq_true, inductionHypothesis, lanesBefore_lanesBefore]
      constructor
      · rintro ⟨near, far⟩ k bound
        by_cases below : k < 2 ^ level
        · exact near k below
        · have quiet := far (k - 2 ^ level) (by omega)
          rwa [show 2 ^ level + (k - 2 ^ level + 1) = k + 1 by omega] at quiet
      · intro quiet
        refine ⟨fun k bound => quiet k (by omega), fun k bound => ?_⟩
        rw [show 2 ^ level + (k + 1) = (2 ^ level + k) + 1 by omega]
        exact quiet _ (by omega)

/-- A priority reaches a lane over lanes that do not request. -/
theorem generate_iff (level : Nat) (lane : Fin n) :
    (prefixLevel priority req level).1 lane = true ↔
      ∃ d < 2 ^ level, priority (lanesBefore lane d) = true ∧
        ∀ k < d, req (lanesBefore lane (k + 1)) = false := by
  induction level generalizing lane with
  | zero => simp [prefixLevel, lanesBefore_zero]
  | succ level inductionHypothesis =>
      simp only [prefixLevel, Bool.or_eq_true, Bool.and_eq_true, inductionHypothesis,
        propagate_iff, lanesBefore_lanesBefore]
      constructor
      · rintro (⟨d, bound, reached, quiet⟩ | ⟨near, d, bound, reached, quiet⟩)
        · exact ⟨d, by omega, reached, quiet⟩
        · refine ⟨2 ^ level + d, by omega, reached, fun k below => ?_⟩
          by_cases first : k < 2 ^ level
          · exact near k first
          · have later := quiet (k - 2 ^ level) (by omega)
            rwa [show 2 ^ level + (k - 2 ^ level + 1) = k + 1 by omega] at later
      · rintro ⟨d, bound, reached, quiet⟩
        by_cases first : d < 2 ^ level
        · exact .inl ⟨d, first, reached, quiet⟩
        · refine .inr ⟨fun k below => quiet k (by omega), d - 2 ^ level, by omega, ?_, ?_⟩
          · rwa [show 2 ^ level + (d - 2 ^ level) = d by omega]
          · intro k below
            rw [show 2 ^ level + (k + 1) = (2 ^ level + k) + 1 by omega]
            exact quiet _ (by omega)

/-! ## What the network computes -/

/-- A lane requests and is the first one that does at or after a position. -/
def FirstFrom (position : Fin n) (req : Fin n → Bool) (lane : Fin n) : Prop :=
  req lane = true ∧ ∃ d < n, lanesBefore lane d = position ∧
    ∀ k < d, req (lanesBefore lane (k + 1)) = false

/-- Only one lane is first. -/
theorem FirstFrom.unique {position lane other : Fin n} (first : FirstFrom position req lane)
    (second : FirstFrom position req other) : lane = other := by
  have ordered : ∀ {lane other : Fin n} {d e : Nat}, d ≤ e → e < n → req lane = true →
      lanesBefore lane d = position → lanesBefore other e = position →
      (∀ k < e, req (lanesBefore other (k + 1)) = false) → lane = other := by
    intro lane other d e le bound high atLane atOther quiet
    have between : lanesBefore other (e - d) = lane := by
      have shifted : lanesBefore (lanesBefore other e) (n - d) =
          lanesBefore (lanesBefore lane d) (n - d) := by rw [atLane, atOther]
      rw [lanesBefore_lanesBefore, lanesBefore_lanesBefore,
        show e + (n - d) = (e - d) + n by omega, show d + (n - d) = n by omega,
        ← lanesBefore_lanesBefore, lanesBefore_full, lanesBefore_full] at shifted
      exact shifted
    cases gap : e - d with
    | zero => rw [← between, gap, lanesBefore_zero]
    | succ k =>
        have low := quiet k (by omega)
        rw [← gap, between, high] at low
        cases low
  obtain ⟨high, d, dBound, atLane, quiet⟩ := first
  obtain ⟨high', e, eBound, atOther, quiet'⟩ := second
  rcases Nat.le_total d e with le | le
  · exact ordered le eBound high atLane atOther quiet'
  · exact (ordered le dBound high' atOther atLane quiet).symm

/-- The first lane is not behind a lane that requests. -/
theorem exists_firstFrom_before {position lane : Fin n} (high : req lane = true) {d : Nat}
    (bound : d < n) (atLane : lanesBefore lane d = position) :
    ∃ e ≤ d, FirstFrom position req (lanesBefore lane e) := by
  -- descend from the requester towards the position to the last requester met
  induction d using Nat.strongRecOn generalizing lane with
  | ind d inductionHypothesis =>
      by_cases quiet : ∀ k < d, req (lanesBefore lane (k + 1)) = false
      · refine ⟨0, Nat.zero_le d, ?_⟩
        rw [lanesBefore_zero]
        exact ⟨high, d, bound, atLane, quiet⟩
      · push Not at quiet
        obtain ⟨k, below, busy⟩ := quiet
        obtain ⟨e, inside, first⟩ := @inductionHypothesis (d - (k + 1)) (by omega)
          (lanesBefore lane (k + 1)) (by simpa using busy) (by omega) (by
            rw [lanesBefore_lanesBefore, show k + 1 + (d - (k + 1)) = d by omega, atLane])
        rw [lanesBefore_lanesBefore] at first
        exact ⟨k + 1 + e, by omega, first⟩

/-- Some lane is first when some lane requests. -/
theorem exists_firstFrom (position : Fin n) (high : ∃ lane, req lane = true) :
    ∃ lane, FirstFrom position req lane := by
  obtain ⟨lane, high⟩ := high
  obtain ⟨d, bound, atLane⟩ := exists_lanesBefore lane position
  obtain ⟨e, _, first⟩ := exists_firstFrom_before high bound atLane
  exact ⟨_, first⟩

/-- The one-hot vector of a position. -/
def oneHot (position : Fin n) (lane : Fin n) : Bool := decide (lane = position)

theorem le_two_pow_levels (n : Nat) : n ≤ 2 ^ levels n :=
  Nat.le_pow_clog (by omega) n

/-- With a one-hot priority the grant goes to the first requester at or after
it. -/
theorem prefixGrant_iff (position lane : Fin n) :
    prefixGrant (oneHot position) req lane = true ↔ FirstFrom position req lane := by
  simp only [prefixGrant, Bool.and_eq_true, generate_iff, oneHot, decide_eq_true_eq,
    FirstFrom]
  refine and_congr_right fun high => ⟨?_, ?_⟩
  · rintro ⟨d, -, atLane, quiet⟩
    refine ⟨d, ?_, atLane, quiet⟩
    by_contra beyond
    have low := quiet (n - 1) (by have := Nat.pos_of_neZero n; omega)
    rw [show n - 1 + 1 = n by have := Nat.pos_of_neZero n; omega, lanesBefore_full, high] at low
    cases low
  · rintro ⟨d, bound, atLane, quiet⟩
    exact ⟨d, Nat.lt_of_lt_of_le bound (le_two_pow_levels n), atLane, quiet⟩

/-- `anyGnt` tells whether some lane requests: the two propagate windows that it
reads cover all lanes. -/
theorem anyGrant_iff : anyGrant priority req = true ↔ ∃ lane, req lane = true := by
  have positive : 0 < n := Nat.pos_of_neZero n
  have half : n ≤ 2 * 2 ^ (levels n - 1) := by
    have wide := le_two_pow_levels n
    cases height : levels n with
    | zero => rw [height] at wide; omega
    | succ level => rwa [height, Nat.pow_succ, Nat.mul_comm] at wide
  rw [← not_iff_not]
  simp only [anyGrant, Bool.not_eq_true, Bool.not_eq_false', Bool.and_eq_true, propagate_iff,
    not_exists]
  constructor
  · rintro ⟨upper, lower⟩ lane
    by_cases top : lane.val + 1 = n
    · rw [← lanesBefore_eq_wrap ⟨n / 2 - 1, by omega⟩ lane (n / 2 - 1 + 1) (by omega)
        (by simp only; omega)]
      exact lower _ (by omega)
    · by_cases near : n - 2 - lane.val < 2 ^ (levels n - 1)
      · rw [← lanesBefore_eq ⟨n - 1, by omega⟩ lane (n - 2 - lane.val + 1) (by simp only; omega)]
        exact upper _ near
      · rw [← lanesBefore_eq ⟨n / 2 - 1, by omega⟩ lane (n / 2 - 2 - lane.val + 1)
          (by simp only; omega)]
        exact lower _ (by omega)
  · intro quiet
    exact ⟨fun k _ => quiet _, fun k _ => quiet _⟩

/-! ## The arbiter -/

/-- `r_priority`, a one-hot vector. -/
def Priority (n : Nat) [NeZero n] : Type :=
  { priority : Fin n → Bool // ∃ position, priority = oneHot position }

/-- The lane after a lane, cyclically. -/
theorem lanesBefore_pred_one (lane : Fin n) :
    lanesBefore (lanesBefore lane (n - 1)) 1 = lane := by
  rw [lanesBefore_lanesBefore, Nat.sub_add_cancel (Nat.pos_of_neZero n), lanesBefore_full]

theorem lanesBefore_one_pred (lane : Fin n) :
    lanesBefore (lanesBefore lane 1) (n - 1) = lane := by
  rw [lanesBefore_lanesBefore, Nat.add_sub_cancel' (Nat.pos_of_neZero n), lanesBefore_full]

/-- The priority moves behind the lane that is granted and acknowledged. -/
theorem nextPriority_granted {position : Fin n} (first : FirstFrom position req lane) :
    nextPriority (oneHot position) req true = oneHot (lanesBefore lane (n - 1)) := by
  have moves : (anyGrant (oneHot position) req && true) = true := by
    rw [anyGrant_iff.mpr ⟨lane, first.1⟩]
    rfl
  refine funext fun other => ?_
  rw [nextPriority, if_pos moves, oneHot, Bool.eq_iff_iff, prefixGrant_iff, decide_eq_true_eq]
  constructor
  · intro second
    rw [first.unique second, lanesBefore_one_pred]
  · rintro rfl
    rwa [lanesBefore_pred_one]

/-- The priority stays without a request or an acknowledge. -/
theorem nextPriority_stays {ack : Bool} (stays : ¬(ack = true ∧ ∃ lane, req lane = true)) :
    nextPriority priority req ack = priority := by
  refine funext fun other => ?_
  rw [nextPriority, if_neg]
  rw [Bool.and_eq_true, anyGrant_iff]
  exact fun both => stays both.symm

/-- The priority vector stays one-hot: it points behind the lane granted last. -/
theorem nextPriority_oneHot (ack : Bool) (isOneHot : ∃ position, priority = oneHot position) :
    ∃ position, nextPriority priority req ack = oneHot position := by
  obtain ⟨position, rfl⟩ := isOneHot
  by_cases moves : ack = true ∧ ∃ lane, req lane = true
  · obtain ⟨rfl, busy⟩ := moves
    obtain ⟨lane, first⟩ := exists_firstFrom position busy
    exact ⟨_, nextPriority_granted first⟩
  · exact ⟨position, nextPriority_stays moves⟩

/-- The arbiter as a grant policy: its one-hot grant vector is the lane it
picks. -/
def prefixArbiter (n : Nat) [NeZero n] : Arbiter n where
  State := Priority n
  init := ⟨oneHot ⟨0, Nat.pos_of_neZero n⟩, _, rfl⟩
  grant priority req := (List.finRange n).find? (prefixGrant priority.val req)
  next priority req ack :=
    ⟨nextPriority priority.val req ack, nextPriority_oneHot ack priority.property⟩
  requested granted := by
    have selected := List.find?_some granted
    rw [prefixGrant, Bool.and_eq_true] at selected
    exact selected.1
  busy {priority _ _} high := by
    obtain ⟨position, equal⟩ := priority.property
    obtain ⟨lane, first⟩ := exists_firstFrom position ⟨_, high⟩
    rw [List.find?_isSome, equal]
    exact ⟨lane, List.mem_finRange lane, (prefixGrant_iff position lane).mpr first⟩

/-- `udma_arbiter`. -/
def udmaArbiter (n : Nat) [NeZero n] : Arbiter n := prefixArbiter n

/-- `soc_event_arbiter`. -/
def socEventArbiter (evntNum : Nat) [NeZero evntNum] : Arbiter evntNum :=
  prefixArbiter evntNum

end CoreVMcu.Arbitration
