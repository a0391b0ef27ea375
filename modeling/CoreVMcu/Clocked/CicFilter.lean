import Mathlib.Algebra.Ring.GeomSum
import Mathlib.Algebra.Order.BigOperators.Group.Finset
import Mathlib.RingTheory.PowerSeries.WellKnown

/-!
# Integrators, combs and decimation

A signal is the formal series of its samples.  An integrator sums the samples before each one
and a comb, which works on every `ratio`-th sample, subtracts the sample before.  A chain of
both responds with the convolution with a power of `1 + X + ... + X ^ (ratio - 1)`, in every
commutative ring: the sums may wrap, the differences take it back.
-/

namespace Clocked.Cic

open PowerSeries Finset

variable {A : Type*} [CommRing A]

/-! ## The stages -/

/-- What an integrator holds before each sample. -/
noncomputable def integrated (signal : PowerSeries A) : PowerSeries A :=
  X * (PowerSeries.mk 1 * signal)

/-- What a comb holds before each of its samples, one sample of its own later. -/
noncomputable def combed (ratio : Nat) (signal : PowerSeries A) : PowerSeries A :=
  X ^ ratio * ((1 - X ^ ratio) * signal)

/-- The `k`-th of the samples that are kept, each the last one of its `ratio`. -/
noncomputable def decimated (ratio k : Nat) (signal : PowerSeries A) : A :=
  coeff (k * ratio + (ratio - 1)) signal

/-- The sum of `ratio` successive samples. -/
noncomputable def boxcar (ratio : Nat) : PowerSeries A := ∑ i ∈ range ratio, X ^ i

@[simp] theorem coeff_zero_integrated (signal : PowerSeries A) :
    coeff 0 (integrated signal) = 0 :=
  coeff_zero_X_mul _

/-- An integrator adds a sample. -/
theorem coeff_succ_integrated (signal : PowerSeries A) (n : Nat) :
    coeff (n + 1) (integrated signal) = coeff n (integrated signal) + coeff n signal := by
  have once : integrated signal * (1 - X) = X * signal := by
    rw [integrated, mul_assoc, mul_right_comm, mk_one_mul_one_sub_eq_one, one_mul]
  have step : integrated signal = X * (integrated signal + signal) := by
    rw [mul_add, ← once]
    ring
  rw [step, coeff_succ_X_mul, ← step, map_add]

section Decimated

variable {ratio : Nat} (signal : PowerSeries A)

theorem decimated_delayed_zero (pos : 0 < ratio) :
    decimated ratio 0 (X ^ ratio * signal) = 0 := by
  rw [decimated, coeff_X_pow_mul', if_neg]
  omega

theorem decimated_delayed_succ (k : Nat) :
    decimated ratio (k + 1) (X ^ ratio * signal) = decimated ratio k signal := by
  have later : (k + 1) * ratio + (ratio - 1) = k * ratio + (ratio - 1) + ratio := by
    rw [Nat.succ_mul]
    omega
  rw [decimated, later, coeff_X_pow_mul]
  rfl

@[simp] theorem decimated_combed_zero (pos : 0 < ratio) :
    decimated ratio 0 (combed ratio signal) = 0 :=
  decimated_delayed_zero _ pos

/-- A comb subtracts the sample before. -/
theorem decimated_combed_succ (k : Nat) :
    decimated ratio (k + 1) (combed ratio signal) =
      decimated ratio k signal - decimated ratio k (X ^ ratio * signal) := by
  rw [combed, decimated_delayed_succ, sub_mul, one_mul, decimated, map_sub]
  rfl

end Decimated

theorem combed_mul (ratio : Nat) (factor signal : PowerSeries A) :
    combed ratio (factor * signal) = factor * combed ratio signal := by
  rw [combed, combed]
  ring

theorem combed_iterate_mul (ratio n : Nat) (factor signal : PowerSeries A) :
    (combed ratio)^[n] (factor * signal) = factor * (combed ratio)^[n] signal := by
  have commutes : Function.Commute (combed ratio) (factor * · : PowerSeries A → PowerSeries A) :=
    combed_mul ratio factor
  exact (commutes.iterate_left n) signal

/-- A comb takes back what an integrator summed, but for the last `ratio` samples. -/
theorem combed_integrated (ratio : Nat) (signal : PowerSeries A) :
    combed ratio (integrated signal) = X ^ (ratio + 1) * boxcar ratio * signal := by
  have sum : (1 - X ^ ratio : PowerSeries A) = (1 - X) * boxcar ratio :=
    (mul_neg_geom_sum X ratio).symm
  have unit : (PowerSeries.mk 1 * (1 - X) : PowerSeries A) = 1 := mk_one_mul_one_sub_eq_one A
  calc combed ratio (integrated signal)
      = X ^ (ratio + 1) * boxcar ratio * signal * (PowerSeries.mk 1 * (1 - X)) := by
        rw [combed, integrated, sum]
        ring
    _ = X ^ (ratio + 1) * boxcar ratio * signal := by rw [unit, mul_one]

/-- The response of a chain. -/
theorem combed_integrated_iterate (ratio n : Nat) (signal : PowerSeries A) :
    (combed ratio)^[n] (integrated^[n] signal) =
      X ^ (n * (ratio + 1)) * (boxcar ratio ^ n * signal) := by
  induction n with
  | zero => simp
  | succ n inductionHypothesis =>
      rw [Function.iterate_succ_apply, Function.iterate_succ_apply', combed_integrated,
        combed_iterate_mul, inductionHypothesis, Nat.succ_mul]
      ring

/-! ## Signals of integers -/

/-- The response to integers, taken in another ring. -/
theorem coeff_boxcar_intCast (ratio n m : Nat) (samples : Nat → ℤ) :
    coeff m (boxcar ratio ^ n * PowerSeries.mk fun i => (samples i : A)) =
      ((coeff m (boxcar ratio ^ n * PowerSeries.mk samples) : ℤ) : A) := by
  have boxcars : (PowerSeries.map (Int.castRingHom A)) (boxcar ratio) = boxcar ratio := by
    simp [boxcar]
  have signals : (PowerSeries.map (Int.castRingHom A)) (PowerSeries.mk samples) =
      PowerSeries.mk fun i => (samples i : A) := by
    ext i
    simp
  rw [← signals, ← boxcars, ← map_pow, ← map_mul, coeff_map]
  rfl

section Bound

variable {ratio : Nat} {samples : Nat → ℤ}

/-- One more factor adds `ratio` successive values. -/
theorem coeff_boxcar_succ (ratio n m : Nat) (samples : Nat → ℤ) :
    coeff m (boxcar ratio ^ (n + 1) * PowerSeries.mk samples) =
      ∑ i ∈ range ratio,
        if i ≤ m then coeff (m - i) (boxcar ratio ^ n * PowerSeries.mk samples) else 0 := by
  rw [pow_succ', mul_assoc]
  nth_rewrite 1 [boxcar]
  rw [sum_mul, map_sum]
  exact sum_congr rfl fun i _ => coeff_X_pow_mul' _ i m

/-- The response to samples of size one. -/
theorem abs_coeff_boxcar_le (small : ∀ i, |samples i| ≤ 1) (n m : Nat) :
    |coeff m (boxcar ratio ^ n * PowerSeries.mk samples)| ≤ (ratio : ℤ) ^ n := by
  induction n generalizing m with
  | zero => simpa using small m
  | succ n inductionHypothesis =>
      rw [coeff_boxcar_succ]
      calc |∑ i ∈ range ratio,
            if i ≤ m then coeff (m - i) (boxcar ratio ^ n * PowerSeries.mk samples) else 0|
          ≤ ∑ i ∈ range ratio,
            |if i ≤ m then coeff (m - i) (boxcar ratio ^ n * PowerSeries.mk samples) else 0| :=
            abs_sum_le_sum_abs _ _
        _ ≤ ∑ _i ∈ range ratio, (ratio : ℤ) ^ n := by
            apply sum_le_sum
            intro i _
            split
            · exact inductionHypothesis (m - i)
            · rw [abs_zero]
              positivity
        _ = (ratio : ℤ) ^ (n + 1) := by
            rw [sum_const, card_range, nsmul_eq_mul, pow_succ']

/-- All the samples that a value of the response depends on are one. -/
def AllOnes (samples : Nat → ℤ) (length m : Nat) : Prop :=
  ∀ i, i ≤ length → i ≤ m ∧ samples (m - i) = 1

/-- Windows of `long + 1` samples that begin at each of `short + 1` places are one window. -/
theorem allOnes_add (short long m : Nat) :
    (∀ i, i ≤ short → i ≤ m ∧ AllOnes samples long (m - i)) ↔
      AllOnes samples (long + short) m := by
  constructor
  · intro windows i inside
    obtain ⟨first, second, sum, firstLe, secondLe⟩ :
        ∃ first second, i = first + second ∧ first ≤ short ∧ second ≤ long :=
      ⟨min i short, i - min i short, by omega, by omega, by omega⟩
    obtain ⟨before, window⟩ := windows first firstLe
    obtain ⟨beforeToo, one⟩ := window second secondLe
    rw [Nat.sub_sub, ← sum] at one
    exact ⟨by omega, one⟩
  · intro window i inside
    refine ⟨(window i (Nat.le_trans inside (Nat.le_add_left short long))).1, ?_⟩
    intro j insideToo
    obtain ⟨before, one⟩ := window (i + j) (by omega)
    rw [Nat.sub_sub]
    exact ⟨by omega, one⟩

/-- The response is as large as it can be exactly where all samples are one. -/
theorem coeff_boxcar_eq_iff (pos : 0 < ratio) (small : ∀ i, |samples i| ≤ 1) (n m : Nat) :
    coeff m (boxcar ratio ^ n * PowerSeries.mk samples) = (ratio : ℤ) ^ n ↔
      AllOnes samples (n * (ratio - 1)) m := by
  induction n generalizing m with
  | zero =>
      simp only [pow_zero, one_mul, coeff_mk, Nat.zero_mul, AllOnes, Nat.le_zero_eq, forall_eq,
        Nat.zero_le, true_and, Nat.sub_zero]
  | succ n inductionHypothesis =>
      have bound : ∀ i ∈ range ratio,
          (if i ≤ m then coeff (m - i) (boxcar ratio ^ n * PowerSeries.mk samples) else 0) ≤
            (ratio : ℤ) ^ n := by
        intro i _
        split
        · exact le_of_abs_le (abs_coeff_boxcar_le small n (m - i))
        · positivity
      have total : (ratio : ℤ) ^ (n + 1) = ∑ _i ∈ range ratio, (ratio : ℤ) ^ n := by
        rw [sum_const, card_range, nsmul_eq_mul, pow_succ']
      have full : 0 < (ratio : ℤ) ^ n := by positivity
      have term : ∀ i, (if i ≤ m then coeff (m - i) (boxcar ratio ^ n * PowerSeries.mk samples)
          else 0) = (ratio : ℤ) ^ n ↔ i ≤ m ∧ AllOnes samples (n * (ratio - 1)) (m - i) := by
        intro i
        split
        · next inside => rw [inductionHypothesis, and_iff_right inside]
        · next outside =>
            exact ⟨fun zero => absurd zero full.ne, fun both => absurd both.1 outside⟩
      rw [coeff_boxcar_succ, total, sum_eq_sum_iff_of_le bound, Nat.succ_mul, ← allOnes_add]
      apply forall_congr'
      intro i
      rw [term, mem_range]
      exact imp_congr_left (by omega)

end Bound

end Clocked.Cic
