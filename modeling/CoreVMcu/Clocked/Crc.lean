import Mathlib.Algebra.CharP.Two
import Mathlib.Algebra.Field.ZMod
import Mathlib.Algebra.Polynomial.Div
import Mathlib.Tactic.LinearCombination

/-!
# Cyclic redundancy checks

A shift register with feedback divides a sequence of bits by a polynomial.  Its content is the
remainder of the sequence, followed by as many zeros as the register has bits, over the field
of two elements.
-/

namespace Clocked.Crc

open Polynomial

variable {w : Nat}

/-- A bit as a coefficient. -/
def coefficient (bit : Bool) : ZMod 2 := if bit then 1 else 0

theorem coefficient_xor (a b : Bool) : coefficient (a ^^ b) = coefficient a + coefficient b := by
  cases a <;> cases b <;> decide

/-- The polynomial of a word: bit `i` is the coefficient of `X ^ i`. -/
noncomputable def toPoly (crc : BitVec w) : (ZMod 2)[X] :=
  ∑ i ∈ Finset.range w, monomial i (coefficient (crc.getLsbD i))

theorem coeff_toPoly (crc : BitVec w) (n : Nat) :
    (toPoly crc).coeff n = coefficient (crc.getLsbD n) := by
  simp only [toPoly, finsetSum_coeff, coeff_monomial]
  by_cases inside : n < w
  · simp [inside]
  · simp [inside, coefficient, BitVec.getLsbD_of_ge crc n (Nat.le_of_not_lt inside)]

theorem degree_toPoly_lt (crc : BitVec w) : (toPoly crc).degree < w := by
  rw [degree_lt_iff_coeff_zero]
  intro n above
  rw [coeff_toPoly, BitVec.getLsbD_of_ge crc n above]
  rfl

theorem toPoly_xor (a b : BitVec w) : toPoly (a ^^^ b) = toPoly a + toPoly b := by
  ext n
  rw [coeff_add, coeff_toPoly, coeff_toPoly, coeff_toPoly, BitVec.getLsbD_xor, coefficient_xor]

@[simp] theorem toPoly_zero : toPoly 0#w = 0 := by
  ext n
  simp [coeff_toPoly, coefficient]

/-- The polynomial of a sequence: its first bit is the coefficient of the highest power. -/
noncomputable def message (bits : List Bool) : (ZMod 2)[X] :=
  bits.foldl (fun poly bit => poly * X + C (coefficient bit)) 0

@[simp] theorem message_nil : message [] = 0 := rfl

theorem message_snoc (bits : List Bool) (bit : Bool) :
    message (bits ++ [bit]) = message bits * X + C (coefficient bit) := by
  rw [message, List.foldl_append]
  rfl

/-- The check of a sequence: the coefficients of its remainder, the highest one first. -/
noncomputable def check (w : Nat) (generator : (ZMod 2)[X]) (bits : List Bool) : List Bool :=
  (List.range w).map fun i =>
    decide ((message bits * X ^ w %ₘ generator).coeff (w - 1 - i) = 1)

/-! ## The register -/

/-- `X ^ w` and the powers that the feedback reaches. -/
noncomputable def generator (taps : BitVec w) : (ZMod 2)[X] := X ^ w + toPoly taps

theorem degree_generator (taps : BitVec w) : (generator taps).degree = w := by
  rw [generator, degree_add_eq_left_of_degree_lt, degree_X_pow]
  rw [degree_X_pow]
  exact degree_toPoly_lt taps

theorem generator_monic (taps : BitVec w) : (generator taps).Monic :=
  monic_X_pow_add (degree_toPoly_lt taps)

/-- One bit is taken into the register: what leaves it is added to the bit and fed back. -/
def feed (taps crc : BitVec w) (data : Bool) : BitVec w :=
  (crc <<< 1) ^^^ (if data ^^ crc.getLsbD (w - 1) then taps else 0)

/-- The register after a sequence. -/
def register (taps crc : BitVec w) (bits : List Bool) : BitVec w := bits.foldl (feed taps) crc

@[simp] theorem register_nil (taps crc : BitVec w) : register taps crc [] = crc := rfl

theorem register_cons (taps crc : BitVec w) (bit : Bool) (bits : List Bool) :
    register taps crc (bit :: bits) = register taps (feed taps crc bit) bits := rfl

theorem register_append (taps crc : BitVec w) (bits more : List Bool) :
    register taps crc (bits ++ more) = register taps (register taps crc bits) more :=
  List.foldl_append

theorem toPoly_shift (pos : 0 < w) (crc : BitVec w) :
    toPoly (crc <<< 1) + C (coefficient (crc.getLsbD (w - 1))) * X ^ w = toPoly crc * X := by
  ext n
  rw [coeff_add, coeff_toPoly, coeff_C_mul, coeff_X_pow, BitVec.getLsbD_shiftLeft]
  cases n with
  | zero => simp [coefficient, pos.ne]
  | succ n =>
      rw [coeff_mul_X, coeff_toPoly]
      rcases Nat.lt_trichotomy (n + 1) w with inside | last | outside
      · simp [inside, inside.ne]
      · subst last
        simp [coefficient]
      · have above := BitVec.getLsbD_of_ge crc n (Nat.le_of_lt_succ outside)
        simp [Nat.not_lt.mpr outside.le, outside.ne', above, coefficient]

/-- Taking a bit multiplies by `X`, adds the bit at the top and divides. -/
theorem toPoly_feed (pos : 0 < w) (taps crc : BitVec w) (data : Bool) :
    toPoly (feed taps crc data) =
      (toPoly crc * X + C (coefficient data) * X ^ w) %ₘ generator taps := by
  refine ((div_modByMonic_unique (C (coefficient (data ^^ crc.getLsbD (w - 1)))) _
    (generator_monic taps) ⟨?_, ?_⟩).2).symm
  · have fedBack : toPoly (if data ^^ crc.getLsbD (w - 1) then taps else 0) =
        C (coefficient (data ^^ crc.getLsbD (w - 1))) * toPoly taps := by
      cases data ^^ crc.getLsbD (w - 1) <;> simp [coefficient]
    rw [feed, toPoly_xor, fedBack, generator, coefficient_xor, map_add, ← toPoly_shift pos]
    linear_combination (C (coefficient data) + C (coefficient (crc.getLsbD (w - 1)))) *
      toPoly taps * (CharTwo.two_eq_zero : (2 : (ZMod 2)[X]) = 0)
  · rw [degree_generator]
    exact degree_toPoly_lt _

/-- From zero the register holds the remainder of the sequence. -/
theorem toPoly_register (pos : 0 < w) (taps : BitVec w) (bits : List Bool) :
    toPoly (register taps 0#w bits) = message bits * X ^ w %ₘ generator taps := by
  induction bits using List.reverseRecOn with
  | nil => simp
  | append_singleton bits bit inductionHypothesis =>
      rw [register_append, register_cons, register_nil, toPoly_feed pos, inductionHypothesis,
        message_snoc]
      refine modByMonic_eq_of_dvd_sub (generator_monic taps) ?_
      have divides := dvd_modByMonic_sub (message bits * X ^ w) (generator taps)
      refine (divides.mul_right X).trans (dvd_of_eq ?_)
      ring

/-- The bits of a word, the highest one first. -/
def msbFirst (crc : BitVec w) : List Bool := (List.range w).map fun i => crc.getLsbD (w - 1 - i)

theorem check_eq (pos : 0 < w) (taps : BitVec w) (bits : List Bool) :
    check w (generator taps) bits = msbFirst (register taps 0#w bits) := by
  unfold check msbFirst
  apply List.map_congr_left
  intro i _
  rw [← toPoly_register pos, coeff_toPoly]
  cases (register taps 0#w bits).getLsbD (w - 1 - i) <;> decide

theorem msbFirst_injective {a b : BitVec w} (same : msbFirst a = msbFirst b) : a = b := by
  apply BitVec.eq_of_getLsbD_eq
  intro i inside
  have bits := List.map_inj_left.mp same (w - 1 - i) (List.mem_range.mpr (by omega))
  rwa [show w - 1 - (w - 1 - i) = i by omega] at bits

theorem feed_xor (taps a b : BitVec w) (data : Bool) :
    feed taps (a ^^^ b) data = feed taps a data ^^^ feed taps b false := by
  have fedBack (x y : Bool) : (if x ^^ y then taps else 0) =
      (if x then taps else 0) ^^^ (if y then taps else 0) := by
    cases x <;> cases y <;> simp
  simp only [feed, BitVec.getLsbD_xor, BitVec.shiftLeft_xor_distrib, Bool.false_xor,
    ← Bool.xor_assoc]
  rw [fedBack (data ^^ a.getLsbD (w - 1))]
  ac_rfl

theorem register_xor (taps a b : BitVec w) (bits : List Bool) :
    register taps (a ^^^ b) bits =
      register taps a bits ^^^ register taps b (List.replicate bits.length false) := by
  induction bits generalizing a b with
  | nil => rfl
  | cons bit bits inductionHypothesis =>
      rw [register_cons, feed_xor, inductionHypothesis]
      rfl

/-! ## Several bits at once -/

/-- As long as nothing is set that leaves the register, zeros only shift it. -/
theorem register_shift (taps : BitVec w) (n : Nat) {crc : BitVec w}
    (clear : ∀ i, w - n ≤ i → crc.getLsbD i = false) :
    register taps crc (List.replicate n false) = crc <<< n := by
  induction n generalizing crc with
  | zero => rw [List.replicate_zero, register_nil, BitVec.shiftLeft_zero]
  | succ n inductionHypothesis =>
      have highest : crc.getLsbD (w - 1) = false := clear (w - 1) (by omega)
      have shifted : feed taps crc false = crc <<< 1 := by
        rw [feed, highest, Bool.xor_self, if_neg Bool.false_ne_true]
        exact BitVec.xor_zero
      rw [List.replicate_succ, register_cons, shifted, inductionHypothesis, Nat.add_comm,
        BitVec.shiftLeft_add]
      intro i above
      rw [BitVec.getLsbD_shiftLeft]
      cases i with
      | zero => rw [decide_eq_true Nat.zero_lt_one, Bool.not_true, Bool.and_false, Bool.false_and]
      | succ i => rw [Nat.add_sub_cancel, clear i (by omega), Bool.and_false]

/-- Zeros divide the bits that leave the register and shift the others. -/
theorem register_zeros (taps crc : BitVec w) (n : Nat) :
    register taps crc (List.replicate n false) =
      register taps (crc >>> (w - n) <<< (w - n)) (List.replicate n false) ^^^ crc <<< n := by
  have low : ∀ i, (crc ^^^ crc >>> (w - n) <<< (w - n)).getLsbD i =
      (decide (i < w - n) && crc.getLsbD i) := by
    intro i
    rw [BitVec.getLsbD_xor, BitVec.getLsbD_shiftLeft, BitVec.getLsbD_ushiftRight]
    cases (inferInstance : Decidable (i < w - n)) with
    | isTrue below =>
        rw [decide_eq_true below, Bool.not_true, Bool.and_false, Bool.false_and, Bool.xor_false,
          Bool.true_and]
    | isFalse above =>
        rw [decide_eq_false above, Bool.not_false, Bool.and_true, Bool.false_and,
          Nat.add_sub_cancel' (Nat.not_lt.mp above)]
        cases (inferInstance : Decidable (i < w)) with
        | isTrue inside => rw [decide_eq_true inside, Bool.true_and, Bool.xor_self]
        | isFalse outside =>
            rw [BitVec.getLsbD_of_ge crc i (Nat.not_lt.mp outside), Bool.and_false, Bool.xor_self]
  have split : crc = crc >>> (w - n) <<< (w - n) ^^^ (crc ^^^ crc >>> (w - n) <<< (w - n)) := by
    rw [BitVec.xor_comm crc, ← BitVec.xor_assoc, BitVec.xor_self, BitVec.zero_xor]
  have shifts : register taps (crc ^^^ crc >>> (w - n) <<< (w - n)) (List.replicate n false) =
      crc <<< n := by
    rw [register_shift taps n]
    · apply BitVec.eq_of_getLsbD_eq
      intro i inside
      rw [BitVec.getLsbD_shiftLeft, BitVec.getLsbD_shiftLeft, low]
      cases (inferInstance : Decidable (i < n)) with
      | isTrue below => rw [decide_eq_true below, Bool.not_true, Bool.and_false, Bool.false_and,
          Bool.false_and]
      | isFalse above => rw [decide_eq_true (show i - n < w - n by omega), Bool.true_and]
    · intro i above
      rw [low, decide_eq_false (Nat.not_lt.mpr above), Bool.false_and]
  calc register taps crc (List.replicate n false)
      = register taps (crc >>> (w - n) <<< (w - n) ^^^
          (crc ^^^ crc >>> (w - n) <<< (w - n))) (List.replicate n false) := by rw [← split]
    _ = register taps (crc >>> (w - n) <<< (w - n)) (List.replicate n false) ^^^ crc <<< n := by
        rw [register_xor, List.length_replicate, shifts]

/-- With a feedback to the lowest bit, zeros never clear the register. -/
theorem feed_false_ne_zero {taps crc : BitVec w} (pos : 0 < w) (lowest : taps.getLsbD 0 = true)
    (nonzero : crc ≠ 0#w) : feed taps crc false ≠ 0#w := by
  intro cleared
  have bit (i : Nat) : (feed taps crc false).getLsbD i = false := by simp [cleared]
  simp only [feed, BitVec.getLsbD_xor, BitVec.getLsbD_shiftLeft, Bool.false_xor] at bit
  have highest : crc.getLsbD (w - 1) = false := by
    cases highest : crc.getLsbD (w - 1) with
    | false => rfl
    | true => simpa [highest, lowest] using bit 0
  apply nonzero
  apply BitVec.eq_of_getLsbD_eq
  intro i inside
  rw [BitVec.getLsbD_zero]
  by_cases last : i = w - 1
  · rwa [last]
  · have inside' : i + 1 < w := by omega
    simpa [highest, inside'] using bit (i + 1)

theorem register_zeros_ne_zero {taps crc : BitVec w} (pos : 0 < w)
    (lowest : taps.getLsbD 0 = true) (nonzero : crc ≠ 0#w) (n : Nat) :
    register taps crc (List.replicate n false) ≠ 0#w := by
  induction n generalizing crc with
  | zero => exact nonzero
  | succ n inductionHypothesis =>
      exact inductionHypothesis (feed_false_ne_zero pos lowest nonzero)

/-- The register holds the remainder of a sequence exactly when it was zero before. -/
theorem register_eq_iff {taps crc : BitVec w} (pos : 0 < w) (lowest : taps.getLsbD 0 = true)
    (bits : List Bool) : register taps crc bits = register taps 0#w bits ↔ crc = 0#w := by
  constructor
  · intro same
    by_contra nonzero
    have split := register_xor taps 0#w crc bits
    rw [BitVec.zero_xor, same] at split
    refine register_zeros_ne_zero pos lowest nonzero bits.length ?_
    rw [← BitVec.xor_right_inj (register taps 0#w bits), ← split, BitVec.xor_zero]
  · intro zero
    rw [zero]

end Clocked.Crc
