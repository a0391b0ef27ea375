import CoreVMcu.Clocked.CarrySave
import CoreVMcu.Clocked.GrayCode
import Mathlib.Algebra.BigOperators.Ring.Finset
import Mathlib.Algebra.Ring.GeomSum
import Mathlib.Data.Int.Cast.Lemmas
import Mathlib.Tactic.Linarith
import Mathlib.Tactic.LinearCombination

/-!
# The multiplier of the eFPGA

`bw_multiplier` adds up one row of partial products for each bit of its second operand.  The
rows of a signed operand have inverted bits, which constants make up for.
-/

namespace CoreVMcu.Efpga

open Clocked Clocked.CarrySave Finset

/-- The inputs of `bw_multiplier`. -/
structure BwMultiplier (nBitsA nBitsB : Nat) where
  a : BitVec nBitsA
  aIsSigned : Bool
  b : BitVec nBitsB
  bIsSigned : Bool

/-- `{bit, low}`. -/
def concat {width : Nat} (bit : Bool) (low : BitVec (width - 1)) : BitVec width :=
  (BitVec.cons bit low).setWidth width

/-- A word without its highest bit. -/
def lowPart {width : Nat} (word : BitVec width) : BitVec (width - 1) := word.setWidth (width - 1)

namespace BwMultiplier

variable {nBitsA nBitsB : Nat} (inputs : BwMultiplier nBitsA nBitsB)

/-- `row_inputs`. -/
def rowInputs (row : Nat) : BitVec nBitsA :=
  if row ≠ nBitsB - 1 then
    if inputs.b.getLsbD row then
      concat (inputs.aIsSigned ^^ inputs.a.getLsbD (nBitsA - 1)) (lowPart inputs.a)
    else concat inputs.aIsSigned 0
  else
    if inputs.b.getLsbD row then
      concat (inputs.aIsSigned ^^ inputs.bIsSigned ^^ inputs.a.getLsbD (nBitsA - 1))
        (if inputs.bIsSigned then ~~~lowPart inputs.a else lowPart inputs.a)
    else
      concat (inputs.aIsSigned ^^ inputs.bIsSigned)
        (if inputs.bIsSigned then BitVec.allOnes _ else 0)

/-- `carry_inputs` and `sum_inputs`. -/
def cellInputs : Nat → BitVec nBitsA × BitVec nBitsA
  | 0 => (0, 0)
  | row + 1 =>
      let carryInputs := (cellInputs row).1
      let sumInputs := (cellInputs row).2
      let rowInputs := inputs.rowInputs row
      ((sumInputs &&& rowInputs) ||| (carryInputs &&& (sumInputs ^^^ rowInputs)),
        concat (if row = nBitsB - 1 then inputs.aIsSigned || inputs.bIsSigned else false)
          (carryInputs.extractLsb' 1 (nBitsA - 1) ^^^ sumInputs.extractLsb' 1 (nBitsA - 1) ^^^
            rowInputs.extractLsb' 1 (nBitsA - 1)))

/-- A bit of `partial_result`. -/
def partialBit (row : Nat) : Bool :=
  (inputs.cellInputs row).1.getLsbD 0 ^^ (inputs.cellInputs row).2.getLsbD 0 ^^
    (inputs.rowInputs row).getLsbD 0

/-- `partial_result`. -/
def partialResult : BitVec nBitsB := ofBits inputs.partialBit nBitsB

/-- `z_o`. -/
def z : BitVec (nBitsA + nBitsB) :=
  inputs.partialResult.setWidth (nBitsA + nBitsB) +
    ((inputs.cellInputs nBitsB).2.setWidth (nBitsA + nBitsB) <<< nBitsB) +
    ((inputs.cellInputs nBitsB).1.setWidth (nBitsA + nBitsB) <<< nBitsB) +
    ((BitVec.ofBool inputs.aIsSigned).setWidth (nBitsA + nBitsB) <<< (nBitsA - 1)) +
    ((BitVec.ofBool inputs.bIsSigned).setWidth (nBitsA + nBitsB) <<< (nBitsB - 1))

end BwMultiplier

/-- What an operand stands for. -/
def operand {width : Nat} (isSigned : Bool) (word : BitVec width) : Int :=
  if isSigned then word.toInt else word.toNat

/-! ## Words and numbers -/

section Words

variable {width : Nat}

theorem toNat_concat (pos : 0 < width) (bit : Bool) (low : BitVec (width - 1)) :
    (concat bit low : BitVec width).toNat = bit.toNat * 2 ^ (width - 1) + low.toNat := by
  have fits : bit.toNat * 2 ^ (width - 1) + low.toNat < 2 ^ width := by
    rw [← Nat.two_pow_pred_add_two_pow_pred pos]
    have below := low.isLt
    cases bit with
    | false => simpa using Nat.lt_add_right _ below
    | true => simpa using below
  rw [concat, BitVec.toNat_setWidth, BitVec.toNat_cons', Nat.shiftLeft_eq, Nat.mod_eq_of_lt fits]

theorem toNat_lowPart (word : BitVec width) :
    (lowPart word).toNat = word.toNat % 2 ^ (width - 1) := by
  rw [lowPart, BitVec.toNat_setWidth]

/-- Some lowest bits of a word. -/
theorem sum_bits (word : BitVec width) (n : Nat) :
    ∑ j ∈ range n, (word.getLsbD j).toNat * 2 ^ j = word.toNat % 2 ^ n := by
  induction n with
  | zero => simp [Nat.mod_one]
  | succ n inductionHypothesis =>
      rw [sum_range_succ, inductionHypothesis, Nat.mod_pow_succ, BitVec.getLsbD, Nat.toNat_testBit,
        Nat.mul_comm (_ / _ % 2)]

theorem toNat_eq_lowPart (pos : 0 < width) (word : BitVec width) :
    word.toNat = (word.getLsbD (width - 1)).toNat * 2 ^ (width - 1) + (lowPart word).toNat := by
  have whole := sum_bits word (width - 1 + 1)
  rw [sum_range_succ, sum_bits, Nat.sub_add_cancel pos, Nat.mod_eq_of_lt word.isLt] at whole
  rw [toNat_lowPart, Nat.add_comm]
  exact whole.symm

/-- The highest bit of a signed operand counts negatively. -/
theorem operand_eq (pos : 0 < width) (isSigned : Bool) (word : BitVec width) :
    operand isSigned word =
      (if isSigned then -1 else 1) * (word.getLsbD (width - 1)).toNat * 2 ^ (width - 1) +
        (lowPart word).toNat := by
  have split : (word.toNat : Int) =
      (word.getLsbD (width - 1)).toNat * 2 ^ (width - 1) + (lowPart word).toNat := by
    exact_mod_cast toNat_eq_lowPart pos word
  cases isSigned with
  | false =>
      rw [operand, if_neg Bool.false_ne_true, if_neg Bool.false_ne_true, one_mul]
      exact split
  | true =>
      have double : (2 : Int) ^ width = 2 ^ (width - 1) + 2 ^ (width - 1) := by
        exact_mod_cast (Nat.two_pow_pred_add_two_pow_pred pos).symm
      rw [operand, if_pos rfl, if_pos rfl, BitVec.toInt_eq_msb_cond, BitVec.msb_eq_getLsbD_last]
      cases bit : word.getLsbD (width - 1) with
      | false =>
          rw [bit, Bool.toNat_false] at split
          rw [if_neg Bool.false_ne_true, Bool.toNat_false, split]
          simp
      | true =>
          rw [bit, Bool.toNat_true] at split
          rw [if_pos rfl, Bool.toNat_true, split]
          push_cast [double]
          ring

theorem toNat_eq_dropped (word : BitVec width) :
    word.toNat = (word.getLsbD 0).toNat + 2 * (word.extractLsb' 1 (width - 1)).toNat := by
  have half : word.toNat / 2 < 2 ^ (width - 1) := by
    have below := word.isLt
    cases width with
    | zero => omega
    | succ width =>
        rw [pow_succ] at below
        rw [Nat.add_sub_cancel]
        omega
  rw [BitVec.extractLsb'_toNat, Nat.shiftRight_eq_div_pow, pow_one, Nat.mod_eq_of_lt half,
    BitVec.getLsbD, Nat.toNat_testBit, pow_zero, Nat.div_one, Nat.mod_add_div]

theorem toNat_ofBits (bit : Nat → Bool) (n : Nat) :
    (ofBits bit n).toNat = ∑ j ∈ range n, (bit j).toNat * 2 ^ j := by
  induction n with
  | zero => rfl
  | succ n inductionHypothesis =>
      rw [ofBits, BitVec.toNat_cons', Nat.shiftLeft_eq, inductionHypothesis, sum_range_succ,
        Nat.add_comm]

end Words

namespace BwMultiplier

variable {nBitsA nBitsB : Nat} (inputs : BwMultiplier nBitsA nBitsB)

/-! ## The array -/

/-- The bit above the sums of a row. -/
def aboveSums (row : Nat) : Bool :=
  if row = nBitsB - 1 then inputs.aIsSigned || inputs.bIsSigned else false

theorem row_step (posA : 0 < nBitsA) (row : Nat) :
    (inputs.partialBit row).toNat +
        2 * ((inputs.cellInputs (row + 1)).1.toNat + (inputs.cellInputs (row + 1)).2.toNat) =
      ((inputs.cellInputs row).1.toNat + (inputs.cellInputs row).2.toNat) +
        ((inputs.rowInputs row).toNat + (inputs.aboveSums row).toNat * 2 ^ nBitsA) := by
  have total := sums_add_twice_carries (inputs.cellInputs row).1 (inputs.cellInputs row).2
    (inputs.rowInputs row)
  have split := toNat_eq_dropped
    (sums (inputs.cellInputs row).1 (inputs.cellInputs row).2 (inputs.rowInputs row))
  have dropped : (sums (inputs.cellInputs row).1 (inputs.cellInputs row).2
      (inputs.rowInputs row)).getLsbD 0 = inputs.partialBit row := by
    rw [sums, BitVec.getLsbD_xor, BitVec.getLsbD_xor, partialBit]
  have carry : (inputs.cellInputs (row + 1)).1 =
      carries (inputs.cellInputs row).1 (inputs.cellInputs row).2 (inputs.rowInputs row) := rfl
  have sum : (inputs.cellInputs (row + 1)).2 = concat (inputs.aboveSums row)
      ((sums (inputs.cellInputs row).1 (inputs.cellInputs row).2
        (inputs.rowInputs row)).extractLsb' 1 (nBitsA - 1)) := by
    rw [sums, BitVec.extractLsb'_xor, BitVec.extractLsb'_xor]
    rfl
  have double := Nat.two_pow_pred_mul_two posA
  rw [carry, sum, toNat_concat posA, ← double]
  rw [split, dropped] at total
  linarith only [total]

/-- Everything that the rows add up. -/
theorem array_total (posA : 0 < nBitsA) :
    inputs.partialResult.toNat +
        ((inputs.cellInputs nBitsB).1.toNat + (inputs.cellInputs nBitsB).2.toNat) * 2 ^ nBitsB =
      ∑ row ∈ range nBitsB,
        ((inputs.rowInputs row).toNat + (inputs.aboveSums row).toNat * 2 ^ nBitsA) * 2 ^ row := by
  have total := @rows_total (fun row => (inputs.partialBit row).toNat)
    (fun row => (inputs.cellInputs row).1.toNat + (inputs.cellInputs row).2.toNat)
    (fun row => (inputs.rowInputs row).toNat + (inputs.aboveSums row).toNat * 2 ^ nBitsA)
    nBitsB fun row _ => inputs.row_step posA row
  have start : (inputs.cellInputs 0).1.toNat + (inputs.cellInputs 0).2.toNat = 0 := by
    simp [cellInputs]
  rw [start, Nat.zero_add] at total
  rw [partialResult, toNat_ofBits]
  exact total

/-- A row of an operand without its highest bit. -/
theorem rowInputs_eq (posA : 0 < nBitsA) {row : Nat} (inner : row ≠ nBitsB - 1) :
    ((inputs.rowInputs row).toNat : Int) =
      (inputs.b.getLsbD row).toNat * operand inputs.aIsSigned inputs.a +
        inputs.aIsSigned.toNat * 2 ^ (nBitsA - 1) := by
  rw [rowInputs, if_pos inner, operand_eq posA]
  cases inputs.b.getLsbD row with
  | false =>
      rw [if_neg Bool.false_ne_true, toNat_concat posA]
      simp
  | true =>
      rw [if_pos rfl, toNat_concat posA]
      cases inputs.aIsSigned <;> cases inputs.a.getLsbD (nBitsA - 1) <;>
        simp [Int.add_comm]

theorem rowInputs_last (posA : 0 < nBitsA) :
    ((inputs.rowInputs (nBitsB - 1)).toNat : Int) =
      (if inputs.bIsSigned then -1 else 1) * (inputs.b.getLsbD (nBitsB - 1)).toNat *
          operand inputs.aIsSigned inputs.a +
        (if inputs.bIsSigned then (2 - inputs.aIsSigned.toNat) * 2 ^ (nBitsA - 1) - 1
          else inputs.aIsSigned.toNat * 2 ^ (nBitsA - 1)) := by
  have inverted : ((~~~lowPart inputs.a).toNat : Int) =
      2 ^ (nBitsA - 1) - 1 - (lowPart inputs.a).toNat := by
    rw [BitVec.toNat_not, Nat.cast_sub, Nat.cast_sub Nat.one_le_two_pow]
    · norm_num
    · exact Nat.le_sub_one_of_lt (lowPart inputs.a).isLt
  have ones : ((BitVec.allOnes (nBitsA - 1)).toNat : Int) = 2 ^ (nBitsA - 1) - 1 := by
    rw [BitVec.toNat_allOnes, Nat.cast_sub Nat.one_le_two_pow]
    norm_num
  rw [rowInputs, if_neg (not_not.mpr rfl), operand_eq posA]
  cases inputs.b.getLsbD (nBitsB - 1) with
  | false =>
      rw [if_neg Bool.false_ne_true, toNat_concat posA]
      cases inputs.aIsSigned <;> cases inputs.bIsSigned <;>
        simp [-BitVec.toNat_allOnes, ones]
      all_goals ring
  | true =>
      rw [if_pos rfl, toNat_concat posA]
      cases inputs.aIsSigned <;> cases inputs.bIsSigned <;>
        cases inputs.a.getLsbD (nBitsA - 1) <;> simp [-BitVec.toNat_not, inverted]
      all_goals ring

/-- The inverted bits make up `-2 ^ (nBitsA - 1)` in each signed row and more in the last one. -/
theorem array_eq (posA : 0 < nBitsA) (posB : 0 < nBitsB) :
    ((∑ row ∈ range nBitsB,
        ((inputs.rowInputs row).toNat + (inputs.aboveSums row).toNat * 2 ^ nBitsA) * 2 ^ row :
          Nat) : Int) =
      operand inputs.aIsSigned inputs.a * operand inputs.bIsSigned inputs.b +
        (inputs.aIsSigned || inputs.bIsSigned).toNat * 2 ^ (nBitsA + nBitsB) -
        inputs.aIsSigned.toNat * 2 ^ (nBitsA - 1) - inputs.bIsSigned.toNat * 2 ^ (nBitsB - 1) := by
  have rows : range nBitsB = range (nBitsB - 1 + 1) := by rw [Nat.sub_add_cancel posB]
  have inner : ∀ row ∈ range (nBitsB - 1),
      (((inputs.rowInputs row).toNat + (inputs.aboveSums row).toNat * 2 ^ nBitsA : Nat) : Int) *
          2 ^ row =
        operand inputs.aIsSigned inputs.a * (((inputs.b.getLsbD row).toNat * 2 ^ row : Nat) : Int) +
          inputs.aIsSigned.toNat * 2 ^ (nBitsA - 1) * 2 ^ row := by
    intro row below
    have notLast : row ≠ nBitsB - 1 := (mem_range.mp below).ne
    have clear : inputs.aboveSums row = false := by rw [aboveSums, if_neg notLast]
    rw [clear, Bool.toNat_false, Nat.zero_mul, Nat.add_zero, inputs.rowInputs_eq posA notLast]
    push_cast
    ring
  have powers : ∑ row ∈ range (nBitsB - 1), (2 : Int) ^ row = 2 ^ (nBitsB - 1) - 1 := by
    simpa using geom_sum_mul (2 : Int) (nBitsB - 1)
  have lowBits := sum_bits inputs.b (nBitsB - 1)
  rw [← toNat_lowPart] at lowBits
  have widthA : (2 : Int) ^ nBitsA = 2 ^ (nBitsA - 1) * 2 := by
    exact_mod_cast (Nat.two_pow_pred_mul_two posA).symm
  have widthB : (2 : Int) ^ nBitsB = 2 ^ (nBitsB - 1) * 2 := by
    exact_mod_cast (Nat.two_pow_pred_mul_two posB).symm
  have innerSum : ((∑ row ∈ range (nBitsB - 1),
      ((inputs.rowInputs row).toNat + (inputs.aboveSums row).toNat * 2 ^ nBitsA) * 2 ^ row :
        Nat) : Int) =
      operand inputs.aIsSigned inputs.a * (lowPart inputs.b).toNat +
        inputs.aIsSigned.toNat * 2 ^ (nBitsA - 1) * (2 ^ (nBitsB - 1) - 1) := by
    rw [← lowBits, ← powers, Nat.cast_sum, Nat.cast_sum, mul_sum, mul_sum, ← sum_add_distrib]
    apply sum_congr rfl
    intro row below
    rw [← inner row below]
    push_cast
    rfl
  have above : inputs.aboveSums (nBitsB - 1) = (inputs.aIsSigned || inputs.bIsSigned) := by
    rw [aboveSums, if_pos rfl]
  rw [rows, sum_range_succ, Nat.cast_add, innerSum, above, Nat.cast_mul, Nat.cast_add,
    inputs.rowInputs_last posA, operand_eq posB inputs.bIsSigned inputs.b, pow_add, widthB]
  push_cast
  rw [widthA]
  cases inputs.aIsSigned <;> cases inputs.bIsSigned <;> simp <;> ring

theorem toNat_z :
    inputs.z.toNat =
      (inputs.partialResult.toNat +
          ((inputs.cellInputs nBitsB).1.toNat + (inputs.cellInputs nBitsB).2.toNat) * 2 ^ nBitsB +
          inputs.aIsSigned.toNat * 2 ^ (nBitsA - 1) + inputs.bIsSigned.toNat * 2 ^ (nBitsB - 1)) %
        2 ^ (nBitsA + nBitsB) := by
  simp only [z, BitVec.toNat_add, BitVec.toNat_shiftLeft, BitVec.toNat_setWidth, Nat.shiftLeft_eq,
    BitVec.toNat_ofBool, Nat.mod_mul_mod, Nat.mod_add_mod, Nat.add_mod_mod]
  congr 1
  ring

theorem z_eq (posA : 0 < nBitsA) (posB : 0 < nBitsB) :
    inputs.z = BitVec.ofInt (nBitsA + nBitsB)
      (operand inputs.aIsSigned inputs.a * operand inputs.bIsSigned inputs.b) := by
  have array := inputs.array_eq posA posB
  rw [← inputs.array_total posA] at array
  apply BitVec.eq_of_toNat_eq
  rw [BitVec.toNat_ofInt, toNat_z]
  have same : ((inputs.partialResult.toNat +
          ((inputs.cellInputs nBitsB).1.toNat + (inputs.cellInputs nBitsB).2.toNat) * 2 ^ nBitsB +
          inputs.aIsSigned.toNat * 2 ^ (nBitsA - 1) + inputs.bIsSigned.toNat * 2 ^ (nBitsB - 1) :
          Nat) : Int) =
      operand inputs.aIsSigned inputs.a * operand inputs.bIsSigned inputs.b +
        ((2 ^ (nBitsA + nBitsB) : Nat) : Int) *
          (inputs.aIsSigned || inputs.bIsSigned).toNat := by
    push_cast at array ⊢
    linear_combination array
  rw [← Int.add_mul_emod_self_left _ _ ((inputs.aIsSigned || inputs.bIsSigned).toNat : Int),
    ← same]
  norm_cast

end BwMultiplier

/-- The inputs of `bw_mac`. -/
structure BwMac (aWidth bWidth : Nat) where
  a : BitVec aWidth
  b : BitVec bWidth
  c : BitVec (aWidth + bWidth)
  tc : Bool

namespace BwMac

variable {aWidth bWidth : Nat} (inputs : BwMac aWidth bWidth)

/-- `Z`. -/
def z : BitVec (aWidth + bWidth) :=
  BwMultiplier.z
    { a := inputs.a, aIsSigned := inputs.tc, b := inputs.b, bIsSigned := inputs.tc }

/-- `MAC`. -/
def mac : BitVec (aWidth + bWidth) := inputs.z + inputs.c

end BwMac

/-- The array multiplies operands of either kind, and the accumulator adds to the product. -/
theorem bw_product {nBitsA nBitsB : Nat} (wideA : 2 ≤ nBitsA) (wideB : 2 ≤ nBitsB) :
    (∀ inputs : BwMultiplier nBitsA nBitsB, inputs.z = BitVec.ofInt (nBitsA + nBitsB)
      (operand inputs.aIsSigned inputs.a * operand inputs.bIsSigned inputs.b)) ∧
    ∀ inputs : BwMac nBitsA nBitsB,
      inputs.z = BitVec.ofInt (nBitsA + nBitsB)
        (operand inputs.tc inputs.a * operand inputs.tc inputs.b) ∧
      inputs.mac = BitVec.ofInt (nBitsA + nBitsB)
        (operand inputs.tc inputs.a * operand inputs.tc inputs.b + inputs.c.toNat) := by
  have posA : 0 < nBitsA := by omega
  have posB : 0 < nBitsB := by omega
  refine ⟨fun inputs => inputs.z_eq posA posB, fun inputs => ?_⟩
  have product := BwMultiplier.z_eq
    { a := inputs.a, aIsSigned := inputs.tc, b := inputs.b, bIsSigned := inputs.tc } posA posB
  refine ⟨product, ?_⟩
  rw [BwMac.mac, BwMac.z, product, BitVec.ofInt_add, BitVec.ofInt_natCast, BitVec.ofNat_toNat,
    BitVec.setWidth_eq]

theorem bw_product_twenty :
    (2 ≤ 20 ∧ 2 ≤ 20) ∧
      BwMac.mac { a := 0xFFFFE#20, b := 0x00003#20, c := 0x7#40, tc := true } = 0x1#40 := by
  refine ⟨by decide, ?_⟩
  rw [((bw_product (by decide) (by decide)).2 _).2]
  decide

end CoreVMcu.Efpga
