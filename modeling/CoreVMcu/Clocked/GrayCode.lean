import Mathlib.Algebra.Group.Nat.Defs
import Mathlib.Data.List.Range
import Mathlib.Data.Bool.Basic

/-!
# Gray codes

Reflected binary Gray codes of vectors, and their decoding by reductions of the
shifted code: bit `i` of the number is the parity of the bits of the code from
`i` on.
-/

namespace Clocked

variable {width : Nat}

/-- The Gray code of a number. -/
def grayEncode (number : BitVec width) : BitVec width := (number >>> 1) ^^^ number

theorem grayEncode_zero : grayEncode (BitVec.ofNat width 0) = BitVec.ofNat width 0 := by
  simp [grayEncode]

/-- `^v`, the parity of a vector. -/
def parity (vector : BitVec width) : Bool :=
  (List.range width).foldr (fun index rest => vector.getLsbD index ^^ rest) false

/-- The vector with the given bits. -/
def ofBits (bit : Nat → Bool) : (width : Nat) → BitVec width
  | 0 => 0#0
  | width + 1 => BitVec.cons (bit width) (ofBits bit width)

/-- The number of a Gray code. -/
def grayDecode (code : BitVec width) : BitVec width :=
  ofBits (fun index => parity (code >>> index)) width

theorem getLsbD_ofBits {bit : Nat → Bool} {index : Nat} (inside : index < width) :
    (ofBits bit width).getLsbD index = bit index := by
  induction width with
  | zero => exact absurd inside (Nat.not_lt_zero index)
  | succ width inductionHypothesis =>
      rw [ofBits, BitVec.getLsbD_cons]
      split
      next last => rw [last]
      next => exact inductionHypothesis (by omega)

/-- The parities of the suffixes of a Gray code are the bits of the number. -/
theorem parity_grayEncode_shift (number : BitVec width) (index : Nat) :
    parity (grayEncode number >>> index) = number.getLsbD index := by
  have telescoped : ∀ count start, (List.range' start count).foldr
      (fun position rest => (grayEncode number >>> index).getLsbD position ^^ rest) false =
        (number.getLsbD (index + start) ^^ number.getLsbD (index + start + count)) := by
    intro count
    induction count with
    | zero => simp
    | succ count inductionHypothesis =>
        intro start
        rw [List.range'_succ, List.foldr_cons, inductionHypothesis]
        simp only [grayEncode, BitVec.getLsbD_ushiftRight, BitVec.getLsbD_xor]
        rw [show 1 + (index + start) = index + (start + 1) by omega,
          show index + start + (count + 1) = index + (start + 1) + count by omega]
        cases number.getLsbD (index + start) <;> cases number.getLsbD (index + (start + 1)) <;>
          cases number.getLsbD (index + (start + 1) + count) <;> rfl
  rw [parity, List.range_eq_range', telescoped, Nat.add_zero,
    BitVec.getLsbD_of_ge number (index + width) (Nat.le_add_left _ _), Bool.xor_false]

/-- Decoding inverts encoding. -/
theorem grayDecode_grayEncode (number : BitVec width) :
    grayDecode (grayEncode number) = number := by
  apply BitVec.eq_of_getLsbD_eq
  intro index inside
  rw [grayDecode, getLsbD_ofBits inside, parity_grayEncode_shift]

end Clocked
