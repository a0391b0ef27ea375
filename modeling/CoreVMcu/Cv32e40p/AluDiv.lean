import CoreVMcu.Clocked.LongDivision
import CoreVMcu.Clocked.Machine
import Mathlib.Algebra.Order.BigOperators.Group.List

/-!
# The divider of the core

`cv32e40p_alu_div` divides one digit in a cycle.  The ALU shifts the divisor up to the top of the
word, counting the places; the divider takes it down again, place by place, and keeps the digits
of the quotient and what is left of the dividend.  Signed operands are divided by their
magnitudes: the registers have the sign of the divisor, and the result is negated at the end
where the signs differ.
-/

namespace CoreVMcu.Cv32e40p

open Clocked

/-- A node of the tree of `cv32e40p_ff_one` over the inputs from `k * 2 ^ height`: whether one of
them is set, and the index of the first. -/
def ffNode (bit : Nat → Bool) : Nat → Nat → Bool × Nat
  | 0, k => (bit k, k)
  | height + 1, k =>
      let left := ffNode bit height (2 * k)
      let right := ffNode bit height (2 * k + 1)
      (left.1 || right.1, if left.1 then left.2 else right.2)

def ff1Result (ffInput : BitVec 32) : BitVec 5 := BitVec.ofNat 5 (ffNode ffInput.getLsbD 5 0).2

def ffNoOne (ffInput : BitVec 32) : Bool := !(ffNode ffInput.getLsbD 5 0).1

/-- A node of the adder tree of `cv32e40p_popcnt`. -/
def popNode (bit : Nat → Bool) : Nat → Nat → Nat
  | 0, k => (bit k).toNat
  | height + 1, k => popNode bit height (2 * k) + popNode bit height (2 * k + 1)

def cntResult (operand : BitVec 32) : BitVec 6 := BitVec.ofNat 6 (popNode operand.getLsbD 5 0)

/-- What the ALU is given in a cycle: `div_valid`, the lower bits of `operator_i`, the operands,
of which `operandA` is the divisor, and `ex_ready_i`. -/
structure DivInput where
  divValid : Bool
  opCode : BitVec 2
  operandA : BitVec 32
  operandB : BitVec 32
  exReady : Bool
  deriving DecidableEq

namespace DivInput

variable (input : DivInput)

def divSigned : Bool := input.opCode.getLsbD 0

def divOpASigned : Bool := input.operandA.msb && input.divSigned

/-- `ff_input`. -/
def ffInput : BitVec 32 :=
  if input.divSigned && input.operandA.msb then (~~~input.operandA).reverse
  else input.operandA.reverse

/-- `clb_result`. -/
def clbResult : BitVec 6 := (ff1Result input.ffInput).setWidth 6 - 1

/-- `div_shift`. -/
def divShift : BitVec 6 :=
  (if ffNoOne input.ffInput then 31 else input.clbResult) + if input.divOpASigned then 0 else 1

/-- `shift_left_result`: the reversed operand is shifted right. -/
def shiftLeftResult : BitVec 32 :=
  (input.operandA.reverse >>> (input.divShift.setWidth 5).toNat).reverse

/-- `OpBIsZero_SI`. -/
def opBIsZero : Bool := cntResult input.operandA == 0

end DivInput

inductive DivState where
  | idle | divide | finish
  deriving DecidableEq, Repr

/-- Registers of `cv32e40p_alu_div`. -/
structure AluDiv where
  state : DivState
  aReg : BitVec 32
  bReg : BitVec 32
  resReg : BitVec 32
  cnt : BitVec 6
  remSel : Bool
  compInv : Bool
  resInv : Bool

namespace AluDiv

def reset : AluDiv :=
  { state := .idle, aReg := 0, bReg := 0, resReg := 0, cnt := 0, remSel := false
    compInv := false, resInv := false }

variable (div : AluDiv) (input : DivInput)

/-- `LoadEn_S`. -/
def loadEn : Bool := div.state == .idle && input.divValid

/-- `ABComp_S`. -/
def abComp : Bool :=
  (div.aReg == div.bReg || (div.bReg.ult div.aReg ^^ div.compInv)) &&
    (div.aReg != 0 || input.opBIsZero)

/-- `PmSel_S`. -/
def pmSel : Bool :=
  div.loadEn input && !(input.opCode.getLsbD 0 && (input.operandB.msb ^^ input.divOpASigned))

/-- `AddOut_D`. -/
def addOut : BitVec 32 :=
  let addMux := if div.loadEn input then input.operandB else div.bReg
  let addTmp := if div.loadEn input then 0 else div.aReg
  if div.pmSel input then addTmp + addMux else addTmp - addMux

/-- A bit is put above the upper bits of a word. -/
def intoTop (bit : Bool) (word : BitVec 32) : BitVec 32 := BitVec.cons bit (word.extractLsb' 1 31)

/-- A cycle. -/
def step : AluDiv where
  state :=
    match div.state with
    | .idle => if input.divValid then .divide else .idle
    | .divide => if div.cnt = 0 then .finish else .divide
    | .finish => if input.exReady then .idle else .finish
  aReg :=
    if div.loadEn input || div.state == .divide && div.abComp input then div.addOut input
    else div.aReg
  bReg :=
    if div.loadEn input then input.shiftLeftResult
    else if div.state = .divide then intoTop div.compInv div.bReg
    else div.bReg
  resReg :=
    if div.loadEn input then 0
    else if div.state = .divide then intoTop (div.abComp input) div.resReg
    else div.resReg
  cnt :=
    if div.loadEn input then input.divShift
    else if div.cnt ≠ 0 then div.cnt - 1
    else div.cnt
  remSel := if div.loadEn input then input.opCode.getLsbD 1 else div.remSel
  compInv := if div.loadEn input then input.divOpASigned else div.compInv
  resInv :=
    if div.loadEn input then
      (!input.opBIsZero || input.opCode.getLsbD 1) && input.opCode.getLsbD 0 &&
        (input.operandB.msb ^^ input.divOpASigned)
    else div.resInv

/-- `OutVld_SO`. -/
def outVld : Bool :=
  match div.state with
  | .idle => !input.divValid
  | .divide => false
  | .finish => true

/-- `Res_DO`. -/
def res : BitVec 32 :=
  let outMux := if div.remSel then div.aReg else div.resReg.reverse
  if div.resInv then -outMux else outMux

end AluDiv

def divMachine : Machine AluDiv DivInput where
  init := AluDiv.reset
  step := AluDiv.step

/-! ## What is asked for -/

namespace DivInput

variable (input : DivInput)

/-- An operand as a number. -/
def valueOf (operand : BitVec 32) : Int :=
  if input.divSigned then operand.toInt else operand.toNat

def divisor : Int := input.valueOf input.operandA

def dividend : Int := input.valueOf input.operandB

/-- The result of the instruction: the quotient is rounded towards zero, that by zero is all
ones, and the remainder has the sign of the dividend. -/
def answer : BitVec 32 :=
  if input.opCode.getLsbD 1 then BitVec.ofInt 32 (input.dividend.tmod input.divisor)
  else if input.divisor = 0 then BitVec.allOnes 32
  else BitVec.ofInt 32 (input.dividend.tdiv input.divisor)

/-- The number of cycles that the divider divides for. -/
def cycles : Nat := input.divShift.toNat + 1

end DivInput

/-- The division that is started. -/
def AluDiv.starts (div : AluDiv) (input : DivInput) : List DivInput :=
  if div.loadEn input then [input] else []

/-- The result that is handed over. -/
def AluDiv.answers (div : AluDiv) (input : DivInput) : List (BitVec 32) :=
  if div.state == .finish && input.exReady then [div.res] else []

/-- The magnitude of a register: the word, or the negated word. -/
def magnitude (negative : Bool) (word : BitVec 32) : Nat :=
  if negative then (-word).toNat else word.toNat

theorem toNat_neg_word (word : BitVec 32) : (-word).toNat = (2 ^ 32 - word.toNat) % 2 ^ 32 := rfl

theorem natAbs_toInt (word : BitVec 32) : word.toInt.natAbs = magnitude word.msb word := by
  have bound := word.isLt
  rw [BitVec.toInt_eq_msb_cond, magnitude, toNat_neg_word]
  cases sign : word.msb with
  | false => simp
  | true =>
      have high := BitVec.toNat_ge_of_msb_true sign
      simp only [if_true]
      omega

/-- The comparison is one of magnitudes. -/
theorem AluDiv.abComp_eq (div : AluDiv) (input : DivInput)
    (positive : input.opBIsZero = false → 0 < magnitude div.compInv div.bReg)
    (zero : input.opBIsZero = true → div.compInv = false ∧ div.bReg = 0) :
    div.abComp input =
      decide (magnitude div.compInv div.bReg ≤ magnitude div.compInv div.aReg) := by
  have aBound := div.aReg.isLt
  have bBound := div.bReg.isLt
  rw [AluDiv.abComp, Bool.eq_iff_iff]
  cases isZero : input.opBIsZero with
  | true =>
      obtain ⟨plain, none⟩ := zero isZero
      have same : div.aReg = 0#32 ↔ div.aReg.toNat = 0 := BitVec.toNat_eq
      simp [plain, none, magnitude, BitVec.ult, same]
      omega
  | false =>
      have placed := positive isZero
      have same : div.aReg = div.bReg ↔ div.aReg.toNat = div.bReg.toNat := BitVec.toNat_eq
      have aZero : div.aReg = 0#32 ↔ div.aReg.toNat = 0 := BitVec.toNat_eq
      cases sign : div.compInv with
      | false =>
          simp only [sign, magnitude, Bool.false_eq_true, if_false] at placed
          simp [magnitude, BitVec.ult, same, aZero]
          omega
      | true =>
          simp only [sign, magnitude, if_true, toNat_neg_word] at placed
          simp [magnitude, BitVec.ult, same, aZero]
          omega

theorem magnitude_sub {negative : Bool} {a b : BitVec 32}
    (fits : magnitude negative b ≤ magnitude negative a) :
    magnitude negative (a - b) = magnitude negative a - magnitude negative b := by
  have aBound := a.isLt
  have bBound := b.isLt
  cases negative with
  | false =>
      simp only [magnitude, Bool.false_eq_true, if_false] at fits ⊢
      rw [BitVec.toNat_sub_of_le (BitVec.le_def.mpr fits)]
  | true =>
      simp only [magnitude, if_true, toNat_neg_word, BitVec.toNat_sub] at fits ⊢
      omega

theorem AluDiv.toNat_intoTop (bit : Bool) (word : BitVec 32) :
    (AluDiv.intoTop bit word).toNat = bit.toNat * 2 ^ 31 + word.toNat / 2 := by
  have bound := word.isLt
  rw [AluDiv.intoTop, BitVec.toNat_cons, BitVec.extractLsb'_toNat, Nat.shiftRight_eq_div_pow,
    Nat.mod_eq_of_lt (by omega), Nat.shiftLeft_eq, Nat.mul_comm,
    ← Nat.two_pow_add_eq_or_of_lt (by omega)]

/-- A place of the divisor is halved. -/
theorem magnitude_intoTop {negative : Bool} {word : BitVec 32} {half : Nat}
    (even : magnitude negative word = 2 * half) (positive : negative = true → 0 < half) :
    magnitude negative (AluDiv.intoTop negative word) = half := by
  have bound := word.isLt
  cases negative with
  | false =>
      simp only [magnitude, Bool.false_eq_true, if_false] at even ⊢
      rw [AluDiv.toNat_intoTop, Bool.toNat_false]
      omega
  | true =>
      have placed := positive rfl
      simp only [magnitude, if_true, toNat_neg_word] at even ⊢
      rw [AluDiv.toNat_intoTop, Bool.toNat_true]
      omega

/-- A digit of the quotient goes into the reversed word from below. -/
theorem toNat_reverse_intoTop (bit : Bool) (word : BitVec 32) :
    (AluDiv.intoTop bit word).reverse.toNat = (2 * word.reverse.toNat + bit.toNat) % 2 ^ 32 := by
  have shifted : (AluDiv.intoTop bit word).reverse = (word.reverse.concat bit).setWidth 32 := by
    apply BitVec.eq_of_getLsbD_eq
    intro i inside
    rw [BitVec.getLsbD_reverse, BitVec.getMsbD_eq_getLsbD, BitVec.getLsbD_setWidth,
      BitVec.getLsbD_concat, BitVec.getLsbD_reverse, BitVec.getMsbD_eq_getLsbD, AluDiv.intoTop,
      BitVec.getLsbD_cons]
    cases i with
    | zero => rfl
    | succ i =>
        have top : ¬30 - i = 31 := by omega
        have next : 1 + (30 - i) = 31 - i := by omega
        have low : 30 - i < 31 := by omega
        simp [top, next, low, inside, Nat.lt_of_succ_lt inside]
  rw [shifted, BitVec.toNat_setWidth, BitVec.toNat_concat, Nat.mul_comm]

/-- A node finds the first input under it that is set. -/
theorem ffNode_spec (bit : Nat → Bool) (height : Nat) :
    ∀ k, ((ffNode bit height k).1 = true →
        bit (ffNode bit height k).2 = true ∧
          k * 2 ^ height ≤ (ffNode bit height k).2 ∧
          (ffNode bit height k).2 < (k + 1) * 2 ^ height ∧
          ∀ i, k * 2 ^ height ≤ i → i < (ffNode bit height k).2 → bit i = false) ∧
      ((ffNode bit height k).1 = false →
        ∀ i, k * 2 ^ height ≤ i → i < (k + 1) * 2 ^ height → bit i = false) := by
  induction height with
  | zero =>
      intro k
      simp only [ffNode, Nat.pow_zero, Nat.mul_one]
      refine ⟨fun found => ⟨found, Nat.le_refl k, Nat.lt_succ_self k, ?_⟩, ?_⟩
      · intro i above below
        omega
      · intro none i above below
        rwa [show i = k by omega]
  | succ height inductionHypothesis =>
      intro k
      obtain ⟨leftFound, leftNone⟩ := inductionHypothesis (2 * k)
      obtain ⟨rightFound, rightNone⟩ := inductionHypothesis (2 * k + 1)
      have lower : k * 2 ^ (height + 1) = 2 * k * 2 ^ height := by ring
      have upper : (k + 1) * 2 ^ (height + 1) = (2 * k + 1 + 1) * 2 ^ height := by ring
      have middle : 2 * k * 2 ^ height ≤ (2 * k + 1) * 2 ^ height :=
        Nat.mul_le_mul_right _ (Nat.le_succ _)
      have after : (2 * k + 1) * 2 ^ height ≤ (2 * k + 1 + 1) * 2 ^ height :=
        Nat.mul_le_mul_right _ (Nat.le_succ _)
      rw [ffNode, lower, upper]
      cases left : (ffNode bit height (2 * k)).1 with
      | true =>
          obtain ⟨isSet, above, below, first⟩ := leftFound left
          simp only [Bool.true_or, if_true]
          exact ⟨fun _ => ⟨isSet, above, by omega, first⟩, fun impossible => nomatch impossible⟩
      | false =>
          have none := leftNone left
          simp only [Bool.false_or, Bool.false_eq_true, if_false]
          constructor
          · intro right
            obtain ⟨isSet, above, below, first⟩ := rightFound right
            refine ⟨isSet, by omega, below, ?_⟩
            intro i from_ before
            rcases Nat.lt_or_ge i ((2 * k + 1) * 2 ^ height) with inLeft | inRight
            · exact none i from_ inLeft
            · exact first i inRight before
          · intro right i from_ before
            rcases Nat.lt_or_ge i ((2 * k + 1) * 2 ^ height) with inLeft | inRight
            · exact none i from_ inLeft
            · exact rightNone right i inRight before

theorem ffNoOne_reverse (word : BitVec 32) : ffNoOne word.reverse = (word == 0) := by
  obtain ⟨found, none⟩ := ffNode_spec word.reverse.getLsbD 5 0
  rw [ffNoOne]
  cases isSet : (ffNode word.reverse.getLsbD 5 0).1 with
  | false =>
      have isZero : word.reverse = 0 := by
        apply BitVec.eq_of_getLsbD_eq
        intro i inside
        exact (none isSet i (by omega) (by omega)).trans BitVec.getLsbD_zero.symm
      have same : word = 0 := BitVec.reverse_eq_zero_iff.mp isZero
      rw [same]
      rfl
  | true =>
      obtain ⟨bit, -⟩ := found isSet
      symm
      rw [Bool.not_true, beq_eq_false_iff_ne]
      intro isZero
      rw [isZero] at bit
      simp [BitVec.getLsbD_reverse] at bit

/-- The first bit of a reversed word counts the zeros above the word. -/
theorem ff1Result_reverse {word : BitVec 32} (nonzero : word ≠ 0) :
    2 ^ 31 ≤ word.toNat * 2 ^ (ff1Result word.reverse).toNat ∧
      word.toNat * 2 ^ (ff1Result word.reverse).toNat < 2 ^ 32 := by
  obtain ⟨found, -⟩ := ffNode_spec word.reverse.getLsbD 5 0
  have isSet : (ffNode word.reverse.getLsbD 5 0).1 = true := by
    have some := ffNoOne_reverse word
    rw [ffNoOne, beq_eq_false_iff_ne.mpr nonzero] at some
    simpa using some
  obtain ⟨bit, -, below, first⟩ := found isSet
  rw [ff1Result, BitVec.toNat_ofNat, Nat.mod_eq_of_lt (by omega)]
  generalize (ffNode word.reverse.getLsbD 5 0).2 = count at bit below first
  have small : count < 32 := by omega
  rw [BitVec.getLsbD_reverse, BitVec.getMsbD_eq_getLsbD, decide_eq_true small, Bool.true_and]
    at bit
  have atLeast : 2 ^ (31 - count) ≤ word.toNat := Nat.ge_two_pow_of_testBit bit
  have atMost : word.toNat < 2 ^ (32 - count) := by
    apply Nat.lt_pow_two_of_testBit
    intro i high
    rcases Nat.lt_or_ge i 32 with inside | outside
    · have clear := first (31 - i) (by omega) (by omega)
      rw [BitVec.getLsbD_reverse, BitVec.getMsbD_eq_getLsbD,
        decide_eq_true (show 31 - i < 32 by omega), Bool.true_and,
        show 32 - 1 - (31 - i) = i by omega] at clear
      exact clear
    · exact BitVec.getLsbD_of_ge word i outside
  constructor
  · calc 2 ^ 31 = 2 ^ (31 - count) * 2 ^ count := by rw [← Nat.pow_add]; congr 1; omega
      _ ≤ word.toNat * 2 ^ count := Nat.mul_le_mul_right _ atLeast
  · calc word.toNat * 2 ^ count < 2 ^ (32 - count) * 2 ^ count :=
          Nat.mul_lt_mul_of_pos_right atMost (Nat.two_pow_pos count)
      _ = 2 ^ 32 := by rw [← Nat.pow_add]; congr 1; omega

theorem popNode_eq_zero (bit : Nat → Bool) (height : Nat) :
    ∀ k, popNode bit height k = 0 ↔
      ∀ i, k * 2 ^ height ≤ i → i < (k + 1) * 2 ^ height → bit i = false := by
  induction height with
  | zero =>
      intro k
      simp only [popNode, Nat.pow_zero, Nat.mul_one, Bool.toNat_eq_zero]
      refine ⟨?_, fun none => none k (Nat.le_refl k) (Nat.lt_succ_self k)⟩
      intro clear i above below
      rwa [show i = k by omega]
  | succ height inductionHypothesis =>
      intro k
      have lower : k * 2 ^ (height + 1) = 2 * k * 2 ^ height := by ring
      have upper : (k + 1) * 2 ^ (height + 1) = (2 * k + 1 + 1) * 2 ^ height := by ring
      have middle : 2 * k * 2 ^ height ≤ (2 * k + 1) * 2 ^ height :=
        Nat.mul_le_mul_right _ (Nat.le_succ _)
      have after : (2 * k + 1) * 2 ^ height ≤ (2 * k + 1 + 1) * 2 ^ height :=
        Nat.mul_le_mul_right _ (Nat.le_succ _)
      rw [popNode, Nat.add_eq_zero_iff, inductionHypothesis, inductionHypothesis, lower, upper]
      constructor
      · rintro ⟨left, right⟩ i above below
        rcases Nat.lt_or_ge i ((2 * k + 1) * 2 ^ height) with inLeft | inRight
        · exact left i above inLeft
        · exact right i inRight below
      · intro none
        exact ⟨fun i above below => none i above (by omega),
          fun i above below => none i (by omega) below⟩

theorem popNode_le (bit : Nat → Bool) (height : Nat) : ∀ k, popNode bit height k ≤ 2 ^ height := by
  induction height with
  | zero => exact fun k => Bool.toNat_le (bit k)
  | succ height inductionHypothesis =>
      intro k
      have left := inductionHypothesis (2 * k)
      have right := inductionHypothesis (2 * k + 1)
      rw [popNode, Nat.pow_succ]
      omega

theorem cntResult_eq_zero (word : BitVec 32) : (cntResult word == 0) = (word == 0) := by
  have bound := popNode_le word.getLsbD 5 0
  have none := popNode_eq_zero word.getLsbD 5 0
  have counted : cntResult word = 0 ↔ popNode word.getLsbD 5 0 = 0 := by
    rw [cntResult, BitVec.toNat_eq, BitVec.toNat_ofNat, Nat.mod_eq_of_lt (by omega)]
    rfl
  rw [Bool.eq_iff_iff, beq_iff_eq, beq_iff_eq, counted, none]
  constructor
  · intro clear
    apply BitVec.eq_of_getLsbD_eq
    intro i inside
    exact (clear i (by omega) (by omega)).trans BitVec.getLsbD_zero.symm
  · rintro rfl i - -
    exact BitVec.getLsbD_zero

theorem reverse_shiftRight_reverse (word : BitVec 32) (amount : Nat) :
    (word.reverse >>> amount).reverse = word <<< amount := by
  apply BitVec.eq_of_getLsbD_eq
  intro i inside
  rw [BitVec.getLsbD_reverse, BitVec.getMsbD_eq_getLsbD, BitVec.getLsbD_ushiftRight,
    BitVec.getLsbD_reverse, BitVec.getMsbD_eq_getLsbD, BitVec.getLsbD_shiftLeft]
  by_cases low : i < amount
  · have outside : ¬amount + (32 - 1 - i) < 32 := by omega
    simp [low, outside]
  · have place : 32 - 1 - (amount + (32 - 1 - i)) = i - amount := by omega
    have high : amount + (32 - 1 - i) < 32 := by omega
    rw [place]
    simp [low, high, inside]

namespace DivInput

variable {input : DivInput}

theorem divisor_natAbs : input.divisor.natAbs = magnitude input.divOpASigned input.operandA := by
  rw [divisor, valueOf, divOpASigned]
  cases input.divSigned with
  | false => simp [magnitude]
  | true => simpa using natAbs_toInt input.operandA

theorem dividend_natAbs :
    input.dividend.natAbs = magnitude (input.operandB.msb && input.divSigned) input.operandB := by
  rw [dividend, valueOf]
  cases input.divSigned with
  | false => simp [magnitude]
  | true => simpa using natAbs_toInt input.operandB

theorem valueOf_neg (operand : BitVec 32) :
    decide (input.valueOf operand < 0) = (operand.msb && input.divSigned) := by
  rw [valueOf]
  cases input.divSigned with
  | false => simp
  | true => simp [BitVec.msb_eq_toInt]

theorem divisor_eq_zero : input.divisor = 0 ↔ input.operandA = 0 := by
  rw [divisor, valueOf]
  cases input.divSigned with
  | false => simp [BitVec.toNat_eq]
  | true =>
      change input.operandA.toInt = (0#32).toInt ↔ _
      exact BitVec.toInt_inj

theorem opBIsZero_eq : input.opBIsZero = decide (input.divisor = 0) := by
  rw [opBIsZero, cntResult_eq_zero, Bool.eq_iff_iff, beq_iff_eq, decide_eq_true_iff,
    divisor_eq_zero]

theorem toNat_shiftLeftResult :
    input.shiftLeftResult.toNat =
      input.operandA.toNat * 2 ^ (input.divShift.toNat % 32) % 2 ^ 32 := by
  rw [shiftLeftResult, reverse_shiftRight_reverse, BitVec.toNat_shiftLeft, BitVec.toNat_setWidth,
    Nat.shiftLeft_eq]

theorem dividend_lt (input : DivInput) : input.dividend.natAbs < 2 ^ 32 ∧
    (input.divSigned = true → input.dividend.natAbs ≤ 2 ^ 31) := by
  have bound := input.operandB.isLt
  rw [dividend_natAbs, magnitude, toNat_neg_word]
  cases signed : input.divSigned with
  | false => simpa using bound
  | true =>
      cases sign : input.operandB.msb with
      | false =>
          have low := BitVec.msb_eq_false_iff_two_mul_lt.mp sign
          simp
          omega
      | true =>
          have high := BitVec.toNat_ge_of_msb_true sign
          simp
          omega

/-- A divisor of zero is not shifted, but all places are counted. -/
theorem shift_of_zero (isZero : input.operandA = 0) :
    input.divShift = 32 ∧ input.shiftLeftResult = 0 ∧ input.divOpASigned = false := by
  have plain : input.ffInput = (0 : BitVec 32).reverse := by simp [ffInput, isZero]
  have unsigned : input.divOpASigned = false := by simp [divOpASigned, isZero]
  refine ⟨?_, ?_, unsigned⟩
  · rw [divShift, plain, ffNoOne_reverse, unsigned]
    rfl
  · rw [shiftLeftResult, reverse_shiftRight_reverse, isZero]
    exact BitVec.zero_shiftLeft _

/-- The divisor is shifted to the top of the word. -/
theorem shift_of_pos (nonzero : input.operandA ≠ 0) :
    input.divShift.toNat ≤ 31 ∧
      magnitude input.divOpASigned input.shiftLeftResult =
        input.divisor.natAbs * 2 ^ input.divShift.toNat ∧
      input.dividend.natAbs < 2 * (input.divisor.natAbs * 2 ^ input.divShift.toNat) := by
  have aBound := input.operandA.isLt
  have positive : 0 < input.operandA.toNat := by
    have notZero := mt BitVec.toNat_eq.mpr nonzero
    exact Nat.pos_of_ne_zero notZero
  obtain ⟨dividendBound, signedBound⟩ := dividend_lt input
  cases negative : input.divOpASigned with
  | false =>
      have plain : input.ffInput = input.operandA.reverse := by
        rw [ffInput, Bool.and_comm]
        exact if_neg (by rw [← divOpASigned, negative]; decide)
      have isSet : ffNoOne input.ffInput = false := by
        rw [plain, ffNoOne_reverse, beq_eq_false_iff_ne]
        exact nonzero
      obtain ⟨low, high⟩ := ff1Result_reverse nonzero
      rw [← plain] at low high
      have count := (ff1Result input.ffInput).isLt
      have shift : input.divShift.toNat = (ff1Result input.ffInput).toNat := by
        rw [divShift, isSet, negative, clbResult]
        simp
        omega
      have value : input.divisor.natAbs = input.operandA.toNat := by
        rw [divisor_natAbs, negative]
        rfl
      have placed : magnitude false input.shiftLeftResult = input.shiftLeftResult.toNat := rfl
      rw [placed, toNat_shiftLeftResult, value, shift, Nat.mod_eq_of_lt count,
        Nat.mod_eq_of_lt high]
      omega
  | true =>
      obtain ⟨sign, signed⟩ := Bool.and_eq_true_iff.mp negative
      have above := BitVec.toNat_ge_of_msb_true sign
      have inverted : (~~~input.operandA).toNat = 2 ^ 32 - 1 - input.operandA.toNat :=
        BitVec.toNat_not
      have reversed : input.ffInput = (~~~input.operandA).reverse := by
        rw [ffInput, signed, sign]
        rfl
      have value : input.divisor.natAbs = 2 ^ 32 - input.operandA.toNat := by
        rw [divisor_natAbs, negative, magnitude, if_pos rfl, toNat_neg_word]
        omega
      have half := signedBound signed
      -- the divisor is below the inverted word by one, so one place less is counted
      have shifted : input.divShift.toNat ≤ 31 ∧
          input.divisor.natAbs * 2 ^ input.divShift.toNat ≤ 2 ^ 31 ∧
          2 ^ 30 < input.divisor.natAbs * 2 ^ input.divShift.toNat := by
        by_cases minusOne : ~~~input.operandA = 0
        · have none : ffNoOne input.ffInput = true := by
            rw [reversed, ffNoOne_reverse, minusOne]
            rfl
          have shift : input.divShift.toNat = 31 := by
            rw [divShift, none, negative]
            rfl
          have one : input.divisor.natAbs = 1 := by
            rw [minusOne] at inverted
            have zero : (0 : BitVec 32).toNat = 0 := rfl
            omega
          rw [shift, one]
          decide
        · have isSet : ffNoOne input.ffInput = false := by
            rw [reversed, ffNoOne_reverse, beq_eq_false_iff_ne]
            exact minusOne
          obtain ⟨low, high⟩ := ff1Result_reverse minusOne
          rw [← reversed, inverted] at low high
          have count := (ff1Result input.ffInput).isLt
          have some : (ff1Result input.ffInput).toNat ≠ 0 := by
            intro none
            rw [none] at low
            omega
          have shift : input.divShift.toNat + 1 = (ff1Result input.ffInput).toNat := by
            rw [divShift, isSet, negative, clbResult]
            simp
            omega
          have less : 2 ^ 32 - 1 - input.operandA.toNat = input.divisor.natAbs - 1 := by omega
          rw [← shift, less, pow_succ 2 input.divShift.toNat] at low high
          have small : input.divShift.toNat ≤ 31 := by omega
          have split : 2 ^ 31 = 2 ^ (31 - input.divShift.toNat) * 2 ^ input.divShift.toNat := by
            rw [← Nat.pow_add]
            congr 1
            omega
          have fits : input.divisor.natAbs - 1 < 2 ^ (31 - input.divShift.toNat) := by
            apply Nat.lt_of_mul_lt_mul_right (a := 2 ^ input.divShift.toNat)
            rw [← split]
            rw [← Nat.mul_assoc] at high
            omega
          refine ⟨small, ?_, ?_⟩
          · rw [split]
            exact Nat.mul_le_mul_right _ (by omega)
          · have taken : (input.divisor.natAbs - 1) * 2 ^ input.divShift.toNat <
                input.divisor.natAbs * 2 ^ input.divShift.toNat :=
              Nat.mul_lt_mul_of_pos_right (by omega) (Nat.two_pow_pos _)
            rw [← Nat.mul_assoc] at low
            omega
      obtain ⟨small, atMost, atLeast⟩ := shifted
      have whole : input.operandA.toNat * 2 ^ input.divShift.toNat +
          input.divisor.natAbs * 2 ^ input.divShift.toNat =
            2 ^ 32 * 2 ^ input.divShift.toNat := by
        rw [← Nat.add_mul, value]
        congr 1
        omega
      refine ⟨small, ?_, by omega⟩
      rw [magnitude, if_pos rfl, toNat_neg_word, toNat_shiftLeftResult,
        Nat.mod_eq_of_lt (show input.divShift.toNat < 32 by omega)]
      omega

end DivInput

/-! ## One division -/

/-- The digits of the quotient that are above some places, in a word. -/
def digitsAbove (places dividend divisor : Nat) : Nat :=
  (if divisor = 0 then 2 ^ (33 - places) - 1 else dividend / (divisor * 2 ^ places)) % 2 ^ 32

/-- The registers of a division, with some places to go. -/
structure AluDiv.Divides (div : AluDiv) (op : DivInput) (places : Nat) : Prop where
  remSel : div.remSel = op.opCode.getLsbD 1
  compInv : div.compInv = op.divOpASigned
  resInv : div.resInv = ((!op.opBIsZero || op.opCode.getLsbD 1) && op.opCode.getLsbD 0 &&
    (op.operandB.msb ^^ op.divOpASigned))
  remainder : magnitude div.compInv div.aReg =
    op.dividend.natAbs % (op.divisor.natAbs * 2 ^ places)
  quotient : div.resReg.reverse.toNat =
    digitsAbove places op.dividend.natAbs op.divisor.natAbs

/-- The divider is at a place of the divisor. -/
structure AluDiv.AtPlace (div : AluDiv) (op : DivInput) : Prop where
  divides : div.Divides op (div.cnt.toNat + 1)
  within : div.cnt.toNat ≤ 32
  placed : magnitude div.compInv div.bReg = op.divisor.natAbs * 2 ^ div.cnt.toNat

section Step

variable {div : AluDiv} {op input : DivInput}

/-- The operands are loaded. -/
theorem AluDiv.atPlace_of_load (loads : div.loadEn input = true) :
    (div.step input).AtPlace input := by
  have shiftLeft : (div.step input).bReg = input.shiftLeftResult := by
    simp [AluDiv.step, loads]
  have count : (div.step input).cnt = input.divShift := by
    simp [AluDiv.step, loads]
  have signs : (div.step input).compInv = input.divOpASigned := by
    simp [AluDiv.step, loads]
  have cleared : (div.step input).resReg = 0 := by
    simp [AluDiv.step, loads]
  have empty : (0 : BitVec 32).reverse = 0 := BitVec.reverse_eq_zero_iff.mpr rfl
  have loaded : magnitude input.divOpASigned (div.step input).aReg =
      input.dividend.natAbs := by
    have same : input.divSigned = input.opCode.getLsbD 0 := rfl
    rw [DivInput.dividend_natAbs]
    simp only [AluDiv.step, loads, Bool.true_or, if_true, AluDiv.addOut, AluDiv.pmSel, ← same,
      DivInput.divOpASigned]
    cases input.divSigned <;> cases input.operandA.msb <;> cases input.operandB.msb <;>
      simp [magnitude]
  by_cases isZero : input.operandA = 0
  · obtain ⟨shift, none, plain⟩ := DivInput.shift_of_zero isZero
    have zero := DivInput.divisor_eq_zero.mpr isZero
    constructor
    case divides =>
      constructor
      case remSel => simp [AluDiv.step, loads]
      case compInv => exact signs
      case resInv => simp [AluDiv.step, loads]
      case remainder => rw [signs, loaded, zero, Int.natAbs_zero, Nat.zero_mul, Nat.mod_zero]
      case quotient =>
        rw [cleared, count, shift, zero, empty]
        rfl
    case within =>
      rw [count, shift]
      decide
    case placed =>
      rw [signs, plain, shiftLeft, none, zero, Int.natAbs_zero, Nat.zero_mul]
      rfl
  · obtain ⟨small, placed, bound⟩ := DivInput.shift_of_pos isZero
    have nonzero : input.divisor.natAbs ≠ 0 :=
      Int.natAbs_ne_zero.mpr (mt DivInput.divisor_eq_zero.mp isZero)
    have fits : input.dividend.natAbs < input.divisor.natAbs * 2 ^ (input.divShift.toNat + 1) := by
      rw [pow_succ, ← Nat.mul_assoc, Nat.mul_comm _ 2]
      exact bound
    constructor
    case divides =>
      constructor
      case remSel => simp [AluDiv.step, loads]
      case compInv => exact signs
      case resInv => simp [AluDiv.step, loads]
      case remainder => rw [signs, loaded, count, Nat.mod_eq_of_lt fits]
      case quotient =>
        rw [cleared, count, digitsAbove, if_neg nonzero, Nat.div_eq_of_lt fits, empty]
        rfl
    case within => rw [count]; omega
    case placed => rw [signs, shiftLeft, count, placed]

/-- The next digit. -/
theorem digitsAbove_next (places dividend divisor : Nat) (within : places ≤ 32) :
    digitsAbove places dividend divisor =
      (2 * digitsAbove (places + 1) dividend divisor +
        (decide (divisor * 2 ^ places ≤ dividend % (divisor * 2 ^ (places + 1)))).toNat) %
          2 ^ 32 := by
  have doubled : divisor * 2 ^ (places + 1) = 2 * (divisor * 2 ^ places) := by ring
  rw [digitsAbove, digitsAbove, Nat.add_mod, Nat.mul_mod_mod, ← Nat.add_mod]
  by_cases zero : divisor = 0
  · rw [if_pos zero, if_pos zero, zero, Nat.zero_mul, Nat.zero_mul,
      decide_eq_true (Nat.zero_le _), Bool.toNat_true]
    have next : 33 - places = 33 - (places + 1) + 1 := by omega
    have positive := Nat.two_pow_pos (33 - (places + 1))
    rw [next, pow_succ 2]
    congr 1
    omega
  · have positive : 0 < divisor * 2 ^ places :=
      Nat.mul_pos (Nat.pos_of_ne_zero zero) (Nat.two_pow_pos places)
    rw [if_neg zero, if_neg zero, doubled, div_place dividend positive]

theorem AluDiv.cnt_step (keeps : div.loadEn input = false) (more : div.cnt ≠ 0) :
    (div.step input).cnt.toNat + 1 = div.cnt.toNat := by
  have nonzero : div.cnt.toNat ≠ 0 := fun zero => more (BitVec.eq_of_toNat_eq zero)
  have down : (div.step input).cnt = div.cnt - 1 := by
    simp only [AluDiv.step, keeps, Bool.false_eq_true, if_false]
    exact if_pos more
  have bound := div.cnt.isLt
  rw [down, BitVec.toNat_sub]
  simp
  omega

/-- A cycle of a division finds the digit at its place. -/
theorem AluDiv.AtPlace.step (atPlace : div.AtPlace op) (divides : div.state = .divide)
    (held : input.operandA = 0 ↔ op.operandA = 0) :
    (div.step input).Divides op div.cnt.toNat ∧
      (div.cnt ≠ 0 → (div.step input).AtPlace op) := by
  obtain ⟨before, within, placed⟩ := atPlace
  have keeps : div.loadEn input = false := by simp [AluDiv.loadEn, divides]
  have sameZero : input.opBIsZero = op.opBIsZero := by
    rw [DivInput.opBIsZero_eq, DivInput.opBIsZero_eq, decide_eq_decide,
      DivInput.divisor_eq_zero, DivInput.divisor_eq_zero, held]
  have doubled : op.divisor.natAbs * 2 ^ (div.cnt.toNat + 1) =
      2 * (op.divisor.natAbs * 2 ^ div.cnt.toNat) := by ring
  have positive : input.opBIsZero = false → 0 < op.divisor.natAbs * 2 ^ div.cnt.toNat := by
    intro nonzero
    rw [sameZero, DivInput.opBIsZero_eq, decide_eq_false_iff_not] at nonzero
    exact Nat.mul_pos (Int.natAbs_pos.mpr nonzero) (Nat.two_pow_pos _)
  have digit : div.abComp input = decide (op.divisor.natAbs * 2 ^ div.cnt.toNat ≤
      op.dividend.natAbs % (op.divisor.natAbs * 2 ^ (div.cnt.toNat + 1))) := by
    rw [← before.remainder, ← placed]
    apply AluDiv.abComp_eq
    · rwa [placed]
    · intro isZero
      rw [sameZero, DivInput.opBIsZero_eq, decide_eq_true_iff] at isZero
      obtain ⟨-, -, plain⟩ := DivInput.shift_of_zero (DivInput.divisor_eq_zero.mp isZero)
      have signs := before.compInv.trans plain
      rw [isZero, Int.natAbs_zero, Nat.zero_mul, signs] at placed
      exact ⟨signs, BitVec.toNat_eq.mpr placed⟩
  have signs : (div.step input).compInv = div.compInv := by simp [AluDiv.step, keeps]
  have now : (div.step input).Divides op div.cnt.toNat := by
    constructor
    case remSel => simpa [AluDiv.step, keeps] using before.remSel
    case compInv => rw [signs, before.compInv]
    case resInv => simpa [AluDiv.step, keeps] using before.resInv
    case remainder =>
      have subtracts : (div.step input).aReg =
          if div.abComp input then div.aReg - div.bReg else div.aReg := by
        simp [AluDiv.step, AluDiv.addOut, AluDiv.pmSel, keeps, divides]
      rw [signs, subtracts, mod_place, ← doubled, digit, ← before.remainder, ← placed]
      simp only [decide_eq_true_iff]
      split
      next fits => exact magnitude_sub fits
      next => rfl
    case quotient =>
      have shifts : (div.step input).resReg = AluDiv.intoTop (div.abComp input) div.resReg := by
        simp [AluDiv.step, keeps, divides]
      rw [shifts, toNat_reverse_intoTop, before.quotient, digitsAbove_next _ _ _ within, digit]
  refine ⟨now, ?_⟩
  intro more
  have counts := AluDiv.cnt_step keeps more
  constructor
  case divides => rwa [counts]
  case within => omega
  case placed =>
    have halves : (div.step input).bReg = AluDiv.intoTop div.compInv div.bReg := by
      simp [AluDiv.step, keeps, divides]
    rw [signs, halves]
    apply magnitude_intoTop
    · rw [placed, ← counts]
      ring
    · intro negative
      have nonneg : op.divisor.natAbs ≠ 0 := by
        rw [before.compInv] at negative
        intro zero
        obtain ⟨-, -, plain⟩ := DivInput.shift_of_zero
          (DivInput.divisor_eq_zero.mp (Int.natAbs_eq_zero.mp zero))
        rw [plain] at negative
        exact Bool.noConfusion negative
      exact Nat.mul_pos (Nat.pos_of_ne_zero nonneg) (Nat.two_pow_pos _)

theorem eq_of_magnitude {negative : Bool} {word : BitVec 32} {value : Nat}
    (is : magnitude negative word = value) :
    word = if negative then -BitVec.ofNat 32 value else BitVec.ofNat 32 value := by
  cases negative with
  | false => rw [← is, magnitude, if_neg Bool.false_ne_true, if_neg Bool.false_ne_true,
      BitVec.ofNat_toNat, BitVec.setWidth_eq]
  | true => rw [← is, magnitude, if_pos rfl, if_pos rfl, BitVec.ofNat_toNat, BitVec.setWidth_eq,
      BitVec.neg_neg]

theorem ofInt_signed (negative : Bool) (value : Nat) :
    BitVec.ofInt 32 (if negative = true then -(value : Int) else value) =
      if negative then -BitVec.ofNat 32 value else BitVec.ofNat 32 value := by
  cases negative with
  | false => exact BitVec.ofInt_natCast 32 value
  | true =>
      rw [if_pos rfl, if_pos rfl, BitVec.ofInt_neg]
      exact congrArg (-·) (BitVec.ofInt_natCast 32 value)

/-- At the end the registers have the result. -/
theorem AluDiv.Divides.res_eq (divides : div.Divides op 0) : div.res = op.answer := by
  obtain ⟨remSel, compInv, resInv, remainder, quotient⟩ := divides
  have dividendSign : decide (op.dividend < 0) = (op.operandB.msb && op.opCode.getLsbD 0) :=
    op.valueOf_neg op.operandB
  have divisorSign : decide (op.divisor < 0) = op.divOpASigned := op.valueOf_neg op.operandA
  have signed : op.divOpASigned = (op.operandA.msb && op.opCode.getLsbD 0) := rfl
  rw [pow_zero, Nat.mul_one] at remainder
  rw [AluDiv.res, DivInput.answer, remSel, resInv]
  cases isRem : op.opCode.getLsbD 1 with
  | true =>
      have left := eq_of_magnitude remainder
      rw [if_pos rfl, if_pos rfl, tmod_eq_natAbs, ofInt_signed, dividendSign, left, compInv,
        signed]
      cases op.opCode.getLsbD 0 <;> cases op.operandA.msb <;> cases op.operandB.msb <;> simp
  | false =>
      rw [if_neg Bool.false_ne_true, if_neg Bool.false_ne_true, Bool.or_false,
        DivInput.opBIsZero_eq]
      by_cases zero : op.divisor = 0
      · have ones : div.resReg.reverse = BitVec.allOnes 32 := by
          apply BitVec.eq_of_toNat_eq
          rw [quotient, zero, digitsAbove, Int.natAbs_zero, if_pos rfl, BitVec.toNat_allOnes]
          decide
        rw [if_pos zero, decide_eq_true zero, ones]
        rfl
      · have found : div.resReg.reverse =
            BitVec.ofNat 32 (op.dividend.natAbs / op.divisor.natAbs) := by
          apply BitVec.eq_of_toNat_eq
          rw [quotient, digitsAbove, if_neg (Int.natAbs_ne_zero.mpr zero), pow_zero, Nat.mul_one,
            BitVec.toNat_ofNat]
        rw [if_neg zero, decide_eq_false zero, tdiv_eq_natAbs, ofInt_signed, dividendSign,
          divisorSign, found, signed]
        cases op.opCode.getLsbD 0 <;> cases op.operandA.msb <;> cases op.operandB.msb <;> simp

end Step

section Runs

variable (inputs : List DivInput)

/-- The divisions that were started. -/
def divisions : List DivInput := divMachine.observed AluDiv.starts inputs

/-- The results that were handed over. -/
def results : List (BitVec 32) := divMachine.observed AluDiv.answers inputs

/-- The ALU stalls the pipeline while the divider divides: the divisor stays zero, or not. -/
def HoldsDivisor : Prop :=
  ∀ n, (inside : n < inputs.length) → (divMachine.run (inputs.take n)).state = .divide →
    ∀ op ∈ (divisions (inputs.take n)).getLast?, (inputs[n].operandA = 0 ↔ op.operandA = 0)

def AluDiv.dividing (div : AluDiv) (_ : DivInput) : Bool := div.state == .divide

/-- The cycles that the divider still divides for. -/
def AluDiv.remaining (div : AluDiv) : Nat := if div.state = .divide then div.cnt.toNat + 1 else 0

/-- Every division that is started is answered, in order and before the next one, and takes its
number of cycles. -/
structure DividerAnswers : Prop where
  answers : results inputs <+: (divisions inputs).map DivInput.answer
  idleAnswered : (divMachine.run inputs).state = .idle →
    results inputs = (divisions inputs).map DivInput.answer
  oneUnderWay : (divisions inputs).length ≤ (results inputs).length + 1
  valid : ∀ input : DivInput, input.divValid = true →
    (divMachine.run inputs).outVld input = true →
      ∃ op ∈ (divisions inputs).getLast?, (divMachine.run inputs).res = op.answer
  takes : divMachine.counted AluDiv.dividing inputs + (divMachine.run inputs).remaining =
    ((divisions inputs).map DivInput.cycles).sum
  bounded : divMachine.counted AluDiv.dividing inputs ≤ 33 * (divisions inputs).length

variable {inputs}

/-- The divider works on the last division. -/
def AluDiv.Follows (div : AluDiv) (last : Option DivInput) : Prop :=
  match div.state with
  | .idle => True
  | .divide => ∃ op ∈ last, div.AtPlace op
  | .finish => ∃ op ∈ last, div.Divides op 0

/-- The answer that has not been handed over. -/
def AluDiv.pending (div : AluDiv) (last : Option DivInput) : List (BitVec 32) :=
  if div.state = .idle then [] else (last.map DivInput.answer).toList

theorem DivInput.cycles_le (op : DivInput) : op.cycles ≤ 33 := by
  rw [DivInput.cycles]
  by_cases isZero : op.operandA = 0
  · obtain ⟨shift, -⟩ := DivInput.shift_of_zero isZero
    rw [shift]
    decide
  · obtain ⟨small, -⟩ := DivInput.shift_of_pos isZero
    omega

section Cycle

variable {div : AluDiv} {input : DivInput} {started : List DivInput}

theorem AluDiv.loadEn_of_busy (busy : div.state ≠ .idle) : div.loadEn input = false := by
  rw [AluDiv.loadEn, beq_eq_false_iff_ne.mpr busy, Bool.false_and]

/-- One cycle. -/
theorem AluDiv.Follows.step (follows : div.Follows started.getLast?)
    (held : div.state = .divide →
      ∀ op ∈ started.getLast?, (input.operandA = 0 ↔ op.operandA = 0)) :
    (div.step input).Follows (started ++ div.starts input).getLast? ∧
      div.pending started.getLast? ++ (div.starts input).map DivInput.answer =
        div.answers input ++ (div.step input).pending (started ++ div.starts input).getLast? ∧
      (div.dividing input).toNat + (div.step input).remaining =
        div.remaining + ((div.starts input).map DivInput.cycles).sum := by
  cases state : div.state with
  | idle =>
      cases valid : input.divValid with
      | false =>
          have quiet : div.loadEn input = false := by simp [AluDiv.loadEn, state, valid]
          have stays : (div.step input).state = .idle := by simp [AluDiv.step, state, valid]
          simp [AluDiv.Follows, AluDiv.pending, AluDiv.starts, AluDiv.answers, AluDiv.dividing,
            AluDiv.remaining, quiet, stays, state]
      | true =>
          have loads : div.loadEn input = true := by simp [AluDiv.loadEn, state, valid]
          have divides : (div.step input).state = .divide := by simp [AluDiv.step, state, valid]
          have count : (div.step input).cnt = input.divShift := by simp [AluDiv.step, loads]
          have atPlace := AluDiv.atPlace_of_load loads
          simp [AluDiv.Follows, AluDiv.pending, AluDiv.starts, AluDiv.answers, AluDiv.dividing,
            AluDiv.remaining, DivInput.cycles, loads, divides, state, count, atPlace]
  | divide =>
      have quiet : div.loadEn input = false := AluDiv.loadEn_of_busy (by simp [state])
      obtain ⟨op, isLast, atPlace⟩ : ∃ op ∈ started.getLast?, div.AtPlace op := by
        simpa only [AluDiv.Follows, state] using follows
      obtain ⟨next, more⟩ := atPlace.step state (held state op isLast)
      by_cases last : div.cnt = 0
      · have finishes : (div.step input).state = .finish := by
          simp only [AluDiv.step, state]
          exact if_pos last
        have ends : ∃ op ∈ started.getLast?, (div.step input).Divides op 0 := by
          rw [last] at next
          exact ⟨op, isLast, next⟩
        have zero : div.cnt.toNat = 0 := congrArg BitVec.toNat last
        simpa [AluDiv.Follows, AluDiv.pending, AluDiv.starts, AluDiv.answers, AluDiv.dividing,
          AluDiv.remaining, quiet, finishes, state, zero] using ends
      · have stays : (div.step input).state = .divide := by
          simp only [AluDiv.step, state]
          exact if_neg last
        have goesOn : ∃ op ∈ started.getLast?, (div.step input).AtPlace op :=
          ⟨op, isLast, more last⟩
        have counts := AluDiv.cnt_step quiet last
        simpa [AluDiv.Follows, AluDiv.pending, AluDiv.starts, AluDiv.answers, AluDiv.dividing,
          AluDiv.remaining, quiet, stays, state, counts, Nat.add_comm] using goesOn
  | finish =>
      have quiet : div.loadEn input = false := AluDiv.loadEn_of_busy (by simp [state])
      obtain ⟨op, isLast, divides⟩ : ∃ op ∈ started.getLast?, div.Divides op 0 := by
        simpa only [AluDiv.Follows, state] using follows
      cases ready : input.exReady with
      | false =>
          have stays : (div.step input).state = .finish := by simp [AluDiv.step, state, ready]
          have kept : ∃ op ∈ started.getLast?, (div.step input).Divides op 0 := by
            obtain ⟨remSel, compInv, resInv, remainder, quotient⟩ := divides
            refine ⟨op, isLast, ?_⟩
            constructor
            case remSel => simpa [AluDiv.step, quiet] using remSel
            case compInv => simpa [AluDiv.step, quiet] using compInv
            case resInv => simpa [AluDiv.step, quiet] using resInv
            case remainder => simpa [AluDiv.step, quiet, state] using remainder
            case quotient => simpa [AluDiv.step, quiet, state] using quotient
          simpa [AluDiv.Follows, AluDiv.pending, AluDiv.starts, AluDiv.answers, AluDiv.dividing,
            AluDiv.remaining, quiet, stays, state, ready] using kept
      | true =>
          have ends : (div.step input).state = .idle := by simp [AluDiv.step, state, ready]
          have answer := divides.res_eq
          rw [Option.mem_def] at isLast
          simp [AluDiv.Follows, AluDiv.pending, AluDiv.starts, AluDiv.answers, AluDiv.dividing,
            AluDiv.remaining, quiet, ends, state, ready, answer, isLast]

end Cycle

theorem HoldsDivisor.of_append {later : List DivInput} (holds : HoldsDivisor (inputs ++ later)) :
    HoldsDivisor inputs := by
  intro n inside
  have held := holds n (by rw [List.length_append]; omega)
  rwa [List.take_append_of_le_length (Nat.le_of_lt inside), List.getElem_append_left inside]
    at held

/-- The divider after a run. -/
theorem divFollows (holds : HoldsDivisor inputs) :
    (divMachine.run inputs).Follows (divisions inputs).getLast? ∧
      (divisions inputs).map DivInput.answer =
        results inputs ++ (divMachine.run inputs).pending (divisions inputs).getLast? ∧
      divMachine.counted AluDiv.dividing inputs + (divMachine.run inputs).remaining =
        ((divisions inputs).map DivInput.cycles).sum := by
  induction inputs using List.reverseRecOn with
  | nil => exact ⟨trivial, rfl, rfl⟩
  | append_singleton inputs input inductionHypothesis =>
      obtain ⟨follows, answered, taken⟩ := inductionHypothesis holds.of_append
      have held := holds inputs.length (by simp)
      rw [List.take_left, List.getElem_concat_length rfl] at held
      obtain ⟨next, answers, takes⟩ := follows.step held
      have started : divisions (inputs ++ [input]) =
          divisions inputs ++ (divMachine.run inputs).starts input := Machine.observed_snoc ..
      have handed : results (inputs ++ [input]) =
          results inputs ++ (divMachine.run inputs).answers input := Machine.observed_snoc ..
      have stepped : divMachine.run (inputs ++ [input]) = (divMachine.run inputs).step input :=
        Machine.run_snoc ..
      rw [started, handed, stepped]
      refine ⟨next, ?_, ?_⟩
      · rw [List.map_append, answered, List.append_assoc, answers, List.append_assoc]
      · rw [List.map_append, List.sum_append, ← taken, Machine.counted_snoc]
        omega

/-- The divider divides as the instructions ask, signed and unsigned, by zero and on overflow,
for every run in which the divisor is held. -/
theorem divider_answers (inputs : List DivInput) (holds : HoldsDivisor inputs) :
    DividerAnswers inputs := by
  obtain ⟨follows, answered, takes⟩ := divFollows holds
  constructor
  case answers =>
    rw [answered]
    exact List.prefix_append _ _
  case idleAnswered =>
    intro idle
    rw [answered, AluDiv.pending, if_pos idle, List.append_nil]
  case oneUnderWay =>
    have counted := congrArg List.length answered
    have one : ((divMachine.run inputs).pending (divisions inputs).getLast?).length ≤ 1 := by
      rw [AluDiv.pending]
      split
      · exact Nat.zero_le 1
      · cases (divisions inputs).getLast? with
        | none => exact Nat.zero_le 1
        | some op => exact Nat.le_refl 1
    rw [List.length_map, List.length_append] at counted
    omega
  case valid =>
    intro input asks isValid
    rw [AluDiv.outVld] at isValid
    rw [AluDiv.Follows] at follows
    cases state : (divMachine.run inputs).state with
    | idle => simp [state, asks] at isValid
    | divide => simp [state] at isValid
    | finish =>
        simp only [state] at follows
        obtain ⟨op, isLast, divides⟩ := follows
        exact ⟨op, isLast, divides.res_eq⟩
  case takes => exact takes
  case bounded =>
    have most := List.sum_le_card_nsmul ((divisions inputs).map DivInput.cycles) 33 (by
      intro cycles member
      obtain ⟨op, -, rfl⟩ := List.mem_map.mp member
      exact op.cycles_le)
    rw [List.length_map, Nat.nsmul_eq_mul, Nat.mul_comm] at most
    omega

end Runs

/-- From a state on, with the last division that was started, the divisor is held. -/
def heldFrom (div : AluDiv) (last : Option DivInput) : List DivInput → Bool
  | [] => true
  | input :: inputs =>
      (div.state != .divide ||
        last.all fun op => decide (input.operandA = 0 ↔ op.operandA = 0)) &&
      heldFrom (div.step input) ((div.starts input).getLast?.or last) inputs

theorem HoldsDivisor.append {before inputs : List DivInput} (holds : HoldsDivisor before)
    (held : heldFrom (divMachine.run before) (divisions before).getLast? inputs = true) :
    HoldsDivisor (before ++ inputs) := by
  induction inputs generalizing before with
  | nil => rwa [List.append_nil]
  | cons input inputs inductionHypothesis =>
      rw [heldFrom, Bool.and_eq_true] at held
      rw [List.append_cons]
      apply inductionHypothesis
      · intro n inside dividing op isLast
        by_cases earlier : n < before.length
        · rw [List.take_append_of_le_length (Nat.le_of_lt earlier)] at dividing isLast
          rw [List.getElem_append_left earlier]
          exact holds n earlier dividing op isLast
        · have atEnd : n = before.length := by
            rw [List.length_append, List.length_singleton] at inside
            omega
          subst atEnd
          rw [List.take_left] at dividing isLast
          rw [List.getElem_concat_length rfl]
          have now := held.1
          rw [dividing, Option.mem_def.mp isLast] at now
          simpa using now
      · rw [Machine.run_snoc, divisions, Machine.observed_snoc, List.getLast?_append]
        exact held.2

/-- A division, with its operands held until the result is handed over. -/
def DivInput.throughout (op : DivInput) : List DivInput := List.replicate (op.cycles + 2) op

/-- An overflow, a remainder by zero and a quotient with a negative divisor. -/
def threeDivisions : List DivInput :=
  [(1, 0xFFFFFFFF, 0x80000000), (3, 0, 0xFFFFFFFB), (1, 0xFFFFFFFD, 100)].flatMap
    fun (opCode, operandA, operandB) =>
      DivInput.throughout
        { divValid := true, opCode := opCode, operandA := operandA, operandB := operandB
          exReady := true }

theorem threeDivisions_held : HoldsDivisor threeDivisions := by
  rw [← List.nil_append threeDivisions]
  apply HoldsDivisor.append
  · exact fun n inside => absurd inside (Nat.not_lt_zero n)
  · decide +kernel

theorem threeDivisions_answers :
    results threeDivisions = [0x80000000, 0xFFFFFFFB, 0xFFFFFFDF] ∧ DividerAnswers threeDivisions :=
  ⟨by decide +kernel, divider_answers threeDivisions threeDivisions_held⟩

end CoreVMcu.Cv32e40p
