import CoreVMcu.Efpga.BwMultiplier

/-!
# The 16-bit accumulator of the eFPGA

`MAC_16BIT` adds products to 40 bits.  Its output is cut out of the accumulator at the position
that was selected a cycle before, and clamped when `MAC_ACC_SAT` is set.
-/

namespace CoreVMcu.Efpga

/-- The inputs of `MAC_16BIT` at an edge of its clock or of `acc_ff_rstn`. -/
structure MacInput where
  operData : BitVec 16
  coefData : BitVec 16
  accRnd : Bool
  accClear : Bool
  accSat : Bool
  outSel : BitVec 6
  tc : Bool
  mathbClkEn : Bool
  accFfRstn : Bool

/-- `fmux_acc_idata` and `fMAC_OUT_SEL`. -/
structure Mac16Bit where
  acc : BitVec 40
  outSel : BitVec 6

namespace Mac16Bit

variable (mac : Mac16Bit) (input : MacInput)

/-- `{oper_sign, MAC_OPER_DATA}` and `{coef_sign, MAC_COEF_DATA}`. -/
def extended (tc : Bool) (data : BitVec 16) : BitVec 20 :=
  (if tc && data.getLsbD 15 then 0b1111#4 else 0b0000#4) ++ data

/-- `is_rounded_value`. -/
def roundedValue (outSel : BitVec 6) : BitVec 40 :=
  if 1 ≤ outSel ∧ outSel ≤ 24 then 1#40 <<< (outSel.toNat - 1) else 0

/-- `feedback_acc_data`. -/
def feedbackAccData : BitVec 40 :=
  if input.accClear then 0
  else if input.accRnd then roundedValue input.outSel
  else mac.acc

/-- `DWMAC_out`. -/
def dwMacOut : BitVec 40 :=
  BwMac.mac
    { a := extended input.tc input.operData, b := extended input.tc input.coefData,
      c := mac.feedbackAccData input, tc := input.tc }

/-- `mux_acc_idata`. -/
def muxAccIdata : BitVec 40 := if input.mathbClkEn then mac.dwMacOut input else mac.acc

/-- An edge. -/
def step : Mac16Bit :=
  if input.accFfRstn then { acc := mac.muxAccIdata input, outSel := input.outSel }
  else { acc := 0, outSel := 0 }

/-- `acc_data_out_sel`. -/
def accDataOutSel : BitVec 16 :=
  mac.acc.extractLsb' (if mac.outSel ≤ 24 then mac.outSel.toNat else 0) 16

/-- `is_not_saturation` of one case. -/
def fits (tc : Bool) (outSel : Nat) : Bool :=
  mac.acc.extractLsb' (15 + outSel) (25 - outSel) = BitVec.allOnes _ ∨
    mac.acc.extractLsb' (15 + outSel) (25 - outSel) = 0#_ ∨
    tc = false ∧ mac.acc.extractLsb' (16 + outSel) (24 - outSel) = 0#_

/-- `is_not_saturation`. -/
def isNotSaturation (tc : Bool) : Bool :=
  mac.fits tc (if mac.outSel ≤ 23 then mac.outSel.toNat else 0)

/-- `MAC_OUT` with `MAC_ACC_SAT`. -/
def clamped (tc : Bool) : BitVec 16 :=
  if mac.isNotSaturation tc then mac.accDataOutSel
  else if tc = false then 0xFFFF
  else if mac.acc.getLsbD 39 then 0x8000
  else 0x7FFF

/-- `MAC_OUT`. -/
def macOut : BitVec 16 := if input.accSat then mac.clamped input.tc else mac.accDataOutSel

/-- A run. -/
def run (start : Mac16Bit) (inputs : List MacInput) : Mac16Bit := inputs.foldl step start

end Mac16Bit

/-! ## The sum of the products -/

namespace MacInput

variable (input : MacInput)

/-- The product of an edge. -/
def product : Int := operand input.tc input.operData * operand input.tc input.coefData

/-- What an edge adds. -/
def added : Int := if input.mathbClkEn then input.product else 0

/-- The sum starts again at an edge: a reset, or an enabled clear or round. -/
def Starts : Prop :=
  input.accFfRstn = false ∨
    input.mathbClkEn = true ∧ (input.accClear = true ∨ input.accRnd = true)

/-- What a clear or a round starts from. -/
def startsFrom : Int :=
  if input.accClear then 0 else if input.outSel = 0 then 0 else 2 ^ (input.outSel.toNat - 1)

/-- The sum after an edge at which it starts. -/
def first : Int := if input.accFfRstn then input.startsFrom + input.product else 0

end MacInput

namespace Mac16Bit

/-- The accumulator is the sum since the last start, or since the beginning of the run. -/
structure Accumulated (start : Mac16Bit) (inputs : List MacInput) : Prop where
  started : ∀ before first after, inputs = before ++ first :: after → first.Starts →
    (∀ input ∈ after, ¬input.Starts) →
    (run start inputs).acc = BitVec.ofInt 40 (first.first + (after.map (·.added)).sum)
  unstarted : (∀ input ∈ inputs, ¬input.Starts) →
    (run start inputs).acc = BitVec.ofInt 40 (start.acc.toNat + (inputs.map (·.added)).sum)

/-- The accumulator, shifted right by the registered select. -/
def shifted (mac : Mac16Bit) (tc : Bool) : Int := operand tc mac.acc / 2 ^ mac.outSel.toNat

/-- The range of the output. -/
def lowest (tc : Bool) : Int := if tc then -2 ^ 15 else 0

def highest (tc : Bool) : Int := if tc then 2 ^ 15 - 1 else 2 ^ 16 - 1

/-- What the output is meant to be. -/
def expectedOut (mac : Mac16Bit) (input : MacInput) : BitVec 16 :=
  BitVec.ofInt 16
    (if input.accSat then max (lowest input.tc) (min (highest input.tc) (mac.shifted input.tc))
      else mac.shifted input.tc)

/-- The accumulator without its lowest bits. -/
def highBits (mac : Mac16Bit) : Nat := mac.acc.toNat / 2 ^ mac.outSel.toNat

/-- A clamped output is right: an unsigned sum does not look like a small negative one, and at
the last select, where the sum is compared from bit 15 on, it fits there or is clamped to itself. -/
def ClampsRight (mac : Mac16Bit) (tc : Bool) : Prop :=
  if mac.outSel ≤ 23 then
    tc = true ∨ mac.highBits < 2 ^ (40 - mac.outSel.toNat) - 2 ^ 15 ∨
      mac.highBits = 2 ^ (40 - mac.outSel.toNat) - 1
  else if tc then
    -2 ^ 15 ≤ mac.acc.toInt ∧ mac.acc.toInt < 2 ^ 15 ∨ mac.acc.toInt < -2 ^ 39 + 2 ^ 24 ∨
      2 ^ 39 - 2 ^ 24 ≤ mac.acc.toInt
  else mac.acc.toNat < 2 ^ 16 ∨ 2 ^ 40 - 2 ^ 24 ≤ mac.acc.toNat

theorem toNat_extended (tc : Bool) (data : BitVec 16) :
    (extended tc data).toNat =
      (if tc && data.getLsbD 15 then 15 else 0) * 2 ^ 16 + data.toNat := by
  rw [extended, BitVec.toNat_append, ← Nat.shiftLeft_add_eq_or_of_lt data.isLt, Nat.shiftLeft_eq]
  cases tc && data.getLsbD 15 <;> rfl

theorem operand_extended (tc : Bool) (data : BitVec 16) :
    operand tc (extended tc data) = operand tc data := by
  have extension := toNat_extended tc data
  cases tc with
  | false =>
      rw [Bool.false_and, if_neg Bool.false_ne_true, Nat.zero_mul, Nat.zero_add] at extension
      exact congrArg Int.ofNat extension
  | true =>
      have inside := data.isLt
      have sign : data.getLsbD 15 = decide (2 ^ 15 ≤ data.toNat) := by
        rw [← BitVec.msb_eq_getLsbD_last data, BitVec.msb_eq_decide]
      rw [sign, Bool.true_and] at extension
      rw [operand, operand, if_pos rfl, if_pos rfl, BitVec.toInt_eq_toNat_cond,
        BitVec.toInt_eq_toNat_cond]
      by_cases negative : 2 ^ 15 ≤ data.toNat
      · rw [decide_eq_true negative, if_pos rfl] at extension
        rw [if_neg (by omega), if_neg (by omega)]
        omega
      · rw [decide_eq_false negative, if_neg Bool.false_ne_true] at extension
        rw [if_pos (by omega), if_pos (by omega)]
        omega

/-- What an enabled edge leaves. -/
theorem dwMacOut_eq (mac : Mac16Bit) (input : MacInput) :
    mac.dwMacOut input =
      BitVec.ofInt 40 (input.product + (mac.feedbackAccData input).toNat) := by
  have product := BwMultiplier.z_eq
    { a := extended input.tc input.operData, aIsSigned := input.tc,
      b := extended input.tc input.coefData, bIsSigned := input.tc } (by decide) (by decide)
  rw [operand_extended, operand_extended] at product
  rw [BitVec.ofInt_add, BitVec.ofInt_natCast, BitVec.ofNat_toNat, BitVec.setWidth_eq]
  exact congrArg (· + _) product

/-- The feedback of an edge at which the sum starts again. -/
theorem toNat_feedbackAccData (mac : Mac16Bit) {input : MacInput} (inside : input.outSel ≤ 24)
    (starts : input.accClear = true ∨ input.accRnd = true) :
    ((mac.feedbackAccData input).toNat : Int) = input.startsFrom := by
  rw [feedbackAccData, MacInput.startsFrom]
  cases clear : input.accClear with
  | true => rfl
  | false =>
      have round : input.accRnd = true := by simpa [clear] using starts
      rw [if_neg Bool.false_ne_true, if_neg Bool.false_ne_true, if_pos round, roundedValue]
      by_cases zero : input.outSel = 0
      · simp [zero]
      · have pos : 1 ≤ input.outSel := by bv_omega
        have below : input.outSel.toNat - 1 < 40 := by bv_omega
        have fitting : 2 ^ (input.outSel.toNat - 1) < 2 ^ 40 :=
          Nat.pow_lt_pow_right (by decide) below
        rw [if_pos ⟨pos, inside⟩, if_neg zero, BitVec.toNat_shiftLeft, Nat.shiftLeft_eq]
        rw [show (1#40).toNat = 1 from rfl, Nat.one_mul, Nat.mod_eq_of_lt fitting]
        norm_num

theorem acc_step_of_starts (mac : Mac16Bit) {input : MacInput} (inside : input.outSel ≤ 24)
    (starts : input.Starts) : (mac.step input).acc = BitVec.ofInt 40 input.first := by
  rw [step, MacInput.first]
  cases reset : input.accFfRstn with
  | false => rfl
  | true =>
      have enabled : input.mathbClkEn = true ∧ (input.accClear = true ∨ input.accRnd = true) := by
        simpa [MacInput.Starts, reset] using starts
      rw [if_pos rfl, if_pos rfl]
      change mac.muxAccIdata input = _
      rw [muxAccIdata, if_pos enabled.1, dwMacOut_eq, mac.toNat_feedbackAccData inside enabled.2,
        Int.add_comm]

theorem acc_step_of_not_starts (mac : Mac16Bit) {input : MacInput} (goesOn : ¬input.Starts)
    {total : Int} (holds : mac.acc = BitVec.ofInt 40 total) :
    (mac.step input).acc = BitVec.ofInt 40 (total + input.added) := by
  have running : input.accFfRstn = true := by
    cases reset : input.accFfRstn with
    | true => rfl
    | false => exact absurd (Or.inl reset) goesOn
  rw [step, if_pos running]
  change mac.muxAccIdata input = _
  rw [muxAccIdata, MacInput.added]
  cases enabled : input.mathbClkEn with
  | false => rw [if_neg Bool.false_ne_true, if_neg Bool.false_ne_true, holds, Int.add_zero]
  | true =>
      have neither : input.accClear = false ∧ input.accRnd = false := by
        simpa [MacInput.Starts, running, enabled] using goesOn
      rw [if_pos rfl, if_pos rfl, dwMacOut_eq, feedbackAccData, neither.1, neither.2,
        if_neg Bool.false_ne_true, if_neg Bool.false_ne_true, BitVec.ofInt_add, BitVec.ofInt_add,
        BitVec.ofInt_natCast, BitVec.ofNat_toNat, BitVec.setWidth_eq, holds, BitVec.add_comm]

theorem acc_run_of_not_starts {inputs : List MacInput} (goesOn : ∀ input ∈ inputs, ¬input.Starts)
    {mac : Mac16Bit} {total : Int} (holds : mac.acc = BitVec.ofInt 40 total) :
    (run mac inputs).acc = BitVec.ofInt 40 (total + (inputs.map (·.added)).sum) := by
  induction inputs generalizing mac total with
  | nil => rw [List.map_nil, List.sum_nil, Int.add_zero]; exact holds
  | cons input inputs inductionHypothesis =>
      rw [List.forall_mem_cons] at goesOn
      rw [List.map_cons, List.sum_cons, ← Int.add_assoc]
      exact inductionHypothesis goesOn.2 (mac.acc_step_of_not_starts goesOn.1 holds)

theorem accumulated_run (start : Mac16Bit) {inputs : List MacInput}
    (selects : ∀ input ∈ inputs, input.outSel ≤ 24) : Accumulated start inputs where
  started := by
    rintro before first after rfl starts goesOn
    rw [run, List.foldl_append, List.foldl_cons]
    refine acc_run_of_not_starts goesOn (acc_step_of_starts _ (selects first ?_) starts)
    simp
  unstarted := by
    intro goesOn
    refine acc_run_of_not_starts goesOn ?_
    rw [BitVec.ofInt_natCast, BitVec.ofNat_toNat, BitVec.setWidth_eq]

/-! ## The output -/

variable (mac : Mac16Bit)

theorem toNat_cut (place width outSel : Nat) :
    (mac.acc.extractLsb' (place + outSel) width).toNat =
      mac.acc.toNat / 2 ^ outSel / 2 ^ place % 2 ^ width := by
  rw [BitVec.extractLsb'_toNat, Nat.add_comm, Nat.shiftRight_add, Nat.shiftRight_eq_div_pow,
    Nat.shiftRight_eq_div_pow]

theorem high_lt {outSel : Nat} (inside : outSel ≤ 24) :
    mac.acc.toNat / 2 ^ outSel < 2 ^ 16 * 2 ^ (24 - outSel) := by
  rw [Nat.div_lt_iff_lt_mul (Nat.two_pow_pos _), mul_assoc, ← pow_add, Nat.sub_add_cancel inside]
  exact mac.acc.isLt

theorem fits_iff (tc : Bool) {outSel : Nat} (inside : outSel ≤ 24) :
    mac.fits tc outSel = true ↔
      2 ^ 16 * 2 ^ (24 - outSel) - 2 ^ 15 ≤ mac.acc.toNat / 2 ^ outSel ∨
        mac.acc.toNat / 2 ^ outSel < 2 ^ 15 ∨
        tc = false ∧ mac.acc.toNat / 2 ^ outSel < 2 ^ 16 := by
  have below := mac.high_lt inside
  have double : 2 ^ (25 - outSel) = 2 * 2 ^ (24 - outSel) := by
    rw [← pow_succ', ← Nat.sub_add_comm inside]
  have lower := mac.toNat_cut 15 (25 - outSel) outSel
  have upper := mac.toNat_cut 16 (24 - outSel) outSel
  rw [double, Nat.mod_eq_of_lt (by omega)] at lower
  rw [Nat.mod_eq_of_lt (by omega)] at upper
  rw [fits, decide_eq_true_iff, ← BitVec.toNat_inj, ← BitVec.toNat_inj, ← BitVec.toNat_inj, lower,
    upper, BitVec.toNat_allOnes, double, BitVec.toNat_ofNat, BitVec.toNat_ofNat, Nat.zero_mod,
    Nat.zero_mod]
  cases tc with
  | false =>
      rw [eq_self_iff_true, true_and, true_and]
      omega
  | true =>
      simp only [Bool.true_eq_false, false_and, or_false]
      omega

/-- The sign of the sum in the bits from the select on. -/
theorem negative_iff (inside : mac.outSel.toNat ≤ 24) :
    2 ^ 15 * 2 ^ (24 - mac.outSel.toNat) ≤ mac.highBits ↔ 2 ^ 39 ≤ mac.acc.toNat := by
  rw [highBits, Nat.le_div_iff_mul_le (Nat.two_pow_pos _), mul_assoc, ← pow_add,
    Nat.sub_add_cancel inside]
  rfl

/-- The shifted sum as a signed number. -/
theorem shifted_true (inside : mac.outSel.toNat ≤ 24) :
    mac.shifted true =
      (mac.highBits : Int) -
        if 2 ^ 15 * 2 ^ (24 - mac.outSel.toNat) ≤ mac.highBits
          then ((2 ^ 16 * 2 ^ (24 - mac.outSel.toNat) : Nat) : Int) else 0 := by
  have negative := mac.negative_iff inside
  have whole : (2 : Int) ^ 40 =
      ((2 ^ 16 * 2 ^ (24 - mac.outSel.toNat) : Nat) : Int) * 2 ^ mac.outSel.toNat := by
    rw [Nat.cast_mul, Nat.cast_pow, Nat.cast_pow, mul_assoc, Nat.cast_ofNat, ← pow_add,
      Nat.sub_add_cancel inside]
    rfl
  rw [shifted, operand, if_pos rfl, BitVec.toInt_eq_toNat_cond]
  by_cases high : 2 ^ 39 ≤ mac.acc.toNat
  · rw [if_neg (by omega), if_pos (negative.mpr high), highBits]
    rw [show ((2 ^ 40 : Nat) : Int) = 2 ^ 40 from rfl, whole, Int.natCast_ediv,
      Int.sub_mul_ediv_right _ _ (by positivity), Nat.cast_pow, Nat.cast_ofNat]
  · rw [if_pos (by omega), if_neg (fun reached => high (negative.mp reached)), Int.sub_zero,
      highBits, Int.natCast_ediv, Nat.cast_pow, Nat.cast_ofNat]

theorem shifted_false : mac.shifted false = mac.highBits := by
  rw [shifted, operand, if_neg Bool.false_ne_true, highBits]
  push_cast
  rfl

theorem toNat_accDataOutSel (inside : mac.outSel ≤ 24) :
    mac.accDataOutSel.toNat = mac.highBits % 2 ^ 16 := by
  have cut := mac.toNat_cut 0 16 mac.outSel.toNat
  rw [Nat.zero_add, pow_zero, Nat.div_one] at cut
  rw [accDataOutSel, if_pos inside, cut, highBits]

/-- The selected bits are the shifted sum modulo the width of the output. -/
theorem accDataOutSel_eq (inside : mac.outSel ≤ 24) (tc : Bool) :
    mac.accDataOutSel = BitVec.ofInt 16 (mac.shifted tc) := by
  apply BitVec.eq_of_toNat_eq
  rw [BitVec.toNat_ofInt, mac.toNat_accDataOutSel inside]
  cases tc with
  | false => rw [shifted_false]; omega
  | true =>
      rw [mac.shifted_true inside]
      split
      · rw [Nat.cast_mul, Int.sub_mul_emod_self_left]
        omega
      · omega

theorem ofInt_eq_ofInt_iff (a b : Int) :
    BitVec.ofInt 16 a = BitVec.ofInt 16 b ↔ a % 2 ^ 16 = b % 2 ^ 16 := by
  rw [← BitVec.toNat_inj, BitVec.toNat_ofInt, BitVec.toNat_ofInt]
  omega

theorem getLsbD_39 : mac.acc.getLsbD 39 = true ↔ 2 ^ 39 ≤ mac.acc.toNat := by
  rw [← BitVec.msb_eq_getLsbD_last mac.acc, BitVec.msb_eq_decide, decide_eq_true_iff]

/-- A signed sum is clamped. -/
theorem clamped_true_inner (inner : mac.outSel ≤ 23) :
    mac.clamped true =
      BitVec.ofInt 16 (max (lowest true) (min (highest true) (mac.shifted true))) := by
  have inside : mac.outSel.toNat ≤ 24 := Nat.le_trans inner (by decide)
  have fit := mac.fits_iff true inside
  have sum := mac.shifted_true inside
  have below := mac.high_lt inside
  have sign := mac.negative_iff inside
  rw [← highBits] at below fit
  rw [clamped, isNotSaturation, if_pos inner, lowest, highest, if_pos rfl, if_pos rfl,
    mac.accDataOutSel_eq inside true]
  cases fits : mac.fits true mac.outSel.toNat with
  | true =>
      have range := fit.mp fits
      simp only [Bool.true_eq_false, false_and, or_false] at range
      rw [if_pos rfl]
      congr 1
      split at sum <;> omega
  | false =>
      have beyond := mt fit.mpr (by simp [fits])
      simp only [Bool.true_eq_false, false_and, or_false] at beyond
      rw [if_neg Bool.false_ne_true, if_neg (by decide)]
      by_cases negative : 2 ^ 39 ≤ mac.acc.toNat
      · have lowest : max (-2 ^ 15) (min (2 ^ 15 - 1) (mac.shifted true)) = -2 ^ 15 := by
          rw [if_pos (sign.mpr negative)] at sum
          omega
        rw [if_pos (mac.getLsbD_39.mpr negative), lowest]
        rfl
      · have highest : max (-2 ^ 15) (min (2 ^ 15 - 1) (mac.shifted true)) = 2 ^ 15 - 1 := by
          rw [if_neg (fun reached => negative (sign.mp reached))] at sum
          omega
        rw [if_neg (fun set => negative (mac.getLsbD_39.mp set)), highest]
        rfl

/-- An unsigned sum is clamped unless it looks like a small negative one. -/
theorem clamped_false_inner (inner : mac.outSel ≤ 23) :
    mac.clamped false =
        BitVec.ofInt 16 (max (lowest false) (min (highest false) (mac.shifted false))) ↔
      mac.highBits < 2 ^ (40 - mac.outSel.toNat) - 2 ^ 15 ∨
        mac.highBits = 2 ^ (40 - mac.outSel.toNat) - 1 := by
  have inside : mac.outSel.toNat ≤ 24 := Nat.le_trans inner (by decide)
  have fit := mac.fits_iff false inside
  have below := mac.high_lt inside
  have two : 2 ≤ 2 ^ (24 - mac.outSel.toNat) := by
    refine Nat.le_self_pow ?_ 2
    have : mac.outSel.toNat ≤ 23 := inner
    omega
  have whole : 2 ^ (40 - mac.outSel.toNat) = 2 ^ 16 * 2 ^ (24 - mac.outSel.toNat) := by
    rw [← pow_add]
    congr 1
    omega
  rw [← highBits] at below fit
  rw [clamped, isNotSaturation, if_pos inner, whole, shifted_false, lowest, highest,
    mac.accDataOutSel_eq inside false, shifted_false]
  cases fits : mac.fits false mac.outSel.toNat with
  | true =>
      rw [if_pos rfl, ofInt_eq_ofInt_iff]
      have looks := fit.mp fits
      rw [eq_self_iff_true, true_and] at looks
      simp only [Bool.false_eq_true, if_false]
      omega
  | false =>
      have beyond := mt fit.mpr (by simp [fits])
      rw [eq_self_iff_true, true_and] at beyond
      rw [if_neg Bool.false_ne_true, if_pos rfl]
      have top : (0xFFFF : BitVec 16) = BitVec.ofInt 16 65535 := rfl
      rw [top, ofInt_eq_ofInt_iff]
      simp only [Bool.false_eq_true, if_false]
      omega

/-- At the last select a signed sum needs no clamp. -/
theorem clamped_true_last (last : mac.outSel.toNat = 24) :
    mac.clamped true =
        BitVec.ofInt 16 (max (lowest true) (min (highest true) (mac.shifted true))) ↔
      -2 ^ 15 ≤ mac.acc.toInt ∧ mac.acc.toInt < 2 ^ 15 ∨ mac.acc.toInt < -2 ^ 39 + 2 ^ 24 ∨
        2 ^ 39 - 2 ^ 24 ≤ mac.acc.toInt := by
  have outside : ¬mac.outSel ≤ 23 := by bv_omega
  have fit := mac.fits_iff true (Nat.zero_le 24)
  have sum := mac.shifted_true last.le
  have inside := mac.acc.isLt
  have signed := BitVec.toInt_eq_toNat_cond mac.acc
  rw [highBits, last] at sum
  rw [pow_zero, Nat.div_one] at fit
  rw [clamped, isNotSaturation, if_neg outside, lowest, highest, if_pos rfl, if_pos rfl,
    mac.accDataOutSel_eq (by bv_omega) true]
  cases fits : mac.fits true 0 with
  | true =>
      have range := fit.mp fits
      simp only [Bool.true_eq_false, false_and, or_false] at range
      rw [if_pos rfl, ofInt_eq_ofInt_iff]
      split at sum <;> split at signed <;> omega
  | false =>
      have beyond := mt fit.mpr (by simp [fits])
      simp only [Bool.true_eq_false, false_and, or_false] at beyond
      rw [if_neg Bool.false_ne_true, if_neg (by decide)]
      by_cases negative : 2 ^ 39 ≤ mac.acc.toNat
      · have bottom : (0x8000 : BitVec 16) = BitVec.ofInt 16 (-2 ^ 15) := rfl
        rw [if_pos (mac.getLsbD_39.mpr negative), bottom, ofInt_eq_ofInt_iff]
        split at sum <;> split at signed <;> omega
      · have top : (0x7FFF : BitVec 16) = BitVec.ofInt 16 (2 ^ 15 - 1) := rfl
        rw [if_neg (fun set => negative (mac.getLsbD_39.mp set)), top, ofInt_eq_ofInt_iff]
        split at sum <;> split at signed <;> omega

/-- Nor does an unsigned one. -/
theorem clamped_false_last (last : mac.outSel.toNat = 24) :
    mac.clamped false =
        BitVec.ofInt 16 (max (lowest false) (min (highest false) (mac.shifted false))) ↔
      mac.acc.toNat < 2 ^ 16 ∨ 2 ^ 40 - 2 ^ 24 ≤ mac.acc.toNat := by
  have outside : ¬mac.outSel ≤ 23 := by bv_omega
  have fit := mac.fits_iff false (Nat.zero_le 24)
  have inside := mac.acc.isLt
  rw [pow_zero, Nat.div_one, eq_self_iff_true, true_and] at fit
  rw [clamped, isNotSaturation, if_neg outside, lowest, highest, shifted_false,
    mac.accDataOutSel_eq (by bv_omega) false, shifted_false, highBits, last]
  simp only [Bool.false_eq_true, if_false]
  cases fits : mac.fits false 0 with
  | true =>
      have range := fit.mp fits
      rw [if_pos rfl, ofInt_eq_ofInt_iff]
      omega
  | false =>
      have beyond := mt fit.mpr (by simp [fits])
      have top : (0xFFFF : BitVec 16) = BitVec.ofInt 16 (2 ^ 16 - 1) := rfl
      rw [if_neg Bool.false_ne_true, if_pos trivial, top, ofInt_eq_ofInt_iff]
      omega

/-- The clamped output is right exactly in the described states. -/
theorem clamped_eq_iff (inside : mac.outSel ≤ 24) (tc : Bool) :
    mac.clamped tc = BitVec.ofInt 16 (max (lowest tc) (min (highest tc) (mac.shifted tc))) ↔
      mac.ClampsRight tc := by
  rw [ClampsRight]
  by_cases inner : mac.outSel ≤ 23
  · rw [if_pos inner]
    cases tc with
    | false =>
        rw [mac.clamped_false_inner inner]
        simp only [Bool.false_eq_true, false_or]
    | true => exact iff_of_true (mac.clamped_true_inner inner) (Or.inl rfl)
  · have last : mac.outSel.toNat = 24 := by bv_omega
    rw [if_neg inner]
    cases tc with
    | false => exact mac.clamped_false_last last
    | true => exact mac.clamped_true_last last

theorem macOut_eq_iff (inside : mac.outSel ≤ 24) (input : MacInput) :
    mac.macOut input = mac.expectedOut input ↔
      (input.accSat = true → mac.ClampsRight input.tc) := by
  rw [macOut, expectedOut]
  cases input.accSat with
  | false =>
      rw [if_neg Bool.false_ne_true, if_neg Bool.false_ne_true]
      exact iff_of_true (mac.accDataOutSel_eq inside input.tc)
        (fun clamps => absurd clamps (by decide))
  | true =>
      rw [if_pos rfl, if_pos rfl, mac.clamped_eq_iff inside input.tc]
      exact (imp_iff_right rfl).symm

theorem run_outSel_le (start : Mac16Bit) {inputs : List MacInput} (first : start.outSel ≤ 24)
    (selects : ∀ input ∈ inputs, input.outSel ≤ 24) : (run start inputs).outSel ≤ 24 := by
  induction inputs generalizing start with
  | nil => exact first
  | cons input inputs inductionHypothesis =>
      rw [List.forall_mem_cons] at selects
      refine inductionHypothesis (start.step input) ?_ selects.2
      rw [step]
      split
      · exact selects.1
      · exact BitVec.le_of_lt (by decide)

end Mac16Bit

open Mac16Bit in
/-- In a run, the accumulator holds the sum of the products, and all outputs are as meant exactly
when every clamped one is right. -/
theorem mac_right_iff {start : Mac16Bit} {inputs : List MacInput} (first : start.outSel ≤ 24)
    (selects : ∀ input ∈ inputs, input.outSel ≤ 24) :
    (∀ before input after, inputs = before ++ input :: after →
      Accumulated start before ∧
        (run start before).macOut input = (run start before).expectedOut input) ↔
    ∀ before input after, inputs = before ++ input :: after → input.accSat = true →
      (run start before).ClampsRight input.tc := by
  have prior (before : List MacInput) (input : MacInput) (after : List MacInput)
      (split : inputs = before ++ input :: after) : ∀ input ∈ before, input.outSel ≤ 24 := by
    intro earlier member
    exact selects earlier (split ▸ List.mem_append_left _ member)
  constructor
  · intro right before input after split
    have inside := run_outSel_le start first (prior before input after split)
    exact (macOut_eq_iff _ inside input).mp (right before input after split).2
  · intro clamps before input after split
    have inside := run_outSel_le start first (prior before input after split)
    exact ⟨accumulated_run start (prior before input after split),
      (macOut_eq_iff _ inside input).mpr (clamps before input after split)⟩

/-- The largest product, selected from bit 24 on. -/
def largestProduct : MacInput :=
  { operData := 0xFFFF, coefData := 0xFFFF, accRnd := false, accClear := true, accSat := true,
    outSel := 24, tc := false, mathbClkEn := true, accFfRstn := true }

/-- The largest product, added to the sum. -/
def addsLargest (accSat : Bool) : MacInput :=
  { largestProduct with accClear := false, accSat, outSel := 16 }

/-- The sum of three largest products. -/
def threeLargest : List MacInput :=
  [{ largestProduct with accSat := false, outSel := 16 }, addsLargest false, addsLargest false]

open Mac16Bit in
theorem acc_threeLargest : (run ⟨0, 0⟩ threeLargest).acc = 0x2FFFA0003 := by
  have goesOn : ∀ input ∈ [addsLargest false, addsLargest false], ¬input.Starts := by
    simp [MacInput.Starts, addsLargest, largestProduct]
  have sum := (accumulated_run ⟨0, 0⟩ (by decide)).started []
    { largestProduct with accSat := false, outSel := 16 } _ rfl (Or.inr ⟨rfl, Or.inl rfl⟩) goesOn
  exact sum.trans (by decide)

open Mac16Bit in
/-- The sum of three largest products is clamped at select 16. -/
theorem clampedSum_right :
    Accumulated ⟨0, 0⟩ threeLargest ∧
      (run ⟨0, 0⟩ threeLargest).macOut (addsLargest true) =
        (run ⟨0, 0⟩ threeLargest).expectedOut (addsLargest true) := by
  have inner : (run ⟨0, 0⟩ threeLargest).ClampsRight false := by
    rw [ClampsRight, if_pos (by decide), highBits, acc_threeLargest]
    exact Or.inr (Or.inl (by decide))
  have clamps : ∀ before input after,
      threeLargest ++ [addsLargest true] = before ++ input :: after →
        input.accSat = true → (run ⟨0, 0⟩ before).ClampsRight input.tc := by
    intro before input after split clamps
    rcases before with _ | ⟨_, _ | ⟨_, _ | ⟨_, _ | ⟨_, before⟩⟩⟩⟩
    · cases split
      cases clamps
    · cases split
      cases clamps
    · cases split
      cases clamps
    · cases split
      exact inner
    · simp [threeLargest] at split
  exact (mac_right_iff (by decide) (by decide)).mpr clamps threeLargest _ [] rfl

open Mac16Bit in
/-- The largest product fits the output from bit 24 on, and is clamped nevertheless. -/
theorem mac_wrong_at_select_24 :
    ¬∀ before input after, [largestProduct, largestProduct] = before ++ input :: after →
      Accumulated ⟨0, 0⟩ before ∧
        (run ⟨0, 0⟩ before).macOut input = (run ⟨0, 0⟩ before).expectedOut input := by
  intro right
  have held : (run ⟨0, 0⟩ [largestProduct]).acc = 0xFFFE0001 := by
    rw [run, List.foldl_cons, List.foldl_nil,
      acc_step_of_starts ⟨0, 0⟩ (by decide) (Or.inr ⟨rfl, Or.inl rfl⟩)]
    decide
  have clamps := (macOut_eq_iff _ (by decide) largestProduct).mp
    (right [largestProduct] largestProduct [] rfl).2 rfl
  rw [ClampsRight, if_neg (by decide), if_neg (by decide), held] at clamps
  exact absurd clamps (by decide)

end CoreVMcu.Efpga
