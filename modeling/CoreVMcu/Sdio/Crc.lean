import CoreVMcu.Clocked.Crc
import Mathlib.Tactic.IntervalCases

/-!
# The checks of the SDIO host

`sdio_crc7` and `sdio_crc16` are shift registers with feedback.  Sampling a bit comes before
clearing the register, and that before shifting it out.
-/

namespace CoreVMcu.Sdio

open Clocked.Crc

/-- The inputs of a CRC unit in a cycle. -/
structure CrcInput where
  data : Bool
  shift : Bool
  clr : Bool
  sample : Bool
  deriving DecidableEq, Repr

/-- A clock edge of a CRC unit that takes a bit as `sampled` says. -/
def crcStep {w : Nat} (sampled : BitVec w → Bool → BitVec w) (crc : BitVec w)
    (input : CrcInput) : BitVec w :=
  if input.sample then sampled crc input.data
  else if input.clr then 0
  else if input.shift then crc <<< 1
  else crc

/-- `s_crc` of `sdio_crc7` while it samples, from bit 0 on. -/
def crc7Sampled (crc : BitVec 7) (data : Bool) : BitVec 7 :=
  let low := data ^^ crc.getLsbD 6
  BitVec.ofBoolListLE
    [low, crc.getLsbD 0, crc.getLsbD 1, crc.getLsbD 2 ^^ low, crc.getLsbD 3, crc.getLsbD 4,
      crc.getLsbD 5]

/-- `s_crc` of `sdio_crc16` while it samples, from bit 0 on. -/
def crc16Sampled (crc : BitVec 16) (data : Bool) : BitVec 16 :=
  let low := data ^^ crc.getLsbD 15
  BitVec.ofBoolListLE
    [low, crc.getLsbD 0, crc.getLsbD 1, crc.getLsbD 2, crc.getLsbD 3, crc.getLsbD 4 ^^ low,
      crc.getLsbD 5, crc.getLsbD 6, crc.getLsbD 7, crc.getLsbD 8, crc.getLsbD 9, crc.getLsbD 10,
      crc.getLsbD 11 ^^ low, crc.getLsbD 12, crc.getLsbD 13, crc.getLsbD 14]

/-- `sdio_crc7`. -/
def crc7 : BitVec 7 → CrcInput → BitVec 7 := crcStep crc7Sampled

/-- `sdio_crc16`. -/
def crc16 : BitVec 16 → CrcInput → BitVec 16 := crcStep crc16Sampled

/-- `crc7_serial_o`. -/
def crc7Serial (crc : BitVec 7) : Bool := crc.getLsbD 6

/-- `crc16_serial_o`. -/
def crc16Serial (crc : BitVec 16) : Bool := crc.getLsbD 15

/-! ## The generators -/

/-- `x^7 + x^3 + 1` without its highest power. -/
def crc7Taps : BitVec 7 := 0b0001001

/-- `x^16 + x^12 + x^5 + 1` without its highest power. -/
def crc16Taps : BitVec 16 := 0x1021

theorem crc7Sampled_eq_feed (crc : BitVec 7) (data : Bool) :
    crc7Sampled crc data = feed crc7Taps crc data := by
  apply BitVec.eq_of_getLsbD_eq
  intro i inside
  simp only [crc7Sampled, feed, crc7Taps, BitVec.getLsbD_ofBoolListLE, BitVec.getLsbD_xor,
    BitVec.getLsbD_shiftLeft]
  cases data ^^ crc.getLsbD 6 <;> interval_cases i <;> simp

theorem crc16Sampled_eq_feed (crc : BitVec 16) (data : Bool) :
    crc16Sampled crc data = feed crc16Taps crc data := by
  apply BitVec.eq_of_getLsbD_eq
  intro i inside
  simp only [crc16Sampled, feed, crc16Taps, BitVec.getLsbD_ofBoolListLE, BitVec.getLsbD_xor,
    BitVec.getLsbD_shiftLeft]
  cases data ^^ crc.getLsbD 15 <;> interval_cases i <;> simp

open Polynomial in
theorem generator_crc7Taps : generator crc7Taps = X ^ 7 + X ^ 3 + 1 := by
  simp [generator, toPoly, Finset.sum_range_succ, crc7Taps, coefficient, ← X_pow_eq_monomial]
  ring

open Polynomial in
theorem generator_crc16Taps : generator crc16Taps = X ^ 16 + X ^ 12 + X ^ 5 + 1 := by
  simp [generator, toPoly, Finset.sum_range_succ, crc16Taps, coefficient, ← X_pow_eq_monomial]
  ring

/-! ## What a CRC unit holds -/

/-- The unit takes a bit or keeps what it holds. -/
def CrcInput.Takes (input : CrcInput) : Prop :=
  input.sample = true ∨ input.clr = false ∧ input.shift = false

/-- The unit shifts. -/
def CrcInput.Shifts (input : CrcInput) : Prop :=
  input.sample = false ∧ input.clr = false ∧ input.shift = true

/-- The unit is cleared. -/
def CrcInput.Clears (input : CrcInput) : Prop := input.sample = false ∧ input.clr = true

/-- The bits that are sampled. -/
def sampledBits (inputs : List CrcInput) : List Bool :=
  (inputs.filter (·.sample)).map (·.data)

/-- The serial output in the cycles of some inputs. -/
def serialBits {w : Nat} (step : BitVec w → CrcInput → BitVec w) (serial : BitVec w → Bool) :
    BitVec w → List CrcInput → List Bool
  | _, [] => []
  | crc, input :: inputs => serial crc :: serialBits step serial (step crc input) inputs

open Polynomial in
/-- After a clear a unit holds the remainder of the bits that it samples, followed by as many
zeros as it has bits, and shifts it out. -/
structure HoldsRemainder {w : Nat} (generator : (ZMod 2)[X])
    (step : BitVec w → CrcInput → BitVec w) (serial : BitVec w → Bool) : Prop where
  held : ∀ crc clear inputs, CrcInput.Clears clear → (∀ input ∈ inputs, CrcInput.Takes input) →
    toPoly (inputs.foldl step (step crc clear)) =
      message (sampledBits inputs) * X ^ w %ₘ generator
  shiftedOut : ∀ crc clear inputs shifts, CrcInput.Clears clear →
    (∀ input ∈ inputs, CrcInput.Takes input) → (∀ input ∈ shifts, CrcInput.Shifts input) →
    shifts.length = w →
    serialBits step serial (inputs.foldl step (step crc clear)) shifts =
      check w generator (sampledBits inputs)

section Unit

variable {w : Nat} {taps : BitVec w} {sampled : BitVec w → Bool → BitVec w}

theorem crcStep_clears (crc : BitVec w) {input : CrcInput} (clears : input.Clears) :
    crcStep sampled crc input = 0#w := by
  simp [crcStep, clears.1, clears.2]

theorem crcStep_shifts (crc : BitVec w) {input : CrcInput} (shifts : input.Shifts) :
    crcStep sampled crc input = crc <<< 1 := by
  simp [crcStep, shifts.1, shifts.2.1, shifts.2.2]

theorem foldl_crcStep (feeds : ∀ crc data, sampled crc data = feed taps crc data) (crc : BitVec w)
    {inputs : List CrcInput} (takes : ∀ input ∈ inputs, input.Takes) :
    inputs.foldl (crcStep sampled) crc = register taps crc (sampledBits inputs) := by
  induction inputs generalizing crc with
  | nil => rfl
  | cons input inputs inductionHypothesis =>
      rw [List.forall_mem_cons] at takes
      rw [List.foldl_cons, inductionHypothesis _ takes.2]
      cases sample : input.sample with
      | true => simp [sampledBits, sample, crcStep, feeds, register_cons]
      | false =>
          have rests := takes.1.resolve_left (by simp [sample])
          simp [sampledBits, sample, crcStep, rests.1, rests.2]

theorem serialBits_shifts {serial : BitVec w → Bool} (pos : 0 < w)
    (top : ∀ crc, serial crc = crc.getLsbD (w - 1)) (crc : BitVec w) {shifts : List CrcInput}
    (shifting : ∀ input ∈ shifts, input.Shifts) :
    serialBits (crcStep sampled) serial crc shifts =
      (List.range shifts.length).map fun i => crc.getMsbD i := by
  induction shifts generalizing crc with
  | nil => rfl
  | cons input shifts inductionHypothesis =>
      rw [List.forall_mem_cons] at shifting
      rw [serialBits, inductionHypothesis _ shifting.2, crcStep_shifts _ shifting.1,
        List.length_cons, List.range_succ_eq_map, List.map_cons, List.map_map, top]
      congr 1
      · simp [BitVec.getMsbD, pos]
      · apply List.map_congr_left
        intro i _
        simp

theorem msbFirst_eq_getMsbD (crc : BitVec w) :
    msbFirst crc = (List.range w).map fun i => crc.getMsbD i := by
  apply List.map_congr_left
  intro i member
  simp [BitVec.getMsbD, List.mem_range.mp member]

/-- The bits that leave a register. -/
theorem range_getMsbD_succ (crc : BitVec w) (n : Nat) :
    ((List.range (n + 1)).map fun i => crc.getMsbD i) =
      crc.getMsbD 0 :: (List.range n).map fun i => (crc <<< 1).getMsbD i := by
  rw [List.range_succ_eq_map, List.map_cons, List.map_map]
  refine congrArg _ (List.map_congr_left fun i _ => ?_)
  simp

/-- A unit that samples with feedback and puts out its highest bit. -/
theorem holdsRemainder {serial : BitVec w → Bool} (pos : 0 < w)
    (feeds : ∀ crc data, sampled crc data = feed taps crc data)
    (top : ∀ crc, serial crc = crc.getLsbD (w - 1)) :
    HoldsRemainder (generator taps) (crcStep sampled) serial where
  held := by
    intro crc clear inputs clears takes
    rw [crcStep_clears _ clears, foldl_crcStep feeds _ takes, toPoly_register pos]
  shiftedOut := by
    intro crc clear inputs shifts clears takes shifting length
    rw [serialBits_shifts pos top _ shifting, length, ← msbFirst_eq_getMsbD,
      crcStep_clears _ clears, foldl_crcStep feeds _ takes, check_eq pos]

end Unit

open Polynomial in
theorem crc7_holdsRemainder : HoldsRemainder (X ^ 7 + X ^ 3 + 1) crc7 crc7Serial := by
  rw [← generator_crc7Taps]
  exact holdsRemainder (by decide) crc7Sampled_eq_feed fun _ => rfl

open Polynomial in
theorem crc16_holdsRemainder : HoldsRemainder (X ^ 16 + X ^ 12 + X ^ 5 + 1) crc16 crc16Serial := by
  rw [← generator_crc16Taps]
  exact holdsRemainder (by decide) crc16Sampled_eq_feed fun _ => rfl

end CoreVMcu.Sdio
