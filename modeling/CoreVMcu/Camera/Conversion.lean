import CoreVMcu.Camera.Frames

/-!
# The conversion of a pixel

The slices of the two bytes are the colours of the pixel, the products of the colours with
their weights fit, and the cases of the shift are one shift.
-/

namespace CoreVMcu.Camera

/-! ## Slices -/

theorem toNat_append {high low : Nat} (first : BitVec high) (second : BitVec low) :
    (first ++ second).toNat = first.toNat * 2 ^ low + second.toNat := by
  rw [BitVec.toNat_append, ← Nat.shiftLeft_add_eq_or_of_lt second.isLt, Nat.shiftLeft_eq]

/-- A slice of a word with zeros behind it. -/
theorem toNat_slice {width : Nat} (word : BitVec width) (start length z : Nat) :
    (word.extractLsb' start length ++ 0#z).toNat =
      word.toNat / 2 ^ start % 2 ^ length * 2 ^ z := by
  rw [toNat_append, BitVec.extractLsb'_toNat, Nat.shiftRight_eq_div_pow, BitVec.toNat_zero,
    Nat.add_zero]

/-- Two slices next to each other with zeros behind them. -/
theorem toNat_slices {width : Nat} (high low : BitVec width)
    (highStart highLength lowStart lowLength z : Nat) :
    (high.extractLsb' highStart highLength ++ low.extractLsb' lowStart lowLength ++
        0#z).toNat =
      (high.toNat / 2 ^ highStart % 2 ^ highLength * 2 ^ lowLength +
        low.toNat / 2 ^ lowStart % 2 ^ lowLength) * 2 ^ z := by
  rw [toNat_append, toNat_append, BitVec.extractLsb'_toNat, BitVec.extractLsb'_toNat,
    Nat.shiftRight_eq_div_pow, Nat.shiftRight_eq_div_pow, BitVec.toNat_zero, Nat.add_zero]

theorem format_cases (format : BitVec 3) :
    format = 0 ∨ format = 1 ∨ format = 2 ∨ format = 3 ∨ format = 4 ∨ format = 5 ∨ format = 6 ∨
      format = 7 := by
  revert format
  decide

variable {cfg : CameraCfg}

/-- The colours that the interface takes from the bytes are those of the pixel. -/
theorem procFormat_colours (colour : cfg.bypass = false) (pixel : PixelBytes) :
    let parts := procFormat cfg.format pixel.first pixel.second
    (parts.rPix.toNat, parts.gPix.toNat, parts.bPix.toNat) = colours cfg pixel := by
  have first := pixel.first.isLt
  have second := pixel.second.isLt
  rw [CameraCfg.bypass] at colour
  rw [colours, PixelBytes.word, toNat_append]
  rcases format_cases cfg.format with format | format | format | format | format | format |
      format | format <;> rw [format] at colour ⊢
  · refine Prod.ext ?_ (Prod.ext ?_ ?_)
    · change (pixel.first.extractLsb' 3 5 ++ 0#3).toNat =
        (pixel.first.toNat * 2 ^ 8 + pixel.second.toNat) / 2 ^ 11 * 8
      rw [toNat_slice]
      omega
    · change (pixel.first.extractLsb' 0 3 ++ pixel.second.extractLsb' 5 3 ++ 0#2).toNat =
        (pixel.first.toNat * 2 ^ 8 + pixel.second.toNat) / 2 ^ 5 % 2 ^ 6 * 4
      rw [toNat_slices]
      omega
    · change (pixel.second.extractLsb' 0 5 ++ 0#3).toNat =
        (pixel.first.toNat * 2 ^ 8 + pixel.second.toNat) % 2 ^ 5 * 8
      rw [toNat_slice]
      omega
  · refine Prod.ext ?_ (Prod.ext ?_ ?_)
    · change (pixel.first.extractLsb' 2 5 ++ 0#3).toNat =
        (pixel.first.toNat * 2 ^ 8 + pixel.second.toNat) / 2 ^ 10 % 2 ^ 5 * 8
      rw [toNat_slice]
      omega
    · change (pixel.first.extractLsb' 0 2 ++ pixel.second.extractLsb' 5 3 ++ 0#3).toNat =
        (pixel.first.toNat * 2 ^ 8 + pixel.second.toNat) / 2 ^ 5 % 2 ^ 5 * 8
      rw [toNat_slices]
      omega
    · change (pixel.second.extractLsb' 0 5 ++ 0#3).toNat =
        (pixel.first.toNat * 2 ^ 8 + pixel.second.toNat) % 2 ^ 5 * 8
      rw [toNat_slice]
      omega
  · refine Prod.ext ?_ (Prod.ext ?_ ?_)
    · change (pixel.first.extractLsb' 0 4 ++ 0#4).toNat =
        (pixel.first.toNat * 2 ^ 8 + pixel.second.toNat) / 2 ^ 8 % 2 ^ 4 * 16
      rw [toNat_slice]
      omega
    · change (pixel.second.extractLsb' 4 4 ++ 0#4).toNat =
        (pixel.first.toNat * 2 ^ 8 + pixel.second.toNat) / 2 ^ 4 % 2 ^ 4 * 16
      rw [toNat_slice]
      omega
    · change (pixel.second.extractLsb' 0 4 ++ 0#4).toNat =
        (pixel.first.toNat * 2 ^ 8 + pixel.second.toNat) % 2 ^ 4 * 16
      rw [toNat_slice]
      omega
  · rfl
  · cases colour
  · cases colour
  · cases colour
  · cases colour

theorem dataFilter_toNat (rPix gPix bPix : BitVec 8) :
    (dataFilter cfg rPix gPix bPix).toNat =
      (rPix.toNat * cfg.rCoeff.toNat + gPix.toNat * cfg.gCoeff.toNat +
        bPix.toNat * cfg.bCoeff.toNat) % 2 ^ 17 := by
  have product : ∀ pix coeff : BitVec 8,
      ((pix.setWidth 16 * coeff.setWidth 16).setWidth 17).toNat = pix.toNat * coeff.toNat := by
    intro pix coeff
    have fits : pix.toNat * coeff.toNat < 2 ^ 8 * 2 ^ 8 :=
      Nat.mul_lt_mul'' pix.isLt coeff.isLt
    rw [← Nat.pow_add] at fits
    rw [BitVec.toNat_setWidth_of_le (by decide), BitVec.toNat_mul,
      BitVec.toNat_setWidth_of_le (by decide), BitVec.toNat_setWidth_of_le (by decide),
      Nat.mod_eq_of_lt fits]
  rw [dataFilter, BitVec.toNat_add, BitVec.toNat_add, product, product, product, Nat.mod_add_mod]

/-- A slice up to the end of the sum is a shift of it. -/
theorem slice_eq_shift (word : BitVec 17) (z start length : Nat) (whole : start + length = 17)
    (wide : z + length = 16) :
    (0#z ++ word.extractLsb' start length).toNat = word.toNat / 2 ^ start % 2 ^ 16 := by
  have small : word.toNat / 2 ^ start < 2 ^ length := by
    rw [Nat.div_lt_iff_lt_mul (Nat.two_pow_pos start), ← Nat.pow_add, Nat.add_comm length, whole]
    exact word.isLt
  have fits : 2 ^ length ≤ 2 ^ 16 :=
    Nat.pow_le_pow_right Nat.zero_lt_two (wide ▸ Nat.le_add_left _ _)
  rw [toNat_append, BitVec.toNat_zero, Nat.zero_mul, Nat.zero_add, BitVec.extractLsb'_toNat,
    Nat.shiftRight_eq_div_pow, Nat.mod_eq_of_lt small, Nat.mod_eq_of_lt (small.trans_le fits)]

theorem slice16_eq_shift (word : BitVec 17) (start : Nat) :
    (word.extractLsb' start 16).toNat = word.toNat / 2 ^ start % 2 ^ 16 := by
  rw [BitVec.extractLsb'_toNat, Nat.shiftRight_eq_div_pow]

theorem dataFilterShift_eq (word : BitVec 17) :
    dataFilterShift cfg.shift word = BitVec.ofNat 16 (word.toNat / 2 ^ shiftAmount cfg) := by
  apply BitVec.eq_of_toNat_eq
  rw [BitVec.toNat_ofNat, dataFilterShift, shiftAmount]
  split
  · next amount => rw [amount]; exact slice16_eq_shift word 0
  · next amount => rw [amount]; exact slice16_eq_shift word 1
  · next amount => rw [amount]; exact slice_eq_shift word 1 2 15 rfl rfl
  · next amount => rw [amount]; exact slice_eq_shift word 2 3 14 rfl rfl
  · next amount => rw [amount]; exact slice_eq_shift word 3 4 13 rfl rfl
  · next amount => rw [amount]; exact slice_eq_shift word 4 5 12 rfl rfl
  · next amount => rw [amount]; exact slice_eq_shift word 5 6 11 rfl rfl
  · next amount => rw [amount]; exact slice_eq_shift word 6 7 10 rfl rfl
  · next amount => rw [amount]; exact slice_eq_shift word 7 8 9 rfl rfl
  · next amount => rw [amount]; exact slice_eq_shift word 8 9 8 rfl rfl
  · -- the other amounts do not shift
    simp only [imp_false] at *
    rw [if_neg (by omega)]
    exact slice16_eq_shift word 0

/-- A pixel that is not bypassed is converted by the filter and the shift. -/
theorem convert_colour (colour : cfg.bypass = false) (pixel : PixelBytes) :
    let parts := procFormat cfg.format pixel.first pixel.second
    dataFilterShift cfg.shift (dataFilter cfg parts.rPix parts.gPix parts.bPix) =
      convert cfg pixel := by
  have components := procFormat_colours colour pixel
  have sum : (dataFilter cfg (procFormat cfg.format pixel.first pixel.second).rPix
      (procFormat cfg.format pixel.first pixel.second).gPix
      (procFormat cfg.format pixel.first pixel.second).bPix).toNat = weightedSum cfg pixel := by
    rw [dataFilter_toNat, weightedSum, ← components]
  have converted : convert cfg pixel =
      BitVec.ofNat 16 (weightedSum cfg pixel / 2 ^ shiftAmount cfg) := by
    rw [CameraCfg.bypass] at colour
    rw [convert]
    rcases format_cases cfg.format with format | format | format | format | format | format |
        format | format <;> rw [format] at colour ⊢ <;> first | rfl | cases colour
  rw [converted, ← sum]
  exact dataFilterShift_eq _

/-- A bypassed pixel is offered as it comes, or with its bytes exchanged. -/
theorem convert_bypass (bypass : cfg.bypass = true) (pixel : PixelBytes) :
    (procFormat cfg.format pixel.first pixel.second).yuvPix = convert cfg pixel := by
  rw [CameraCfg.bypass] at bypass
  rw [convert]
  rcases format_cases cfg.format with format | format | format | format | format | format |
      format | format <;> rw [format] at bypass ⊢ <;> first | rfl | cases bypass

end CoreVMcu.Camera
