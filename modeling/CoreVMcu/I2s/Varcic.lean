import Mathlib.Data.BitVec
import CoreVMcu.Clocked.CicFilter
import CoreVMcu.Clocked.Counters

/-!
# The decimation filter

`varcic` is a chain of integrators and combs that are shared by up to four channels: every
stage has one register for each, and a counter selects the channel whose sample is presented.
-/

namespace CoreVMcu.I2s

open Clocked Cic PowerSeries

/-- `cic_integrator`. -/
structure CicIntegrator (width : Nat) where
  rAccumulator : BitVec 2 → BitVec width

namespace CicIntegrator

variable {width : Nat} (stage : CicIntegrator width)

def reset : CicIntegrator width := { rAccumulator := fun _ => 0 }

/-- `data_o`. -/
def dataO (sel : BitVec 2) : BitVec width := stage.rAccumulator sel

def step (clr en : Bool) (sel : BitVec 2) (data : BitVec width) : CicIntegrator width :=
  if clr then reset
  else if en then
    { rAccumulator := Function.update stage.rAccumulator sel (stage.rAccumulator sel + data) }
  else stage

end CicIntegrator

/-- `cic_comb`. -/
structure CicComb (width : Nat) where
  rPreviousdata : BitVec 2 → BitVec width
  rData : BitVec 2 → BitVec width

namespace CicComb

variable {width : Nat} (stage : CicComb width)

def reset : CicComb width := { rPreviousdata := fun _ => 0, rData := fun _ => 0 }

/-- `data_o`. -/
def dataO (sel : BitVec 2) : BitVec width := stage.rData sel

def step (clr en : Bool) (sel : BitVec 2) (data : BitVec width) : CicComb width :=
  if clr then reset
  else if en then
    { rData := Function.update stage.rData sel (data - stage.rPreviousdata sel)
      rPreviousdata := Function.update stage.rPreviousdata sel data }
  else stage

end CicComb

structure Varcic (stages accWidth : Nat) where
  rEn : Bool
  rSampleNr : BitVec 10
  rChNr : BitVec 2
  integrators : Fin stages → CicIntegrator accWidth
  combs : Fin stages → CicComb accWidth

structure VarcicInput where
  cfgEn : Bool
  cfgChNum : BitVec 2
  cfgDecimation : BitVec 10
  cfgShift : BitVec 3
  data : Bool
  dataValid : Bool

namespace Varcic

variable {stages accWidth : Nat}

def reset : Varcic stages accWidth where
  rEn := false
  rSampleNr := 0
  rChNr := 0
  integrators := fun _ => .reset
  combs := fun _ => .reset

variable (cic : Varcic stages accWidth) (input : VarcicInput)

/-- `s_clr`. -/
def clr : Bool := input.cfgEn && !cic.rEn

/-- `s_out_data_valid`, which is `data_valid_o`. -/
def dataValidO : Bool := input.dataValid && cic.rSampleNr == input.cfgDecimation

/-- `integrator_data`. -/
def integratorData : Fin (stages + 1) → BitVec accWidth :=
  Fin.cons (if input.data then 1 else BitVec.allOnes accWidth) fun i =>
    (cic.integrators i).dataO cic.rChNr

/-- `comb_data`. -/
def combData : Fin (stages + 1) → BitVec accWidth :=
  Fin.cons (cic.integratorData input (Fin.last stages)) fun i => (cic.combs i).dataO cic.rChNr

/-- `data_o`: sixteen bits of the last difference, five lower for each step of the shift. -/
def dataO : BitVec 16 :=
  (cic.combData input (Fin.last stages)).extractLsb'
    (accWidth - 16 - 5 * input.cfgShift.toNat) 16

/-- `r_ch_nr`. -/
def chNrNext : BitVec 2 :=
  if cic.clr input then 0
  else if input.dataValid then
    if cic.rChNr == input.cfgChNum then 0 else cic.rChNr + 1
  else cic.rChNr

/-- `r_sample_nr`. -/
def sampleNrNext : BitVec 10 :=
  if cic.clr input then 0
  else if input.dataValid && cic.rChNr == input.cfgChNum then
    if cic.rSampleNr == input.cfgDecimation then 0 else cic.rSampleNr + 1
  else cic.rSampleNr

def step : Varcic stages accWidth where
  rEn := input.cfgEn
  rSampleNr := cic.sampleNrNext input
  rChNr := cic.chNrNext input
  integrators := fun i =>
    (cic.integrators i).step (cic.clr input) input.dataValid cic.rChNr
      (cic.integratorData input i.castSucc)
  combs := fun i =>
    (cic.combs i).step (cic.clr input) (cic.dataValidO input) cic.rChNr
      (cic.combData input i.castSucc)

end Varcic

/-! ## A channel after some of its samples -/

variable {stages accWidth : Nat} {cic : Varcic stages accWidth} {input : VarcicInput}

/-- The registers of a channel after `n` samples of its signal. -/
structure ChannelAt (cic : Varcic stages accWidth) (ratio : Nat)
    (signal : PowerSeries (BitVec accWidth)) (channel : BitVec 2) (n : Nat) : Prop where
  sums : ∀ i : Fin stages, (cic.integrators i).rAccumulator channel =
    coeff n (integrated^[i.val + 1] signal)
  previous : ∀ i : Fin stages, (cic.combs i).rPreviousdata channel =
    decimated ratio (n / ratio) (X ^ ratio * (combed ratio)^[i.val] (integrated^[stages] signal))
  differences : ∀ i : Fin stages, (cic.combs i).rData channel =
    decimated ratio (n / ratio) ((combed ratio)^[i.val + 1] (integrated^[stages] signal))

namespace ChannelAt

variable {ratio n : Nat} {signal : PowerSeries (BitVec accWidth)} {channel : BitVec 2}

/-- What the integrators show while the next sample of the channel is presented. -/
theorem integratorData (channelAt : ChannelAt cic ratio signal channel n)
    (selected : cic.rChNr = channel)
    (sample : (if input.data then 1 else BitVec.allOnes accWidth) = coeff n signal)
    (i : Fin (stages + 1)) :
    cic.integratorData input i = coeff n (integrated^[i.val] signal) := by
  cases i using Fin.cases with
  | zero => exact sample
  | succ i =>
      rw [Varcic.integratorData, Fin.cons_succ, CicIntegrator.dataO, selected]
      exact channelAt.sums i

/-- What the combs show at an output of the channel. -/
theorem combData (channelAt : ChannelAt cic ratio signal channel n)
    (selected : cic.rChNr = channel)
    (sample : (if input.data then 1 else BitVec.allOnes accWidth) = coeff n signal)
    (last : n = n / ratio * ratio + (ratio - 1)) (i : Fin (stages + 1)) :
    cic.combData input i =
      decimated ratio (n / ratio) ((combed ratio)^[i.val] (integrated^[stages] signal)) := by
  cases i using Fin.cases with
  | zero =>
      rw [Varcic.combData, Fin.cons_zero, channelAt.integratorData selected sample, decimated,
        ← last]
      rfl
  | succ i =>
      rw [Varcic.combData, Fin.cons_succ, CicComb.dataO, selected]
      exact channelAt.differences i

/-- The filter is cleared. -/
theorem cleared (pos : 0 < ratio) (clears : cic.clr input = true) :
    ChannelAt (cic.step input) ratio signal channel 0 where
  sums := by
    intro i
    rw [Function.iterate_succ_apply', coeff_zero_integrated]
    simp only [Varcic.step, CicIntegrator.step, clears, if_true, CicIntegrator.reset]
  previous := by
    intro i
    rw [Nat.zero_div, decimated_delayed_zero _ pos]
    simp only [Varcic.step, CicComb.step, clears, if_true, CicComb.reset]
  differences := by
    intro i
    rw [Nat.zero_div, Function.iterate_succ_apply', decimated_combed_zero _ pos]
    simp only [Varcic.step, CicComb.step, clears, if_true, CicComb.reset]

/-- No sample of the channel is presented. -/
theorem step_other (channelAt : ChannelAt cic ratio signal channel n)
    (goesOn : cic.clr input = false) (other : input.dataValid = true → channel ≠ cic.rChNr) :
    ChannelAt (cic.step input) ratio signal channel n := by
  have sums : ∀ i, ((cic.step input).integrators i).rAccumulator channel =
      (cic.integrators i).rAccumulator channel := by
    intro i
    simp only [Varcic.step, CicIntegrator.step, goesOn, Bool.false_eq_true, if_false]
    split
    · next valid => exact Function.update_of_ne (other valid) _ _
    · rfl
  have combs : ∀ i, ((cic.step input).combs i).rPreviousdata channel =
        (cic.combs i).rPreviousdata channel ∧
      ((cic.step input).combs i).rData channel = (cic.combs i).rData channel := by
    intro i
    simp only [Varcic.step, CicComb.step, goesOn, Bool.false_eq_true, if_false]
    split
    · next valid =>
        have apart := other (Bool.and_eq_true_iff.mp valid).1
        exact ⟨Function.update_of_ne apart _ _, Function.update_of_ne apart _ _⟩
    · exact ⟨rfl, rfl⟩
  exact ⟨fun i => (sums i).trans (channelAt.sums i),
    fun i => (combs i).1.trans (channelAt.previous i),
    fun i => (combs i).2.trans (channelAt.differences i)⟩

/-- A sample of the channel is presented. -/
theorem step_selected (channelAt : ChannelAt cic ratio signal channel n)
    (selected : cic.rChNr = channel) (goesOn : cic.clr input = false)
    (valid : input.dataValid = true) (pos : 0 < ratio)
    (sample : (if input.data then 1 else BitVec.allOnes accWidth) = coeff n signal)
    (output : cic.dataValidO input = decide (n % ratio = ratio - 1)) :
    ChannelAt (cic.step input) ratio signal channel (n + 1) := by
  have sums : ∀ i : Fin stages, ((cic.step input).integrators i).rAccumulator channel =
      coeff (n + 1) (integrated^[i.val + 1] signal) := by
    intro i
    have held := channelAt.sums i
    rw [Function.iterate_succ_apply'] at held
    rw [Function.iterate_succ_apply', coeff_succ_integrated, ← held]
    simp only [Varcic.step, CicIntegrator.step, goesOn, valid, Bool.false_eq_true, if_false,
      if_true, selected, Function.update_self,
      channelAt.integratorData selected sample, Fin.val_castSucc]
  cases (inferInstance : Decidable (n % ratio = ratio - 1)) with
  | isFalse inside =>
      rw [decide_eq_false inside] at output
      have stays := (succ_inside pos inside).2
      have combs : (cic.step input).combs = cic.combs := by
        funext i
        simp only [Varcic.step, CicComb.step, goesOn, output, Bool.false_eq_true, if_false]
      refine ⟨sums, ?_, ?_⟩
      · rw [stays, combs]
        exact channelAt.previous
      · rw [stays, combs]
        exact channelAt.differences
  | isTrue last =>
      rw [decide_eq_true last] at output
      have next := (succ_last pos last).2
      have place : n = n / ratio * ratio + (ratio - 1) := by
        rw [← last, Nat.div_add_mod']
      have combs : ∀ i, (cic.step input).combs i =
          { rData := Function.update (cic.combs i).rData channel
              (cic.combData input i.castSucc - (cic.combs i).rPreviousdata channel)
            rPreviousdata := Function.update (cic.combs i).rPreviousdata channel
              (cic.combData input i.castSucc) } := by
        intro i
        simp only [Varcic.step, CicComb.step, goesOn, output, Bool.false_eq_true, if_false,
          if_true, selected]
      refine ⟨sums, ?_, ?_⟩
      · intro i
        rw [combs, next, decimated_delayed_succ]
        simp only [Function.update_self, channelAt.combData selected sample place,
          Fin.val_castSucc]
      · intro i
        rw [combs, next, Function.iterate_succ_apply', decimated_combed_succ]
        simp only [Function.update_self, channelAt.combData selected sample place,
          Fin.val_castSucc, channelAt.previous]

end ChannelAt

/-! ## The channels in turn -/

/-- The samples of a channel among the first ones. -/
def taken (channels channel samples : Nat) : Nat :=
  samples / channels + if channel < samples % channels then 1 else 0

@[simp] theorem taken_zero (channels channel : Nat) : taken channels channel 0 = 0 := by
  rw [taken, Nat.zero_div, Nat.zero_mod, if_neg (Nat.not_lt_zero channel)]

theorem taken_self (channels samples : Nat) :
    taken channels (samples % channels) samples = samples / channels := by
  rw [taken, if_neg (Nat.lt_irrefl _), Nat.add_zero]

theorem taken_succ {channels channel samples : Nat} (inside : channel < channels) :
    taken channels channel (samples + 1) =
      taken channels channel samples + if channel = samples % channels then 1 else 0 := by
  have pos : 0 < channels := Nat.lt_of_le_of_lt (Nat.zero_le channel) inside
  rw [taken, taken]
  cases (inferInstance : Decidable (samples % channels = channels - 1)) with
  | isTrue last =>
      rw [(succ_last pos last).1, (succ_last pos last).2, last]
      split_ifs <;> omega
  | isFalse goesOn =>
      rw [(succ_inside pos goesOn).1, (succ_inside pos goesOn).2]
      split_ifs <;> omega

/-- The filter is enabled for a number of channels and a ratio. -/
structure Configured (input : VarcicInput) (channels ratio : Nat) : Prop where
  cfgEn : input.cfgEn = true
  cfgChNum : input.cfgChNum = BitVec.ofNat 2 (channels - 1)
  cfgDecimation : input.cfgDecimation = BitVec.ofNat 10 (ratio - 1)
  channels_pos : 0 < channels
  channels_le : channels ≤ 4
  ratio_pos : 0 < ratio
  ratio_le : ratio ≤ 1024

/-- The filter after some samples of its channels, which are presented in turn. -/
structure CicAt (cic : Varcic stages accWidth) (channels ratio : Nat)
    (signals : Nat → PowerSeries (BitVec accWidth)) (samples : Nat) : Prop where
  running : cic.rEn = true
  chNr : cic.rChNr = BitVec.ofNat 2 (samples % channels)
  sampleNr : cic.rSampleNr = BitVec.ofNat 10 (samples / channels % ratio)
  channel : ∀ c, c < channels →
    ChannelAt cic ratio (signals c) (BitVec.ofNat 2 c) (taken channels c samples)

namespace CicAt

variable {channels ratio samples : Nat} {signals : Nat → PowerSeries (BitVec accWidth)}

/-- The filter is cleared. -/
theorem cleared (configured : Configured input channels ratio) (rests : cic.rEn = false) :
    CicAt (cic.step input) channels ratio signals 0 := by
  have clears : cic.clr input = true := by rw [Varcic.clr, configured.cfgEn, rests]; rfl
  refine ⟨configured.cfgEn, ?_, ?_, ?_⟩
  · rw [Nat.zero_mod]
    exact if_pos clears
  · rw [Nat.zero_div, Nat.zero_mod]
    exact if_pos clears
  · intro c _
    rw [taken_zero]
    exact ChannelAt.cleared configured.ratio_pos clears

theorem goesOn (cicAt : CicAt cic channels ratio signals samples) : cic.clr input = false := by
  rw [Varcic.clr, cicAt.running, Bool.not_true, Bool.and_false]

/-- No sample is presented. -/
theorem step_quiet (cicAt : CicAt cic channels ratio signals samples)
    (configured : Configured input channels ratio) (quiet : input.dataValid = false) :
    CicAt (cic.step input) channels ratio signals samples := by
  refine ⟨configured.cfgEn, ?_, ?_, ?_⟩
  · rw [← cicAt.chNr]
    simp only [Varcic.step, Varcic.chNrNext, cicAt.goesOn, quiet, Bool.false_eq_true, if_false]
  · rw [← cicAt.sampleNr]
    simp only [Varcic.step, Varcic.sampleNrNext, cicAt.goesOn, quiet, Bool.false_and,
      Bool.false_eq_true, if_false]
  · intro c inside
    apply (cicAt.channel c inside).step_other cicAt.goesOn
    intro valid
    rw [quiet] at valid
    cases valid

/-- An output comes with the last sample of each `ratio`. -/
theorem dataValidO (cicAt : CicAt cic channels ratio signals samples)
    (configured : Configured input channels ratio) (valid : input.dataValid = true) :
    cic.dataValidO input = decide (samples / channels % ratio = ratio - 1) := by
  have below := Nat.mod_lt (samples / channels) configured.ratio_pos
  rw [Varcic.dataValidO, valid, Bool.true_and, cicAt.sampleNr, configured.cfgDecimation,
    ofNat_beq_ofNat (Nat.lt_of_lt_of_le below configured.ratio_le)]
  have fits := configured.ratio_le
  omega

/-- The next sample is presented. -/
theorem step_sample (cicAt : CicAt cic channels ratio signals samples)
    (configured : Configured input channels ratio) (valid : input.dataValid = true)
    (sample : (if input.data then 1 else BitVec.allOnes accWidth) =
      coeff (samples / channels) (signals (samples % channels))) :
    CicAt (cic.step input) channels ratio signals (samples + 1) := by
  have below := Nat.mod_lt samples configured.channels_pos
  refine ⟨configured.cfgEn, ?_, ?_, ?_⟩
  · rw [← wraps_next configured.channels_pos configured.channels_le, ← cicAt.chNr,
      ← configured.cfgChNum]
    simp only [Varcic.step, Varcic.chNrNext, cicAt.goesOn, valid, Bool.false_eq_true, if_false,
      if_true]
  · have turn : (cic.rChNr == input.cfgChNum) = decide (samples % channels = channels - 1) := by
      have fits := configured.channels_le
      rw [cicAt.chNr, configured.cfgChNum, ofNat_beq_ofNat] <;> omega
    simp only [Varcic.step, Varcic.sampleNrNext, cicAt.goesOn, valid, turn, Bool.true_and,
      Bool.false_eq_true, if_false, decide_eq_true_eq]
    cases (inferInstance : Decidable (samples % channels = channels - 1)) with
    | isTrue last =>
        rw [if_pos last, (succ_last configured.channels_pos last).2, cicAt.sampleNr,
          configured.cfgDecimation]
        exact wraps_next configured.ratio_pos configured.ratio_le
    | isFalse stays =>
        rw [if_neg stays, (succ_inside configured.channels_pos stays).2]
        exact cicAt.sampleNr
  · intro c inside
    rw [taken_succ inside]
    cases (inferInstance : Decidable (c = samples % channels)) with
    | isTrue turn =>
        have channel := cicAt.channel c inside
        rw [turn, taken_self] at channel
        rw [if_pos turn, turn, taken_self]
        exact channel.step_selected cicAt.chNr cicAt.goesOn valid configured.ratio_pos sample
          (cicAt.dataValidO configured valid)
    | isFalse other =>
        rw [if_neg other, Nat.add_zero]
        apply (cicAt.channel c inside).step_other cicAt.goesOn
        intro _ same
        rw [cicAt.chNr, ← beq_iff_eq, ofNat_beq_ofNat, decide_eq_true_eq] at same
        · exact other same
        · exact Nat.lt_of_lt_of_le inside configured.channels_le
        · exact Nat.lt_of_lt_of_le below configured.channels_le

/-- What is behind an output. -/
theorem combData (cicAt : CicAt cic channels ratio signals samples)
    (configured : Configured input channels ratio)
    (sample : (if input.data then 1 else BitVec.allOnes accWidth) =
      coeff (samples / channels) (signals (samples % channels)))
    (last : samples / channels % ratio = ratio - 1) :
    cic.combData input (Fin.last stages) =
      decimated ratio (samples / channels / ratio)
        (X ^ (stages * (ratio + 1)) * (boxcar ratio ^ stages * signals (samples % channels))) := by
  have below := Nat.mod_lt samples configured.channels_pos
  have channel := cicAt.channel _ below
  rw [taken_self] at channel
  have place : samples / channels = samples / channels / ratio * ratio + (ratio - 1) := by
    rw [← last, Nat.div_add_mod']
  rw [channel.combData cicAt.chNr sample place, Fin.val_last, combed_integrated_iterate]

end CicAt

end CoreVMcu.I2s
