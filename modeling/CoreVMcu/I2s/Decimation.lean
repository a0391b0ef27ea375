import CoreVMcu.I2s.PdmTiming

/-!
# The response of the PDM channels

Every output of a channel is the response of a chain of five integrators and combs to the bits
of that channel alone, as a number of 51 bits.  The number has room for every response but
one: the largest of the largest ratio.
-/

namespace CoreVMcu.I2s

open Clocked Cic PowerSeries

/-- A bit as a sample. -/
def pdmSample (bit : Bool) : ℤ := if bit then 1 else -1

namespace PdmCfg

variable (cfg : PdmCfg) (pdmCh0 pdmCh1 : Nat → Bool)

/-- `R`. -/
def ratio : Nat := cfg.decimation.toNat + 1

/-- The samples of a channel. -/
def samples (channel n : Nat) : ℤ := pdmSample (cfg.chMode.bitOf pdmCh0 pdmCh1 channel n)

/-- The `k`-th value of the convolution of some samples with the fifth power of
`1 + X + ... + X ^ (R - 1)`, of which every `R`-th one is kept, after the delay of the stages. -/
noncomputable def response (samples : Nat → ℤ) (k : Nat) : ℤ :=
  decimated cfg.ratio k
    (X ^ (5 * (cfg.ratio + 1)) * (boxcar cfg.ratio ^ 5 * PowerSeries.mk samples))

/-- What is due when a bit has been sent, in the order of the bits that are sent: the channels
take turns, and the last of each `R` bits of a channel comes with an output of that channel. -/
noncomputable def expected (bit : Nat) : Option ℤ :=
  if bit / cfg.chMode.channels % cfg.ratio = cfg.ratio - 1 then
    some (cfg.response (cfg.samples pdmCh0 pdmCh1 (bit % cfg.chMode.channels))
      (bit / cfg.chMode.channels / cfg.ratio))
  else none

/-- The inputs from the cycle in which a channel is enabled. -/
def enabledInput (t : Nat) : PdmInput :=
  { cfg, en := true, pdmCh0 := pdmCh0 t, pdmCh1 := pdmCh1 t }

/-- The accumulators behind the outputs of the first cycles after an enable. -/
def outputs (before : List PdmInput) (t : Nat) : List (BitVec 51) :=
  pdmMachine.observedFrom PdmTop.output (pdmMachine.run before)
    (inputsUpTo (cfg.enabledInput pdmCh0 pdmCh1) t)

/-- After every number of cycles the outputs are the responses that are due. -/
def Decimates (before : List PdmInput) : Prop :=
  ∀ t, (cfg.outputs pdmCh0 pdmCh1 before t).map BitVec.toInt =
    (List.range (cfg.chMode.sent t)).filterMap (cfg.expected pdmCh0 pdmCh1)

/-- The ratio is the largest one and a channel has ones only in all the bits that one of its
outputs depends on. -/
def FullScale : Prop :=
  cfg.decimation = 1023 ∧ ∃ channel, channel < cfg.chMode.channels ∧ ∃ j, 1 ≤ j ∧
    ∀ i, i < 5116 → cfg.chMode.bitOf pdmCh0 pdmCh1 channel (1024 * j - 1 + i) = true

end PdmCfg

/-- The channels are not enabled in the last cycle of a run, if it has one. -/
def EndsDisabled (before : List PdmInput) : Prop :=
  ∀ input, before.getLast? = some input → input.en = false

theorem endsDisabled_nil : EndsDisabled [] := by
  intro input found
  cases found

/-! ## The outputs as numbers of 51 bits -/

variable {cfg : PdmCfg} {pdmCh0 pdmCh1 : Nat → Bool} {t : Nat} {pdm : PdmTop}

variable (cfg pdmCh0 pdmCh1) in
/-- The samples of a channel as the filter adds them. -/
noncomputable def pdmSignal (channel : Nat) : PowerSeries (BitVec 51) :=
  PowerSeries.mk fun n => (cfg.samples pdmCh0 pdmCh1 channel n : BitVec 51)

variable (cfg pdmCh0 pdmCh1) in
/-- The channels some cycles after they were enabled. -/
structure PdmAt (t : Nat) (pdm : PdmTop) : Prop where
  control : pdm.control = controlAt cfg.chMode t
  data : DataAt cfg.chMode pdmCh0 pdmCh1 t pdm.data
  fresh : t = 0 → pdm.cic.rEn = false
  runs : 0 < t →
    CicAt pdm.cic cfg.chMode.channels cfg.ratio (pdmSignal cfg pdmCh0 pdmCh1) (cfg.chMode.sent t)

theorem PdmCfg.ratio_pos (cfg : PdmCfg) : 0 < cfg.ratio := Nat.succ_pos _

theorem PdmCfg.ratio_le (cfg : PdmCfg) : cfg.ratio ≤ 1024 := cfg.decimation.isLt

/-- The configuration that reaches the filter. -/
theorem configured (cfg : PdmCfg) (pdmCh0 pdmCh1 : Nat → Bool) (pdm : PdmTop) (t : Nat) :
    Configured (pdm.cicInput (cfg.enabledInput pdmCh0 pdmCh1 t)) cfg.chMode.channels cfg.ratio where
  cfgEn := rfl
  cfgChNum := cfg.chMode.chTarget_eq
  cfgDecimation := (BitVec.ofNat_toNat 10 cfg.decimation).symm
  channels_pos := cfg.chMode.channels_pos
  channels_le := cfg.chMode.channels_le
  ratio_pos := cfg.ratio_pos
  ratio_le := cfg.ratio_le

theorem PdmAt.sends (pdmAt : PdmAt cfg pdmCh0 pdmCh1 t pdm) :
    pdm.sDataValid = cfg.chMode.sends t := by
  rw [PdmTop.sDataValid, pdmAt.control, sends_controlAt]

/-- The sample that is presented to the filter. -/
theorem PdmAt.sample (pdmAt : PdmAt cfg pdmCh0 pdmCh1 t pdm)
    (sends : cfg.chMode.sends t = true) :
    (if pdm.sData then 1 else BitVec.allOnes 51) =
      coeff (cfg.chMode.sent t / cfg.chMode.channels)
        (pdmSignal cfg pdmCh0 pdmCh1 (cfg.chMode.sent t % cfg.chMode.channels)) := by
  have bit := pdmAt.data.sData sends pdm.cic
  rw [← pdmAt.control] at bit
  rw [pdmSignal, coeff_mk, PdmCfg.samples, ← bit, pdmSample]
  cases pdm.sData with
  | false => rfl
  | true => rfl

theorem sends_zero (mode : PdmMode) : mode.sends 0 = false := by
  cases mode <;> rfl

/-- One cycle after the enable. -/
theorem PdmAt.step (pdmAt : PdmAt cfg pdmCh0 pdmCh1 t pdm) :
    PdmAt cfg pdmCh0 pdmCh1 (t + 1) (pdm.step (cfg.enabledInput pdmCh0 pdmCh1 t)) where
  control := by
    rw [← controlAt_next, ← pdmAt.control]
    rfl
  data := by
    have next := pdmAt.data.next
    rw [← pdmAt.control] at next
    exact next
  fresh := fun zero => absurd zero (Nat.succ_ne_zero t)
  runs := by
    intro _
    have set := configured cfg pdmCh0 pdmCh1 pdm t
    rw [PdmMode.sent_succ]
    cases t with
    | zero =>
        rw [sends_zero, PdmMode.sent_zero]
        exact CicAt.cleared set (pdmAt.fresh rfl)
    | succ t =>
        have cicAt := pdmAt.runs (Nat.succ_pos t)
        cases sends : cfg.chMode.sends (t + 1) with
        | false => exact cicAt.step_quiet set (pdmAt.sends.trans sends)
        | true => exact cicAt.step_sample set (pdmAt.sends.trans sends) (pdmAt.sample sends)

/-- A response as a number of 51 bits. -/
theorem response_intCast (cfg : PdmCfg) (samples : Nat → ℤ) (k : Nat) :
    decimated cfg.ratio k (X ^ (5 * (cfg.ratio + 1)) *
        (boxcar cfg.ratio ^ 5 * PowerSeries.mk fun n => (samples n : BitVec 51))) =
      (cfg.response samples k : BitVec 51) := by
  rw [PdmCfg.response, decimated, decimated, coeff_X_pow_mul', coeff_X_pow_mul']
  split
  · exact coeff_boxcar_intCast _ _ _ samples
  · rfl

/-- What is behind the output of a cycle. -/
theorem PdmAt.output (pdmAt : PdmAt cfg pdmCh0 pdmCh1 t pdm) :
    pdm.output (cfg.enabledInput pdmCh0 pdmCh1 t) =
      if cfg.chMode.sends t then
        ((cfg.expected pdmCh0 pdmCh1 (cfg.chMode.sent t)).map fun value =>
          (value : BitVec 51)).toList
      else [] := by
  rw [PdmTop.output, PdmTop.pcmDataValid]
  cases sends : cfg.chMode.sends t with
  | false =>
      have quiet :
          pdm.cic.dataValidO (pdm.cicInput (cfg.enabledInput pdmCh0 pdmCh1 t)) = false := by
        rw [Varcic.dataValidO, PdmTop.cicInput, pdmAt.sends, sends, Bool.false_and]
      rw [quiet]
      rfl
  | true =>
      have pos : 0 < t := by
        cases t with
        | zero => rw [sends_zero] at sends; cases sends
        | succ t => exact Nat.succ_pos t
      have set := configured cfg pdmCh0 pdmCh1 pdm t
      have cicAt := pdmAt.runs pos
      rw [cicAt.dataValidO set (pdmAt.sends.trans sends), PdmCfg.expected, if_pos rfl]
      cases (inferInstance : Decidable (cfg.chMode.sent t / cfg.chMode.channels % cfg.ratio =
          cfg.ratio - 1)) with
      | isFalse inside => rw [decide_eq_false inside, if_neg inside]; rfl
      | isTrue last =>
          rw [decide_eq_true last, if_pos rfl, if_pos last, PdmTop.accumulator,
            cicAt.combData set (pdmAt.sample sends) last, pdmSignal, response_intCast]
          rfl

/-- The channels when they are enabled. -/
theorem pdmAt_zero {before : List PdmInput} (disabled : EndsDisabled before) :
    PdmAt cfg pdmCh0 pdmCh1 0 (pdmMachine.run before) := by
  have rests : (pdmMachine.run before).control = .reset ∧
      (pdmMachine.run before).cic.rEn = false := by
    cases before using List.reverseRecOn with
    | nil => exact ⟨rfl, rfl⟩
    | append_singleton before input =>
        have off : input.en = false := disabled input (by simp)
        rw [Machine.run_snoc]
        refine ⟨if_neg ?_, off⟩
        rw [off]
        exact Bool.false_ne_true
  exact ⟨rests.1.trans (controlAt_zero _).symm, dataAt_zero, fun _ => rests.2,
    fun pos => absurd pos (Nat.lt_irrefl 0)⟩

theorem filterMap_singleton {α β : Type} (f : α → Option β) (x : α) :
    [x].filterMap f = (f x).toList := by
  cases found : f x with
  | none => simp [found]
  | some y => simp [found]

/-- The outputs after an enable. -/
theorem pdm_run {before : List PdmInput} (disabled : EndsDisabled before) (t : Nat) :
    PdmAt cfg pdmCh0 pdmCh1 t (pdmMachine.runFrom (pdmMachine.run before)
        (inputsUpTo (cfg.enabledInput pdmCh0 pdmCh1) t)) ∧
      cfg.outputs pdmCh0 pdmCh1 before t =
        (List.range (cfg.chMode.sent t)).filterMap fun bit =>
          (cfg.expected pdmCh0 pdmCh1 bit).map fun value => (value : BitVec 51) := by
  induction t with
  | zero =>
      refine ⟨pdmAt_zero disabled, ?_⟩
      rw [PdmMode.sent_zero]
      rfl
  | succ t inductionHypothesis =>
      obtain ⟨pdmAt, outputs⟩ := inductionHypothesis
      rw [inputsUpTo_succ, Machine.runFrom, List.foldl_append]
      refine ⟨pdmAt.step, ?_⟩
      rw [PdmCfg.outputs, inputsUpTo_succ, Machine.observedFrom_append]
      change cfg.outputs pdmCh0 pdmCh1 before t ++ _ = _
      rw [outputs, PdmMode.sent_succ, Machine.observedFrom, Machine.observedFrom, List.append_nil,
        pdmAt.output]
      cases cfg.chMode.sends t with
      | false => exact List.append_nil _
      | true =>
          rw [if_pos rfl, Bool.toNat_true, List.range_succ, List.filterMap_append,
            filterMap_singleton]

/-! ## The outputs as integers -/

/-- Two sequences of optional values are the same when their values are, along the way. -/
theorem filterMap_range_iff {α : Type} (f g : Nat → Option α) :
    (∀ n, (List.range n).filterMap f = (List.range n).filterMap g) ↔ ∀ n, f n = g n := by
  constructor
  · intro same n
    have longer := same (n + 1)
    rw [List.range_succ, List.filterMap_append, List.filterMap_append, same n,
      List.append_right_inj, filterMap_singleton, filterMap_singleton] at longer
    have heads := congrArg List.head? longer
    rwa [Option.head?_toList, Option.head?_toList] at heads
  · intro same n
    rw [funext same]

/-- Every number of bits is sent at some time. -/
theorem PdmMode.exists_sent (mode : PdmMode) (n : Nat) : ∃ t, mode.sent t = n := by
  cases mode with
  | oneCh => exact ⟨2 * n, Nat.mul_div_cancel_left n (by decide)⟩
  | twoChRf | twoChSep | fourCh => exact ⟨n + 1, rfl⟩

/-- The outputs are right when every response fits. -/
theorem decimates_iff {before : List PdmInput} (disabled : EndsDisabled before) :
    cfg.Decimates pdmCh0 pdmCh1 before ↔
      ∀ channel, channel < cfg.chMode.channels → ∀ k,
        (cfg.response (cfg.samples pdmCh0 pdmCh1 channel) k : BitVec 51).toInt =
          cfg.response (cfg.samples pdmCh0 pdmCh1 channel) k := by
  have values : cfg.Decimates pdmCh0 pdmCh1 before ↔ ∀ bit,
      ((cfg.expected pdmCh0 pdmCh1 bit).map fun value => (value : BitVec 51).toInt) =
        cfg.expected pdmCh0 pdmCh1 bit := by
    rw [← filterMap_range_iff]
    constructor
    · intro decimates n
      obtain ⟨t, rfl⟩ := cfg.chMode.exists_sent n
      rw [← decimates t, (pdm_run disabled t).2, List.map_filterMap]
      simp only [Option.map_map]
      rfl
    · intro same t
      rw [(pdm_run disabled t).2, List.map_filterMap, ← same]
      simp only [Option.map_map]
      rfl
  rw [values]
  constructor
  · intro same channel inside k
    have pos := cfg.chMode.channels_pos
    have due := same ((k * cfg.ratio + (cfg.ratio - 1)) * cfg.chMode.channels + channel)
    have turn : ((k * cfg.ratio + (cfg.ratio - 1)) * cfg.chMode.channels + channel) %
        cfg.chMode.channels = channel := by
      rw [Nat.mul_add_mod', Nat.mod_eq_of_lt inside]
    have number : ((k * cfg.ratio + (cfg.ratio - 1)) * cfg.chMode.channels + channel) /
        cfg.chMode.channels = k * cfg.ratio + (cfg.ratio - 1) := by
      rw [Nat.add_comm, Nat.add_mul_div_right _ _ pos, Nat.div_eq_of_lt inside, Nat.zero_add]
    have last : (k * cfg.ratio + (cfg.ratio - 1)) % cfg.ratio = cfg.ratio - 1 := by
      rw [Nat.mul_add_mod', Nat.mod_eq_of_lt (Nat.sub_one_lt_of_lt cfg.ratio_pos)]
    have output : (k * cfg.ratio + (cfg.ratio - 1)) / cfg.ratio = k := by
      rw [Nat.add_comm, Nat.add_mul_div_right _ _ cfg.ratio_pos,
        Nat.div_eq_of_lt (Nat.sub_one_lt_of_lt cfg.ratio_pos), Nat.zero_add]
    rw [PdmCfg.expected, turn, number, if_pos last, output] at due
    exact Option.some.inj due
  · intro same bit
    rw [PdmCfg.expected]
    split
    · exact congrArg some (same _ (Nat.mod_lt _ cfg.chMode.channels_pos) _)
    · rfl

/-- A number of 51 bits has room for all integers up to two to the fifty, but for this one. -/
theorem fits_iff {value : ℤ} (bound : |value| ≤ 2 ^ 50) :
    (value : BitVec 51).toInt = value ↔ value ≠ 2 ^ 50 := by
  obtain ⟨low, high⟩ := abs_le.mp bound
  rw [BitVec.toInt_intCast]
  constructor
  · rintro fits rfl
    exact absurd fits (by decide)
  · intro notFull
    apply Int.bmod_eq_of_le <;> omega

section Fits

variable {samples : Nat → ℤ}

theorem abs_response_le (small : ∀ n, |samples n| ≤ 1) (k : Nat) :
    |cfg.response samples k| ≤ (cfg.ratio : ℤ) ^ 5 := by
  rw [PdmCfg.response, decimated, coeff_X_pow_mul']
  split
  · exact abs_coeff_boxcar_le small 5 _
  · rw [abs_zero]
    positivity

/-- The response is as large as it can be. -/
theorem response_eq_iff (small : ∀ n, |samples n| ≤ 1) (k : Nat) :
    cfg.response samples k = (cfg.ratio : ℤ) ^ 5 ↔
      5 * (cfg.ratio + 1) ≤ k * cfg.ratio + (cfg.ratio - 1) ∧
        AllOnes samples (5 * (cfg.ratio - 1))
          (k * cfg.ratio + (cfg.ratio - 1) - 5 * (cfg.ratio + 1)) := by
  rw [PdmCfg.response, decimated, coeff_X_pow_mul']
  split
  · next filled =>
      rw [coeff_boxcar_eq_iff cfg.ratio_pos small, and_iff_right filled]
  · next filling =>
      have pos : 0 < (cfg.ratio : ℤ) ^ 5 := by
        have ratio := cfg.ratio_pos
        positivity
      exact ⟨fun zero => absurd zero pos.ne, fun both => absurd both.1 filling⟩

/-- A response that does not fit. -/
theorem response_full_iff (small : ∀ n, |samples n| ≤ 1) (k : Nat) :
    cfg.response samples k = 2 ^ 50 ↔
      cfg.decimation = 1023 ∧ ∃ j, k = j + 9 ∧ 1 ≤ j ∧
        ∀ i, i < 5116 → samples (1024 * j - 1 + i) = 1 := by
  cases (inferInstance : Decidable (cfg.decimation = 1023)) with
  | isFalse smaller =>
      have below : cfg.ratio ≤ 1023 := by
        have bound := cfg.decimation.isLt
        have other : cfg.decimation.toNat ≠ 1023 := fun same =>
          smaller (BitVec.eq_of_toNat_eq same)
        rw [PdmCfg.ratio]
        omega
      have power : (cfg.ratio : ℤ) ^ 5 ≤ 1023 ^ 5 :=
        pow_le_pow_left₀ (Int.natCast_nonneg _) (Int.ofNat_le.mpr below) 5
      have bound := (le_of_abs_le (abs_response_le small k)).trans power
      constructor
      · intro full
        rw [full] at bound
        exact absurd bound (by decide)
      · intro both
        exact absurd both.1 smaller
  | isTrue largest =>
      have ratio : cfg.ratio = 1024 := by rw [PdmCfg.ratio, largest]; rfl
      have full : (2 : ℤ) ^ 50 = (cfg.ratio : ℤ) ^ 5 := by rw [ratio]; rfl
      rw [full, response_eq_iff small, ratio, and_iff_right largest]
      constructor
      · rintro ⟨filled, ones⟩
        have far := (ones 5115 (Nat.le_refl _)).1
        refine ⟨k - 9, by omega, by omega, ?_⟩
        intro i inside
        have place : k * 1024 + (1024 - 1) - 5 * (1024 + 1) - (5115 - i) =
            1024 * (k - 9) - 1 + i := by omega
        rw [← place]
        exact (ones (5115 - i) (by omega)).2
      · rintro ⟨j, rfl, pos, ones⟩
        refine ⟨by omega, ?_⟩
        intro i inside
        have place : (j + 9) * 1024 + (1024 - 1) - 5 * (1024 + 1) - i =
            1024 * j - 1 + (5115 - i) := by omega
        rw [place]
        exact ⟨by omega, ones (5115 - i) (by omega)⟩

end Fits

theorem abs_pdmSample_le (bit : Bool) : |pdmSample bit| ≤ 1 := by
  cases bit <;> decide

theorem pdmSample_eq_one_iff (bit : Bool) : pdmSample bit = 1 ↔ bit = true := by
  cases bit <;> decide

/-- The responses of a channel that do not fit are those to ones only. -/
theorem fits_response_iff (cfg : PdmCfg) (pdmCh0 pdmCh1 : Nat → Bool) (channel k : Nat) :
    (cfg.response (cfg.samples pdmCh0 pdmCh1 channel) k : BitVec 51).toInt =
        cfg.response (cfg.samples pdmCh0 pdmCh1 channel) k ↔
      ¬(cfg.decimation = 1023 ∧ ∃ j, k = j + 9 ∧ 1 ≤ j ∧
        ∀ i, i < 5116 → cfg.chMode.bitOf pdmCh0 pdmCh1 channel (1024 * j - 1 + i) = true) := by
  have small : ∀ n, |cfg.samples pdmCh0 pdmCh1 channel n| ≤ 1 := fun n => abs_pdmSample_le _
  have power : (cfg.ratio : ℤ) ^ 5 ≤ 1024 ^ 5 :=
    pow_le_pow_left₀ (Int.natCast_nonneg _) (Int.ofNat_le.mpr cfg.ratio_le) 5
  rw [fits_iff ((abs_response_le small k).trans power), ne_eq, response_full_iff small]
  simp only [PdmCfg.samples, pdmSample_eq_one_iff]

/-- After an enable the outputs are the responses of the channels, as integers, exactly when no
channel reaches the largest response of the largest ratio. -/
theorem pdm_decimates_iff (cfg : PdmCfg) (pdmCh0 pdmCh1 : Nat → Bool) (before : List PdmInput)
    (disabled : EndsDisabled before) :
    cfg.Decimates pdmCh0 pdmCh1 before ↔ ¬cfg.FullScale pdmCh0 pdmCh1 := by
  rw [decimates_iff disabled]
  simp only [fits_response_iff]
  constructor
  · rintro fits ⟨largest, channel, inside, j, pos, ones⟩
    exact fits channel inside (j + 9) ⟨largest, j, rfl, pos, ones⟩
  · rintro small channel inside k ⟨largest, j, -, pos, ones⟩
    exact small ⟨largest, channel, inside, j, pos, ones⟩

/-- One channel with a ratio of two. -/
theorem ratioTwo_decimates :
    PdmCfg.Decimates { chMode := .oneCh, decimation := 1, shift := 7 } (fun _ => true)
      (fun _ => false) [] :=
  (pdm_decimates_iff _ _ _ [] endsDisabled_nil).mpr fun full => absurd full.1 (by decide)

/-- One channel with the largest ratio and ones only: the largest response reads as the most
negative number. -/
theorem onesOnly_not_decimates :
    ¬PdmCfg.Decimates { chMode := .oneCh, decimation := 1023, shift := 0 } (fun _ => true)
      (fun _ => false) [] := by
  rw [decimates_iff endsDisabled_nil]
  intro fits
  have tenth := fits 0 (by decide) 10
  rw [fits_response_iff] at tenth
  exact tenth ⟨rfl, 1, rfl, Nat.le_refl 1, fun _ _ => rfl⟩

end CoreVMcu.I2s
