import CoreVMcu.I2cs.PeripheralInterface

/-!
# The glitch filter of the I2C slave

The slave believes a line when its last three samples agree.  While those of SDA do not agree,
it takes the filtered SCL in their place.
-/

namespace CoreVMcu.I2cs

/-- What a clock edge samples: the lines, and the delay lengths of the registers. -/
structure LineInput where
  scl : Bool
  sda : Bool
  sclDelayLen : BitVec 8
  sdaDelayLen : BitVec 8

/-- The value that the newest three samples agree on. -/
def agreed : List Bool → Option Bool
  | newest :: middle :: oldest :: _ =>
      if newest = middle ∧ middle = oldest then some newest else none
  | _ => none

/-- The level of a line that only the agreement of its own samples changes. -/
def level (samples : Nat → List Bool) : Nat → Bool
  | 0 => true
  | t + 1 => (agreed (samples t)).getD (level samples t)

/-- A filtered line changes only to what three samples of the line agree on, and then does. -/
structure FollowsSamples (samples : Nat → List Bool) (filtered : Nat → Bool) : Prop where
  changes : ∀ t, filtered (t + 1) ≠ filtered t → agreed (samples t) = some (filtered (t + 1))
  settles : ∀ t value, agreed (samples t) = some value → filtered (t + 1) = value

section Waveform

variable (waveform : Nat → LineInput)

/-- The registers from reset on. -/
def linesAt : Nat → Lines
  | 0 => .reset
  | t + 1 =>
      (linesAt t).step (waveform t).sclDelayLen (waveform t).sdaDelayLen (waveform t).scl
        (waveform t).sda

/-- The samples of SCL, the newest first; the reset stands for three high ones. -/
def sclSamples : Nat → List Bool
  | 0 => [true, true, true]
  | t + 1 =>
      if (linesAt waveform t).sclCnt = 0 then (waveform t).scl :: sclSamples t else sclSamples t

/-- The samples of SDA. -/
def sdaSamples : Nat → List Bool
  | 0 => [true, true, true]
  | t + 1 =>
      if (linesAt waveform t).sdaCnt = 0 then (waveform t).sda :: sdaSamples t else sdaSamples t

/-- The filtered lines follow their samples.  A start or a stop comes from three equal samples
of SDA while SCL is high, an edge of the clock from three equal samples of SCL. -/
structure FiltersGlitches : Prop where
  scl : FollowsSamples (sclSamples waveform) (fun t => (linesAt waveform t).sclCs)
  sda : FollowsSamples (sdaSamples waveform) (fun t => (linesAt waveform t).sdaCs)
  start : ∀ t, (linesAt waveform t).edges.startDetect = true → ∃ sampled, t = sampled + 2 ∧
    agreed (sdaSamples waveform sampled) = some false ∧
    level (sclSamples waveform) (sampled + 1) = true
  stop : ∀ t, (linesAt waveform t).edges.stopDetect = true → ∃ sampled, t = sampled + 2 ∧
    agreed (sdaSamples waveform sampled) = some true ∧
    level (sclSamples waveform) (sampled + 1) = true
  fall : ∀ t, (linesAt waveform t).edges.sclFall = true → ∃ sampled, t = sampled + 1 ∧
    agreed (sclSamples waveform sampled) = some false
  rise : ∀ t bit, (linesAt waveform t).edges.bit = some bit → ∃ sampled, t = sampled + 2 ∧
    agreed (sclSamples waveform sampled) = some true

/-! ## The filters -/

theorem FollowsSamples.eq_level {samples : Nat → List Bool} {filtered : Nat → Bool}
    (follows : FollowsSamples samples filtered) (start : filtered 0 = true) (t : Nat) :
    filtered t = level samples t := by
  induction t with
  | zero => exact start
  | succ t inductionHypothesis =>
      rw [level]
      cases agreement : agreed (samples t) with
      | some value => exact follows.settles t value agreement
      | none =>
          rw [Option.getD_none, ← inductionHypothesis]
          by_contra changed
          have sampled := follows.changes t changed
          rw [agreement] at sampled
          cases sampled

theorem followsSamples_level (samples : Nat → List Bool) :
    FollowsSamples samples (level samples) where
  changes := by
    intro t changed
    rw [level] at changed ⊢
    cases agreement : agreed (samples t) with
    | some value => rfl
    | none =>
        rw [agreement] at changed
        exact absurd rfl changed
  settles := by
    intro t value agreement
    rw [level, agreement, Option.getD_some]

/-- The registers hold the newest samples. -/
theorem sclSamples_eq (t : Nat) : ∃ older, sclSamples waveform t =
    (linesAt waveform t).sclD.newest :: (linesAt waveform t).sclD.middle ::
      (linesAt waveform t).sclD.oldest :: older := by
  induction t with
  | zero => exact ⟨[], rfl⟩
  | succ t inductionHypothesis =>
      rcases inductionHypothesis with ⟨older, held⟩
      rw [sclSamples, linesAt, Lines.step]
      split
      · rw [held]
        exact ⟨_, rfl⟩
      · exact ⟨older, held⟩

theorem sdaSamples_eq (t : Nat) : ∃ older, sdaSamples waveform t =
    (linesAt waveform t).sdaD.newest :: (linesAt waveform t).sdaD.middle ::
      (linesAt waveform t).sdaD.oldest :: older := by
  induction t with
  | zero => exact ⟨[], rfl⟩
  | succ t inductionHypothesis =>
      rcases inductionHypothesis with ⟨older, held⟩
      rw [sdaSamples, linesAt, Lines.step]
      split
      · rw [held]
        exact ⟨_, rfl⟩
      · exact ⟨older, held⟩

theorem filtered_eq (samples : Samples) (otherwise : Bool) (older : List Bool) :
    Lines.filtered samples otherwise =
      (agreed (samples.newest :: samples.middle :: samples.oldest :: older)).getD otherwise := by
  obtain ⟨newest, middle, oldest⟩ := samples
  cases newest <;> cases middle <;> cases oldest <;> cases otherwise <;> rfl

theorem sclCs_succ (t : Nat) : (linesAt waveform (t + 1)).sclCs =
    (agreed (sclSamples waveform t)).getD (linesAt waveform t).sclCs := by
  rcases sclSamples_eq waveform t with ⟨older, held⟩
  rw [held, ← filtered_eq]
  rfl

theorem sdaCs_succ (t : Nat) : (linesAt waveform (t + 1)).sdaCs =
    (agreed (sdaSamples waveform t)).getD (linesAt waveform t).sclCs := by
  rcases sdaSamples_eq waveform t with ⟨older, held⟩
  rw [held, ← filtered_eq]
  rfl

theorem sclCs_eq_level (t : Nat) :
    (linesAt waveform t).sclCs = level (sclSamples waveform) t := by
  induction t with
  | zero => rfl
  | succ t inductionHypothesis => rw [sclCs_succ, level, inductionHypothesis]

/-- SDA is filtered as long as its level is that of SCL whenever its samples do not agree. -/
theorem sdaCs_eq_level (t : Nat)
    (same : ∀ s < t, agreed (sdaSamples waveform s) = none →
      level (sdaSamples waveform) s = level (sclSamples waveform) s) :
    (linesAt waveform t).sdaCs = level (sdaSamples waveform) t := by
  cases t with
  | zero => rfl
  | succ t =>
      rw [sdaCs_succ, level, sclCs_eq_level]
      cases agreement : agreed (sdaSamples waveform t) with
      | some value => rfl
      | none => exact (same t (Nat.lt_succ_self t) agreement).symm

/-! ## The edges -/

theorem sdaLs_succ (t : Nat) :
    (linesAt waveform (t + 1)).sdaLs = (linesAt waveform t).sdaCs := rfl

theorem followsSamples_sclCs :
    FollowsSamples (sclSamples waveform) (fun t => (linesAt waveform t).sclCs) := by
  rw [funext (sclCs_eq_level waveform)]
  exact followsSamples_level _

theorem sclFall_sampled (t : Nat) (fall : (linesAt waveform t).edges.sclFall = true) :
    ∃ sampled, t = sampled + 1 ∧ agreed (sclSamples waveform sampled) = some false := by
  cases t with
  | zero => cases fall
  | succ t =>
      refine ⟨t, rfl, ?_⟩
      simp only [Lines.edges, Bool.and_eq_true, Bool.not_eq_true'] at fall
      have before : (linesAt waveform t).sclCs = true := fall.2
      have changed := (followsSamples_sclCs waveform).changes t
      simp only [fall.1, before] at changed
      exact changed Bool.false_ne_true

theorem bitXfer_of_bit {lines : Lines} {bit : Bool} (rise : lines.edges.bit = some bit) :
    lines.bitXfer = true := by
  cases transferred : lines.bitXfer with
  | true => rfl
  | false =>
      rw [Lines.edges, transferred] at rise
      cases rise

theorem bit_sampled (t : Nat) (bit : Bool) (rise : (linesAt waveform t).edges.bit = some bit) :
    ∃ sampled, t = sampled + 2 ∧ agreed (sclSamples waveform sampled) = some true := by
  have transferred := bitXfer_of_bit rise
  match t, transferred with
  | t + 2, transferred =>
      refine ⟨t, rfl, ?_⟩
      change ((linesAt waveform (t + 1)).sclCs && !(linesAt waveform t).sclCs) = true at transferred
      rw [Bool.and_eq_true, Bool.not_eq_true'] at transferred
      have changed := (followsSamples_sclCs waveform).changes t
      simp only [transferred.1, transferred.2] at changed
      exact changed (by decide)

theorem startDetect_succ (lines : Lines) (sclDelayLen sdaDelayLen : BitVec 8) (scl sda : Bool) :
    (lines.step sclDelayLen sdaDelayLen scl sda).startDetect =
      (lines.sclCs && (lines.sdaLs && !lines.sdaCs)) := by
  rw [Lines.step]
  cases lines.sclCs <;> rfl

theorem stopDetect_succ (lines : Lines) (sclDelayLen sdaDelayLen : BitVec 8) (scl sda : Bool) :
    (lines.step sclDelayLen sdaDelayLen scl sda).stopDetect =
      (lines.sclCs && (!lines.sdaLs && lines.sdaCs)) := by
  rw [Lines.step]
  cases lines.sclCs <;> rfl

section Sda

variable (follows : FollowsSamples (sdaSamples waveform) (fun t => (linesAt waveform t).sdaCs))

include follows

theorem start_sampled (t : Nat) (start : (linesAt waveform t).edges.startDetect = true) :
    ∃ sampled, t = sampled + 2 ∧ agreed (sdaSamples waveform sampled) = some false ∧
      level (sclSamples waveform) (sampled + 1) = true := by
  match t, start with
  | t + 2, start =>
      refine ⟨t, rfl, ?_⟩
      rw [Lines.edges, linesAt, startDetect_succ, sdaLs_succ, Bool.and_eq_true, Bool.and_eq_true,
        Bool.not_eq_true'] at start
      rcases start with ⟨high, before, after⟩
      have changed := follows.changes t
      simp only [before, after] at changed
      exact ⟨changed Bool.false_ne_true, (sclCs_eq_level waveform (t + 1)).symm.trans high⟩

theorem stop_sampled (t : Nat) (stop : (linesAt waveform t).edges.stopDetect = true) :
    ∃ sampled, t = sampled + 2 ∧ agreed (sdaSamples waveform sampled) = some true ∧
      level (sclSamples waveform) (sampled + 1) = true := by
  match t, stop with
  | t + 2, stop =>
      refine ⟨t, rfl, ?_⟩
      rw [Lines.edges, linesAt, stopDetect_succ, sdaLs_succ, Bool.and_eq_true, Bool.and_eq_true,
        Bool.not_eq_true'] at stop
      rcases stop with ⟨high, before, after⟩
      have changed := follows.changes t
      simp only [before, after] at changed
      exact ⟨changed (by decide), (sclCs_eq_level waveform (t + 1)).symm.trans high⟩

end Sda

/-- The filters work exactly if the levels of the lines are the same whenever the last three
samples of SDA do not agree. -/
theorem filtersGlitches_iff : FiltersGlitches waveform ↔
    ∀ t, agreed (sdaSamples waveform t) = none →
      level (sdaSamples waveform) t = level (sclSamples waveform) t := by
  constructor
  · intro filters t mixed
    have next : (linesAt waveform (t + 1)).sdaCs = level (sdaSamples waveform) (t + 1) :=
      filters.sda.eq_level rfl (t + 1)
    rw [sdaCs_succ, level, mixed, Option.getD_none, Option.getD_none, sclCs_eq_level] at next
    exact next.symm
  · intro same
    have follows : FollowsSamples (sdaSamples waveform)
        (fun t => (linesAt waveform t).sdaCs) := by
      rw [funext fun t => sdaCs_eq_level waveform t fun s _ => same s]
      exact followsSamples_level _
    exact ⟨followsSamples_sclCs waveform, follows, start_sampled waveform follows,
      stop_sampled waveform follows, sclFall_sampled waveform, bit_sampled waveform⟩

end Waveform

/-- SCL is high all the time, SDA falls and is high once more for a single sample. -/
def sdaGlitch (t : Nat) : LineInput :=
  { scl := true, sda := t = 10, sclDelayLen := 0, sdaDelayLen := 0 }

/-- The glitch is taken for a stop. -/
theorem sdaGlitch_not_filtered : ¬FiltersGlitches sdaGlitch := by
  intro filters
  rcases filters.stop 13 (by decide) with ⟨sampled, time, sampledHigh, _⟩
  obtain rfl : sampled = 11 := by omega
  exact absurd sampledHigh (by decide)

end CoreVMcu.I2cs
