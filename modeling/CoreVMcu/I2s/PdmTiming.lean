import CoreVMcu.I2s.PdmTop

/-!
# Which bits the filter is sent

From the cycle in which it is enabled the front end runs through a fixed pattern, so the bits
that it sends to the filter are those of the pins at known cycles.
-/

namespace CoreVMcu.I2s

open Clocked

variable {mode : PdmMode} {t : Nat}

/-- The `n`-th bit of a channel, in terms of the bits of the pins in the cycles since the front
end was enabled. -/
def PdmMode.bitOf (mode : PdmMode) (pdmCh0 pdmCh1 : Nat → Bool) (channel n : Nat) : Bool :=
  match mode with
  | .oneCh => pdmCh0 (2 * n)
  | .twoChRf => pdmCh0 (2 * n + channel)
  | .twoChSep => if channel = 0 then pdmCh0 (2 * n) else pdmCh1 (2 * n)
  | .fourCh =>
      if channel % 2 = 0 then pdmCh0 (4 * n + 2 * (channel / 2))
      else pdmCh1 (4 * n + 2 * (channel / 2))

/-- The number of bits that were sent before a cycle. -/
def PdmMode.sent (mode : PdmMode) (t : Nat) : Nat :=
  match mode with
  | .oneCh => t / 2
  | .twoChRf | .twoChSep | .fourCh => t - 1

/-- A bit is sent in a cycle. -/
def PdmMode.sends (mode : PdmMode) (t : Nat) : Bool :=
  match mode with
  | .oneCh => t % 2 == 1
  | .twoChRf | .twoChSep | .fourCh => decide (0 < t)

theorem PdmMode.channels_pos (mode : PdmMode) : 0 < mode.channels := by
  cases mode <;> decide

theorem PdmMode.channels_le (mode : PdmMode) : mode.channels ≤ 4 := by
  cases mode <;> decide

theorem PdmMode.chTarget_eq (mode : PdmMode) :
    mode.chTarget = BitVec.ofNat 2 (mode.channels - 1) := by
  cases mode <;> rfl

@[simp] theorem PdmMode.sent_zero (mode : PdmMode) : mode.sent 0 = 0 := by
  cases mode <;> rfl

theorem PdmMode.sent_succ (mode : PdmMode) (t : Nat) :
    mode.sent (t + 1) = mode.sent t + (mode.sends t).toNat := by
  cases mode with
  | oneCh =>
      rcases Nat.mod_two_eq_zero_or_one t with even | odd
      · simp only [sent, sends, even]
        change (t + 1) / 2 = t / 2
        omega
      · simp only [sent, sends, odd]
        change (t + 1) / 2 = t / 2 + 1
        omega
  | twoChRf | twoChSep | fourCh =>
      cases t with
      | zero => rfl
      | succ t =>
          rw [sends, decide_eq_true (Nat.succ_pos t)]
          rfl

/-! ## The pattern of the front end -/

/-- The control registers in a cycle. -/
def controlAt (mode : PdmMode) (t : Nat) : PdmControl :=
  match mode with
  | .oneCh =>
      { PdmControl.reset with
        rStoreCh0 := t % 2 == 0, rSendCh0 := t % 2 == 1, rClk := t % 2 == 1 }
  | .twoChRf =>
      { PdmControl.reset with
        rStoreCh0 := t % 2 == 0, rStoreCh1 := t % 2 == 1, rSendCh0 := t % 2 == 1
        rSendCh1 := decide (0 < t) && t % 2 == 0, rClk := t % 2 == 1 }
  | .twoChSep =>
      { PdmControl.reset with
        rStoreCh0 := t % 2 == 0, rSendCh0 := t % 2 == 1
        rSendCh1 := decide (0 < t) && t % 2 == 0, rClk := t % 2 == 1 }
  | .fourCh =>
      { PdmControl.reset with
        rStoreCh0 := t % 4 == 0, rStoreCh2 := t % 4 == 2, rSendCh0 := t % 4 == 1
        rSendCh1 := t % 4 == 2, rSendCh2 := t % 4 == 3, rSendCh3 := decide (0 < t) && t % 4 == 0
        rClk := t % 4 == 1 || t % 4 == 2, rClkDly := t % 4 == 2 || t % 4 == 3 }

theorem controlAt_zero (mode : PdmMode) : controlAt mode 0 = .reset := by
  cases mode <;> rfl

theorem mod_two_cases (t : Nat) :
    (t % 2 = 0 ∧ (t + 1) % 2 = 1) ∨ (t % 2 = 1 ∧ (t + 1) % 2 = 0) := by
  omega

theorem mod_four_cases (t : Nat) :
    (t % 4 = 0 ∧ (t + 1) % 4 = 1) ∨ (t % 4 = 1 ∧ (t + 1) % 4 = 2) ∨
      (t % 4 = 2 ∧ (t + 1) % 4 = 3) ∨ (t % 4 = 3 ∧ (t + 1) % 4 = 0) := by
  omega

/-- One cycle of the pattern. -/
theorem controlAt_next (mode : PdmMode) (t : Nat) :
    (controlAt mode t).next mode = controlAt mode (t + 1) := by
  cases mode with
  | oneCh | twoChRf | twoChSep =>
      rcases mod_two_cases t with ⟨now, next⟩ | ⟨now, next⟩ <;>
        simp [controlAt, PdmControl.next, PdmControl.reset, now, next]
  | fourCh =>
      rcases mod_four_cases t with ⟨now, next⟩ | ⟨now, next⟩ | ⟨now, next⟩ | ⟨now, next⟩ <;>
        simp [controlAt, PdmControl.next, PdmControl.reset, now, next]

theorem sends_controlAt (mode : PdmMode) (t : Nat) :
    ((controlAt mode t).rSendCh0 || (controlAt mode t).rSendCh1 || (controlAt mode t).rSendCh2 ||
      (controlAt mode t).rSendCh3) = mode.sends t := by
  cases mode with
  | oneCh =>
      simp [controlAt, PdmControl.reset, PdmMode.sends]
  | twoChRf | twoChSep =>
      rcases mod_two_cases t with ⟨now, next⟩ | ⟨now, next⟩ <;>
        simp [controlAt, PdmControl.reset, PdmMode.sends, now]
      omega
  | fourCh =>
      rcases mod_four_cases t with ⟨now, next⟩ | ⟨now, next⟩ | ⟨now, next⟩ | ⟨now, next⟩ <;>
        simp [controlAt, PdmControl.reset, PdmMode.sends, now] <;> omega

/-! ## The stored bits -/

section Data

variable (mode) (pdmCh0 pdmCh1 : Nat → Bool)

/-- The stored bits that are yet to be sent. -/
def DataAt (t : Nat) (data : PdmData) : Prop :=
  match mode with
  | .oneCh => t % 2 = 1 → data.rDataCh0 = pdmCh0 (t - 1)
  | .twoChRf =>
      (t % 2 = 1 → data.rDataCh0 = pdmCh0 (t - 1)) ∧
        (t % 2 = 0 → 0 < t → data.rDataCh1 = pdmCh0 (t - 1))
  | .twoChSep =>
      (t % 2 = 1 → data.rDataCh0 = pdmCh0 (t - 1) ∧ data.rDataCh1 = pdmCh1 (t - 1)) ∧
        (t % 2 = 0 → 0 < t → data.rDataCh1 = pdmCh1 (t - 2))
  | .fourCh =>
      (t % 4 = 1 → data.rDataCh0 = pdmCh0 (t - 1) ∧ data.rDataCh1 = pdmCh1 (t - 1)) ∧
        (t % 4 = 2 → data.rDataCh1 = pdmCh1 (t - 2)) ∧
        (t % 4 = 3 → data.rDataCh2 = pdmCh0 (t - 1) ∧ data.rDataCh3 = pdmCh1 (t - 1)) ∧
        (t % 4 = 0 → 0 < t → data.rDataCh3 = pdmCh1 (t - 2))

variable {mode} {pdmCh0 pdmCh1} {data : PdmData}

theorem dataAt_zero : DataAt mode pdmCh0 pdmCh1 0 data := by
  cases mode <;> simp [DataAt]

/-- One cycle of the stored bits. -/
theorem DataAt.next (dataAt : DataAt mode pdmCh0 pdmCh1 t data) :
    DataAt mode pdmCh0 pdmCh1 (t + 1)
      (data.next (controlAt mode t) (pdmCh0 t) (pdmCh1 t) mode) := by
  cases mode with
  | oneCh | twoChRf =>
      rcases mod_two_cases t with ⟨now, next⟩ | ⟨now, next⟩ <;>
        simp [DataAt, PdmData.next, controlAt, PdmControl.reset, now, next]
  | twoChSep =>
      rcases mod_two_cases t with ⟨now, next⟩ | ⟨now, next⟩
      · simp [DataAt, PdmData.next, controlAt, PdmControl.reset, now, next]
      · have kept := (dataAt.1 now).2
        simp [DataAt, PdmData.next, controlAt, PdmControl.reset, now, next, kept]
  | fourCh =>
      rcases mod_four_cases t with ⟨now, next⟩ | ⟨now, next⟩ | ⟨now, next⟩ | ⟨now, next⟩
      · simp [DataAt, PdmData.next, controlAt, PdmControl.reset, now, next]
      · have kept := (dataAt.1 now).2
        simp [DataAt, PdmData.next, controlAt, PdmControl.reset, now, next, kept]
      · simp [DataAt, PdmData.next, controlAt, PdmControl.reset, now, next]
      · have kept := (dataAt.2.2.1 now).2
        simp [DataAt, PdmData.next, controlAt, PdmControl.reset, now, next, kept]

/-- The bit that is sent. -/
theorem DataAt.sData (dataAt : DataAt mode pdmCh0 pdmCh1 t data) (sends : mode.sends t = true)
    (cic : Varcic 5 51) :
    PdmTop.sData { control := controlAt mode t, data, cic } =
      mode.bitOf pdmCh0 pdmCh1 (mode.sent t % mode.channels) (mode.sent t / mode.channels) := by
  cases mode with
  | oneCh =>
      have odd : t % 2 = 1 := by simpa [PdmMode.sends] using sends
      have place : t - 1 = 2 * (t / 2) := by omega
      simp [PdmTop.sData, controlAt, PdmControl.reset, odd, PdmMode.bitOf, PdmMode.sent,
        PdmMode.channels, dataAt odd, place]
  | twoChRf =>
      have pos : 0 < t := by simpa [PdmMode.sends] using sends
      have place : 2 * ((t - 1) / 2) + (t - 1) % 2 = t - 1 := Nat.div_add_mod _ _
      rcases mod_two_cases t with ⟨now, -⟩ | ⟨now, -⟩
      · simp [PdmTop.sData, controlAt, PdmControl.reset, now, pos, PdmMode.bitOf, PdmMode.sent,
          PdmMode.channels, dataAt.2 now pos, place]
      · simp [PdmTop.sData, controlAt, PdmControl.reset, now, PdmMode.bitOf, PdmMode.sent,
          PdmMode.channels, dataAt.1 now, place]
  | twoChSep =>
      have pos : 0 < t := by simpa [PdmMode.sends] using sends
      rcases mod_two_cases t with ⟨now, -⟩ | ⟨now, -⟩
      · have channel : (t - 1) % 2 = 1 := by omega
        have place : 2 * ((t - 1) / 2) = t - 2 := by omega
        simp [PdmTop.sData, controlAt, PdmControl.reset, now, pos, PdmMode.bitOf, PdmMode.sent,
          PdmMode.channels, dataAt.2 now pos, channel, place]
      · have channel : (t - 1) % 2 = 0 := by omega
        have place : 2 * ((t - 1) / 2) = t - 1 := by omega
        simp [PdmTop.sData, controlAt, PdmControl.reset, now, PdmMode.bitOf, PdmMode.sent,
          PdmMode.channels, dataAt.1 now, channel, place]
  | fourCh =>
      have pos : 0 < t := by simpa [PdmMode.sends] using sends
      rcases mod_four_cases t with ⟨now, -⟩ | ⟨now, -⟩ | ⟨now, -⟩ | ⟨now, -⟩
      · have channel : (t - 1) % 4 = 3 := by omega
        have place : 4 * ((t - 1) / 4) + 2 = t - 2 := by omega
        simp [PdmTop.sData, controlAt, PdmControl.reset, now, pos, PdmMode.bitOf, PdmMode.sent,
          PdmMode.channels, dataAt.2.2.2 now pos, channel, place]
      · have channel : (t - 1) % 4 = 0 := by omega
        have place : 4 * ((t - 1) / 4) = t - 1 := by omega
        simp [PdmTop.sData, controlAt, PdmControl.reset, now, PdmMode.bitOf, PdmMode.sent,
          PdmMode.channels, dataAt.1 now, channel, place]
      · have channel : (t - 1) % 4 = 1 := by omega
        have place : 4 * ((t - 1) / 4) = t - 2 := by omega
        simp [PdmTop.sData, controlAt, PdmControl.reset, now, PdmMode.bitOf, PdmMode.sent,
          PdmMode.channels, dataAt.2.1 now, channel, place]
      · have channel : (t - 1) % 4 = 2 := by omega
        have place : 4 * ((t - 1) / 4) + 2 = t - 1 := by omega
        simp [PdmTop.sData, controlAt, PdmControl.reset, now, PdmMode.bitOf, PdmMode.sent,
          PdmMode.channels, dataAt.2.2.1 now, channel, place]

end Data

end CoreVMcu.I2s
