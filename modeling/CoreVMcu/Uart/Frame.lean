import CoreVMcu.Clocked.Counters
import CoreVMcu.Uart.Tx

/-!
# The frame of a byte

A byte is sent as a frame of units that are on the line for one period each.  The time
of a frame is counted from the cycle in which the byte is taken; the start bit is on
the line for one cycle more than the other units.
-/

namespace CoreVMcu.Uart

open Clocked

/-! ## The frame and its line -/

namespace UartConfig

variable (config : UartConfig)

/-- The number of data bits. -/
def dataBits : Nat := (targetBits config).toNat + 1

/-- The cycles of a unit. -/
def period : Nat := config.div.toNat + 1

/-- The units before the stop bits: the start bit, the data bits and the parity bit. -/
def unitsBeforeStop : Nat := 1 + config.dataBits + config.parityEn.toNat

/-- The units of a frame. -/
def units : Nat := config.unitsBeforeStop + 1 + config.stopBits.toNat

theorem dataBits_le : config.dataBits ≤ 8 := (targetBits config).isLt

theorem dataBits_pos : 0 < config.dataBits := Nat.succ_pos _

theorem period_pos : 0 < config.period := Nat.succ_pos _

end UartConfig

/-- The parity of the lowest bits of a byte. -/
def parityUpTo (byte : BitVec 8) : Nat → Bool
  | 0 => false
  | count + 1 => parityUpTo byte count ^^ byte.getLsbD count

/-- The level of the line during a unit of a frame. -/
def frameBit (config : UartConfig) (byte : BitVec 8) (unit : Nat) : Bool :=
  if unit = 0 then false
  else if unit ≤ config.dataBits then byte.getLsbD (unit - 1)
  else if unit < config.unitsBeforeStop then parityUpTo byte config.dataBits
  else true

/-- The level of the line at a time of a frame; it is high before the frame. -/
def frameLine (config : UartConfig) (byte : BitVec 8) (time : Nat) : Bool :=
  if time = 0 then true else frameBit config byte ((time - 2) / config.period)

section Line

variable {config : UartConfig} {byte : BitVec 8} {unit phase : Nat}

@[simp] theorem frameLine_zero : frameLine config byte 0 = true := rfl

@[simp] theorem frameLine_one : frameLine config byte 1 = false := by
  rw [frameLine, if_neg (by decide), Nat.zero_div]
  rfl

theorem frameLine_unit (inUnit : phase < config.period) :
    frameLine config byte (2 + unit * config.period + phase) = frameBit config byte unit := by
  have quotient : (2 + unit * config.period + phase - 2) / config.period = unit := by
    rw [Nat.add_assoc, Nat.add_sub_cancel_left, Nat.mul_comm,
      Nat.mul_add_div config.period_pos, Nat.div_eq_of_lt inUnit, Nat.add_zero]
  rw [frameLine, if_neg (by omega), quotient]

/-- From the stop bits on the line is high. -/
theorem frameLine_stop {time : Nat} (stop : 2 + config.unitsBeforeStop * config.period ≤ time) :
    frameLine config byte time = true := by
  have later : config.unitsBeforeStop ≤ (time - 2) / config.period := by
    rw [Nat.le_div_iff_mul_le config.period_pos]
    omega
  have dataBefore : config.dataBits < config.unitsBeforeStop := by
    unfold UartConfig.unitsBeforeStop
    omega
  rw [frameLine, if_neg (by omega), frameBit, if_neg (by omega), if_neg (by omega),
    if_neg (by omega)]

end Line

/-! ## The counter of cycles -/

/-- The counter of cycles and its flag at a phase of a unit. -/
structure BaudAt (config : UartConfig) (phase : Nat) (baudCnt : BitVec 16) (bitDone : Bool) :
    Prop where
  inUnit : phase < config.period
  count : baudCnt.toNat = if phase + 1 = config.period then 0 else phase + 1
  done : bitDone = decide (phase + 1 = config.period)

/-- The phase after a cycle. -/
def nextPhase (config : UartConfig) (phase : Nat) : Nat :=
  if phase + 1 = config.period then 0 else phase + 1

section Baud

variable {config : UartConfig} {phase : Nat} {baudCnt : BitVec 16} {bitDone : Bool}

theorem BaudAt.done_inside (baud : BaudAt config phase baudCnt bitDone)
    (inside : phase + 1 < config.period) : bitDone = false := by
  rw [baud.done]
  exact decide_eq_false (Nat.ne_of_lt inside)

theorem BaudAt.done_end (baud : BaudAt config phase baudCnt bitDone)
    (ends : phase + 1 = config.period) : bitDone = true := by
  rw [baud.done]
  exact decide_eq_true ends

/-- A counter that is compared with the divider counts the phases of a unit. -/
theorem BaudAt.next (divides : 1 ≤ config.div.toNat) (baud : BaudAt config phase baudCnt bitDone) :
    BaudAt config (nextPhase config phase)
      (if baudCnt == config.div then 0 else baudCnt + 1) (baudCnt == config.div) := by
  obtain ⟨inUnit, count, _⟩ := baud
  have period : config.period = config.div.toNat + 1 := rfl
  have wraps : (baudCnt == config.div) = decide (baudCnt.toNat = config.div.toNat) := by
    rw [Bool.eq_iff_iff, beq_iff_eq, decide_eq_true_iff, BitVec.toNat_inj]
  rw [wraps]
  unfold nextPhase
  by_cases ends : phase + 1 = config.period
  · rw [if_pos ends] at count ⊢
    have notWraps : ¬baudCnt.toNat = config.div.toNat := by omega
    rw [decide_eq_false notWraps, if_neg Bool.false_ne_true]
    refine ⟨by omega, ?_, ?_⟩
    · rw [toNat_succ_of_lt config.div (by omega), count, if_neg (by omega)]
    · exact (decide_eq_false (by omega)).symm
  · rw [if_neg ends] at count ⊢
    by_cases last : phase + 2 = config.period
    · rw [decide_eq_true (by omega), if_pos rfl]
      exact ⟨by omega, (if_pos last).symm, (decide_eq_true last).symm⟩
    · rw [decide_eq_false (by omega), if_neg Bool.false_ne_true]
      refine ⟨by omega, ?_, (decide_eq_false last).symm⟩
      rw [toNat_succ_of_lt config.div (by omega), count]
      exact (if_neg last).symm

end Baud

end CoreVMcu.Uart
