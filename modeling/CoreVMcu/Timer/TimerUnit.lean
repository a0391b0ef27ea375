import Mathlib.Algebra.Group.Nat.Defs
import Mathlib.Data.BitVec
import CoreVMcu.Clocked.Machine

/-!
# The APB timer unit

`apb_timer_unit` has two 32-bit counters with a prescaler each.  They count cycles of
the bus clock or edges of the reference clock, separately or, in the 64-bit mode, as
the halves of one counter.
-/

namespace CoreVMcu.Timer

open Clocked

/-! ## Counters -/

/-- Registers of `timer_unit_counter`. -/
structure UnitCounter where
  count : BitVec 32
  targetReached : Bool
  targetGreater : Bool
  deriving DecidableEq, Repr

/-- Inputs of a counter. -/
structure CounterInput where
  write : Bool
  value : BitVec 32
  reset : Bool
  enable : Bool
  compare : BitVec 32

namespace UnitCounter

/-- `s_count`. -/
def next (counter : UnitCounter) (input : CounterInput) : BitVec 32 :=
  if input.reset then 0
  else if input.write then input.value
  else if input.enable then counter.count + 1
  else counter.count

/-- One clock edge. -/
def step (counter : UnitCounter) (input : CounterInput) : UnitCounter :=
  { count := counter.next input
    targetReached := counter.next input == input.compare
    targetGreater := input.compare < counter.next input }

end UnitCounter

/-- Registers of `timer_unit_counter_presc`. -/
structure PrescalerCounter where
  count : BitVec 32
  targetReached : Bool
  deriving DecidableEq, Repr

namespace PrescalerCounter

/-- `s_count`: the prescaler starts again when it has reached its target. -/
def next (counter : PrescalerCounter) (input : CounterInput) : BitVec 32 :=
  if input.reset || counter.targetReached then 0
  else if input.write then input.value
  else if input.enable then counter.count + 1
  else counter.count

/-- One clock edge. -/
def step (counter : PrescalerCounter) (input : CounterInput) : PrescalerCounter :=
  { count := counter.next input, targetReached := counter.next input == input.compare }

end PrescalerCounter

/-! ## Registers -/

/-- Bits of a configuration register. -/
def enableBit : Nat := 0
def resetBit : Nat := 1
def irqBit : Nat := 2
def iemBit : Nat := 3
def cmpClrBit : Nat := 4
def oneShotBit : Nat := 5
def prescalerEnBit : Nat := 6
def refClkEnBit : Nat := 7
def modeMtimeBit : Nat := 30
def mode64Bit : Nat := 31

/-- A register with one of its bits written. -/
def writeBit (register : BitVec 32) (bit : Nat) (value : Bool) : BitVec 32 :=
  if value then register ||| 1#32 <<< bit else register &&& ~~~(1#32 <<< bit)

/-- Registers of `apb_timer_unit`. -/
structure TimerUnit where
  cfgLo : BitVec 32
  cfgHi : BitVec 32
  cmpLo : BitVec 32
  cmpHi : BitVec 32
  refClk0 : Bool
  refClk1 : Bool
  refClk2 : Bool
  refClk3 : Bool
  prescalerLo : PrescalerCounter
  prescalerHi : PrescalerCounter
  counterLo : UnitCounter
  counterHi : UnitCounter
  deriving DecidableEq, Repr

/-- Inputs of a cycle; `paddr` is `PADDR[5:0]`. -/
structure TimerInput where
  psel : Bool
  penable : Bool
  pwrite : Bool
  paddr : BitVec 6
  pwdata : BitVec 32
  refClk : Bool
  stoptimer : Bool
  eventLo : Bool
  eventHi : Bool

/-- A register that can be written. -/
inductive WriteAddr where
  | cfgLo
  | cfgHi
  | valLo
  | valHi
  | cmpLo
  | cmpHi
  | startLo
  | startHi
  | resetLo
  | resetHi
  deriving DecidableEq, Repr

/-- The register that a bus access addresses. -/
def decodeAddr (paddr : BitVec 6) : Option WriteAddr :=
  match paddr.toNat with
  | 0x0 => some .cfgLo
  | 0x4 => some .cfgHi
  | 0x8 => some .valLo
  | 0xC => some .valHi
  | 0x10 => some .cmpLo
  | 0x14 => some .cmpHi
  | 0x18 => some .startLo
  | 0x1C => some .startHi
  | 0x20 => some .resetLo
  | 0x24 => some .resetHi
  | _ => none

namespace TimerInput

variable (input : TimerInput)

/-- A register is written. -/
def writes : Bool := input.psel && input.penable && input.pwrite

/-- The given register is written. -/
def writesTo (addr : WriteAddr) : Bool := input.writes && decodeAddr input.paddr == some addr

end TimerInput

namespace TimerUnit

variable (timer : TimerUnit) (input : TimerInput)

/-- The registers after reset. -/
def reset : TimerUnit :=
  { cfgLo := 0, cfgHi := 0, cmpLo := 0, cmpHi := 0
    refClk0 := false, refClk1 := false, refClk2 := false, refClk3 := false
    prescalerLo := { count := 0, targetReached := false }
    prescalerHi := { count := 0, targetReached := false }
    counterLo := { count := 0, targetReached := false, targetGreater := false }
    counterHi := { count := 0, targetReached := false, targetGreater := false } }

/-- `s_cfg_lo_reg[MODE_64_BIT]`. -/
def mode64 : Bool := timer.cfgLo.getLsbD mode64Bit

/-- Both halves have reached their targets. -/
def bothReached : Bool := timer.counterLo.targetReached && timer.counterHi.targetReached

/-- `s_ref_clk_edge`. -/
def refClkEdge : Bool := timer.refClk1 && !timer.refClk2 && !input.stoptimer

/-- `s_ref_clk_edge_del`. -/
def refClkEdgeDel : Bool := timer.refClk2 && !timer.refClk3 && !input.stoptimer

/-- What the enable logic drives. -/
structure Enables where
  countLo : Bool
  countHi : Bool
  prescalerLo : Bool
  prescalerHi : Bool

/-- The enables of a counter of its own and of its prescaler. -/
def enable32 (cfg : BitVec 32) (prescaler : PrescalerCounter) : Bool × Bool :=
  if cfg.getLsbD enableBit then
    if !cfg.getLsbD prescalerEnBit && !cfg.getLsbD refClkEnBit then (!input.stoptimer, false)
    else if !cfg.getLsbD prescalerEnBit && cfg.getLsbD refClkEnBit then
      (timer.refClkEdge input && !input.stoptimer, false)
    else if cfg.getLsbD prescalerEnBit && cfg.getLsbD refClkEnBit then
      (prescaler.targetReached && !input.stoptimer, timer.refClkEdge input && !input.stoptimer)
    else (prescaler.targetReached && !input.stoptimer, !input.stoptimer)
  else (false, false)

/-- The low half is about to overflow. -/
def loAllOnes : Bool := timer.counterLo.count == 0xFFFFFFFF

/-- The enables in the 64-bit mode. -/
def enables64 : Enables :=
  let off : Enables :=
    { countLo := false, countHi := false, prescalerLo := false, prescalerHi := false }
  let prescaled := timer.prescalerLo.targetReached
  if timer.cfgLo.getLsbD enableBit then
    if !timer.cfgLo.getLsbD prescalerEnBit && !timer.cfgLo.getLsbD refClkEnBit then
      { off with countLo := !input.stoptimer, countHi := timer.loAllOnes && !input.stoptimer }
    else if !timer.cfgLo.getLsbD prescalerEnBit && timer.cfgLo.getLsbD refClkEnBit then
      { off with
        countLo := timer.refClkEdge input && !input.stoptimer
        countHi := timer.refClkEdgeDel input && timer.loAllOnes && !input.stoptimer }
    else if timer.cfgLo.getLsbD prescalerEnBit && timer.cfgLo.getLsbD refClkEnBit then
      { off with
        prescalerLo := timer.refClkEdge input && !input.stoptimer
        countLo := prescaled && !input.stoptimer
        countHi :=
          prescaled && timer.refClkEdgeDel input && timer.loAllOnes && !input.stoptimer }
    else
      { off with
        prescalerLo := !input.stoptimer
        countLo := prescaled && !input.stoptimer
        countHi := prescaled && timer.loAllOnes && !input.stoptimer }
  else off

/-- `s_enable_count_lo`, `s_enable_count_hi` and those of the prescalers. -/
def enables : Enables :=
  if timer.mode64 then timer.enables64 input
  else
    let lo := timer.enable32 input timer.cfgLo timer.prescalerLo
    let hi := timer.enable32 input timer.cfgHi timer.prescalerHi
    { countLo := lo.1, countHi := hi.1, prescalerLo := lo.2, prescalerHi := hi.2 }

/-- The low half is reset by software. -/
def softResetLo : Bool := timer.cfgLo.getLsbD resetBit || input.writesTo .resetLo

/-- The high half is reset by software. -/
def softResetHi : Bool := timer.cfgHi.getLsbD resetBit || input.writesTo .resetHi

/-- `s_reset_count_lo`. -/
def resetCountLo : Bool :=
  timer.softResetLo input ||
    timer.cfgLo.getLsbD cmpClrBit &&
      if timer.mode64 then timer.bothReached else timer.counterLo.targetReached

/-- `s_reset_count_hi`. -/
def resetCountHi : Bool :=
  timer.softResetHi input ||
    if timer.mode64 then timer.cfgLo.getLsbD cmpClrBit && timer.bothReached
    else timer.cfgHi.getLsbD cmpClrBit && timer.counterHi.targetReached

/-- `s_reset_count_prescaler_lo`. -/
def resetPrescalerLo : Bool :=
  timer.softResetLo input || timer.cfgLo.getLsbD prescalerEnBit && timer.prescalerLo.targetReached

/-- `s_reset_count_prescaler_hi`. -/
def resetPrescalerHi : Bool :=
  timer.softResetHi input || timer.cfgHi.getLsbD prescalerEnBit && timer.prescalerHi.targetReached

/-- `s_cfg_lo`. -/
def cfgLoNext : BitVec 32 :=
  let written := if input.writesTo .cfgLo then input.pwdata else timer.cfgLo
  let reached := if timer.mode64 then timer.bothReached else timer.counterLo.targetReached
  let enabled :=
    if input.eventLo && written.getLsbD iemBit || input.writesTo .startLo then
      writeBit written enableBit true
    else if written.getLsbD oneShotBit && reached then writeBit written enableBit false
    else written
  if timer.resetCountLo input then writeBit enabled resetBit false else enabled

/-- `s_cfg_hi`. -/
def cfgHiNext : BitVec 32 :=
  let written := if input.writesTo .cfgHi then input.pwdata else timer.cfgHi
  let enabled :=
    if !timer.mode64 && (input.eventHi && written.getLsbD iemBit || input.writesTo .startHi) then
      writeBit written enableBit true
    else if !timer.mode64 && written.getLsbD oneShotBit && timer.counterHi.targetReached then
      writeBit written enableBit false
    else if (timer.cfgLoNext input).getLsbD oneShotBit && timer.bothReached then
      writeBit written enableBit false
    else written
  if timer.resetCountHi input then writeBit enabled resetBit false else enabled

/-- The target of a prescaler. -/
def prescalerTarget (cfg : BitVec 32) : BitVec 32 := (cfg.extractLsb' 8 8).setWidth 32

/-- One clock edge. -/
def step : TimerUnit :=
  let enables := timer.enables input
  { cfgLo := timer.cfgLoNext input
    cfgHi := timer.cfgHiNext input
    cmpLo := if input.writesTo .cmpLo then input.pwdata else timer.cmpLo
    cmpHi := if input.writesTo .cmpHi then input.pwdata else timer.cmpHi
    refClk0 := input.refClk
    refClk1 := timer.refClk0
    refClk2 := timer.refClk1
    refClk3 := timer.refClk2
    prescalerLo :=
      timer.prescalerLo.step
        { write := false, value := 0, reset := timer.resetPrescalerLo input
          enable := enables.prescalerLo, compare := prescalerTarget timer.cfgLo }
    prescalerHi :=
      timer.prescalerHi.step
        { write := false, value := 0, reset := timer.resetPrescalerHi input
          enable := enables.prescalerHi, compare := prescalerTarget timer.cfgHi }
    counterLo :=
      timer.counterLo.step
        { write := input.writesTo .valLo, value := input.pwdata, reset := timer.resetCountLo input
          enable := enables.countLo, compare := timer.cmpLo }
    counterHi :=
      timer.counterHi.step
        { write := input.writesTo .valHi, value := input.pwdata, reset := timer.resetCountHi input
          enable := enables.countHi, compare := timer.cmpHi } }

/-- `PRDATA`. -/
def prdata : BitVec 32 :=
  if input.psel && input.penable && !input.pwrite then
    match decodeAddr input.paddr with
    | some .cfgLo => timer.cfgLo
    | some .cfgHi => timer.cfgHi
    | some .valLo => timer.counterLo.count
    | some .valHi => timer.counterHi.count
    | some .cmpLo => timer.cmpLo
    | some .cmpHi => timer.cmpHi
    | _ => 0
  else 0

/-- `irq_lo_o`. -/
def irqLo : Bool :=
  if !timer.mode64 then timer.counterLo.targetReached && timer.cfgLo.getLsbD irqBit
  else if !timer.cfgLo.getLsbD modeMtimeBit then timer.bothReached && timer.cfgLo.getLsbD irqBit
  else
    timer.counterHi.targetReached &&
        (timer.counterLo.targetGreater || timer.counterLo.targetReached) ||
      timer.counterHi.targetGreater

/-- `irq_hi_o`. -/
def irqHi : Bool :=
  !timer.mode64 && (timer.counterHi.targetReached && timer.cfgHi.getLsbD irqBit)

/-- `busy_o`. -/
def busy : Bool := timer.cfgHi.getLsbD enableBit || timer.cfgLo.getLsbD enableBit

end TimerUnit

/-- The timer unit from reset. -/
def timerMachine : Machine TimerUnit TimerInput where
  init := .reset
  step := TimerUnit.step

end CoreVMcu.Timer
