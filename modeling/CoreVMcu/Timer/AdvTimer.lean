import Mathlib.Data.BitVec
import CoreVMcu.Clocked.Machine

/-!
# A timer of the advanced timer unit

`timer_module` of `apb_adv_timer` without its comparators, which only drive the
outputs: the controller, the input stage, the prescaler and the up/down counter.
-/

namespace CoreVMcu.Timer

open Clocked

/-- Inputs of a cycle: the commands, the configuration registers, the low-speed clock
and the signals to count. -/
structure AdvTimerInput (numBits nExtSig : Nat) where
  cfgStart : Bool
  cfgStop : Bool
  cfgRst : Bool
  cfgUpdate : Bool
  cfgArm : Bool
  cfgSel : BitVec 8
  cfgSelClk : Bool
  cfgMode : BitVec 3
  cfgPresc : BitVec 8
  cfgSawtooth : Bool
  cfgCntStart : BitVec numBits
  cfgCntEnd : BitVec numBits
  lsClk : Bool
  signal : BitVec nExtSig

variable {numBits nExtSig : Nat}

/-- Registers of `timer_cntrl`. -/
structure TimerCntrl where
  active : Bool
  pending : Bool
  deriving DecidableEq, Repr

namespace TimerCntrl

variable (ctrl : TimerCntrl) (input : AdvTimerInput numBits nExtSig)

/-- The timer is started. -/
def starts : Bool := input.cfgStart && !ctrl.active

/-- `ctrl_rst_o`. -/
def rst : Bool := if ctrl.starts input then true else input.cfgRst

/-- `ctrl_cnt_upd_o`. -/
def cntUpd : Bool := if ctrl.starts input then true else input.cfgUpdate

/-- `ctrl_all_upd_o`. -/
def allUpd (cntUpdate : Bool) : Bool := if ctrl.starts input then true else cntUpdate

/-- One clock edge. -/
def step (cntUpdate : Bool) : TimerCntrl where
  active := if input.cfgStart then true else if input.cfgStop then false else ctrl.active
  pending :=
    if cntUpdate && !input.cfgUpdate then false
    else if input.cfgUpdate then true
    else ctrl.pending

end TimerCntrl

/-- Registers of `input_stage`; `lsClkSync0` is `r_ls_clk_sync[0]`. -/
structure InputStage where
  lsClkSync0 : Bool
  lsClkSync1 : Bool
  lsClkSync2 : Bool
  mode : BitVec 3
  sel : BitVec 8
  event : Bool
  armed : Bool
  oldval : Bool
  deriving DecidableEq, Repr

namespace InputStage

variable (stage : InputStage) (input : AdvTimerInput numBits nExtSig)

/-- `s_int_sig`. -/
def intSig : Bool := input.signal.getLsbD stage.sel.toNat

/-- `s_rise`. -/
def rise : Bool := !stage.oldval && stage.intSig input

/-- `s_fall`. -/
def fall : Bool := stage.oldval && !stage.intSig input

/-- `s_rise_ls_clk`. -/
def riseLsClk : Bool := !stage.lsClkSync2 && stage.lsClkSync1

/-- `s_int_evnt`. -/
def intEvnt : Bool :=
  match stage.mode.toNat with
  | 0 => true
  | 1 => !stage.intSig input
  | 2 => stage.intSig input
  | 3 => stage.rise input
  | 4 => stage.fall input
  | 5 => stage.rise input || stage.fall input
  | 6 => stage.armed && (stage.rise input || stage.event)
  | _ => stage.armed && (stage.fall input || stage.event)

/-- `event_o`. -/
def eventO : Bool :=
  if input.cfgSelClk then stage.intEvnt input && stage.riseLsClk else stage.intEvnt input

/-- One clock edge. -/
def step (update active cntEnd : Bool) : InputStage where
  lsClkSync0 := input.lsClk
  lsClkSync1 := stage.lsClkSync0
  lsClkSync2 := stage.lsClkSync1
  mode := if update then input.cfgMode else stage.mode
  sel := if update then input.cfgSel else stage.sel
  event := if stage.armed then stage.intEvnt input else if cntEnd then false else stage.event
  armed := if input.cfgArm then true else if cntEnd then false else stage.armed
  oldval :=
    if active then
      if !input.cfgSelClk || input.cfgSelClk && stage.riseLsClk then stage.intSig input
      else stage.oldval
    else stage.oldval

end InputStage

/-! ## Prescaler -/

/-- Registers of `prescaler`; `event` is `event_o`. -/
structure Prescaler where
  presc : BitVec 8
  counter : BitVec 8
  event : Bool
  deriving DecidableEq, Repr

namespace Prescaler

variable (prescaler : Prescaler)

/-- One clock edge. -/
def step (cfgPresc : BitVec 8) (update rst active event : Bool) : Prescaler :=
  let presc := if update then cfgPresc else prescaler.presc
  if rst then { presc := presc, counter := 0, event := false }
  else if active then
    if event then
      if prescaler.presc == 0 then { presc := presc, counter := prescaler.counter, event := true }
      else if prescaler.counter == prescaler.presc then
        { presc := presc, counter := 0, event := true }
      else { presc := presc, counter := prescaler.counter + 1, event := false }
    else { presc := presc, counter := prescaler.counter, event := false }
  else { presc := presc, counter := 0, event := false }

theorem step_presc (cfgPresc : BitVec 8) (update rst active event : Bool) :
    (prescaler.step cfgPresc update rst active event).presc =
      if update then cfgPresc else prescaler.presc := by
  rw [step]
  cases rst with
  | true => rfl
  | false =>
      cases active with
      | false => rfl
      | true =>
          cases event with
          | false => rfl
          | true =>
              rw [if_neg Bool.false_ne_true, if_pos rfl, if_pos rfl]
              split
              · rfl
              · split <;> rfl

end Prescaler

/-- Registers of `up_down_counter`. -/
structure UpDownCounter (numBits : Nat) where
  counter : BitVec numBits
  start : BitVec numBits
  finish : BitVec numBits
  direction : Bool
  sawtooth : Bool
  event : Bool
  pendingUpdate : Bool
  deriving DecidableEq, Repr

/-- Inputs of the counter. -/
structure UpDownInput (numBits : Nat) where
  cfgSawtooth : Bool
  cfgStart : BitVec numBits
  cfgEnd : BitVec numBits
  update : Bool
  rst : Bool
  active : Bool
  event : Bool

namespace UpDownCounter

variable (counter : UpDownCounter numBits) (input : UpDownInput numBits)

/-- `s_is_update`.  The literal of `r_start-1` makes the comparison one of at least
32 bits. -/
def isUpdate : Bool :=
  if counter.sawtooth then counter.counter == counter.finish
  else
    counter.direction &&
      counter.counter.setWidth (max numBits 32) ==
        counter.start.setWidth (max numBits 32) - BitVec.ofNat (max numBits 32) 1

/-- `counter_evt_o`. -/
def evtO (active : Bool) : Bool := active && counter.event

/-- `counter_end_o`. -/
def endO (active : Bool) : Bool := active && counter.event && counter.isUpdate

/-- `s_pending_update` and `s_do_update`. -/
def updates : Bool × Bool :=
  if input.update || counter.pendingUpdate then
    if input.update && !input.active then (false, true)
    else if counter.isUpdate then (false, input.event)
    else (true, false)
  else if input.rst then (false, true)
  else (counter.pendingUpdate, false)

/-- `s_do_update`. -/
def doUpdate : Bool := (counter.updates input).2

/-- `s_counter` and `s_direction` of an event. -/
def counted : BitVec numBits × Bool :=
  if !counter.direction && counter.counter == counter.finish then
    if counter.sawtooth then (counter.start, false)
    else (counter.counter - BitVec.ofNat numBits 1, true)
  else if counter.direction && counter.counter == counter.start then
    (counter.counter + BitVec.ofNat numBits 1, false)
  else if counter.direction then
    (counter.counter - BitVec.ofNat numBits 1, counter.direction)
  else (counter.counter + BitVec.ofNat numBits 1, counter.direction)

/-- One clock edge. -/
def step : UpDownCounter numBits :=
  let kept : UpDownCounter numBits :=
    { counter with
      event := if input.active then input.event else counter.event
      pendingUpdate := (counter.updates input).1 }
  if counter.doUpdate input then
    { kept with
      counter := input.cfgStart, start := input.cfgStart, finish := input.cfgEnd
      sawtooth := input.cfgSawtooth, direction := false }
  else if input.event && input.active then
    { kept with counter := counter.counted.1, direction := counter.counted.2 }
  else kept

end UpDownCounter

/-! ## The timer -/

/-- Registers of a timer. -/
structure AdvTimer (numBits : Nat) where
  ctrl : TimerCntrl
  stage : InputStage
  prescaler : Prescaler
  counter : UpDownCounter numBits
  deriving DecidableEq, Repr

namespace AdvTimer

/-- The registers after reset. -/
def reset : AdvTimer numBits where
  ctrl := { active := false, pending := false }
  stage :=
    { lsClkSync0 := false, lsClkSync1 := false, lsClkSync2 := false, mode := 0, sel := 0
      event := false, armed := false, oldval := false }
  prescaler := { presc := 0, counter := 0, event := false }
  counter :=
    { counter := 0, start := 0, finish := 0, direction := false, sawtooth := true
      event := false, pendingUpdate := false }

variable (timer : AdvTimer numBits) (input : AdvTimerInput numBits nExtSig)

/-- What the counter gets. -/
def counterInput : UpDownInput numBits where
  cfgSawtooth := input.cfgSawtooth
  cfgStart := input.cfgCntStart
  cfgEnd := input.cfgCntEnd
  update := timer.ctrl.cntUpd input
  rst := timer.ctrl.rst input
  active := timer.ctrl.active
  event := timer.prescaler.event

/-- One clock edge. -/
def step : AdvTimer numBits :=
  let active := timer.ctrl.active
  let cntEvt := timer.counter.evtO active
  let allUpd := timer.ctrl.allUpd input cntEvt
  { ctrl := timer.ctrl.step input cntEvt
    stage := timer.stage.step input allUpd active (timer.counter.endO active)
    prescaler :=
      timer.prescaler.step input.cfgPresc allUpd (timer.ctrl.rst input) active
        (timer.stage.eventO input)
    counter := timer.counter.step (timer.counterInput input) }

end AdvTimer

end CoreVMcu.Timer
