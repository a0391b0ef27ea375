import CoreVMcu.Timer.AdvTimer

/-!
# The comparators of the advanced timer

`timer_module` with its four comparators.  Each drives one output from a threshold and an
operation of which it keeps a copy of its own.
-/

namespace CoreVMcu.Timer

open Clocked

variable {numBits nExtSig : Nat}

/-- The configuration of a comparator: `cfg_comp_i` and `cfg_comp_op_i`. -/
@[ext] structure CompCfg (numBits : Nat) where
  comp : BitVec numBits
  compOp : BitVec 3
  deriving DecidableEq, Repr

/-- Registers of `comparator`; `cfg` is `r_comp` and `r_comp_op`. -/
structure Comparator (numBits : Nat) where
  cfg : CompCfg numBits
  value : Bool
  is2ndEvent : Bool
  deriving DecidableEq, Repr

/-- Inputs of a comparator. -/
structure ComparatorInput (numBits : Nat) where
  active : Bool
  update : Bool
  rst : Bool
  cfg : CompCfg numBits
  timerEnd : Bool
  timerValid : Bool
  timerSawtooth : Bool
  timerCount : BitVec numBits

namespace Comparator

variable (comparator : Comparator numBits) (input : ComparatorInput numBits)

/-- `s_match`. -/
def isMatch : Bool := input.timerValid && comparator.cfg.comp == input.timerCount

/-- `s_2nd_event`. -/
def secondEvent : Bool :=
  if input.timerSawtooth then input.timerEnd else comparator.isMatch input

/-- `r_value` and `r_is_2nd_event` of an operation with two events: in the sawtooth mode
the second one is the end of the period, in the triangular mode the second match. -/
def paired (first second : Bool) : Bool × Bool :=
  if input.timerSawtooth then
    if comparator.isMatch input then (first, comparator.is2ndEvent)
    else if comparator.secondEvent input then (second, comparator.is2ndEvent)
    else (comparator.value, comparator.is2ndEvent)
  else if comparator.isMatch input && !comparator.is2ndEvent then (first, true)
  else if comparator.isMatch input && comparator.is2ndEvent then (second, false)
  else (comparator.value, comparator.is2ndEvent)

/-- `r_value` and `r_is_2nd_event` of an operation with one event. -/
def single (matched : Bool) : Bool × Bool :=
  (if comparator.isMatch input then matched else comparator.value, comparator.is2ndEvent)

/-- The case statement of `r_comp_op`. -/
def operated : Bool × Bool :=
  match comparator.cfg.compOp.toNat with
  | 0b000 => comparator.single input true -- OP_SET
  | 0b001 => comparator.paired input (!comparator.value) false -- OP_TOGRST
  | 0b010 => comparator.paired input true false -- OP_SETRST
  | 0b011 => comparator.single input (!comparator.value) -- OP_TOG
  | 0b100 => comparator.single input false -- OP_RST
  | 0b101 => comparator.paired input (!comparator.value) true -- OP_TOGSET
  | 0b110 => comparator.paired input false true -- OP_RSTSET
  | _ => (comparator.value, false)

/-- One clock edge. -/
def step : Comparator numBits :=
  let cfg := if input.update then input.cfg else comparator.cfg
  if input.rst then { cfg := cfg, value := false, is2ndEvent := false }
  else if input.timerValid && input.active then
    { cfg := cfg, value := (comparator.operated input).1
      is2ndEvent := (comparator.operated input).2 }
  else { comparator with cfg := cfg }

@[simp] theorem step_cfg {comparator : Comparator numBits} {input : ComparatorInput numBits} :
    (comparator.step input).cfg = if input.update then input.cfg else comparator.cfg := by
  rw [step]
  split
  · rfl
  · split <;> rfl

end Comparator

/-! ## The timer with its outputs -/

/-- Registers of `timer_module`. -/
structure TimerModule (numBits : Nat) where
  timer : AdvTimer numBits
  comps : Fin 4 → Comparator numBits

/-- Inputs of `timer_module`; `comps` are the configurations of the channels. -/
structure ModuleInput (numBits nExtSig : Nat) where
  timer : AdvTimerInput numBits nExtSig
  comps : Fin 4 → CompCfg numBits

namespace TimerModule

variable (timer : TimerModule numBits) (input : ModuleInput numBits nExtSig)

/-- The registers after reset. -/
def reset : TimerModule numBits where
  timer := .reset
  comps := fun _ => { cfg := { comp := 0, compOp := 0 }, value := false, is2ndEvent := false }

/-- `s_cnt_evt`. -/
def cntEvt : Bool := timer.timer.counter.evtO timer.timer.ctrl.active

/-- `s_ctrl_update_all`. -/
def updateAll : Bool := timer.timer.ctrl.allUpd input.timer timer.cntEvt

/-- What a comparator gets. -/
def comparatorInput (channel : Fin 4) : ComparatorInput numBits where
  active := timer.timer.ctrl.active
  update := timer.updateAll input
  rst := timer.timer.ctrl.rst input.timer
  cfg := input.comps channel
  timerEnd := timer.timer.counter.endO timer.timer.ctrl.active
  timerValid := timer.cntEvt
  timerSawtooth := timer.timer.counter.sawtooth
  timerCount := timer.timer.counter.counter

/-- One clock edge. -/
def step : TimerModule numBits where
  timer := timer.timer.step input.timer
  comps := fun channel => (timer.comps channel).step (timer.comparatorInput input channel)

end TimerModule

/-- `timer_module` from reset. -/
def timerModuleMachine (numBits nExtSig : Nat) :
    Machine (TimerModule numBits) (ModuleInput numBits nExtSig) where
  init := .reset
  step := TimerModule.step

end CoreVMcu.Timer
