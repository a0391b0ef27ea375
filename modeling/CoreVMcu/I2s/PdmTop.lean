import CoreVMcu.Clocked.Machine
import CoreVMcu.I2s.Varcic

/-!
# The PDM front end

`pdm_top` stores the bits of one or two pins at the edges of the clock it generates and sends
the bits of its channels in turn to the decimation filter.
-/

namespace CoreVMcu.I2s

open Clocked

/-! ## The design -/

/-- `cfg_pdm_ch_mode_i`. -/
inductive PdmMode where
  | oneCh | twoChRf | twoChSep | fourCh
  deriving DecidableEq, Repr

namespace PdmMode

/-- The number of channels. -/
def channels : PdmMode → Nat
  | .oneCh => 1
  | .twoChRf | .twoChSep => 2
  | .fourCh => 4

/-- `s_ch_target`. -/
def chTarget : PdmMode → BitVec 2
  | .oneCh => 0
  | .twoChRf | .twoChSep => 1
  | .fourCh => 3

end PdmMode

/-- The registers that say which pin is stored and which channel is sent. -/
structure PdmControl where
  rStoreCh0 : Bool
  rStoreCh1 : Bool
  rStoreCh2 : Bool
  rSendCh0 : Bool
  rSendCh1 : Bool
  rSendCh2 : Bool
  rSendCh3 : Bool
  rClk : Bool
  rClkDly : Bool
  deriving DecidableEq, Repr

namespace PdmControl

variable (control : PdmControl)

/-- The registers after a reset and while the front end is disabled. -/
def reset : PdmControl :=
  { rStoreCh0 := true, rStoreCh1 := false, rStoreCh2 := false, rSendCh0 := false
    rSendCh1 := false, rSendCh2 := false, rSendCh3 := false, rClk := false, rClkDly := false }

/-- The registers after a cycle in which the front end is enabled. -/
def next : PdmMode → PdmControl
  | .oneCh =>
      { control with
        rStoreCh0 := !control.rStoreCh0, rSendCh0 := !control.rSendCh0, rClk := !control.rClk }
  | .twoChRf =>
      { control with
        rStoreCh0 := !control.rStoreCh0, rSendCh0 := !control.rSendCh0
        rStoreCh1 := !control.rStoreCh1, rSendCh1 := control.rSendCh0, rClk := !control.rClk }
  | .twoChSep =>
      { control with
        rStoreCh0 := !control.rStoreCh0, rSendCh0 := !control.rSendCh0
        rSendCh1 := control.rSendCh0, rClk := !control.rClk }
  | .fourCh =>
      { control with
        rStoreCh0 := control.rClkDly && !control.rClk
        rStoreCh2 := !control.rClkDly && control.rClk
        rSendCh0 := control.rStoreCh0, rSendCh1 := control.rSendCh0
        rSendCh2 := control.rSendCh1, rSendCh3 := control.rSendCh2
        rClk := !control.rClkDly, rClkDly := control.rClk }

end PdmControl

/-- The bits that are stored for the channels. -/
structure PdmData where
  rDataCh0 : Bool
  rDataCh1 : Bool
  rDataCh2 : Bool
  rDataCh3 : Bool
  deriving DecidableEq, Repr

/-- The bits after a cycle in which the front end is enabled. -/
def PdmData.next (data : PdmData) (control : PdmControl) (pdmCh0 pdmCh1 : Bool) :
    PdmMode → PdmData
  | .oneCh => { data with rDataCh0 := if control.rStoreCh0 then pdmCh0 else data.rDataCh0 }
  | .twoChRf =>
      { data with
        rDataCh0 := if control.rStoreCh0 then pdmCh0 else data.rDataCh0
        rDataCh1 := if control.rStoreCh1 then pdmCh0 else data.rDataCh1 }
  | .twoChSep =>
      { data with
        rDataCh0 := if control.rStoreCh0 then pdmCh0 else data.rDataCh0
        rDataCh1 := if control.rStoreCh0 then pdmCh1 else data.rDataCh1 }
  | .fourCh =>
      { rDataCh0 := if control.rStoreCh0 then pdmCh0 else data.rDataCh0
        rDataCh1 := if control.rStoreCh0 then pdmCh1 else data.rDataCh1
        rDataCh2 := if control.rStoreCh2 then pdmCh0 else data.rDataCh2
        rDataCh3 := if control.rStoreCh2 then pdmCh1 else data.rDataCh3 }

structure PdmTop where
  control : PdmControl
  data : PdmData
  cic : Varcic 5 51

/-- The configuration of a PDM channel. -/
structure PdmCfg where
  chMode : PdmMode
  decimation : BitVec 10
  shift : BitVec 3

structure PdmInput where
  cfg : PdmCfg
  en : Bool
  pdmCh0 : Bool
  pdmCh1 : Bool

namespace PdmTop

def reset : PdmTop where
  control := .reset
  data := { rDataCh0 := false, rDataCh1 := false, rDataCh2 := false, rDataCh3 := false }
  cic := .reset

variable (pdm : PdmTop) (input : PdmInput)

/-- `s_data`. -/
def sData : Bool :=
  if pdm.control.rSendCh0 then pdm.data.rDataCh0
  else if pdm.control.rSendCh1 then pdm.data.rDataCh1
  else if pdm.control.rSendCh2 then pdm.data.rDataCh2
  else pdm.data.rDataCh3

/-- `s_data_valid`. -/
def sDataValid : Bool :=
  pdm.control.rSendCh0 || pdm.control.rSendCh1 || pdm.control.rSendCh2 || pdm.control.rSendCh3

/-- The inputs of `i_varcic`. -/
def cicInput : VarcicInput :=
  { cfgEn := input.en, cfgChNum := input.cfg.chMode.chTarget
    cfgDecimation := input.cfg.decimation, cfgShift := input.cfg.shift
    data := pdm.sData, dataValid := pdm.sDataValid }

/-- `pcm_data_valid_o`. -/
def pcmDataValid : Bool := pdm.cic.dataValidO (pdm.cicInput input)

/-- The accumulator of which `pcm_data_o` is a part. -/
def accumulator : BitVec 51 := pdm.cic.combData (pdm.cicInput input) (Fin.last 5)

def step : PdmTop where
  control := if input.en then pdm.control.next input.cfg.chMode else .reset
  data :=
    if input.en then pdm.data.next pdm.control input.pdmCh0 input.pdmCh1 input.cfg.chMode
    else pdm.data
  cic := pdm.cic.step (pdm.cicInput input)

/-- The accumulator behind the output of a cycle. -/
def output : List (BitVec 51) :=
  if pdm.pcmDataValid input then [pdm.accumulator input] else []

end PdmTop

/-- `pdm_top` from reset. -/
def pdmMachine : Machine PdmTop PdmInput where
  init := .reset
  step := PdmTop.step

end CoreVMcu.I2s
