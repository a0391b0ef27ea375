import CoreVMcu.Clocked.Machine

/-!
# The SoC control registers

`apb_soc_ctrl` answers APB accesses through two independent case statements, one for writes
and one for reads.  The watchdog counts in the domain of the reference clock.
-/

namespace CoreVMcu.Soc

open Clocked

/-! ## The address map -/

/-- `N_IO`. -/
abbrev nIo : Nat := 48

/-- The registers with an address of their own. -/
inductive SocReg where
  | info | fcBoot | fcFetch | buildDate | buildTime
  | wcfgfun | rcfgfun | jtagReg | bootsel | clksel
  | wdCount | wdControl | resetReason | rtoPeripheral | rtoCount
  | resetType1Efpga | enableInOutEfpga | efpgaControl | efpgaStatus | efpgaVersion | softReset
  deriving DecidableEq, Repr

namespace SocReg

def addr : SocReg → BitVec 12
  | .info => 0x00 | .fcBoot => 0x04 | .fcFetch => 0x08 | .buildDate => 0x0C | .buildTime => 0x10
  | .wcfgfun => 0x60 | .rcfgfun => 0x64 | .jtagReg => 0x74 | .bootsel => 0xC4 | .clksel => 0xC8
  | .wdCount => 0xD0 | .wdControl => 0xD4 | .resetReason => 0xD8 | .rtoPeripheral => 0xE0
  | .rtoCount => 0xE4 | .resetType1Efpga => 0xE8 | .enableInOutEfpga => 0xEC
  | .efpgaControl => 0xF0 | .efpgaStatus => 0xF4 | .efpgaVersion => 0xF8 | .softReset => 0xFC

def all : List SocReg :=
  [.info, .fcBoot, .fcFetch, .buildDate, .buildTime, .wcfgfun, .rcfgfun, .jtagReg, .bootsel,
    .clksel, .wdCount, .wdControl, .resetReason, .rtoPeripheral, .rtoCount, .resetType1Efpga,
    .enableInOutEfpga, .efpgaControl, .efpgaStatus, .efpgaVersion, .softReset]

end SocReg

/-- The register whose label an address matches in a case statement. -/
def socReg? (paddr : BitVec 12) : Option SocReg :=
  SocReg.all.find? fun reg => reg.addr == paddr

theorem addr_of_socReg? {paddr : BitVec 12} {reg : SocReg} (found : socReg? paddr = some reg) :
    reg.addr = paddr :=
  eq_of_beq (List.find?_some (p := fun reg : SocReg => reg.addr == paddr) found)

/-- `12'h4??`, the label of the pads in the case statement of the writes. -/
def inCfgWindow (paddr : BitVec 12) : Bool := paddr.extractLsb' 8 4 == 4#4

/-- `PADDR[11:10] == 2'b01`, the pads of the reads. -/
def inPadWindow (paddr : BitVec 12) : Bool := paddr.extractLsb' 10 2 == 1#2

/-- `PADDR[9:2]`. -/
def padIndex (paddr : BitVec 12) : BitVec 8 := paddr.extractLsb' 2 8

/-- The registers that only accesses change. -/
structure CtrlRegs where
  rIoPad : BitVec 6
  padCfg : Vector (BitVec 6) nIo
  rPadmux : Vector (BitVec 2) nIo
  rBootaddr : BitVec 32
  rFetchen : Bool
  rJtagRego : BitVec 8
  wdEnabled : Bool
  wdCount : BitVec 31
  rtoCountReg : BitVec 32
  rResetType1Efpga : BitVec 4
  rEnableInoutEfpga : BitVec 6
  controlIn : BitVec 32

def CtrlRegs.reset : CtrlRegs where
  rIoPad := 0
  padCfg := Vector.replicate nIo (BitVec.allOnes 6)
  rPadmux := Vector.replicate nIo 0
  rBootaddr := 0x1A000080
  rFetchen := true
  rJtagRego := 0
  wdEnabled := false
  wdCount := 32768
  rtoCountReg := 0xff
  rResetType1Efpga := 0
  rEnableInoutEfpga := 0
  controlIn := 0

/-- `APB_fsm`. -/
inductive ApbFsm where
  | idle | read | write | wait
  deriving DecidableEq, Repr

/-- The registers in the domain of the reference clock. -/
structure Watchdog where
  currentCount : BitVec 31
  cleared : Bool
  expired : Bool
  deriving DecidableEq, Repr

structure ApbSocCtrl where
  regs : CtrlRegs
  apbFsm : ApbFsm
  prdata : BitVec 32
  pready : Bool
  pslverr : Bool
  rJtagRegiSync0 : BitVec 8
  rJtagRegiSync1 : BitVec 8
  readyTimeoutCount : BitVec 20
  periphRtoReg : BitVec 32
  rtoO : Bool
  softResetO : Bool
  resetReasonClear : Bool
  wdReset : Bool
  watchdog : Watchdog
  resetReason : BitVec 2
  rBootsel : BitVec 2

/-- The state after `rstpin_ni` and `HRESETn`, with the boot select pins sampled meanwhile. -/
def ApbSocCtrl.reset (dmactive bootsel : Bool) : ApbSocCtrl where
  regs := .reset
  apbFsm := .idle
  prdata := 0
  pready := false
  pslverr := false
  rJtagRegiSync0 := 0
  rJtagRegiSync1 := 0
  readyTimeoutCount := 0xff
  periphRtoReg := 0
  rtoO := false
  softResetO := false
  resetReasonClear := false
  wdReset := false
  watchdog := { currentCount := 32768, cleared := false, expired := false }
  resetReason := 1
  rBootsel := BitVec.ofBool dmactive ++ BitVec.ofBool bootsel

/-- The parameters of the instance and the macros of the build. -/
structure SocCtrlParams where
  nCores : BitVec 16
  nClusters : BitVec 16
  buildDate : BitVec 32
  buildTime : BitVec 32

/-- The inputs beside the bus at an edge of `HCLK`. -/
structure SocCtrlPins where
  selFllClk : Bool
  bootsel : Bool
  dmactive : Bool
  statusOut : BitVec 32
  version : BitVec 8
  socJtagReg : BitVec 8
  startRto : Bool
  peripheralRto : BitVec 11
  /-- What an index past the last pad reads from `pad_cfg_o` and `r_padmux`. -/
  missingPad : BitVec 6 × BitVec 2

/-- What is sampled at an edge of `HCLK`. -/
structure SocCtrlInput extends SocCtrlPins where
  paddr : BitVec 12
  pwdata : BitVec 32
  pwrite : Bool
  psel : Bool
  penable : Bool

namespace CtrlRegs

variable (regs : CtrlRegs)

/-- The settings of a pad; an index past the last pad is not written. -/
def writePad (index : Nat) (cfg : BitVec 6) (mux : BitVec 2) : CtrlRegs :=
  { regs with
    padCfg := regs.padCfg.setIfInBounds index cfg
    rPadmux := regs.rPadmux.setIfInBounds index mux }

/-- What `SOFT_RESET` resets. -/
def softReset : CtrlRegs :=
  { regs with
    rIoPad := 0
    rPadmux := Vector.replicate nIo 0
    padCfg := Vector.replicate nIo (BitVec.allOnes 6)
    rResetType1Efpga := 0
    rEnableInoutEfpga := 0
    controlIn := 0
    rtoCountReg := 0xff }

/-- The case statement of `FSM_WRITE`; a register without a label is not written. -/
def writeReg (pwdata : BitVec 32) : SocReg → Option CtrlRegs
  | .fcBoot => some { regs with rBootaddr := pwdata }
  | .fcFetch => some { regs with rFetchen := pwdata.getLsbD 0 }
  | .wcfgfun =>
      some { regs.writePad (pwdata.extractLsb' 0 6).toNat (pwdata.extractLsb' 24 6)
          (pwdata.extractLsb' 16 2) with rIoPad := pwdata.extractLsb' 0 6 }
  | .rcfgfun => some { regs with rIoPad := pwdata.extractLsb' 0 6 }
  | .jtagReg => some { regs with rJtagRego := pwdata.extractLsb' 0 8 }
  | .wdCount =>
      some { regs with wdCount := if regs.wdEnabled then regs.wdCount else pwdata.extractLsb' 0 31 }
  | .wdControl => some { regs with wdEnabled := pwdata.getLsbD 31 || regs.wdEnabled }
  | .rtoPeripheral => some regs
  | .rtoCount =>
      some { regs with rtoCountReg := (pwdata.extractLsb' 4 16 ++ 0xf#4).setWidth 32 }
  | .resetType1Efpga => some { regs with rResetType1Efpga := pwdata.extractLsb' 0 4 }
  | .enableInOutEfpga => some { regs with rEnableInoutEfpga := pwdata.extractLsb' 0 6 }
  | .efpgaControl => some { regs with controlIn := pwdata }
  | .softReset => some regs.softReset
  | .info | .buildDate | .buildTime | .bootsel | .clksel | .resetReason | .efpgaStatus
  | .efpgaVersion => none

/-- The registers after `FSM_WRITE`, or `none` when `PSLVERR` is raised. -/
def write (paddr : BitVec 12) (pwdata : BitVec 32) : Option CtrlRegs :=
  match socReg? paddr with
  | some reg => regs.writeReg pwdata reg
  | none =>
      if inCfgWindow paddr then
        some <|
          if (padIndex paddr).toNat < nIo then
            { regs.writePad (padIndex paddr).toNat (pwdata.extractLsb' 8 6)
                (pwdata.extractLsb' 0 2) with rIoPad := (padIndex paddr).setWidth 6 }
          else regs
      else none

/-- The registers after `FSM_READ`: a read of a pad moves `r_io_pad`. -/
def afterRead (paddr : BitVec 12) : CtrlRegs :=
  if inPadWindow paddr then { regs with rIoPad := paddr.extractLsb' 2 6 } else regs

end CtrlRegs

namespace ApbSocCtrl

variable (params : SocCtrlParams) (ctrl : ApbSocCtrl) (pins : SocCtrlPins)

/-- `pad_cfg_o[index]` and `r_padmux[index]`. -/
def padAt (index : Nat) : BitVec 6 × BitVec 2 :=
  (ctrl.regs.padCfg[index]?.getD pins.missingPad.1,
    ctrl.regs.rPadmux[index]?.getD pins.missingPad.2)

/-- The fields that `REG_WCFGFUN` and `REG_RCFGFUN` show. -/
def cfgfunData : BitVec 32 :=
  let pad := ctrl.padAt pins ctrl.regs.rIoPad.toNat
  0#2 ++ pad.1 ++ 0#6 ++ pad.2 ++ 0#10 ++ ctrl.regs.rIoPad

/-- The case statement of `FSM_READ`; a register without a label is not read. -/
def readReg : SocReg → Option (BitVec 32)
  | .wcfgfun => some (ctrl.cfgfunData pins)
  | .rcfgfun => some (ctrl.cfgfunData pins)
  | .fcBoot => some ctrl.regs.rBootaddr
  | .fcFetch => some ((BitVec.ofBool ctrl.regs.rFetchen).setWidth 32)
  | .info => some (params.nCores ++ params.nClusters)
  | .buildDate => some params.buildDate
  | .buildTime => some params.buildTime
  | .bootsel =>
      some (BitVec.ofBool pins.dmactive ++ BitVec.ofBool pins.bootsel ++ 0#28 ++ ctrl.rBootsel)
  | .clksel => some ((BitVec.ofBool pins.selFllClk).setWidth 32)
  | .jtagReg => some (0#16 ++ ctrl.rJtagRegiSync0 ++ ctrl.regs.rJtagRego)
  | .wdCount => some (0#1 ++ ctrl.regs.wdCount)
  | .wdControl => some (BitVec.ofBool ctrl.regs.wdEnabled ++ ctrl.watchdog.currentCount)
  | .resetReason => some (ctrl.resetReason.setWidth 32)
  | .rtoPeripheral => some ctrl.periphRtoReg
  | .rtoCount => some ctrl.regs.rtoCountReg
  | .resetType1Efpga => some (ctrl.regs.rResetType1Efpga.setWidth 32)
  | .enableInOutEfpga => some (ctrl.regs.rEnableInoutEfpga.setWidth 32)
  | .efpgaControl => some ctrl.regs.controlIn
  | .efpgaStatus => some pins.statusOut
  | .efpgaVersion => some (pins.version.setWidth 32)
  | .softReset => none

/-- The case statement at an address. -/
def readCase (paddr : BitVec 12) : Option (BitVec 32) :=
  (socReg? paddr).bind (ctrl.readReg params pins)

/-- `PSLVERR` after `FSM_READ`: the default of the case statement raises it. -/
def readErr (paddr : BitVec 12) : Bool := (ctrl.readCase params pins paddr).isNone

/-- `PRDATA` after `FSM_READ`: in the window of the pads the data is overwritten. -/
def readData (paddr : BitVec 12) : BitVec 32 :=
  if inPadWindow paddr then
    if (padIndex paddr).toNat < nIo then
      let pad := ctrl.padAt pins (padIndex paddr).toNat
      0#18 ++ pad.1 ++ 0#6 ++ pad.2
    else 0x0095BEEF
  else (ctrl.readCase params pins paddr).getD 0xDEADBEEF

/-! ## The clock edges -/

variable (input : SocCtrlInput)

/-- The statements before the case of `APB_fsm`. -/
def tick : ApbSocCtrl :=
  { ctrl with
    wdReset := ctrl.wdReset && !ctrl.watchdog.cleared
    readyTimeoutCount :=
      if input.startRto then ctrl.readyTimeoutCount - 1
      else ctrl.regs.rtoCountReg.extractLsb' 0 20
    rtoO := ctrl.readyTimeoutCount == 0
    periphRtoReg := ctrl.periphRtoReg ||| input.peripheralRto.setWidth 32
    rJtagRegiSync1 := input.socJtagReg
    rJtagRegiSync0 := ctrl.rJtagRegiSync1
    softResetO := false
    resetReasonClear := false }

/-- A write of `WD_CONTROL` that reloads the watchdog. -/
def reloads (paddr : BitVec 12) (pwdata : BitVec 32) : Bool :=
  socReg? paddr == some .wdControl &&
    (pwdata.getLsbD 31 || (ctrl.regs.wdEnabled && pwdata.extractLsb' 0 16 == 0x6699#16))

/-- `FSM_WRITE`. -/
def doWrite : ApbSocCtrl :=
  let next := ctrl.regs.write input.paddr input.pwdata
  let after := ctrl.tick input
  { after with
    pready := true
    apbFsm := .wait
    regs := next.getD ctrl.regs
    pslverr := next.isNone || ctrl.pslverr
    wdReset := ctrl.reloads input.paddr input.pwdata || after.wdReset
    periphRtoReg :=
      match socReg? input.paddr with
      | some .rtoPeripheral | some .softReset => 0
      | _ => after.periphRtoReg
    softResetO := socReg? input.paddr == some .softReset }

/-- `FSM_READ`. -/
def doRead : ApbSocCtrl :=
  { ctrl.tick input with
    pready := true
    apbFsm := .wait
    regs := ctrl.regs.afterRead input.paddr
    prdata := ctrl.readData params input.toSocCtrlPins input.paddr
    pslverr := ctrl.readErr params input.toSocCtrlPins input.paddr || ctrl.pslverr }

/-- An edge of `HCLK`. -/
def hclkStep : ApbSocCtrl :=
  match ctrl.apbFsm with
  | .wait =>
      { ctrl.tick input with
        resetReasonClear := socReg? input.paddr == some .resetReason
        pready := false
        apbFsm := .idle }
  | .idle =>
      { ctrl.tick input with
        pready := false
        pslverr := false
        apbFsm :=
          if input.psel && input.penable && input.pwrite then .write
          else if input.psel && input.penable then .read
          else .idle }
  | .write => ctrl.doWrite input
  | .read => ctrl.doRead params input

/-- An edge of the reference clock, at which `stoptimer_i` has a value. -/
def watchdogStep (stoptimer : Bool) : Watchdog :=
  if ctrl.wdReset then
    { currentCount := ctrl.regs.wdCount, cleared := true, expired := false }
  else if ctrl.regs.wdEnabled && !stoptimer then
    { currentCount := ctrl.watchdog.currentCount - 1, cleared := false
      expired := ctrl.watchdog.currentCount == 1 }
  else { ctrl.watchdog with cleared := false, expired := false }

end ApbSocCtrl

/-- The clock edges of an instant: at an edge of `HCLK` its inputs, at an edge of the
reference clock `stoptimer_i`. -/
structure SocCtrlEdges where
  hclk : Option SocCtrlInput
  refClk : Option Bool

/-- An instant.  Both edges see the values before it; the latch of `reset_reason` follows
their results. -/
def ApbSocCtrl.step (params : SocCtrlParams) (ctrl : ApbSocCtrl) (edges : SocCtrlEdges) :
    ApbSocCtrl :=
  let next := match edges.hclk with
    | some input => ctrl.hclkStep params input
    | none => ctrl
  let watchdog := match edges.refClk with
    | some stoptimer => ctrl.watchdogStep stoptimer
    | none => ctrl.watchdog
  { next with
    watchdog := watchdog
    resetReason :=
      if watchdog.expired then 2
      else if next.resetReasonClear then 0
      else ctrl.resetReason }

end CoreVMcu.Soc
