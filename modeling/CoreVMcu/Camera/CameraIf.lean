import CoreVMcu.Clocked.Machine
import Mathlib.Data.BitVec

/-!
# The camera interface

`camera_if` puts two bytes of the pixel bus together to a pixel, counts rows, columns and
frames, and offers the converted pixels of the window in the frames that are not dropped.  The
model is that of the camera clock, up to the dual-clock FIFO.
-/

namespace CoreVMcu.Camera

open Clocked

/-! ## Configuration -/

/-- The registers of `camera_reg_if` that the interface looks at. -/
structure CameraCfg where
  glob : BitVec 32
  ll : BitVec 32
  ur : BitVec 32
  filter : BitVec 32
  size : BitVec 32
  vsyncPolarity : Bool

namespace CameraCfg

variable (cfg : CameraCfg)

def framedropEn : Bool := cfg.glob.getLsbD 0
def framedropVal : BitVec 6 := cfg.glob.extractLsb' 1 6
def frameslice : Bool := cfg.glob.getLsbD 7
def format : BitVec 3 := cfg.glob.extractLsb' 8 3
def shift : BitVec 4 := cfg.glob.extractLsb' 11 4
def en : Bool := cfg.glob.getLsbD 31
def rowlen : BitVec 16 := cfg.size.extractLsb' 16 16
def llx : BitVec 16 := cfg.ll.extractLsb' 0 16
def lly : BitVec 16 := cfg.ll.extractLsb' 16 16
def urx : BitVec 16 := cfg.ur.extractLsb' 0 16
def ury : BitVec 16 := cfg.ur.extractLsb' 16 16
def rCoeff : BitVec 8 := cfg.filter.extractLsb' 16 8
def gCoeff : BitVec 8 := cfg.filter.extractLsb' 8 8
def bCoeff : BitVec 8 := cfg.filter.extractLsb' 0 8

/-- `s_cam_vsync`. -/
def camVsync (vsync : Bool) : Bool := if cfg.vsyncPolarity then !vsync else vsync

/-- The formats that are offered as they come. -/
def bypass : Bool := cfg.format.getLsbD 2

end CameraCfg

/-- The colours and the word of a pixel. -/
structure PixelParts where
  rPix : BitVec 8 := 0
  gPix : BitVec 8 := 0
  bPix : BitVec 8 := 0
  yuvPix : BitVec 16 := 0

/-- `proc_format`. -/
def procFormat (format : BitVec 3) (dataMsb camData : BitVec 8) : PixelParts :=
  match format.toNat with
  | 0 => -- `RGB565`
    { rPix := dataMsb.extractLsb' 3 5 ++ 0#3
      gPix := dataMsb.extractLsb' 0 3 ++ camData.extractLsb' 5 3 ++ 0#2
      bPix := camData.extractLsb' 0 5 ++ 0#3 }
  | 1 => -- `RGB555`
    { rPix := dataMsb.extractLsb' 2 5 ++ 0#3
      gPix := dataMsb.extractLsb' 0 2 ++ camData.extractLsb' 5 3 ++ 0#3
      bPix := camData.extractLsb' 0 5 ++ 0#3 }
  | 2 => -- `RGB444`
    { rPix := dataMsb.extractLsb' 0 4 ++ 0#4
      gPix := camData.extractLsb' 4 4 ++ 0#4
      bPix := camData.extractLsb' 0 4 ++ 0#4 }
  | 4 => -- `BYPASS_LITEND`
    { yuvPix := dataMsb ++ camData }
  | 5 => -- `BYPASS_BIGEND`
    { yuvPix := camData ++ dataMsb }
  | _ => {}

/-- `s_data_filter` of the three colours. -/
def dataFilter (cfg : CameraCfg) (rPix gPix bPix : BitVec 8) : BitVec 17 :=
  (rPix.setWidth 16 * cfg.rCoeff.setWidth 16).setWidth 17 +
    (gPix.setWidth 16 * cfg.gCoeff.setWidth 16).setWidth 17 +
    (bPix.setWidth 16 * cfg.bCoeff.setWidth 16).setWidth 17

/-- `s_data_filter_shift`. -/
def dataFilterShift (shift : BitVec 4) (dataFilter : BitVec 17) : BitVec 16 :=
  match shift.toNat with
  | 0 => dataFilter.extractLsb' 0 16
  | 1 => dataFilter.extractLsb' 1 16
  | 2 => 0#1 ++ dataFilter.extractLsb' 2 15
  | 3 => 0#2 ++ dataFilter.extractLsb' 3 14
  | 4 => 0#3 ++ dataFilter.extractLsb' 4 13
  | 5 => 0#4 ++ dataFilter.extractLsb' 5 12
  | 6 => 0#5 ++ dataFilter.extractLsb' 6 11
  | 7 => 0#6 ++ dataFilter.extractLsb' 7 10
  | 8 => 0#7 ++ dataFilter.extractLsb' 8 9
  | 9 => 0#8 ++ dataFilter.extractLsb' 9 8
  | _ => dataFilter.extractLsb' 0 16

/-! ## The interface -/

/-- The pixel bus at an edge of the camera clock. -/
structure CamCycle where
  data : BitVec 8
  hsync : Bool
  vsync : Bool

/-- The registers of `camera_if` on the camera clock. -/
structure CameraIf where
  rRowcounter : BitVec 16
  rColcounter : BitVec 16
  rFramecounter : BitVec 6
  rSampleMsb : Bool
  rDataMsb : BitVec 8
  rVsync : Bool
  rEnable : Bool
  rEnSync0 : Bool
  rEnSync1 : Bool
  rRPix : BitVec 8
  rGPix : BitVec 8
  rBPix : BitVec 8
  rYuvPix : BitVec 16
  rYuvDataValid : Bool
  rTxValid : Bool
  rDataFilter : BitVec 17
  rDataFilterValid : Bool
  udmaTxData : BitVec 16
  udmaTxValid : Bool

namespace CameraIf

variable (cam : CameraIf) (cfg : CameraCfg) (cycle : CamCycle)

def reset : CameraIf where
  rRowcounter := 0
  rColcounter := 0
  rFramecounter := 0
  rSampleMsb := true
  rDataMsb := 0
  rVsync := false
  rEnable := false
  rEnSync0 := false
  rEnSync1 := false
  rRPix := 0
  rGPix := 0
  rBPix := 0
  rYuvPix := 0
  rYuvDataValid := false
  rTxValid := false
  rDataFilter := 0
  rDataFilterValid := false
  udmaTxData := 0
  udmaTxValid := false

/-- `s_sof`. -/
def sof : Bool := !cam.rVsync && cfg.camVsync cycle.vsync

/-- `s_framevalid`. -/
def framevalid : Bool := cam.rFramecounter == 0

/-- The counters are in the window. -/
def inWindow : Bool :=
  cfg.lly ≤ cam.rRowcounter && cam.rRowcounter ≤ cfg.ury &&
    (cfg.llx ≤ cam.rColcounter && cam.rColcounter ≤ cfg.urx)

/-- `s_pixel_valid`. -/
def pixelValid : Bool :=
  cam.framevalid && cam.rEnable && (!cfg.frameslice || cam.inWindow cfg)

/-- `s_tx_valid`. -/
def txValid : Bool := cycle.hsync && cam.pixelValid cfg && !cam.rSampleMsb

/-- The colours and the word of the pixel that ends in this cycle. -/
def parts : PixelParts := procFormat cfg.format cam.rDataMsb cycle.data

/-- `udma_tx_valid_flush`. -/
def udmaTxValidFlush : Bool := if cfg.en then cam.udmaTxValid else false

/-- `r_framecounter` after a start of frame. -/
def framecounterNext : BitVec 6 :=
  if cfg.framedropEn then
    if cam.rFramecounter == cfg.framedropVal then 0 else cam.rFramecounter + 1
  else 0

/-- One edge of the camera clock. -/
def step : CameraIf where
  rRPix := if cam.txValid cfg cycle && !cfg.bypass then (cam.parts cfg cycle).rPix else cam.rRPix
  rGPix := if cam.txValid cfg cycle && !cfg.bypass then (cam.parts cfg cycle).gPix else cam.rGPix
  rBPix := if cam.txValid cfg cycle && !cfg.bypass then (cam.parts cfg cycle).bPix else cam.rBPix
  rTxValid := if cam.txValid cfg cycle then (if cfg.bypass then cam.rTxValid else true) else false
  rYuvPix := if cam.txValid cfg cycle && cfg.bypass then (cam.parts cfg cycle).yuvPix
    else cam.rYuvPix
  rYuvDataValid :=
    if cam.txValid cfg cycle then (if cfg.bypass then true else cam.rYuvDataValid) else false
  rDataFilter := if cam.rTxValid then dataFilter cfg cam.rRPix cam.rGPix cam.rBPix
    else cam.rDataFilter
  rDataFilterValid := cam.rTxValid
  udmaTxData :=
    if cam.rDataFilterValid || cam.rYuvDataValid then
      if cam.rDataFilterValid then dataFilterShift cfg.shift cam.rDataFilter else cam.rYuvPix
    else cam.udmaTxData
  udmaTxValid := cam.rDataFilterValid || cam.rYuvDataValid
  rVsync := if cam.rEnSync1 then cfg.camVsync cycle.vsync else cam.rVsync
  rEnSync0 := cfg.en
  rEnSync1 := cam.rEnSync0
  rSampleMsb := if !cam.rEnable || !cycle.hsync then true else !cam.rSampleMsb
  rEnable := if cam.sof cfg cycle || !cam.rEnSync1 then cam.rEnSync1 else cam.rEnable
  rDataMsb :=
    if cam.sof cfg cycle || !cam.rEnSync1 then cam.rDataMsb
    else if cycle.hsync && cam.rEnable && cam.rSampleMsb then cycle.data
    else cam.rDataMsb
  rRowcounter :=
    if cam.sof cfg cycle || !cam.rEnSync1 then 0
    else if cycle.hsync && cam.rEnable && (!cam.rSampleMsb && cfg.frameslice) then
      if cam.rColcounter == cfg.rowlen then cam.rRowcounter + 1 else cam.rRowcounter
    else cam.rRowcounter
  rColcounter :=
    if cam.sof cfg cycle || !cam.rEnSync1 then 0
    else if cycle.hsync && cam.rEnable && (!cam.rSampleMsb && cfg.frameslice) then
      if cam.rColcounter == cfg.rowlen then 0 else cam.rColcounter + 1
    else cam.rColcounter
  rFramecounter :=
    if cam.sof cfg cycle && cam.rEnable then cam.framecounterNext cfg else cam.rFramecounter

end CameraIf

/-- The interface with a configuration that does not change. -/
def cameraMachine (cfg : CameraCfg) : Machine CameraIf CamCycle where
  init := .reset
  step := fun cam => cam.step cfg

end CoreVMcu.Camera
