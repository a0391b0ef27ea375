import CoreVMcu.Camera.Conversion
import CoreVMcu.Clocked.Pipeline

/-!
# The pixels of a frame

A pixel that ends in the window of a frame that is kept goes through two or three registers and
is then offered.  Within a frame the counters are those of the next pixel.
-/

namespace CoreVMcu.Camera

open Clocked

variable {cfg : CameraCfg} {cam : CameraIf}

/-! ## The registers of the conversion -/

/-- The pixel that goes into the conversion in a cycle. -/
def enters (cfg : CameraCfg) (cam : CameraIf) (cycle : CamCycle) : List (BitVec 16) :=
  if cam.txValid cfg cycle then [convert cfg ⟨cam.rDataMsb, cycle.data⟩] else []

/-- The pixels in the conversion, the oldest one first. -/
def held (cfg : CameraCfg) (cam : CameraIf) : List (BitVec 16) :=
  (if cam.udmaTxValid then [cam.udmaTxData] else []) ++
    ((if cam.rDataFilterValid then [dataFilterShift cfg.shift cam.rDataFilter] else []) ++
      ((if cam.rYuvDataValid then [cam.rYuvPix] else []) ++
        if cam.rTxValid then
          [dataFilterShift cfg.shift (dataFilter cfg cam.rRPix cam.rGPix cam.rBPix)]
        else []))

/-- The pixels take one of the two ways. -/
structure OneWay (cfg : CameraCfg) (cam : CameraIf) : Prop where
  bypass : cfg.bypass = true → cam.rTxValid = false ∧ cam.rDataFilterValid = false
  colour : cfg.bypass = false → cam.rYuvDataValid = false

theorem OneWay.step (oneWay : OneWay cfg cam) (cycle : CamCycle) :
    OneWay cfg (cam.step cfg cycle) where
  bypass bypass := by
    obtain ⟨txValid, -⟩ := oneWay.bypass bypass
    rw [CameraIf.step, bypass, txValid]
    exact ⟨ite_self _, rfl⟩
  colour colour := by
    have yuvDataValid := oneWay.colour colour
    rw [CameraIf.step, colour, yuvDataValid]
    exact ite_self _

theorem held_step (enabled : cfg.en = true) (oneWay : OneWay cfg cam) (cycle : CamCycle) :
    held cfg cam ++ enters cfg cam cycle =
      offers cfg cam cycle ++ held cfg (cam.step cfg cycle) := by
  have offered : offers cfg cam cycle = if cam.udmaTxValid then [cam.udmaTxData] else [] := by
    rw [offers, CameraIf.udmaTxValidFlush, enabled]
    rfl
  rw [offered, held, List.append_assoc, List.append_cancel_left_eq, held, enters, CameraIf.step]
  cases bypass : cfg.bypass with
  | true =>
      obtain ⟨txValid, dataFilterValid⟩ := oneWay.bypass bypass
      have converts := convert_bypass bypass ⟨cam.rDataMsb, cycle.data⟩
      rw [txValid, dataFilterValid, ← converts]
      cases cam.rYuvDataValid <;> cases cam.txValid cfg cycle <;> rfl
  | false =>
      have yuvDataValid := oneWay.colour bypass
      have converts := convert_colour bypass ⟨cam.rDataMsb, cycle.data⟩
      rw [yuvDataValid, ← converts]
      cases cam.rDataFilterValid <;> cases cam.rTxValid <;> cases cam.txValid cfg cycle <;> rfl

theorem txValid_of_blank {cycle : CamCycle} (blank : cycle.hsync = false) :
    cam.txValid cfg cycle = false := by
  rw [CameraIf.txValid, blank]
  rfl

/-- Three cycles without the horizontal sync empty the conversion. -/
theorem held_drained {first second third : CamCycle} (blank1 : first.hsync = false)
    (blank2 : second.hsync = false) (blank3 : third.hsync = false) :
    held cfg (((cam.step cfg first).step cfg second).step cfg third) = [] := by
  have rests : ∀ (cam : CameraIf) {cycle : CamCycle}, cycle.hsync = false →
      (cam.step cfg cycle).rTxValid = false ∧ (cam.step cfg cycle).rYuvDataValid = false := by
    intro cam cycle blank
    rw [CameraIf.step, txValid_of_blank blank]
    exact ⟨rfl, rfl⟩
  obtain ⟨tx1, -⟩ := rests cam blank1
  obtain ⟨tx2, yuv2⟩ := rests (cam.step cfg first) blank2
  obtain ⟨tx3, yuv3⟩ := rests ((cam.step cfg first).step cfg second) blank3
  have filter2 : ((cam.step cfg first).step cfg second).rDataFilterValid = false := tx1
  have filter3 : (((cam.step cfg first).step cfg second).step cfg third).rDataFilterValid =
      false := tx2
  have udma3 : (((cam.step cfg first).step cfg second).step cfg third).udmaTxValid = false := by
    change (_ || _) = false
    rw [filter2, yuv2]
    rfl
  rw [held, udma3, filter3, yuv3, tx3]
  rfl

/-! ## Counters -/

/-- Between two pixels of a frame: the counters are those of the next pixel. -/
structure InFrame (cfg : CameraCfg) (level : Bool) (number : Nat) (frame : BitVec 6)
    (cam : CameraIf) : Prop where
  enSync0 : cam.rEnSync0 = true
  enSync1 : cam.rEnSync1 = true
  vsync : cam.rVsync = level
  enable : cam.rEnable = true
  sampleMsb : cam.rSampleMsb = true
  framecounter : cam.rFramecounter = frame
  colcounter : cfg.frameslice = true →
    cam.rColcounter = BitVec.ofNat 16 (number % (cfg.rowlen.toNat + 1))
  rowcounter : cfg.frameslice = true →
    cam.rRowcounter = BitVec.ofNat 16 (number / (cfg.rowlen.toNat + 1))

section InFrame

variable {level : Bool} {number : Nat} {frame : BitVec 6} {cycle : CamCycle}

theorem sof_eq (vsync : cam.rVsync = level) : cam.sof cfg cycle = rises cfg level cycle := by
  rw [CameraIf.sof, vsync]
  rfl

/-- The counters are in the window exactly if the pixel is. -/
theorem InFrame.window (inFrame : InFrame cfg level number frame cam)
    (fits : cfg.frameslice = true → number < 2 ^ 16 * (cfg.rowlen.toNat + 1)) :
    (!cfg.frameslice || cam.inWindow cfg) = inside cfg number := by
  rw [inside]
  cases slices : cfg.frameslice with
  | false => rfl
  | true =>
      have row : number / (cfg.rowlen.toNat + 1) < 2 ^ 16 := by
        rw [Nat.div_lt_iff_lt_mul (Nat.succ_pos _)]
        exact fits slices
      have column : number % (cfg.rowlen.toNat + 1) < 2 ^ 16 :=
        (Nat.mod_lt _ (Nat.succ_pos _)).trans_le cfg.rowlen.isLt
      rw [CameraIf.inWindow, inFrame.rowcounter slices, inFrame.colcounter slices]
      simp only [BitVec.le_def, BitVec.toNat_ofNat, Nat.mod_eq_of_lt row, Nat.mod_eq_of_lt column]

/-- Without an edge of the vertical sync the counters go on. -/
theorem step_quiet (enSync1 : cam.rEnSync1 = true) (quiet : cam.sof cfg cycle = false) :
    (cam.step cfg cycle).rEnable = cam.rEnable ∧
      (cam.step cfg cycle).rFramecounter = cam.rFramecounter ∧
      (cam.step cfg cycle).rDataMsb =
        (if cycle.hsync && cam.rEnable && cam.rSampleMsb then cycle.data else cam.rDataMsb) ∧
      (cam.step cfg cycle).rRowcounter =
        (if cycle.hsync && cam.rEnable && (!cam.rSampleMsb && cfg.frameslice) then
          if cam.rColcounter == cfg.rowlen then cam.rRowcounter + 1 else cam.rRowcounter
        else cam.rRowcounter) ∧
      (cam.step cfg cycle).rColcounter =
        (if cycle.hsync && cam.rEnable && (!cam.rSampleMsb && cfg.frameslice) then
          if cam.rColcounter == cfg.rowlen then 0 else cam.rColcounter + 1
        else cam.rColcounter) := by
  rw [CameraIf.step, quiet, enSync1]
  exact ⟨rfl, rfl, rfl, rfl, rfl⟩

theorem step_vsync (enSync1 : cam.rEnSync1 = true) :
    (cam.step cfg cycle).rVsync = cfg.camVsync cycle.vsync := if_pos enSync1

theorem InFrame.blank (inFrame : InFrame cfg level number frame cam) (enabled : cfg.en = true)
    (quiet : rises cfg level cycle = false) (blank : cycle.hsync = false) :
    InFrame cfg (cfg.camVsync cycle.vsync) number frame (cam.step cfg cycle) := by
  obtain ⟨enable, framecounter, -, row, column⟩ :=
    step_quiet inFrame.enSync1 ((sof_eq inFrame.vsync).trans quiet)
  rw [blank] at row column
  exact
    { enSync0 := enabled
      enSync1 := inFrame.enSync0
      vsync := step_vsync inFrame.enSync1
      enable := enable.trans inFrame.enable
      sampleMsb := by rw [CameraIf.step, blank, Bool.not_false, Bool.or_true]; rfl
      framecounter := framecounter.trans inFrame.framecounter
      colcounter := fun slices => column.trans (inFrame.colcounter slices)
      rowcounter := fun slices => row.trans (inFrame.rowcounter slices) }

/-- The first byte of a pixel is kept. -/
structure HalfPixel (cfg : CameraCfg) (level : Bool) (number : Nat) (frame : BitVec 6)
    (first : BitVec 8) (cam : CameraIf) : Prop where
  enSync0 : cam.rEnSync0 = true
  enSync1 : cam.rEnSync1 = true
  vsync : cam.rVsync = level
  enable : cam.rEnable = true
  sampleMsb : cam.rSampleMsb = false
  dataMsb : cam.rDataMsb = first
  inFrame : InFrame cfg level number frame { cam with rSampleMsb := true }

theorem InFrame.firstByte (inFrame : InFrame cfg level number frame cam) (enabled : cfg.en = true)
    (quiet : rises cfg level cycle = false) (hsync : cycle.hsync = true) :
    HalfPixel cfg (cfg.camVsync cycle.vsync) number frame cycle.data (cam.step cfg cycle) := by
  obtain ⟨enable, framecounter, dataMsb, row, column⟩ :=
    step_quiet inFrame.enSync1 ((sof_eq inFrame.vsync).trans quiet)
  rw [hsync, inFrame.enable, inFrame.sampleMsb] at dataMsb row column
  have enable := enable.trans inFrame.enable
  exact
    { enSync0 := enabled
      enSync1 := inFrame.enSync0
      vsync := step_vsync inFrame.enSync1
      enable := enable
      sampleMsb := by rw [CameraIf.step, hsync, inFrame.enable, inFrame.sampleMsb]; rfl
      dataMsb := dataMsb
      inFrame :=
        { enSync0 := enabled
          enSync1 := inFrame.enSync0
          vsync := step_vsync inFrame.enSync1
          enable := enable
          sampleMsb := rfl
          framecounter := framecounter.trans inFrame.framecounter
          colcounter := fun slices => column.trans (inFrame.colcounter slices)
          rowcounter := fun slices => row.trans (inFrame.rowcounter slices) } }

theorem HalfPixel.secondByte {first : BitVec 8}
    (half : HalfPixel cfg level number frame first cam) (enabled : cfg.en = true)
    (quiet : rises cfg level cycle = false) (hsync : cycle.hsync = true) :
    InFrame cfg (cfg.camVsync cycle.vsync) (number + 1) frame (cam.step cfg cycle) := by
  obtain ⟨enable, framecounter, -, row, column⟩ :=
    step_quiet half.enSync1 ((sof_eq half.vsync).trans quiet)
  rw [hsync, half.enable, half.sampleMsb] at row column
  have rowlen : cfg.rowlen = BitVec.ofNat 16 (cfg.rowlen.toNat + 1 - 1) := by
    rw [Nat.add_sub_cancel, BitVec.ofNat_toNat, BitVec.setWidth_eq]
  exact
    { enSync0 := enabled
      enSync1 := half.enSync0
      vsync := step_vsync half.enSync1
      enable := enable.trans half.enable
      sampleMsb := by rw [CameraIf.step, hsync, half.enable, half.sampleMsb]; rfl
      framecounter := framecounter.trans half.inFrame.framecounter
      colcounter := fun slices => by
        have before : cam.rColcounter = _ := half.inFrame.colcounter slices
        rw [column, slices, before]
        have next := @wraps_next number _ 16 (Nat.succ_pos cfg.rowlen.toNat)
          cfg.rowlen.isLt
        rw [← rowlen] at next
        exact next
      rowcounter := fun slices => by
        have beforeCol : cam.rColcounter = _ := half.inFrame.colcounter slices
        have beforeRow : cam.rRowcounter = _ := half.inFrame.rowcounter slices
        have column : number % (cfg.rowlen.toNat + 1) < 2 ^ 16 :=
          (Nat.mod_lt _ (Nat.succ_pos _)).trans_le cfg.rowlen.isLt
        have compared := ofNat_beq_ofNat column cfg.rowlen.isLt
        rw [BitVec.ofNat_toNat, BitVec.setWidth_eq] at compared
        rw [row, slices, beforeCol, beforeRow, compared]
        cases (inferInstance :
          Decidable (number % (cfg.rowlen.toNat + 1) = cfg.rowlen.toNat)) with
        | isTrue last =>
            rw [decide_eq_true last, (succ_last (Nat.succ_pos _) last).2, BitVec.ofNat_add]
            rfl
        | isFalse inner =>
            rw [decide_eq_false inner, (succ_inside (Nat.succ_pos _) inner).2]
            rfl }

/-- The second byte of a pixel in the window of a frame that is kept goes into the conversion. -/
theorem HalfPixel.enters {first : BitVec 8} (half : HalfPixel cfg level number frame first cam)
    (hsync : cycle.hsync = true)
    (fits : cfg.frameslice = true → number < 2 ^ 16 * (cfg.rowlen.toNat + 1)) :
    enters cfg cam cycle =
      if frame == 0 && inside cfg number then [convert cfg ⟨first, cycle.data⟩] else [] := by
  have window : (!cfg.frameslice || cam.inWindow cfg) = inside cfg number :=
    half.inFrame.window fits
  have framecounter : cam.rFramecounter = frame := half.inFrame.framecounter
  rw [Camera.enters, CameraIf.txValid, hsync, CameraIf.pixelValid, CameraIf.framevalid,
    framecounter, half.enable, half.sampleMsb, half.dataMsb, window, Bool.true_and, Bool.and_true,
    Bool.not_false, Bool.and_true]

theorem InFrame.enters_firstByte (inFrame : InFrame cfg level number frame cam) :
    enters cfg cam cycle = [] := by
  rw [enters, CameraIf.txValid, inFrame.sampleMsb, Bool.not_true, Bool.and_false]
  rfl

theorem enters_of_blank (blank : cycle.hsync = false) : enters cfg cam cycle = [] := by
  rw [enters, txValid_of_blank blank]
  rfl

end InFrame

end CoreVMcu.Camera
