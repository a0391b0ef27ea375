import CoreVMcu.Camera.CameraIf
import CoreVMcu.Clocked.Counters

/-!
# Frames on the pixel bus

A frame begins with a rising edge of the vertical sync, and its pixels come row after row, each
in two cycles with the horizontal sync.  The interface has to offer the pixels of the window in
the frames that are kept.  It does so if its frame counter is in range when it is enabled: the
counter keeps its value while the interface is disabled.
-/

namespace CoreVMcu.Camera

open Clocked

/-- The two bytes of a pixel. -/
structure PixelBytes where
  first : BitVec 8
  second : BitVec 8

section Sessions

variable (cfg : CameraCfg)

/-- The vertical sync rises in a cycle. -/
def rises (level : Bool) (cycle : CamCycle) : Bool := !level && cfg.camVsync cycle.vsync

/-- The cycles of a frame after its start carry some pixels: there is no other edge of the
vertical sync, and the horizontal sync stays up for both bytes of a pixel. -/
inductive Body : Bool → List CamCycle → List PixelBytes → Bool → Prop
  | ends {level : Bool} : Body level [] [] level
  | blank {level last : Bool} {cycle : CamCycle} {cycles : List CamCycle}
      {pixels : List PixelBytes} :
      rises cfg level cycle = false → cycle.hsync = false →
        Body (cfg.camVsync cycle.vsync) cycles pixels last →
          Body level (cycle :: cycles) pixels last
  | pixel {level last : Bool} {first second : CamCycle} {cycles : List CamCycle}
      {pixels : List PixelBytes} :
      rises cfg level first = false → first.hsync = true →
        rises cfg (cfg.camVsync first.vsync) second = false → second.hsync = true →
          Body (cfg.camVsync second.vsync) cycles pixels last →
            Body level (first :: second :: cycles) (⟨first.data, second.data⟩ :: pixels) last

/-- The cycles carry some frames, each of which starts with an edge while the horizontal sync is
low. -/
inductive Frames : Bool → List CamCycle → List (List PixelBytes) → Prop
  | ends {level : Bool} : Frames level [] []
  | frame {level last : Bool} {start : CamCycle} {body rest : List CamCycle}
      {pixels : List PixelBytes} {frames : List (List PixelBytes)} :
      rises cfg level start = true → start.hsync = false →
        Body cfg true body pixels last → Frames last rest frames →
          Frames level (start :: (body ++ rest)) (pixels :: frames)

/-- Before the first frame there are some cycles without an edge. -/
inductive Session : Bool → List CamCycle → List (List PixelBytes) → Prop
  | frames {level : Bool} {cycles : List CamCycle} {frames : List (List PixelBytes)} :
      Frames cfg level cycles frames → Session level cycles frames
  | leadIn {level : Bool} {cycle : CamCycle} {cycles : List CamCycle}
      {frames : List (List PixelBytes)} :
      rises cfg level cycle = false → Session (cfg.camVsync cycle.vsync) cycles frames →
        Session level (cycle :: cycles) frames

end Sessions

/-! ## What is to be offered -/

section Expected

variable (cfg : CameraCfg)

/-- The bytes of a pixel in the order in which they come. -/
def PixelBytes.word (pixel : PixelBytes) : BitVec 16 := pixel.first ++ pixel.second

/-- Red, green and blue of a pixel, extended to eight bits. -/
def colours (pixel : PixelBytes) : Nat × Nat × Nat :=
  let word := pixel.word.toNat
  match cfg.format.toNat with
  | 0 => (word / 2 ^ 11 * 8, word / 2 ^ 5 % 2 ^ 6 * 4, word % 2 ^ 5 * 8)
  | 1 => (word / 2 ^ 10 % 2 ^ 5 * 8, word / 2 ^ 5 % 2 ^ 5 * 8, word % 2 ^ 5 * 8)
  | 2 => (word / 2 ^ 8 % 2 ^ 4 * 16, word / 2 ^ 4 % 2 ^ 4 * 16, word % 2 ^ 4 * 16)
  | _ => (0, 0, 0)

/-- The weighted sum of the colours in seventeen bits. -/
def weightedSum (pixel : PixelBytes) : Nat :=
  let (red, green, blue) := colours cfg pixel
  (red * cfg.rCoeff.toNat + green * cfg.gCoeff.toNat + blue * cfg.bCoeff.toNat) % 2 ^ 17

/-- The sum is shifted by up to nine places. -/
def shiftAmount : Nat := if cfg.shift.toNat ≤ 9 then cfg.shift.toNat else 0

/-- The pixel as it is to be offered. -/
def convert (pixel : PixelBytes) : BitVec 16 :=
  match cfg.format.toNat with
  | 4 => pixel.word
  | 5 => pixel.second ++ pixel.first
  | 6 => 0
  | 7 => 0
  | _ => BitVec.ofNat 16 (weightedSum cfg pixel / 2 ^ shiftAmount cfg)

/-- The pixel of a number is in the window. -/
def inside (number : Nat) : Bool :=
  let row := number / (cfg.rowlen.toNat + 1)
  let column := number % (cfg.rowlen.toNat + 1)
  !cfg.frameslice ||
    (cfg.lly.toNat ≤ row && row ≤ cfg.ury.toNat &&
      (cfg.llx.toNat ≤ column && column ≤ cfg.urx.toNat))

/-- The converted pixels in the window, where the first pixel has the given number. -/
def windowPixels (pixels : List PixelBytes) (number : Nat) : List (BitVec 16) :=
  (pixels.zipIdx number).filterMap fun (pixel, number) =>
    if inside cfg number then some (convert cfg pixel) else none

/-- Of each `framedropVal + 1` frames one is kept when frames are dropped. -/
def keeps (number : Nat) : Bool :=
  !cfg.framedropEn || number % (cfg.framedropVal.toNat + 1) == 0

/-- The pixels of the frames that are kept, where the first frame has the given number. -/
def keptPixels (frames : List (List PixelBytes)) (number : Nat) : List (BitVec 16) :=
  (frames.zipIdx number).flatMap fun (pixels, number) =>
    if keeps cfg number then windowPixels cfg pixels 0 else []

end Expected

/-! ## Runs -/

/-- The pixel that is offered in a cycle. -/
def offers (cfg : CameraCfg) (cam : CameraIf) (_ : CamCycle) : List (BitVec 16) :=
  if cam.udmaTxValidFlush cfg then [cam.udmaTxData] else []

/-- The interface has been disabled for some time, and the conversion is empty. -/
structure Off (cam : CameraIf) : Prop where
  enSync0 : cam.rEnSync0 = false
  enSync1 : cam.rEnSync1 = false
  enable : cam.rEnable = false
  txValid : cam.rTxValid = false
  yuvDataValid : cam.rYuvDataValid = false
  dataFilterValid : cam.rDataFilterValid = false
  udmaTxValid : cam.udmaTxValid = false

/-- The first cycle of a session is an edge for `r_vsync` if it is one after the cycle before. -/
def FirstEdge (cfg : CameraCfg) (cam : CameraIf) (before : CamCycle) (cycles : List CamCycle) :
    Prop :=
  ∀ first ∈ cycles.head?, rises cfg cam.rVsync first = rises cfg (cfg.camVsync before.vsync) first

instance (cfg : CameraCfg) (cam : CameraIf) (before : CamCycle) (cycles : List CamCycle) :
    Decidable (FirstEdge cfg cam before cycles) :=
  inferInstanceAs (Decidable (∀ first ∈ cycles.head?, _ = _))

/-- The frame counter is in the range in which it counts. -/
def CounterInRange (cfg : CameraCfg) (cam : CameraIf) : Prop :=
  cam.rFramecounter.toNat ≤ if cfg.framedropEn then cfg.framedropVal.toNat else 0

instance (cfg : CameraCfg) (cam : CameraIf) : Decidable (CounterInRange cfg cam) :=
  inferInstanceAs (Decidable (_ ≤ _))

/-- Where a window is cut out, no frame has more rows than the row counter can count. -/
def RowsFit (cfg : CameraCfg) (frames : List (List PixelBytes)) : Prop :=
  cfg.frameslice = true → ∀ pixels ∈ frames, pixels.length ≤ 2 ^ 16 * (cfg.rowlen.toNat + 1)

instance (cfg : CameraCfg) (frames : List (List PixelBytes)) : Decidable (RowsFit cfg frames) :=
  inferInstanceAs (Decidable (_ → ∀ pixels ∈ frames, _))

end CoreVMcu.Camera
