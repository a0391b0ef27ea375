import CoreVMcu.Camera.Pixels

/-!
# The pixels that are offered

The frame counter of a frame says whether the frame is kept.  The counter is in range from
reset on, but it keeps its value while the interface is disabled, and the range can then become
smaller.
-/

namespace CoreVMcu.Camera

open Clocked

variable {cfg : CameraCfg} {cam : CameraIf}

/-- The pixels that go into the conversion in some cycles. -/
abbrev entered (cfg : CameraCfg) (cam : CameraIf) (cycles : List CamCycle) : List (BitVec 16) :=
  (cameraMachine cfg).observedFrom (enters cfg) cam cycles

/-- The registers after some cycles. -/
abbrev after (cfg : CameraCfg) (cam : CameraIf) (cycles : List CamCycle) : CameraIf :=
  (cameraMachine cfg).runFrom cam cycles

theorem entered_append (cfg : CameraCfg) (cam : CameraIf) (cycles later : List CamCycle) :
    entered cfg cam (cycles ++ later) =
      entered cfg cam cycles ++ entered cfg (after cfg cam cycles) later :=
  Machine.observedFrom_append ..

theorem windowPixels_cons (pixel : PixelBytes) (pixels : List PixelBytes) (number : Nat) :
    windowPixels cfg (pixel :: pixels) number =
      (if inside cfg number then [convert cfg pixel] else []) ++
        windowPixels cfg pixels (number + 1) := by
  rw [windowPixels, List.zipIdx_cons, List.filterMap_cons]
  cases isInside : inside cfg number with
  | false => simp only [isInside]; rfl
  | true => simp only [isInside]; rfl

/-- The pixels of a frame that is kept go into the conversion if they are in the window, and
those of another frame do not. -/
theorem entered_body (enabled : cfg.en = true) {level last : Bool} {cycles : List CamCycle}
    {pixels : List PixelBytes} (body : Body cfg level cycles pixels last) {frame : BitVec 6}
    {number : Nat} {cam : CameraIf} (inFrame : InFrame cfg level number frame cam)
    (fits : cfg.frameslice = true →
      number + pixels.length ≤ 2 ^ 16 * (cfg.rowlen.toNat + 1)) :
    entered cfg cam cycles = (if frame == 0 then windowPixels cfg pixels number else []) ∧
      InFrame cfg last (number + pixels.length) frame (after cfg cam cycles) := by
  induction body generalizing number cam with
  | ends => exact ⟨by cases frame == 0 <;> rfl, inFrame⟩
  | blank quiet blank _ ih =>
      obtain ⟨enters, next⟩ := ih (inFrame.blank enabled quiet blank) fits
      refine ⟨?_, next⟩
      rw [entered, Machine.observedFrom, enters_of_blank blank]
      exact enters
  | @pixel _ _ first second cycles pixels quiet hsync quietSecond hsyncSecond _ ih =>
      have half := inFrame.firstByte enabled quiet hsync
      have whole := half.secondByte enabled quietSecond hsyncSecond
      have room : ∀ slices : cfg.frameslice = true,
          number + 1 + pixels.length ≤ 2 ^ 16 * (cfg.rowlen.toNat + 1) := by
        intro slices
        have fits := fits slices
        rw [List.length_cons] at fits
        omega
      obtain ⟨enters, next⟩ := ih whole room
      refine ⟨?_, ?_⟩
      · have pixelEnters := half.enters hsyncSecond fun slices => by
          have room := room slices
          omega
        rw [entered, Machine.observedFrom, Machine.observedFrom, inFrame.enters_firstByte]
        change [] ++ (Camera.enters cfg (cam.step cfg first) second ++
          entered cfg ((cam.step cfg first).step cfg second) cycles) = _
        rw [pixelEnters, enters, windowPixels_cons]
        cases frame == 0 <;> rfl
      · rw [List.length_cons, Nat.add_comm pixels.length, ← Nat.add_assoc]
        exact next

/-- The interface waits for a frame: its counter will be the given one in that frame. -/
structure Waits (cfg : CameraCfg) (level : Bool) (frame : BitVec 6) (cam : CameraIf) : Prop where
  enSync0 : cam.rEnSync0 = true
  enSync1 : cam.rEnSync1 = true
  vsync : cam.rVsync = level
  framecounter : (if cam.rEnable then cam.framecounterNext cfg else cam.rFramecounter) = frame

theorem Waits.start {level : Bool} {frame : BitVec 6} (waits : Waits cfg level frame cam)
    (enabled : cfg.en = true) {cycle : CamCycle} (starts : rises cfg level cycle = true)
    (blank : cycle.hsync = false) : InFrame cfg true 0 frame (cam.step cfg cycle) := by
  have sof : cam.sof cfg cycle = true := (sof_eq waits.vsync).trans starts
  have vsync : cfg.camVsync cycle.vsync = true := by
    rw [rises, Bool.and_eq_true] at starts
    exact starts.2
  have cleared : ((cam.step cfg cycle).rRowcounter = 0 ∧
      (cam.step cfg cycle).rColcounter = 0) ∧ (cam.step cfg cycle).rEnable = true := by
    rw [CameraIf.step, sof, waits.enSync1]
    exact ⟨⟨rfl, rfl⟩, rfl⟩
  exact
    { enSync0 := enabled
      enSync1 := waits.enSync0
      vsync := (step_vsync waits.enSync1).trans vsync
      enable := cleared.2
      sampleMsb := by rw [CameraIf.step, blank, Bool.not_false, Bool.or_true]; rfl
      framecounter := by
        rw [← waits.framecounter, CameraIf.step, sof, Bool.true_and]
      colcounter := fun _ => by rw [cleared.1.2, Nat.zero_mod]; rfl
      rowcounter := fun _ => by rw [cleared.1.1, Nat.zero_div]; rfl }

/-- The frame counter in a frame. -/
def frameCount (cfg : CameraCfg) (number : Nat) : BitVec 6 :=
  if cfg.framedropEn then BitVec.ofNat 6 (number % (cfg.framedropVal.toNat + 1)) else 0

theorem frameCount_beq_zero (number : Nat) : (frameCount cfg number == 0) = keeps cfg number := by
  rw [frameCount, keeps]
  cases cfg.framedropEn with
  | false => rfl
  | true =>
      have small : number % (cfg.framedropVal.toNat + 1) < 2 ^ 6 :=
        (Nat.mod_lt _ (Nat.succ_pos _)).trans_le cfg.framedropVal.isLt
      exact ofNat_beq_ofNat small (Nat.two_pow_pos 6)

theorem InFrame.waits {level : Bool} {number frameNumber : Nat}
    (inFrame : InFrame cfg level number (frameCount cfg frameNumber) cam) :
    Waits cfg level (frameCount cfg (frameNumber + 1)) cam where
  enSync0 := inFrame.enSync0
  enSync1 := inFrame.enSync1
  vsync := inFrame.vsync
  framecounter := by
    rw [inFrame.enable, if_pos rfl, CameraIf.framecounterNext, inFrame.framecounter]
    cases drops : cfg.framedropEn with
    | false =>
        rw [frameCount, frameCount, drops]
        rfl
    | true =>
        have val : cfg.framedropVal = BitVec.ofNat 6 (cfg.framedropVal.toNat + 1 - 1) := by
          rw [Nat.add_sub_cancel, BitVec.ofNat_toNat, BitVec.setWidth_eq]
        have next := @wraps_next frameNumber _ 6
          (Nat.succ_pos cfg.framedropVal.toNat) cfg.framedropVal.isLt
        rw [← val] at next
        rw [frameCount, frameCount, drops]
        exact next

theorem keptPixels_cons (pixels : List PixelBytes) (frames : List (List PixelBytes))
    (number : Nat) :
    keptPixels cfg (pixels :: frames) number =
      (if keeps cfg number then windowPixels cfg pixels 0 else []) ++
        keptPixels cfg frames (number + 1) := by
  rw [keptPixels, List.zipIdx_cons, List.flatMap_cons]
  rfl

theorem entered_frames (enabled : cfg.en = true) {level : Bool} {cycles : List CamCycle}
    {frames : List (List PixelBytes)} (carried : Frames cfg level cycles frames) {number : Nat}
    {cam : CameraIf} (waits : Waits cfg level (frameCount cfg number) cam)
    (fits : RowsFit cfg frames) :
    entered cfg cam cycles = keptPixels cfg frames number := by
  induction carried generalizing number cam with
  | ends => rfl
  | @frame _ _ start body rest pixels frames starts blank carries _ ih =>
      have inFrame := waits.start enabled starts blank
      obtain ⟨bodyEnters, next⟩ := entered_body enabled carries inFrame fun slices => by
        rw [Nat.zero_add]
        exact fits slices pixels List.mem_cons_self
      have later := ih next.waits fun slices pixels member =>
        fits slices pixels (List.mem_cons_of_mem _ member)
      rw [entered, Machine.observedFrom, enters_of_blank blank, List.nil_append]
      change entered cfg (cam.step cfg start) (body ++ rest) = _
      rw [entered_append, bodyEnters, later, frameCount_beq_zero, keptPixels_cons]

/-! ## Sessions -/

/-- The interface has been enabled and has not yet seen the start of a frame. -/
structure Armed (level : Bool) (frame : BitVec 6) (cam : CameraIf) : Prop where
  enSync0 : cam.rEnSync0 = true
  enSync1 : cam.rEnSync1 = true
  vsync : cam.rVsync = level
  enable : cam.rEnable = false
  framecounter : cam.rFramecounter = frame

theorem Armed.waits {level : Bool} {frame : BitVec 6} (armed : Armed level frame cam) :
    Waits cfg level frame cam where
  enSync0 := armed.enSync0
  enSync1 := armed.enSync1
  vsync := armed.vsync
  framecounter := by
    rw [armed.enable]
    exact armed.framecounter

theorem Armed.quiet {level : Bool} {frame : BitVec 6} (armed : Armed level frame cam)
    (enabled : cfg.en = true) {cycle : CamCycle} (quiet : rises cfg level cycle = false) :
    Armed (cfg.camVsync cycle.vsync) frame (cam.step cfg cycle) := by
  obtain ⟨enable, framecounter, -⟩ :=
    step_quiet armed.enSync1 ((sof_eq armed.vsync).trans quiet)
  exact
    { enSync0 := enabled
      enSync1 := armed.enSync0
      vsync := step_vsync armed.enSync1
      enable := enable.trans armed.enable
      framecounter := framecounter.trans armed.framecounter }

theorem txValid_of_not_enable (enable : cam.rEnable = false) {cycle : CamCycle} :
    cam.txValid cfg cycle = false := by
  rw [CameraIf.txValid, CameraIf.pixelValid, enable, Bool.and_false, Bool.false_and,
    Bool.and_false, Bool.false_and]

theorem enters_of_not_enable (enable : cam.rEnable = false) (cycle : CamCycle) :
    enters cfg cam cycle = [] := by
  rw [enters, txValid_of_not_enable enable]
  rfl

/-- The level before a session matters for its first cycle only. -/
theorem Session.congr {level other : Bool} {cycles : List CamCycle}
    {frames : List (List PixelBytes)} (session : Session cfg level cycles frames)
    (same : ∀ first ∈ cycles.head?, rises cfg other first = rises cfg level first) :
    Session cfg other cycles frames := by
  cases session with
  | frames carried =>
      cases carried with
      | ends => exact .frames .ends
      | frame starts blank carries rest =>
          exact .frames (.frame ((same _ rfl).trans starts) blank carries rest)
  | leadIn quiet rest => exact .leadIn ((same _ rfl).trans quiet) rest

theorem entered_session (enabled : cfg.en = true) {level : Bool} {cycles : List CamCycle}
    {frames : List (List PixelBytes)} (session : Session cfg level cycles frames) {number : Nat}
    {cam : CameraIf} (armed : Armed level (frameCount cfg number) cam)
    (fits : RowsFit cfg frames) :
    entered cfg cam cycles = keptPixels cfg frames number := by
  induction session generalizing cam with
  | frames carried => exact entered_frames enabled carried armed.waits fits
  | leadIn quiet _ ih =>
      rw [entered, Machine.observedFrom, enters_of_not_enable armed.enable, List.nil_append]
      exact ih (armed.quiet enabled quiet) fits

theorem framecounter_kept (enable : cam.rEnable = false) (cycle : CamCycle) :
    (cam.step cfg cycle).rFramecounter = cam.rFramecounter := by
  change (if cam.sof cfg cycle && cam.rEnable then _ else _) = _
  rw [enable, Bool.and_false]
  rfl

theorem Off.enable_step (off : Off cam) (cycle : CamCycle) :
    (cam.step cfg cycle).rEnable = false := by
  rw [CameraIf.step, off.enSync1, off.enable]
  exact ite_self _

/-- Enabling takes two cycles, in which the counter and `r_vsync` keep their values. -/
theorem Off.armed (off : Off cam) (enabled : cfg.en = true) (first second : CamCycle) :
    Armed cam.rVsync cam.rFramecounter ((cam.step cfg first).step cfg second) := by
  have enable : (cam.step cfg first).rEnable = false := off.enable_step first
  have enSync1 : (cam.step cfg first).rEnSync1 = false := off.enSync0
  exact
    { enSync0 := enabled
      enSync1 := enabled
      vsync := (if_neg (ne_true_of_eq_false enSync1)).trans
        (if_neg (ne_true_of_eq_false off.enSync1))
      enable := by
        rw [CameraIf.step, enSync1, enable]
        exact ite_self _
      framecounter := (framecounter_kept enable second).trans (framecounter_kept off.enable first) }

theorem Off.held (off : Off cam) : held cfg cam = [] := by
  rw [Camera.held, off.udmaTxValid, off.dataFilterValid, off.yuvDataValid, off.txValid]
  rfl

theorem Off.oneWay (off : Off cam) : OneWay cfg cam where
  bypass _ := ⟨off.txValid, off.dataFilterValid⟩
  colour _ := off.yuvDataValid

theorem frameCount_of_inRange (counter : CounterInRange cfg cam) :
    frameCount cfg cam.rFramecounter.toNat = cam.rFramecounter := by
  rw [CounterInRange] at counter
  rw [frameCount]
  cases drops : cfg.framedropEn with
  | false =>
      rw [drops] at counter
      exact (BitVec.eq_of_toNat_eq (Nat.le_zero.mp counter)).symm
  | true =>
      rw [drops, if_pos rfl] at counter
      rw [if_pos rfl, Nat.mod_eq_of_lt (Nat.lt_succ_of_le counter), BitVec.ofNat_toNat,
        BitVec.setWidth_eq]

/-- The counter stays in range as long as the configuration is the same. -/
theorem CounterInRange.step (counter : CounterInRange cfg cam) (cycle : CamCycle) :
    CounterInRange cfg (cam.step cfg cycle) := by
  rw [CounterInRange] at counter ⊢
  change BitVec.toNat (if cam.sof cfg cycle && cam.rEnable then _ else _) ≤ _
  cases cam.sof cfg cycle && cam.rEnable with
  | false => exact counter
  | true =>
      rw [if_pos rfl, CameraIf.framecounterNext]
      cases drops : cfg.framedropEn with
      | false => exact Nat.le_refl 0
      | true =>
          rw [drops, if_pos rfl] at counter
          rw [if_pos rfl, if_pos rfl]
          cases last : cam.rFramecounter == cfg.framedropVal with
          | true => exact Nat.zero_le _
          | false =>
              have differs : cam.rFramecounter.toNat ≠ cfg.framedropVal.toNat := fun same =>
                ne_of_beq_false last (BitVec.eq_of_toNat_eq same)
              have below := Nat.lt_of_le_of_ne counter differs
              have small := cfg.framedropVal.isLt
              rw [if_neg Bool.false_ne_true, BitVec.toNat_add, Nat.mod_eq_of_lt]
              · exact below
              · exact Nat.lt_of_le_of_lt below small

theorem CounterInRange.runFrom (counter : CounterInRange cfg cam) (cycles : List CamCycle) :
    CounterInRange cfg ((cameraMachine cfg).runFrom cam cycles) := by
  induction cycles generalizing cam with
  | nil => exact counter
  | cons cycle cycles ih => exact ih (counter.step cycle)

/-- The registers after some cycles with their own configurations. -/
def CameraIf.runWith (cam : CameraIf) (cycles : List (CameraCfg × CamCycle)) : CameraIf :=
  cycles.foldl (fun cam (cfg, cycle) => cam.step cfg cycle) cam

/-- The interface has been disabled for some cycles. -/
structure OffFor (count : Nat) (cam : CameraIf) : Prop where
  enSync0 : 1 ≤ count → cam.rEnSync0 = false
  enSync1 : 2 ≤ count → cam.rEnSync1 = false
  enable : 3 ≤ count → cam.rEnable = false
  txValid : 4 ≤ count → cam.rTxValid = false
  yuvDataValid : 4 ≤ count → cam.rYuvDataValid = false
  dataFilterValid : 5 ≤ count → cam.rDataFilterValid = false
  udmaTxValid : 6 ≤ count → cam.udmaTxValid = false

theorem OffFor.step {count : Nat} (off : OffFor count cam) (disabled : cfg.en = false)
    (cycle : CamCycle) : OffFor (count + 1) (cam.step cfg cycle) where
  enSync0 _ := disabled
  enSync1 many := off.enSync0 (Nat.le_of_succ_le_succ many)
  enable many := by
    rw [CameraIf.step, off.enSync1 (Nat.le_of_succ_le_succ many), Bool.not_false, Bool.or_true]
    rfl
  txValid many := by
    rw [CameraIf.step, txValid_of_not_enable (off.enable (Nat.le_of_succ_le_succ many))]
    rfl
  yuvDataValid many := by
    rw [CameraIf.step, txValid_of_not_enable (off.enable (Nat.le_of_succ_le_succ many))]
    rfl
  dataFilterValid many := off.txValid (Nat.le_of_succ_le_succ many)
  udmaTxValid many := by
    have many := Nat.le_of_succ_le_succ many
    rw [CameraIf.step, off.dataFilterValid many, off.yuvDataValid (Nat.le_of_succ_le many)]
    rfl

theorem OffFor.runWith {count : Nat} (off : OffFor count cam)
    {cycles : List (CameraCfg × CamCycle)} (disabled : ∀ cycle ∈ cycles, cycle.1.en = false) :
    OffFor (count + cycles.length) (cam.runWith cycles) := by
  induction cycles generalizing count cam with
  | nil => exact off
  | cons cycle cycles ih =>
      have first := off.step (disabled cycle List.mem_cons_self) cycle.2
      have later := ih first fun cycle member => disabled cycle (List.mem_cons_of_mem _ member)
      rw [List.length_cons, Nat.add_comm cycles.length, ← Nat.add_assoc]
      exact later

/-- The interface is off six cycles after it has been disabled, in whatever state it was. -/
theorem Off.of_disabled (cam : CameraIf) {cycles : List (CameraCfg × CamCycle)}
    (disabled : ∀ cycle ∈ cycles, cycle.1.en = false) (six : 6 ≤ cycles.length) :
    Off (cam.runWith cycles) := by
  have start : OffFor 0 cam :=
    ⟨nofun, nofun, nofun, nofun, nofun, nofun, nofun⟩
  have off := start.runWith disabled
  rw [Nat.zero_add] at off
  exact
    { enSync0 := off.enSync0 (by omega)
      enSync1 := off.enSync1 (by omega)
      enable := off.enable (by omega)
      txValid := off.txValid (by omega)
      yuvDataValid := off.yuvDataValid (by omega)
      dataFilterValid := off.dataFilterValid (by omega)
      udmaTxValid := off.udmaTxValid six }

theorem Off.reset : Off .reset := ⟨rfl, rfl, rfl, rfl, rfl, rfl, rfl⟩

/-- Nothing enters while the interface is enabled and in cycles without the horizontal sync. -/
theorem entered_run (off : Off cam) (enabled : cfg.en = true) {sync0 sync1 : CamCycle}
    {cycles : List CamCycle} {frames : List (List PixelBytes)}
    (session : Session cfg (cfg.camVsync sync1.vsync) cycles frames)
    (counter : CounterInRange cfg cam) (edge : FirstEdge cfg cam sync1 cycles)
    (fits : RowsFit cfg frames) {drain0 drain1 drain2 : CamCycle} (blank0 : drain0.hsync = false)
    (blank1 : drain1.hsync = false) (blank2 : drain2.hsync = false) :
    entered cfg cam (sync0 :: sync1 :: (cycles ++ [drain0, drain1, drain2])) =
      keptPixels cfg frames cam.rFramecounter.toNat := by
  have armed := off.armed enabled sync0 sync1
  rw [← frameCount_of_inRange counter] at armed
  have syncing : (cam.step cfg sync0).rEnable = false := off.enable_step sync0
  have drained : ∀ cam, entered cfg cam [drain0, drain1, drain2] = [] := by
    intro cam
    rw [entered, Machine.observedFrom, Machine.observedFrom, Machine.observedFrom,
      enters_of_blank blank0, enters_of_blank blank1, enters_of_blank blank2]
    rfl
  rw [entered, Machine.observedFrom, Machine.observedFrom, enters_of_not_enable off.enable,
    List.nil_append]
  change enters cfg (cam.step cfg sync0) sync1 ++ _ = _
  rw [enters_of_not_enable syncing, List.nil_append]
  change entered cfg ((cam.step cfg sync0).step cfg sync1) _ = _
  rw [entered_append, drained, List.append_nil,
    entered_session enabled (session.congr edge) armed fits]

/-- The pixels that are offered are those in the window of the frames that are kept, if the frame
counter is in range when the interface is enabled, `r_vsync` does not hide or feign an edge, and
no frame is too long.  The counter is in range afterwards. -/
theorem offers_kept (off : Off cam) (enabled : cfg.en = true) {sync0 sync1 : CamCycle}
    {cycles : List CamCycle} {frames : List (List PixelBytes)}
    (session : Session cfg (cfg.camVsync sync1.vsync) cycles frames)
    (counter : CounterInRange cfg cam) (edge : FirstEdge cfg cam sync1 cycles)
    (fits : RowsFit cfg frames) {drain0 drain1 drain2 : CamCycle} (blank0 : drain0.hsync = false)
    (blank1 : drain1.hsync = false) (blank2 : drain2.hsync = false) :
    (cameraMachine cfg).observedFrom (offers cfg) cam
        (sync0 :: sync1 :: (cycles ++ [drain0, drain1, drain2])) =
      keptPixels cfg frames cam.rFramecounter.toNat ∧
    CounterInRange cfg ((cameraMachine cfg).runFrom cam
      (sync0 :: sync1 :: (cycles ++ [drain0, drain1, drain2]))) := by
  have kept : entered cfg cam (sync0 :: sync1 :: (cycles ++ [drain0, drain1, drain2])) = _ :=
    entered_run off enabled session counter edge fits blank0 blank1 blank2
  have keeps : ∀ cam cycle, OneWay cfg cam → OneWay cfg ((cameraMachine cfg).step cam cycle) :=
    fun _ cycle oneWay => oneWay.step cycle
  have moves : ∀ cam cycle, OneWay cfg cam → held cfg cam ++ enters cfg cam cycle =
      offers cfg cam cycle ++ held cfg ((cameraMachine cfg).step cam cycle) :=
    fun _ cycle oneWay => held_step enabled oneWay cycle
  have conserved := (cameraMachine cfg).conserved keeps moves off.oneWay
    (sync0 :: sync1 :: (cycles ++ [drain0, drain1, drain2]))
  have emptied : held cfg
      ((cameraMachine cfg).runFrom cam
        (sync0 :: sync1 :: (cycles ++ [drain0, drain1, drain2]))) = [] := by
    rw [← List.cons_append, ← List.cons_append, Machine.runFrom_append]
    exact held_drained blank0 blank1 blank2
  rw [off.held, List.nil_append, emptied, List.append_nil] at conserved
  exact ⟨conserved.symm.trans kept, counter.runFrom _⟩

section Examples

/-- A camera that offers the words of the pixels, with the given low bits of the configuration
register and rows of two pixels. -/
def wordsCfg (glob : BitVec 32) : CameraCfg where
  glob := 0x80000400#32 ||| glob
  ll := 0x00000001#32
  ur := 0x00010001#32
  filter := 0
  size := 0x00010000#32
  vsyncPolarity := false

def byte (data : BitVec 8) : CamCycle := ⟨data, true, false⟩

def gap : CamCycle := ⟨0, false, false⟩

def sync : CamCycle := ⟨0, false, true⟩

/-- Three frames of two pixels a row. -/
def threeFrames : List CamCycle :=
  [gap, sync, byte 1, byte 2, byte 3, byte 4, gap, byte 5, byte 6, byte 7, byte 8, sync, byte 9,
    byte 9, byte 9, byte 9, gap, sync, gap, byte 1, byte 1, byte 2, byte 2]

theorem threeFrames_session (glob : BitVec 32) :
    Session (wordsCfg glob) false threeFrames
      [[⟨1, 2⟩, ⟨3, 4⟩, ⟨5, 6⟩, ⟨7, 8⟩], [⟨9, 9⟩, ⟨9, 9⟩], [⟨1, 1⟩, ⟨2, 2⟩]] :=
  .leadIn rfl <| .frames <|
    .frame rfl rfl
      (.pixel rfl rfl rfl rfl <| .pixel rfl rfl rfl rfl <| .blank rfl rfl <|
        .pixel rfl rfl rfl rfl <| .pixel rfl rfl rfl rfl .ends) <|
    .frame rfl rfl
      (.pixel rfl rfl rfl rfl <| .pixel rfl rfl rfl rfl <| .blank rfl rfl .ends) <|
    .frame rfl rfl
      (.blank rfl rfl <| .pixel rfl rfl rfl rfl <| .pixel rfl rfl rfl rfl .ends) .ends

/-- Every other frame is dropped, and the second column of the others is offered. -/
theorem everyOther_offered :
    (cameraMachine (wordsCfg 0x83#32)).observedFrom (offers (wordsCfg 0x83#32)) .reset
        (gap :: gap :: (threeFrames ++ [gap, gap, gap])) =
      [0x0304#16, 0x0708#16, 0x0202#16] :=
  (offers_kept .reset rfl (threeFrames_session 0x83#32) (by decide) (by decide) (by decide) rfl rfl
    rfl).1.trans (by decide +kernel)

/-- The second frame begins when the interface is disabled. -/
def stopped : CameraIf :=
  ((cameraMachine (wordsCfg 0x03#32)).run [gap, gap, sync, gap, sync, gap]).runWith
    (List.replicate 6 ({ wordsCfg 0 with glob := 0 }, gap))

/-- The frame counter of a frame that was dropped drops a frame when no frames are dropped any
more. -/
theorem counterKept_not_offered :
    Off stopped ∧ Session (wordsCfg 0) (CameraCfg.camVsync (wordsCfg 0) gap.vsync)
        [sync, byte 1, byte 2] [[⟨1, 2⟩]] ∧
      ∀ number, (cameraMachine (wordsCfg 0)).observedFrom (offers (wordsCfg 0)) stopped
          (gap :: gap :: ([sync, byte 1, byte 2] ++ [gap, gap, gap])) ≠
        keptPixels (wordsCfg 0) [[⟨1, 2⟩]] number := by
  refine ⟨?_, ?_, fun number => ?_⟩
  · exact .of_disabled _ (by decide +kernel) (by decide)
  · exact .frames (.frame rfl rfl (.pixel rfl rfl rfl rfl .ends) .ends)
  · have nothing : (cameraMachine (wordsCfg 0)).observedFrom (offers (wordsCfg 0)) stopped
        (gap :: gap :: ([sync, byte 1, byte 2] ++ [gap, gap, gap])) = [] := by decide +kernel
    have kept : keptPixels (wordsCfg 0) [[⟨1, 2⟩]] number = [0x0102#16] := rfl
    rw [nothing, kept]
    exact (List.cons_ne_nil _ _).symm

end Examples

end CoreVMcu.Camera
