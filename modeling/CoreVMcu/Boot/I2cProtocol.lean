import CoreVMcu.Boot.Crc
import Mathlib.Data.List.GetD
import Mathlib.Data.List.Induction

/-!
# The I2C boot loader

`processI2CProtocolFrames` drains the FIFO of the I2C slave to a buffer and parses the buffer
as a frame.  Three lengths meet there: the number of bytes drained, the length in the frame and
the size of the buffer.
-/

namespace CoreVMcu.Boot

/-- The bytes from the start of `gsI2CProtocolFrameRxBuf` on, with what is around it. -/
abbrev RxBytes := Int → BitVec 8

namespace I2cFrame

variable (aBuf : RxBytes)

def sof : BitVec 16 := aBuf 1 ++ aBuf 0

def a2RamAddress : BitVec 32 := aBuf 5 ++ aBuf 4 ++ aBuf 3 ++ aBuf 2

def cmdType : BitVec 8 := aBuf 6

def dataLen : BitVec 8 := aBuf 7

/-- `Data[k]`. -/
def data (k : Nat) : BitVec 8 := aBuf (8 + k)

end I2cFrame

/-- What a frame makes the loader do: the offsets that it reads and writes in the buffer, what
it stores in the memory, the messages to the master and the jump. -/
structure I2cEffect where
  reads : List Int
  writes : List Int
  stores : List (BitVec 32 × BitVec 8)
  messages : List (BitVec 8)
  jumpedTo : Option (BitVec 32)

/-- `gsI2CProtocolFrameRxBuf`, `gUseCRCFlg` and the table of `crc.c`, with the flags that stop
the loader over the UART. -/
structure I2cBoot where
  rxBuf : RxBytes
  gUseCRCFlg : BitVec 8
  crcTable : BitVec 8 → BitVec 16
  gStopUartMsgFlg : BitVec 8
  gStopUartBootLoaderFlg : BitVec 8

/-- What a call reads from the slave: its status, its message three times, and the FIFO until
its flags are zero. -/
structure I2csReads where
  status : BitVec 8
  firstMsg : BitVec 8
  secondMsg : BitVec 8
  thirdMsg : BitVec 8
  fifo : List (BitVec 8)

/-- Some successive offsets. -/
def offsets (first : Int) (count : Nat) : List Int :=
  (List.range count).map fun k : Nat => first + k

namespace I2cBoot

variable (boot : I2cBoot)

/-- `I2CProtocolFrameCalChksum`. -/
def calChksum (cbuf : RxBytes) (pktSize : BitVec 16) : BitVec 16 :=
  CrcName.ccitt.standard.crcFast boot.crcTable ((offsets 0 pktSize.toNat).map cbuf)

/-- What is done with a frame that starts with `HOST_TO_A2_FRAME_HEADER`. -/
def command (aBuf : RxBytes) : I2cEffect :=
  if I2cFrame.cmdType aBuf = 0x24 then
    { reads := [6, 2, 3, 4, 5, 7] ++ offsets 8 (I2cFrame.dataLen aBuf).toNat
      writes := []
      stores := (List.range (I2cFrame.dataLen aBuf).toNat).map fun k =>
        (I2cFrame.a2RamAddress aBuf + BitVec.ofNat 32 k, I2cFrame.data aBuf k)
      messages := if boot.gUseCRCFlg = 1 then [0x31] else []
      jumpedTo := none }
  else if I2cFrame.cmdType aBuf = 0x26 then
    -- the jump does not return, so that no message is sent
    { reads := [6, 2, 3, 4, 5], writes := [], stores := [], messages := []
      jumpedTo := some (I2cFrame.a2RamAddress aBuf) }
  else
    { reads := [6], writes := [], stores := []
      messages := if boot.gUseCRCFlg = 1 then [0x31] else []
      jumpedTo := none }

/-- `parseI2CProtocolFrame`. -/
def parseI2CProtocolFrame (aBuf : RxBytes) (aLen : BitVec 16) : I2cEffect :=
  let ui16Crc := if boot.gUseCRCFlg = 1 then boot.calChksum aBuf (aLen - 2) else 0
  let lRxdCrc : BitVec 16 :=
    if boot.gUseCRCFlg = 1 then aBuf (aLen.toNat - 2) ++ aBuf (aLen.toNat - 1) else 0
  let crcReads : List Int :=
    if boot.gUseCRCFlg = 1 then
      offsets 0 (aLen - 2).toNat ++ [(aLen.toNat : Int) - 1, (aLen.toNat : Int) - 2]
    else []
  if lRxdCrc = ui16Crc then
    if I2cFrame.sof aBuf = 0xA507 then
      { boot.command aBuf with reads := crcReads ++ [0, 1] ++ (boot.command aBuf).reads }
    else
      { reads := crcReads ++ [0, 1], writes := [], stores := [], messages := [], jumpedTo := none }
  else
    { reads := crcReads, writes := [], stores := []
      messages := if boot.gUseCRCFlg = 1 then [0x30] else []
      jumpedTo := none }

/-- The loop that drains the FIFO: the buffer, `i` and the offsets that were written. -/
def drain (buffer : RxBytes) (fifo : List (BitVec 8)) : RxBytes × BitVec 16 × List Int :=
  fifo.foldl
    (fun (drained : RxBytes × BitVec 16 × List Int) byte =>
      (Function.update drained.1 drained.2.1.toNat byte, drained.2.1 + 1,
        drained.2.2 ++ [(drained.2.1.toNat : Int)]))
    (buffer, 0, [])

/-- A new frame. -/
def receiveFrame (fifo : List (BitVec 8)) : I2cBoot × I2cEffect :=
  let (rxBuf, i, writes) := drain boot.rxBuf fifo
  ({ boot with rxBuf := rxBuf }, { boot.parseI2CProtocolFrame rxBuf i with writes := writes })

/-- No effect but a message. -/
def answer (messages : List (BitVec 8)) : I2cEffect :=
  { reads := [], writes := [], stores := [], messages := messages, jumpedTo := none }

def processI2CProtocolFrames (i2cs : I2csReads) : I2cBoot × I2cEffect :=
  if i2cs.status ≠ 0 then
    let stopped := { boot with gStopUartMsgFlg := 1, gStopUartBootLoaderFlg := 1 }
    if i2cs.firstMsg = 0x19 then ({ stopped with gUseCRCFlg := 0 }, answer [0x21])
    else if i2cs.secondMsg = 0x20 then ({ stopped with gUseCRCFlg := 1 }, answer [0x21])
    else if i2cs.thirdMsg = 0x23 then stopped.receiveFrame i2cs.fifo
    else (stopped, answer [])
  else (boot, answer [])

end I2cBoot

/-- A frame as the bytes of a buffer. -/
def inBuffer (frame : List (BitVec 8)) : RxBytes := fun offset => frame.getD offset.toNat 0

/-- The check of `crc.h`, a bit at a time. -/
def checkOf (message : List (BitVec 8)) : BitVec 16 := CrcName.ccitt.standard.crcSlow message

/-- The last two bytes of a frame are the check of the others, the higher one first. -/
def CrcCorrect (frame : List (BitVec 8)) : Prop :=
  frame.getD (frame.length - 2) 0 ++ frame.getD (frame.length - 1) 0 =
    checkOf (frame.take (frame.length - 2))

/-- The header is there, and the length is that of the header, the data and the check. -/
structure Complete (frame : List (BitVec 8)) : Prop where
  header : 8 ≤ frame.length
  sof : I2cFrame.sof (inBuffer frame) = 0xA507
  length : frame.length = 8 + (I2cFrame.dataLen (inBuffer frame)).toNat + 2

/-- What the loader does with a frame is safe: it copies the data of complete and correct frames
only, and it stays in the frame and in the buffer. -/
structure FrameSafe (frame : List (BitVec 8)) (effect : I2cEffect) : Prop where
  copied : effect.stores ≠ [] → Complete frame ∧ CrcCorrect frame ∧
    effect.stores = (List.range (I2cFrame.dataLen (inBuffer frame)).toNat).map fun k =>
      (I2cFrame.a2RamAddress (inBuffer frame) + BitVec.ofNat 32 k, frame.getD (8 + k) 0)
  reads : ∀ offset ∈ effect.reads, 0 ≤ offset ∧ offset < frame.length
  writes : ∀ offset ∈ effect.writes, 0 ≤ offset ∧ offset < 256

/-- A frame that the buffer holds, with a check, and if this is right with the command and, for
a load, with as much data as it says. -/
structure Handled (frame : List (BitVec 8)) : Prop where
  check : 2 ≤ frame.length
  fits : frame.length ≤ 256
  command : CrcCorrect frame → I2cFrame.sof (inBuffer frame) = 0xA507 → 7 ≤ frame.length
  load : CrcCorrect frame → I2cFrame.sof (inBuffer frame) = 0xA507 →
    I2cFrame.cmdType (inBuffer frame) = 0x24 → 8 ≤ frame.length ∧
      (I2cFrame.dataLen (inBuffer frame) = 0 ∨
        frame.length = 8 + (I2cFrame.dataLen (inBuffer frame)).toNat + 2)

namespace I2cBoot

theorem drain_snoc (buffer : RxBytes) (fifo : List (BitVec 8)) (byte : BitVec 8) :
    drain buffer (fifo ++ [byte]) =
      (Function.update (drain buffer fifo).1 (drain buffer fifo).2.1.toNat byte,
        (drain buffer fifo).2.1 + 1,
        (drain buffer fifo).2.2 ++ [((drain buffer fifo).2.1.toNat : Int)]) := by
  rw [drain, List.foldl_append]
  rfl

theorem drain_index (buffer : RxBytes) (fifo : List (BitVec 8)) :
    (drain buffer fifo).2.1 = BitVec.ofNat 16 fifo.length := by
  induction fifo using List.reverseRecOn with
  | nil => rfl
  | append_singleton fifo byte inductionHypothesis =>
      rw [drain_snoc, inductionHypothesis, List.length_append, List.length_singleton,
        BitVec.ofNat_add]
      rfl

theorem mem_drain_writes (buffer : RxBytes) (fifo : List (BitVec 8)) (offset : Int) :
    offset ∈ (drain buffer fifo).2.2 ↔ ∃ k < fifo.length, offset = (k % 2 ^ 16 : Nat) := by
  induction fifo using List.reverseRecOn with
  | nil => simp [drain]
  | append_singleton fifo byte inductionHypothesis =>
      rw [drain_snoc, List.mem_append, inductionHypothesis, List.mem_singleton, drain_index,
        BitVec.toNat_ofNat, List.length_append, List.length_singleton]
      constructor
      · rintro (⟨k, before, same⟩ | same)
        · exact ⟨k, Nat.lt_succ_of_lt before, same⟩
        · exact ⟨fifo.length, Nat.lt_succ_self _, same⟩
      · rintro ⟨k, before, same⟩
        rcases Nat.lt_succ_iff_lt_or_eq.mp before with before | rfl
        · exact Or.inl ⟨k, before, same⟩
        · exact Or.inr same

/-- The buffer starts with a frame that fits. -/
theorem drain_apply (buffer : RxBytes) {fifo : List (BitVec 8)} (fits : fifo.length < 2 ^ 16)
    {k : Nat} (inside : k < fifo.length) : (drain buffer fifo).1 k = inBuffer fifo k := by
  induction fifo using List.reverseRecOn with
  | nil => exact absurd inside (Nat.not_lt_zero k)
  | append_singleton fifo byte inductionHypothesis =>
      rw [List.length_append, List.length_singleton] at fits inside
      rw [drain_snoc, drain_index, BitVec.toNat_ofNat, Nat.mod_eq_of_lt (by omega)]
      simp only [inBuffer, Int.toNat_natCast]
      rcases Nat.lt_succ_iff_lt_or_eq.mp inside with before | rfl
      · have other : (k : Int) ≠ fifo.length := by omega
        rw [Function.update_of_ne other, inductionHypothesis (by omega) before, inBuffer,
          Int.toNat_natCast, List.getD_append _ _ _ _ before]
      · rw [Function.update_self, List.getD_append_right _ _ _ _ le_rfl, Nat.sub_self]
        rfl

/-! ## The check -/

/-- The loader with the check enabled and its table filled. -/
def withCrc (boot : I2cBoot) : I2cBoot :=
  { boot with gUseCRCFlg := 1, crcTable := CrcName.ccitt.standard.crcInit boot.crcTable }

theorem mem_offsets {first offset : Int} {count : Nat} :
    offset ∈ offsets first count ↔ first ≤ offset ∧ offset < first + count := by
  rw [offsets, List.mem_map]
  constructor
  · rintro ⟨k, inside, rfl⟩
    have below := List.mem_range.mp inside
    omega
  · rintro ⟨above, below⟩
    exact ⟨(offset - first).toNat, List.mem_range.mpr (by omega), by omega⟩

/-- The offsets that are read for the check. -/
def crcReads (aLen : BitVec 16) : List Int :=
  offsets 0 (aLen - 2).toNat ++ [(aLen.toNat : Int) - 1, (aLen.toNat : Int) - 2]

section Frame

variable (boot : I2cBoot) {frame : List (BitVec 8)}

theorem map_drain (small : frame.length < 2 ^ 16) {count : Nat} (inside : count ≤ frame.length) :
    (offsets 0 count).map (drain boot.rxBuf frame).1 = frame.take count := by
  apply List.ext_getElem
  · simp [offsets, inside]
  · intro k _ below
    rw [List.length_take] at below
    have stored : k < frame.length := by omega
    have byte := drain_apply boot.rxBuf small stored
    simp only [offsets, List.map_map, List.getElem_map, List.getElem_range, Function.comp_apply,
      Int.zero_add, List.getElem_take]
    rw [byte, inBuffer, Int.toNat_natCast, List.getD_eq_getElem _ _ stored]

theorem toNat_drain_index (small : frame.length < 2 ^ 16) :
    (drain boot.rxBuf frame).2.1.toNat = frame.length := by
  rw [drain_index, BitVec.toNat_ofNat, Nat.mod_eq_of_lt small]

theorem toNat_checked (small : frame.length < 2 ^ 16) (check : 2 ≤ frame.length) :
    ((drain boot.rxBuf frame).2.1 - 2).toNat = frame.length - 2 := by
  have index := boot.toNat_drain_index small
  bv_omega

theorem calChksum_withCrc (cbuf : RxBytes) (pktSize : BitVec 16) :
    boot.withCrc.calChksum cbuf pktSize = checkOf ((offsets 0 pktSize.toNat).map cbuf) := by
  unfold calChksum withCrc checkOf
  simp only
  rw [CrcStandard.crcFast_crcInit]

theorem calChksum_eq (small : frame.length < 2 ^ 16) (check : 2 ≤ frame.length) :
    boot.withCrc.calChksum (drain boot.rxBuf frame).1 ((drain boot.rxBuf frame).2.1 - 2) =
      checkOf (frame.take (frame.length - 2)) := by
  rw [calChksum_withCrc, boot.toNat_checked small check, boot.map_drain small (Nat.sub_le _ _)]

/-- The received check is compared with that of the frame. -/
theorem check_iff (small : frame.length < 2 ^ 16) (check : 2 ≤ frame.length) :
    (drain boot.rxBuf frame).1 ((drain boot.rxBuf frame).2.1.toNat - 2) ++
        (drain boot.rxBuf frame).1 ((drain boot.rxBuf frame).2.1.toNat - 1) =
      boot.withCrc.calChksum (drain boot.rxBuf frame).1 ((drain boot.rxBuf frame).2.1 - 2) ↔
    CrcCorrect frame := by
  have high := drain_apply boot.rxBuf small (Nat.sub_lt (by omega) Nat.zero_lt_two)
  have low := drain_apply boot.rxBuf small (Nat.sub_lt (by omega) Nat.one_pos)
  rw [Nat.cast_sub (by omega)] at high low
  rw [boot.calChksum_eq small check, boot.toNat_drain_index small, CrcCorrect]
  rw [Nat.cast_ofNat] at high
  rw [Nat.cast_one] at low
  rw [high, low, inBuffer, inBuffer,
    show ((frame.length : Int) - 2).toNat = frame.length - 2 by omega,
    show ((frame.length : Int) - 1).toNat = frame.length - 1 by omega]

theorem sof_drain (small : frame.length < 2 ^ 16) (check : 2 ≤ frame.length) :
    I2cFrame.sof (drain boot.rxBuf frame).1 = I2cFrame.sof (inBuffer frame) := by
  have byte (k : Nat) (inside : k < 2) := drain_apply boot.rxBuf small (inside.trans_le check)
  rw [I2cFrame.sof, I2cFrame.sof]
  congr 1
  · exact byte 1 (by decide)
  · exact byte 0 (by decide)

theorem cmdType_drain (small : frame.length < 2 ^ 16) (command : 7 ≤ frame.length) :
    I2cFrame.cmdType (drain boot.rxBuf frame).1 = I2cFrame.cmdType (inBuffer frame) :=
  drain_apply boot.rxBuf small command

theorem dataLen_drain (small : frame.length < 2 ^ 16) (header : 8 ≤ frame.length) :
    I2cFrame.dataLen (drain boot.rxBuf frame).1 = I2cFrame.dataLen (inBuffer frame) :=
  drain_apply boot.rxBuf small header

theorem a2RamAddress_drain (small : frame.length < 2 ^ 16) (header : 8 ≤ frame.length) :
    I2cFrame.a2RamAddress (drain boot.rxBuf frame).1 =
      I2cFrame.a2RamAddress (inBuffer frame) := by
  have byte (k : Nat) (inside : k < 8) := drain_apply boot.rxBuf small (inside.trans_le header)
  rw [I2cFrame.a2RamAddress, I2cFrame.a2RamAddress]
  congr 1
  · congr 1
    · congr 1
      · exact byte 5 (by decide)
      · exact byte 4 (by decide)
    · exact byte 3 (by decide)
  · exact byte 2 (by decide)

/-- What the loader does with a frame. -/
theorem receiveFrame_eq : (boot.withCrc.receiveFrame frame).2 =
    { boot.withCrc.parseI2CProtocolFrame (drain boot.rxBuf frame).1
        (drain boot.rxBuf frame).2.1 with
      writes := (drain boot.rxBuf frame).2.2 } := rfl

/-- The check is read in any case. -/
theorem crcReads_subset (aBuf : RxBytes) (aLen : BitVec 16) {offset : Int}
    (read : offset ∈ crcReads aLen) :
    offset ∈ (boot.withCrc.parseI2CProtocolFrame aBuf aLen).reads := by
  unfold parseI2CProtocolFrame
  simp only [withCrc, if_true]
  split
  · split
    · exact List.mem_append_left _ (List.mem_append_left _ read)
    · exact List.mem_append_left _ read
  · exact read

theorem parse_incorrect (small : frame.length < 2 ^ 16) (check : 2 ≤ frame.length)
    (incorrect : ¬CrcCorrect frame) :
    let effect := boot.withCrc.parseI2CProtocolFrame (drain boot.rxBuf frame).1
      (drain boot.rxBuf frame).2.1
    effect.reads = crcReads (drain boot.rxBuf frame).2.1 ∧ effect.stores = [] := by
  have differs := mt (boot.check_iff small check).mp incorrect
  unfold parseI2CProtocolFrame
  simp only [show boot.withCrc.gUseCRCFlg = 1 from rfl, if_true]
  rw [if_neg differs]
  exact ⟨rfl, rfl⟩

theorem parse_correct (small : frame.length < 2 ^ 16) (check : 2 ≤ frame.length)
    (correct : CrcCorrect frame) :
    let aBuf := (drain boot.rxBuf frame).1
    let effect := boot.withCrc.parseI2CProtocolFrame aBuf (drain boot.rxBuf frame).2.1
    (I2cFrame.sof (inBuffer frame) = 0xA507 →
      effect.reads = crcReads (drain boot.rxBuf frame).2.1 ++ [0, 1] ++
          (boot.withCrc.command aBuf).reads ∧
        effect.stores = (boot.withCrc.command aBuf).stores) ∧
    (I2cFrame.sof (inBuffer frame) ≠ 0xA507 →
      effect.reads = crcReads (drain boot.rxBuf frame).2.1 ++ [0, 1] ∧ effect.stores = []) := by
  have same := (boot.check_iff small check).mpr correct
  unfold parseI2CProtocolFrame
  simp only [show boot.withCrc.gUseCRCFlg = 1 from rfl, if_true]
  rw [if_pos same, boot.sof_drain small check]
  constructor
  · intro sof
    rw [if_pos sof]
    exact ⟨rfl, rfl⟩
  · intro other
    rw [if_neg other]
    exact ⟨rfl, rfl⟩

theorem crcReads_inside (small : frame.length < 2 ^ 16) (check : 2 ≤ frame.length) {offset : Int}
    (read : offset ∈ crcReads (drain boot.rxBuf frame).2.1 ++ [0, 1]) :
    0 ≤ offset ∧ offset < frame.length := by
  rw [crcReads, boot.toNat_checked small check, boot.toNat_drain_index small, List.mem_append,
    List.mem_append, mem_offsets] at read
  simp only [List.mem_cons, List.not_mem_nil, or_false] at read
  omega

/-! ## Safe frames -/

theorem fits_of_safe (safe : FrameSafe frame (boot.withCrc.receiveFrame frame).2) :
    frame.length ≤ 256 := by
  by_contra long
  have outside := safe.writes 256
    ((mem_drain_writes boot.rxBuf frame 256).mpr ⟨256, Nat.lt_of_not_le long, rfl⟩)
  omega

theorem check_of_safe (safe : FrameSafe frame (boot.withCrc.receiveFrame frame).2) :
    2 ≤ frame.length := by
  have fits := boot.fits_of_safe safe
  have read (offset : Int) (member : offset ∈ crcReads (drain boot.rxBuf frame).2.1) :=
    safe.reads offset (boot.crcReads_subset _ _ member)
  have last := read ((drain boot.rxBuf frame).2.1.toNat - 2) (by simp [crcReads])
  rw [boot.toNat_drain_index (by omega)] at last
  omega

theorem handled_of_safe (safe : FrameSafe frame (boot.withCrc.receiveFrame frame).2) :
    Handled frame := by
  have fits := boot.fits_of_safe safe
  have check := boot.check_of_safe safe
  have small : frame.length < 2 ^ 16 := by omega
  have command : CrcCorrect frame → I2cFrame.sof (inBuffer frame) = 0xA507 →
      7 ≤ frame.length := by
    intro correct sof
    have effect := ((boot.parse_correct small check correct).1 sof).1
    have read := safe.reads 6
    rw [receiveFrame_eq] at read
    simp only [effect] at read
    have inside := read (List.mem_append_right _ (by
      rw [I2cBoot.command]
      split
      · simp
      · split <;> simp))
    omega
  refine ⟨check, fits, command, ?_⟩
  intro correct sof load
  have effect := (boot.parse_correct small check correct).1 sof
  have cmd := (boot.cmdType_drain small (command correct sof)).trans load
  rw [I2cBoot.command, if_pos cmd] at effect
  have header : 8 ≤ frame.length := by
    have inside := safe.reads 7
    rw [receiveFrame_eq] at inside
    simp only [effect.1] at inside
    have read := inside (List.mem_append_right _ (List.mem_append_left _ (by decide)))
    omega
  refine ⟨header, ?_⟩
  by_cases empty : I2cFrame.dataLen (inBuffer frame) = 0
  · exact Or.inl empty
  · right
    apply Complete.length
    refine (safe.copied ?_).1
    rw [receiveFrame_eq]
    simp only [effect.2, boot.dataLen_drain small header]
    intro none
    have length := congrArg List.length none
    rw [List.length_map, List.length_range, List.length_nil] at length
    exact empty (BitVec.eq_of_toNat_eq length)

theorem reads_load_inside (small : frame.length < 2 ^ 16)
    (header : 8 ≤ frame.length) (enough : I2cFrame.dataLen (inBuffer frame) = 0 ∨
      frame.length = 8 + (I2cFrame.dataLen (inBuffer frame)).toNat + 2) {offset : Int}
    (read : offset ∈ [6, 2, 3, 4, 5, 7] ++
      offsets 8 (I2cFrame.dataLen (drain boot.rxBuf frame).1).toNat) :
    0 ≤ offset ∧ offset < frame.length := by
  rw [boot.dataLen_drain small header, List.mem_append, mem_offsets] at read
  simp only [List.mem_cons, List.not_mem_nil, or_false] at read
  have none : I2cFrame.dataLen (inBuffer frame) = 0 →
      (I2cFrame.dataLen (inBuffer frame)).toNat = 0 := fun empty => by rw [empty]; rfl
  rcases enough with empty | whole
  · have length := none empty
    omega
  · omega

theorem stores_load_eq (small : frame.length < 2 ^ 16) (header : 8 ≤ frame.length)
    (whole : frame.length = 8 + (I2cFrame.dataLen (inBuffer frame)).toNat + 2) :
    ((List.range (I2cFrame.dataLen (drain boot.rxBuf frame).1).toNat).map fun k =>
      (I2cFrame.a2RamAddress (drain boot.rxBuf frame).1 + BitVec.ofNat 32 k,
        I2cFrame.data (drain boot.rxBuf frame).1 k)) =
      (List.range (I2cFrame.dataLen (inBuffer frame)).toNat).map fun k =>
        (I2cFrame.a2RamAddress (inBuffer frame) + BitVec.ofNat 32 k, frame.getD (8 + k) 0) := by
  rw [boot.dataLen_drain small header, boot.a2RamAddress_drain small header]
  apply List.map_congr_left
  intro k inside
  have below := List.mem_range.mp inside
  have byte : (drain boot.rxBuf frame).1 ((8 + k : Nat) : Int) = frame.getD (8 + k) 0 :=
    drain_apply boot.rxBuf small (by omega)
  rw [Nat.cast_add] at byte
  exact congrArg (Prod.mk _) byte

theorem safe_of_handled (handled : Handled frame) :
    FrameSafe frame (boot.withCrc.receiveFrame frame).2 := by
  have small : frame.length < 2 ^ 16 := by
    have fits := handled.fits
    omega
  have inside {offset : Int} (read : offset ∈ crcReads (drain boot.rxBuf frame).2.1 ++ [0, 1]) :=
    boot.crcReads_inside small handled.check read
  have writes : ∀ offset ∈ (drain boot.rxBuf frame).2.2, 0 ≤ offset ∧ offset < 256 := by
    intro offset written
    rcases (mem_drain_writes boot.rxBuf frame offset).mp written with ⟨k, before, rfl⟩
    have fits := handled.fits
    omega
  rw [receiveFrame_eq]
  by_cases correct : CrcCorrect frame
  · by_cases sof : I2cFrame.sof (inBuffer frame) = 0xA507
    · have effect := (boot.parse_correct small handled.check correct).1 sof
      have command := handled.command correct sof
      have cmd := boot.cmdType_drain small command
      refine ⟨?_, ?_, writes⟩
      · intro stored
        rw [effect.2] at stored ⊢
        by_cases load : I2cFrame.cmdType (inBuffer frame) = 0x24
        · have enough := handled.load correct sof load
          rw [I2cBoot.command, if_pos (cmd.trans load)] at stored ⊢
          have whole : frame.length = 8 + (I2cFrame.dataLen (inBuffer frame)).toNat + 2 := by
            rcases enough.2 with empty | whole
            · rw [boot.dataLen_drain small enough.1, empty] at stored
              exact absurd rfl stored
            · exact whole
          exact ⟨⟨enough.1, sof, whole⟩, correct, boot.stores_load_eq small enough.1 whole⟩
        · rw [I2cBoot.command, if_neg (fun same => load (cmd.symm.trans same))] at stored
          exfalso
          revert stored
          split <;> exact fun stored => stored rfl
      · rw [effect.1]
        intro offset read
        rcases List.mem_append.mp read with first | read
        · exact inside first
        · by_cases load : I2cFrame.cmdType (inBuffer frame) = 0x24
          · have enough := handled.load correct sof load
            rw [I2cBoot.command, if_pos (cmd.trans load)] at read
            exact boot.reads_load_inside small enough.1 enough.2 read
          · rw [I2cBoot.command, if_neg (fun same => load (cmd.symm.trans same))] at read
            have few : offset ∈ [(6 : Int), 2, 3, 4, 5] := by
              revert read
              split
              · exact id
              · exact fun read => List.mem_cons.mpr (Or.inl (List.mem_singleton.mp read))
            simp only [List.mem_cons, List.not_mem_nil, or_false] at few
            omega
    · have effect := (boot.parse_correct small handled.check correct).2 sof
      exact ⟨fun stored => absurd effect.2 stored, fun offset read => inside (effect.1 ▸ read),
        writes⟩
  · have effect := boot.parse_incorrect small handled.check correct
    exact ⟨fun stored => absurd effect.2 stored,
      fun offset read => inside (List.mem_append_left _ (effect.1 ▸ read)), writes⟩

end Frame

end I2cBoot

/-- With the check enabled, what the loader does with a frame is safe exactly for the frames that
fit the buffer and have the fields that are used. -/
theorem receiveFrame_safe_iff (boot : I2cBoot) (frame : List (BitVec 8)) :
    FrameSafe frame (boot.withCrc.receiveFrame frame).2 ↔ Handled frame :=
  ⟨boot.handled_of_safe, boot.safe_of_handled⟩

/-- A load of 240 bytes that come with none, and a correct check. -/
def loadWithoutData : List (BitVec 8) :=
  [0x07, 0xA5, 0x00, 0x00, 0x00, 0x1C, 0x24, 0xF0, 0x59, 0xB1]

theorem loadWithoutData_not_safe :
    ¬∀ (boot : I2cBoot) (frame : List (BitVec 8)),
      FrameSafe frame (boot.withCrc.receiveFrame frame).2 := by
  intro safe
  have handled := I2cBoot.handled_of_safe _ (safe ⟨fun _ => 0, 0, fun _ => 0, 0, 0⟩ loadWithoutData)
  have correct : CrcCorrect loadWithoutData := by
    unfold CrcCorrect
    decide +kernel
  exact absurd (handled.load correct (by decide) (by decide)).2 (by decide)

end CoreVMcu.Boot
