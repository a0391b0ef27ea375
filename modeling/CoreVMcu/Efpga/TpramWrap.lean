import CoreVMcu.Clocked.Machine
import Mathlib.Data.BitVec
import Mathlib.Logic.Function.Basic

/-!
# The RAM wrapper of the math unit

`TPRAM_WRAP` gives a RAM of double words a byte address: it rotates the data of the fabric to
the lane that is written, enables the bits of that lane, and rotates the double word that
is read back.
-/

namespace CoreVMcu.Efpga

open Clocked

/-- A byte of a word. -/
def byteOf {w : Nat} (word : BitVec w) (k : Nat) : BitVec 8 := word.extractLsb' (8 * k) 8

theorem getLsbD_byteOf {w : Nat} (word : BitVec w) (k : Nat) {j : Nat} (inside : j < 8) :
    (byteOf word k).getLsbD j = word.getLsbD (8 * k + j) := by
  simp [byteOf, inside]

theorem byteOf_ext {v w : Nat} {left : BitVec v} {right : BitVec w} {k m : Nat}
    (bits : ∀ j < 8, left.getLsbD (8 * k + j) = right.getLsbD (8 * m + j)) :
    byteOf left k = byteOf right m := by
  apply BitVec.eq_of_getLsbD_eq
  intro j inside
  rw [getLsbD_byteOf _ _ inside, getLsbD_byteOf _ _ inside, bits j inside]

theorem byteOf_append_self (word : BitVec 32) {k : Nat} (inside : k < 8) :
    byteOf (word ++ word) k = byteOf word (k % 4) := by
  apply byteOf_ext
  intro j below
  rw [BitVec.getLsbD_append]
  split
  next low =>
    rw [Nat.mod_eq_of_lt (by omega)]
  next high =>
    congr 1
    omega

theorem byteOf_rotateLeft (word : BitVec 32) {s k : Nat} (shift : s < 4) (inside : k < 4) :
    byteOf (word.rotateLeft (8 * s)) k = byteOf word ((k + 4 - s) % 4) := by
  apply byteOf_ext
  intro j below
  rw [BitVec.getLsbD_rotateLeft, Nat.mod_eq_of_lt (by omega)]
  by_cases wraps : k < s
  · rw [decide_eq_true (by omega), cond_true, Nat.mod_eq_of_lt (by omega)]
    congr 1
    omega
  · rw [decide_eq_false (by omega), cond_false, decide_eq_true (by omega), Bool.true_and]
    congr 1
    omega

theorem byteOf_rotateRight (word : BitVec 64) {s k : Nat} (shift : s < 8) (inside : k < 8) :
    byteOf (word.rotateRight (8 * s)) k = byteOf word ((k + s) % 8) := by
  apply byteOf_ext
  intro j below
  rw [BitVec.getLsbD_rotateRight, Nat.mod_eq_of_lt (by omega)]
  by_cases stays : k + s < 8
  · rw [decide_eq_true (by omega), cond_true]
    congr 1
    omega
  · rw [decide_eq_false (by omega), cond_false, decide_eq_true (by omega), Bool.true_and]
    congr 1
    omega

theorem byteOf_setWidth (word : BitVec 64) {k : Nat} (inside : k < 4) :
    byteOf (word.setWidth 32) k = byteOf word k := by
  apply byteOf_ext
  intro j below
  rw [BitVec.getLsbD_setWidth, decide_eq_true (by omega), Bool.true_and]

/-- Words agree in their low bytes. -/
theorem setWidth_eq_of_bytes {left right : BitVec 32} {n : Nat}
    (bytes : ∀ k < n, byteOf left k = byteOf right k) :
    left.setWidth (8 * n) = right.setWidth (8 * n) := by
  apply BitVec.eq_of_getLsbD_eq
  intro i inside
  have same := congrArg (fun byte => byte.getLsbD (i % 8)) (bytes (i / 8) (by omega))
  simp only [getLsbD_byteOf _ _ (Nat.mod_lt i (by decide : 0 < 8)), Nat.div_add_mod] at same
  rw [BitVec.getLsbD_setWidth, BitVec.getLsbD_setWidth, same]

/-! ## The RAM macro -/

/-- The ports of `sram512x64`: what it reads at an edge of `clkA` and what it writes at one
of `clkB`.  `cenA` and `cenB` are low to enable. -/
structure SramPorts where
  clkA : Bool
  cenA : Bool
  aA : BitVec 9
  clkB : Bool
  cenB : Bool
  aB : BitVec 9
  d : BitVec 64
  bw : BitVec 64

/-- A two-port RAM that shows a double word after the edge it was read at.  A byte of which
all bits are enabled is written, and one of which none is is kept. -/
structure TwoPortRam where
  State : Type
  content : State → BitVec 9 → BitVec 64
  q : State → BitVec 64
  step : State → SramPorts → State
  shown : ∀ state ports, ports.clkA = true → ports.cenA = false →
    q (step state ports) = content state ports.aA
  held : ∀ state ports, ports.clkA = false → q (step state ports) = q state
  kept : ∀ state ports, ports.clkB = false ∨ ports.cenB = true →
    content (step state ports) = content state
  elsewhere : ∀ state ports (addr : BitVec 9), addr ≠ ports.aB →
    content (step state ports) addr = content state addr
  written : ∀ state ports, ∀ k < 8, ports.clkB = true → ports.cenB = false →
    byteOf ports.bw k = 0xff#8 →
    byteOf (content (step state ports) ports.aB) k = byteOf ports.d k
  masked : ∀ state ports, ∀ k < 8, byteOf ports.bw k = 0#8 →
    byteOf (content (step state ports) ports.aB) k = byteOf (content state ports.aB) k

/-- The enabled bits are those of the data, the others stay. -/
def maskBits (bw d old : BitVec 64) : BitVec 64 := (d &&& bw) ||| (old &&& ~~~bw)

theorem byteOf_maskBits (bw d old : BitVec 64) {k : Nat} (inside : k < 8) :
    byteOf (maskBits bw d old) k =
      (byteOf d k &&& byteOf bw k) ||| (byteOf old k &&& ~~~byteOf bw k) := by
  apply BitVec.eq_of_getLsbD_eq
  intro j below
  rw [getLsbD_byteOf _ _ below, maskBits]
  simp only [BitVec.getLsbD_or, BitVec.getLsbD_and, BitVec.getLsbD_not, getLsbD_byteOf _ _ below,
    below, decide_true, Bool.true_and, show 8 * k + j < 64 by omega]

/-- A RAM with a write enable for each bit. -/
def bitMaskRam : TwoPortRam where
  State := (BitVec 9 → BitVec 64) × BitVec 64
  content := Prod.fst
  q := Prod.snd
  step state ports :=
    (if ports.clkB && !ports.cenB then
      Function.update state.1 ports.aB (maskBits ports.bw ports.d (state.1 ports.aB))
     else state.1,
     if ports.clkA && !ports.cenA then state.1 ports.aA else state.2)
  shown := by
    intro state ports edge enabled
    simp [edge, enabled]
  held := by
    intro state ports noEdge
    simp [noEdge]
  kept := by
    intro state ports idle
    rcases idle with noEdge | disabled
    · simp [noEdge]
    · simp [disabled]
  elsewhere := by
    intro state ports addr other
    dsimp only
    split
    · exact Function.update_of_ne other ..
    · rfl
  written := by
    intro state ports k below edge enabled all
    simp only [edge, enabled, Bool.not_false, Bool.and_true, if_true, Function.update_self]
    rw [byteOf_maskBits _ _ _ below, all, show ~~~0xff#8 = 0#8 by rfl, BitVec.and_zero,
      BitVec.or_zero]
    exact BitVec.and_allOnes
  masked := by
    intro state ports k below none
    dsimp only
    split
    · rw [Function.update_self, byteOf_maskBits _ _ _ below, none, BitVec.and_zero, BitVec.zero_or]
      exact BitVec.and_allOnes
    · rfl

/-! ## The wrapper -/

/-- The modes of a port. -/
inductive TpramMode where
  | dword
  | word
  | byte
  | resv
  deriving DecidableEq

/-- The number of bytes that a mode transfers. -/
def TpramMode.size : TpramMode → Nat
  | .dword => 4
  | .word => 2
  | .byte => 1
  | .resv => 4

/-- The inputs of `TPRAM_WRAP` and the clocks that tick. -/
structure TpramInput where
  rMode : TpramMode
  wMode : TpramMode
  wdsel : Bool
  we : Bool
  rClk : Bool
  rAddr : BitVec 12
  wClk : Bool
  wAddr : BitVec 12
  efpgaWData : BitVec 32
  mathbWData : BitVec 32

/-- The row of an address. -/
def tpramRow (addr : BitVec 12) : BitVec 9 := addr.extractLsb' 3 9

/-- The lane of an address in its row. -/
def tpramLane (addr : BitVec 12) : BitVec 3 := addr.extractLsb' 0 3

namespace TpramWrap

/-- The data of the fabric, rotated to a lane. -/
def rotatedData (mode : TpramMode) (lane : BitVec 3) (data : BitVec 32) : BitVec 32 :=
  match mode with
  | .byte => data.rotateLeft (8 * (lane.extractLsb' 0 2).toNat)
  | .word => data.rotateLeft (16 * (lane.extractLsb' 1 1).toNat)
  | .dword | .resv => data

/-- The bits that a mode enables for a lane. -/
def laneMask (mode : TpramMode) (lane : BitVec 3) : BitVec 64 :=
  match mode with
  | .byte => 0xff#64 <<< (8 * lane.toNat)
  | .word => 0xffff#64 <<< (16 * (lane.extractLsb' 1 2).toNat)
  | .dword | .resv => 0xffff_ffff#64 <<< (32 * (lane.extractLsb' 2 1).toNat)

variable (input : TpramInput)

/-- `efpga_w_data`; the case for the math block comes after one that includes it. -/
def efpgaWData : BitVec 32 :=
  if input.we then rotatedData input.wMode (tpramLane input.wAddr) input.efpgaWData
  else if input.we && input.wdsel then input.efpgaWData
  else 0

/-- `tpram_bit_write`, decided in the same order. -/
def bitWrite : BitVec 64 :=
  if input.we then laneMask input.wMode (tpramLane input.wAddr)
  else if input.we && input.wdsel then laneMask .dword (tpramLane input.wAddr)
  else 0

/-- `tpram_w_data`. -/
def wData : BitVec 64 :=
  if input.wdsel then input.mathbWData ++ input.mathbWData
  else efpgaWData input ++ efpgaWData input

/-- What is asked of the RAM. -/
def ports : SramPorts where
  clkA := input.rClk
  cenA := false
  aA := tpramRow input.rAddr
  clkB := input.wClk
  cenB := !input.we
  aB := tpramRow input.wAddr
  d := wData input
  bw := bitWrite input

/-- `tpram_dataout_sel` in a cycle: the reserved mode holds it in reset. -/
def dataoutSel (register : BitVec 3) : BitVec 3 := if input.rMode = .resv then 0 else register

/-- `TPRAM_MATHB_R_DATA`. -/
def mathbRData (sel : BitVec 3) (q : BitVec 64) : BitVec 32 :=
  if sel.getLsbD 2 then q.extractLsb' 32 32 else q.extractLsb' 0 32

/-- `TPRAM_EFPGA_R_DATA`: the low half of the double word, rotated by a lane. -/
def efpgaRData (mode : TpramMode) (sel : BitVec 3) (q : BitVec 64) : BitVec 32 :=
  match mode with
  | .byte => (q.rotateRight (8 * sel.toNat)).setWidth 32
  | .word => (q.rotateRight (16 * (sel.extractLsb' 1 2).toNat)).setWidth 32
  | .dword | .resv => if sel.getLsbD 2 then q.extractLsb' 32 32 else q.extractLsb' 0 32

/-- `TPRAM_WRAP` with its RAM; the register is `tpram_dataout_sel`. -/
def machine (ram : TwoPortRam) (start : ram.State) :
    Machine (BitVec 3 × ram.State) TpramInput where
  init := (0, start)
  step state input :=
    (if input.rMode = .resv then 0
     else if input.rClk then tpramLane input.rAddr
     else state.1,
     ram.step state.2 (ports input))

theorem byteOf_laneMask (mode : TpramMode) (lane : BitVec 3) {k : Nat} (inside : k < 8) :
    byteOf (laneMask mode lane) k =
      if k / mode.size = lane.toNat / mode.size then 0xff#8 else 0#8 := by
  have all : ∀ lane : BitVec 3, ∀ k < 8, byteOf (laneMask mode lane) k =
      if k / mode.size = lane.toNat / mode.size then 0xff#8 else 0#8 := by
    cases mode <;> decide
  exact all lane k inside

/-- In the lane that is written the fabric's data starts with its lowest byte. -/
theorem byteOf_rotatedData (mode : TpramMode) (lane : BitVec 3) (data : BitVec 32) {k : Nat}
    (inside : k < 8) (written : k / mode.size = lane.toNat / mode.size) :
    byteOf (rotatedData mode lane data ++ rotatedData mode lane data) k =
      byteOf data (k % mode.size) := by
  have below := lane.isLt
  rw [byteOf_append_self _ inside]
  cases mode with
  | byte =>
      have shift : (lane.extractLsb' 0 2).toNat = lane.toNat % 4 := by
        simp [BitVec.extractLsb'_toNat]
      simp only [TpramMode.size] at written ⊢
      rw [rotatedData, shift, byteOf_rotateLeft _ (by omega) (by omega)]
      congr 1
      omega
  | word =>
      have shift : (lane.extractLsb' 1 1).toNat = lane.toNat / 2 % 2 := by
        simp [BitVec.extractLsb'_toNat, Nat.shiftRight_eq_div_pow]
      simp only [TpramMode.size] at written ⊢
      rw [rotatedData, shift,
        show 16 * (lane.toNat / 2 % 2) = 8 * (2 * (lane.toNat / 2 % 2)) by omega,
        byteOf_rotateLeft _ (by omega) (by omega)]
      congr 1
      omega
  | dword => rfl
  | resv => rfl

/-- The half of a double word that a lane selects. -/
theorem byteOf_mathbRData (sel : BitVec 3) (q : BitVec 64) {i : Nat} (inside : i < 4) :
    byteOf (mathbRData sel q) i = byteOf q (sel.toNat / 4 * 4 + i) := by
  have upper : sel.getLsbD 2 = true ↔ sel.toNat / 4 = 1 := by
    revert sel
    decide
  have below := sel.isLt
  apply byteOf_ext
  intro j less
  unfold mathbRData
  split
  next high =>
    rw [upper.mp high, BitVec.getLsbD_extractLsb', decide_eq_true (by omega), Bool.true_and]
    congr 1
    omega
  next low =>
    have zero : sel.toNat / 4 = 0 := by
      have := mt upper.mpr low
      omega
    rw [zero, BitVec.getLsbD_extractLsb', decide_eq_true (by omega), Bool.true_and]
    congr 1
    omega

/-- A read shows the bytes of its lane from the lowest bits on. -/
theorem byteOf_efpgaRData (mode : TpramMode) (sel : BitVec 3) (q : BitVec 64) {i : Nat}
    (inside : i < mode.size) :
    byteOf (efpgaRData mode sel q) i = byteOf q (sel.toNat / mode.size * mode.size + i) := by
  have below := sel.isLt
  cases mode with
  | byte =>
      simp only [TpramMode.size] at inside ⊢
      rw [efpgaRData, byteOf_setWidth _ (by omega), byteOf_rotateRight _ (by omega) (by omega)]
      congr 1
      omega
  | word =>
      have shift : (sel.extractLsb' 1 2).toNat = sel.toNat / 2 := by
        rw [BitVec.extractLsb'_toNat, Nat.shiftRight_eq_div_pow]
        omega
      simp only [TpramMode.size] at inside ⊢
      rw [efpgaRData, shift, show 16 * (sel.toNat / 2) = 8 * (2 * (sel.toNat / 2)) by omega,
        byteOf_setWidth _ (by omega), byteOf_rotateRight _ (by omega) (by omega)]
      congr 1
      omega
  | dword => exact byteOf_mathbRData sel q inside
  | resv => exact byteOf_mathbRData sel q inside

end TpramWrap

end CoreVMcu.Efpga
