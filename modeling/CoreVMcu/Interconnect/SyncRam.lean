import Mathlib.Data.BitVec
import Mathlib.Logic.Function.Basic

/-!
# Synchronous memories

A single-port memory of 32-bit words with an enable for each byte.  A read shows the
word one cycle later.
-/

namespace CoreVMcu.Interconnect

/-! ## Bytes of a word -/

/-- The byte of a word in a lane. -/
def byteLane (word : BitVec 32) (lane : Nat) : BitVec 8 := word.extractLsb' (8 * lane) 8

/-- The word with given bytes. -/
def wordOf (bytes : Nat → BitVec 8) : BitVec 32 := bytes 3 ++ bytes 2 ++ bytes 1 ++ bytes 0

theorem byteLane_wordOf (bytes : Nat → BitVec 8) {lane : Nat} (inside : lane < 4) :
    byteLane (wordOf bytes) lane = bytes lane := by
  rw [byteLane, wordOf]
  match lane, inside with
  | 0, _ => exact BitVec.extractLsb'_append_eq_right
  | 1, _ =>
      rw [BitVec.extractLsb'_append_eq_of_le (by decide)]
      exact BitVec.extractLsb'_append_eq_right
  | 2, _ =>
      rw [BitVec.extractLsb'_append_eq_of_le (by decide),
        BitVec.extractLsb'_append_eq_of_le (by decide)]
      exact BitVec.extractLsb'_append_eq_right
  | 3, _ =>
      rw [BitVec.extractLsb'_append_eq_of_le (by decide),
        BitVec.extractLsb'_append_eq_of_le (by decide)]
      exact BitVec.extractLsb'_append_eq_left

/-- A word of which the enabled bytes are replaced. -/
def mergeBytes (be : BitVec 4) (wdata old : BitVec 32) : BitVec 32 :=
  wordOf fun lane => if be.getLsbD lane then byteLane wdata lane else byteLane old lane

theorem byteLane_mergeBytes (be : BitVec 4) (wdata old : BitVec 32) {lane : Nat}
    (inside : lane < 4) :
    byteLane (mergeBytes be wdata old) lane =
      if be.getLsbD lane then byteLane wdata lane else byteLane old lane :=
  byteLane_wordOf _ inside

/-! ## The memory macro -/

/-- The ports of `core_v_mcu_interleaved_ram`, with `csn_i` and `wen_i` active low. -/
structure RamInput (addrWidth : Nat) where
  csn : Bool
  wen : Bool
  be : BitVec 4
  addr : BitVec addrWidth
  wdata : BitVec 32

/-- A memory macro with the behaviour that its users rely on.  What it shows after a
write, or after a cycle in which it was not selected, is not specified. -/
structure SyncRam (addrWidth : Nat) where
  State : Type
  content : State → BitVec addrWidth → BitVec 32
  rdata : State → BitVec 32
  step : State → RamInput addrWidth → State
  kept : ∀ {state input}, input.csn = true ∨ input.wen = true →
    content (step state input) = content state
  read : ∀ {state input}, input.csn = false → input.wen = true →
    rdata (step state input) = content state input.addr
  written : ∀ {state input}, input.csn = false → input.wen = false →
    content (step state input) =
      Function.update (content state) input.addr
        (mergeBytes input.be input.wdata (content state input.addr))

/-- `MEM` and `Q` of `generic_memory`. -/
structure GenericMemory (addrWidth : Nat) where
  mem : BitVec addrWidth → BitVec 32
  q : BitVec 32

/-- One clock edge of `generic_memory`, with `BEN` active low. -/
def GenericMemory.step {addrWidth : Nat} (memory : GenericMemory addrWidth) (cen wen : Bool)
    (ben : BitVec 4) (addr : BitVec addrWidth) (d : BitVec 32) : GenericMemory addrWidth :=
  if cen then memory
  else if wen then { memory with q := memory.mem addr }
  else
    { memory with mem := Function.update memory.mem addr (mergeBytes (~~~ben) d (memory.mem addr)) }

/-- `core_v_mcu_interleaved_ram` of the simulation. -/
def simulationRam (addrWidth : Nat) : SyncRam addrWidth where
  State := GenericMemory addrWidth
  content := GenericMemory.mem
  rdata := GenericMemory.q
  step memory input := memory.step input.csn input.wen (~~~input.be) input.addr input.wdata
  kept := by
    intro memory input idle
    rw [GenericMemory.step]
    split
    · rfl
    · rw [if_pos (by simp_all)]
  read := by
    intro memory input selected reads
    rw [GenericMemory.step, selected, reads]
    rfl
  written := by
    intro memory input selected writes
    rw [GenericMemory.step, selected, writes, BitVec.not_not]
    rfl

end CoreVMcu.Interconnect
