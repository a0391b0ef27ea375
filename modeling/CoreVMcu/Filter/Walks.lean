import CoreVMcu.Clocked.NestedLoops
import CoreVMcu.Filter.Channels

/-!
# The loops of the L2 channels

In its linear mode a channel goes through one loop over the words.  In the other modes it goes
through two nested loops, of which the inner one is over the words of a window, a row or, where
a write-back goes column by column, over the rows.
-/

namespace CoreVMcu.Filter

open Clocked

variable {aWidth transSize dataWidth : Nat}

namespace ChannelCfg

variable (cfg : ChannelCfg aWidth transSize)

/-- The distance of two words. -/
def wordStep : BitVec aWidth := Walk.toAdd cfg

/-- The distance of two rows. -/
def rowStep : BitVec aWidth := cfg.len2.setWidth aWidth

/-- Loops with the words inside. -/
def wordLoops (outerStep : BitVec aWidth) (outerLast : Nat) : NestedLoops aWidth :=
  ⟨cfg.startAddr, cfg.wordStep, outerStep, cfg.len0.toNat, outerLast⟩

/-- Loops with the rows inside. -/
def rowLoops : NestedLoops aWidth :=
  ⟨cfg.startAddr, cfg.rowStep, cfg.wordStep, cfg.len1.toNat, cfg.len0.toNat⟩

end ChannelCfg

namespace Walk

variable (loops : NestedLoops aWidth) (round : Nat)

/-- The loops in a round, with the words inside. -/
def wordsInside : Walk aWidth transSize where
  rLocStartaddr := loops.base round
  rLocPointer := loops.address round
  rPtnBufferW := BitVec.ofNat transSize (loops.inner round)
  rPtnBufferL := BitVec.ofNat transSize (loops.outer round)

/-- The loops in a round, with the rows inside. -/
def rowsInside : Walk aWidth transSize where
  rLocStartaddr := loops.base round
  rLocPointer := loops.address round
  rPtnBufferW := BitVec.ofNat transSize (loops.outer round)
  rPtnBufferL := BitVec.ofNat transSize (loops.inner round)

variable {loops} {round}

theorem ofNat_beq {count : Nat} {last : BitVec transSize} (inside : count ≤ last.toNat) :
    (BitVec.ofNat transSize count == last) = decide (count = last.toNat) := by
  have same := ofNat_beq_ofNat (inside.trans_lt last.isLt) last.isLt
  rwa [BitVec.ofNat_toNat, BitVec.setWidth_eq] at same

theorem wordsInside_zero (start : loops.start = startAddr) :
    (wordsInside loops 0 : Walk aWidth transSize) = ⟨startAddr, startAddr, 0, 0⟩ := by
  rw [wordsInside, NestedLoops.base_zero, NestedLoops.address_zero, NestedLoops.inner_zero,
    NestedLoops.outer_zero, start]
  rfl

theorem rowsInside_zero (start : loops.start = startAddr) :
    (rowsInside loops 0 : Walk aWidth transSize) = ⟨startAddr, startAddr, 0, 0⟩ := by
  rw [rowsInside, NestedLoops.base_zero, NestedLoops.address_zero, NestedLoops.inner_zero,
    NestedLoops.outer_zero, start]
  rfl

theorem inner_wordsInside (inside : loops.inner round ≠ loops.innerLast) :
    (wordsInside loops round : Walk aWidth transSize).inner loops.innerStep =
      wordsInside loops (round + 1) := by
  rw [wordsInside, wordsInside, NestedLoops.base_succ inside, NestedLoops.address_succ inside,
    NestedLoops.inner_succ inside, NestedLoops.outer_succ inside, BitVec.ofNat_add]
  rfl

theorem outer_wordsInside (ends : loops.inner round = loops.innerLast) :
    (wordsInside loops round : Walk aWidth transSize).outer (loops.base round + loops.outerStep) =
      wordsInside loops (round + 1) := by
  rw [wordsInside, wordsInside, NestedLoops.base_next ends, NestedLoops.address_next ends,
    NestedLoops.inner_next ends, NestedLoops.outer_next ends, BitVec.ofNat_add]
  rfl

theorem inner_rowsInside (inside : loops.inner round ≠ loops.innerLast) :
    { (rowsInside loops round : Walk aWidth transSize) with
        rPtnBufferL := (rowsInside loops round : Walk aWidth transSize).rPtnBufferL + 1
        rLocPointer := (rowsInside loops round : Walk aWidth transSize).rLocPointer +
          loops.innerStep } =
      rowsInside loops (round + 1) := by
  rw [rowsInside, rowsInside, NestedLoops.base_succ inside, NestedLoops.address_succ inside,
    NestedLoops.inner_succ inside, NestedLoops.outer_succ inside, BitVec.ofNat_add]
  rfl

theorem outer_rowsInside (ends : loops.inner round = loops.innerLast) :
    (⟨loops.base round + loops.outerStep, loops.base round + loops.outerStep,
      (rowsInside loops round : Walk aWidth transSize).rPtnBufferW + 1, 0⟩ :
        Walk aWidth transSize) =
      rowsInside loops (round + 1) := by
  rw [rowsInside, rowsInside, NestedLoops.base_next ends, NestedLoops.address_next ends,
    NestedLoops.inner_next ends, NestedLoops.outer_next ends, BitVec.ofNat_add]
  rfl

section Last

variable {cfg : ChannelCfg aWidth transSize}

theorem lastWord (words : loops.innerLast = cfg.len0.toNat) :
    ((wordsInside loops round).rPtnBufferW == cfg.len0) =
      decide (loops.inner round = loops.innerLast) := by
  rw [words]
  exact ofNat_beq (words ▸ NestedLoops.inner_le round)

theorem lastRow (rows : loops.innerLast = cfg.len1.toNat) :
    ((rowsInside loops round).rPtnBufferL == cfg.len1) =
      decide (loops.inner round = loops.innerLast) := by
  rw [rows]
  exact ofNat_beq (rows ▸ NestedLoops.inner_le round)

/-- In the last round both loops are at their ends. -/
theorem isLast_wordsInside (words : loops.innerLast = cfg.len0.toNat)
    (rows : loops.outerLast = cfg.len1.toNat) (inside : round < loops.total) :
    (wordsInside loops round).isLast cfg = decide (round + 1 = loops.total) := by
  have outer : ((wordsInside loops round).rPtnBufferL == cfg.len1) =
      decide (loops.outer round = loops.outerLast) := by
    rw [rows]
    exact ofNat_beq (rows ▸ NestedLoops.outer_le inside)
  rw [isLast, lastWord words, outer, ← Bool.decide_and]
  exact decide_eq_decide.2 (NestedLoops.last_iff round)

theorem isLast_rowsInside (rows : loops.innerLast = cfg.len1.toNat)
    (words : loops.outerLast = cfg.len0.toNat) (inside : round < loops.total) :
    (rowsInside loops round).isLast cfg = decide (round + 1 = loops.total) := by
  have outer : ((rowsInside loops round).rPtnBufferW == cfg.len0) =
      decide (loops.outer round = loops.outerLast) := by
    rw [words]
    exact ofNat_beq (words ▸ NestedLoops.outer_le inside)
  rw [isLast, lastRow rows, outer, ← Bool.decide_and]
  exact decide_eq_decide.2 (and_comm.trans (NestedLoops.last_iff round))

/-- Where there is one round of the outer loop, the last word is the last round. -/
theorem lastWord_of_single (words : loops.innerLast = cfg.len0.toNat)
    (single : loops.outerLast = 0) (inside : round < loops.total) :
    ((wordsInside loops round).rPtnBufferW == cfg.len0) = decide (round + 1 = loops.total) := by
  have outer : loops.outer round = loops.outerLast := by
    rw [single]
    exact Nat.le_zero.1 (single ▸ NestedLoops.outer_le inside)
  rw [lastWord words]
  exact decide_eq_decide.2
    ⟨fun inner => (NestedLoops.last_iff round).1 ⟨inner, outer⟩,
      fun last => ((NestedLoops.last_iff round).2 last).1⟩

end Last

end Walk

end CoreVMcu.Filter
