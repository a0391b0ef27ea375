import Mathlib.Data.List.Basic
import Mathlib.Data.Nat.ModEq
import Mathlib.Logic.Function.Basic

/-!
# Ring buffers

A ring buffer stores the words it accepts in slots that are used in turn.  Word
`j` is safe in its slot from its acceptance until it is taken, because the slots
of all words between them are different.

Positions on a ring of `width` bits are natural numbers modulo `width`, so a
counter that never wraps can stand for the position of a token that does.
-/

namespace Clocked

variable {Index Word : Type*}

/-- Any `depth` consecutive slots are different. -/
def DistinctSlots (depth : Nat) (slot : Nat → Index) : Prop :=
  ∀ i j, i ≤ j → j < i + depth → slot i = slot j → i = j

/-- Every accepted word from the `taken`-th on is in its slot. -/
def Holds (slot : Nat → Index) (memory : Index → Word) (accepted : List Word) (taken : Nat) :
    Prop :=
  ∀ j word, taken ≤ j → accepted[j]? = some word → memory (slot j) = word

variable {depth : Nat} {slot : Nat → Index} {memory : Index → Word} {accepted : List Word}
  {taken : Nat}

/-- The slots of a circular buffer, from any first slot. -/
theorem distinctSlots_offset (start : Nat) :
    DistinctSlots depth (fun j => (start + j) % depth) := by
  intro i j le bound same
  have congruent : i ≡ j [MOD depth] := Nat.ModEq.add_left_cancel' start same
  have divides := (Nat.modEq_iff_dvd' le).mp congruent
  have apart : j - i = 0 := Nat.eq_zero_of_dvd_of_lt divides (by omega)
  omega

theorem Holds.nil : Holds slot memory ([] : List Word) taken := by
  intro j word _ present
  simp at present

/-- Taking words keeps the others in their slots. -/
theorem Holds.mono {later : Nat} (holds : Holds slot memory accepted taken)
    (le : taken ≤ later) : Holds slot memory accepted later := by
  intro j word reached present
  exact holds j word (Nat.le_trans le reached) present

/-- Storing the next word while fewer than `depth` words are stored overwrites
none of them. -/
theorem Holds.store [DecidableEq Index] (distinct : DistinctSlots depth slot)
    (holds : Holds slot memory accepted taken) (room : accepted.length < taken + depth)
    (word : Word) :
    Holds slot (Function.update memory (slot accepted.length) word) (accepted ++ [word])
      taken := by
  intro j other reached present
  rcases Nat.lt_or_ge j accepted.length with stored | fresh
  · rw [List.getElem?_append_left stored] at present
    rw [Function.update_of_ne]
    · exact holds j other reached present
    · intro same
      exact absurd (distinct _ _ (Nat.le_of_lt stored) (by omega) same) (Nat.ne_of_lt stored)
  · rw [List.getElem?_append_right fresh, List.getElem?_singleton] at present
    split at present
    next last =>
      have equal : j = accepted.length := by omega
      rw [equal, Function.update_self]
      exact Option.some.inj present
    next => cases present

/-- The slot of the next word to be taken holds it. -/
theorem Holds.next (holds : Holds slot memory accepted taken)
    (unread : taken < accepted.length) :
    accepted.take (taken + 1) = accepted.take taken ++ [memory (slot taken)] := by
  rw [List.take_add_one, List.getElem?_eq_getElem unread, Option.toList_some,
    holds taken _ (Nat.le_refl taken) (List.getElem?_eq_getElem unread)]

/-- The next word goes to a slot that no stored word uses. -/
theorem DistinctSlots.fresh (distinct : DistinctSlots depth slot) {written : Nat}
    (room : written < taken + depth) :
    slot written ∉ ((List.range written).map slot).drop taken := by
  rw [← List.map_drop, List.mem_map]
  rintro ⟨j, member, same⟩
  obtain ⟨k, bound, equal⟩ := List.mem_iff_getElem.mp member
  rw [List.getElem_drop, List.getElem_range] at equal
  rw [List.length_drop, List.length_range] at bound
  exact absurd (distinct _ _ (by omega) (by omega) same) (by omega)

/-! ## One-hot and two-hot vectors on a ring -/

variable {width : Nat}

/-- The vector with the bit of position `k` set. -/
def hot (width k : Nat) : BitVec width := BitVec.twoPow width (k % width)

/-- The vector with the bits of positions `k` and `k + 1` set. -/
def twoHot (width k : Nat) : BitVec width := hot width k ||| hot width (k + 1)

/-- Different positions within one turn. -/
theorem add_mod_ne {k d : Nat} (positive : 0 < d) (bound : d < width) :
    (k + d) % width ≠ k % width := by
  intro equal
  have same : k + d ≡ k + 0 [MOD width] := equal
  have divides := Nat.ModEq.add_left_cancel' k same
  rw [Nat.ModEq, Nat.mod_eq_of_lt bound, Nat.zero_mod] at divides
  omega

theorem getLsbD_hot {k i : Nat} (inside : i < width) :
    (hot width k).getLsbD i = decide (k % width = i) := by
  rw [hot, BitVec.getLsbD_twoPow]
  simp [Nat.mod_lt k (Nat.zero_lt_of_lt inside)]

theorem hot_ne_zero (positive : 0 < width) (k : Nat) : hot width k ≠ BitVec.ofNat width 0 := by
  intro zero
  have bit := congrArg (BitVec.getLsbD · (k % width)) zero
  simp [getLsbD_hot (Nat.mod_lt k positive)] at bit

/-- A position moved up by `r` is `i` when it was `i` moved down by `r`. -/
theorem add_mod_eq_iff {k r i : Nat} (bound : r < width) (inside : i < width) :
    (k + r) % width = i ↔ k % width = if i < r then width - r + i else i - r := by
  have position := Nat.mod_lt k (Nat.zero_lt_of_lt bound)
  rw [Nat.add_mod, Nat.mod_eq_of_lt bound]
  by_cases wraps : k % width + r < width
  · rw [Nat.mod_eq_of_lt wraps]
    split <;> omega
  · rw [Nat.mod_eq_sub_mod (by omega), Nat.mod_eq_of_lt (by omega)]
    split <;> omega

/-- Rotating to the left moves a position up. -/
theorem hot_rotateLeft {r : Nat} (k : Nat) (bound : r < width) :
    (hot width k).rotateLeft r = hot width (k + r) := by
  apply BitVec.eq_of_getLsbD_eq
  intro i inside
  rw [BitVec.getLsbD_rotateLeft_of_le bound, getLsbD_hot inside]
  simp only [add_mod_eq_iff bound inside]
  by_cases low : i < r
  · simp [low, getLsbD_hot (show width - r + i < width by omega)]
  · simp [low, inside, getLsbD_hot (show i - r < width by omega)]

/-- Rotating to the right moves a position down. -/
theorem hot_rotateRight (k r : Nat) (bound : r < width) :
    (hot width (k + r)).rotateRight r = hot width k := by
  apply BitVec.eq_of_getLsbD_eq
  intro i inside
  rw [BitVec.getLsbD_rotateRight_of_lt bound, getLsbD_hot inside]
  by_cases low : i < width - r
  · have moved : r + i < width := by omega
    have above : ¬r + i < r := by omega
    simp [low, getLsbD_hot moved, add_mod_eq_iff bound moved, above]
  · have moved : i - (width - r) < width := by omega
    have below : i - (width - r) < r := by omega
    have back : width - r + (i - (width - r)) = i := by omega
    simp [low, inside, getLsbD_hot moved, add_mod_eq_iff bound moved, below, back]

/-- Two positions meet exactly when they are equal on the ring. -/
theorem hot_and_hot_ne_zero (positive : 0 < width) {k l : Nat} :
    (hot width k &&& hot width l != BitVec.ofNat width 0) = decide (k % width = l % width) := by
  by_cases same : k % width = l % width
  · have equal : hot width k = hot width l := by rw [hot, hot, same]
    rw [equal, BitVec.and_self]
    simpa [same] using hot_ne_zero positive l
  · have apart : hot width k &&& hot width l = BitVec.ofNat width 0 := by
      apply BitVec.eq_of_getLsbD_eq
      intro i inside
      rw [BitVec.getLsbD_and, getLsbD_hot inside, getLsbD_hot inside, BitVec.getLsbD_zero,
        ← Bool.decide_and, decide_eq_false_iff_not]
      omega
    simp [apart, same]

/-! ## Pairs of neighbours -/

theorem getLsbD_twoHot {k i : Nat} (inside : i < width) :
    (twoHot width k).getLsbD i = decide (k % width = i ∨ (k + 1) % width = i) := by
  rw [twoHot, BitVec.getLsbD_or, getLsbD_hot inside, getLsbD_hot inside, Bool.decide_or]

theorem rotateLeft_or {r : Nat} (v w : BitVec width) (bound : r < width) :
    (v ||| w).rotateLeft r = v.rotateLeft r ||| w.rotateLeft r := by
  apply BitVec.eq_of_getLsbD_eq
  intro i inside
  rw [BitVec.getLsbD_or, BitVec.getLsbD_rotateLeft_of_le bound,
    BitVec.getLsbD_rotateLeft_of_le bound, BitVec.getLsbD_rotateLeft_of_le bound]
  by_cases low : i < r <;> simp [low, inside]

theorem rotateRight_or {r : Nat} (v w : BitVec width) (bound : r < width) :
    (v ||| w).rotateRight r = v.rotateRight r ||| w.rotateRight r := by
  apply BitVec.eq_of_getLsbD_eq
  intro i inside
  rw [BitVec.getLsbD_or, BitVec.getLsbD_rotateRight_of_lt bound,
    BitVec.getLsbD_rotateRight_of_lt bound, BitVec.getLsbD_rotateRight_of_lt bound]
  by_cases low : i < width - r <;> simp [low, inside]

theorem twoHot_rotateLeft {r : Nat} (k : Nat) (bound : r < width) :
    (twoHot width k).rotateLeft r = twoHot width (k + r) := by
  rw [twoHot, rotateLeft_or _ _ bound, hot_rotateLeft k bound, hot_rotateLeft (k + 1) bound,
    twoHot, Nat.add_right_comm]

theorem twoHot_rotateRight (k r : Nat) (bound : r < width) :
    (twoHot width (k + r)).rotateRight r = twoHot width k := by
  rw [twoHot, rotateRight_or _ _ bound, hot_rotateRight k r bound, Nat.add_right_comm,
    hot_rotateRight (k + 1) r bound, twoHot]

/-- Neighbouring pairs share the position between them. -/
theorem twoHot_and_twoHot_succ (k : Nat) (wide : 3 ≤ width) :
    twoHot width (k + 1) &&& twoHot width k = hot width (k + 1) := by
  apply BitVec.eq_of_getLsbD_eq
  intro i inside
  have apart : (k + 1 + 1) % width ≠ k % width := add_mod_ne Nat.two_pos (by omega)
  rw [BitVec.getLsbD_and, getLsbD_twoHot inside, getLsbD_twoHot inside, getLsbD_hot inside,
    ← Bool.decide_and]
  exact decide_eq_decide.mpr (by omega)

/-- What a pair covers and its upper neighbour does not. -/
theorem not_twoHot_succ_and_twoHot (k : Nat) (wide : 3 ≤ width) :
    ~~~twoHot width (k + 1) &&& twoHot width k = hot width k := by
  apply BitVec.eq_of_getLsbD_eq
  intro i inside
  have near : (k + 1) % width ≠ k % width := add_mod_ne Nat.one_pos (by omega)
  have far : (k + 1 + 1) % width ≠ k % width := add_mod_ne Nat.two_pos (by omega)
  rw [BitVec.getLsbD_and, BitVec.getLsbD_not, getLsbD_twoHot inside, getLsbD_twoHot inside,
    getLsbD_hot inside, decide_eq_true inside, Bool.true_and, ← decide_not, ← Bool.decide_and]
  exact decide_eq_decide.mpr (by omega)

end Clocked
