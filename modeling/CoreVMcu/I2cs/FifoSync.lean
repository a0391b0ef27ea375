import Mathlib.Data.List.GetD
import Mathlib.Logic.Function.Basic
import Mathlib.Tactic.IntervalCases

/-!
# The FIFOs of the I2C slave

`FIFO_sync_256x8` keeps its count in a counter and, apart from it, in the flags of its two
sides and the registers `full_reg` and `empty_reg`.  All of them agree, so that it is a queue
of at most 256 bytes.
-/

namespace CoreVMcu.I2cs

/-- The registers of `FIFO_sync_256x8`, with its RAM. -/
structure FifoSync where
  ramWrAddr : BitVec 8
  ramRdAddr : BitVec 8
  fifoCnt : BitVec 9
  wrFlags : BitVec 3
  full : Bool
  rdFlags : BitVec 3
  empty : Bool
  ram : BitVec 8 → BitVec 8

namespace FifoSync

variable (fifo : FifoSync)

/-- The registers in reset; the RAM is not cleared. -/
def reset : FifoSync :=
  { fifo with
    ramWrAddr := 0, ramRdAddr := 0, fifoCnt := 0, wrFlags := 0, full := false, rdFlags := 0,
    empty := true }

/-- An empty FIFO with a cleared RAM. -/
def blank : FifoSync where
  ramWrAddr := 0
  ramRdAddr := 0
  fifoCnt := 0
  wrFlags := 0
  full := false
  rdFlags := 0
  empty := true
  ram _ := 0

/-- `rd_data_o`. -/
def rdData : BitVec 8 := fifo.ram fifo.ramRdAddr

variable (push : Bool) (wrData : BitVec 8) (pop : Bool)

/-- `fifo_cnt` after a clock edge. -/
def nextCnt : BitVec 9 :=
  match push, pop with
  | false, false => fifo.fifoCnt
  | false, true => if fifo.empty then fifo.fifoCnt else fifo.fifoCnt - 1
  | true, false => if fifo.full then fifo.fifoCnt else fifo.fifoCnt + 1
  | true, true =>
      if fifo.empty then fifo.fifoCnt + 1
      else if fifo.full then fifo.fifoCnt - 1
      else fifo.fifoCnt

/-- Flags go one up from the given count and one down from the other one. -/
def flagsBetween (flags : BitVec 3) (up down : BitVec 9) : BitVec 3 :=
  if fifo.fifoCnt = up ∧ push = true ∧ pop = false then flags + 1
  else if fifo.fifoCnt = down ∧ push = false ∧ pop = true then flags - 1
  else flags

/-- `wr_flags_reg` after a clock edge. -/
def nextWrFlags : BitVec 3 :=
  match fifo.wrFlags.toNat with
  | 0 => if fifo.fifoCnt = 256 - 128 ∧ push = true ∧ pop = false then 1 else 0
  | 1 => fifo.flagsBetween push pop 1 (256 - 64) (256 - 127)
  | 2 => fifo.flagsBetween push pop 2 (256 - 32) (256 - 63)
  | 3 => fifo.flagsBetween push pop 3 (256 - 8) (256 - 31)
  | 4 => fifo.flagsBetween push pop 4 (256 - 4) (256 - 7)
  | 5 => fifo.flagsBetween push pop 5 (256 - 2) (256 - 3)
  | 6 =>
      if push = true ∧ pop = false then 7
      else if push = false ∧ pop = true then 5
      else 6
  | _ => if pop then 6 else 7

/-- `full_reg` after a clock edge. -/
def nextFull : Bool :=
  if fifo.full then !pop else fifo.wrFlags == 6 && push && !pop

/-- `rd_flags_reg` after a clock edge. -/
def nextRdFlags : BitVec 3 :=
  match fifo.rdFlags.toNat with
  | 0 => if push then 1 else 0
  | 1 =>
      if push = true ∧ pop = false then 2
      else if push = false ∧ pop = true then 0
      else 1
  | 2 => fifo.flagsBetween push pop 2 3 2
  | 3 => fifo.flagsBetween push pop 3 7 4
  | 4 => fifo.flagsBetween push pop 4 31 8
  | 5 => fifo.flagsBetween push pop 5 63 32
  | 6 => fifo.flagsBetween push pop 6 127 64
  | _ => if fifo.fifoCnt = 128 ∧ push = false ∧ pop = true then 6 else 7

/-- `empty_reg` after a clock edge. -/
def nextEmpty : Bool :=
  if fifo.empty then !push else fifo.rdFlags == 1 && !push && pop

/-- One clock edge. -/
def step : FifoSync where
  ramWrAddr := if push && !fifo.full then fifo.ramWrAddr + 1 else fifo.ramWrAddr
  ramRdAddr := if pop && !fifo.empty then fifo.ramRdAddr + 1 else fifo.ramRdAddr
  fifoCnt := fifo.nextCnt push pop
  wrFlags := fifo.nextWrFlags push pop
  full := fifo.nextFull push pop
  rdFlags := fifo.nextRdFlags push pop
  empty := fifo.nextEmpty push pop
  ram := if push && !fifo.full then Function.update fifo.ram fifo.ramWrAddr wrData else fifo.ram

/-! ## The flags -/

/-- The flags that stand for a number of bytes. -/
def rdLevel (count : Nat) : Nat :=
  if count = 0 then 0 else if count = 1 then 1 else if count < 4 then 2 else if count < 8 then 3
  else if count < 32 then 4 else if count < 64 then 5 else if count < 128 then 6 else 7

/-- The flags that stand for the room that a number of bytes leaves. -/
def wrLevel (count : Nat) : Nat :=
  if count ≤ 128 then 0 else if count ≤ 192 then 1 else if count ≤ 224 then 2
  else if count ≤ 248 then 3 else if count ≤ 252 then 4 else if count ≤ 254 then 5
  else if count = 255 then 6 else 7

/-- The number of bytes after a clock edge, from the one before it. -/
def countAfter (count : Nat) (push pop : Bool) : Nat :=
  count - (if pop then 1 else 0) + (if push = true ∧ count < 256 then 1 else 0)

theorem countAfter_le {count most : Nat} {push pop : Bool} (le : count ≤ most) (some : 0 < most)
    (stays : ¬(count = most ∧ push = true ∧ pop = false)) : countAfter count push pop ≤ most := by
  unfold countAfter
  cases push <;> cases pop <;> simp at stays ⊢ <;> grind

theorem le_countAfter {count least : Nat} {push pop : Bool} (ge : least ≤ count)
    (room : least < 256) (stays : ¬(count = least ∧ push = false ∧ pop = true)) :
    least ≤ countAfter count push pop := by
  unfold countAfter
  cases push <;> cases pop <;> simp at stays ⊢ <;> grind

/-- All registers agree with the counter. -/
structure WellFormed (fifo : FifoSync) : Prop where
  bound : fifo.fifoCnt.toNat ≤ 256
  addresses : fifo.ramWrAddr = fifo.ramRdAddr + fifo.fifoCnt.setWidth 8
  wrFlags : fifo.wrFlags.toNat = wrLevel fifo.fifoCnt.toNat
  full : fifo.full = true ↔ fifo.fifoCnt.toNat = 256
  rdFlags : fifo.rdFlags.toNat = rdLevel fifo.fifoCnt.toNat
  empty : fifo.empty = true ↔ fifo.fifoCnt.toNat = 0

theorem wellFormed_reset : fifo.reset.WellFormed where
  bound := Nat.zero_le 256
  addresses := rfl
  wrFlags := rfl
  full := by simp [reset]
  rdFlags := rfl
  empty := by simp [reset]

/-- The number of bytes after a clock edge. -/
theorem toNat_nextCnt {fifo : FifoSync} (wellFormed : fifo.WellFormed) (push pop : Bool) :
    (fifo.nextCnt push pop).toNat = countAfter fifo.fifoCnt.toNat push pop := by
  have bound := wellFormed.bound
  have full := wellFormed.full
  have empty := wellFormed.empty
  unfold countAfter
  cases push <;> cases pop <;> simp only [nextCnt]
  · simp
  · by_cases none : fifo.fifoCnt.toNat = 0
    · simp [empty.mpr none, none]
    · rw [if_neg (mt empty.mp none)]
      simp
      bv_omega
  · by_cases all : fifo.fifoCnt.toNat = 256
    · simp [full.mpr all, all]
    · have room : fifo.fifoCnt.toNat < 256 := by omega
      rw [if_neg (mt full.mp all)]
      simp only [room, and_self, if_true, Bool.false_eq_true, if_false]
      bv_omega
  · by_cases none : fifo.fifoCnt.toNat = 0
    · rw [if_pos (empty.mpr none)]
      simp only [none, if_true, Nat.zero_lt_succ, and_self]
      bv_omega
    · rw [if_neg (mt empty.mp none)]
      by_cases all : fifo.fifoCnt.toNat = 256
      · rw [if_pos (full.mpr all)]
        simp only [all, if_true, Nat.lt_irrefl, and_false, if_false]
        bv_omega
      · have room : fifo.fifoCnt.toNat < 256 := by omega
        rw [if_neg (mt full.mp all)]
        simp only [room, and_self, if_true]
        omega

/-- Flags that stand for the numbers of bytes from `least` to `most` follow the number. -/
theorem toNat_flagsBetween {level : Nat → Nat} (push pop : Bool) {flags : BitVec 3}
    {up down : BitVec 9} (least most : Nat) (lowest : down.toNat = least)
    (highest : up.toNat = most) (low : 0 < flags.toNat) (high : flags.toNat < 7)
    (positive : 0 < least) (room : most < 256)
    (inside : ∀ count ≤ most, least ≤ count → level count = flags.toNat)
    (above : level (most + 1) = flags.toNat + 1) (below : level (least - 1) = flags.toNat - 1)
    (atLeast : least ≤ fifo.fifoCnt.toNat) (atMost : fifo.fifoCnt.toNat ≤ most) :
    (fifo.flagsBetween push pop flags up down).toNat =
      level (countAfter fifo.fifoCnt.toNat push pop) := by
  have stay := inside _ atMost atLeast
  have goesUp : (flags + 1).toNat = flags.toNat + 1 := by bv_omega
  have goesDown : (flags - 1).toNat = flags.toNat - 1 := by bv_omega
  have notFull : fifo.fifoCnt.toNat < 256 := by omega
  simp only [flagsBetween, BitVec.toNat_eq, countAfter, notFull, and_true, lowest, highest]
  cases push <;> cases pop
  · simp [stay]
  · by_cases first : fifo.fifoCnt.toNat = least
    · simpa [first, below] using goesDown
    · simp [first, inside (fifo.fifoCnt.toNat - 1) (by omega) (by omega)]
  · by_cases last : fifo.fifoCnt.toNat = most
    · simpa [last, above] using goesUp
    · simp [last, inside (fifo.fifoCnt.toNat + 1) (by omega) (by omega)]
  · simp [Nat.sub_add_cancel (positive.trans_le atLeast), stay]

theorem nextWrFlags_eq {fifo : FifoSync} (wellFormed : fifo.WellFormed) (push pop : Bool) :
    (fifo.nextWrFlags push pop).toNat = wrLevel (countAfter fifo.fifoCnt.toNat push pop) := by
  have bound := wellFormed.bound
  have flags := wellFormed.wrFlags
  have between {flags : BitVec 3} {up down : BitVec 9} :=
    @toNat_flagsBetween fifo wrLevel push pop flags up down
  rw [nextWrFlags]
  unfold wrLevel at flags
  split_ifs at flags <;> rw [flags]
  case pos few =>
    have edge : fifo.fifoCnt = 256 - 128 ↔ fifo.fifoCnt.toNat = 128 := by
      rw [← BitVec.toNat_inj]
      rfl
    change (ite _ _ _ : BitVec 3).toNat = _
    have stays (count : Nat) (little : count ≤ 128) : wrLevel count = 0 := if_pos little
    simp only [edge]
    by_cases leaves : fifo.fifoCnt.toNat = 128 ∧ push = true ∧ pop = false
    · rw [if_pos leaves, leaves.1, leaves.2.1, leaves.2.2]
      rfl
    · have remains := countAfter_le few (by decide) leaves
      rw [if_neg leaves, stays _ remains]
      rfl
  · exact between 129 192 rfl rfl (by decide) (by decide) (by decide) (by decide)
      (by decide +kernel) rfl rfl (by omega) (by omega)
  · exact between 193 224 rfl rfl (by decide) (by decide) (by decide) (by decide)
      (by decide +kernel) rfl rfl (by omega) (by omega)
  · exact between 225 248 rfl rfl (by decide) (by decide) (by decide) (by decide)
      (by decide +kernel) rfl rfl (by omega) (by omega)
  · exact between 249 252 rfl rfl (by decide) (by decide) (by decide) (by decide)
      (by decide +kernel) rfl rfl (by omega) (by omega)
  · exact between 253 254 rfl rfl (by decide) (by decide) (by decide) (by decide)
      (by decide +kernel) rfl rfl (by omega) (by omega)
  case pos last =>
    rw [last]
    cases push <;> cases pop <;> rfl
  case neg all =>
    have last : fifo.fifoCnt.toNat = 256 := by omega
    rw [last]
    cases push <;> cases pop <;> rfl

theorem nextRdFlags_eq {fifo : FifoSync} (wellFormed : fifo.WellFormed) (push pop : Bool) :
    (fifo.nextRdFlags push pop).toNat = rdLevel (countAfter fifo.fifoCnt.toNat push pop) := by
  have bound := wellFormed.bound
  have flags := wellFormed.rdFlags
  have between {flags : BitVec 3} {up down : BitVec 9} :=
    @toNat_flagsBetween fifo rdLevel push pop flags up down
  rw [nextRdFlags]
  unfold rdLevel at flags
  split_ifs at flags <;> rw [flags]
  case pos none =>
    rw [none]
    cases push <;> cases pop <;> rfl
  case pos one =>
    rw [one]
    cases push <;> cases pop <;> rfl
  · exact between 2 3 rfl rfl (by decide) (by decide) (by decide) (by decide)
      (by decide) rfl rfl (by omega) (by omega)
  · exact between 4 7 rfl rfl (by decide) (by decide) (by decide) (by decide)
      (by decide) rfl rfl (by omega) (by omega)
  · exact between 8 31 rfl rfl (by decide) (by decide) (by decide) (by decide)
      (by decide) rfl rfl (by omega) (by omega)
  · exact between 32 63 rfl rfl (by decide) (by decide) (by decide) (by decide)
      (by decide) rfl rfl (by omega) (by omega)
  · exact between 64 127 rfl rfl (by decide) (by decide) (by decide) (by decide)
      (by decide) rfl rfl (by omega) (by omega)
  case neg many =>
    have edge : fifo.fifoCnt = 128 ↔ fifo.fifoCnt.toNat = 128 := by
      rw [← BitVec.toNat_inj]
      rfl
    have stays (count : Nat) (enough : 128 ≤ count) : rdLevel count = 7 := by
      unfold rdLevel
      split_ifs <;> omega
    change (ite _ _ _ : BitVec 3).toNat = _
    simp only [edge]
    by_cases leaves : fifo.fifoCnt.toNat = 128 ∧ push = false ∧ pop = true
    · rw [if_pos leaves, leaves.1, leaves.2.1, leaves.2.2]
      rfl
    · have remains := le_countAfter (by omega : 128 ≤ _) (by decide) leaves
      rw [if_neg leaves, stays _ remains]
      rfl

theorem nextFull_iff {fifo : FifoSync} (wellFormed : fifo.WellFormed) (push pop : Bool) :
    fifo.nextFull push pop = true ↔ countAfter fifo.fifoCnt.toNat push pop = 256 := by
  have bound := wellFormed.bound
  have full := wellFormed.full
  have nearlyFull : fifo.wrFlags = 6#3 ↔ fifo.fifoCnt.toNat = 255 := by
    rw [← BitVec.toNat_inj, wellFormed.wrFlags]
    unfold wrLevel
    split_ifs <;> simp <;> omega
  unfold nextFull countAfter
  split
  next all =>
    rw [full.mp all]
    cases push <;> cases pop <;> simp
  next notAll =>
    have room : fifo.fifoCnt.toNat < 256 := by have := mt full.mpr notAll; omega
    simp only [room, and_true]
    cases push <;> cases pop <;> simp [nearlyFull] <;> omega

theorem nextEmpty_iff {fifo : FifoSync} (wellFormed : fifo.WellFormed) (push pop : Bool) :
    fifo.nextEmpty push pop = true ↔ countAfter fifo.fifoCnt.toNat push pop = 0 := by
  have bound := wellFormed.bound
  have empty := wellFormed.empty
  have nearlyEmpty : fifo.rdFlags = 1#3 ↔ fifo.fifoCnt.toNat = 1 := by
    rw [← BitVec.toNat_inj, wellFormed.rdFlags]
    unfold rdLevel
    split_ifs <;> simp <;> omega
  unfold nextEmpty countAfter
  split
  next none =>
    rw [empty.mp none]
    cases push <;> cases pop <;> simp
  next some =>
    have held : fifo.fifoCnt.toNat ≠ 0 := mt empty.mpr some
    cases push <;> cases pop <;> simp [nearlyEmpty] <;> omega

/-! ## The bytes -/

/-- `count` bytes of a RAM from an address on. -/
def stored (ram : BitVec 8 → BitVec 8) (address : BitVec 8) (count : Nat) : List (BitVec 8) :=
  (List.range count).map fun offset => ram (address + BitVec.ofNat 8 offset)

theorem stored_succ (ram : BitVec 8 → BitVec 8) (address : BitVec 8) (count : Nat) :
    stored ram address (count + 1) = ram address :: stored ram (address + 1) count := by
  rw [stored, List.range_succ_eq_map, List.map_cons, List.map_map]
  congr 1
  · rw [BitVec.add_zero]
  · apply List.map_congr_left
    intro offset _
    simp only [Function.comp_apply]
    congr 1
    bv_omega

/-- A byte that is written after the last one. -/
theorem stored_update {count : Nat} (room : count < 256) (ram : BitVec 8 → BitVec 8)
    (address : BitVec 8) (byte : BitVec 8) :
    stored (Function.update ram (address + BitVec.ofNat 8 count) byte) address (count + 1) =
      stored ram address count ++ [byte] := by
  rw [stored, List.range_succ, List.map_append, List.map_singleton, Function.update_self]
  congr 1
  apply List.map_congr_left
  intro offset member
  have before := List.mem_range.mp member
  apply Function.update_of_ne
  bv_omega

/-- The bytes that are held, oldest first. -/
def contents : List (BitVec 8) :=
  stored fifo.ram fifo.ramRdAddr fifo.fifoCnt.toNat

@[simp] theorem contents_reset : fifo.reset.contents = [] := rfl

theorem contents_length : fifo.contents.length = fifo.fifoCnt.toNat := by
  rw [contents, stored, List.length_map, List.length_range]

variable {fifo}

/-- The byte that is read. -/
theorem rdData_eq (held : fifo.contents ≠ []) : fifo.contents.head? = some fifo.rdData := by
  have some : fifo.fifoCnt.toNat ≠ 0 := by
    rwa [← contents_length, Ne, List.length_eq_zero_iff]
  obtain ⟨count, equal⟩ := Nat.exists_eq_succ_of_ne_zero some
  rw [contents, equal, stored_succ]
  rfl

/-- The address that is read next. -/
theorem step_ramRdAddr (wellFormed : fifo.WellFormed) (push : Bool) (wrData : BitVec 8)
    (pop : Bool) :
    (fifo.step push wrData pop).ramRdAddr =
      if pop = true ∧ fifo.fifoCnt.toNat ≠ 0 then fifo.ramRdAddr + 1 else fifo.ramRdAddr := by
  have empty := wellFormed.empty
  cases pop with
  | false => rfl
  | true =>
    by_cases none : fifo.fifoCnt.toNat = 0
    · simp [FifoSync.step, empty.mpr none, none]
    · simp [FifoSync.step, Bool.not_eq_true _ ▸ mt empty.mp none, none]

/-- A byte is written after all that remain. -/
theorem ramWrAddr_eq (wellFormed : fifo.WellFormed) (push : Bool) (wrData : BitVec 8)
    (pop : Bool) :
    fifo.ramWrAddr =
      (fifo.step push wrData pop).ramRdAddr +
        BitVec.ofNat 8 (fifo.fifoCnt.toNat - (if pop then 1 else 0)) := by
  have bound := wellFormed.bound
  have addresses := wellFormed.addresses
  rw [step_ramRdAddr wellFormed]
  cases pop
  · simp
    bv_omega
  · by_cases none : fifo.fifoCnt.toNat = 0
    · simp [none]
      bv_omega
    · simp [none]
      bv_omega

theorem WellFormed.step (wellFormed : fifo.WellFormed) (push : Bool) (wrData : BitVec 8)
    (pop : Bool) : (fifo.step push wrData pop).WellFormed where
  bound := by
    have bound := wellFormed.bound
    rw [FifoSync.step, toNat_nextCnt wellFormed, countAfter]
    split_ifs <;> omega
  addresses := by
    have bound := wellFormed.bound
    have full := wellFormed.full
    have count : (fifo.step push wrData pop).fifoCnt.toNat = _ :=
      toNat_nextCnt wellFormed push pop
    have writes := ramWrAddr_eq wellFormed push wrData pop
    have advances : (fifo.step push wrData pop).ramWrAddr =
        if push = true ∧ fifo.fifoCnt.toNat < 256 then fifo.ramWrAddr + 1 else fifo.ramWrAddr := by
      rw [FifoSync.step]
      cases push <;> simp
      grind
    have remaining : fifo.fifoCnt.toNat - (if pop then 1 else 0) ≤ 256 := by omega
    rw [advances, writes]
    unfold countAfter at count
    generalize fifo.fifoCnt.toNat - (if pop then 1 else 0) = rest at *
    split
    next accepted =>
      rw [if_pos accepted] at count
      bv_omega
    next refused =>
      rw [if_neg refused] at count
      bv_omega
  wrFlags := by
    rw [FifoSync.step, toNat_nextCnt wellFormed]
    exact nextWrFlags_eq wellFormed push pop
  full := by
    rw [FifoSync.step, toNat_nextCnt wellFormed]
    exact nextFull_iff wellFormed push pop
  rdFlags := by
    rw [FifoSync.step, toNat_nextCnt wellFormed]
    exact nextRdFlags_eq wellFormed push pop
  empty := by
    rw [FifoSync.step, toNat_nextCnt wellFormed]
    exact nextEmpty_iff wellFormed push pop

/-- A byte that is popped leaves at the front and one that is pushed joins at the end. -/
theorem contents_step (wellFormed : fifo.WellFormed) (push : Bool) (wrData : BitVec 8)
    (pop : Bool) :
    (fifo.step push wrData pop).contents =
      (if pop then fifo.contents.tail else fifo.contents) ++
        (if push && !fifo.full then [wrData] else []) := by
  have bound := wellFormed.bound
  have full := wellFormed.full
  have count : (fifo.step push wrData pop).fifoCnt.toNat = _ :=
    toNat_nextCnt wellFormed push pop
  have remaining :
      stored fifo.ram (fifo.step push wrData pop).ramRdAddr
          (fifo.fifoCnt.toNat - (if pop then 1 else 0)) =
        if pop then fifo.contents.tail else fifo.contents := by
    rw [step_ramRdAddr wellFormed, contents]
    cases pop
    · simp
    · rcases equal : fifo.fifoCnt.toNat with _ | rest
      · simp [stored]
      · simp [stored_succ]
  rw [← remaining, contents, count, countAfter]
  by_cases accepted : push = true ∧ fifo.fifoCnt.toNat < 256
  · have room : fifo.full = false := by
      rw [← Bool.not_eq_true, full]
      omega
    have writes : (fifo.step true wrData pop).ram =
        Function.update fifo.ram fifo.ramWrAddr wrData := by
      simp [FifoSync.step, room]
    rw [if_pos accepted, accepted.1, writes, ramWrAddr_eq wellFormed true wrData pop,
      stored_update (by omega), room]
    rfl
  · have refused : (push && !fifo.full) = false := by
      cases push with
      | false => rfl
      | true =>
        have all : fifo.full = true := full.mpr (by simp at accepted; omega)
        rw [all]
        rfl
    rw [if_neg accepted, refused]
    simp [FifoSync.step, refused]

end FifoSync

end CoreVMcu.I2cs
