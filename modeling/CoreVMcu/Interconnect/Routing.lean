import Mathlib.Data.List.Basic
import CoreVMcu.Clocked.Lanes
import Mathlib.Data.List.FinRange
import Mathlib.Data.Nat.Log

/-!
# TCDM requests and the address decoder

`addr_decode` scans the address map from the lowest to the highest position, so
the matching rule at the highest position decides the index.  Both users of the
decoder in the interconnect enable its default index.

`rr_arb_tree` as the crossbar instantiates it: internal round-robin state, fair
arbitration, no lock-in, and grants that depend on the requests.  A node of the
tree that has requests on both sides follows the bit of `rr_q` of its level.
-/

namespace CoreVMcu.Interconnect

/-- The request half of an `XBAR_TCDM_BUS`, without its `req` flag. -/
structure TcdmRequest where
  add : BitVec 32
  wen : Bool
  wdata : BitVec 32
  be : BitVec 4
  deriving DecidableEq, Repr

/-- The response half of an `XBAR_TCDM_BUS`, without its `r_valid` flag. -/
structure TcdmResponse where
  rRdata : BitVec 32
  rOpc : Bool
  deriving DecidableEq, Repr

/-- A rule of type `addr_map_rule_t`.  The decoder stops elaboration on a rule
whose index is not below `NoIndices` (`check_idx`), so the bound is part of the
type. -/
structure AddrMapRule (noIndices : Nat) where
  idx : Fin noIndices
  startAddr : BitVec 32
  endAddr : BitVec 32
  deriving DecidableEq, Repr

/-- The start address is included in the range of a rule, the end address is
not. -/
def AddrMapRule.covers {noIndices : Nat} (rule : AddrMapRule noIndices)
    (addr : BitVec 32) : Bool :=
  decide (rule.startAddr ≤ addr) && decide (addr < rule.endAddr)

/-- `idx_o` of `addr_decode` with `en_default_idx_i` tied to one. -/
def addrDecode {noIndices : Nat} (defaultIdx : Fin noIndices)
    (addrMap : List (AddrMapRule noIndices)) (addr : BitVec 32) : Fin noIndices :=
  addrMap.foldl (fun idx rule => if rule.covers addr then rule.idx else idx) defaultIdx

/-- `dec_valid_o` of `addr_decode`: some rule matched. -/
def decValid {noIndices : Nat} (addrMap : List (AddrMapRule noIndices))
    (addr : BitVec 32) : Bool :=
  addrMap.any fun rule => rule.covers addr

variable {noIndices : Nat} {defaultIdx : Fin noIndices}
variable {addrMap : List (AddrMapRule noIndices)} {addr : BitVec 32}

/-- An address that no rule matches is mapped to the default index. -/
theorem addrDecode_of_not_decValid (unmatched : decValid addrMap addr = false) :
    addrDecode defaultIdx addrMap addr = defaultIdx := by
  induction addrMap generalizing defaultIdx with
  | nil => rfl
  | cons rule rules inductionHypothesis =>
      simp only [decValid, List.any_cons, Bool.or_eq_false_iff] at unmatched
      simp only [addrDecode, List.foldl_cons, unmatched.1, Bool.false_eq_true, if_false]
      exact inductionHypothesis unmatched.2

/-! ## The round-robin arbitration tree -/

open Clocked

variable {numIn : Nat}

/-- The input that the subtree of `2 ^ height` leaves above leaf `first` selects.
Leaves beyond the inputs never request. -/
def treeSelect (rrQ : Nat) (req : Fin numIn → Bool) :
    (height first : Nat) → Option (Fin numIn)
  | 0, first =>
      if inside : first < numIn then
        if req ⟨first, inside⟩ then some ⟨first, inside⟩ else none
      else none
  | height + 1, first =>
      match treeSelect rrQ req height first,
          treeSelect rrQ req height (first + 2 ^ height) with
      | none, right => right
      | some left, none => some left
      | some left, some right => if rrQ.testBit height then some right else some left

theorem treeSelect_requested {rrQ : Nat} {req : Fin numIn → Bool} {height first : Nat}
    {lane : Fin numIn} (selected : treeSelect rrQ req height first = some lane) :
    req lane = true := by
  induction height generalizing first with
  | zero =>
      simp only [treeSelect] at selected
      split at selected
      next inside =>
        split at selected
        next high => exact Option.some.inj selected ▸ high
        next => cases selected
      next => cases selected
  | succ height inductionHypothesis =>
      simp only [treeSelect] at selected
      split at selected
      next right _ => exact inductionHypothesis selected
      next left leftSelected _ =>
        exact inductionHypothesis (leftSelected.trans selected)
      next left right leftSelected rightSelected =>
        split at selected
        next => exact inductionHypothesis (rightSelected.trans selected)
        next => exact inductionHypothesis (leftSelected.trans selected)

theorem treeSelect_busy {rrQ : Nat} {req : Fin numIn → Bool} {height first : Nat}
    {lane : Fin numIn} (high : req lane = true) (lower : first ≤ lane)
    (upper : lane < first + 2 ^ height) :
    (treeSelect rrQ req height first).isSome = true := by
  induction height generalizing first with
  | zero =>
      have equal : first = lane := by omega
      subst equal
      simp [treeSelect, high]
  | succ height inductionHypothesis =>
      simp only [treeSelect]
      by_cases inLeft : lane.val < first + 2 ^ height
      · have left := inductionHypothesis lower inLeft
        split
        next leftNone => simp [leftNone] at left
        next => rfl
        next => split <;> rfl
      · have right := inductionHypothesis (Nat.le_of_not_lt inLeft)
          (by rw [Nat.pow_succ] at upper; omega)
        split
        next => exact right
        next => rfl
        next => split <;> rfl

/-- `rr_d`: after a granted request, the next requesting input above `rr_q`, or
else the lowest requesting one. -/
def rrNext (rrQ : Nat) (req : Fin numIn → Bool) (granted : Bool) : Nat :=
  if granted then
    match (List.finRange numIn).find? fun lane => decide (rrQ < lane.val) && req lane with
    | some lane => lane
    | none =>
        match (List.finRange numIn).find? fun lane => decide (lane.val ≤ rrQ) && req lane with
        | some lane => lane
        | none => rrQ
  else rrQ

/-- The arbitration tree for `numIn` inputs, with `gnt_i` as the acknowledge. -/
def rrArbTree (numIn : Nat) : Arbiter numIn where
  State := Nat
  init := 0
  grant rrQ req := treeSelect rrQ req (Nat.clog 2 numIn) 0
  next := rrNext
  requested := treeSelect_requested
  busy high := treeSelect_busy high (Nat.zero_le _)
    (Nat.lt_of_lt_of_le (Fin.isLt _) (by
      rw [Nat.zero_add]
      exact Nat.le_pow_clog (by omega) numIn))

end CoreVMcu.Interconnect
