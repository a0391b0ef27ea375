import CoreVMcu.Udma.RxFraming
import CoreVMcu.Udma.RxWrites

/-!
# The L2 port of the RX channels

The accesses that enter the FIFO of the L2 port leave it in order, each after its one
or two writes have been granted.  Every cycle in which the port does not refuse a
request brings the accepted words closer to the memory.
-/

namespace CoreVMcu.Udma

open Clocked

variable {nLin nExt aWidth transSize idWidth : Nat}

namespace RxChannels

variable {arbiter : Arbiter (nLin + nExt)}
variable (channels : RxChannels aWidth transSize idWidth arbiter)
variable (input : RxInput nLin nExt aWidth transSize idWidth)

/-- The access that enters the FIFO of the L2 port, with its lane. -/
def pushes : List (Fin (nLin + nExt) × RxAccess aWidth idWidth) :=
  if channels.pushL2 && channels.fifo.ready rxDepth then
    channels.rGrant.toList.map fun lane => (lane, channels.fifoIn)
  else []

/-- The access at the L2 port is complete. -/
def pops : Bool := channels.accessGnt input && channels.fifo.valid

/-- The bytes that the L2 port writes. -/
def writes : List (BitVec 32 × BitVec 8) :=
  if channels.l2Req && input.l2Gnt then
    laneWrites channels.l2Address channels.l2Be channels.l2Wdata
  else []

/-- The L2 port grants only requests. -/
def GrantsRequest : Prop := input.l2Gnt = true → channels.l2Req = true

/-- The L2 port does not refuse a request. -/
def moves : Bool := !channels.l2Req || input.l2Gnt

variable {channels input}
variable {pushed done queued : List (Fin (nLin + nExt) × RxAccess aWidth idWidth)}
variable {written : List (BitVec 32 × BitVec 8)}

/-! ## Conservation -/

/-- The accesses that have entered the FIFO are complete or wait, and the bytes of the
complete ones are written, and those of the first word of the one at hand when its
second word is addressed. -/
structure InFlight (channels : RxChannels aWidth transSize idWidth arbiter)
    (pushed done queued : List (Fin (nLin + nExt) × RxAccess aWidth idWidth))
    (written : List (BitVec 32 × BitVec 8)) : Prop where
  conserved : pushed = done ++ queued
  fifo : IoGenericFifo.Represents rxDepth channels.fifo (queued.map Prod.snd)
  halfway : channels.isNa = true → ∃ access rest, queued = access :: rest ∧ access.2.splits = true
  written : written = (done.flatMap fun access => access.2.writes) ++
    if channels.isNa then (queued.take 1).flatMap fun access => access.2.wordWrites false else []

theorem inFlight_reset :
    InFlight (reset : RxChannels aWidth transSize idWidth arbiter) [] [] [] [] where
  conserved := rfl
  fifo := IoGenericFifo.represents_reset _ (by decide)
  halfway := fun isNa => Bool.noConfusion isNa
  written := rfl

theorem fifoOut_eq {access : Fin (nLin + nExt) × RxAccess aWidth idWidth}
    {rest : List (Fin (nLin + nExt) × RxAccess aWidth idWidth)}
    (represents : IoGenericFifo.Represents rxDepth channels.fifo
      ((access :: rest).map Prod.snd)) : channels.fifoOut = access.2 :=
  represents.data_eq

theorem l2Req_eq
    (represents : IoGenericFifo.Represents rxDepth channels.fifo (queued.map Prod.snd)) :
    channels.l2Req = !queued.isEmpty := by
  rw [l2Req, represents.valid_eq]
  cases queued <;> rfl

/-- The FIFO after a cycle. -/
theorem represents_step
    (represents : IoGenericFifo.Represents rxDepth channels.fifo (queued.map Prod.snd))
    (input : RxInput nLin nExt aWidth transSize idWidth) :
    IoGenericFifo.Represents rxDepth (channels.step input).fifo
      ((queued.drop (channels.pops input).toNat ++ channels.pushes).map Prod.snd) := by
  have next := represents.step channels.pushL2 channels.fifoIn (channels.accessGnt input)
  have word : channels.pushes.map Prod.snd =
      if channels.pushL2 && channels.fifo.ready rxDepth then [channels.fifoIn] else [] := by
    rw [pushes, pushL2]
    cases channels.rGrant with
    | none => rfl
    | some lane => split <;> rfl
  rw [List.map_append, List.map_drop, word]
  exact next

theorem step_isNa : (channels.step input).isNa = (channels.rxStateNext input == .nonAligned) := rfl

/-- What a cycle of the L2 port does with the waiting accesses: whether it refuses none,
whether the second word is addressed before and after it, whether an access is complete,
and what is written. -/
inductive PortCycle (queued : List (Fin (nLin + nExt) × RxAccess aWidth idWidth)) :
    Bool → Bool → Bool → Bool → List (BitVec 32 × BitVec 8) → Prop
  | waits (isNa : Bool) : PortCycle queued queued.isEmpty isNa isNa false []
  | whole {access : Fin (nLin + nExt) × RxAccess aWidth idWidth}
      {rest : List (Fin (nLin + nExt) × RxAccess aWidth idWidth)}
      (first : queued = access :: rest) (fits : access.2.splits = false) :
      PortCycle queued true false false true (access.2.wordWrites false)
  | firstWord {access : Fin (nLin + nExt) × RxAccess aWidth idWidth}
      {rest : List (Fin (nLin + nExt) × RxAccess aWidth idWidth)}
      (first : queued = access :: rest) (splits : access.2.splits = true) :
      PortCycle queued true false true false (access.2.wordWrites false)
  | secondWord {access : Fin (nLin + nExt) × RxAccess aWidth idWidth}
      {rest : List (Fin (nLin + nExt) × RxAccess aWidth idWidth)}
      (first : queued = access :: rest) :
      PortCycle queued true true false true (access.2.wordWrites true)

theorem refused_of_noGrant (channels : RxChannels aWidth transSize idWidth arbiter)
    (refused : input.l2Gnt = false) :
    channels.pops input = false ∧ (channels.step input).isNa = channels.isNa ∧
      channels.writes input = [] := by
  rw [pops, accessGnt, step_isNa, rxStateNext, isNa, writes]
  cases channels.rRxState <;> simp [refused]

theorem portCycle (represents : IoGenericFifo.Represents rxDepth channels.fifo
      (queued.map Prod.snd)) (grants : channels.GrantsRequest input) :
    PortCycle queued (channels.moves input) channels.isNa (channels.step input).isNa
      (channels.pops input) (channels.writes input) := by
  cases granted : input.l2Gnt with
  | false =>
      obtain ⟨kept, stays, silent⟩ := refused_of_noGrant channels granted
      have moves : channels.moves input = queued.isEmpty := by
        rw [RxChannels.moves, l2Req_eq represents, granted, Bool.not_not, Bool.or_false]
      rw [kept, stays, silent, moves]
      exact .waits _
  | true =>
      have requests := grants granted
      have valid : channels.fifo.valid = true := requests
      rw [l2Req_eq represents] at requests
      cases queued with
      | nil => exact Bool.noConfusion requests
      | cons access rest =>
          have out := fifoOut_eq represents
          have detects : channels.detectsNa = access.2.splits := by
            rw [detectsNa, out]
            rfl
          have writes : channels.writes input = access.2.wordWrites channels.isNa := by
            rw [RxChannels.writes, l2Req, valid, granted, l2Address, l2Be, l2Wdata, out]
            rfl
          have moves : channels.moves input = true := by
            rw [RxChannels.moves, granted, Bool.or_true]
          rw [writes, moves, pops, accessGnt, step_isNa, rxStateNext, isNa, granted, valid, detects]
          cases channels.rRxState with
          | nonAligned => exact .secondWord rfl
          | idle =>
              cases splits : access.2.splits with
              | false => exact .whole rfl splits
              | true => exact .firstWord rfl splits

theorem InFlight.step (inFlight : InFlight channels pushed done queued written)
    (grants : channels.GrantsRequest input) :
    InFlight (channels.step input) (pushed ++ channels.pushes)
      (done ++ queued.take (channels.pops input).toNat)
      (queued.drop (channels.pops input).toNat ++ channels.pushes)
      (written ++ channels.writes input) := by
  have cycle := portCycle inFlight.fifo grants
  have halfway := inFlight.halfway
  have soFar := inFlight.written
  constructor
  case conserved =>
    rw [inFlight.conserved, List.append_assoc, List.append_assoc,
      ← List.append_assoc (queued.take _),
      List.take_append_drop]
  case fifo => exact represents_step inFlight.fifo input
  case halfway =>
    generalize channels.isNa = isNa at cycle halfway
    generalize (channels.step input).isNa = isNaNext at cycle
    generalize channels.pops input = pops at cycle
    generalize channels.writes input = writes at cycle
    generalize channels.moves input = moves at cycle
    cases cycle with
    | waits =>
        intro second
        obtain ⟨access, rest, rfl, splits⟩ := halfway second
        exact ⟨access, _, rfl, splits⟩
    | whole first fits => exact fun second => Bool.noConfusion second
    | firstWord first splits => exact fun _ => ⟨_, _, by rw [first]; rfl, splits⟩
    | secondWord first => exact fun second => Bool.noConfusion second
  case written =>
    generalize channels.isNa = isNa at cycle halfway soFar
    generalize (channels.step input).isNa = isNaNext at cycle
    generalize channels.pops input = pops at cycle
    generalize channels.writes input = writes at cycle
    generalize channels.moves input = moves at cycle
    rw [soFar]
    cases cycle with
    | waits =>
        cases isNa with
        | false => simp
        | true =>
            obtain ⟨access, rest, rfl, -⟩ := halfway rfl
            simp
    | whole first fits => simp [first, RxAccess.writes, fits]
    | firstWord first splits => simp [first]
    | secondWord first =>
        obtain ⟨access, rest, same, splits⟩ := halfway rfl
        obtain ⟨rfl, rfl⟩ := List.cons_eq_cons.mp (first.symm.trans same)
        simp [first, RxAccess.writes, splits]

/-! ## Progress -/

/-- The access in the sampling stage enters the FIFO when there is room. -/
structure Stages (channels : RxChannels aWidth transSize idWidth arbiter)
    (staged : Nat) : Prop where
  one : staged ≤ 1
  room : channels.fifo.ready rxDepth = true → channels.pushes.length = staged

/-- Number of cycles without a refused request after which the oldest `left` accesses of
the FIFO and the staged one are complete; each may need two words. -/
def cyclesLeft (left queued halfway : Nat) : Nat :=
  if left = 0 then 0 else 2 * left + (1 - queued) - halfway

theorem cyclesLeft_le {left queued : Nat} (inFifo : queued ≤ 4) (all : left ≤ queued + 1)
    (halfway : Nat) : cyclesLeft left queued halfway ≤ 10 := by
  unfold cyclesLeft
  split <;> omega

theorem cyclesLeft_pos {left halfway : Nat} (some : 0 < left) (halfwayOne : halfway ≤ 1)
    (queued : Nat) : 0 < cyclesLeft left queued halfway := by
  rw [cyclesLeft, if_neg (Nat.ne_of_gt some)]
  omega

/-- A cycle without a refused request brings the oldest accesses closer to completion. -/
theorem InFlight.closer (inFlight : InFlight channels pushed done queued written)
    (grants : channels.GrantsRequest input) {staged : Nat} (stages : channels.Stages staged)
    {target : Nat} (reached : target ≤ pushed.length + staged) (left : done.length < target) :
    cyclesLeft (target - (done ++ queued.take (channels.pops input).toNat).length)
        (queued.drop (channels.pops input).toNat ++ channels.pushes).length
        (channels.step input).isNa.toNat + (channels.moves input).toNat ≤
      cyclesLeft (target - done.length) queued.length channels.isNa.toNat := by
  have cycle := portCycle inFlight.fifo grants
  have halfway := inFlight.halfway
  have conserved := congrArg List.length inFlight.conserved
  have pushes : queued.length < 4 → channels.pushes.length = staged := fun short =>
    stages.room (inFlight.fifo.ready_iff.mpr (by rwa [List.length_map]))
  have one := stages.one
  simp only [List.length_append, List.length_take, List.length_drop] at conserved ⊢
  generalize channels.isNa = isNa at cycle halfway
  generalize (channels.step input).isNa = isNaNext at cycle
  generalize channels.pops input = pops at cycle
  generalize channels.writes input = writes at cycle
  generalize channels.moves input = moves at cycle
  have some : target - done.length ≠ 0 := Nat.sub_ne_zero_of_lt left
  rw [cyclesLeft, cyclesLeft, if_neg some]
  cases cycle with
  | waits =>
      cases queued with
      | nil =>
          cases isNa with
          | true =>
              obtain ⟨access, rest, empty, -⟩ := halfway rfl
              exact absurd empty.symm (List.cons_ne_nil _ _)
          | false =>
              have staged := pushes (Nat.zero_lt_succ _)
              simp only [List.isEmpty_nil, List.length_nil, Bool.toNat_true, Bool.toNat_false]
                at conserved ⊢
              split <;> omega
      | cons access rest =>
          simp only [List.isEmpty_cons, List.length_cons, Bool.toNat_false] at conserved ⊢
          split <;> omega
  | whole first =>
      rw [first, List.length_cons] at conserved pushes ⊢
      simp only [Bool.toNat_true, Bool.toNat_false]
      split <;> omega
  | firstWord first =>
      rw [first, List.length_cons] at conserved ⊢
      simp only [Bool.toNat_true, Bool.toNat_false]
      split <;> omega
  | secondWord first =>
      rw [first, List.length_cons] at conserved pushes ⊢
      simp only [Bool.toNat_true, Bool.toNat_false]
      split <;> omega

end RxChannels

end CoreVMcu.Udma
