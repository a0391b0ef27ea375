import CoreVMcu.Efpga.A2Fifo

/-!
# `A2_fifo` refines the abstract asynchronous FIFO

The registers are the Gray codes and the binary encodings of the abstract
counters, one bit wider than an address.  The refinement holds at every instant
that pushes nothing into a full FIFO.
-/

namespace CoreVMcu.Efpga

open Clocked

variable {width aWidth : Nat}

/-- Counters within one turn of each other are told apart by their encodings. -/
theorem ofNat_eq_ofNat_iff {n a b : Nat} (le : a ≤ b) (bound : b < a + 2 ^ n) :
    BitVec.ofNat n a = BitVec.ofNat n b ↔ a = b := by
  constructor
  · intro equal
    have same := congrArg BitVec.toNat equal
    rw [BitVec.toNat_ofNat, BitVec.toNat_ofNat] at same
    by_contra different
    have apart : (b - a) % 2 ^ n = 0 := by
      have divides := Nat.sub_mod_eq_zero_of_mod_eq same.symm
      exact divides
    rw [Nat.mod_eq_of_lt (by omega)] at apart
    omega
  · rintro rfl
    rfl

theorem ofNat_add_one (n a : Nat) : BitVec.ofNat n a + 1#n = BitVec.ofNat n (a + 1) := by
  rw [BitVec.ofNat_add]

theorem setWidth_ofNat (a : Nat) :
    (BitVec.ofNat (aWidth + 1) a).setWidth aWidth = BitVec.ofNat aWidth a :=
  BitVec.setWidth_ofNat_of_le (Nat.le_succ aWidth) a

theorem two_pow_succ (n : Nat) : 2 ^ (n + 1) = 2 ^ n + 2 ^ n := by
  rw [Nat.pow_succ, Nat.mul_two]

/-- Inverting the top bit moves a counter by half a turn. -/
theorem cons_not_msb (a : Nat) :
    BitVec.cons (!(BitVec.ofNat (aWidth + 1) a).msb)
        ((BitVec.ofNat (aWidth + 1) a).setWidth aWidth) =
      BitVec.ofNat (aWidth + 1) (a + 2 ^ aWidth) := by
  have low : a % 2 ^ (aWidth + 1) % 2 ^ aWidth = a % 2 ^ aWidth :=
    Nat.mod_mod_of_dvd a (Nat.pow_dvd_pow 2 (Nat.le_succ aWidth))
  have positive := Nat.two_pow_pos aWidth
  apply BitVec.eq_of_toNat_eq
  rw [BitVec.toNat_cons', BitVec.msb_eq_decide, setWidth_ofNat]
  simp only [BitVec.toNat_ofNat, Nat.add_sub_cancel, Nat.shiftLeft_eq]
  rw [Nat.add_mod a, ← low, two_pow_succ]
  have small := Nat.mod_lt a (Nat.add_pos_left positive (2 ^ aWidth))
  generalize 2 ^ aWidth = half at *
  generalize a % (half + half) = m at *
  rw [Nat.mod_eq_of_lt (by omega : half < half + half)]
  by_cases high : half ≤ m
  · rw [Nat.mod_eq_sub_mod high, Nat.mod_eq_of_lt (by omega : m - half < half),
      Nat.mod_eq_sub_mod (by omega : half + half ≤ m + half),
      Nat.mod_eq_of_lt (by omega : m + half - (half + half) < half + half)]
    simp only [high, decide_true, Bool.not_true, Bool.toNat_false]
    omega
  · rw [Nat.mod_eq_of_lt (by omega : m < half),
      Nat.mod_eq_of_lt (by omega : m + half < half + half)]
    simp only [high, decide_false, Bool.not_false, Bool.toNat_true]
    omega

/-- The full flag at two counters. -/
theorem fullAt_ofNat {pushed popped : Nat} (le : popped ≤ pushed)
    (bound : pushed ≤ popped + 2 ^ aWidth) :
    A2PushSide.fullAt (BitVec.ofNat (aWidth + 1) pushed) (BitVec.ofNat (aWidth + 1) popped) =
      decide (pushed = popped + 2 ^ aWidth) := by
  have positive := Nat.two_pow_pos aWidth
  have turned : BitVec.ofNat (aWidth + 1) popped =
      BitVec.ofNat (aWidth + 1) (popped + 2 ^ aWidth + 2 ^ aWidth) := by
    rw [Nat.add_assoc, ← two_pow_succ]
    exact BitVec.eq_of_toNat_eq (by simp)
  rw [A2PushSide.fullAt, cons_not_msb, turned]
  have same := ofNat_eq_ofNat_iff (n := aWidth + 1)
    (Nat.add_le_add_right bound (2 ^ aWidth)) (by rw [two_pow_succ]; omega)
  rw [Bool.eq_iff_iff, beq_iff_eq, same, decide_eq_true_eq]
  omega

/-! ## The push side -/

/-- The registers of the push side encode the abstract push side.  `taken` words
may be overwritten. -/
structure PushRepresents (side : A2PushSide width aWidth)
    (abstract : PushSide (BitVec width)) (taken : Nat) : Prop where
  waddr : side.waddr = BitVec.ofNat (aWidth + 1) abstract.words.length
  gcoutReg : side.gcoutReg = grayEncode (BitVec.ofNat (aWidth + 1) abstract.words.length)
  full : side.full = abstract.full (2 ^ aWidth)
  poptopush1 : side.poptopush1 = grayEncode (BitVec.ofNat (aWidth + 1) abstract.first)
  poptopush2 : side.poptopush2 = grayEncode (BitVec.ofNat (aWidth + 1) abstract.second)
  holds : Holds (BitVec.ofNat aWidth) side.dataRam abstract.words taken

theorem distinctSlots_ofNat : DistinctSlots (2 ^ aWidth) (BitVec.ofNat aWidth) := by
  intro i j le bound same
  exact (ofNat_eq_ofNat_iff le bound).mp same

variable {side : A2PushSide width aWidth} {abstract : PushSide (BitVec width)} {taken : Nat}

theorem PushRepresents.mono {later : Nat} (represents : PushRepresents side abstract taken)
    (le : taken ≤ later) : PushRepresents side abstract later :=
  { represents with holds := represents.holds.mono le }

/-- No word is pushed into a full FIFO at an edge. -/
def PushesRoom (side : A2PushSide width aWidth) (request : Option (BitVec width)) : Prop :=
  request.isSome = true → side.full = false

/-- One edge of `wclk` that pushes nothing into a full FIFO. -/
theorem PushRepresents.edge (represents : PushRepresents side abstract taken)
    {request : Option (BitVec width)} (room : PushesRoom side request)
    (seen : abstract.seen ≤ abstract.second) (second : abstract.second ≤ taken)
    (stored : taken ≤ abstract.words.length)
    (bounded : abstract.words.length ≤ abstract.seen + 2 ^ aWidth) :
    PushRepresents (side.edge (grayEncode (BitVec.ofNat (aWidth + 1) taken)) request)
      (abstract.edge (2 ^ aWidth) taken request) taken := by
  cases request with
  | none =>
      exact
        { waddr := by simp [A2PushSide.edge, A2PushSide.waddrAfter, PushSide.edge,
            PushSide.accepts, represents.waddr]
          gcoutReg := by simp [A2PushSide.edge, PushSide.edge, PushSide.accepts,
            represents.gcoutReg]
          full := by
            simp only [A2PushSide.edge, A2PushSide.waddrAfter, A2PushSide.raddrNext,
              PushSide.edge, PushSide.accepts, PushSide.full, represents.waddr,
              represents.poptopush2, grayDecode_grayEncode, List.append_nil, Option.isSome_none,
              Bool.false_eq_true, if_false]
            exact fullAt_ofNat (by omega) (by omega)
          poptopush1 := rfl
          poptopush2 := represents.poptopush1
          holds := by simpa [A2PushSide.edge, PushSide.edge, PushSide.accepts] using
            represents.holds }
  | some wdata =>
      have notFull : side.full = false := room rfl
      have space : abstract.words.length ≠ abstract.seen + 2 ^ aWidth := by
        rw [represents.full, PushSide.full, decide_eq_false_iff_not] at notFull
        exact notFull
      have accepts : abstract.accepts (2 ^ aWidth) (some wdata) = [wdata] := by
        simp [PushSide.accepts, PushSide.full, space]
      exact
        { waddr := by simp [A2PushSide.edge, A2PushSide.waddrAfter, PushSide.edge, accepts,
            represents.waddr, ofNat_add_one]
          gcoutReg := by simp [A2PushSide.edge, PushSide.edge, accepts, represents.waddr,
            ofNat_add_one]
          full := by
            simp only [A2PushSide.edge, A2PushSide.waddrAfter, A2PushSide.raddrNext,
              PushSide.edge, accepts, PushSide.full, represents.waddr, represents.poptopush2,
              grayDecode_grayEncode, List.length_append, List.length_singleton,
              Option.isSome_some, if_true, ofNat_add_one]
            exact fullAt_ofNat (by omega) (by omega)
          poptopush1 := rfl
          poptopush2 := represents.poptopush1
          holds := by
            simp only [A2PushSide.edge, PushSide.edge, accepts, notFull, Bool.false_eq_true,
              if_false, represents.waddr, setWidth_ofNat]
            exact represents.holds.store distinctSlots_ofNat (by omega) wdata }

/-- The registers of the pop side encode the abstract pop side.  The prefetch
address is the next one to read while the FIFO is empty, and otherwise the one
after the word that is offered. -/
structure PopRepresents (side : A2PopSide aWidth) (abstract : PopSide) : Prop where
  raddr : side.raddr = BitVec.ofNat (aWidth + 1) abstract.count
  gcoutReg : side.gcoutReg = grayEncode (BitVec.ofNat (aWidth + 1) abstract.count)
  empty : side.empty = abstract.empty
  pushtopop1 : side.pushtopop1 = grayEncode (BitVec.ofNat (aWidth + 1) abstract.first)
  pushtopop2 : side.pushtopop2 = grayEncode (BitVec.ofNat (aWidth + 1) abstract.second)
  ffRaddr : side.ffRaddr =
    BitVec.ofNat aWidth (if side.empty then abstract.count else abstract.count + 1)
  latchedRaddr : side.empty = false → side.latchedRaddr = BitVec.ofNat aWidth abstract.count

variable {popSide : A2PopSide aWidth} {popAbstract : PopSide}

theorem PopRepresents.advances (represents : PopRepresents popSide popAbstract) (pop : Bool) :
    popSide.advances pop = popAbstract.takes pop := by
  rw [A2PopSide.advances, PopSide.takes, represents.empty]

theorem PopRepresents.raddrAfter (represents : PopRepresents popSide popAbstract) (pop : Bool)
    (pushed : Nat) :
    popSide.raddrAfter pop = BitVec.ofNat (aWidth + 1) (popAbstract.edge pushed pop).count := by
  rw [A2PopSide.raddrAfter, represents.advances, represents.raddr, ofNat_add_one, PopSide.edge]
  cases popAbstract.takes pop <;> rfl

/-- The empty flag after an edge. -/
theorem PopRepresents.emptyNext (represents : PopRepresents popSide popAbstract) (pop : Bool)
    (pushed : Nat) (le : (popAbstract.edge pushed pop).count ≤ popAbstract.second)
    (bound : popAbstract.second ≤ popAbstract.count + 2 ^ aWidth) :
    popSide.emptyNext pop = (popAbstract.edge pushed pop).empty := by
  have below : popAbstract.count ≤ (popAbstract.edge pushed pop).count := by
    simp only [PopSide.edge]
    split <;> omega
  have positive := Nat.two_pow_pos aWidth
  rw [A2PopSide.emptyNext, represents.raddrAfter pop pushed, A2PopSide.waddrNext,
    represents.pushtopop2, grayDecode_grayEncode, Bool.eq_iff_iff, beq_iff_eq,
    ofNat_eq_ofNat_iff le (by rw [two_pow_succ]; omega), PopSide.empty, decide_eq_true_eq]
  rfl

/-- One edge of `rclk`. -/
theorem PopRepresents.edge (represents : PopRepresents popSide popAbstract) (pop : Bool)
    (pushed : Nat) (le : (popAbstract.edge pushed pop).count ≤ popAbstract.second)
    (seen : popAbstract.seen ≤ popAbstract.second) (ordered : popAbstract.count ≤ popAbstract.seen)
    (bound : popAbstract.second ≤ popAbstract.count + 2 ^ aWidth) :
    PopRepresents (popSide.edge (grayEncode (BitVec.ofNat (aWidth + 1) pushed)) pop)
      (popAbstract.edge pushed pop) := by
  have emptyNext := represents.emptyNext pop pushed le bound
  have after := represents.raddrAfter pop pushed
  have advances := represents.advances pop
  have count : (popAbstract.edge pushed pop).count =
      if popSide.advances pop then popAbstract.count + 1 else popAbstract.count := by
    rw [advances]
    rfl
  refine
    { raddr := after
      gcoutReg := ?gcoutReg
      empty := emptyNext
      pushtopop1 := rfl
      pushtopop2 := represents.pushtopop1
      ffRaddr := ?ffRaddr
      latchedRaddr := ?latchedRaddr }
  case gcoutReg =>
    rw [A2PopSide.edge, count, represents.gcoutReg, represents.raddr, ofNat_add_one]
    cases popSide.advances pop <;> rfl
  case ffRaddr =>
    simp only [A2PopSide.edge, count]
    rw [represents.ffRaddr, represents.raddr, ofNat_add_one, setWidth_ofNat]
    cases wasEmpty : popSide.empty with
    | true =>
        have stays : popSide.advances pop = false := by simp [A2PopSide.advances, wasEmpty]
        cases popSide.emptyNext pop <;> simp [stays]
    | false =>
        cases moves : popSide.advances pop with
        | true => cases popSide.emptyNext pop <;> simp [ofNat_add_one]
        | false =>
            -- a word that is offered and not popped stays there
            have offered : popSide.emptyNext pop = false := by
              have available : popAbstract.count ≠ popAbstract.seen := by
                simpa [PopSide.empty] using represents.empty.symm.trans wasEmpty
              rw [emptyNext, PopSide.empty, decide_eq_false_iff_not, count, moves]
              simp only [PopSide.edge, Bool.false_eq_true, if_false]
              omega
            simp [offered]
  case latchedRaddr =>
    intro offered
    simp only [A2PopSide.edge, count] at offered ⊢
    rw [represents.ffRaddr]
    cases wasEmpty : popSide.empty with
    | true =>
        have stays : popSide.advances pop = false := by simp [A2PopSide.advances, wasEmpty]
        simp [stays]
    | false =>
        cases pop with
        | true => simp [A2PopSide.advances, wasEmpty]
        | false => simp [A2PopSide.advances, represents.latchedRaddr wasEmpty]

/-! ## The FIFO -/

/-- The registers of the FIFO encode an abstract FIFO. -/
structure Represents (fifo : A2Fifo width aWidth) (abstract : AsyncFifo (BitVec width)) :
    Prop where
  push : PushRepresents fifo.push abstract.push abstract.pop.count
  pop : PopRepresents fifo.pop abstract.pop
  ordered : abstract.Ordered (2 ^ aWidth)

/-- No word is pushed into a full FIFO at an instant. -/
def NoPushWhileFull (fifo : A2Fifo width aWidth) (edges : FifoEdges (BitVec width)) : Prop :=
  ∀ request, edges.push = some request → PushesRoom fifo.push request

theorem represents_flushed (ram : UnresetRam width aWidth) :
    Represents (A2Fifo.flushed ram) AsyncFifo.reset where
  push :=
    { waddr := rfl
      gcoutReg := grayEncode_zero.symm
      full := by
        have positive := Nat.two_pow_pos aWidth
        simp only [A2Fifo.flushed, AsyncFifo.reset, PushSide.full, List.length_nil]
        exact (decide_eq_false (by omega)).symm
      poptopush1 := grayEncode_zero.symm
      poptopush2 := grayEncode_zero.symm
      holds := Holds.nil }
  pop :=
    { raddr := rfl
      gcoutReg := grayEncode_zero.symm
      empty := rfl
      pushtopop1 := grayEncode_zero.symm
      pushtopop2 := grayEncode_zero.symm
      ffRaddr := rfl
      latchedRaddr := fun offered => by cases offered }
  ordered := AsyncFifo.ordered_reset _

variable {fifo : A2Fifo width aWidth} {abstractFifo : AsyncFifo (BitVec width)}
  {edges : FifoEdges (BitVec width)}

/-- The refinement over one instant. -/
theorem Represents.step (represents : Represents fifo abstractFifo)
    (room : NoPushWhileFull fifo edges) :
    Represents (fifo.step edges) (abstractFifo.step (2 ^ aWidth) edges) := by
  have ordered := represents.ordered
  have later := ordered.step edges
  have count := AsyncFifo.count_step (2 ^ aWidth) abstractFifo edges
  obtain ⟨seenPopped, secondPopped, firstPopped, poppedSeen, seenPushed, secondPushed,
    firstPushed, bounded⟩ := ordered
  refine ⟨PushRepresents.mono ?_ (count ▸ Nat.le_add_right _ _), ?_, later⟩
  · simp only [A2Fifo.step, AsyncFifo.step]
    cases push : edges.push with
    | none => exact represents.push
    | some request =>
        simp only
        rw [represents.pop.gcoutReg]
        exact represents.push.edge (room request push) (by omega) (by omega) (by omega)
          (by omega)
  · simp only [A2Fifo.step, AsyncFifo.step]
    cases pop : edges.pop with
    | none => exact represents.pop
    | some request =>
        have laterSeen := later.poppedSeen
        simp only [AsyncFifo.step, pop] at laterSeen
        simp only
        rw [represents.push.gcoutReg]
        exact represents.pop.edge request _ laterSeen (by omega) (by omega) (by omega)

theorem Represents.accepted_eq (represents : Represents fifo abstractFifo) :
    fifo.accepted edges = abstractFifo.accepted (2 ^ aWidth) edges := by
  rw [A2Fifo.accepted, AsyncFifo.accepted, represents.push.full]
  cases edges.push with
  | none => rfl
  | some request => cases request <;> rfl

/-- The FIFOs of the bridges have four words. -/
theorem Represents.accepted_eq_four {fifo : A2Fifo width 2}
    {edges : FifoEdges (BitVec width)}
    (represents : Represents fifo abstractFifo) :
    fifo.accepted edges = abstractFifo.accepted 4 edges :=
  represents.accepted_eq

/-- One word is delivered when one is taken. -/
theorem Represents.length_delivered (represents : Represents fifo abstractFifo) :
    (fifo.delivered edges).length = (abstractFifo.taken edges).toNat := by
  rw [A2Fifo.delivered, AsyncFifo.taken]
  cases edges.pop with
  | none => rfl
  | some pop =>
      simp only [represents.pop.advances]
      cases abstractFifo.pop.takes pop <;> rfl

/-- The word that is offered is the next one that was accepted. -/
theorem Represents.delivered_eq (represents : Represents fifo abstractFifo) :
    abstractFifo.push.words.take abstractFifo.pop.count ++ fifo.delivered edges =
      abstractFifo.push.words.take
        (abstractFifo.pop.count + (abstractFifo.taken edges).toNat) := by
  have available := represents.ordered.available edges
  have ordered := represents.ordered
  rw [A2Fifo.delivered, AsyncFifo.taken] at *
  cases pop : edges.pop with
  | none => simp
  | some request =>
      simp only [pop, represents.pop.advances] at available ⊢
      cases taken : abstractFifo.pop.takes request with
      | false => simp
      | true =>
          have offered : fifo.pop.empty = false := by
            simp only [PopSide.takes, Bool.and_eq_true, Bool.not_eq_true'] at taken
            rw [represents.pop.empty]
            exact taken.2
          simp only [taken, Bool.toNat_true, if_true] at available ⊢
          rw [A2Fifo.rdata, represents.pop.latchedRaddr offered]
          refine (represents.push.holds.next ?_).symm
          have seenPushed := ordered.seenPushed
          have secondPushed := ordered.secondPushed
          have firstPushed := ordered.firstPushed
          omega

/-- The FIFO has accepted the words `pushed` and delivered the words `popped`. -/
structure Carries (fifo : A2Fifo width aWidth) (abstract : AsyncFifo (BitVec width))
    (pushed popped : List (BitVec width)) : Prop where
  represents : Represents fifo abstract
  pushed : pushed = abstract.push.words
  popped : popped = abstract.push.words.take abstract.pop.count

variable {pushed popped : List (BitVec width)}

theorem carries_flushed (ram : UnresetRam width aWidth) :
    Carries (A2Fifo.flushed ram) AsyncFifo.reset [] [] :=
  ⟨represents_flushed ram, rfl, rfl⟩

theorem Carries.count_le (carries : Carries fifo abstractFifo pushed popped) :
    abstractFifo.pop.count ≤ abstractFifo.push.words.length := by
  obtain ⟨-, -, -, poppedSeen, seenPushed, secondPushed, firstPushed, -⟩ :=
    carries.represents.ordered
  omega

theorem Carries.length_popped (carries : Carries fifo abstractFifo pushed popped) :
    popped.length = abstractFifo.pop.count := by
  rw [carries.popped, List.length_take_of_le carries.count_le]

/-- What was delivered is a prefix of what was accepted. -/
theorem Carries.inOrder (carries : Carries fifo abstractFifo pushed popped) :
    popped <+: pushed := by
  rw [carries.popped, carries.pushed]
  exact List.take_prefix _ _

/-- The word that is offered extends what was delivered. -/
theorem Carries.offered (carries : Carries fifo abstractFifo pushed popped)
    (offers : fifo.pop.empty = false) : popped ++ [fifo.rdata] <+: pushed := by
  have delivered : abstractFifo.push.words.take abstractFifo.pop.count ++
      fifo.delivered ⟨none, some true⟩ = _ := carries.represents.delivered_eq
  simp only [A2Fifo.delivered, A2PopSide.advances, offers, Bool.not_false, Bool.and_self,
    if_true] at delivered
  rw [carries.popped, carries.pushed, delivered]
  exact List.take_prefix _ _

/-- One instant that pushes nothing into a full FIFO. -/
theorem Carries.step (carries : Carries fifo abstractFifo pushed popped)
    (room : NoPushWhileFull fifo edges) :
    Carries (fifo.step edges) (abstractFifo.step (2 ^ aWidth) edges)
      (pushed ++ fifo.accepted edges) (popped ++ fifo.delivered edges) := by
  have words := AsyncFifo.words_step (2 ^ aWidth) abstractFifo edges
  have count := AsyncFifo.count_step (2 ^ aWidth) abstractFifo edges
  have available := carries.represents.ordered.available edges
  obtain ⟨-, -, -, -, seenPushed, secondPushed, firstPushed, -⟩ := carries.represents.ordered
  refine ⟨carries.represents.step room, ?_, ?_⟩
  · rw [carries.pushed, carries.represents.accepted_eq, words]
  · rw [carries.popped, carries.represents.delivered_eq, words, count,
      List.take_append_of_le_length (by omega)]

/-- A FIFO of rank zero has delivered what it accepted. -/
theorem Carries.drained (carries : Carries fifo abstractFifo pushed popped)
    (drained : abstractFifo.rank = 0) : popped = pushed := by
  rw [carries.popped, carries.pushed,
    AsyncFifo.count_eq_of_rank carries.represents.ordered drained, List.take_length]

end CoreVMcu.Efpga
