import Mathlib.Algebra.Group.Nat.Defs
import Mathlib.Data.BitVec

/-!
# Address generator of a uDMA channel

`udma_ch_addrgen` holds the address of the next access of a channel and the
number of bytes left.  It moves on when the channel is granted and the pipeline
behind it does not stall.
-/

namespace CoreVMcu.Udma

/-- Registers of `udma_ch_addrgen`. -/
structure ChAddrgen (aWidth transSize idWidth : Nat) where
  addresses : BitVec aWidth
  counters : BitVec transSize
  stream : BitVec 2
  streamId : BitVec idWidth
  en : Bool
  event : Bool
  chEn : Bool
  pendingEn : Bool
  sot : Bool
  deriving DecidableEq, Repr

/-- Configuration inputs of a channel. -/
structure ChannelCfg (aWidth transSize idWidth : Nat) where
  startaddr : BitVec aWidth
  size : BitVec transSize
  continuous : Bool
  en : Bool
  stream : BitVec 2
  streamId : BitVec idWidth
  clr : Bool

/-- Inputs of a channel from the pipeline that it feeds. -/
structure ChannelControl where
  notStall : Bool
  datasize : BitVec 2
  grant : Bool

variable {aWidth transSize idWidth : Nat}

/-- `s_datasize_toadd`. -/
def datasizeToAdd (width : Nat) (datasize : BitVec 2) : BitVec width :=
  match datasize.toNat with
  | 0 => BitVec.ofNat width 1
  | 1 => BitVec.ofNat width 2
  | 2 => BitVec.ofNat width 4
  | _ => BitVec.ofNat width 0

namespace ChAddrgen

/-- The registers after reset. -/
def reset : ChAddrgen aWidth transSize idWidth :=
  { addresses := 0, counters := 0, stream := 0, streamId := 0, en := false, event := false
    chEn := false, pendingEn := false, sot := false }

/-- `s_compare`: the next access is the last one. -/
def compare (gen : ChAddrgen aWidth transSize idWidth) (control : ChannelControl) : Bool :=
  gen.counters ≤ datasizeToAdd transSize control.datasize

/-- `int_ch_curr_bytes_o`: the number of valid bytes of the next access, less one. -/
def currBytes (gen : ChAddrgen aWidth transSize idWidth) (control : ChannelControl) : BitVec 2 :=
  let left := gen.counters.extractLsb' 0 2
  match control.datasize.toNat with
  | 1 => if gen.compare control && left == 1 then 0 else 1
  | 2 =>
      if gen.compare control && left == 1 then 0
      else if gen.compare control && left == 2 then 1
      else if gen.compare control && left == 3 then 2
      else 3
  | _ => 0

/-- `s_pending_en`. -/
def nextPendingEn (gen : ChAddrgen aWidth transSize idWidth)
    (cfg : ChannelCfg aWidth transSize idWidth) (control : ChannelControl) : Bool :=
  if cfg.en && (gen.chEn || gen.en) &&
      (!gen.compare control || gen.compare control && (!control.notStall || !control.grant)) then
    true
  else if gen.en && control.grant && control.notStall && gen.compare control then false
  else gen.pendingEn

/-- `proc_next_val`. -/
def next (gen : ChAddrgen aWidth transSize idWidth)
    (cfg : ChannelCfg aWidth transSize idWidth) (control : ChannelControl) :
    ChAddrgen aWidth transSize idWidth :=
  if cfg.en && !gen.en then
    { gen with
      counters := cfg.size, addresses := cfg.startaddr, en := true, chEn := false, event := false
      sot := true, stream := cfg.stream, streamId := cfg.streamId }
  else if cfg.clr then
    { gen with
      counters := 0, addresses := 0, en := false, chEn := false, event := false, sot := false
      stream := 0 }
  else if control.notStall && gen.en && control.grant then
    if gen.compare control then
      if !cfg.continuous && !gen.pendingEn && !cfg.en then
        { gen with
          event := true, en := false, chEn := false, counters := 0, addresses := 0, stream := 0
          sot := false }
      else
        { gen with
          event := true, counters := cfg.size, addresses := cfg.startaddr, stream := cfg.stream
          streamId := cfg.streamId, en := true, chEn := true, sot := true }
    else
      { gen with
        event := false, sot := false, chEn := true
        counters := gen.counters - datasizeToAdd transSize control.datasize
        addresses := gen.addresses + datasizeToAdd aWidth control.datasize }
  else { gen with event := false, sot := false }

/-- `int_ch_en_prev_o`. -/
def enPrev (gen : ChAddrgen aWidth transSize idWidth)
    (cfg : ChannelCfg aWidth transSize idWidth) (control : ChannelControl) : Bool :=
  (gen.next cfg control).en

/-- One clock edge. -/
def step (gen : ChAddrgen aWidth transSize idWidth)
    (cfg : ChannelCfg aWidth transSize idWidth) (control : ChannelControl) :
    ChAddrgen aWidth transSize idWidth :=
  let next := gen.next cfg control
  let always :=
    { gen with
      event := next.event, sot := next.sot, pendingEn := gen.nextPendingEn cfg control }
  if (cfg.en && !gen.en || cfg.clr) || cfg.en && gen.compare control && control.notStall then
    { always with
      counters := next.counters, addresses := next.addresses, en := next.en, chEn := next.chEn
      stream := next.stream, streamId := next.streamId }
  else if control.notStall && gen.en && control.grant then
    if gen.compare control then
      let moved :=
        { always with
          counters := next.counters, addresses := next.addresses, stream := next.stream
          streamId := next.streamId }
      if !cfg.continuous && !gen.pendingEn then { moved with en := next.en, chEn := next.chEn }
      else moved
    else
      { always with
        chEn := next.chEn, counters := next.counters, addresses := next.addresses }
  else always

end ChAddrgen

/-! ## One transfer -/

/-- What a channel is programmed with for one transfer. -/
structure Transfer (aWidth transSize : Nat) where
  startaddr : BitVec aWidth
  size : BitVec transSize
  datasize : BitVec 2
  destination : BitVec 2
  positive : 0 < size.toNat
  known : datasize.toNat ≤ 2

namespace Transfer

variable (transfer : Transfer aWidth transSize)

/-- Number of bytes of an access. -/
def wordBytes : Nat := 2 ^ transfer.datasize.toNat

/-- The address of the `k`-th access. -/
def address (k : Nat) : BitVec aWidth :=
  transfer.startaddr + BitVec.ofNat aWidth (k * transfer.wordBytes)

/-- Number of valid bytes of the `k`-th access. -/
def validBytes (k : Nat) : Nat :=
  min transfer.wordBytes (transfer.size.toNat - k * transfer.wordBytes)

/-- Number of accesses. -/
def accesses : Nat := (transfer.size.toNat + transfer.wordBytes - 1) / transfer.wordBytes

/-- The configuration inputs program this transfer, once, and do not disturb it. -/
structure Programs (cfg : ChannelCfg aWidth transSize idWidth) : Prop where
  once : cfg.continuous = false
  keeps : cfg.clr = false
  startaddr : cfg.en = true → cfg.startaddr = transfer.startaddr
  size : cfg.en = true → cfg.size = transfer.size

end Transfer

/-- A channel with no transfer. -/
structure ChAddrgen.Idle (gen : ChAddrgen aWidth transSize idWidth) : Prop where
  en : gen.en = false
  chEn : gen.chEn = false
  pendingEn : gen.pendingEn = false

/-- A channel that has issued `k` accesses of its transfer and has more. -/
structure ChAddrgen.Serves (gen : ChAddrgen aWidth transSize idWidth)
    (transfer : Transfer aWidth transSize) (k : Nat) : Prop where
  en : gen.en = true
  pendingEn : gen.pendingEn = false
  addresses : gen.addresses = transfer.address k
  counters : gen.counters.toNat = transfer.size.toNat - k * transfer.wordBytes
  left : k * transfer.wordBytes < transfer.size.toNat

theorem datasizeToAdd_eq {datasize : BitVec 2} (known : datasize.toNat ≤ 2) :
    datasizeToAdd aWidth datasize = BitVec.ofNat aWidth (2 ^ datasize.toNat) := by
  have cases : datasize.toNat = 0 ∨ datasize.toNat = 1 ∨ datasize.toNat = 2 := by omega
  obtain size | size | size := cases <;> simp [datasizeToAdd, size]

theorem toNat_datasizeToAdd (wide : 3 ≤ transSize) {datasize : BitVec 2}
    (known : datasize.toNat ≤ 2) :
    (datasizeToAdd transSize datasize).toNat = 2 ^ datasize.toNat := by
  have small : 2 ^ datasize.toNat ≤ 2 ^ 2 := Nat.pow_le_pow_right (by decide) known
  have fits : 2 ^ 3 ≤ 2 ^ transSize := Nat.pow_le_pow_right (by decide) wide
  rw [datasizeToAdd_eq known, BitVec.toNat_ofNat]
  exact Nat.mod_eq_of_lt (Nat.lt_of_le_of_lt small (Nat.lt_of_lt_of_le (by decide) fits))

namespace ChAddrgen

variable {gen : ChAddrgen aWidth transSize idWidth} {cfg : ChannelCfg aWidth transSize idWidth}
variable {control : ChannelControl} {transfer : Transfer aWidth transSize} {k : Nat}

/-- Unless the last access is issued, a clock edge registers the next values. -/
theorem step_eq_next
    (notLast : (control.notStall && control.grant && gen.compare control) = false) :
    gen.step cfg control =
      { gen.next cfg control with pendingEn := gen.nextPendingEn cfg control } := by
  cases starts : cfg.en && !gen.en with
  | true => simp [step, next, starts]
  | false =>
      cases clears : cfg.clr with
      | true => simp [step, next, starts, clears]
      | false =>
          cases issues : control.notStall && gen.en && control.grant with
          | false =>
              simp only [step, next, starts, clears, issues, Bool.false_or, Bool.false_eq_true,
                if_false]
              split <;> rfl
          | true =>
              obtain ⟨⟨moves, enabled⟩, granted⟩ : (control.notStall = true ∧ gen.en = true) ∧
                  control.grant = true := by simpa using issues
              have more : gen.compare control = false := by simpa [moves, granted] using notLast
              simp [step, next, clears, moves, enabled, granted, more]

/-- The registered enable is the one that was shown in the cycle before. -/
theorem step_en : (gen.step cfg control).en = gen.enPrev cfg control := by
  rw [enPrev]
  cases last : control.notStall && control.grant && gen.compare control with
  | false => rw [step_eq_next last]
  | true =>
      obtain ⟨⟨moves, granted⟩, compares⟩ : (control.notStall = true ∧ control.grant = true) ∧
          gen.compare control = true := by simpa using last
      cases enabled : gen.en <;> cases programs : cfg.en <;> cases clears : cfg.clr <;>
        simp [step, next, moves, granted, compares, enabled, programs, clears]
      split <;> simp_all

theorem idle_reset : (reset : ChAddrgen aWidth transSize idWidth).Idle := ⟨rfl, rfl, rfl⟩

/-- A channel that is not programmed stays idle. -/
theorem Idle.step (idle : gen.Idle) (keeps : cfg.clr = false) (quiet : cfg.en = false)
    (control : ChannelControl) :
    (gen.step cfg control).Idle ∧ (gen.step cfg control).event = false ∧
      gen.enPrev cfg control = false := by
  obtain ⟨en, chEn, pendingEn⟩ := idle
  simp only [ChAddrgen.step, enPrev, next, nextPendingEn, keeps, quiet, en, pendingEn,
    Bool.false_and, Bool.and_false, Bool.false_or, Bool.not_false, Bool.false_eq_true, if_false]
  exact ⟨⟨rfl, chEn, rfl⟩, trivial, trivial⟩

/-- Programming an idle channel. -/
theorem Idle.start (idle : gen.Idle) (programs : transfer.Programs cfg) (starts : cfg.en = true)
    (control : ChannelControl) :
    (gen.step cfg control).Serves transfer 0 ∧ (gen.step cfg control).event = false ∧
      gen.enPrev cfg control = true := by
  obtain ⟨en, chEn, pendingEn⟩ := idle
  have startaddr := programs.startaddr starts
  have size := programs.size starts
  simp only [ChAddrgen.step, enPrev, next, nextPendingEn, starts, en, chEn, pendingEn,
    Bool.false_and, Bool.or_self, Bool.and_false, Bool.true_and, Bool.not_false, Bool.true_or,
    Bool.and_self, Bool.false_eq_true, if_false, if_true]
  refine ⟨⟨rfl, rfl, ?_, ?_, ?_⟩, trivial, trivial⟩
  · simp [startaddr, Transfer.address]
  · simp [size]
  · simpa using transfer.positive

/-- A channel that is not granted, or whose pipeline stalls, waits. -/
theorem Serves.wait (serves : gen.Serves transfer k) (programs : transfer.Programs cfg)
    (quiet : cfg.en = false) (waits : (control.notStall && control.grant) = false) :
    (gen.step cfg control).Serves transfer k ∧ (gen.step cfg control).event = false ∧
      gen.enPrev cfg control = true := by
  have keeps := programs.keeps
  obtain ⟨en, pendingEn, addresses, counters, left⟩ := serves
  have stays : (control.notStall && gen.en && control.grant) = false := by
    rw [en, Bool.and_true, waits]
  have noLast : (gen.en && control.grant && control.notStall && gen.compare control) = false := by
    rw [en, Bool.true_and, Bool.and_comm control.grant, waits, Bool.false_and]
  simp only [ChAddrgen.step, enPrev, next, nextPendingEn, keeps, quiet, stays, noLast,
    Bool.false_and, Bool.or_self, Bool.false_eq_true, if_false]
  exact ⟨⟨en, pendingEn, addresses, counters, left⟩, trivial, en⟩

/-- The access at hand is the last one when it covers the bytes left. -/
theorem Serves.compare_iff (serves : gen.Serves transfer k) (wide : 3 ≤ transSize)
    (sized : control.datasize = transfer.datasize) :
    gen.compare control = true ↔ transfer.size.toNat ≤ (k + 1) * transfer.wordBytes := by
  have counters := serves.counters
  have left := serves.left
  rw [compare, decide_eq_true_eq, BitVec.le_def, sized, toNat_datasizeToAdd wide transfer.known,
    counters, Nat.add_mul, Nat.one_mul]
  change _ ≤ transfer.wordBytes ↔ _
  omega

/-- A granted access that is not the last one. -/
theorem Serves.access (serves : gen.Serves transfer k) (wide : 3 ≤ transSize)
    (programs : transfer.Programs cfg) (quiet : cfg.en = false)
    (moves : control.notStall = true) (granted : control.grant = true)
    (sized : control.datasize = transfer.datasize)
    (more : (k + 1) * transfer.wordBytes < transfer.size.toNat) :
    (gen.step cfg control).Serves transfer (k + 1) ∧ (gen.step cfg control).event = false ∧
      gen.enPrev cfg control = true := by
  have notLast : gen.compare control = false := by
    rw [← Bool.not_eq_true, serves.compare_iff wide sized]
    omega
  have keeps := programs.keeps
  obtain ⟨en, pendingEn, addresses, counters, left⟩ := serves
  simp only [ChAddrgen.step, enPrev, next, nextPendingEn, keeps, quiet, moves, granted, en,
    pendingEn, notLast, Bool.and_self, Bool.false_and, Bool.and_false, Bool.or_self, if_true,
    Bool.false_eq_true, if_false]
  refine ⟨⟨rfl, rfl, ?_, ?_, more⟩, trivial, trivial⟩
  · rw [addresses, sized, datasizeToAdd_eq transfer.known, Transfer.address, Transfer.address,
      Nat.add_mul, Nat.one_mul, BitVec.ofNat_add, BitVec.add_assoc]
    rfl
  · have toAdd := toNat_datasizeToAdd wide transfer.known
    have below := gen.counters.isLt
    rw [sized, BitVec.toNat_sub_of_le, counters, toAdd]
    · change _ - transfer.wordBytes = _
      rw [Nat.add_mul, Nat.one_mul]
      omega
    · rw [BitVec.le_def, counters, toAdd]
      change transfer.wordBytes ≤ _
      rw [Nat.add_mul, Nat.one_mul] at more
      omega

/-- The last access raises the event and stops the channel. -/
theorem Serves.last (serves : gen.Serves transfer k) (wide : 3 ≤ transSize)
    (programs : transfer.Programs cfg) (quiet : cfg.en = false)
    (moves : control.notStall = true) (granted : control.grant = true)
    (sized : control.datasize = transfer.datasize)
    (isLast : transfer.size.toNat ≤ (k + 1) * transfer.wordBytes) :
    (gen.step cfg control).Idle ∧ (gen.step cfg control).event = true ∧
      gen.enPrev cfg control = false := by
  have last : gen.compare control = true := (serves.compare_iff wide sized).mpr isLast
  have keeps := programs.keeps
  have once := programs.once
  obtain ⟨en, pendingEn, addresses, counters, left⟩ := serves
  simp only [ChAddrgen.step, enPrev, next, nextPendingEn, keeps, once, quiet, moves, granted, en,
    pendingEn, last, Bool.and_self, Bool.false_and, Bool.or_self, Bool.not_false, if_true,
    Bool.false_eq_true, if_false]
  exact ⟨⟨rfl, rfl, rfl⟩, trivial, trivial⟩

/-- The number of valid bytes that goes with an access. -/
theorem Serves.currBytes (serves : gen.Serves transfer k) (wide : 3 ≤ transSize)
    (sized : control.datasize = transfer.datasize) :
    (gen.currBytes control).toNat + 1 = transfer.validBytes k := by
  have compare : gen.compare control = decide (gen.counters.toNat ≤ transfer.wordBytes) := by
    rw [Bool.eq_iff_iff, decide_eq_true_eq, compare, decide_eq_true_eq, BitVec.le_def, sized,
      toNat_datasizeToAdd wide transfer.known]
    rfl
  have left : ∀ count : BitVec 2, (gen.counters.extractLsb' 0 2 == count) =
      decide (gen.counters.toNat % 4 = count.toNat) := by
    intro count
    rw [Bool.eq_iff_iff, beq_iff_eq, decide_eq_true_eq, ← BitVec.toNat_inj,
      BitVec.extractLsb'_toNat, Nat.shiftRight_zero]
  have positive : 0 < gen.counters.toNat := by
    rw [serves.counters]
    exact Nat.sub_pos_of_lt serves.left
  rw [Transfer.validBytes, ← serves.counters]
  simp only [ChAddrgen.currBytes, sized, compare, left, Transfer.wordBytes]
  generalize gen.counters.toNat = counters at positive
  have known := transfer.known
  have cases : transfer.datasize.toNat = 0 ∨ transfer.datasize.toNat = 1 ∨
      transfer.datasize.toNat = 2 := by omega
  have one : (1 : BitVec 2).toNat = 1 := rfl
  have two : (2 : BitVec 2).toNat = 2 := rfl
  have three : (3 : BitVec 2).toNat = 3 := rfl
  obtain size | size | size := cases
  · simp only [size]
    change 0 + 1 = min 1 counters
    omega
  · simp only [size, one, Bool.and_eq_true, decide_eq_true_eq]
    split
    · change 0 + 1 = min 2 counters
      omega
    · change 1 + 1 = min 2 counters
      omega
  · simp only [size, one, two, three, Bool.and_eq_true, decide_eq_true_eq]
    split
    · change 0 + 1 = min 4 counters
      omega
    · split
      · change 1 + 1 = min 4 counters
        omega
      · split
        · change 2 + 1 = min 4 counters
          omega
        · change 3 + 1 = min 4 counters
          omega

end ChAddrgen

/-! ## A transfer in a pipeline -/

/-- How far a channel is with its transfer. -/
inductive TransferStatus where
  | fresh
  | serving
  | finished
  deriving DecidableEq, Repr

/-- How often the channel has been programmed. -/
def TransferStatus.programmed : TransferStatus → Nat
  | .fresh => 0
  | .serving => 1
  | .finished => 1

/-- How many events the channel has raised. -/
def TransferStatus.events : TransferStatus → Nat
  | .fresh => 0
  | .serving => 0
  | .finished => 1

/-- A channel that has issued `count` accesses of its transfer; `isStaged` when its
grant is for the next one. -/
inductive TransferPhase (transfer : Transfer aWidth transSize)
    (gen : ChAddrgen aWidth transSize idWidth) : Bool → Nat → TransferStatus → Prop
  | fresh (idle : gen.Idle) : TransferPhase transfer gen false 0 .fresh
  | serving {isStaged : Bool} {count : Nat} (serves : gen.Serves transfer count) :
      TransferPhase transfer gen isStaged count .serving
  | finished (idle : gen.Idle) : TransferPhase transfer gen false transfer.accesses .finished

/-- A channel that has been programmed is not programmed again. -/
theorem TransferStatus.quiet {status : TransferStatus} {en : Bool} (started : status.programmed = 1)
    (once : status.programmed + en.toNat ≤ 1) : en = false := by
  cases en with
  | false => rfl
  | true => exact absurd (started ▸ once) (by decide)

theorem Transfer.lt_accesses_iff (transfer : Transfer aWidth transSize) (k : Nat) :
    k < transfer.accesses ↔ k * transfer.wordBytes < transfer.size.toNat := by
  have positive : 0 < transfer.wordBytes := Nat.pow_pos (by decide)
  rw [accesses, Nat.lt_div_iff_mul_lt positive]
  omega

theorem Transfer.accesses_eq {transfer : Transfer aWidth transSize} {k : Nat}
    (left : k * transfer.wordBytes < transfer.size.toNat)
    (isLast : transfer.size.toNat ≤ (k + 1) * transfer.wordBytes) :
    transfer.accesses = k + 1 := by
  have positive : 0 < transfer.wordBytes := Nat.pow_pos (by decide)
  rw [accesses]
  apply Nat.div_eq_of_lt_le
  · rw [Nat.add_mul, Nat.one_mul]
    omega
  · rw [Nat.add_mul, Nat.one_mul]
    omega

/-- One clock edge of a channel, whose next access may be granted while the pipeline
moves and the channel asks for it. -/
theorem TransferPhase.step {gen : ChAddrgen aWidth transSize idWidth}
    {cfg : ChannelCfg aWidth transSize idWidth} {control : ChannelControl}
    {transfer : Transfer aWidth transSize} {count : Nat} {status : TransferStatus}
    (phase : TransferPhase transfer gen control.grant count status) (wide : 3 ≤ transSize)
    (programs : transfer.Programs cfg)
    (sized : control.grant = true → control.datasize = transfer.datasize)
    (once : status.programmed + cfg.en.toNat ≤ 1) {isStaged : Bool}
    (asks : control.notStall = true → isStaged = true → gen.enPrev cfg control = true)
    (keeps : control.notStall = false → isStaged = control.grant) :
    ∃ next, TransferPhase transfer (gen.step cfg control) isStaged
        (count + (control.notStall && control.grant).toNat) next ∧
      next.programmed = status.programmed + cfg.en.toNat ∧
      next.events = status.events + (gen.step cfg control).event.toNat := by
  have unstaged : control.grant = false ∨ control.notStall = true →
      gen.enPrev cfg control = false → isStaged = false := by
    intro free disabled
    cases staged : isStaged with
    | false => rfl
    | true =>
        cases moves : control.notStall with
        | true => exact (asks moves staged).symm.trans disabled
        | false =>
            rcases free with free | free
            · exact staged.symm.trans ((keeps moves).trans free)
            · exact absurd (moves.symm.trans free) Bool.false_ne_true
  cases status with
  | fresh =>
      generalize granted : control.grant = grant at phase
      cases phase with
      | fresh idle =>
          rw [Bool.and_false]
          cases starts : cfg.en with
          | false =>
              obtain ⟨stays, silent, disabled⟩ := idle.step programs.keeps starts control
              rw [unstaged (.inl granted) disabled, silent]
              exact ⟨.fresh, .fresh stays, rfl, rfl⟩
          | true =>
              obtain ⟨serves, silent, enabled⟩ := idle.start programs starts control
              rw [silent]
              exact ⟨.serving, .serving serves, rfl, rfl⟩
  | serving =>
      have quiet : cfg.en = false := TransferStatus.quiet rfl once
      rw [quiet]
      generalize staged : control.grant = grant at phase
      cases phase with
      | serving serves =>
          cases moves : control.notStall && grant with
          | false =>
              obtain ⟨serves, silent, -⟩ := serves.wait programs quiet (by rw [staged, moves])
              rw [silent]
              exact ⟨.serving, .serving serves, rfl, rfl⟩
          | true =>
              obtain ⟨notStall, rfl⟩ := Bool.and_eq_true_iff.mp moves
              by_cases isLast : transfer.size.toNat ≤ (count + 1) * transfer.wordBytes
              · obtain ⟨stops, raises, disabled⟩ :=
                  serves.last wide programs quiet notStall staged (sized staged) isLast
                rw [unstaged (.inr notStall) disabled, raises, Bool.toNat_true,
                  ← Transfer.accesses_eq serves.left isLast]
                exact ⟨.finished, .finished stops, rfl, rfl⟩
              · obtain ⟨serves, silent, -⟩ := serves.access wide programs quiet notStall staged
                  (sized staged) (Nat.lt_of_not_le isLast)
                rw [silent]
                exact ⟨.serving, .serving serves, rfl, rfl⟩
  | finished =>
      have quiet : cfg.en = false := TransferStatus.quiet rfl once
      rw [quiet]
      generalize granted : control.grant = grant at phase
      cases phase with
      | finished idle =>
          obtain ⟨stays, silent, disabled⟩ := idle.step programs.keeps quiet control
          rw [unstaged (.inl granted) disabled, silent, Bool.and_false]
          exact ⟨.finished, .finished stays, rfl, rfl⟩

end CoreVMcu.Udma
