import CoreVMcu.Clocked.Machine
import CoreVMcu.Udma.AddrGen

/-!
# Clearing a uDMA channel

A clear stops the transfer of a channel.  The channel is then as after reset except
for the request that was pending and for the stream identifier, which the clear
leaves as they are.
-/

namespace CoreVMcu.Udma

open Clocked

variable {aWidth transSize idWidth : Nat}

/-- Inputs of an address generator. -/
structure AddrgenInput (aWidth transSize idWidth : Nat) where
  cfg : ChannelCfg aWidth transSize idWidth
  control : ChannelControl

/-- Outputs of an address generator. -/
structure AddrgenOutput (aWidth transSize idWidth : Nat) where
  currAddr : BitVec aWidth
  bytesLeft : BitVec transSize
  pending : Bool
  currBytes : BitVec 2
  en : Bool
  enPrev : Bool
  events : Bool
  sot : Bool
  stream : BitVec 2
  streamId : BitVec idWidth
  deriving DecidableEq

/-- An address generator from reset. -/
def addrgenMachine (aWidth transSize idWidth : Nat) :
    Machine (ChAddrgen aWidth transSize idWidth) (AddrgenInput aWidth transSize idWidth) where
  init := .reset
  step gen input := gen.step input.cfg input.control

theorem addrgenMachine_step (gen : ChAddrgen aWidth transSize idWidth)
    (input : AddrgenInput aWidth transSize idWidth) :
    (addrgenMachine aWidth transSize idWidth).step gen input = gen.step input.cfg input.control := by
  rfl

namespace ChAddrgen

variable (gen : ChAddrgen aWidth transSize idWidth) (input : AddrgenInput aWidth transSize idWidth)

/-- The outputs in a cycle. -/
def output : AddrgenOutput aWidth transSize idWidth :=
  { currAddr := gen.addresses, bytesLeft := gen.counters, pending := gen.pendingEn
    currBytes := gen.currBytes input.control, en := gen.en
    enPrev := gen.enPrev input.cfg input.control, events := gen.event, sot := gen.sot
    stream := gen.stream, streamId := gen.streamId }

/-- An access is issued. -/
def issues : Bool := gen.en && input.control.grant && input.control.notStall

/-- The event is raised at the end of the cycle. -/
def raises : Bool := (gen.step input.cfg input.control).event

/-- The transfer that `start` programs, and that the later inputs do not disturb, is
issued once for each grant until it is complete; then the event is raised, once, and
the channel is disabled. -/
def RunsTransfer : Prop :=
  ∀ (transfer : Transfer aWidth transSize) (start : AddrgenInput aWidth transSize idWidth)
    (later : List (AddrgenInput aWidth transSize idWidth)),
    transfer.Programs start.cfg → start.cfg.en = true →
    (∀ input ∈ later, transfer.Programs input.cfg ∧ input.cfg.en = false ∧
      input.control.datasize = transfer.datasize) →
    let grants := later.countP fun input => input.control.grant && input.control.notStall
    let machine := addrgenMachine aWidth transSize idWidth
    machine.countedFrom issues gen (start :: later) = min grants transfer.accesses ∧
      machine.countedFrom raises gen (start :: later) =
        (decide (transfer.accesses ≤ grants)).toNat ∧
      (machine.runFrom gen (start :: later)).en = decide (grants < transfer.accesses)

end ChAddrgen

/-- After the clear the channel behaves as from reset, and runs the next transfer. -/
structure ClearsToIdle (inputs : List (AddrgenInput aWidth transSize idWidth))
    (clear : AddrgenInput aWidth transSize idWidth) : Prop where
  outputs : ∀ later input,
    (((addrgenMachine aWidth transSize idWidth).run (inputs ++ [clear] ++ later)).output input) =
      ((addrgenMachine aWidth transSize idWidth).run later).output input
  transfer : ((addrgenMachine aWidth transSize idWidth).run (inputs ++ [clear])).RunsTransfer

variable {gen : ChAddrgen aWidth transSize idWidth}

/-! ## One transfer after reset -/

section Transfers

variable {transfer : Transfer aWidth transSize}
variable {later : List (AddrgenInput aWidth transSize idWidth)}

/-- The inputs leave a transfer alone. -/
def Undisturbed (transfer : Transfer aWidth transSize)
    (input : AddrgenInput aWidth transSize idWidth) : Prop :=
  transfer.Programs input.cfg ∧ input.cfg.en = false ∧ input.control.datasize = transfer.datasize

theorem idle_run (idle : gen.Idle) (undisturbed : ∀ input ∈ later, Undisturbed transfer input) :
    (addrgenMachine aWidth transSize idWidth).countedFrom ChAddrgen.issues gen later = 0 ∧
      (addrgenMachine aWidth transSize idWidth).countedFrom ChAddrgen.raises gen later = 0 ∧
      ((addrgenMachine aWidth transSize idWidth).runFrom gen later).en = false := by
  induction later generalizing gen with
  | nil => exact ⟨rfl, rfl, idle.en⟩
  | cons input later inductionHypothesis =>
      obtain ⟨⟨programs, quiet, -⟩, rest⟩ := List.forall_mem_cons.mp undisturbed
      obtain ⟨stays, silent, -⟩ := idle.step programs.keeps quiet input.control
      obtain ⟨issued, raised, disabled⟩ := inductionHypothesis stays rest
      refine ⟨?_, ?_, disabled⟩
      · change (gen.issues input).toNat + _ = 0
        rw [ChAddrgen.issues, idle.en]
        exact (Nat.zero_add _).trans issued
      · change (gen.raises input).toNat + _ = 0
        rw [ChAddrgen.raises, silent]
        exact (Nat.zero_add _).trans raised

/-- A transfer with `k` accesses issued runs to its end. -/
theorem serves_run {k : Nat} (wide : 3 ≤ transSize) (serves : gen.Serves transfer k)
    (undisturbed : ∀ input ∈ later, Undisturbed transfer input) :
    let grants := later.countP fun input => input.control.grant && input.control.notStall
    (addrgenMachine aWidth transSize idWidth).countedFrom ChAddrgen.issues gen later =
        min grants (transfer.accesses - k) ∧
      (addrgenMachine aWidth transSize idWidth).countedFrom ChAddrgen.raises gen later =
        (decide (transfer.accesses ≤ k + grants)).toNat ∧
      ((addrgenMachine aWidth transSize idWidth).runFrom gen later).en =
        decide (k + grants < transfer.accesses) := by
  have more := (transfer.lt_accesses_iff k).mpr serves.left
  induction later generalizing gen k with
  | nil =>
      refine ⟨by simp [Machine.countedFrom], ?_, ?_⟩
      · rw [List.countP_nil, Nat.add_zero, decide_eq_false (Nat.not_le_of_lt more)]
        rfl
      · rw [List.countP_nil, Nat.add_zero, decide_eq_true more]
        exact serves.en
  | cons input later inductionHypothesis =>
      obtain ⟨⟨programs, quiet, sized⟩, rest⟩ := List.forall_mem_cons.mp undisturbed
      have issues : gen.issues input = (input.control.grant && input.control.notStall) := by
        rw [ChAddrgen.issues, serves.en, Bool.true_and]
      simp only [Machine.countedFrom, Machine.runFrom_cons, addrgenMachine_step, issues,
        List.countP_cons]
      cases granted : input.control.grant && input.control.notStall with
      | false =>
          have waits : (input.control.notStall && input.control.grant) = false := by
            rw [Bool.and_comm, granted]
          obtain ⟨stays, silent, -⟩ := serves.wait programs quiet waits
          obtain ⟨issued, raised, enabled⟩ := inductionHypothesis stays rest more
          rw [ChAddrgen.raises, silent]
          simp only [Bool.toNat_false, Nat.zero_add, Bool.false_eq_true, if_false, Nat.add_zero]
          exact ⟨issued, raised, enabled⟩
      | true =>
          obtain ⟨grant, notStall⟩ := Bool.and_eq_true_iff.mp granted
          simp only [Bool.toNat_true, if_true]
          by_cases isLast : transfer.size.toNat ≤ (k + 1) * transfer.wordBytes
          · obtain ⟨stops, raises, -⟩ :=
              serves.last wide programs quiet notStall grant sized isLast
            obtain ⟨issued, raised, disabled⟩ := idle_run stops rest
            have count := Transfer.accesses_eq serves.left isLast
            refine ⟨?_, ?_, ?_⟩
            · rw [issued]
              omega
            · rw [ChAddrgen.raises, raises, raised, decide_eq_true (by omega)]
              rfl
            · rw [decide_eq_false (by omega)]
              exact disabled
          · have further := Nat.lt_of_not_le isLast
            obtain ⟨serves, silent, -⟩ :=
              serves.access wide programs quiet notStall grant sized further
            obtain ⟨issued, raised, enabled⟩ :=
              inductionHypothesis serves rest ((transfer.lt_accesses_iff (k + 1)).mpr further)
            refine ⟨?_, ?_, ?_⟩
            · rw [issued]
              omega
            · rw [ChAddrgen.raises, silent, raised, Bool.toNat_false, Nat.zero_add,
                Nat.add_right_comm, Nat.add_assoc]
            · rw [enabled, Nat.add_right_comm, Nat.add_assoc]

end Transfers

/-- A transfer runs from an idle channel. -/
theorem runsTransfer_of_idle (wide : 3 ≤ transSize) (idle : gen.Idle) : gen.RunsTransfer := by
  intro transfer start later programs starts undisturbed
  obtain ⟨serves, silent, -⟩ := idle.start programs starts start.control
  obtain ⟨issued, raised, enabled⟩ := serves_run wide serves undisturbed
  simp only [Machine.countedFrom, Machine.runFrom_cons, addrgenMachine_step, ChAddrgen.issues,
    ChAddrgen.raises, idle.en, silent, Bool.false_and, Bool.toNat_false, Nat.zero_add]
  simp only [Nat.zero_add, Nat.sub_zero] at issued raised enabled
  exact ⟨issued, raised, enabled⟩

/-! ## The clear -/

section Clear

variable {clear : AddrgenInput aWidth transSize idWidth}

/-- No request is left to run after the clear: none is pending, or the clear comes with
the last access of the running transfer. -/
def ChAddrgen.NothingPending (gen : ChAddrgen aWidth transSize idWidth)
    (clear : AddrgenInput aWidth transSize idWidth) : Prop :=
  gen.pendingEn = false ∨ (gen.issues clear && gen.compare clear.control) = true

/-- A clear keeps the pending request and the stream identifier. -/
theorem step_clear (clears : clear.cfg.clr = true) (quiet : clear.cfg.en = false) :
    gen.step clear.cfg clear.control =
      { (ChAddrgen.reset : ChAddrgen aWidth transSize idWidth) with
        pendingEn := gen.nextPendingEn clear.cfg clear.control, streamId := gen.streamId } := by
  simp [ChAddrgen.step, ChAddrgen.next, clears, quiet, ChAddrgen.reset]

theorem nextPendingEn_clear (quiet : clear.cfg.en = false) :
    gen.nextPendingEn clear.cfg clear.control = false ↔ gen.NothingPending clear := by
  simp only [ChAddrgen.nextPendingEn, quiet, Bool.false_and, ChAddrgen.NothingPending,
    ChAddrgen.issues, Bool.false_eq_true, if_false]
  split
  · next last => exact ⟨fun _ => .inr last, fun _ => rfl⟩
  · next notLast => exact ⟨.inl, fun nothing => nothing.resolve_right notLast⟩

/-- From every reachable state: a clear returns the channel to its reset behaviour
exactly when no request is pending and the stream identifier is that of reset. -/
theorem addrgen_clearsToIdle_iff (wide : 3 ≤ transSize)
    (inputs : List (AddrgenInput aWidth transSize idWidth))
    (clear : AddrgenInput aWidth transSize idWidth)
    (clears : clear.cfg.clr = true) (quiet : clear.cfg.en = false) :
    ClearsToIdle inputs clear ↔
      ((addrgenMachine aWidth transSize idWidth).run inputs).NothingPending clear ∧
        ((addrgenMachine aWidth transSize idWidth).run inputs).streamId = 0 := by
  have cleared : (addrgenMachine aWidth transSize idWidth).run (inputs ++ [clear]) = _ :=
    (Machine.run_snoc ..).trans (step_clear clears quiet)
  rw [← nextPendingEn_clear quiet]
  constructor
  · intro idle
    have output := idle.outputs [] clear
    rw [List.append_nil, cleared] at output
    exact ⟨congrArg AddrgenOutput.pending output, congrArg AddrgenOutput.streamId output⟩
  · rintro ⟨nothing, stream⟩
    rw [nothing, stream] at cleared
    constructor
    case outputs =>
      intro later input
      rw [Machine.run_append, cleared]
      rfl
    case transfer =>
      rw [cleared]
      exact runsTransfer_of_idle wide ChAddrgen.idle_reset

end Clear

/-- A cycle in which a transfer of two bytes is programmed, or not, and which may clear
the channel. -/
def twoBytes (en clr : Bool) : AddrgenInput 8 4 2 :=
  { cfg :=
      { startaddr := 0x10, size := 2, continuous := false, en := en, stream := 0, streamId := 0
        clr := clr }
    control := { notStall := true, datasize := 0, grant := false } }

/-- The channel is programmed again while its transfer runs, and then cleared: the
request is still pending. -/
theorem pendingClear_not_clearsToIdle :
    ¬ClearsToIdle [twoBytes true false, twoBytes true false] (twoBytes false true) :=
  fun idle => absurd (idle.outputs [] (twoBytes false false)) (by decide)

theorem runningClear_clearsToIdle : ClearsToIdle [twoBytes true false] (twoBytes false true) :=
  (addrgen_clearsToIdle_iff (by decide) _ _ rfl rfl).mpr ⟨.inl rfl, rfl⟩

end CoreVMcu.Udma
