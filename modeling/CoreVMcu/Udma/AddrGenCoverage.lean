import CoreVMcu.Udma.AddrGenClear

/-!
# The accesses of the transfers of a channel

Along every run without a clear the accesses that a channel issues are those of whole
transfers, each with its event after the last access, and of the beginning of the transfer at
hand.  At the end of a transfer the channel stops, or loads its configuration again when it is
continuous or has been requested to.
-/

namespace CoreVMcu.Udma

open Clocked

variable {aWidth transSize idWidth : Nat}

/-! ## What a clock edge does -/

namespace ChAddrgen

variable {gen : ChAddrgen aWidth transSize idWidth} {cfg : ChannelCfg aWidth transSize idWidth}
variable {control : ChannelControl}

/-- A channel that is not enabled and not programmed. -/
theorem step_rests (keeps : cfg.clr = false) (disabled : gen.en = false) (quiet : cfg.en = false) :
    gen.step cfg control = { gen with event := false, sot := false } := by
  simp only [step, next, nextPendingEn, keeps, disabled, quiet, Bool.false_and, Bool.and_false,
    Bool.or_self, Bool.false_eq_true, if_false]

/-- A channel that is programmed loads its configuration. -/
theorem step_starts (disabled : gen.en = false) (inactive : gen.chEn = false)
    (starts : cfg.en = true) :
    gen.step cfg control =
      { gen with
        counters := cfg.size, addresses := cfg.startaddr, en := true, event := false
        sot := true, stream := cfg.stream, streamId := cfg.streamId } := by
  simp only [step, next, nextPendingEn, disabled, inactive, starts, Bool.not_false,
    Bool.and_true, Bool.true_or, Bool.or_self, Bool.and_false, Bool.false_and, if_true,
    Bool.false_eq_true, if_false]

/-- A channel whose access is not issued remembers a request. -/
theorem step_waits (keeps : cfg.clr = false) (enabled : gen.en = true)
    (waits : (control.grant && control.notStall) = false) :
    gen.step cfg control =
      { gen with event := false, sot := false, pendingEn := gen.pendingEn || cfg.en } := by
  obtain ⟨notStall, datasize, grant⟩ := control
  cases requested : cfg.en <;> cases grant <;> cases notStall <;>
    simp_all [step, next, nextPendingEn]

/-- An access that is not the last one. -/
theorem step_moves (keeps : cfg.clr = false) (enabled : gen.en = true)
    (issued : (control.grant && control.notStall) = true) (more : gen.compare control = false) :
    gen.step cfg control =
      { gen with
        event := false, sot := false, chEn := true, pendingEn := gen.pendingEn || cfg.en
        counters := gen.counters - datasizeToAdd transSize control.datasize
        addresses := gen.addresses + datasizeToAdd aWidth control.datasize } := by
  obtain ⟨granted, notStall⟩ := Bool.and_eq_true_iff.mp issued
  cases requested : cfg.en <;>
    simp [step, next, nextPendingEn, keeps, enabled, granted, notStall, more, requested]

/-- The last access without a request. -/
theorem step_stops (keeps : cfg.clr = false) (enabled : gen.en = true)
    (issued : (control.grant && control.notStall) = true) (last : gen.compare control = true)
    (nothing : (cfg.continuous || gen.pendingEn || cfg.en) = false) :
    gen.step cfg control =
      { gen with
        event := true, en := false, chEn := false, counters := 0, addresses := 0, stream := 0
        sot := false } := by
  obtain ⟨granted, notStall⟩ := Bool.and_eq_true_iff.mp issued
  obtain ⟨⟨once, settled⟩, quiet⟩ : (cfg.continuous = false ∧ gen.pendingEn = false) ∧
      cfg.en = false := by simpa using nothing
  simp [step, next, nextPendingEn, keeps, enabled, granted, notStall, last, once, settled, quiet]

/-- The last access with a request: the configuration is loaded. -/
theorem step_reloads (keeps : cfg.clr = false) (enabled : gen.en = true)
    (issued : (control.grant && control.notStall) = true) (last : gen.compare control = true)
    (again : (cfg.continuous || gen.pendingEn || cfg.en) = true) :
    ∃ chEn, gen.step cfg control =
      { gen with
        event := true, sot := true, chEn := chEn, pendingEn := false, counters := cfg.size
        addresses := cfg.startaddr, stream := cfg.stream, streamId := cfg.streamId } := by
  obtain ⟨granted, notStall⟩ := Bool.and_eq_true_iff.mp issued
  cases requested : cfg.en <;> cases continuous : cfg.continuous <;>
    cases pending : gen.pendingEn <;>
    simp_all [step, next, nextPendingEn]

/-- What a clock edge without a clear does. -/
inductive Edge (gen : ChAddrgen aWidth transSize idWidth)
    (cfg : ChannelCfg aWidth transSize idWidth) (control : ChannelControl) :
    ChAddrgen aWidth transSize idWidth → Prop
  | rests (disabled : gen.en = false) (quiet : cfg.en = false) :
      Edge gen cfg control { gen with event := false, sot := false }
  | starts (disabled : gen.en = false) (starts : cfg.en = true) :
      Edge gen cfg control
        { gen with
          counters := cfg.size, addresses := cfg.startaddr, en := true, event := false
          sot := true, stream := cfg.stream, streamId := cfg.streamId }
  | waits (enabled : gen.en = true) (waits : (control.grant && control.notStall) = false) :
      Edge gen cfg control
        { gen with event := false, sot := false, pendingEn := gen.pendingEn || cfg.en }
  | moves (enabled : gen.en = true) (issued : (control.grant && control.notStall) = true)
      (more : gen.compare control = false) :
      Edge gen cfg control
        { gen with
          event := false, sot := false, chEn := true, pendingEn := gen.pendingEn || cfg.en
          counters := gen.counters - datasizeToAdd transSize control.datasize
          addresses := gen.addresses + datasizeToAdd aWidth control.datasize }
  | stops (enabled : gen.en = true) (issued : (control.grant && control.notStall) = true)
      (last : gen.compare control = true)
      (nothing : (cfg.continuous || gen.pendingEn || cfg.en) = false) :
      Edge gen cfg control
        { gen with
          event := true, en := false, chEn := false, counters := 0, addresses := 0, stream := 0
          sot := false }
  | reloads (enabled : gen.en = true) (issued : (control.grant && control.notStall) = true)
      (last : gen.compare control = true)
      (again : (cfg.continuous || gen.pendingEn || cfg.en) = true) (chEn : Bool) :
      Edge gen cfg control
        { gen with
          event := true, sot := true, chEn := chEn, pendingEn := false, counters := cfg.size
          addresses := cfg.startaddr, stream := cfg.stream, streamId := cfg.streamId }

theorem edge (keeps : cfg.clr = false) (inactive : gen.en = false → gen.chEn = false) :
    Edge gen cfg control (gen.step cfg control) := by
  cases enabled : gen.en with
  | false =>
      cases requested : cfg.en with
      | false =>
          rw [step_rests keeps enabled requested]
          exact .rests enabled requested
      | true =>
          rw [step_starts enabled (inactive enabled) requested]
          exact .starts enabled requested
  | true =>
      cases issued : control.grant && control.notStall with
      | false =>
          rw [step_waits keeps enabled issued]
          exact .waits enabled issued
      | true =>
          cases last : gen.compare control with
          | false =>
              rw [step_moves keeps enabled issued last]
              exact .moves enabled issued last
          | true =>
              cases again : cfg.continuous || gen.pendingEn || cfg.en with
              | false =>
                  rw [step_stops keeps enabled issued last again]
                  exact .stops enabled issued last again
              | true =>
                  obtain ⟨chEn, reloaded⟩ := step_reloads keeps enabled issued last again
                  rw [reloaded]
                  exact .reloads enabled issued last again chEn

end ChAddrgen

/-! ## What a channel does along a run -/

/-- Inputs of an address generator with the data size that the channel is programmed with. -/
structure ProgrammedInput (aWidth transSize idWidth : Nat) extends
    AddrgenInput aWidth transSize idWidth where
  datasize : BitVec 2

/-- An address generator with the data size of the transfer at hand. -/
structure Programmed (aWidth transSize idWidth : Nat) where
  gen : ChAddrgen aWidth transSize idWidth
  datasize : BitVec 2

/-- What a channel does: it loads its configuration, issues an access with a number of valid
bytes, or raises its event. -/
inductive ChannelEvent (aWidth transSize : Nat)
  | load (startaddr : BitVec aWidth) (size : BitVec transSize) (datasize : BitVec 2)
  | access (address : BitVec aWidth) (bytes : Nat)
  | event
  deriving DecidableEq

namespace Programmed

variable (channel : Programmed aWidth transSize idWidth)
variable (input : ProgrammedInput aWidth transSize idWidth)

/-- The channel loads its configuration: the start of a transfer is shown in the next cycle. -/
def loads : Bool := (channel.gen.step input.cfg input.control).sot

def step : Programmed aWidth transSize idWidth where
  gen := channel.gen.step input.cfg input.control
  datasize := if channel.loads input then input.datasize else channel.datasize

/-- What is seen of the channel in a cycle. -/
def does : List (ChannelEvent aWidth transSize) :=
  (if channel.gen.issues input.toAddrgenInput then
    [.access channel.gen.addresses ((channel.gen.currBytes input.control).toNat + 1)]
  else []) ++
  (if channel.gen.raises input.toAddrgenInput then [.event] else []) ++
  if channel.loads input then [.load input.cfg.startaddr input.cfg.size input.datasize] else []

/-- There is no clear, a configuration that is loaded is a valid one, and an access that is
issued has the data size of the transfer. -/
structure Allowed : Prop where
  keeps : input.cfg.clr = false
  positive : channel.loads input = true → 0 < input.cfg.size.toNat
  known : channel.loads input = true → input.datasize.toNat ≤ 2
  sized : channel.gen.issues input.toAddrgenInput = true →
    input.control.datasize = channel.datasize

instance : Decidable (channel.Allowed input) :=
  decidable_of_iff (input.cfg.clr = false ∧
      (channel.loads input = true → 0 < input.cfg.size.toNat) ∧
      (channel.loads input = true → input.datasize.toNat ≤ 2) ∧
      (channel.gen.issues input.toAddrgenInput = true →
        input.control.datasize = channel.datasize))
    ⟨fun all => ⟨all.1, all.2.1, all.2.2.1, all.2.2.2⟩,
      fun allowed => ⟨allowed.keeps, allowed.positive, allowed.known, allowed.sized⟩⟩

end Programmed

/-- A channel from reset. -/
def programmedMachine (aWidth transSize idWidth : Nat) :
    Machine (Programmed aWidth transSize idWidth) (ProgrammedInput aWidth transSize idWidth) where
  init := ⟨.reset, 0⟩
  step := Programmed.step

namespace Transfer

variable (transfer : Transfer aWidth transSize)

/-- The accesses of a transfer that come first. -/
def begun (count : Nat) : List (ChannelEvent aWidth transSize) :=
  .load transfer.startaddr transfer.size transfer.datasize ::
    (List.range count).map fun k => .access (transfer.address k) (transfer.validBytes k)

/-- A whole transfer. -/
def whole : List (ChannelEvent aWidth transSize) := transfer.begun transfer.accesses ++ [.event]

end Transfer

/-- The transfer at hand with the number of its accesses that have been issued. -/
abbrev Current (aWidth transSize : Nat) := Option (Transfer aWidth transSize × Nat)

def Current.begun : Current aWidth transSize → List (ChannelEvent aWidth transSize)
  | none => []
  | some (transfer, count) => transfer.begun count

/-- What a channel promises about a run. -/
structure Covers (inputs : List (ProgrammedInput aWidth transSize idWidth)) : Prop where
  transfers : ∃ (done : List (Transfer aWidth transSize)) (current : Current aWidth transSize),
    (programmedMachine aWidth transSize idWidth).observed Programmed.does inputs =
        done.flatMap Transfer.whole ++ current.begun ∧
      current.isSome = ((programmedMachine aWidth transSize idWidth).run inputs).gen.en ∧
      ∀ transfer count, current = some (transfer, count) → count < transfer.accesses
  ends : ∀ before input, before ++ [input] <+: inputs →
    let machine := programmedMachine aWidth transSize idWidth
    let channel := machine.run before
    -- a disabled channel loads when it is requested to
    (channel.gen.en = false → channel.loads input = input.cfg.en) ∧
    -- at the end of a transfer it loads again or stops
    (channel.gen.raises input.toAddrgenInput = true →
      channel.loads input = (input.cfg.continuous ||
        machine.raisedSince (fun _ input => input.cfg.en) Programmed.loads before ||
        input.cfg.en) ∧
      (channel.step input).gen.en = channel.loads input) ∧
    -- and never in between
    (channel.loads input = true →
      channel.gen.en = false ∨ channel.gen.raises input.toAddrgenInput = true)

theorem Transfer.begun_succ (transfer : Transfer aWidth transSize) (count : Nat) :
    transfer.begun (count + 1) =
      transfer.begun count ++ [.access (transfer.address count) (transfer.validBytes count)] := by
  rw [Transfer.begun, List.range_succ, List.map_append]
  rfl

/-- Where a channel is with its transfers. -/
inductive Phase (channel : Programmed aWidth transSize idWidth) :
    Current aWidth transSize → Prop
  | idle (idle : channel.gen.Idle) : Phase channel none
  | serving {transfer : Transfer aWidth transSize} {count : Nat}
      (serves : ({ channel.gen with pendingEn := false }).Serves transfer count)
      (sized : channel.datasize = transfer.datasize) : Phase channel (some (transfer, count))

section Cycle

variable {channel : Programmed aWidth transSize idWidth} {current : Current aWidth transSize}
variable {input : ProgrammedInput aWidth transSize idWidth}
variable {next : ChAddrgen aWidth transSize idWidth}
variable {transfer : Transfer aWidth transSize} {count : Nat}

theorem Phase.edge (phase : Phase channel current) (allowed : channel.Allowed input) :
    channel.gen.Edge input.cfg input.control (channel.gen.step input.cfg input.control) := by
  refine ChAddrgen.edge allowed.keeps fun disabled => ?_
  cases phase with
  | idle idle => exact idle.chEn
  | serving serves _ => exact absurd (serves.en.symm.trans disabled) Bool.noConfusion

/-- What is seen of a cycle in terms of the registers after it. -/
theorem does_eq (stepped : channel.gen.step input.cfg input.control = next) :
    channel.does input =
      (if channel.gen.issues input.toAddrgenInput then
        [.access channel.gen.addresses ((channel.gen.currBytes input.control).toNat + 1)]
      else []) ++
      (if next.event then [.event] else []) ++
      if next.sot then [.load input.cfg.startaddr input.cfg.size input.datasize] else [] := by
  rw [Programmed.does, Programmed.loads, ChAddrgen.raises, stepped]

theorem step_eq (stepped : channel.gen.step input.cfg input.control = next) :
    channel.step input =
      ⟨next, if next.sot then input.datasize else channel.datasize⟩ := by
  rw [Programmed.step, Programmed.loads, stepped]

/-- A configuration that is loaded is that of a transfer. -/
theorem exists_loaded (allowed : channel.Allowed input) (loads : channel.loads input = true) :
    ∃ transfer : Transfer aWidth transSize, transfer.startaddr = input.cfg.startaddr ∧
      transfer.size = input.cfg.size ∧ transfer.datasize = input.datasize :=
  ⟨⟨input.cfg.startaddr, input.cfg.size, input.datasize, 0, allowed.positive loads,
    allowed.known loads⟩, rfl, rfl, rfl⟩

/-- A configuration that has just been loaded. -/
theorem loaded_serves {gen : ChAddrgen aWidth transSize idWidth} (enabled : gen.en = true)
    (settled : gen.pendingEn = false) (addresses : gen.addresses = transfer.startaddr)
    (counters : gen.counters = transfer.size) : gen.Serves transfer 0 := by
  refine ⟨enabled, settled, ?_, ?_, ?_⟩
  · simp [addresses, Transfer.address]
  · simp [counters]
  · simpa using transfer.positive

/-- The access that a channel issues is the next one of its transfer. -/
theorem access_eq (wide : 3 ≤ transSize)
    (serves : ({ channel.gen with pendingEn := false }).Serves transfer count)
    (sized : input.control.datasize = transfer.datasize) :
    (ChannelEvent.access channel.gen.addresses
        ((channel.gen.currBytes input.control).toNat + 1) : ChannelEvent aWidth transSize) =
      .access (transfer.address count) (transfer.validBytes count) :=
  congr (congrArg _ serves.addresses) (serves.currBytes wide sized)

/-- The last access makes the transfer a whole one. -/
theorem whole_eq (wide : 3 ≤ transSize)
    (serves : ({ channel.gen with pendingEn := false }).Serves transfer count)
    (sized : input.control.datasize = transfer.datasize)
    (last : channel.gen.compare input.control = true) :
    transfer.whole = transfer.begun count ++
      [.access (transfer.address count) (transfer.validBytes count), .event] := by
  have accesses : transfer.accesses = count + 1 :=
    Transfer.accesses_eq serves.left ((serves.compare_iff wide sized).mp last)
  rw [Transfer.whole, accesses, transfer.begun_succ, List.append_assoc]
  rfl

/-- The registers after an access that is not the last one. -/
theorem serves_moved (wide : 3 ≤ transSize)
    (serves : ({ channel.gen with pendingEn := false }).Serves transfer count)
    (sized : input.control.datasize = transfer.datasize)
    (issued : (input.control.grant && input.control.notStall) = true)
    (more : channel.gen.compare input.control = false) :
    ({ channel.gen with
      event := false, sot := false, chEn := true, pendingEn := false
      counters := channel.gen.counters - datasizeToAdd transSize input.control.datasize
      addresses := channel.gen.addresses + datasizeToAdd aWidth input.control.datasize } :
        ChAddrgen aWidth transSize idWidth).Serves transfer (count + 1) := by
  obtain ⟨granted, notStall⟩ := Bool.and_eq_true_iff.mp issued
  let quiet : ChannelCfg aWidth transSize idWidth := ⟨0, 0, false, false, 0, 0, false⟩
  have further : (count + 1) * transfer.wordBytes < transfer.size.toNat := by
    refine Nat.lt_of_not_le fun last => ?_
    rw [← serves.compare_iff wide sized] at last
    exact absurd (more.symm.trans last) Bool.noConfusion
  have programs : transfer.Programs quiet :=
    ⟨rfl, rfl, fun requested => absurd requested Bool.false_ne_true,
      fun requested => absurd requested Bool.false_ne_true⟩
  have moved := (serves.access wide programs rfl notStall granted sized further).1
  rw [ChAddrgen.step_moves rfl serves.en issued more] at moved
  exact moved

/-- One cycle of a channel: what is seen continues the transfers. -/
theorem Phase.step (wide : 3 ≤ transSize) (phase : Phase channel current)
    (allowed : channel.Allowed input) :
    ∃ later, Phase (channel.step input) later ∧ ∀ done : List (Transfer aWidth transSize),
      ∃ doneLater : List (Transfer aWidth transSize),
        done.flatMap Transfer.whole ++ current.begun ++ channel.does input =
          doneLater.flatMap Transfer.whole ++ later.begun := by
  have edge := phase.edge allowed
  generalize stepped : channel.gen.step input.cfg input.control = next at edge
  rw [does_eq stepped, step_eq stepped]
  have issues : channel.gen.issues input.toAddrgenInput =
      (channel.gen.en && (input.control.grant && input.control.notStall)) := Bool.and_assoc ..
  have loads : next.sot = true → channel.loads input = true := fun shown =>
    (congrArg ChAddrgen.sot stepped).trans shown
  cases phase with
  | idle idle =>
      rw [issues, idle.en, Bool.false_and]
      cases edge with
      | rests disabled quiet =>
          exact ⟨none, .idle ⟨idle.en, idle.chEn, idle.pendingEn⟩, fun done => ⟨done, by simp⟩⟩
      | starts disabled requested =>
          obtain ⟨transfer, startaddr, size, datasize⟩ := exists_loaded allowed (loads rfl)
          refine ⟨some (transfer, 0), .serving (loaded_serves rfl rfl startaddr.symm size.symm)
            datasize.symm, fun done => ⟨done, ?_⟩⟩
          rw [← startaddr, ← size, ← datasize]
          exact congrArg (· ++ _) (List.append_nil _)
      | waits enabled => exact absurd (idle.en.symm.trans enabled) Bool.noConfusion
      | moves enabled => exact absurd (idle.en.symm.trans enabled) Bool.noConfusion
      | stops enabled => exact absurd (idle.en.symm.trans enabled) Bool.noConfusion
      | reloads enabled => exact absurd (idle.en.symm.trans enabled) Bool.noConfusion
  | @serving transfer count serves sized =>
      rw [issues, show channel.gen.en = true from serves.en, Bool.true_and]
      have sizedNow : (input.control.grant && input.control.notStall) = true →
          input.control.datasize = transfer.datasize := fun issued =>
        (allowed.sized (issues.trans (by
          rw [issued, show channel.gen.en = true from serves.en]
          rfl))).trans sized
      cases edge with
      | rests disabled => exact absurd (serves.en.symm.trans disabled) Bool.noConfusion
      | starts disabled => exact absurd (serves.en.symm.trans disabled) Bool.noConfusion
      | waits enabled waits =>
          rw [waits]
          exact ⟨some (transfer, count),
            .serving ⟨enabled, rfl, serves.addresses, serves.counters, serves.left⟩ sized,
            fun done => ⟨done, by simp⟩⟩
      | moves enabled issued more =>
          have moved := serves_moved wide serves (sizedNow issued) issued more
          rw [issued, if_pos rfl, access_eq wide serves (sizedNow issued)]
          refine ⟨some (transfer, count + 1),
            .serving ⟨enabled, rfl, moved.addresses, moved.counters, moved.left⟩ sized,
            fun done => ⟨done, ?_⟩⟩
          change _ = _ ++ transfer.begun (count + 1)
          rw [transfer.begun_succ, List.append_assoc]
          rfl
      | stops enabled issued last nothing =>
          rw [issued, if_pos rfl, access_eq wide serves (sizedNow issued)]
          have settled : channel.gen.pendingEn = false := by
            rw [Bool.or_eq_false_iff, Bool.or_eq_false_iff] at nothing
            exact nothing.1.2
          refine ⟨none, .idle ⟨rfl, rfl, settled⟩, fun done => ⟨done ++ [transfer], ?_⟩⟩
          rw [List.flatMap_append, List.flatMap_singleton,
            whole_eq wide serves (sizedNow issued) last, List.append_assoc]
          exact (List.append_nil _).symm
      | reloads enabled issued last again chEn =>
          obtain ⟨later, startaddr, size, datasize⟩ := exists_loaded allowed (loads rfl)
          rw [issued, if_pos rfl, access_eq wide serves (sizedNow issued)]
          refine ⟨some (later, 0), .serving (loaded_serves enabled rfl startaddr.symm size.symm)
            datasize.symm, fun done => ⟨done ++ [transfer], ?_⟩⟩
          rw [List.flatMap_append, List.flatMap_singleton,
            whole_eq wide serves (sizedNow issued) last, ← startaddr, ← size, ← datasize]
          simp only [List.append_assoc]
          rfl

/-- One cycle of a channel: what becomes of requests. -/
theorem Phase.requests (phase : Phase channel current) (allowed : channel.Allowed input) :
    (channel.step input).gen.pendingEn =
        (!channel.loads input && (channel.gen.pendingEn || input.cfg.en)) ∧
      (channel.gen.en = false → channel.loads input = input.cfg.en) ∧
      (channel.gen.raises input.toAddrgenInput = true →
        channel.loads input =
          (input.cfg.continuous || channel.gen.pendingEn || input.cfg.en) ∧
        (channel.step input).gen.en = channel.loads input) ∧
      (channel.loads input = true →
        channel.gen.en = false ∨ channel.gen.raises input.toAddrgenInput = true) := by
  have edge := phase.edge allowed
  generalize stepped : channel.gen.step input.cfg input.control = next at edge
  have settled : channel.gen.en = false → channel.gen.pendingEn = false := by
    intro disabled
    cases phase with
    | idle idle => exact idle.pendingEn
    | serving serves _ => exact absurd (serves.en.symm.trans disabled) Bool.noConfusion
  rw [step_eq stepped, Programmed.loads, ChAddrgen.raises, stepped]
  cases edge with
  | rests disabled quiet => simp [disabled, quiet, settled disabled]
  | starts disabled requested => simp [disabled, requested, settled disabled]
  | waits enabled waits => simp [enabled]
  | moves enabled issued more => simp [enabled]
  | stops enabled issued last nothing =>
      rw [nothing]
      rw [Bool.or_eq_false_iff, Bool.or_eq_false_iff] at nothing
      simp [enabled, nothing.1.2, nothing.2]
  | reloads enabled issued last again chEn => simp [enabled, again]

end Cycle

/-- The byte counts of a whole transfer. -/
theorem Transfer.sum_validBytes (transfer : Transfer aWidth transSize) (count : Nat) :
    ((List.range count).map transfer.validBytes).sum =
      min (count * transfer.wordBytes) transfer.size.toNat := by
  induction count with
  | zero => simp
  | succ count inductionHypothesis =>
      rw [List.range_succ, List.map_append, List.sum_append, inductionHypothesis,
        List.map_singleton, List.sum_singleton, Transfer.validBytes, Nat.add_mul, Nat.one_mul]
      omega

theorem Transfer.sum_validBytes_accesses (transfer : Transfer aWidth transSize) :
    ((List.range transfer.accesses).map transfer.validBytes).sum = transfer.size.toNat := by
  rw [transfer.sum_validBytes]
  have covered := (not_congr (transfer.lt_accesses_iff transfer.accesses)).mp (Nat.lt_irrefl _)
  omega

section Runs

variable {inputs : List (ProgrammedInput aWidth transSize idWidth)}

/-- After every allowed run what has been seen are whole transfers and the beginning of the
one at hand, and the requests since the last load are remembered. -/
theorem phase_run (wide : 3 ≤ transSize)
    (allowed : (programmedMachine aWidth transSize idWidth).Always Programmed.Allowed inputs) :
    ∃ current, Phase ((programmedMachine aWidth transSize idWidth).run inputs) current ∧
      (∃ done : List (Transfer aWidth transSize),
        (programmedMachine aWidth transSize idWidth).observed Programmed.does inputs =
          done.flatMap Transfer.whole ++ current.begun) ∧
      ((programmedMachine aWidth transSize idWidth).run inputs).gen.pendingEn =
        (programmedMachine aWidth transSize idWidth).raisedSince (fun _ input => input.cfg.en)
          Programmed.loads inputs := by
  induction inputs using List.reverseRecOn with
  | nil => exact ⟨none, .idle ChAddrgen.idle_reset, ⟨[], rfl⟩, rfl⟩
  | append_singleton inputs input inductionHypothesis =>
      rw [Machine.always_snoc] at allowed
      obtain ⟨current, phase, ⟨done, seen⟩, pending⟩ := inductionHypothesis allowed.1
      obtain ⟨later, phaseLater, continues⟩ := phase.step wide allowed.2
      obtain ⟨doneLater, seenLater⟩ := continues done
      rw [Machine.run_snoc, Machine.observed_snoc, Machine.raisedSince_snoc, seen, ← pending]
      exact ⟨later, phaseLater, ⟨doneLater, seenLater⟩, (phase.requests allowed.2).1⟩

/-- For every run without a clear, with valid configurations and the data size of the transfer
at every access that is issued. -/
theorem addrgen_covers (wide : 3 ≤ transSize) :
    (∀ transfer : Transfer aWidth transSize,
      ((List.range transfer.accesses).map transfer.validBytes).sum = transfer.size.toNat) ∧
    ∀ inputs : List (ProgrammedInput aWidth transSize idWidth),
      (programmedMachine aWidth transSize idWidth).Always Programmed.Allowed inputs →
        Covers inputs := by
  refine ⟨Transfer.sum_validBytes_accesses, fun inputs allowed => ⟨?_, ?_⟩⟩
  · obtain ⟨current, phase, ⟨done, seen⟩, -⟩ := phase_run wide allowed
    refine ⟨done, current, seen, ?_, ?_⟩
    · cases phase with
      | idle idle => exact idle.en.symm
      | serving serves _ => exact (show _ = true from serves.en).symm
    · rintro transfer count rfl
      cases phase with
      | serving serves _ => exact (transfer.lt_accesses_iff count).mpr serves.left
  · intro before input isPrefix
    obtain ⟨rest, rfl⟩ := isPrefix
    have both := allowed.of_append
    rw [Machine.always_snoc] at both
    obtain ⟨current, phase, -, pending⟩ := phase_run wide both.1
    have requests := (phase.requests both.2).2
    rw [pending] at requests
    exact requests

end Runs

/-- A cycle of a channel with five bytes in accesses of two. -/
def fiveBytes (en granted : Bool) : ProgrammedInput 8 4 2 :=
  { cfg :=
      { startaddr := 0x11, size := 5, continuous := false, en := en, stream := 0, streamId := 0
        clr := false }
    -- another channel shows its data size when this one is not granted
    control := { notStall := true, datasize := if granted then 1 else 2, grant := granted }
    datasize := 1 }

/-- The channel is requested again while it runs, and runs twice. -/
theorem requestedWhileRunning_covers :
    Covers [fiveBytes true false, fiveBytes false true, fiveBytes true false, fiveBytes false true,
      fiveBytes false true, fiveBytes false true, fiveBytes false true, fiveBytes false true,
      fiveBytes false false] :=
  (addrgen_covers (by decide)).2 _ (by decide +kernel)

end CoreVMcu.Udma
