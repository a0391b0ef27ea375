import CoreVMcu.Filter.UdmaFilter
import CoreVMcu.Clocked.Machine

/-!
# The connection modes

The table of the connection modes says which operands come from L2, which from the
stream, and whether the output is written back.  A start has to launch the L2 channels
of the mode and no others, and the end of the transfer is an event once all of them
have finished.
-/

namespace CoreVMcu.Filter

open Clocked Udma

variable {aWidth transSize dataWidth : Nat}

/-! ## The table -/

/-- Where an operand comes from. -/
inductive Operand
  | off
  | l2
  | stream
  deriving DecidableEq

/-- A row of the table. -/
structure Connection where
  operandA : Operand
  operandB : Operand
  output : Bool
  tbUnit : Bool

/-- The table of the connection modes. -/
def connection (mode : BitVec 4) : Connection :=
  match mode.toNat with
  | 0 => ⟨.l2, .l2, true, false⟩
  | 1 => ⟨.stream, .l2, true, false⟩
  | 2 => ⟨.l2, .off, true, false⟩
  | 3 => ⟨.stream, .off, true, false⟩
  | 4 => ⟨.l2, .l2, false, true⟩
  | 5 => ⟨.stream, .l2, false, true⟩
  | 6 => ⟨.l2, .off, false, true⟩
  | 7 => ⟨.stream, .off, false, true⟩
  | 8 => ⟨.l2, .l2, true, true⟩
  | 9 => ⟨.stream, .l2, true, true⟩
  | 10 => ⟨.l2, .off, true, true⟩
  | 11 => ⟨.stream, .off, true, true⟩
  | 12 => ⟨.off, .off, false, true⟩
  | 13 => ⟨.off, .off, true, true⟩
  | _ => ⟨.off, .off, false, false⟩

/-- The L2 channels of a mode. -/
def Connection.l2Channels (connection : Connection) : ChannelFlags :=
  ⟨connection.operandA == .l2, connection.operandB == .l2, connection.output⟩

/-- The decoder turns on the output and operand B as in the table, and operand A for a
stream too. -/
theorem select_eq_connection (mode : BitVec 4) :
    (select mode).selOpaValid = ((connection mode).operandA != .off) ∧
      (select mode).selOpbValid = ((connection mode).operandB == .l2) ∧
      (select mode).selOutValid = (connection mode).output := by
  revert mode
  decide

namespace ChannelFlags

/-- The flags of one set without those of another. -/
def without (flags finished : ChannelFlags) : ChannelFlags :=
  ⟨flags.cha && !finished.cha, flags.chb && !finished.chb, flags.out && !finished.out⟩

theorem zero_covers (used : ChannelFlags) : zero.covers used = true ↔ used = zero := by
  rcases used with ⟨_ | _, _ | _, _ | _⟩ <;> decide

theorem set_zero (flags : ChannelFlags) : flags.set zero = flags := by
  rcases flags with ⟨_ | _, _ | _, _ | _⟩ <;> rfl

theorem without_zero (flags : ChannelFlags) : flags.without zero = flags := by
  rcases flags with ⟨_ | _, _ | _, _ | _⟩ <;> rfl

theorem without_without (used finished ends : ChannelFlags) :
    (used.without finished).without ends = used.without (finished.set ends) := by
  simp [without, set, Bool.and_assoc]

/-- Nothing is left once the used channels have finished. -/
theorem without_of_covers {used finished : ChannelFlags} (covers : finished.covers used = true) :
    used.without finished = zero := by
  rcases used with ⟨_ | _, _ | _, _ | _⟩ <;> rcases finished with ⟨_ | _, _ | _, _ | _⟩ <;>
    first | rfl | cases covers

end ChannelFlags

/-- A transfer: its mode and the channels that have finished. -/
structure Transfer where
  mode : BitVec 4
  finished : ChannelFlags

/-- All the L2 channels of the mode have finished. -/
def Transfer.complete (transfer : Transfer) : Bool :=
  transfer.finished.covers (connection transfer.mode).l2Channels

namespace UdmaFilter

variable (filter : UdmaFilter aWidth transSize dataWidth) (input : FilterInput dataWidth)

/-- The mode of the transfer. -/
def mode : BitVec 4 := filter.regIf.rCommit.mode

/-- The channels that start in this cycle. -/
def launches : ChannelFlags :=
  ⟨filter.cha.starts filter.startCha, filter.chb.starts filter.startChb,
    filter.out.starts filter.startOut⟩

/-- The channels that run. -/
def running : ChannelFlags := ⟨filter.cha.running, filter.chb.running, filter.out.running⟩

/-- The channels that run for the last cycle. -/
def ends : ChannelFlags where
  cha := filter.running.cha && (filter.channelsDone input).cha
  chb := filter.running.chb && (filter.channelsDone input).chb
  out := filter.running.out && (filter.channelsDone input).out

end UdmaFilter

/-- The filter with the transfer that has been started and not been signalled to have
ended. -/
structure Watched (aWidth transSize dataWidth : Nat) where
  filter : UdmaFilter aWidth transSize dataWidth
  transfer : Option Transfer

namespace Watched

variable (watched : Watched aWidth transSize dataWidth) (input : FilterInput dataWidth)

/-- A start begins a transfer and the event ends it. -/
def transferNext : Option Transfer :=
  if watched.filter.eotEvent then none
  else if watched.filter.regIf.filterStart then some ⟨watched.filter.mode, .zero⟩
  else watched.transfer.map fun transfer =>
    { transfer with finished := transfer.finished.set (watched.filter.ends input) }

def step : Watched aWidth transSize dataWidth where
  filter := watched.filter.step input
  transfer := watched.transferNext input

/-- A start launches the L2 channels of its mode and nothing else does; the event is
raised as soon as all of them have finished. -/
@[mk_iff] structure FollowsMode (watched : Watched aWidth transSize dataWidth)
    (_ : FilterInput dataWidth) : Prop where
  launched : watched.filter.launches =
    if watched.filter.regIf.filterStart then (connection watched.filter.mode).l2Channels else .zero
  signalled : watched.filter.eotEvent = watched.transfer.any Transfer.complete
  alone : watched.filter.regIf.filterStart = true → watched.transfer = none

/-- The memory grants only what is requested, and a start is in a mode with an L2
channel. -/
@[mk_iff] structure Legal (watched : Watched aWidth transSize dataWidth)
    (input : FilterInput dataWidth) : Prop where
  txCh0 : input.txCh0Gnt = true → watched.filter.cha.req = true
  txCh1 : input.txCh1Gnt = true → watched.filter.chb.req = true
  usesL2 : watched.filter.regIf.filterStart = true →
    (connection watched.filter.mode).l2Channels ≠ .zero

instance : Decidable (watched.FollowsMode input) :=
  decidable_of_iff _ (followsMode_iff watched input).symm

instance : Decidable (watched.Legal input) := decidable_of_iff _ (legal_iff watched input).symm

/-- A start is not in a mode with operand A from the stream. -/
def StartsWithoutStream (watched : Watched aWidth transSize dataWidth)
    (_ : FilterInput dataWidth) : Prop :=
  watched.filter.regIf.filterStart = true → (connection watched.filter.mode).operandA ≠ .stream

instance : Decidable (watched.StartsWithoutStream input) :=
  inferInstanceAs (Decidable (_ → _))

end Watched

/-- A cycle in which the filter follows the mode. -/
theorem Watched.FollowsMode.balance {watched : Watched aWidth transSize dataWidth}
    {input : FilterInput dataWidth} (follows : watched.FollowsMode input) :
    watched.transfer.isSome.toNat + watched.filter.regIf.filterStart.toNat =
      watched.filter.eotEvent.toNat + (watched.step input).transfer.isSome.toNat := by
  rw [Watched.step, Watched.transferNext]
  cases start : watched.filter.regIf.filterStart with
  | true =>
      have signalled := follows.signalled
      rw [follows.alone start] at signalled
      rw [signalled, follows.alone start]
      rfl
  | false =>
      cases event : watched.filter.eotEvent with
      | false => cases watched.transfer <;> rfl
      | true =>
          have signalled := follows.signalled
          cases under : watched.transfer with
          | none =>
              rw [event, under] at signalled
              cases signalled
          | some transfer => rfl

/-! ## What a cycle does -/

section Cycle

variable {watched : Watched aWidth transSize dataWidth} {input : FilterInput dataWidth}

/-- A fetching channel is only granted words while it runs. -/
theorem TxDatafetch.running_of_done {fetch : TxDatafetch aWidth transSize dataWidth}
    {cfg : ChannelCfg aWidth transSize} {input : FetchInput dataWidth}
    (granted : input.gnt = true → fetch.req = true) (done : fetch.done cfg input = true) :
    fetch.running = true := by
  have gnt : input.gnt = true := by
    rw [TxDatafetch.done, TxDatafetch.granted, Bool.and_eq_true, Bool.and_eq_true] at done
    exact done.1.2
  have req := granted gnt
  rw [TxDatafetch.req, Bool.and_eq_true] at req
  exact req.2

theorem RxDataout.running_of_done {out : RxDataout aWidth transSize dataWidth}
    {cfg : ChannelCfg aWidth transSize} {input : DataoutInput dataWidth}
    (done : out.done cfg input = true) : out.running = true := by
  rw [RxDataout.done, RxDataout.written, Bool.and_eq_true, Bool.and_eq_true,
    Bool.and_eq_true] at done
  exact done.1.1.1

namespace Watched

/-- The channels that are done are those that end. -/
theorem Legal.ends_eq (legal : watched.Legal input) :
    watched.filter.ends input = watched.filter.channelsDone input := by
  have keep : ∀ {running done : Bool}, (done = true → running = true) →
      (running && done) = done := by
    intro running done implies
    cases done with
    | false => exact Bool.and_false running
    | true => rw [implies rfl, Bool.and_self]
  apply ChannelFlags.ext
  · exact keep fun done => TxDatafetch.running_of_done legal.txCh0 done
  · exact keep fun done => TxDatafetch.running_of_done legal.txCh1 done
  · exact keep RxDataout.running_of_done

end Watched

namespace UdmaFilter

variable {filter : UdmaFilter aWidth transSize dataWidth}

/-- Without a start the channels run until they are done. -/
theorem running_step (quiet : filter.regIf.filterStart = false) :
    (filter.step input).running = filter.running.without (filter.channelsDone input) := by
  have keep : ∀ running done : Bool, (if running then !done else false) = (running && !done) := by
    decide
  apply ChannelFlags.ext
  · change (if filter.cha.running then _ else filter.startCha) = _
    rw [startCha, quiet, Bool.false_and]
    exact keep ..
  · change (if filter.chb.running then _ else filter.startChb) = _
    rw [startChb, quiet, Bool.false_and]
    exact keep ..
  · change (if filter.out.running then _ else filter.startOut) = _
    rw [startOut, quiet, Bool.false_and]
    exact keep ..

/-- A start of the idle channels makes the selected ones run. -/
theorem running_start (start : filter.regIf.filterStart = true) (idle : filter.running = .zero) :
    (filter.step input).running = filter.used := by
  have cha : filter.cha.running = false := congrArg ChannelFlags.cha idle
  have chb : filter.chb.running = false := congrArg ChannelFlags.chb idle
  have out : filter.out.running = false := congrArg ChannelFlags.out idle
  apply ChannelFlags.ext
  · change (if filter.cha.running then _ else filter.startCha) = _
    rw [startCha, start, Bool.true_and, cha]
    rfl
  · change (if filter.chb.running then _ else filter.startChb) = _
    rw [startChb, start, Bool.true_and, chb]
    rfl
  · change (if filter.out.running then _ else filter.startOut) = _
    rw [startOut, start, Bool.true_and, out]
    rfl

/-- What is launched while the channels are idle. -/
theorem launches_of_idle (idle : filter.running = .zero) :
    filter.launches = if filter.regIf.filterStart then filter.used else .zero := by
  have cha : filter.cha.running = false := congrArg ChannelFlags.cha idle
  have chb : filter.chb.running = false := congrArg ChannelFlags.chb idle
  have out : filter.out.running = false := congrArg ChannelFlags.out idle
  rw [launches, TxDatafetch.starts, TxDatafetch.starts, RxDataout.starts, cha, chb, out, startCha,
    startChb, startOut, used]
  cases filter.regIf.filterStart <;> rfl

/-- Nothing is launched without a start. -/
theorem launches_of_quiet (quiet : filter.regIf.filterStart = false) :
    filter.launches = .zero := by
  rw [launches, startCha, startChb, startOut, quiet]
  simp only [Bool.false_and, TxDatafetch.starts, RxDataout.starts, Bool.and_false]
  rfl

/-- The mode changes with a commit only. -/
theorem mode_step (keeps : filter.regIf.sampleCommit filter.eotEvent = false) :
    (filter.step input).mode = filter.mode := by
  change (if filter.regIf.sampleCommit filter.eotEvent then _ else _ : FilterCfg _ _).mode = _
  rw [keeps]
  rfl

/-- The channels in use only depend on the mode. -/
theorem used_eq (filter : UdmaFilter aWidth transSize dataWidth) :
    filter.used = ⟨(connection filter.mode).operandA != .off,
      (connection filter.mode).operandB == .l2, (connection filter.mode).output⟩ := by
  have selects := select_eq_connection filter.mode
  exact ChannelFlags.ext selects.1 selects.2.1 selects.2.2

end UdmaFilter

/-- No transfer is under way. -/
structure Rests (filter : UdmaFilter aWidth transSize dataWidth) : Prop where
  idle : filter.running = .zero
  notBusy : filter.regIf.rState ≠ .busy
  settled : filter.regIf.rState = .idle → filter.rDone = filter.done
  cleared : filter.rDone = true ∨ filter.rStatus = .zero

/-- A transfer is under way. -/
structure Follows (filter : UdmaFilter aWidth transSize dataWidth) (transfer : Transfer) :
    Prop where
  busy : filter.regIf.rState = .busy
  mode : transfer.mode = filter.mode
  uses : filter.used = (connection filter.mode).l2Channels
  nonzero : filter.used ≠ .zero
  status : filter.rStatus = transfer.finished
  running : filter.running = filter.used.without transfer.finished
  first : filter.rDone = true → filter.rStatus = .zero

/-- What the filter does about the transfer that is under way. -/
def Watched.Invariant (watched : Watched aWidth transSize dataWidth) : Prop :=
  match watched.transfer with
  | none => Rests watched.filter
  | some transfer => Follows watched.filter transfer

namespace Rests

variable {filter : UdmaFilter aWidth transSize dataWidth}

theorem reset : Rests (.reset : UdmaFilter aWidth transSize dataWidth) where
  idle := rfl
  notBusy := RegIfState.noConfusion
  settled := fun _ => rfl
  cleared := .inr rfl

/-- Channels that do not run are not done. -/
theorem channelsDone_eq (idle : filter.running = .zero)
    (ends : filter.ends input = filter.channelsDone input) :
    filter.channelsDone input = .zero := by
  rw [← ends, UdmaFilter.ends, idle]
  rfl

theorem eotEvent_eq (rests : Rests filter)
    (used : filter.regIf.filterStart = true → filter.used ≠ .zero) : filter.eotEvent = false := by
  cases state : filter.regIf.rState with
  | busy => exact absurd state rests.notBusy
  | idle =>
      rw [UdmaFilter.eotEvent, rests.settled state]
      cases filter.done <;> rfl
  | sample =>
      rw [UdmaFilter.eotEvent]
      cases rests.cleared with
      | inl done => rw [done, Bool.not_true, Bool.and_false]
      | inr zero =>
          have notDone : filter.done = false := by
            rw [UdmaFilter.done, zero, Bool.eq_false_iff, Ne, ChannelFlags.zero_covers]
            exact used (by rw [RegIf.filterStart, state]; rfl)
          rw [notDone, Bool.false_and]

/-- An idle filter waits for a start. -/
theorem step (rests : Rests filter) (quiet : filter.regIf.filterStart = false)
    (ends : filter.ends input = filter.channelsDone input) : Rests (filter.step input) := by
  have state : filter.regIf.rState = .idle := by
    cases state : filter.regIf.rState with
    | idle => rfl
    | busy => exact absurd state rests.notBusy
    | sample =>
        rw [RegIf.filterStart, state] at quiet
        cases quiet
  have none := channelsDone_eq rests.idle ends
  have status : (filter.step input).rStatus = filter.rStatus := by
    rw [UdmaFilter.step, quiet, none]
    exact filter.rStatus.set_zero
  refine ⟨?_, ?_, ?_, ?_⟩
  · rw [UdmaFilter.running_step quiet, rests.idle]
    rfl
  · change filter.regIf.stateNext _ ≠ _
    rw [RegIf.stateNext, state]
    cases filter.regIf.rFilterStart <;> exact RegIfState.noConfusion
  · intro waits
    change filter.regIf.stateNext _ = _ at waits
    have keeps : filter.regIf.sampleCommit filter.eotEvent = false := by
      rw [RegIf.stateNext, state] at waits
      rw [RegIf.sampleCommit, state]
      cases started : filter.regIf.rFilterStart with
      | false => rfl
      | true =>
          rw [started] at waits
          cases waits
    rw [UdmaFilter.done, status, UdmaFilter.used_eq, UdmaFilter.mode_step keeps,
      ← UdmaFilter.used_eq]
    rfl
  · rw [status]
    change filter.done = true ∨ _
    rw [← rests.settled state]
    exact rests.cleared

/-- A start begins a transfer. -/
theorem start (rests : Rests filter) (start : filter.regIf.filterStart = true)
    (uses : filter.used = (connection filter.mode).l2Channels) (nonzero : filter.used ≠ .zero) :
    Follows (filter.step input) ⟨filter.mode, .zero⟩ := by
  have state : filter.regIf.rState = .sample := by
    rw [RegIf.filterStart, beq_iff_eq] at start
    exact start
  have keeps : filter.regIf.sampleCommit filter.eotEvent = false := by
    rw [RegIf.sampleCommit, state]
  have mode : (filter.step input).mode = filter.mode := UdmaFilter.mode_step keeps
  have used : (filter.step input).used = filter.used := by
    rw [UdmaFilter.used_eq, mode, ← UdmaFilter.used_eq]
  have status : (filter.step input).rStatus = .zero := by
    rw [UdmaFilter.step, start]
    rfl
  refine ⟨?_, mode.symm, ?_, ?_, status, ?_, fun _ => status⟩
  · change filter.regIf.stateNext _ = _
    rw [RegIf.stateNext, state]
  · rw [used, mode, uses]
  · rw [used]
    exact nonzero
  · rw [UdmaFilter.running_start start rests.idle, used]
    exact filter.used.without_zero.symm

end Rests

namespace Follows

variable {filter : UdmaFilter aWidth transSize dataWidth} {transfer : Transfer}

theorem quiet (follows : Follows filter transfer) : filter.regIf.filterStart = false := by
  rw [RegIf.filterStart, follows.busy]
  rfl

theorem complete_eq (follows : Follows filter transfer) : transfer.complete = filter.done := by
  rw [Transfer.complete, UdmaFilter.done, follows.mode, ← follows.uses, follows.status]

theorem rDone_of_done (follows : Follows filter transfer) (done : filter.done = true) :
    filter.rDone = false := by
  cases before : filter.rDone with
  | false => rfl
  | true =>
      rw [UdmaFilter.done, follows.first before, ChannelFlags.zero_covers] at done
      exact absurd done follows.nonzero

theorem eotEvent_eq (follows : Follows filter transfer) : filter.eotEvent = filter.done := by
  rw [UdmaFilter.eotEvent]
  cases done : filter.done with
  | false => rfl
  | true =>
      rw [follows.rDone_of_done done]
      rfl

/-- The transfer goes on. -/
theorem step (follows : Follows filter transfer) (goesOn : filter.eotEvent = false)
    (ends : filter.ends input = filter.channelsDone input) :
    Follows (filter.step input)
      { transfer with finished := transfer.finished.set (filter.ends input) } := by
  have keeps : filter.regIf.sampleCommit filter.eotEvent = false := by
    rw [RegIf.sampleCommit, follows.busy, goesOn]
    rfl
  have mode : (filter.step input).mode = filter.mode := UdmaFilter.mode_step keeps
  have used : (filter.step input).used = filter.used := by
    rw [UdmaFilter.used_eq, mode, ← UdmaFilter.used_eq]
  refine ⟨?_, ?_, ?_, ?_, ?_, ?_, ?_⟩
  · change filter.regIf.stateNext _ = _
    rw [RegIf.stateNext, follows.busy, goesOn]
    rfl
  · rw [mode]
    exact follows.mode
  · rw [used, mode, follows.uses]
  · rw [used]
    exact follows.nonzero
  · rw [UdmaFilter.step, follows.quiet, ends, ← follows.status]
    rfl
  · rw [UdmaFilter.running_step follows.quiet, used, follows.running, ends,
      ChannelFlags.without_without]
  · intro done
    change filter.done = true at done
    rw [← follows.eotEvent_eq, goesOn] at done
    cases done

/-- The event ends the transfer. -/
theorem finish (follows : Follows filter transfer) (event : filter.eotEvent = true)
    (ends : filter.ends input = filter.channelsDone input) : Rests (filter.step input) := by
  have done : filter.done = true := follows.eotEvent_eq ▸ event
  have idle : filter.running = .zero := by
    rw [UdmaFilter.done, follows.status] at done
    rw [follows.running, ChannelFlags.without_of_covers done]
  refine ⟨?_, ?_, ?_, .inl done⟩
  · rw [UdmaFilter.running_step follows.quiet, idle]
    rfl
  · change filter.regIf.stateNext _ ≠ _
    rw [RegIf.stateNext, follows.busy, event]
    cases filter.regIf.rFilterStart || filter.regIf.rPending <;> exact RegIfState.noConfusion
  · intro waits
    change filter.regIf.stateNext _ = _ at waits
    have keeps : filter.regIf.sampleCommit filter.eotEvent = false := by
      rw [RegIf.stateNext, follows.busy, event] at waits
      rw [RegIf.sampleCommit, follows.busy, event]
      cases again : filter.regIf.rFilterStart || filter.regIf.rPending with
      | false => rfl
      | true =>
          rw [again] at waits
          cases waits
    have status : (filter.step input).rStatus = filter.rStatus := by
      rw [UdmaFilter.step, follows.quiet, Rests.channelsDone_eq idle ends]
      exact filter.rStatus.set_zero
    rw [UdmaFilter.done, status, UdmaFilter.used_eq, UdmaFilter.mode_step keeps,
      ← UdmaFilter.used_eq]
    rfl

end Follows

namespace Watched

/-- A mode whose operand A does not come from the stream uses the channels that it
selects. -/
theorem StartsWithoutStream.uses (starts : watched.StartsWithoutStream input)
    (start : watched.filter.regIf.filterStart = true) :
    watched.filter.used = (connection watched.filter.mode).l2Channels := by
  have noStream := starts start
  rw [UdmaFilter.used_eq, Connection.l2Channels]
  cases operand : (connection watched.filter.mode).operandA with
  | off => rfl
  | l2 => rfl
  | stream => exact absurd operand noStream

/-- Whatever the source of operand A, a mode with an L2 channel selects a channel. -/
theorem Legal.used_ne_zero (legal : watched.Legal input)
    (start : watched.filter.regIf.filterStart = true) : watched.filter.used ≠ .zero := by
  intro none
  rw [UdmaFilter.used_eq] at none
  have cha : ((connection watched.filter.mode).operandA != .off) = false :=
    congrArg ChannelFlags.cha none
  have off : (connection watched.filter.mode).operandA = .off := by
    rw [bne_eq_false_iff_eq] at cha
    exact cha
  apply legal.usesL2 start
  rw [Connection.l2Channels, off]
  rw [off] at none
  exact none

/-- The invariant of the transfer, along a cycle. -/
theorem Invariant.step (invariant : watched.Invariant) (legal : watched.Legal input)
    (starts : watched.StartsWithoutStream input) : (watched.step input).Invariant := by
  have ends := legal.ends_eq
  rw [Invariant, Watched.step, transferNext]
  cases under : watched.transfer with
  | none =>
      have rests : Rests watched.filter := by
        rw [Invariant, under] at invariant
        exact invariant
      rw [rests.eotEvent_eq legal.used_ne_zero]
      cases start : watched.filter.regIf.filterStart with
      | false => exact rests.step start ends
      | true => exact rests.start start (starts.uses start) (legal.used_ne_zero start)
  | some transfer =>
      have follows : Follows watched.filter transfer := by
        rw [Invariant, under] at invariant
        exact invariant
      rw [follows.quiet]
      cases event : watched.filter.eotEvent with
      | false => exact follows.step event ends
      | true => exact follows.finish event ends

/-- While the invariant holds, a cycle is right exactly if it does not start a mode with
operand A from the stream. -/
theorem followsMode_iff_startsWithoutStream (invariant : watched.Invariant)
    (legal : watched.Legal input) :
    watched.FollowsMode input ↔ watched.StartsWithoutStream input := by
  cases under : watched.transfer with
  | none =>
      have rests : Rests watched.filter := by
        rw [Invariant, under] at invariant
        exact invariant
      constructor
      · intro correct start stream
        have launched := correct.launched
        rw [UdmaFilter.launches_of_idle rests.idle, start, UdmaFilter.used_eq,
          Connection.l2Channels, stream] at launched
        have cha : true = false := congrArg ChannelFlags.cha launched
        cases cha
      · intro starts
        refine ⟨?_, ?_, fun _ => under⟩
        · rw [UdmaFilter.launches_of_idle rests.idle]
          cases start : watched.filter.regIf.filterStart with
          | false => rfl
          | true => exact starts.uses start
        · rw [rests.eotEvent_eq legal.used_ne_zero, under]
          rfl
  | some transfer =>
      have follows : Follows watched.filter transfer := by
        rw [Invariant, under] at invariant
        exact invariant
      have quiet : watched.filter.regIf.filterStart ≠ true := Bool.eq_false_iff.mp follows.quiet
      refine iff_of_true ⟨?_, ?_, ?_⟩ ?_
      · rw [UdmaFilter.launches_of_quiet follows.quiet, if_neg quiet]
      · rw [follows.eotEvent_eq, under, Option.any_some, follows.complete_eq]
      · exact fun start => absurd start quiet
      · exact fun start => absurd start quiet

end Watched

end Cycle

/-- The watched filter from reset. -/
def filterMachine (aWidth transSize dataWidth : Nat) :
    Machine (Watched aWidth transSize dataWidth) (FilterInput dataWidth) where
  init := { filter := .reset, transfer := none }
  step := Watched.step

/-- Every start has had its event or is the transfer that is under way. -/
theorem starts_counted (inputs : List (FilterInput dataWidth))
    (follows : (filterMachine aWidth transSize dataWidth).Always Watched.FollowsMode inputs) :
    (filterMachine aWidth transSize dataWidth).counted
        (fun watched _ => watched.filter.regIf.filterStart) inputs =
      (filterMachine aWidth transSize dataWidth).counted
          (fun watched _ => watched.filter.eotEvent) inputs +
        ((filterMachine aWidth transSize dataWidth).run inputs).transfer.isSome.toNat := by
  refine Machine.run_induction
    (motive := fun inputs (watched : Watched aWidth transSize dataWidth) =>
      (filterMachine aWidth transSize dataWidth).counted
        (fun watched _ => watched.filter.regIf.filterStart) inputs =
      (filterMachine aWidth transSize dataWidth).counted
          (fun watched _ => watched.filter.eotEvent) inputs + watched.transfer.isSome.toNat)
    (by rfl) ?_ inputs follows
  intro inputs input _ sofar follows
  rw [Machine.counted_snoc, Machine.counted_snoc, sofar, Nat.add_assoc, Nat.add_assoc]
  exact congrArg _ follows.balance

/-- Along legal runs without a stream operand, the filter is right about the transfer. -/
theorem filter_invariant (inputs : List (FilterInput dataWidth))
    (allowed : (filterMachine aWidth transSize dataWidth).Always
      (fun watched input => watched.StartsWithoutStream input ∧ watched.Legal input) inputs) :
    ((filterMachine aWidth transSize dataWidth).run inputs).Invariant := by
  refine Machine.run_induction
    (motive := fun _ (watched : Watched aWidth transSize dataWidth) => watched.Invariant)
    (by exact Rests.reset) ?_ inputs allowed
  intro inputs input _ invariant allowed
  exact invariant.step allowed.2 allowed.1

/-- In every legal run, the starts launch exactly the L2 channels of their modes and the
event is raised when these have finished, if and only if no start is in a mode with operand A
from the stream; and then every start has had its event or is under way. -/
theorem filter_followsModes_iff (inputs : List (FilterInput dataWidth))
    (legal : (filterMachine aWidth transSize dataWidth).Always Watched.Legal inputs) :
    ((filterMachine aWidth transSize dataWidth).Always Watched.FollowsMode inputs ↔
      (filterMachine aWidth transSize dataWidth).Always Watched.StartsWithoutStream inputs) ∧
    ((filterMachine aWidth transSize dataWidth).Always Watched.FollowsMode inputs →
      (filterMachine aWidth transSize dataWidth).counted
          (fun watched _ => watched.filter.regIf.filterStart) inputs =
        (filterMachine aWidth transSize dataWidth).counted
            (fun watched _ => watched.filter.eotEvent) inputs +
          ((filterMachine aWidth transSize dataWidth).run inputs).transfer.isSome.toNat) := by
  have both : (filterMachine aWidth transSize dataWidth).Always
      (fun watched input => watched.FollowsMode input ∧ watched.Legal input) inputs ↔
      (filterMachine aWidth transSize dataWidth).Always
        (fun watched input => watched.StartsWithoutStream input ∧ watched.Legal input) inputs :=
    Machine.always_congr_of_invariant
      (motive := fun _ (watched : Watched aWidth transSize dataWidth) => watched.Invariant)
      filter_invariant
      (fun _ _ invariant => and_congr_left fun legal =>
        Watched.followsMode_iff_startsWithoutStream invariant legal)
      inputs
  rw [Machine.always_and, Machine.always_and] at both
  refine ⟨⟨fun follows => ?_, fun starts => ?_⟩, starts_counted inputs⟩
  · exact (both.mp ⟨follows, legal⟩).1
  · exact (both.mpr ⟨starts, legal⟩).1

/-- A cycle without a register write and without an answer. -/
def quietCycle : FilterInput 32 where
  write := ⟨false, false, 0, 0⟩
  txCh0Gnt := false
  txCh0Valid := false
  txCh0Data := 0
  txCh1Gnt := false
  txCh1Valid := false
  txCh1Data := 0
  rxChReady := false
  operandaReady := false
  operandbReady := false
  auOutValid := false
  auOutData := 0
  bincuOutValid := false
  bincuOutData := 0

/-- A mode is written and started. -/
def startMode (mode : BitVec 32) : List (FilterInput 32) :=
  [{ quietCycle with write := ⟨true, false, .ofNat 5 filtAddr, mode⟩ },
    { quietCycle with write := ⟨true, false, .ofNat 5 filtCmdAddr, 1⟩ }, quietCycle, quietCycle]

/-- The word of operand A is granted and the word of the output is written back. -/
def oneWord : List (FilterInput 32) :=
  [{ quietCycle with txCh0Gnt := true, auOutValid := true },
    { quietCycle with rxChReady := true }, quietCycle, quietCycle]

/-- A transfer from L2 to L2 follows its mode and is signalled once. -/
theorem l2ToL2_followsMode :
    (filterMachine 12 16 32).Always Watched.FollowsMode (startMode 2 ++ oneWord) ∧
      (filterMachine 12 16 32).counted (fun watched _ => watched.filter.eotEvent)
        (startMode 2 ++ oneWord) = 1 :=
  ⟨(filter_followsModes_iff (startMode 2 ++ oneWord) (by decide +kernel)).1.mpr
    (by decide +kernel), by decide +kernel⟩

/-- With operand A from the stream, a start makes channel A fetch it from L2 as well. -/
theorem streamOperand_fetched :
    (filterMachine 12 16 32).Always Watched.Legal (startMode 1) ∧
      ¬(filterMachine 12 16 32).Always Watched.FollowsMode (startMode 1) ∧
      (connection ((filterMachine 12 16 32).run (startMode 1)).filter.mode).operandA = .stream ∧
      ((filterMachine 12 16 32).run (startMode 1)).filter.cha.req = true := by
  decide +kernel

end CoreVMcu.Filter
