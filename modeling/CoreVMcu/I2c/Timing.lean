import CoreVMcu.Clocked.Tokens
import CoreVMcu.I2c.Interpreter

/-!
# The I2C controller and the timing of its stream

Every state of the controller but `ST_SKIP_CMD` waits for one thing: a byte of the
stream, the acknowledge of the bus, room for a stored byte or an event.  As long as
a byte is valid whenever one is to be skipped, the stalls of the stream change when
things happen and nothing else.
-/

namespace CoreVMcu.I2c

open Clocked

/-- What the controller waits for. -/
inductive Awaited where
  | byte
  | ack
  | store
  | event
  deriving DecidableEq, Repr

/-- What it is given: a byte, an acknowledge with the sampled bit, room for a stored
byte, or the selected event. -/
inductive I2cToken where
  | byte (dataTx : BitVec 8)
  | ack (coreRxd : Bool)
  | store
  | event
  deriving DecidableEq, Repr

def I2cToken.kind : I2cToken → Awaited
  | .byte _ => .byte
  | .ack _ => .ack
  | .store => .store
  | .event => .event

/-- A cycle in which nothing is presented. -/
def I2cInput.quiet : I2cInput :=
  { extEvents := 0, dataTx := 0, dataTxValid := false, dataRxReady := false, swRst := false
    cmdDone := false, coreRxd := false, busBusy := false, busAl := false }

/-- A cycle in which just one token is presented. -/
def I2cToken.input : I2cToken → I2cInput
  | .byte dataTx => { I2cInput.quiet with dataTx := dataTx, dataTxValid := true }
  | .ack coreRxd => { I2cInput.quiet with cmdDone := true, coreRxd := coreRxd }
  | .store => { I2cInput.quiet with dataRxReady := true }
  | .event => { I2cInput.quiet with extEvents := 0xF }

namespace I2cControl

/-- What a state waits for; a skipped command is waited for like any other byte. -/
def awaited (control : I2cControl) : Awaited :=
  match control.cs with
  | .cmdDone | .read | .write => .ack
  | .storeData => .store
  | .waitEv => .event
  | _ => .byte

/-- The token presented in a cycle, of the kind that is waited for. -/
def presented (control : I2cControl) (input : I2cInput) : Option I2cToken :=
  match control.awaited with
  | .byte => if input.dataTxValid then some (.byte input.dataTx) else none
  | .ack => if input.cmdDone then some (.ack input.coreRxd) else none
  | .store => if input.dataRxReady then some .store else none
  | .event => if control.event input then some .event else none

/-- The registers without the status of the bus, which is only passed on. -/
def withoutStatus (control : I2cControl) : I2cControl := { control with busy := false, al := false }

end I2cControl

/-- No software reset, and a byte is valid whenever one is skipped. -/
def SkipsValidByte (control : I2cControl) (input : I2cInput) : Prop :=
  NotReset control input ∧ (control.cs = .skipCmd → input.dataTxValid = true)

instance (control : I2cControl) (input : I2cInput) : Decidable (SkipsValidByte control input) :=
  inferInstanceAs (Decidable (_ ∧ _))

variable {control : I2cControl} {input : I2cInput}

theorem event_of_allEvents (all : input.extEvents = 0xF) : control.event input = true := by
  have selected : ∀ sel : BitVec 2, (0xF : BitVec 4).getLsbD sel.toNat = true := by decide
  rw [I2cControl.event, all]
  exact selected control.evSel

/-- The state machine does not look at the status of the bus. -/
theorem signals_withoutStatus (control : I2cControl) (input : I2cInput) :
    control.withoutStatus.signals input = control.signals input := by
  cases control with
  | mk cs => cases cs <;> rfl

/-- What is presented is of the kind that is waited for. -/
theorem kind_of_presented {token : I2cToken} (presented : control.presented input = some token) :
    token.kind = control.awaited := by
  unfold I2cControl.presented at presented
  split at presented
  all_goals
    next awaits =>
      rw [awaits]
      split at presented <;> cases presented
      rfl

section Presented

variable {other : I2cInput}

/-- What the state machine sees of a cycle in each kind of state. -/
theorem signals_of_awaited_byte (awaits : control.awaited = .byte)
    (valid : input.dataTxValid = other.dataTxValid) (dataTx : input.dataTx = other.dataTx) :
    control.signals input = control.signals other := by
  cases cs : control.cs with
  | cmdDone | read | write | storeData | waitEv => simp [I2cControl.awaited, cs] at awaits
  | getWaitEv | skipCmd => simp only [I2cControl.signals, cs]
  | waitInCmd | getData | getRpt | getCfgMsb | getCfgLsb | getWait =>
      simp only [I2cControl.signals, cs, I2cControl.waitInCmd, I2cControl.getData,
        I2cControl.getRpt, I2cControl.getCfgMsb, I2cControl.getCfgLsb, I2cControl.getWait, valid,
        dataTx]

theorem signals_of_awaited_ack (awaits : control.awaited = .ack)
    (done : input.cmdDone = other.cmdDone) (coreRxd : input.coreRxd = other.coreRxd) :
    control.signals input = control.signals other := by
  cases cs : control.cs with
  | cmdDone | read | write =>
      simp only [I2cControl.signals, cs, I2cControl.cmdDone, I2cControl.read, I2cControl.write,
        done, coreRxd]
  | _ => simp [I2cControl.awaited, cs] at awaits

theorem signals_of_awaited_store (awaits : control.awaited = .store)
    (ready : input.dataRxReady = other.dataRxReady) :
    control.signals input = control.signals other := by
  cases cs : control.cs with
  | storeData => simp only [I2cControl.signals, cs, I2cControl.storeData, ready]
  | _ => simp [I2cControl.awaited, cs] at awaits

theorem signals_of_awaited_event (awaits : control.awaited = .event)
    (event : control.event input = control.event other) :
    control.signals input = control.signals other := by
  cases cs : control.cs with
  | waitEv => simp only [I2cControl.signals, cs, I2cControl.waitEv, event]
  | _ => simp [I2cControl.awaited, cs] at awaits

end Presented

/-- The state machine sees of a cycle only what it waits for. -/
theorem signals_of_presented {token : I2cToken} (presented : control.presented input = some token) :
    control.signals input = control.signals token.input := by
  unfold I2cControl.presented at presented
  split at presented
  · next awaits =>
      split at presented <;> cases presented
      next valid => exact signals_of_awaited_byte awaits valid rfl
  · next awaits =>
      split at presented <;> cases presented
      next done => exact signals_of_awaited_ack awaits done rfl
  · next awaits =>
      split at presented <;> cases presented
      next ready => exact signals_of_awaited_store awaits ready
  · next awaits =>
      split at presented <;> cases presented
      next event =>
        exact signals_of_awaited_event awaits (event.trans (event_of_allEvents rfl).symm)

/-- An event is selected only with a command byte. -/
theorem sampleEv_cases (samples : (control.signals input).sampleEv = true) :
    control.awaited = .byte := by
  revert samples
  cases cs : control.cs with
  | cmdDone | read | write =>
      simp only [I2cControl.signals, cs, I2cControl.cmdDone, I2cControl.read, I2cControl.write]
      (repeat' split) <;> (intro high; cases high)
  | storeData | waitEv =>
      simp only [I2cControl.signals, cs, I2cControl.storeData, I2cControl.waitEv]
      (repeat' split) <;> (intro high; cases high)
  | _ => simp [I2cControl.awaited, cs]

/-- A cycle in which what is waited for is presented is like one in which nothing else
is. -/
theorem step_of_presented (noReset : input.swRst = false) {token : I2cToken}
    (presented : control.presented input = some token) :
    (control.step input).withoutStatus = control.withoutStatus.step token.input := by
  have sameSignals := signals_of_presented presented
  have noResetToken : token.input.swRst = false := by cases token <;> rfl
  have noStatus : token.input.busBusy = false ∧ token.input.busAl = false := by
    cases token <;> exact ⟨rfl, rfl⟩
  have selects : (control.signals input).sampleEv = true → input.dataTx = token.input.dataTx := by
    intro samples
    simp only [I2cControl.presented, sampleEv_cases samples] at presented
    split at presented <;> cases presented
    rfl
  simp only [I2cControl.step, noReset, noResetToken, Bool.false_eq_true, if_false,
    signals_withoutStatus, ← sameSignals, noStatus]
  simp only [I2cControl.withoutStatus]
  cases samples : (control.signals input).sampleEv with
  | false => rfl
  | true => rw [selects samples]

/-- What a stalled state drives. -/
theorem signals_of_stalled (legal : SkipsValidByte control input)
    (reachable : control.cs ≠ .getWaitEv) (stalled : control.presented input = none) :
    control.signals input =
      { control.defaults with
        dataTxReady := control.asksForByte, dataRxValid := control.cs = .storeData } := by
  cases cs : control.cs with
  | getWaitEv => exact absurd cs reachable
  | skipCmd => simp [I2cControl.presented, I2cControl.awaited, cs, legal.2 cs] at stalled
  | _ =>
      simp [I2cControl.presented, I2cControl.awaited, cs] at stalled
      simp [I2cControl.signals, cs, stalled, I2cControl.waitInCmd, I2cControl.getData,
        I2cControl.getRpt, I2cControl.getCfgMsb, I2cControl.getCfgLsb, I2cControl.getWait,
        I2cControl.cmdDone, I2cControl.read, I2cControl.write, I2cControl.storeData,
        I2cControl.waitEv, I2cControl.defaults, I2cControl.asksForByte]

/-- Nothing changes before what is waited for is presented. -/
theorem step_of_stalled (legal : SkipsValidByte control input) (reachable : control.cs ≠ .getWaitEv)
    (stalled : control.presented input = none) :
    (control.step input).withoutStatus = control.withoutStatus := by
  have noReset : input.swRst = false := legal.1
  rw [I2cControl.step, noReset, if_neg Bool.false_ne_true,
    signals_of_stalled legal reachable stalled]
  rfl

/-! ## What is seen at the ports depends on the tokens -/

/-- The byte taken in a cycle is the one presented to a state that waits for a byte. -/
theorem consumedByte_of_awaited (noReset : input.swRst = false)
    (reachable : control.cs ≠ .getWaitEv) :
    control.consumedByte input =
      if control.awaited = .byte ∧ input.dataTxValid = true then [input.dataTx] else [] := by
  have asks : control.asksForByte = decide (control.awaited = .byte) := by
    cases cs : control.cs with
    | getWaitEv => exact absurd cs reachable
    | _ => simp [I2cControl.asksForByte, I2cControl.awaited, cs]
  simp [I2cControl.consumedByte, dataTxReady_eq noReset, asks]

/-- A byte is stored when a state that waits for room is given it. -/
theorem pushedByte_of_awaited (noReset : input.swRst = false) :
    control.pushedByte input =
      if control.awaited = .store ∧ input.dataRxReady = true then [control.data] else [] := by
  have valid : (control.signals input).dataRxValid = decide (control.awaited = .store) := by
    cases cs : control.cs with
    | waitInCmd =>
        simp only [I2cControl.signals, cs, I2cControl.waitInCmd, I2cControl.awaited]
        split
        · simp only [I2cControl.decoded]
          split <;> rfl
        · rfl
    | _ =>
        simp only [I2cControl.signals, cs, I2cControl.getData, I2cControl.getRpt,
          I2cControl.getCfgMsb, I2cControl.getCfgLsb, I2cControl.getWait, I2cControl.cmdDone,
          I2cControl.read, I2cControl.write, I2cControl.storeData, I2cControl.waitEv,
          I2cControl.skipCmd, I2cControl.awaited]
        (repeat' split) <;> rfl
  simp [I2cControl.pushedByte, I2cControl.dataRxValid, noReset, valid]

/-- The command issued depends on what the state machine drives. -/
theorem issuedOperation_of_signals {other : I2cInput}
    (same : control.signals input = control.signals other) :
    control.issuedOperation input = control.withoutStatus.issuedOperation other := by
  have txd : control.coreTxd input = control.withoutStatus.coreTxd other := by
    simp only [I2cControl.coreTxd, same, signals_withoutStatus]
    rfl
  simp only [I2cControl.issuedOperation, signals_withoutStatus, same, txd]

/-- The registers never reach the state that nothing leads to. -/
theorem step_cs_ne_getWaitEv (control : I2cControl) (input : I2cInput)
    (reachable : control.cs ≠ .getWaitEv) : (control.step input).cs ≠ .getWaitEv := by
  rw [I2cControl.step]
  split
  · intro waits
    cases waits
  · change (control.signals input).ns ≠ .getWaitEv
    cases cs : control.cs with
    | getWaitEv => exact absurd cs reachable
    | waitInCmd =>
        simp only [I2cControl.signals, cs, I2cControl.waitInCmd, I2cControl.decoded]
        (repeat' split) <;> simp [I2cControl.defaults, cs]
    | _ =>
        simp only [I2cControl.signals, cs, I2cControl.getData, I2cControl.getRpt,
          I2cControl.getCfgMsb, I2cControl.getCfgLsb, I2cControl.getWait, I2cControl.cmdDone,
          I2cControl.read, I2cControl.write, I2cControl.storeData, I2cControl.waitEv,
          I2cControl.skipCmd]
        (repeat' split) <;> simp [I2cControl.defaults, cs]

/-- What the registers do with the tokens they are given. -/
def tokenReader : Machine I2cControl I2cToken where
  init := .reset
  step := fun control token => control.step token.input

/-- The controller waits for one kind of token at a time. -/
def i2cWaiting : Waiting i2cMachine SkipsValidByte I2cControl Awaited I2cToken where
  reader := tokenReader
  awaited := I2cControl.awaited
  kind := I2cToken.kind
  view := I2cControl.withoutStatus
  token := I2cControl.presented
  invariant := fun control => control.cs ≠ .getWaitEv
  invariant_init := nofun
  invariant_step := step_cs_ne_getWaitEv
  view_init := rfl
  kind_token := fun _ _ _ _ _ presented => kind_of_presented presented
  view_step := by
    intro control input reachable legal
    change (control.step input).withoutStatus = _
    cases presented : control.presented input with
    | none => exact step_of_stalled legal reachable presented
    | some token => exact step_of_presented legal.1 presented

/-! ## Two schedules of one stream -/

/-- Whatever is done at the ports in one schedule, bytes taken, bus commands issued and
bytes stored, is done in the other one too. -/
def Matches (left right : Nat → I2cInput) : Prop :=
  ∀ n, ∃ m, consumedBytes (inputsUpTo left n) <+: consumedBytes (inputsUpTo right m) ∧
    issuedOperations (inputsUpTo left n) <+: issuedOperations (inputsUpTo right m) ∧
    pushedBytes (inputsUpTo left n) <+: pushedBytes (inputsUpTo right m)

/-- What an observer sees of a token. -/
def shown {Event : Type} (observe : I2cControl → I2cInput → List Event) (control : I2cControl)
    (token : I2cToken) : List Event :=
  observe control token.input

theorem consumedByte_determined (control : I2cControl) (input : I2cInput)
    (reachable : control.cs ≠ .getWaitEv) (legal : SkipsValidByte control input) :
    control.consumedByte input =
      (control.presented input).elim [] (shown I2cControl.consumedByte control.withoutStatus) := by
  rw [consumedByte_of_awaited legal.1 reachable]
  have given : ∀ token : I2cToken, shown I2cControl.consumedByte control.withoutStatus token =
      if control.awaited = .byte ∧ token.input.dataTxValid = true then [token.input.dataTx]
      else [] := by
    intro token
    have noReset : token.input.swRst = false := by cases token <;> rfl
    change control.withoutStatus.consumedByte token.input = _
    have same : control.withoutStatus.cs ≠ .getWaitEv := reachable
    rw [consumedByte_of_awaited noReset same]
    rfl
  cases awaits : control.awaited with
  | byte =>
      simp only [I2cControl.presented, awaits, true_and]
      split
      · rw [Option.elim_some, given, awaits]
        rfl
      · rfl
  | ack | store | event =>
      rw [if_neg (fun both => nomatch both.1)]
      cases control.presented input with
      | none => rfl
      | some token => rw [Option.elim_some, given, awaits, if_neg (fun both => nomatch both.1)]

theorem pushedByte_determined (control : I2cControl) (input : I2cInput)
    (_ : control.cs ≠ .getWaitEv) (legal : SkipsValidByte control input) :
    control.pushedByte input =
      (control.presented input).elim [] (shown I2cControl.pushedByte control.withoutStatus) := by
  rw [pushedByte_of_awaited legal.1]
  have given : ∀ token : I2cToken, shown I2cControl.pushedByte control.withoutStatus token =
      if control.awaited = .store ∧ token.input.dataRxReady = true then [control.data]
      else [] := by
    intro token
    have noReset : token.input.swRst = false := by cases token <;> rfl
    change control.withoutStatus.pushedByte token.input = _
    rw [pushedByte_of_awaited noReset]
    rfl
  cases awaits : control.awaited with
  | store =>
      simp only [I2cControl.presented, awaits, true_and]
      split
      · rw [Option.elim_some, given, awaits]
        rfl
      · rfl
  | ack | byte | event =>
      rw [if_neg (fun both => nomatch both.1)]
      cases control.presented input with
      | none => rfl
      | some token => rw [Option.elim_some, given, awaits, if_neg (fun both => nomatch both.1)]

theorem issuedOperation_determined (control : I2cControl) (input : I2cInput)
    (reachable : control.cs ≠ .getWaitEv) (legal : SkipsValidByte control input) :
    control.issuedOperation input =
      (control.presented input).elim []
        (shown I2cControl.issuedOperation control.withoutStatus) := by
  cases presented : control.presented input with
  | none =>
      rw [I2cControl.issuedOperation, signals_of_stalled legal reachable presented]
      rfl
  | some token => exact issuedOperation_of_signals (signals_of_presented presented)

theorem matches_of_delivers {source : Awaited → Nat → Option I2cToken}
    {left right : Nat → I2cInput} (leftDelivers : i2cWaiting.Delivers source left)
    (leftLegal : i2cWaiting.Legal left) (rightDelivers : i2cWaiting.Delivers source right)
    (rightLegal : i2cWaiting.Legal right) : Matches left right := by
  intro n
  obtain ⟨m, more⟩ := leftDelivers.history_extends leftLegal rightDelivers rightLegal n
  exact ⟨m, Waiting.observed_of_history consumedByte_determined leftLegal rightLegal more,
    Waiting.observed_of_history issuedOperation_determined leftLegal rightLegal more,
    Waiting.observed_of_history pushedByte_determined leftLegal rightLegal more⟩

/-- Two schedules of one stream of bytes, of acknowledges with their bits, of stored
bytes and of events behave alike, however long each of them stalls, as long as a byte
is valid in every cycle in which one is skipped. -/
theorem i2cControl_timingInsensitive (source : Awaited → Nat → Option I2cToken)
    (left right : Nat → I2cInput) (leftDelivers : i2cWaiting.Delivers source left)
    (rightDelivers : i2cWaiting.Delivers source right)
    (leftSkips : ∀ n, SkipsValidByte (i2cMachine.run (inputsUpTo left n)) (left n))
    (rightSkips : ∀ n, SkipsValidByte (i2cMachine.run (inputsUpTo right n)) (right n)) :
    Matches left right ∧ Matches right left :=
  ⟨matches_of_delivers leftDelivers leftSkips rightDelivers rightSkips,
    matches_of_delivers rightDelivers rightSkips leftDelivers leftSkips⟩

/-- Cycles in which a token is presented, or none. -/
def cyclesOf (tokens : List (Option I2cToken)) : List I2cInput :=
  tokens.map fun token => token.elim .quiet I2cToken.input

/-- Given bytes and given bits of acknowledges, without room for stored bytes and
without events. -/
def sourceOf (bytes : List (BitVec 8)) (bits : List Bool) : Awaited → Nat → Option I2cToken
  | .byte, k => bytes[k]?.map .byte
  | .ack, k => bits[k]?.map .ack
  | .store, _ => none
  | .event, _ => none

/-- A start is skipped. -/
def skippedStart : List I2cInput :=
  cyclesOf [some (.byte 0xC0), some (.byte 0), some (.byte 0x00)]

/-- The same bytes, but the start that is to be skipped comes one cycle late. -/
def lateStart : List I2cInput :=
  cyclesOf [some (.byte 0xC0), some (.byte 0), none, some (.byte 0x00)]

theorem skippedStart_rests :
    i2cWaiting.RestsAfter (sourceOf [0xC0, 0, 0x00] []) skippedStart .quiet := by
  constructor <;> decide

theorem lateStart_rests :
    i2cWaiting.RestsAfter (sourceOf [0xC0, 0, 0x00] []) lateStart .quiet := by
  constructor <;> decide

/-- One stall makes the difference between a start that is skipped and a start that is
executed. -/
theorem lateStart_not_matches :
    i2cWaiting.Delivers (sourceOf [0xC0, 0, 0x00] []) (thenQuiet skippedStart .quiet) ∧
      i2cWaiting.Delivers (sourceOf [0xC0, 0, 0x00] []) (thenQuiet lateStart .quiet) ∧
      ¬Matches (thenQuiet lateStart .quiet) (thenQuiet skippedStart .quiet) := by
  refine ⟨skippedStart_rests.delivers (by decide +kernel) (by decide +kernel),
    lateStart_rests.delivers (by decide +kernel) (by decide +kernel), ?_⟩
  intro same
  obtain ⟨m, -, issued, -⟩ := same 4
  rw [issuedOperations, issuedOperations,
    i2cMachine.observed_thenQuiet _ lateStart_rests.rests rfl,
    i2cMachine.observed_thenQuiet _ skippedStart_rests.rests rfl] at issued
  have started : i2cMachine.observed I2cControl.issuedOperation (lateStart.take 4) = [.start] := by
    decide +kernel
  have all : i2cMachine.observed I2cControl.issuedOperation
      (skippedStart.take m ++ skippedStart.drop m) = [] := by
    rw [List.take_append_drop]
    decide +kernel
  rw [Machine.observed, Machine.observedFrom_append, List.append_eq_nil_iff] at all
  rw [started, Machine.observed, all.1] at issued
  exact absurd (List.prefix_nil.mp issued) (by simp)

/-- A skipped start and a stop that is acknowledged. -/
def skippedStartStop : List I2cInput :=
  cyclesOf [some (.byte 0xC0), some (.byte 0), some (.byte 0x00), some (.byte 0x20),
    some (.ack true)]

/-- The same with stalls everywhere but before the skipped byte. -/
def stalledStop : List I2cInput :=
  cyclesOf [none, some (.byte 0xC0), none, some (.byte 0), some (.byte 0x00), none,
    some (.byte 0x20), none, none, some (.ack true)]

theorem skippedStartStop_rests :
    i2cWaiting.RestsAfter (sourceOf [0xC0, 0, 0x00, 0x20] [true]) skippedStartStop .quiet := by
  constructor <;> decide

theorem stalledStop_rests :
    i2cWaiting.RestsAfter (sourceOf [0xC0, 0, 0x00, 0x20] [true]) stalledStop .quiet := by
  constructor <;> decide

theorem stalledStop_matches :
    Matches (thenQuiet skippedStartStop .quiet) (thenQuiet stalledStop .quiet) ∧
      Matches (thenQuiet stalledStop .quiet) (thenQuiet skippedStartStop .quiet) :=
  i2cControl_timingInsensitive (sourceOf [0xC0, 0, 0x00, 0x20] [true]) _ _
    (skippedStartStop_rests.delivers (by decide +kernel) (by decide +kernel))
    (stalledStop_rests.delivers (by decide +kernel) (by decide +kernel))
    (skippedStartStop_rests.thenQuiet_legal (by decide +kernel) (by decide +kernel))
    (stalledStop_rests.thenQuiet_legal (by decide +kernel) (by decide +kernel))

end CoreVMcu.I2c
