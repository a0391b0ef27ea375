import CoreVMcu.I2c.BusCtrl

/-!
# The handshake between the I2C controllers

The command interpreter asks for one bus command at a time and waits until the bus
controller acknowledges it.  The loss of the arbitration makes the bus controller
forget its command without an acknowledge; the interpreter only reports the loss,
and it takes a soft reset to bring the two together again.
-/

namespace CoreVMcu.I2c

open Clocked

/-- The two controllers. -/
structure I2cMaster where
  control : I2cControl
  bus : BusCtrl
  deriving DecidableEq, Repr

/-- Inputs of a cycle, among them the two lines of the bus. -/
structure MasterInput where
  extEvents : BitVec 4
  dataTx : BitVec 8
  dataTxValid : Bool
  dataRxReady : Bool
  swRst : Bool
  scl : Bool
  sda : Bool

namespace I2cMaster

/-- What the command interpreter sees. -/
def controlInput (master : I2cMaster) (input : MasterInput) : I2cInput :=
  { extEvents := input.extEvents
    dataTx := input.dataTx
    dataTxValid := input.dataTxValid
    dataRxReady := input.dataRxReady
    swRst := input.swRst
    cmdDone := master.bus.cmdAck
    coreRxd := master.bus.dout
    busBusy := master.bus.busy
    busAl := master.bus.al }

/-- What the command interpreter drives. -/
def signals (master : I2cMaster) (input : MasterInput) : ControlSignals :=
  master.control.signals (master.controlInput input)

/-- What the bus controller sees. -/
def busInput (master : I2cMaster) (input : MasterInput) : BusInput :=
  { ena := (master.signals input).enBusCtrl
    swRst := input.swRst
    clkCnt := master.control.divNum
    cmd := (master.signals input).busIfCmd
    cmdValid := (master.signals input).busIfCmdValid
    din := master.control.coreTxd (master.controlInput input)
    scl := input.scl
    sda := input.sda }

/-- One clock edge. -/
def step (master : I2cMaster) (input : MasterInput) : I2cMaster :=
  { control := master.control.step (master.controlInput input)
    bus := master.bus.step (master.busInput input) }

/-- The command requested in a cycle. -/
def requestedCmd (master : I2cMaster) (input : MasterInput) : List BusCmd :=
  if (master.signals input).busIfCmdValid then [(master.signals input).busIfCmd] else []

/-- The arbitration is lost while a command is outstanding or requested. -/
def losesCommand (master : I2cMaster) (input : MasterInput) : Bool :=
  master.bus.al &&
    ((master.control.awaitsAck && !master.bus.cmdAck) || (master.signals input).busIfCmdValid)

/-- A soft reset. -/
def softReset (_ : I2cMaster) (input : MasterInput) : Bool := input.swRst

end I2cMaster

/-- The two controllers from reset. -/
def masterMachine : Machine I2cMaster MasterInput where
  init := { control := .reset, bus := .reset }
  step := .step

/-- While the interpreter waits for an acknowledge, the command that it requested
last is being executed or is acknowledged. -/
def Answered (inputs : List MasterInput) : Prop :=
  let master := masterMachine.run inputs
  master.control.awaitsAck = true →
    (master.bus.executes = true ∧
      (masterMachine.observed I2cMaster.requestedCmd inputs).getLast? =
        some master.bus.cs.command) ∨
      master.bus.cmdAck = true

instance (inputs : List MasterInput) : Decidable (Answered inputs) :=
  inferInstanceAs (Decidable (_ → _))

/-- The interpreter waits for the acknowledge of a command although the bus
controller is idle, presents none and is asked for nothing. -/
def Stranded (master : I2cMaster) : Prop :=
  master.control.awaitsAck = true ∧ master.bus.cs = .idle ∧ master.bus.cmdAck = false ∧
    ∀ input, master.requestedCmd input = []

/-- The arbitration was lost with a command outstanding or requested, and no soft
reset has been given since. -/
def commandLost (inputs : List MasterInput) : Bool :=
  masterMachine.raisedSince I2cMaster.losesCommand I2cMaster.softReset inputs

/-! ## The interpreter's side -/

namespace I2cControl

variable (control : I2cControl) {input : I2cInput}

/-- What a state asks of the bus controller agrees with the state that follows: an
acknowledge is awaited after it exactly when one was outstanding or a command is
requested, which is done only while none is outstanding. -/
structure Agrees (signals : ControlSignals) (outstanding : Bool) : Prop where
  awaits : ({ control with cs := signals.ns } : I2cControl).awaitsAck =
    (outstanding || signals.busIfCmdValid)
  requested : signals.busIfCmdValid = true → signals.busIfCmd ≠ .none ∧ outstanding = false

variable {control}

theorem agrees_none {signals : ControlSignals} {outstanding : Bool}
    (awaits : ({ control with cs := signals.ns } : I2cControl).awaitsAck = outstanding)
    (unrequested : signals.busIfCmdValid = false) : control.Agrees signals outstanding := by
  constructor
  · rw [awaits, unrequested, Bool.or_false]
  · rw [unrequested]
    exact nofun

theorem agrees_request {signals : ControlSignals}
    (awaits : ({ control with cs := signals.ns } : I2cControl).awaitsAck = true)
    (valid : signals.busIfCmdValid = true) (command : signals.busIfCmd ≠ .none) :
    control.Agrees signals false := by
  constructor
  · rw [awaits, valid, Bool.or_true]
  · exact fun _ => ⟨command, rfl⟩

/-- In the states that take a byte no acknowledge is outstanding. -/
theorem decoded_agrees (code : Option CmdCode) (cs : control.cs = .waitInCmd) :
    control.Agrees (control.decoded code) false := by
  cases code with
  | none => exact agrees_none (by simp [decoded, defaults, cs, awaitsAck]) rfl
  | some code =>
      cases code with
      | start | stop | rdAck | rdNack => exact agrees_request rfl rfl BusCmd.noConfusion
      | wait | waitEv | wr | rpt | cfg => exact agrees_none rfl rfl

theorem signals_agrees (control : I2cControl) (input : I2cInput) :
    control.Agrees (control.signals input) (control.awaitsAck && !input.cmdDone) := by
  cases cs : control.cs with
  | waitInCmd =>
      simp only [signals, awaitsAck, cs, Bool.false_and, waitInCmd]
      split
      · exact decoded_agrees _ cs
      · exact agrees_none (by simp [defaults, cs, awaitsAck]) rfl
  | getData | getWait =>
      simp only [signals, awaitsAck, cs, Bool.false_and, getData, getWait]
      split
      · exact agrees_request rfl rfl BusCmd.noConfusion
      · exact agrees_none (by simp [defaults, cs, awaitsAck]) rfl
  | storeData =>
      simp only [signals, awaitsAck, cs, Bool.false_and, storeData]
      split
      · split
        · exact agrees_none rfl rfl
        · exact agrees_request rfl rfl BusCmd.noConfusion
      · exact agrees_none (by simp [defaults, cs, awaitsAck]) rfl
  | skipCmd | getWaitEv =>
      simp only [signals, awaitsAck, cs, Bool.false_and, skipCmd]
      exact agrees_none rfl rfl
  | waitEv | getRpt | getCfgMsb | getCfgLsb =>
      simp only [signals, awaitsAck, cs, Bool.false_and, waitEv, getRpt, getCfgMsb, getCfgLsb]
      split <;> (try split) <;> exact agrees_none (by simp [defaults, cs, awaitsAck]) rfl
  | cmdDone | read | write =>
      simp only [signals, awaitsAck, cs, Bool.true_and, cmdDone, read, write]
      cases input.cmdDone with
      | false => exact agrees_none (by simp [defaults, cs, awaitsAck]) (by simp [defaults])
      | true =>
          simp only [Bool.true_and, Bool.not_true]
          (repeat' split)
          all_goals first
            | exact agrees_request rfl rfl BusCmd.noConfusion
            | exact agrees_none rfl rfl
            | simp_all

/-- A command is requested only where none is outstanding, and it is a command. -/
theorem request_cases (valid : (control.signals input).busIfCmdValid = true) :
    (control.signals input).busIfCmd ≠ .none ∧
      (control.awaitsAck = true → input.cmdDone = true) := by
  have requested := (signals_agrees control input).requested valid
  refine ⟨requested.1, fun waiting => ?_⟩
  simpa [waiting] using requested.2

/-- The interpreter waits for an acknowledge after a request, and as long as the
acknowledge does not come. -/
theorem step_awaitsAck (noReset : input.swRst = false) :
    (control.step input).awaitsAck =
      ((control.awaitsAck && !input.cmdDone) || (control.signals input).busIfCmdValid) := by
  rw [← (signals_agrees control input).awaits, step, noReset, if_neg Bool.false_ne_true]
  rfl

end I2cControl

/-! ## The joint states -/

/-- What the two controllers can be doing together, with the last command requested
and whether it has been lost since the last soft reset. -/
inductive Exchange (master : I2cMaster) (last : Option BusCmd) : Bool → Prop where
  | quiet (waits : master.control.awaitsAck = false) (idle : master.bus.cs = .idle)
      (ack : master.bus.cmdAck = false) : Exchange master last false
  | executing (waits : master.control.awaitsAck = true) (busy : master.bus.cs ≠ .idle)
      (ack : master.bus.cmdAck = false) (command : last = some master.bus.cs.command) :
      Exchange master last false
  | acknowledged (waits : master.control.awaitsAck = true) (idle : master.bus.cs = .idle)
      (ack : master.bus.cmdAck = true) : Exchange master last false
  | abandoned (waits : master.control.awaitsAck = true) (idle : master.bus.cs = .idle)
      (ack : master.bus.cmdAck = false) : Exchange master last true

/-- The last command requested, after a cycle. -/
def lastRequest (last : Option BusCmd) (master : I2cMaster) (input : MasterInput) :
    Option BusCmd :=
  if (master.signals input).busIfCmdValid then some (master.signals input).busIfCmd else last

section Step

variable {master : I2cMaster} {input : MasterInput} {last : Option BusCmd} {lost : Bool}

/-- A soft reset ends every exchange. -/
theorem Exchange.softReset (reset : input.swRst = true) :
    Exchange (master.step input) last false := by
  have aborted := BusCtrl.step_abort master.bus (master.busInput input)
    (by simp [I2cMaster.busInput, reset])
  refine .quiet ?_ aborted.1 aborted.2
  simp [I2cMaster.step, I2cControl.step, I2cMaster.controlInput, reset, I2cControl.awaitsAck,
    I2cControl.reset]

/-- Whether the interpreter waits after a cycle. -/
theorem step_waits (master : I2cMaster) (noReset : input.swRst = false) :
    (master.step input).control.awaitsAck =
      ((master.control.awaitsAck && !master.bus.cmdAck) ||
        (master.signals input).busIfCmdValid) :=
  I2cControl.step_awaitsAck noReset

/-- Nothing is requested while an acknowledge is missing. -/
theorem unrequested_of_waiting (input : MasterInput)
    (waiting : master.control.awaitsAck = true)
    (noAck : master.bus.cmdAck = false) : (master.signals input).busIfCmdValid = false := by
  rw [← Bool.not_eq_true]
  intro request
  have acknowledged : master.bus.cmdAck = true :=
    (I2cControl.request_cases request).2 waiting
  rw [noAck] at acknowledged
  cases acknowledged

/-- A cycle in which the arbitration is lost. -/
theorem Exchange.step_lost (noReset : input.swRst = false) (al : master.bus.al = true)
    (lost : Bool) (lostWaits : lost = true → master.control.awaitsAck = true ∧
      master.bus.cmdAck = false) :
    Exchange (master.step input) (lastRequest last master input)
      (lost || master.losesCommand input) := by
  have aborted := BusCtrl.step_abort master.bus (master.busInput input)
    (by simp [al])
  have waits := step_waits master noReset
  cases outstanding : (master.control.awaitsAck && !master.bus.cmdAck) ||
      (master.signals input).busIfCmdValid with
  | false =>
      have unlost : lost = false := by
        cases lost with
        | false => rfl
        | true =>
            obtain ⟨waiting, noAck⟩ := lostWaits rfl
            simp [waiting, noAck] at outstanding
      rw [I2cMaster.losesCommand, outstanding, unlost, Bool.and_false]
      exact .quiet (waits.trans outstanding) aborted.1 aborted.2
  | true =>
      rw [I2cMaster.losesCommand, outstanding, al, Bool.true_and, Bool.or_true]
      exact .abandoned (waits.trans outstanding) aborted.1 aborted.2

/-- A cycle that begins with an idle bus controller and no command outstanding: a
request is taken up. -/
theorem Exchange.step_free (noReset : input.swRst = false) (noLoss : master.bus.al = false)
    (idle : master.bus.cs = .idle)
    (free : (master.control.awaitsAck && !master.bus.cmdAck) = false) :
    Exchange (master.step input) (lastRequest last master input) false := by
  have begins := BusCtrl.step_idle master.bus (master.busInput input)
    (by simp [noLoss, I2cMaster.busInput, noReset]) idle
  have waits := step_waits master noReset
  rw [free, Bool.false_or] at waits
  cases request : (master.signals input).busIfCmdValid with
  | false =>
      refine .quiet (waits.trans request) (begins.1.trans ?_) begins.2
      simp [I2cMaster.busInput, request]
  | true =>
      have command := (I2cControl.request_cases request).1
      have first : (master.step input).bus.cs = (master.signals input).busIfCmd.first :=
        begins.1.trans (by simp [I2cMaster.busInput, request])
      refine .executing (waits.trans request) ?_ begins.2 ?_
      · rw [first]
        intro isIdle
        apply command
        rw [← BusCmd.first_command (master.control.signals _).busIfCmd]
        exact congrArg BusState.command isIdle
      · rw [lastRequest, if_pos request, first, BusCmd.first_command]

/-- A cycle in the middle of a command. -/
theorem Exchange.step_executing (noReset : input.swRst = false) (noLoss : master.bus.al = false)
    (waiting : master.control.awaitsAck = true) (busy : master.bus.cs ≠ .idle)
    (noAck : master.bus.cmdAck = false) (command : last = some master.bus.cs.command) :
    Exchange (master.step input) (lastRequest last master input) false := by
  have goesOn := BusCtrl.step_executing master.bus (master.busInput input)
    (by simp [noLoss, I2cMaster.busInput, noReset]) busy
  have waits := step_waits master noReset
  rw [waiting, noAck, Bool.not_false, Bool.and_self, Bool.true_or] at waits
  have unrequested := unrequested_of_waiting input waiting noAck
  rw [lastRequest, unrequested, if_neg Bool.false_ne_true]
  rcases goesOn with ⟨sameCommand, ack⟩ | ⟨idle, ack⟩
  · refine .executing waits ?_ ack (command.trans (congrArg some sameCommand.symm))
    intro isIdle
    have none : master.bus.cs.command = .none := by
      rw [← sameCommand, show (master.bus.step (master.busInput input)).cs = .idle from isIdle]
      rfl
    apply busy
    revert none
    cases master.bus.cs <;> simp [BusState.command]
  · exact .acknowledged waits idle ack

/-- A cycle after a command was lost: nothing happens without a soft reset. -/
theorem Exchange.step_abandoned (noReset : input.swRst = false) (noLoss : master.bus.al = false)
    (waiting : master.control.awaitsAck = true) (idle : master.bus.cs = .idle)
    (noAck : master.bus.cmdAck = false) (newLast : Option BusCmd) :
    Exchange (master.step input) newLast true := by
  have unrequested := unrequested_of_waiting input waiting noAck
  have begins := BusCtrl.step_idle master.bus (master.busInput input)
    (by simp [noLoss, I2cMaster.busInput, noReset]) idle
  have waits := step_waits master noReset
  rw [waiting, noAck, Bool.not_false, Bool.and_self, Bool.true_or] at waits
  refine .abandoned waits (begins.1.trans ?_) begins.2
  simp [I2cMaster.busInput, unrequested]

/-- One clock edge leads from an exchange to an exchange. -/
theorem Exchange.step (exchange : Exchange master last lost) (input : MasterInput) :
    Exchange (master.step input) (lastRequest last master input)
      (!master.softReset input && (lost || master.losesCommand input)) := by
  cases noReset : input.swRst with
  | true =>
      rw [I2cMaster.softReset, noReset, Bool.not_true, Bool.false_and]
      exact .softReset noReset
  | false =>
      rw [I2cMaster.softReset, noReset, Bool.not_false, Bool.true_and]
      cases al : master.bus.al with
      | true =>
          apply Exchange.step_lost noReset al
          intro isLost
          cases exchange with
          | abandoned waits _ ack => exact ⟨waits, ack⟩
          | quiet | executing | acknowledged => cases isLost
      | false =>
          rw [I2cMaster.losesCommand, al, Bool.false_and, Bool.or_false]
          cases exchange with
          | quiet waits idle ack => exact .step_free noReset al idle (by simp [waits])
          | executing waits busy ack command =>
              exact .step_executing noReset al waits busy ack command
          | acknowledged waits idle ack => exact .step_free noReset al idle (by simp [ack])
          | abandoned waits idle ack => exact .step_abandoned noReset al waits idle ack _

end Step

/-- In every reachable state the two controllers are in an exchange. -/
theorem exchange_run (inputs : List MasterInput) :
    Exchange (masterMachine.run inputs)
      (masterMachine.observed I2cMaster.requestedCmd inputs).getLast? (commandLost inputs) := by
  induction inputs using List.reverseRecOn with
  | nil => exact .quiet rfl rfl rfl
  | append_singleton inputs input inductionHypothesis =>
      have next := inductionHypothesis.step input
      rw [Machine.run_snoc, commandLost, Machine.raisedSince_snoc, Machine.observed_snoc]
      have last : (masterMachine.observed I2cMaster.requestedCmd inputs ++
            (masterMachine.run inputs).requestedCmd input).getLast? =
          lastRequest (masterMachine.observed I2cMaster.requestedCmd inputs).getLast?
            (masterMachine.run inputs) input := by
        rw [I2cMaster.requestedCmd, lastRequest]
        split
        · exact List.getLast?_concat
        · rw [List.append_nil]
      rw [last]
      exact next

/-- An exchange that has not been lost is answered, and one that has been lost never
is. -/
theorem Exchange.answered {inputs : List MasterInput} {lost : Bool}
    (exchange : Exchange (masterMachine.run inputs)
      (masterMachine.observed I2cMaster.requestedCmd inputs).getLast? lost) :
    if lost then Stranded (masterMachine.run inputs)
    else Answered inputs ∧ ¬Stranded (masterMachine.run inputs) := by
  cases exchange with
  | quiet waits idle ack =>
      have notWaiting : ¬(masterMachine.run inputs).control.awaitsAck = true := by simp [waits]
      exact ⟨fun waiting => absurd waiting notWaiting, fun stranded => notWaiting stranded.1⟩
  | executing waits busy ack command =>
      refine ⟨fun _ => Or.inl ⟨?_, command⟩, fun stranded => busy stranded.2.1⟩
      simpa [BusCtrl.executes] using busy
  | acknowledged waits idle ack =>
      refine ⟨fun _ => Or.inr ack, fun stranded => ?_⟩
      rw [stranded.2.2.1] at ack
      cases ack
  | abandoned waits idle ack =>
      refine ⟨waits, idle, ack, fun input => ?_⟩
      rw [I2cMaster.requestedCmd, unrequested_of_waiting input waits ack, if_neg Bool.false_ne_true]

/-- For every stream of commands and every behaviour of the two lines: the
interpreter is answered in every state reached unless the arbitration was lost with
a command outstanding or requested and no soft reset has been given since; after
such a loss it is stranded, and a soft reset leaves both controllers at rest. -/
theorem handshake_answered (inputs : List MasterInput) :
    (commandLost inputs = false → Answered inputs ∧ ¬Stranded (masterMachine.run inputs)) ∧
      (commandLost inputs = true → Stranded (masterMachine.run inputs)) ∧
      ∀ input, input.swRst = true →
        let master := masterMachine.run (inputs ++ [input])
        master.control.awaitsAck = false ∧ master.bus.cs = .idle := by
  have answered := (exchange_run inputs).answered
  refine ⟨fun unlost => ?_, fun isLost => ?_, fun input reset => ?_⟩
  · rwa [unlost] at answered
  · rwa [isLost] at answered
  · simp [masterMachine, I2cMaster.step, I2cMaster.controlInput, I2cMaster.busInput,
      I2cControl.step, BusCtrl.step, BusCtrl.nextCs, reset, I2cControl.awaitsAck,
      I2cControl.reset]

/-- A cycle with a command byte, or none, in which another master holds both lines
low. -/
def lowInput (byte : Option (BitVec 8)) : MasterInput :=
  { extEvents := 0, dataTx := byte.getD 0, dataTxValid := byte.isSome, dataRxReady := true
    swRst := false, scl := false, sda := false }

/-- The fastest clock is configured and later, while another master holds the lines,
a byte of ones is written. -/
def otherMaster : List MasterInput :=
  [some 0xE0, some 0x00, some 0x00].map lowInput ++ List.replicate 66 (lowInput none) ++
    [some 0x80, some 0xFF].map lowInput ++ List.replicate 5 (lowInput none)

/-- The first bit is underway until the arbitration is lost.  Then the interpreter is stranded,
until a soft reset. -/
theorem otherMaster_handshake :
    ((masterMachine.run (otherMaster.take 73)).control.awaitsAck = true ∧
        Answered (otherMaster.take 73)) ∧
      Stranded (masterMachine.run otherMaster) ∧
      (masterMachine.run
        (otherMaster ++ [{ lowInput none with swRst := true }])).control.awaitsAck = false := by
  have underway : (masterMachine.run (otherMaster.take 73)).control.awaitsAck = true := by
    decide +kernel
  have unlost : commandLost (otherMaster.take 73) = false := by decide +kernel
  have lost : commandLost otherMaster = true := by decide +kernel
  obtain ⟨-, strands, resets⟩ := handshake_answered otherMaster
  exact ⟨⟨underway, ((handshake_answered (otherMaster.take 73)).1 unlost).1⟩, strands lost,
    (resets { lowInput none with swRst := true } rfl).1⟩

/-- The arbitration is lost at the first bit, and the interpreter waits for the
acknowledge of the second one, which the bus controller never began. -/
theorem otherMaster_strands :
    ¬Answered otherMaster ∧ (masterMachine.run otherMaster).control.awaitsAck = true ∧
      (masterMachine.run otherMaster).bus.executes = false ∧
      ∀ input ∈ [lowInput none, lowInput (some 0x20)],
        (masterMachine.run otherMaster).requestedCmd input = [] := by
  decide +kernel

end CoreVMcu.I2c
