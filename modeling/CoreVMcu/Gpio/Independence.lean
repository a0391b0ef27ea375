import CoreVMcu.Gpio.ApbGpio

/-!
# The pins are independent

What a pin shows and the interrupt that it raises depend on its own input and its own part
of the accesses only, and every access of the bus acts once.  The synchronised inputs that
leave the block are not those of the pins.
-/

namespace CoreVMcu.Gpio

open Clocked

/-- The block before the `n`-th cycle of a schedule. -/
def gpioAt (powerUp : GpioPowerUp) (schedule : Nat → GpioInput) (n : Nat) : ApbGpio :=
  (gpioMachine powerUp).run (inputsUpTo schedule n)

/-- Two cycles with a transfer or none in both, in which the input of a pin and the part of
the accesses that concerns it are the same. -/
structure AlikeAt (i : Nat) (left right : GpioInput) : Prop where
  active : ApbGpio.active left.lines = ApbGpio.active right.lines
  gpioIn : left.gpioIn.getLsbD i = right.gpioIn.getLsbD i
  access : ApbGpio.active left.lines = true →
    pinAccess? i left.lines.access = pinAccess? i right.lines.access

/-- The registers of a pin are the same, those that mark the edges of its input as far as
they can raise an interrupt. -/
structure SamePin (i : Nat) (left right : ApbGpio) : Prop where
  pin : left.pin i = right.pin i
  edges : left.regs.rGpioInten i = true →
    left.rGpioRise i = right.rGpioRise i ∧ left.rGpioFall i = right.rGpioFall i

variable {i : Nat} {left right : ApbGpio}

theorem Pin.step_congr (pin : Pin) {input other : GpioInput} (alike : AlikeAt i input other) :
    pin.step (input.pin i) = pin.step (other.pin i) := by
  unfold Pin.step GpioInput.pin
  rw [alike.gpioIn, ← alike.active]
  cases active : ApbGpio.active input.lines with
  | false => rfl
  | true => rw [alike.access active]

theorem SamePin.step (same : SamePin i left right) (inside : i < nGpio) {input other : GpioInput}
    (alike : AlikeAt i input other) :
    SamePin i (left.step input.gpioIn input.lines) (right.step other.gpioIn other.lines) where
  pin := by rw [pin_step _ inside, pin_step _ inside, same.pin, Pin.step_congr _ alike]
  edges _ := by
    have now : left.rGpioIn i = right.rGpioIn i := congrArg Pin.input same.pin
    have next : left.rGpioSync1 i = right.rGpioSync1 i := congrArg Pin.sync1 same.pin
    simp only [ApbGpio.step, now, next, and_self]

/-- A pin that is the same shows the same. -/
theorem SamePin.outputs (same : SamePin i left right) :
    left.gpioOut i = right.gpioOut i ∧ left.gpioDir i = right.gpioDir i ∧
      left.interrupt i = right.interrupt i := by
  have out : left.regs.rGpioOut i = right.regs.rGpioOut i := congrArg Pin.out same.pin
  have dir : left.regs.rGpioDir i = right.regs.rGpioDir i := congrArg Pin.dir same.pin
  have inten : left.regs.rGpioInten i = right.regs.rGpioInten i := congrArg Pin.inten same.pin
  have inttype : left.regs.rGpioInttype i = right.regs.rGpioInttype i :=
    congrArg Pin.inttype same.pin
  have level : (left.isIntLow i || left.isIntHi i) = (right.isIntLow i || right.isIntHi i) := by
    rw [← level_pin, ← level_pin, same.pin]
  refine ⟨?_, ?_, ?_⟩
  · rw [ApbGpio.gpioOut, ApbGpio.gpioOut, out, dir]
  · rw [ApbGpio.gpioDir, ApbGpio.gpioDir, out, dir]
  · rw [ApbGpio.interrupt, ApbGpio.interrupt, Bool.or_assoc, Bool.or_assoc, level]
    cases enabled : left.regs.rGpioInten i with
    | false => rw [← inten, enabled, Bool.false_and, Bool.false_and]
    | true =>
        obtain ⟨rise, fall⟩ := same.edges enabled
        rw [← inten, enabled, ApbGpio.isIntFall, ApbGpio.isIntFall, ApbGpio.isIntRise,
          ApbGpio.isIntRise, inttype, rise, fall]

variable {leftUp rightUp : GpioPowerUp} {leftRun rightRun : Nat → GpioInput}

/-- In two runs that are alike at a pin the pin stays the same. -/
theorem samePin_run (inside : i < nGpio) (samePowerUp : leftUp.rGpioOut i = rightUp.rGpioOut i)
    (alike : ∀ n, AlikeAt i (leftRun n) (rightRun n)) (n : Nat) :
    SamePin i (gpioAt leftUp leftRun n) (gpioAt rightUp rightRun n) := by
  refine Machine.run_related (SamePin i) ?_ ?_ (Machine.forall₂_inputsUpTo alike n)
  · constructor
    · change ({ out := leftUp.rGpioOut i, .. } : Pin) = { out := rightUp.rGpioOut i, .. }
      rw [samePowerUp]
      rfl
    · exact fun enabled => Bool.noConfusion enabled
  · intro left right input other same now
    exact same.step inside now

/-! ## The synchroniser -/

/-- The input of a pin, as late as the synchroniser makes it. -/
def delayed (schedule : Nat → GpioInput) (i n : Nat) : Bool :=
  if n < 3 then false else (schedule (n - 3)).gpioIn.getLsbD i

variable {powerUp : GpioPowerUp} {schedule : Nat → GpioInput}

theorem gpioAt_succ (n : Nat) :
    gpioAt powerUp schedule (n + 1) =
      (gpioAt powerUp schedule n).step (schedule n).gpioIn (schedule n).lines := by
  rw [gpioAt, inputsUpTo_succ, Machine.run_snoc]
  rfl

theorem rGpioIn_eq (i n : Nat) : (gpioAt powerUp schedule n).rGpioIn i = delayed schedule i n := by
  match n with
  | 0 => rfl
  | 1 => rfl
  | 2 => rfl
  | n + 3 =>
      rw [gpioAt_succ, gpioAt_succ, gpioAt_succ]
      rfl

/-- The input of a pin is what leaves the block for it: the one of pin 0 if it is that of the
last pin, the ones of the others if they are low. -/
def SyncShown (i : Nat) (schedule : Nat → GpioInput) : Prop :=
  ∀ n, (schedule n).gpioIn.getLsbD i =
    (i == 0 && (schedule n).gpioIn.getLsbD (nGpio - 1))

theorem gpioInSync_eq_delayed_iff (powerUp : GpioPowerUp) :
    (∀ n, (gpioAt powerUp schedule n).gpioInSync i = delayed schedule i n) ↔
      SyncShown i schedule := by
  simp only [ApbGpio.gpioInSync, rGpioIn_eq]
  constructor
  · intro shown n
    exact (shown (n + 3)).symm
  · intro same n
    unfold delayed
    split
    · exact Bool.and_false _
    · exact (same (n - 3)).symm

/-- `apb_gpiov2` on its bus; `PSLVERR` is low. -/
def gpioSlave (powerUp : GpioPowerUp) : Apb.Slave ApbGpio (BitVec 32) 12 32 where
  init := .reset powerUp
  ticks _ := true
  step gpio gpioIn lines := gpio.step gpioIn lines
  ready := ApbGpio.pready
  rdata := ApbGpio.prdata
  err _ := false

/-- The access that acts on the registers in a cycle. -/
def executed (system : Apb.System ApbGpio 12 32) (instant : Apb.Instant (BitVec 32) 12 32) :
    List (Apb.Access 12 32) :=
  system.slave.accepted (system.lines instant)

/-- The access that has acted and is answered in this cycle. -/
def inFlight (system : Apb.System ApbGpio 12 32) : List (Apb.Access 12 32) :=
  match system.phase with
  | .enable access => if system.slave.pready then [access] else []
  | _ => []

/-- The accesses that acted are those that were answered, in order, with at most the one that
is about to be; and the registers are what these make of their values at reset. -/
structure ActsOnce (powerUp : GpioPowerUp) (instants : List (Apb.Instant (BitVec 32) 12 32)) :
    Prop where
  executed : (Apb.machine (gpioSlave powerUp)).observed executed instants =
    ((Apb.machine (gpioSlave powerUp)).run instants).done.map Apb.Answered.access ++
      inFlight ((Apb.machine (gpioSlave powerUp)).run instants)
  regs : ((Apb.machine (gpioSlave powerUp)).run instants).slave.regs =
    ((Apb.machine (gpioSlave powerUp)).observed Gpio.executed instants).foldl GpioRegs.access
      (ApbGpio.reset powerUp).regs

theorem answered_eq_inFlight (system : Apb.System ApbGpio 12 32) :
    (system.answered (gpioSlave powerUp)).map Apb.Answered.access = inFlight system := by
  obtain ⟨slave, phase, done⟩ := system
  cases phase with
  | idle => rfl
  | setup access => rfl
  | enable access =>
      cases ready : slave.pready with
      | false => simp only [Apb.System.answered, inFlight, gpioSlave, ready]; rfl
      | true => simp only [Apb.System.answered, inFlight, gpioSlave, ready]; rfl

theorem inFlight_quiet {system : Apb.System ApbGpio 12 32}
    (quiet : system.slave.pready = false) : inFlight system = [] := by
  unfold inFlight
  cases system.phase with
  | idle => rfl
  | setup access => rfl
  | enable access => rw [quiet]; rfl

/-- What acts in a cycle is answered in the next one. -/
theorem inFlight_step (system : Apb.System ApbGpio 12 32)
    (instant : Apb.Instant (BitVec 32) 12 32) :
    inFlight (system.step (gpioSlave powerUp) instant) = executed system instant := by
  obtain ⟨slave, phase, done⟩ := system
  cases phase with
  | idle => exact inFlight_quiet rfl
  | setup access => exact inFlight_quiet rfl
  | enable access =>
      cases ready : slave.pready with
      | false =>
          simp only [Apb.System.step, Apb.Phase.next, Apb.System.lines, inFlight, executed,
            gpioSlave, ApbGpio.step, ApbGpio.accepted, ready]
          rfl
      | true =>
          rw [inFlight_quiet]
          · simp only [executed, ApbGpio.accepted, ready, Bool.not_true, Bool.and_false]
            rfl
          · simp only [Apb.System.step, gpioSlave, ApbGpio.step, ready, Bool.not_true,
              Bool.and_false]

/-- Every access acts once, and nothing but an access acts. -/
theorem actsOnce (powerUp : GpioPowerUp) (instants : List (Apb.Instant (BitVec 32) 12 32)) :
    ActsOnce powerUp instants := by
  induction instants using List.reverseRecOn with
  | nil => exact ⟨rfl, rfl⟩
  | append_singleton instants instant inductionHypothesis =>
      obtain ⟨once, regs⟩ := inductionHypothesis
      constructor
      · rw [Machine.observed_snoc, Machine.run_snoc, once]
        change _ = ((_ ++ _ : List (Apb.Answered 12 32)).map _) ++ inFlight (Apb.System.step _ _ _)
        rw [List.map_append, answered_eq_inFlight, inFlight_step]
      · rw [Machine.observed_snoc, Machine.run_snoc, List.foldl_append, ← regs]
        rfl

/-! ## Independence -/

/-- What leaves the block for a pin is the same in two runs, and the synchronised input is the
input as late as the synchroniser makes it. -/
structure Independent (i : Nat) (leftUp rightUp : GpioPowerUp)
    (leftRun rightRun : Nat → GpioInput) : Prop where
  gpioOut : ∀ n, (gpioAt leftUp leftRun n).gpioOut i = (gpioAt rightUp rightRun n).gpioOut i
  gpioDir : ∀ n, (gpioAt leftUp leftRun n).gpioDir i = (gpioAt rightUp rightRun n).gpioDir i
  interrupt : ∀ n,
    (gpioAt leftUp leftRun n).interrupt i = (gpioAt rightUp rightRun n).interrupt i
  gpioInSync : ∀ n,
    (gpioAt leftUp leftRun n).gpioInSync i = (gpioAt rightUp rightRun n).gpioInSync i
  delayedLeft : ∀ n, (gpioAt leftUp leftRun n).gpioInSync i = delayed leftRun i n
  delayedRight : ∀ n, (gpioAt rightUp rightRun n).gpioInSync i = delayed rightRun i n

theorem delayed_congr (alike : ∀ n, AlikeAt i (leftRun n) (rightRun n)) (n : Nat) :
    delayed leftRun i n = delayed rightRun i n := by
  unfold delayed
  split
  · rfl
  · exact (alike (n - 3)).gpioIn

/-- The pins are independent and every access acts once, but for the synchronised inputs, which
are those of the pins only where the block happens to show the right level. -/
theorem independent_iff (inside : i < nGpio)
    (samePowerUp : leftUp.rGpioOut i = rightUp.rGpioOut i)
    (alike : ∀ n, AlikeAt i (leftRun n) (rightRun n)) :
    (Independent i leftUp rightUp leftRun rightRun ∧ (∀ instants, ActsOnce leftUp instants) ∧
        ∀ instants, ActsOnce rightUp instants) ↔
      SyncShown i leftRun ∧ SyncShown i rightRun := by
  constructor
  · intro ⟨independent, _⟩
    exact ⟨(gpioInSync_eq_delayed_iff leftUp).mp independent.delayedLeft,
      (gpioInSync_eq_delayed_iff rightUp).mp independent.delayedRight⟩
  · intro ⟨shownLeft, shownRight⟩
    have delayedLeft := (gpioInSync_eq_delayed_iff leftUp).mpr shownLeft
    have delayedRight := (gpioInSync_eq_delayed_iff rightUp).mpr shownRight
    have outputs (n : Nat) := (samePin_run inside samePowerUp alike n).outputs
    refine ⟨?_, actsOnce leftUp, actsOnce rightUp⟩
    exact
      { gpioOut := fun n => (outputs n).1
        gpioDir := fun n => (outputs n).2.1
        interrupt := fun n => (outputs n).2.2
        gpioInSync := fun n => by
          rw [delayedLeft, delayedRight, delayed_congr alike]
        delayedLeft, delayedRight }

/-- What the reset leaves is low but for the outputs of some pins. -/
def poweredUp (outs : Nat → Bool) : GpioPowerUp where
  rGpioOut := outs
  rGpioRise _ := false
  rGpioFall _ := false
  prdata := 0

/-- A cycle in which a pin is written. -/
def writing (paddr : BitVec 12) (pwdata gpioIn : BitVec 32) : GpioInput where
  gpioIn
  lines :=
    { psel := true
      penable := true
      access := { write := true, addr := paddr, data := pwdata } }

/-- Pin 5 is the same whether pin 3 is set or pin 7 is toggled and whatever the inputs of the
other pins are. -/
theorem independent_five :
    Independent 5 (poweredUp fun _ => false) (poweredUp fun i => i == 7)
        (fun _ => writing 0x000 3 0) (fun _ => writing 0x008 7 0xFFFFFFDF) ∧
      (∀ instants, ActsOnce (poweredUp fun _ => false) instants) ∧
      ∀ instants, ActsOnce (poweredUp fun i => i == 7) instants := by
  refine (independent_iff ?_ ?_ ?_).mpr ⟨?_, ?_⟩
  · decide
  · rfl
  · exact fun _ => ⟨rfl, rfl, fun _ => rfl⟩
  · intro n
    simp [writing]
  · intro n
    simp [writing]

/-- The input of pin 31 leaves the block as that of pin 0. -/
theorem lastPin_shown_as_first :
    (∀ _ : Nat, AlikeAt 0 (writing 0x000 3 0) (writing 0x000 3 0x80000000)) ∧
      ¬Independent 0 (poweredUp fun _ => false) (poweredUp fun _ => false)
        (fun _ => writing 0x000 3 0) (fun _ => writing 0x000 3 0x80000000) := by
  refine ⟨fun _ => ⟨rfl, rfl, fun _ => rfl⟩, fun independent => ?_⟩
  have shown := independent.gpioInSync 3
  revert shown
  decide

end CoreVMcu.Gpio
