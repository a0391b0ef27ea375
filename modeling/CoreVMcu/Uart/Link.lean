import CoreVMcu.Clocked.Machine
import CoreVMcu.Uart.RxFrame
import CoreVMcu.Uart.TxFrame

/-!
# A UART transmitter connected to a receiver

Both sides run from the same clock with the same configuration.  The receiver reads
every unit while it is on the line, and is done with a frame before the next one is
seen, so it hands over exactly the bytes that the transmitter has taken.
-/

namespace CoreVMcu.Uart

open Clocked

/-- A transmitter and the receiver of its line. -/
structure UartLink where
  tx : UartTx
  rx : UartRx

/-- What is offered to the transmitter in a cycle. -/
structure LinkInput where
  txData : BitVec 8
  txValid : Bool

namespace UartLink

variable (config : UartConfig) (link : UartLink) (input : LinkInput)

/-- The inputs of the transmitter. -/
def txInput : TxInput :=
  { config := config, txData := input.txData, txValid := input.txValid }

/-- The inputs of the receiver, which is always ready. -/
def rxInput : RxInput :=
  { config := config, rx := link.tx.line (txInput config input), rxReady := true }

/-- One clock edge. -/
def step : UartLink :=
  { tx := link.tx.step (txInput config input)
    rx := link.rx.step (link.rxInput config input) }

/-- The byte taken by the transmitter in a cycle. -/
def taken : List (BitVec 8) :=
  if (link.tx.signals (txInput config input)).txReady && input.txValid then [input.txData] else []

/-- The byte handed over by the receiver in a cycle. -/
def received : List (BitVec 8) :=
  if (link.rx.signals (link.rxInput config input)).rxValid then [link.rx.regData] else []

/-- `err_parity_o`. -/
def errParity : Bool := (link.rx.signals (link.rxInput config input)).errParity

end UartLink

/-- The two sides from reset. -/
def linkMachine (config : UartConfig) : Machine UartLink LinkInput where
  init := { tx := .reset, rx := .reset }
  step := UartLink.step config

/-- The bytes taken along a run. -/
def bytesTaken (config : UartConfig) (inputs : List LinkInput) : List (BitVec 8) :=
  (linkMachine config).observed (UartLink.taken config) inputs

/-- The bytes received along a run. -/
def bytesReceived (config : UartConfig) (inputs : List LinkInput) : List (BitVec 8) :=
  (linkMachine config).observed (UartLink.received config) inputs

/-! ## The two sides together -/

/-- The line has been high for as long as the receiver remembers. -/
structure LineHigh (uart : UartRx) : Prop where
  sync0 : uart.sync0 = true
  sync1 : uart.sync1 = true
  sync2 : uart.sync2 = true

/-- The link with the bytes that have been taken and not yet handed over, and the
cycles until they are. -/
inductive LinkState (config : UartConfig) : List (BitVec 8) → Nat → UartLink → Prop where
  | resting {link : UartLink} (tx : TxIdle link.tx) (high : LineHigh link.rx)
      (rx : RxIdle link.rx) : LinkState config [] 0 link
  | finishing {link : UartLink} {byte : BitVec 8} {phase : Nat} (tx : TxIdle link.tx)
      (high : LineHigh link.rx) (rx : RxUnit config byte config.unitsBeforeStop phase link.rx)
      (ends : phase + 1 = config.period) : LinkState config [byte] 1 link
  | sending {link : UartLink} {byte : BitVec 8} {time : Nat} (started : 1 ≤ time)
      (inFrame : time < config.frameTime) (tx : TxAt config byte time link.tx)
      (sync : LineSync config byte time link.rx) (rx : RxAt config byte time link.rx) :
      LinkState config (if time ≤ config.readTime then [byte] else [])
        (config.readTime + 1 - time) link

/-- What a cycle does with the bytes. -/
structure LinkStep (config : UartConfig) (pending : List (BitVec 8)) (left : Nat)
    (link : UartLink) (input : LinkInput) (pendingNext : List (BitVec 8)) (leftNext : Nat) :
    Prop where
  state : LinkState config pendingNext leftNext (link.step config input)
  noError : link.errParity config input = false
  bytes :
    (pending ++ link.taken config input).map (reduced config) =
      link.received config input ++ pendingNext.map (reduced config)
  sooner : pending = [] ∨ link.received config input ≠ [] ∨
    (pendingNext = pending ∧ leftNext + 1 = left)

section Step

variable {config : UartConfig} {link : UartLink} {input : LinkInput}

theorem LineHigh.rxFall {uart : UartRx} (high : LineHigh uart) : uart.rxFall = false := by
  rw [UartRx.rxFall, high.sync1]
  rfl

/-- The line stays high while the transmitter is idle. -/
theorem lineHigh_step (config : UartConfig) (tx : TxIdle link.tx) (high : LineHigh link.rx)
    (input : LinkInput) : LineHigh (link.step config input).rx := by
  constructor
  · simp only [UartLink.step, UartRx.step, UartLink.rxInput, tx.line, Bool.or_true]
  · simp only [UartLink.step, UartRx.step, UartLink.rxInput, high.sync0, Bool.or_true]
  · simp only [UartLink.step, UartRx.step, UartLink.rxInput, high.sync1, Bool.or_true]

/-- The byte that an idle transmitter takes. -/
theorem taken_idle (enabled : config.en = true) (tx : TxIdle link.tx) (input : LinkInput) :
    link.taken config input = if input.txValid then [input.txData] else [] := by
  have ready : (link.tx.signals (UartLink.txInput config input)).txReady = true :=
    (tx.txReady _).trans enabled
  rw [UartLink.taken, ready, Bool.true_and]

/-- After a cycle with an idle transmitter and a receiver that is then idle, the link
rests or sends the byte that it has taken. -/
theorem state_of_idle (enabled : config.en = true) (tx : TxIdle link.tx)
    (high : LineHigh link.rx) (rx : RxIdle (link.step config input).rx) :
    LinkState config (link.taken config input)
      (if input.txValid then config.readTime else 0) (link.step config input) := by
  have highNext := lineHigh_step config tx high input
  rw [taken_idle enabled tx]
  cases valid : input.txValid with
  | false => exact .resting (tx.step_waits valid) highNext rx
  | true =>
      have started : 1 ≤ config.readTime := by
        unfold UartConfig.readTime
        omega
      have inFrame : 1 < config.frameTime := by
        unfold UartConfig.frameTime
        omega
      have configured : (UartLink.txInput config input).config = config := rfl
      have starts := tx.step_starts enabled configured valid
      have sending : LinkState config (if 1 ≤ config.readTime then [input.txData] else [])
          (config.readTime + 1 - 1) (link.step config input) :=
        .sending (Nat.le_refl 1) inFrame starts
          ⟨highNext.sync0, highNext.sync1, highNext.sync2⟩
          (.before (by decide) rx fun late => absurd late (by decide))
      rw [if_pos started, Nat.add_sub_cancel] at sending
      exact sending

/-- A busy transmitter takes nothing. -/
theorem taken_busy {byte : BitVec 8} {time : Nat} (tx : TxAt config byte time link.tx)
    (input : LinkInput) : link.taken config input = [] := by
  have busy : link.tx.state ≠ .idle := by
    cases tx with
    | opening state =>
        rw [state]
        exact nofun
    | unit now => exact now.busy
  have notReady : (link.tx.signals (UartLink.txInput config input)).txReady = false := by
    cases state : link.tx.state with
    | idle => exact absurd state busy
    | startBit =>
        simp only [UartTx.signals, state, UartTx.startBit]
        split <;> rfl
    | data =>
        simp only [UartTx.signals, state, UartTx.data]
        split
        · split <;> rfl
        · rfl
    | parity =>
        simp only [UartTx.signals, state, UartTx.parity]
        split <;> rfl
    | stopBitFirst =>
        simp only [UartTx.signals, state, UartTx.stopBitFirst]
        split <;> rfl
    | stopBitLast =>
        simp only [UartTx.signals, state, UartTx.stopBitLast]
        split <;> rfl
  rw [UartLink.taken, notReady]
  rfl

/-- When the transmitter is idle again the receiver is done with the frame, or in the
last cycle of it. -/
theorem RxAt.ending {byte : BitVec 8} {uart : UartRx} (divides : 2 ≤ config.div.toNat)
    (rx : RxAt config byte config.frameTime uart) :
    (config.readTime < config.frameTime ∧ RxIdle uart) ∨
      (config.readTime = config.frameTime ∧
        ∃ phase, phase + 1 = config.period ∧
          RxUnit config byte config.unitsBeforeStop phase uart) := by
  have period : config.period = config.div.toNat + 1 := rfl
  have half : config.half = config.div.toNat / 2 := rfl
  have stopUnit : config.unitsBeforeStop * config.period + config.period ≤
      config.units * config.period := by
    rw [← Nat.succ_mul]
    apply Nat.mul_le_mul_right
    unfold UartConfig.units
    omega
  have first : config.period ≤ config.unitsBeforeStop * config.period := by
    apply Nat.le_mul_of_pos_left
    unfold UartConfig.unitsBeforeStop
    omega
  have frame : config.frameTime = 2 + config.units * config.period := rfl
  have read : config.readTime = config.half + 4 + config.unitsBeforeStop * config.period := rfl
  cases rx with
  | before early => omega
  | start start =>
      have inHalf := start.inHalf
      omega
  | @unit unit phase _ now isTime =>
      have inUnit := now.baud.inUnit
      rcases Nat.lt_or_eq_of_le now.inFrame with before | stop
      · have room := Nat.mul_le_mul_right config.period (Nat.succ_le_of_lt before)
        rw [Nat.succ_mul] at room
        omega
      · subst stop
        exact Or.inr ⟨by omega, phase, by omega, now⟩
  | after done idle => exact Or.inl ⟨done, idle⟩

/-- Nothing is handed over while the receiver waits. -/
theorem received_of_hands {valid : Bool}
    (hands : Hands link.rx (link.rxInput config input) valid) :
    link.received config input = (if valid then [link.rx.regData] else []) ∧
      link.errParity config input = false := by
  constructor
  · rw [UartLink.received, hands.rxValid]
  · exact hands.errParity

/-- A cycle in which the link rests. -/
theorem linkStep_resting (enabled : config.en = true) (tx : TxIdle link.tx)
    (high : LineHigh link.rx) (rx : RxIdle link.rx) :
    ∃ pendingNext leftNext, LinkStep config [] 0 link input pendingNext leftNext := by
  obtain ⟨rxNext, _, hands⟩ := rx.step_waits high.rxFall (link.rxInput config input)
  obtain ⟨received, noError⟩ := received_of_hands hands
  refine ⟨_, _, state_of_idle enabled tx high rxNext, noError, ?_, Or.inl rfl⟩
  rw [received]
  rfl

/-- The cycle in which the last byte is handed over. -/
theorem linkStep_finishing {byte : BitVec 8} {phase : Nat} (divides : 2 ≤ config.div.toNat)
    (enabled : config.en = true) (tx : TxIdle link.tx) (high : LineHigh link.rx)
    (rx : RxUnit config byte config.unitsBeforeStop phase link.rx)
    (ends : phase + 1 = config.period) :
    ∃ pendingNext leftNext, LinkStep config [byte] 1 link input pendingNext leftNext := by
  have configured : (link.rxInput config input).config = config := rfl
  obtain ⟨rxNext, hands, data⟩ := rx.step_stopBit divides enabled configured ends
  obtain ⟨received, noError⟩ := received_of_hands hands
  rw [if_pos rfl] at received
  refine ⟨_, _, state_of_idle enabled tx high rxNext, noError, ?_, Or.inr (Or.inl ?_)⟩
  · rw [received, data]
    rfl
  · rw [received]
    exact List.cons_ne_nil _ _

/-- The byte of a frame while it has not been handed over. -/
def pendingAt (config : UartConfig) (byte : BitVec 8) (time : Nat) : List (BitVec 8) :=
  if time ≤ config.readTime then [byte] else []

/-- The link at a time of a frame, also when the frame has just ended. -/
theorem state_of_frame {byte : BitVec 8} {time : Nat} (divides : 2 ≤ config.div.toNat)
    (started : 1 ≤ time)
    (tx : (time < config.frameTime ∧ TxAt config byte time link.tx) ∨
      (time = config.frameTime ∧ TxIdle link.tx))
    (sync : LineSync config byte time link.rx) (rx : RxAt config byte time link.rx) :
    LinkState config (pendingAt config byte time) (config.readTime + 1 - time) link := by
  rcases tx with ⟨inFrame, tx⟩ | ⟨atEnd, tx⟩
  · exact .sending started inFrame tx sync rx
  · subst atEnd
    have period : config.period = config.div.toNat + 1 := rfl
    have stopUnit : config.unitsBeforeStop * config.period + config.period ≤
        config.units * config.period := by
      rw [← Nat.succ_mul]
      apply Nat.mul_le_mul_right
      unfold UartConfig.units
      omega
    have high : LineHigh link.rx := by
      constructor
      · rw [sync.sync0, frameLine_stop]
        unfold UartConfig.frameTime
        omega
      · rw [sync.sync1, frameLine_stop]
        unfold UartConfig.frameTime
        omega
      · rw [sync.sync2, frameLine_stop]
        unfold UartConfig.frameTime
        omega
    rcases rx.ending divides with ⟨done, idle⟩ | ⟨last, phase, ends, now⟩
    · rw [pendingAt, if_neg (Nat.not_le_of_lt done), Nat.sub_eq_zero_of_le done]
      exact .resting tx high idle
    · rw [pendingAt, if_pos (Nat.le_of_eq last.symm), last, Nat.add_sub_cancel_left]
      exact .finishing tx high now ends

/-- A cycle of a frame. -/
theorem linkStep_sending {byte : BitVec 8} {time : Nat} (divides : 2 ≤ config.div.toNat)
    (enabled : config.en = true) (started : 1 ≤ time) (tx : TxAt config byte time link.tx)
    (sync : LineSync config byte time link.rx) (rx : RxAt config byte time link.rx) :
    ∃ pendingNext leftNext,
      LinkStep config (pendingAt config byte time) (config.readTime + 1 - time) link input
        pendingNext leftNext := by
  have taken := taken_busy tx input
  have txConfigured : (UartLink.txInput config input).config = config := rfl
  have rxConfigured : (link.rxInput config input).config = config := rfl
  have receives := rx.receives started sync divides enabled rxConfigured
  have syncNext := sync.step enabled rxConfigured (tx.line _)
  have txNext := tx.step (Nat.le_of_succ_le divides) enabled txConfigured
  obtain ⟨received, noError⟩ := received_of_hands receives.hands
  simp only [decide_eq_true_eq] at received
  have state : LinkState config (pendingAt config byte (time + 1))
      (config.readTime + 1 - (time + 1)) (link.step config input) :=
    state_of_frame divides (Nat.le_succ_of_le started) txNext syncNext receives.position
  rcases Nat.lt_trichotomy time config.readTime with before | now | after
  · have notYet : ¬time = config.readTime := Nat.ne_of_lt before
    have still : pendingAt config byte (time + 1) = pendingAt config byte time := by
      rw [pendingAt, pendingAt, if_pos (Nat.succ_le_of_lt before), if_pos (Nat.le_of_lt before)]
    rw [if_neg notYet] at received
    refine ⟨_, _, state, noError, ?_, Or.inr (Or.inr ⟨still, by omega⟩)⟩
    rw [taken, received, still, List.append_nil, List.nil_append]
  · have done : ¬time + 1 ≤ config.readTime := by omega
    rw [if_pos now] at received
    refine ⟨_, _, state, noError, ?_, Or.inr (Or.inl ?_)⟩
    · rw [taken, received, pendingAt, pendingAt, if_pos (Nat.le_of_eq now), if_neg done,
        receives.data now]
      rfl
    · rw [received]
      exact List.cons_ne_nil _ _
  · have done : pendingAt config byte time = [] := if_neg (Nat.not_le_of_lt after)
    have doneNext : pendingAt config byte (time + 1) = [] :=
      if_neg (Nat.not_le_of_lt (Nat.lt_succ_of_lt after))
    rw [if_neg (Nat.ne_of_gt after)] at received
    refine ⟨_, _, state, noError, ?_, Or.inl done⟩
    rw [taken, received, done, doneNext]
    rfl

/-- What one cycle of the link does. -/
theorem LinkState.step {pending : List (BitVec 8)} {left : Nat} (divides : 2 ≤ config.div.toNat)
    (enabled : config.en = true) (state : LinkState config pending left link)
    (input : LinkInput) :
    ∃ pendingNext leftNext, LinkStep config pending left link input pendingNext leftNext := by
  cases state with
  | resting tx high rx => exact linkStep_resting enabled tx high rx
  | finishing tx high rx ends => exact linkStep_finishing divides enabled tx high rx ends
  | sending started _ tx sync rx => exact linkStep_sending divides enabled started tx sync rx

end Step

/-! ## Runs -/

section Run

variable {config : UartConfig}

theorem linkState_reset (config : UartConfig) :
    LinkState config [] 0 (linkMachine config).init :=
  .resting ⟨rfl, rfl, rfl⟩ ⟨rfl, rfl, rfl⟩ ⟨rfl, rfl, rfl⟩

/-- After a run the bytes that were taken are those that were received and those that
are pending. -/
theorem link_run (divides : 2 ≤ config.div.toNat) (enabled : config.en = true)
    (inputs : List LinkInput) :
    ∃ pending left, LinkState config pending left ((linkMachine config).run inputs) ∧
      (bytesTaken config inputs).map (reduced config) =
        bytesReceived config inputs ++ pending.map (reduced config) := by
  induction inputs using List.reverseRecOn with
  | nil => exact ⟨[], 0, linkState_reset config, rfl⟩
  | append_singleton inputs input inductionHypothesis =>
      obtain ⟨pending, left, state, bytes⟩ := inductionHypothesis
      obtain ⟨pendingNext, leftNext, next⟩ := state.step divides enabled input
      have now := next.bytes
      rw [List.map_append] at now
      refine ⟨pendingNext, leftNext, ?_, ?_⟩
      · rw [Machine.run_snoc]
        exact next.state
      · rw [bytesTaken, bytesReceived, Machine.observed_snoc, Machine.observed_snoc,
          List.map_append, ← bytesTaken, ← bytesReceived, bytes, List.append_assoc, now,
          List.append_assoc]

/-- The bytes that are pending are received when enough cycles have gone by. -/
theorem pending_received (divides : 2 ≤ config.div.toNat) (enabled : config.en = true)
    {more : List LinkInput} :
    ∀ {pending : List (BitVec 8)} {left : Nat} {link : UartLink},
      LinkState config pending left link → left ≤ more.length →
      pending.length ≤
        ((linkMachine config).observedFrom (UartLink.received config) link more).length := by
  induction more with
  | nil =>
      intro pending left link state enough
      cases state with
      | resting => exact Nat.le_refl 0
      | finishing => exact absurd enough (by decide)
      | sending =>
          rw [if_neg (by simp only [List.length_nil] at enough; omega)]
          exact Nat.zero_le _
  | cons input more inductionHypothesis =>
      intro pending left link state enough
      obtain ⟨pendingNext, leftNext, next⟩ := state.step divides enabled input
      have atMostOne : pending.length ≤ 1 := by
        cases state with
        | resting => exact Nat.zero_le _
        | finishing => exact Nat.le_refl 1
        | sending => split <;> simp
      rw [Machine.observedFrom, List.length_append]
      rcases next.sooner with nothing | now | ⟨still, sooner⟩
      · rw [nothing]
        exact Nat.zero_le _
      · have positive := List.length_pos_iff.mpr now
        omega
      · have later := inductionHypothesis next.state
          (by rw [List.length_cons] at enough; omega)
        rw [still] at later
        exact Nat.le_trans later (Nat.le_add_left ..)

/-- The receiver hands over the bytes that the transmitter has taken, each reduced to
the data bits: in order, without another byte, without a parity error, and each of them
at most the reading of a frame after it was taken. -/
theorem uart_round_trip (config : UartConfig) (divides : 2 ≤ config.div.toNat)
    (enabled : config.en = true) (inputs : List LinkInput) :
    bytesReceived config inputs <+: (bytesTaken config inputs).map (reduced config) ∧
      (linkMachine config).Always (fun link input => link.errParity config input = false) inputs ∧
      ∀ more : List LinkInput, config.readTime ≤ more.length →
        (bytesTaken config inputs).map (reduced config) <+:
          bytesReceived config (inputs ++ more) := by
  have isPrefix : ∀ run, bytesReceived config run <+:
      (bytesTaken config run).map (reduced config) := by
    intro run
    obtain ⟨pending, _, _, bytes⟩ := link_run divides enabled run
    rw [bytes]
    exact List.prefix_append ..
  refine ⟨isPrefix inputs, ?_, fun more enough => ?_⟩
  · apply Machine.always_of_reachable
    intro run input
    obtain ⟨_, _, state, _⟩ := link_run divides enabled run
    obtain ⟨_, _, next⟩ := state.step divides enabled input
    exact next.noError
  · obtain ⟨pending, left, state, bytes⟩ := link_run divides enabled inputs
    have soon : left ≤ config.readTime := by
      cases state with
      | resting => exact Nat.zero_le _
      | finishing =>
          unfold UartConfig.readTime
          omega
      | sending started => omega
    have received := pending_received divides enabled state (Nat.le_trans soon enough)
    have later : bytesReceived config (inputs ++ more) = bytesReceived config inputs ++
        (linkMachine config).observedFrom (UartLink.received config)
          ((linkMachine config).run inputs) more :=
      Machine.observedFrom_append ..
    have taken : (bytesTaken config inputs).map (reduced config) <+:
        (bytesTaken config (inputs ++ more)).map (reduced config) := by
      rw [bytesTaken, bytesTaken, Machine.observed, Machine.observed, Machine.observedFrom_append,
        List.map_append]
      exact List.prefix_append ..
    apply List.prefix_of_prefix_length_le taken (isPrefix (inputs ++ more))
    rw [later, List.length_append, bytes, List.length_append, List.length_map]
    exact Nat.add_le_add_left received _

/-- Five data bits with parity, at the shortest period. -/
def fastestLink : UartConfig :=
  { en := true, div := 2, parityEn := true, bits := 0, stopBits := false }

/-- Three bytes that are offered one after the other. -/
def threeBytes : List LinkInput :=
  List.replicate 20 { txData := 0xAD, txValid := true } ++
    List.replicate 20 { txData := 0x52, txValid := true } ++
      List.replicate 20 { txData := 0x3F, txValid := true }

/-- They come out with their lowest five bits. -/
theorem fastestLink_round_trip :
    [0x0D#8, 0x12, 0x1F] <+: bytesReceived fastestLink
      (threeBytes ++ List.replicate 26 { txData := 0, txValid := false }) := by
  have taken : bytesTaken fastestLink threeBytes = [0xAD, 0x52, 0x3F] := by decide
  have trip := uart_round_trip fastestLink (by decide) rfl threeBytes
  rw [taken] at trip
  exact trip.2.2 (List.replicate 26 { txData := 0, txValid := false }) (by decide)

end Run

end CoreVMcu.Uart
