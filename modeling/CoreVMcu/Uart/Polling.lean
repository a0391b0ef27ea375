import CoreVMcu.DcFifo.Contents
import CoreVMcu.Uart.RegIf

/-!
# Received bytes that are polled

The receiver writes its bytes into a dual-clock FIFO, whose output is followed by the byte
register of the register interface.  An observer keeps the bytes that wait: they were
received and neither handed over nor discarded by a clean of the FIFO.
-/

namespace CoreVMcu.Uart

open Clocked DcFifo

variable {l2Width transSize : Nat}

/-- The register interface and the receive FIFO of `udma_uart_top`. -/
structure RxPath (l2Width transSize : Nat) where
  regIf : UartRegIf l2Width transSize
  fifo : TokenRingFifo 8 4

/-- An edge of the system clock. -/
structure SysEdge (l2Width transSize : Nat) where
  cfg : CfgPort
  rx : L2Status l2Width transSize
  tx : L2Status l2Width transSize
  status : BitVec 2
  errParity : Bool
  errOverflow : Bool
  /-- `data_rx_ready_i` of the L2 channel. -/
  dataRxReady : Bool

/-- The clock edges of an instant: at an edge of the peripheral clock the receiver presents
`rx_valid_o` and `rx_data_o`. -/
structure RxPathEdges (l2Width transSize : Nat) where
  periph : Option (Bool × BitVec 8)
  sys : Option (SysEdge l2Width transSize)

/-- `UART_REG_DATA` is read at an instant. -/
def RxPathEdges.readsData (edges : RxPathEdges l2Width transSize) : Bool :=
  edges.sys.any fun edge => edge.cfg.rxValidClr

namespace RxPath

variable (path : RxPath l2Width transSize) (edges : RxPathEdges l2Width transSize)

/-- The inputs of the register interface. -/
def regInput (edge : SysEdge l2Width transSize) : UartRegInput l2Width transSize :=
  { cfg := edge.cfg, rx := edge.rx, tx := edge.tx, status := edge.status
    errParity := edge.errParity, errOverflow := edge.errOverflow
    rxData := path.fifo.din.dataAsync path.fifo.dout.readPointer
    rxValid := path.fifo.dout.valid }

/-- `s_data_rx_ready_mux`. -/
def rxReady (edge : SysEdge l2Width transSize) : Bool :=
  if path.regIf.manual then edge.cfg.rxValidClr else edge.dataRxReady

/-- What the FIFO samples. -/
def fifoEdges : ClockEdges 8 :=
  { source := edges.periph, destination := edges.sys.map path.rxReady }

/-- The registers after an instant. -/
def regIfNext : UartRegIf l2Width transSize :=
  match edges.sys with
  | some edge => path.regIf.step (path.regInput edge)
  | none => path.regIf

/-- The clean is the asynchronous reset of both sides of the FIFO: it acts as soon as the
register is set, and at the edges up to the one that clears it. -/
def step : RxPath l2Width transSize where
  regIf := path.regIfNext edges
  fifo :=
    if path.regIf.uartRxCleanFifo || (path.regIfNext edges).uartRxCleanFifo then
      (fifoMachine 8 4).init
    else (fifoMachine 8 4).step path.fifo (path.fifoEdges edges)

end RxPath

/-- The receive path with its observer. -/
structure PolledUart (l2Width transSize : Nat) where
  path : RxPath l2Width transSize
  /-- The received bytes that were neither handed over nor discarded, oldest first. -/
  waiting : List (BitVec 8)
  /-- `UART_REG_VALID` was read as 1 after the last read of `UART_REG_DATA`. -/
  guarded : Bool

namespace PolledUart

variable (uart : PolledUart l2Width transSize) (edges : RxPathEdges l2Width transSize)

/-- The bytes received at an instant; the FIFO takes none while it is cleaned. -/
def received : List (BitVec 8) :=
  if uart.path.regIf.uartRxCleanFifo then []
  else accepted uart.path.fifo (uart.path.fifoEdges edges)

/-- The number of bytes handed over at an instant: to a read of `UART_REG_DATA`, or else to
the L2 channel. -/
def handedOver : Nat :=
  match edges.sys with
  | some edge =>
      if uart.path.regIf.manual then edge.cfg.rxValidClr.toNat
      else (transferred uart.path.fifo (uart.path.fifoEdges edges)).length
  | none => 0

/-- An edge of the system clock at which the FIFO is cleaned. -/
def cleaned : Bool := edges.sys.isSome && uart.path.regIf.uartRxCleanFifo

/-- What waits after an instant. -/
def waitingNext : List (BitVec 8) :=
  if uart.cleaned edges then []
  else uart.waiting.drop (uart.handedOver edges) ++ uart.received edges

/-- The guard of the next read of `UART_REG_DATA`. -/
def guardedNext : Bool :=
  match edges.sys with
  | some edge =>
      if edge.cfg.rxValidClr then false
      else uart.guarded || (edge.cfg.readsValid && uart.path.regIf.uartRxDataValid)
  | none => uart.guarded

def step : PolledUart l2Width transSize where
  path := uart.path.step edges
  waiting := uart.waitingNext edges
  guarded := uart.guardedNext edges

end PolledUart

/-- The observed receive path from reset. -/
def polledMachine (l2Width transSize : Nat) :
    Machine (PolledUart l2Width transSize) (RxPathEdges l2Width transSize) where
  init :=
    { path := { regIf := .reset, fifo := (fifoMachine 8 4).init }, waiting := [], guarded := false }
  step := PolledUart.step

section Promise

variable (uart : PolledUart l2Width transSize) (edges : RxPathEdges l2Width transSize)

/-- Software reads `UART_REG_DATA` only after `UART_REG_VALID` was 1. -/
def ReadsGuarded : Prop := edges.readsData = true → uart.guarded = true

/-- Software does not leave the mode in which bytes are read through the registers. -/
def StaysManual : Prop :=
  uart.path.regIf.manual = true → (uart.path.regIfNext edges).manual = true

/-- At the edge at which the FIFO is cleaned the byte register is empty, or the byte in it is
being read. -/
def CleanFindsNothing : Prop :=
  uart.cleaned edges = true → uart.path.regIf.uartRxDataValid = true →
    edges.readsData = true

/-- Nothing is read from `UART_REG_DATA` and nothing is written. -/
def Undisturbed (edges : RxPathEdges l2Width transSize) : Prop :=
  ∀ edge ∈ edges.sys, edge.cfg.rxValidClr = false ∧ edge.cfg.written = none

end Promise

instance (uart : PolledUart l2Width transSize) (edges : RxPathEdges l2Width transSize) :
    Decidable (ReadsGuarded uart edges) :=
  inferInstanceAs (Decidable (_ → _))

instance (uart : PolledUart l2Width transSize) (edges : RxPathEdges l2Width transSize) :
    Decidable (StaysManual uart edges) :=
  inferInstanceAs (Decidable (_ → _))

instance (uart : PolledUart l2Width transSize) (edges : RxPathEdges l2Width transSize) :
    Decidable (CleanFindsNothing uart edges) :=
  inferInstanceAs (Decidable (_ → _ → _))

/-- Polled reception along a run. -/
structure PollsInOrder (l2Width transSize : Nat)
    (inputs : List (RxPathEdges l2Width transSize)) : Prop where
  /-- A read of `UART_REG_DATA` returns the oldest waiting byte, which waits no longer. -/
  returns : (polledMachine l2Width transSize).Always (fun uart edges =>
    ∀ edge ∈ edges.sys, edge.cfg.rxValidClr = true →
      ∃ byte rest, uart.waiting = byte :: rest ∧
        uart.path.regIf.cfgDataO (uart.path.regInput edge) = byte.setWidth 32) inputs
  /-- What is reported as valid is the oldest waiting byte. -/
  reports : ∀ n,
  ((polledMachine l2Width transSize).run (inputs.take n)).path.regIf.uartRxDataValid =
      true →
    ((polledMachine l2Width transSize).run (inputs.take n)).waiting.head? =
      some ((polledMachine l2Width transSize).run (inputs.take n)).path.regIf.uartRxData
  /-- A byte that waits is reported as valid within three edges of the system clock. -/
  delivers : ∀ n later,
    ((polledMachine l2Width transSize).run (inputs.take n)).waiting ≠ [] →
    ((polledMachine l2Width transSize).run (inputs.take n)).path.regIf.uartRxCleanFifo = false →
    ((polledMachine l2Width transSize).run (inputs.take n)).path.regIf.manual = true →
    (∀ edges ∈ later, Undisturbed edges) →
    3 ≤ later.countP (fun edges => edges.sys.isSome) →
    ((polledMachine l2Width transSize).run (inputs.take n ++ later)).path.regIf.uartRxDataValid =
      true

section Registers

variable {regIf : UartRegIf l2Width transSize} {input : UartRegInput l2Width transSize}

/-- No register write changes the byte register. -/
@[simp] theorem write_byte (regIf : UartRegIf l2Width transSize) (reg : UartReg)
    (data : BitVec 32) :
    (regIf.write reg data).uartRxData = regIf.uartRxData ∧
      (regIf.write reg data).uartRxDataValid = regIf.uartRxDataValid := by
  cases reg with
  | uartSetup =>
      simp only [UartRegIf.write, UartRegIf.setup]
      split <;> exact ⟨rfl, rfl⟩
  | rxSaddr | rxSize | rxCfg | txSaddr | txSize | txCfg | irqEn | status | error | valid
    | data => exact ⟨rfl, rfl⟩

theorem step_byte (regIf : UartRegIf l2Width transSize) (input : UartRegInput l2Width transSize) :
    (regIf.step input).uartRxData = (regIf.holdByte input).uartRxData ∧
      (regIf.step input).uartRxDataValid = (regIf.holdByte input).uartRxDataValid := by
  unfold UartRegIf.step
  split
  · rw [(write_byte ..).1, (write_byte ..).2]
    exact ⟨rfl, rfl⟩
  · exact ⟨rfl, rfl⟩

/-- A read of the byte marks it as taken. -/
theorem step_taken (manual : regIf.manual = true) (reads : input.cfg.rxValidClr = true) :
    (regIf.step input).uartRxDataValid = false := by
  rw [(step_byte ..).2]
  simp [UartRegIf.holdByte, manual, reads]

theorem step_notManual (notManual : regIf.manual = false) :
    (regIf.step input).uartRxDataValid = false := by
  rw [(step_byte ..).2]
  simp [UartRegIf.holdByte, notManual]

/-- Without a read the byte register follows the FIFO. -/
theorem step_follows (manual : regIf.manual = true) (noRead : input.cfg.rxValidClr = false)
    (valid : input.rxValid = true) :
    (regIf.step input).uartRxDataValid = true ∧
      (regIf.step input).uartRxData = input.rxData := by
  rw [(step_byte ..).1, (step_byte ..).2]
  simp [UartRegIf.holdByte, manual, noRead, valid]

theorem step_keeps (manual : regIf.manual = true) (noRead : input.cfg.rxValidClr = false)
    (notValid : input.rxValid = false) :
    (regIf.step input).uartRxDataValid = regIf.uartRxDataValid ∧
      (regIf.step input).uartRxData = regIf.uartRxData := by
  rw [(step_byte ..).1, (step_byte ..).2]
  simp [UartRegIf.holdByte, manual, noRead, notValid]

theorem holdByte_manual (regIf : UartRegIf l2Width transSize)
    (input : UartRegInput l2Width transSize) :
    (regIf.holdByte input).manual = regIf.manual := by
  unfold UartRegIf.holdByte
  (repeat' split) <;> rfl

/-- Without a write the mode stays and the FIFO is not cleaned. -/
theorem step_unwritten (unwritten : input.cfg.written = none) :
    (regIf.step input).manual = regIf.manual ∧ (regIf.step input).uartRxCleanFifo = false := by
  rw [UartRegIf.step, unwritten]
  exact ⟨holdByte_manual regIf input, rfl⟩

/-- A read of `UART_REG_DATA` returns the byte register. -/
theorem cfgDataO_data (reads : input.cfg.rxValidClr = true) :
    regIf.cfgDataO input = regIf.uartRxData.setWidth 32 := by
  rw [CfgPort.rxValidClr, beq_iff_eq] at reads
  rw [UartRegIf.cfgDataO, reads]

end Registers

/-! ## The invariant -/

section Step

variable {uart : PolledUart l2Width transSize} {edges : RxPathEdges l2Width transSize}

/-- What holds whatever is cleaned: a held byte is held for a read, and the FIFO is in reset
while it is cleaned. -/
structure Settled (uart : PolledUart l2Width transSize) : Prop where
  manual : uart.path.regIf.uartRxDataValid = true → uart.path.regIf.manual = true
  cleaned : uart.path.regIf.uartRxCleanFifo = true → uart.path.fifo = (fifoMachine 8 4).init

/-- The waiting bytes are those in the FIFO, and the byte register holds the oldest one. -/
structure Synchronised (uart : PolledUart l2Width transSize) : Prop where
  fifo : uart.path.regIf.uartRxCleanFifo = false → ∃ inputs,
    uart.path.fifo = (fifoMachine 8 4).run inputs ∧ uart.waiting = contents 4 inputs ∧
      (uart.path.regIf.uartRxDataValid = true → uart.path.fifo.dout.valid = true)
  reports : uart.path.regIf.uartRxDataValid = true →
    uart.waiting.head? = some uart.path.regIf.uartRxData
  guarded : uart.guarded = true → uart.path.regIf.uartRxDataValid = true

theorem init_notValid : (fifoMachine 8 4).init.dout.valid = false := by
  decide

theorem regIfNext_some {edge : SysEdge l2Width transSize} (sys : edges.sys = some edge) :
    uart.path.regIfNext edges = uart.path.regIf.step (uart.path.regInput edge) := by
  rw [RxPath.regIfNext, sys]

theorem regIfNext_none (sys : edges.sys = none) :
    uart.path.regIfNext edges = uart.path.regIf := by
  rw [RxPath.regIfNext, sys]

theorem Settled.step (settled : Settled uart) (stays : StaysManual uart edges) :
    Settled (uart.step edges) where
  manual := by
    intro held
    change (uart.path.regIfNext edges).uartRxDataValid = true at held
    change (uart.path.regIfNext edges).manual = true
    cases sys : edges.sys with
    | none =>
        rw [regIfNext_none sys] at held ⊢
        exact settled.manual held
    | some edge =>
        apply stays
        cases manual : uart.path.regIf.manual with
        | true => rfl
        | false =>
            rw [regIfNext_some sys, step_notManual manual] at held
            cases held
  cleaned := by
    intro cleans
    change (uart.path.regIfNext edges).uartRxCleanFifo = true at cleans
    change (if _ then _ else _) = _
    rw [cleans, Bool.or_true, if_pos rfl]

/-- What the FIFO would hold after an instant at which it is not cleaned. -/
structure Continues (uart : PolledUart l2Width transSize)
    (edges : RxPathEdges l2Width transSize) (inputs : List (ClockEdges 8)) : Prop where
  waiting : uart.waitingNext edges = contents 4 (inputs ++ [uart.path.fifoEdges edges])
  valid : (uart.path.regIfNext edges).uartRxDataValid = true →
    ((fifoMachine 8 4).run (inputs ++ [uart.path.fifoEdges edges])).dout.valid = true
  reports : (uart.path.regIfNext edges).uartRxDataValid = true →
    (uart.waitingNext edges).head? = some (uart.path.regIfNext edges).uartRxData

/-- What is handed over is what the FIFO transfers. -/
theorem Synchronised.handedOver_eq (synchronised : Synchronised uart)
    (guarded : ReadsGuarded uart edges)
    (offered : uart.path.regIf.uartRxDataValid = true → uart.path.fifo.dout.valid = true) :
    uart.handedOver edges =
      (transferred uart.path.fifo (uart.path.fifoEdges edges)).length := by
  cases sys : edges.sys with
  | none => simp only [PolledUart.handedOver, transferred, RxPath.fifoEdges, sys, Option.map_none,
      List.length_nil]
  | some edge =>
      cases manual : uart.path.regIf.manual with
      | false =>
          simp only [PolledUart.handedOver, sys, manual, Bool.false_eq_true, if_false]
      | true =>
          simp only [PolledUart.handedOver, sys, manual, if_true, transferred, RxPath.fifoEdges,
            Option.map_some, RxPath.rxReady]
          cases reads : edge.cfg.rxValidClr with
          | false => simp [TokenRingDout.readEnable]
          | true =>
              have guard := guarded (by simp [RxPathEdges.readsData, sys, reads])
              simp [TokenRingDout.readEnable, offered (synchronised.guarded guard)]

/-- At an instant at which the FIFO is not cleaned it loses what is handed over and takes
what is received. -/
theorem Synchronised.continues (synchronised : Synchronised uart)
    (guarded : ReadsGuarded uart edges) (notCleaned : uart.path.regIf.uartRxCleanFifo = false)
    {inputs : List (ClockEdges 8)} (fifo : uart.path.fifo = (fifoMachine 8 4).run inputs)
    (waiting : uart.waiting = contents 4 inputs)
    (offered : uart.path.regIf.uartRxDataValid = true → uart.path.fifo.dout.valid = true) :
    Continues uart edges inputs := by
  have cleaned : uart.cleaned edges = false := by
    rw [PolledUart.cleaned, notCleaned, Bool.and_false]
  have received : uart.received edges = accepted uart.path.fifo (uart.path.fifoEdges edges) := by
    rw [PolledUart.received, notCleaned, if_neg Bool.false_ne_true]
  have waitingNext : uart.waitingNext edges =
      uart.waiting.drop (uart.handedOver edges) ++
        accepted uart.path.fifo (uart.path.fifoEdges edges) := by
    rw [PolledUart.waitingNext, cleaned, if_neg Bool.false_ne_true, received]
  have handed := synchronised.handedOver_eq guarded offered
  have contentsNext : uart.waitingNext edges =
      contents 4 (inputs ++ [uart.path.fifoEdges edges]) := by
    rw [waitingNext, handed, contents_snoc (by decide), ← fifo, ← waiting]
  -- Where nothing is transferred, what is offered and the oldest byte stay.
  have kept : transferred uart.path.fifo (uart.path.fifoEdges edges) = [] →
      uart.path.fifo.dout.valid = true →
      ((fifoMachine 8 4).run (inputs ++ [uart.path.fifoEdges edges])).dout.valid = true ∧
        (uart.waitingNext edges).head? =
          some (uart.path.fifo.din.dataAsync uart.path.fifo.dout.readPointer) := by
    intro nothing valid
    rw [fifo] at nothing valid
    obtain ⟨rest, oldest⟩ := contents_of_valid (by decide) inputs valid
    refine ⟨valid_stays (by decide) valid nothing, ?_⟩
    rw [contentsNext, contents_snoc (by decide), nothing, oldest, fifo]
    rfl
  have oldestNow : uart.path.fifo.dout.valid = true → uart.waiting.head? =
      some (uart.path.fifo.din.dataAsync uart.path.fifo.dout.readPointer) := by
    intro valid
    rw [fifo] at valid
    obtain ⟨rest, oldest⟩ := contents_of_valid (by decide) inputs valid
    rw [waiting, oldest, fifo]
    rfl
  suffices follows : (uart.path.regIfNext edges).uartRxDataValid = true →
      transferred uart.path.fifo (uart.path.fifoEdges edges) = [] ∧
        uart.path.fifo.dout.valid = true ∧
        (uart.path.regIfNext edges).uartRxData =
          uart.path.fifo.din.dataAsync uart.path.fifo.dout.readPointer by
    refine ⟨contentsNext, fun held => ?_, fun held => ?_⟩
    · exact (kept (follows held).1 (follows held).2.1).1
    · rw [(follows held).2.2]
      exact (kept (follows held).1 (follows held).2.1).2
  intro held
  cases sys : edges.sys with
  | none =>
      rw [regIfNext_none sys] at held ⊢
      have valid := offered held
      have same := (synchronised.reports held).symm.trans (oldestNow valid)
      refine ⟨?_, valid, Option.some.inj same⟩
      simp only [transferred, RxPath.fifoEdges, sys, Option.map_none]
  | some edge =>
      rw [regIfNext_some sys] at held ⊢
      cases manual : uart.path.regIf.manual with
      | false =>
          rw [step_notManual manual] at held
          cases held
      | true =>
          cases reads : edge.cfg.rxValidClr with
          | true =>
              rw [step_taken manual reads] at held
              cases held
          | false =>
              have nothing : transferred uart.path.fifo (uart.path.fifoEdges edges) = [] := by
                simp only [transferred, RxPath.fifoEdges, sys, Option.map_some, RxPath.rxReady,
                  manual, reads, if_true, TokenRingDout.readEnable, Bool.and_false,
                  Bool.false_eq_true, if_false]
              cases valid : uart.path.fifo.dout.valid with
              | true =>
                  have reg : (uart.path.regInput edge).rxValid = true := valid
                  exact ⟨nothing, rfl, (step_follows manual reads reg).2⟩
              | false =>
                  have reg : (uart.path.regInput edge).rxValid = false := valid
                  rw [(step_keeps manual reads reg).1] at held
                  rw [offered held] at valid
                  cases valid

/-- A guard is kept by a byte register that is not read. -/
theorem Synchronised.guarded_step (synchronised : Synchronised uart) (settled : Settled uart)
    (guard : uart.guardedNext edges = true) :
    (uart.path.regIfNext edges).uartRxDataValid = true := by
  cases sys : edges.sys with
  | none =>
      rw [PolledUart.guardedNext, sys] at guard
      rw [regIfNext_none sys]
      exact synchronised.guarded guard
  | some edge =>
      simp only [PolledUart.guardedNext, sys] at guard
      cases reads : edge.cfg.rxValidClr with
      | true =>
          rw [reads, if_pos rfl] at guard
          cases guard
      | false =>
          rw [reads, if_neg Bool.false_ne_true, Bool.or_eq_true, Bool.and_eq_true] at guard
          have held : uart.path.regIf.uartRxDataValid = true := by
            rcases guard with before | now
            · exact synchronised.guarded before
            · exact now.2
          rw [regIfNext_some sys]
          have manual := settled.manual held
          cases valid : (uart.path.regInput edge).rxValid with
          | true => exact (step_follows manual reads valid).1
          | false => exact (step_keeps manual reads valid).1.trans held

/-- At the edge at which the FIFO is cleaned nothing is held any more. -/
theorem cleaned_notHeld (settled : Settled uart) (finds : CleanFindsNothing uart edges)
    (cleaned : uart.cleaned edges = true) :
    (uart.path.regIfNext edges).uartRxDataValid = false := by
  rw [PolledUart.cleaned, Bool.and_eq_true, Option.isSome_iff_exists] at cleaned
  obtain ⟨⟨edge, sys⟩, cleans⟩ := cleaned
  rw [regIfNext_some sys]
  cases manual : uart.path.regIf.manual with
  | false => exact step_notManual manual
  | true =>
      cases reads : edge.cfg.rxValidClr with
      | true => exact step_taken manual reads
      | false =>
          have empty : (uart.path.regInput edge).rxValid = false := by
            change uart.path.fifo.dout.valid = false
            rw [settled.cleaned cleans]
            exact init_notValid
          rw [(step_keeps manual reads empty).1]
          cases held : uart.path.regIf.uartRxDataValid with
          | false => rfl
          | true =>
              have read := finds (by simp [PolledUart.cleaned, sys, cleans]) held
              simp [RxPathEdges.readsData, sys, reads] at read

theorem Synchronised.step (synchronised : Synchronised uart) (settled : Settled uart)
    (guarded : ReadsGuarded uart edges) (finds : CleanFindsNothing uart edges) :
    Synchronised (uart.step edges) := by
  have guard : (uart.step edges).guarded = true →
      (uart.step edges).path.regIf.uartRxDataValid = true :=
    synchronised.guarded_step settled
  cases cleans : uart.path.regIf.uartRxCleanFifo with
  | false =>
      obtain ⟨inputs, fifo, waiting, offered⟩ := synchronised.fifo cleans
      have continues := synchronised.continues guarded cleans fifo waiting offered
      refine ⟨fun notCleaned => ?_, continues.reports, guard⟩
      change (uart.path.regIfNext edges).uartRxCleanFifo = false at notCleaned
      have stepped : (uart.step edges).path.fifo =
          (fifoMachine 8 4).run (inputs ++ [uart.path.fifoEdges edges]) := by
        change (if _ then _ else _) = _
        rw [cleans, notCleaned, Bool.or_self, if_neg Bool.false_ne_true, Machine.run_snoc, fifo]
      refine ⟨_, stepped, continues.waiting, fun held => ?_⟩
      rw [stepped]
      exact continues.valid held
  | true =>
      have reset : (uart.step edges).path.fifo = (fifoMachine 8 4).init := by
        change (if _ then _ else _) = _
        rw [cleans, Bool.true_or, if_pos rfl]
      cases sys : edges.sys with
      | none =>
          have same : (uart.step edges).path.regIf = uart.path.regIf := regIfNext_none sys
          have waiting : (uart.step edges).waiting = uart.waiting := by
            change uart.waitingNext edges = _
            simp [PolledUart.waitingNext, PolledUart.cleaned, PolledUart.handedOver,
              PolledUart.received, sys, cleans]
          refine ⟨fun notCleaned => ?_, ?_, guard⟩
          · rw [same, cleans] at notCleaned
            cases notCleaned
          · rw [same, waiting]
            exact synchronised.reports
      | some edge =>
          have cleaned : uart.cleaned edges = true := by simp [PolledUart.cleaned, sys, cleans]
          have notHeld : (uart.step edges).path.regIf.uartRxDataValid = false :=
            cleaned_notHeld settled finds cleaned
          have nothing : (uart.step edges).waiting = [] := by
            change uart.waitingNext edges = []
            rw [PolledUart.waitingNext, cleaned, if_pos rfl]
          refine ⟨fun _ => ⟨[], reset, nothing, fun held => ?_⟩, fun held => ?_, guard⟩
          · rw [notHeld] at held
            cases held
          · rw [notHeld] at held
            cases held

/-- A read returns the byte that is held. -/
theorem Synchronised.returns (synchronised : Synchronised uart)
    (guarded : ReadsGuarded uart edges) {edge : SysEdge l2Width transSize}
    (sys : edge ∈ edges.sys) (reads : edge.cfg.rxValidClr = true) :
    ∃ byte rest, uart.waiting = byte :: rest ∧
      uart.path.regIf.cfgDataO (uart.path.regInput edge) = byte.setWidth 32 := by
  have held := synchronised.guarded
    (guarded (by simp [RxPathEdges.readsData, Option.mem_def.mp sys, reads]))
  obtain ⟨rest, waiting⟩ := List.head?_eq_some_iff.mp (synchronised.reports held)
  exact ⟨_, rest, waiting, cfgDataO_data reads⟩

/-! ## Bytes become valid -/

/-- A waiting byte that no read takes is held, or so far in sight. -/
structure Nearing (uart : PolledUart l2Width transSize) (stage : Nat) : Prop where
  manual : uart.path.regIf.manual = true
  notCleaned : uart.path.regIf.uartRxCleanFifo = false
  comes : uart.path.regIf.uartRxDataValid = true ∨ ∃ inputs seen,
    uart.path.fifo = (fifoMachine 8 4).run inputs ∧ Sight 4 inputs seen ∧ stage ≤ seen

theorem Sight.le_two {inputs : List (ClockEdges 8)} {seen : Nat} (sight : Sight 4 inputs seen) :
    seen ≤ 2 := by
  cases sight <;> decide

theorem Nearing.held {stage : Nat} (nearing : Nearing uart stage) (enough : 3 ≤ stage) :
    uart.path.regIf.uartRxDataValid = true := by
  rcases nearing.comes with held | ⟨inputs, seen, -, sight, bound⟩
  · exact held
  · have most := Sight.le_two sight
    omega

theorem Nearing.step {stage : Nat} (nearing : Nearing uart stage)
    (undisturbed : Undisturbed edges) :
    Nearing (uart.step edges) (stage + edges.sys.isSome.toNat) := by
  have manual := nearing.manual
  have noTransfer : transferred uart.path.fifo (uart.path.fifoEdges edges) = [] := by
    cases sys : edges.sys with
    | none => simp only [transferred, RxPath.fifoEdges, sys, Option.map_none]
    | some edge =>
        have reads := (undisturbed edge sys).1
        simp [transferred, RxPath.fifoEdges, sys, RxPath.rxReady, manual, reads,
          TokenRingDout.readEnable]
  have quiet : (uart.path.regIfNext edges).manual = true ∧
      (uart.path.regIfNext edges).uartRxCleanFifo = false := by
    cases sys : edges.sys with
    | none =>
        rw [regIfNext_none sys]
        exact ⟨manual, nearing.notCleaned⟩
    | some edge =>
        have unwritten : (uart.path.regInput edge).cfg.written = none := (undisturbed edge sys).2
        rw [regIfNext_some sys]
        exact ⟨(step_unwritten unwritten).1.trans manual, (step_unwritten unwritten).2⟩
  have keeps : uart.path.regIf.uartRxDataValid = true ∨
      (edges.sys.isSome = true ∧ uart.path.fifo.dout.valid = true) →
      (uart.path.regIfNext edges).uartRxDataValid = true := by
    intro cause
    cases sys : edges.sys with
    | none =>
        rw [sys] at cause
        rw [regIfNext_none sys]
        exact cause.resolve_right fun ticks => Bool.false_ne_true ticks.1
    | some edge =>
        have reads := (undisturbed edge sys).1
        rw [regIfNext_some sys]
        cases valid : (uart.path.regInput edge).rxValid with
        | true => exact (step_follows manual reads valid).1
        | false =>
            refine (step_keeps manual reads valid).1.trans (cause.resolve_right fun ticks => ?_)
            exact Bool.false_ne_true (valid.symm.trans ticks.2)
  refine ⟨quiet.1, quiet.2, ?_⟩
  rcases nearing.comes with held | ⟨inputs, seen, fifo, sight, bound⟩
  · exact .inl (keeps (.inl held))
  · have seenBound := Sight.le_two sight
    rw [fifo] at noTransfer
    obtain ⟨next, sightNext, advance⟩ := sight.step (by decide) noTransfer
    have ticks : (uart.path.fifoEdges edges).destination.isSome = edges.sys.isSome := by
      rw [RxPath.fifoEdges, Option.isSome_map]
    have stepped : (uart.step edges).path.fifo =
        (fifoMachine 8 4).run (inputs ++ [uart.path.fifoEdges edges]) := by
      change (if _ then _ else _) = _
      rw [nearing.notCleaned, quiet.2, Bool.or_self, if_neg Bool.false_ne_true, Machine.run_snoc,
        fifo]
    have goesOn : stage + edges.sys.isSome.toNat ≤ next →
        (uart.step edges).path.regIf.uartRxDataValid = true ∨ ∃ inputs seen,
          (uart.step edges).path.fifo = (fifoMachine 8 4).run inputs ∧ Sight 4 inputs seen ∧
            stage + edges.sys.isSome.toNat ≤ seen :=
      fun enough => .inr ⟨_, next, stepped, sightNext, enough⟩
    rw [ticks] at advance
    cases sys : edges.sys.isSome with
    | false =>
        rw [sys, Bool.toNat_false] at advance goesOn
        exact goesOn (by omega)
    | true =>
        rw [sys, Bool.toNat_true] at advance goesOn
        cases sight with
        | offered valid => exact .inl (keeps (.inr ⟨sys, fifo ▸ valid⟩))
        | written waits => exact goesOn (by omega)
        | synchronised seen unread bound => exact goesOn (by omega)

end Step

variable {inputs : List (RxPathEdges l2Width transSize)}

/-- Software keeps to the polling mode. -/
def Polls (uart : PolledUart l2Width transSize) (edges : RxPathEdges l2Width transSize) : Prop :=
  ReadsGuarded uart edges ∧ StaysManual uart edges

instance (uart : PolledUart l2Width transSize) (edges : RxPathEdges l2Width transSize) :
    Decidable (Polls uart edges) :=
  inferInstanceAs (Decidable (_ ∧ _))

theorem settled_run (polls : (polledMachine l2Width transSize).Always Polls inputs) :
    Settled ((polledMachine l2Width transSize).run inputs) :=
  Machine.run_induction (motive := fun _ uart => Settled uart)
    ⟨fun held => absurd held Bool.false_ne_true, fun _ => rfl⟩
    (fun _ _ _ settled allowed => settled.step allowed.2) inputs polls

theorem synchronised_run (polls : (polledMachine l2Width transSize).Always Polls inputs)
    (finds : (polledMachine l2Width transSize).Always CleanFindsNothing inputs) :
    Synchronised ((polledMachine l2Width transSize).run inputs) := by
  induction inputs using List.reverseRecOn with
  | nil =>
      exact ⟨fun _ => ⟨[], rfl, rfl, fun held => absurd held Bool.false_ne_true⟩,
        fun held => absurd held Bool.false_ne_true, fun guard => absurd guard Bool.false_ne_true⟩
  | append_singleton inputs edges inductionHypothesis =>
      rw [Machine.always_snoc] at polls finds
      rw [Machine.run_snoc]
      exact (inductionHypothesis polls.1 finds.1).step (settled_run polls.1) polls.2.1 finds.2

/-- Undisturbed instants bring a waiting byte nearer with every edge of the system clock. -/
theorem nearing_run {uart : PolledUart l2Width transSize} {stage : Nat}
    (nearing : Nearing uart stage) {later : List (RxPathEdges l2Width transSize)}
    (undisturbed : ∀ edges ∈ later, Undisturbed edges) :
    Nearing ((polledMachine l2Width transSize).runFrom uart later)
      (stage + later.countP fun edges => edges.sys.isSome) := by
  induction later generalizing uart stage with
  | nil => exact nearing
  | cons edges later inductionHypothesis =>
      have next := nearing.step (undisturbed edges List.mem_cons_self)
      have rest := inductionHypothesis next fun edges member =>
        undisturbed edges (List.mem_cons_of_mem _ member)
      rw [Machine.runFrom_cons, List.countP_cons]
      have same : stage + edges.sys.isSome.toNat + (later.countP fun edges => edges.sys.isSome) =
          stage + ((later.countP fun edges => edges.sys.isSome) +
            if edges.sys.isSome = true then 1 else 0) := by
        cases edges.sys.isSome with
        | false => rfl
        | true => exact Nat.add_right_comm ..
      rw [← same]
      exact rest

/-- A byte that is held and not read survives the clean, although it waits no longer. -/
theorem survives_clean {uart : PolledUart l2Width transSize}
    {edges : RxPathEdges l2Width transSize} (settled : Settled uart)
    (cleaned : uart.cleaned edges = true) (held : uart.path.regIf.uartRxDataValid = true)
    (notRead : edges.readsData = false) :
    (uart.step edges).path.regIf.uartRxDataValid = true ∧ (uart.step edges).waiting = [] := by
  have nothing : uart.waitingNext edges = [] := by rw [PolledUart.waitingNext, if_pos cleaned]
  rw [PolledUart.cleaned, Bool.and_eq_true, Option.isSome_iff_exists] at cleaned
  obtain ⟨⟨edge, sys⟩, cleans⟩ := cleaned
  have reads : edge.cfg.rxValidClr = false := by simpa [RxPathEdges.readsData, sys] using notRead
  have empty : (uart.path.regInput edge).rxValid = false := by
    change uart.path.fifo.dout.valid = false
    rw [settled.cleaned cleans]
    exact init_notValid
  refine ⟨?_, nothing⟩
  change (uart.path.regIfNext edges).uartRxDataValid = true
  rw [regIfNext_some sys, (step_keeps (settled.manual held) reads empty).1, held]

/-- What is reported tells whether a clean left a byte behind. -/
theorem finds_of_reports (polls : (polledMachine l2Width transSize).Always Polls inputs)
    (reports : ∀ n, ((polledMachine l2Width transSize).run
        (inputs.take n)).path.regIf.uartRxDataValid = true →
      ((polledMachine l2Width transSize).run (inputs.take n)).waiting ≠ []) :
    (polledMachine l2Width transSize).Always CleanFindsNothing inputs := by
  induction inputs using List.reverseRecOn with
  | nil => exact Machine.always_nil ..
  | append_singleton inputs edges inductionHypothesis =>
      rw [Machine.always_snoc] at polls ⊢
      have before : ∀ n, (inputs ++ [edges]).take (min n inputs.length) = inputs.take n := by
        intro n
        rw [List.take_append_of_le_length (Nat.min_le_right ..), ← List.take_take,
          List.take_length]
      refine ⟨inductionHypothesis polls.1 fun n => before n ▸ reports (min n inputs.length), ?_⟩
      intro cleaned held
      have last := reports (inputs ++ [edges]).length
      rw [List.take_length, Machine.run_snoc] at last
      cases notRead : edges.readsData with
      | true => rfl
      | false =>
          have survives := survives_clean (settled_run polls.1) cleaned held notRead
          exact absurd survives.2 (last survives.1)

/-- While software polls, the received bytes are returned in order by guarded reads and
nothing is reported after a clean exactly when every clean finds the byte register empty or
being read. -/
theorem uart_pollsInOrder_iff (inputs : List (RxPathEdges l2Width transSize))
    (polls : (polledMachine l2Width transSize).Always Polls inputs) :
    PollsInOrder l2Width transSize inputs ↔
      (polledMachine l2Width transSize).Always CleanFindsNothing inputs := by
  constructor
  · intro inOrder
    refine finds_of_reports polls fun n held nothing => ?_
    have reported := inOrder.reports n held
    rw [nothing] at reported
    cases reported
  · intro finds
    have pollsTake : ∀ n, (polledMachine l2Width transSize).Always Polls (inputs.take n) := by
      intro n
      rw [← List.take_append_drop n inputs] at polls
      exact polls.of_append
    have findsTake : ∀ n,
        (polledMachine l2Width transSize).Always CleanFindsNothing (inputs.take n) := by
      intro n
      rw [← List.take_append_drop n inputs] at finds
      exact finds.of_append
    refine ⟨?_, fun n => (synchronised_run (pollsTake n) (findsTake n)).reports, ?_⟩
    · have both := Machine.always_and.mpr ⟨polls, finds⟩
      refine both.of_invariant (motive := fun _ uart => Synchronised uart) ?_ ?_
      · intro before allowed
        rw [Machine.always_and] at allowed
        exact synchronised_run allowed.1 allowed.2
      · intro before edges synchronised allowed edge sys reads
        exact synchronised.returns allowed.1.1 sys reads
    · intro n later waits notCleaned manual undisturbed enough
      obtain ⟨edges, fifo, waiting, -⟩ :=
        (synchronised_run (pollsTake n) (findsTake n)).fifo notCleaned
      rw [waiting] at waits
      have nearing : Nearing ((polledMachine l2Width transSize).run (inputs.take n)) 0 :=
        ⟨manual, notCleaned, .inr ⟨edges, 0, fifo, .written waits, Nat.le_refl 0⟩⟩
      rw [Machine.run_append]
      exact (nearing_run nearing undisturbed).held (by omega)

/-- An edge of the system clock with an access. -/
def sysEdge (cfg : CfgPort) : RxPathEdges 12 16 :=
  let noStatus := { en := false, pending := false, currAddr := 0, bytesLeft := 0 }
  { periph := none
    sys := some
      { cfg, rx := noStatus, tx := noStatus, status := 0, errParity := false
        errOverflow := false, dataRxReady := false } }

def sysIdle : RxPathEdges 12 16 :=
  sysEdge { cfgValid := false, cfgRwn := true, cfgAddr := 0, cfgData := 0 }

/-- A write of `UART_REG_UART_SETUP`. -/
def writeSetup (data : BitVec 32) : RxPathEdges 12 16 :=
  sysEdge { cfgValid := true, cfgRwn := false, cfgAddr := 9, cfgData := data }

def readReg (addr : BitVec 5) : RxPathEdges 12 16 :=
  sysEdge { cfgValid := true, cfgRwn := true, cfgAddr := addr, cfgData := 0 }

def receive (byte : BitVec 8) : RxPathEdges 12 16 := { periph := some (true, byte), sys := none }

/-- Polling is enabled, and a byte is received that reaches the byte register. -/
def byteHeld : List (RxPathEdges 12 16) :=
  [writeSetup 0x210, receive 0xA5, sysIdle, sysIdle, sysIdle]

/-- The byte is read before the FIFO is cleaned, and another one is received and read. -/
theorem readBeforeClean_pollsInOrder :
    PollsInOrder 12 16
      (byteHeld ++ [readReg 0xC, readReg 0xD, writeSetup 0x20, sysIdle, receive 0x5A, sysIdle,
        sysIdle, sysIdle, readReg 0xC, readReg 0xD]) :=
  (uart_pollsInOrder_iff _ (by decide +kernel)).mpr (by decide +kernel)

/-- The FIFO is cleaned while a byte is in the byte register: the byte is still reported. -/
theorem cleanedWhileHeld_not_pollsInOrder :
    (polledMachine 12 16).Always Polls (byteHeld ++ [writeSetup 0x20, sysIdle]) ∧
      ¬PollsInOrder 12 16 (byteHeld ++ [writeSetup 0x20, sysIdle]) := by
  refine ⟨by decide +kernel, fun inOrder => ?_⟩
  exact absurd (inOrder.reports 7) (by decide +kernel)

end CoreVMcu.Uart
