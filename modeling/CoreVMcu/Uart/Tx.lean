import Mathlib.Algebra.Group.Nat.Defs

/-!
# The UART transmitter

`udma_uart_tx` sends a start bit, the data bits from the lowest one on, a parity bit
if it is enabled, and one or two stop bits.  A counter of clock cycles tells it when a
bit has been on the line for long enough.
-/

namespace CoreVMcu.Uart

/-- The configuration of a transmitter and of a receiver. -/
structure UartConfig where
  en : Bool
  div : BitVec 16
  parityEn : Bool
  bits : BitVec 2
  stopBits : Bool
  deriving DecidableEq, Repr

/-- `s_target_bits`: the number of the last data bit. -/
def targetBits (config : UartConfig) : BitVec 3 :=
  match config.bits.toNat with
  | 0 => 4
  | 1 => 5
  | 2 => 6
  | _ => 7

/-- `CS` of the transmitter. -/
inductive TxState where
  | idle
  | startBit
  | data
  | parity
  | stopBitFirst
  | stopBitLast
  deriving DecidableEq, Repr

/-- Registers of `udma_uart_tx`. -/
structure UartTx where
  state : TxState
  regData : BitVec 8
  regBitCount : BitVec 3
  parityBit : Bool
  baudCnt : BitVec 16
  bitDone : Bool
  deriving DecidableEq, Repr

/-- Inputs of a cycle. -/
structure TxInput where
  config : UartConfig
  txData : BitVec 8
  txValid : Bool

/-- What the state machine of the transmitter drives in a cycle. -/
structure TxSignals where
  stateNext : TxState
  tx : Bool
  sampleData : Bool
  regBitCountNext : BitVec 3
  regDataNext : BitVec 8
  txReady : Bool
  baudgenEn : Bool
  parityBitNext : Bool

/-- `{1'b1, reg_data[7:1]}`. -/
def shiftOut (data : BitVec 8) : BitVec 8 := data >>> 1 ||| 0x80

theorem getLsbD_shiftOut (data : BitVec 8) {place : Nat} (inside : place + 1 < 8) :
    (shiftOut data).getLsbD place = data.getLsbD (place + 1) := by
  have top : ∀ lower : Fin 7, BitVec.getLsbD (0x80 : BitVec 8) lower = false := by decide
  have topClear : BitVec.getLsbD (0x80 : BitVec 8) place = false :=
    top ⟨place, Nat.lt_of_succ_lt_succ inside⟩
  rw [shiftOut, BitVec.getLsbD_or, topClear, Bool.or_false, BitVec.getLsbD_ushiftRight,
    Nat.add_comm]

namespace UartTx

/-- The registers after reset. -/
def reset : UartTx :=
  { state := .idle, regData := 0xFF, regBitCount := 0, parityBit := false, baudCnt := 0
    bitDone := false }

variable (uart : UartTx) (input : TxInput)

/-- `busy_o`. -/
def busy : Bool := uart.state != .idle

/-- What is driven unless a state says otherwise. -/
def defaults : TxSignals :=
  { stateNext := uart.state, tx := true, sampleData := false
    regBitCountNext := uart.regBitCount, regDataNext := shiftOut uart.regData, txReady := false
    baudgenEn := false, parityBitNext := uart.parityBit }

/-- `IDLE`. -/
def idle : TxSignals :=
  let waiting := { uart.defaults with txReady := input.config.en }
  if input.txValid then
    { waiting with stateNext := .startBit, sampleData := true, regDataNext := input.txData }
  else waiting

/-- `START_BIT`. -/
def startBit : TxSignals :=
  let starting := { uart.defaults with tx := false, parityBitNext := false, baudgenEn := true }
  if uart.bitDone then { starting with stateNext := .data } else starting

/-- `DATA`. -/
def data : TxSignals :=
  let bit := uart.regData.getLsbD 0
  let sending :=
    { uart.defaults with tx := bit, baudgenEn := true, parityBitNext := uart.parityBit ^^ bit }
  if uart.bitDone then
    if uart.regBitCount == targetBits input.config then
      { sending with
        regBitCountNext := 0
        stateNext := if input.config.parityEn then .parity else .stopBitFirst }
    else { sending with regBitCountNext := uart.regBitCount + 1, sampleData := true }
  else sending

/-- `PARITY`. -/
def parity : TxSignals :=
  let sending := { uart.defaults with tx := uart.parityBit, baudgenEn := true }
  if uart.bitDone then { sending with stateNext := .stopBitFirst } else sending

/-- `STOP_BIT_FIRST`. -/
def stopBitFirst : TxSignals :=
  let sending := { uart.defaults with baudgenEn := true }
  if uart.bitDone then
    { sending with stateNext := if input.config.stopBits then .stopBitLast else .idle }
  else sending

/-- `STOP_BIT_LAST`. -/
def stopBitLast : TxSignals :=
  let sending := { uart.defaults with baudgenEn := true }
  if uart.bitDone then { sending with stateNext := .idle } else sending

/-- The combinational part of the state machine. -/
def signals : TxSignals :=
  match uart.state with
  | .idle => uart.idle input
  | .startBit => uart.startBit
  | .data => uart.data input
  | .parity => uart.parity
  | .stopBitFirst => uart.stopBitFirst input
  | .stopBitLast => uart.stopBitLast

/-- The line. -/
def line : Bool := (uart.signals input).tx

/-- One clock edge. -/
def step : UartTx :=
  let signals := uart.signals input
  let wraps := uart.baudCnt == input.config.div
  { state := if input.config.en then signals.stateNext else .idle
    regData := if signals.sampleData then signals.regDataNext else uart.regData
    regBitCount := signals.regBitCountNext
    parityBit := if uart.bitDone then signals.parityBitNext else uart.parityBit
    baudCnt := if signals.baudgenEn then if wraps then 0 else uart.baudCnt + 1 else 0
    bitDone := signals.baudgenEn && wraps }

end UartTx

end CoreVMcu.Uart
