import CoreVMcu.Uart.Tx

/-!
# The UART receiver

`udma_uart_rx` waits for the line to fall, waits for half a bit, and then reads the
line once in every bit.  The line goes through three registers before it is looked at.
-/

namespace CoreVMcu.Uart

/-- `CS` of the receiver. -/
inductive RxState where
  | idle
  | startBit
  | data
  | parity
  | stopBit
  deriving DecidableEq, Repr

/-- Registers of `udma_uart_rx`; the registers of the line are named by their age. -/
structure UartRx where
  state : RxState
  regData : BitVec 8
  sync0 : Bool
  sync1 : Bool
  sync2 : Bool
  regBitCount : BitVec 3
  parityBit : Bool
  baudCnt : BitVec 16
  bitDone : Bool
  errorParity : Bool
  deriving DecidableEq, Repr

/-- Inputs of a cycle. -/
structure RxInput where
  config : UartConfig
  rx : Bool
  rxReady : Bool

/-- What the state machine of the receiver drives in a cycle. -/
structure RxSignals where
  stateNext : RxState
  sampleData : Bool
  regBitCountNext : BitVec 3
  regDataNext : BitVec 8
  rxValid : Bool
  baudgenEn : Bool
  startBit : Bool
  parityBitNext : Bool
  errParity : Bool
  errOverflow : Bool
  charEvent : Bool
  setErrorParity : Bool
  errClear : Bool

/-- A bit is shifted into the top of the data bits. -/
def shiftIn (config : UartConfig) (bit : Bool) (data : BitVec 8) : BitVec 8 :=
  match config.bits.toNat with
  | 0 => (BitVec.cons bit (data.extractLsb' 1 4)).setWidth 8
  | 1 => (BitVec.cons bit (data.extractLsb' 1 5)).setWidth 8
  | 2 => (BitVec.cons bit (data.extractLsb' 1 6)).setWidth 8
  | _ => BitVec.cons bit (data.extractLsb' 1 7)

namespace UartRx

/-- The registers after reset. -/
def reset : UartRx :=
  { state := .idle, regData := 0xFF, sync0 := true, sync1 := true, sync2 := true
    regBitCount := 0, parityBit := false, baudCnt := 0, bitDone := false, errorParity := false }

variable (uart : UartRx) (input : RxInput)

/-- `busy_o`. -/
def busy : Bool := uart.state != .idle

/-- `s_rx_fall`. -/
def rxFall : Bool := !uart.sync1 && uart.sync2

/-- What is driven unless a state says otherwise. -/
def defaults : RxSignals :=
  { stateNext := uart.state, sampleData := false, regBitCountNext := uart.regBitCount
    regDataNext := uart.regData, rxValid := false, baudgenEn := false, startBit := false
    parityBitNext := uart.parityBit, errParity := false, errOverflow := false
    charEvent := false, setErrorParity := false, errClear := false }

/-- `IDLE`. -/
def idle : RxSignals :=
  if uart.rxFall then
    { uart.defaults with
      stateNext := .startBit, baudgenEn := true, startBit := true, errClear := true }
  else uart.defaults

/-- `START_BIT`. -/
def startBit : RxSignals :=
  let starting :=
    { uart.defaults with parityBitNext := false, baudgenEn := true, startBit := true }
  if uart.bitDone then { starting with stateNext := .data } else starting

/-- `DATA`. -/
def data : RxSignals :=
  let reading :=
    { uart.defaults with
      baudgenEn := true, parityBitNext := uart.parityBit ^^ uart.sync2
      regDataNext := shiftIn input.config uart.sync2 uart.regData }
  if uart.bitDone then
    let sampled := { reading with sampleData := true }
    if uart.regBitCount == targetBits input.config then
      { sampled with
        regBitCountNext := 0
        stateNext := if input.config.parityEn then .parity else .stopBit }
    else { sampled with regBitCountNext := uart.regBitCount + 1 }
  else reading

/-- `PARITY`. -/
def parity : RxSignals :=
  let reading := { uart.defaults with baudgenEn := true }
  if uart.bitDone then
    { reading with setErrorParity := uart.parityBit != uart.sync2, stateNext := .stopBit }
  else reading

/-- `STOP_BIT`. -/
def stopBit : RxSignals :=
  let reading := { uart.defaults with baudgenEn := true }
  if uart.bitDone then
    let finished := { reading with stateNext := .idle }
    if !uart.errorParity then
      { finished with
        rxValid := true, errOverflow := !input.rxReady, charEvent := input.rxReady }
    else { finished with errParity := true }
  else reading

/-- The combinational part of the state machine. -/
def signals : RxSignals :=
  match uart.state with
  | .idle => uart.idle
  | .startBit => uart.startBit
  | .data => uart.data input
  | .parity => uart.parity
  | .stopBit => uart.stopBit input

/-- The count at which a bit ends, or half of one after the line has fallen. -/
def baudTarget (signals : RxSignals) : BitVec 16 :=
  if signals.startBit then input.config.div >>> 1 else input.config.div

/-- One clock edge. -/
def step : UartRx :=
  let signals := uart.signals input
  let wraps := uart.baudCnt == baudTarget input signals
  { state := if input.config.en then signals.stateNext else .idle
    regData := if signals.sampleData then signals.regDataNext else uart.regData
    sync0 := !input.config.en || input.rx
    sync1 := !input.config.en || uart.sync0
    sync2 := !input.config.en || uart.sync1
    regBitCount := signals.regBitCountNext
    parityBit := if uart.bitDone then signals.parityBitNext else uart.parityBit
    baudCnt := if signals.baudgenEn then if wraps then 0 else uart.baudCnt + 1 else 0
    bitDone := signals.baudgenEn && wraps
    errorParity :=
      if signals.errClear then false else signals.setErrorParity || uart.errorParity }

end UartRx

end CoreVMcu.Uart
