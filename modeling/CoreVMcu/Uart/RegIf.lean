import Mathlib.Data.BitVec

/-!
# The registers of the UART

`udma_uart_reg_if` holds the registers of the two L2 channels and of the UART.  A received
byte can be read through `UART_REG_DATA`: a register follows the output of the receive
FIFO, and a read of it takes the byte from the FIFO.
-/

namespace CoreVMcu.Uart

/-- The registers at the addresses of the interface. -/
inductive UartReg where
  | rxSaddr
  | rxSize
  | rxCfg
  | txSaddr
  | txSize
  | txCfg
  | status
  | uartSetup
  | error
  | irqEn
  | valid
  | data
  deriving DecidableEq, Repr

/-- The decoded address; nothing stands at the others. -/
def uartReg (addr : BitVec 5) : Option UartReg :=
  match addr.toNat with
  | 0x0 => some .rxSaddr
  | 0x1 => some .rxSize
  | 0x2 => some .rxCfg
  | 0x4 => some .txSaddr
  | 0x5 => some .txSize
  | 0x6 => some .txCfg
  | 0x8 => some .status
  | 0x9 => some .uartSetup
  | 0xA => some .error
  | 0xB => some .irqEn
  | 0xC => some .valid
  | 0xD => some .data
  | _ => none

/-- The registers of an L2 channel. -/
structure L2Channel (l2Width transSize : Nat) where
  startaddr : BitVec l2Width
  size : BitVec transSize
  continuous : Bool
  en : Bool
  clr : Bool

/-- What an L2 channel reports. -/
structure L2Status (l2Width transSize : Nat) where
  en : Bool
  pending : Bool
  currAddr : BitVec l2Width
  bytesLeft : BitVec transSize

/-- Registers of `udma_uart_reg_if`. -/
structure UartRegIf (l2Width transSize : Nat) where
  rx : L2Channel l2Width transSize
  tx : L2Channel l2Width transSize
  uartDiv : BitVec 16
  uartEnRx : Bool
  uartEnTx : Bool
  uartStopBits : Bool
  uartBits : BitVec 2
  uartParityEn : Bool
  uartRxCleanFifo : Bool
  uartRxPollingEn : Bool
  uartRxIrqEn : Bool
  uartErrIrqEn : Bool
  errOverflow : Bool
  errParity : Bool
  uartRxData : BitVec 8
  uartRxDataValid : Bool

/-- The configuration port in a cycle. -/
structure CfgPort where
  cfgValid : Bool
  cfgRwn : Bool
  cfgAddr : BitVec 5
  cfgData : BitVec 32

/-- Inputs of a cycle. -/
structure UartRegInput (l2Width transSize : Nat) where
  cfg : CfgPort
  rx : L2Status l2Width transSize
  tx : L2Status l2Width transSize
  status : BitVec 2
  errParity : Bool
  errOverflow : Bool
  rxData : BitVec 8
  rxValid : Bool

variable {l2Width transSize : Nat}

/-- A vector of flags, the first one at the top. -/
def flags (bits : List Bool) : BitVec 32 :=
  BitVec.ofNat 32 (bits.foldl (fun value bit => 2 * value + bit.toNat) 0)

/-- `{26'h0, pending, en, 3'h0, continuous}`. -/
def L2Status.cfg (status : L2Status l2Width transSize) (continuous : Bool) : BitVec 32 :=
  flags [status.pending, status.en, false, false, false, continuous]

namespace L2Channel

def reset : L2Channel l2Width transSize :=
  { startaddr := 0, size := 0, continuous := false, en := false, clr := false }

/-- `en` and `clr` are pulses. -/
def quiet (channel : L2Channel l2Width transSize) : L2Channel l2Width transSize :=
  { channel with en := false, clr := false }

/-- A write of the configuration register. -/
def configure (channel : L2Channel l2Width transSize) (data : BitVec 32) :
    L2Channel l2Width transSize :=
  { channel with
    clr := data.getLsbD 6, en := data.getLsbD 4, continuous := data.getLsbD 0 }

end L2Channel

namespace CfgPort

/-- The register written, if any. -/
def written (cfg : CfgPort) : Option UartReg :=
  if cfg.cfgValid && !cfg.cfgRwn then uartReg cfg.cfgAddr else none

/-- The register whose value is driven; without a read this is the first one. -/
def driven (cfg : CfgPort) : Option UartReg :=
  uartReg (if cfg.cfgValid && cfg.cfgRwn then cfg.cfgAddr else 0)

/-- `s_err_clr`. -/
def errClr (cfg : CfgPort) : Bool := cfg.driven == some .error

/-- `s_rx_valid_clr`: `UART_REG_DATA` is read. -/
def rxValidClr (cfg : CfgPort) : Bool := cfg.driven == some .data

/-- `UART_REG_VALID` is read. -/
def readsValid (cfg : CfgPort) : Bool := cfg.driven == some .valid

end CfgPort

namespace UartRegIf

variable (regIf : UartRegIf l2Width transSize)

/-- The registers after reset. -/
def reset : UartRegIf l2Width transSize :=
  { rx := .reset, tx := .reset, uartDiv := 0, uartEnRx := false, uartEnTx := false
    uartStopBits := false, uartBits := 0, uartParityEn := false, uartRxCleanFifo := false
    uartRxPollingEn := false, uartRxIrqEn := false, uartErrIrqEn := false
    errOverflow := false, errParity := false, uartRxData := 0, uartRxDataValid := false }

/-- Received bytes are read through the registers. -/
def manual : Bool := regIf.uartRxPollingEn || regIf.uartRxIrqEn

/-- A write of `UART_REG_UART_SETUP`: with the clean bit nothing else is written. -/
def setup (data : BitVec 32) : UartRegIf l2Width transSize :=
  if data.getLsbD 5 then { regIf with uartRxCleanFifo := true }
  else
    { regIf with
      uartDiv := data.extractLsb' 16 16
      uartEnRx := data.getLsbD 9
      uartEnTx := data.getLsbD 8
      uartRxCleanFifo := false
      uartRxPollingEn := data.getLsbD 4
      uartStopBits := data.getLsbD 3
      uartBits := data.extractLsb' 1 2
      uartParityEn := data.getLsbD 0 }

/-- A register write. -/
def write (reg : UartReg) (data : BitVec 32) : UartRegIf l2Width transSize :=
  match reg with
  | .rxSaddr => { regIf with rx := { regIf.rx with startaddr := data.setWidth l2Width } }
  | .rxSize => { regIf with rx := { regIf.rx with size := data.setWidth transSize } }
  | .rxCfg => { regIf with rx := regIf.rx.configure data }
  | .txSaddr => { regIf with tx := { regIf.tx with startaddr := data.setWidth l2Width } }
  | .txSize => { regIf with tx := { regIf.tx with size := data.setWidth transSize } }
  | .txCfg => { regIf with tx := regIf.tx.configure data }
  | .uartSetup => regIf.setup data
  | .irqEn =>
      { regIf with uartErrIrqEn := data.getLsbD 1, uartRxIrqEn := data.getLsbD 0 }
  | .status | .error | .valid | .data => regIf

/-- `cfg_data_o`. -/
def cfgDataO (input : UartRegInput l2Width transSize) : BitVec 32 :=
  match input.cfg.driven with
  | some .rxSaddr => input.rx.currAddr.setWidth 32
  | some .rxSize => input.rx.bytesLeft.setWidth 32
  | some .rxCfg => input.rx.cfg regIf.rx.continuous
  | some .txSaddr => input.tx.currAddr.setWidth 32
  | some .txSize => input.tx.bytesLeft.setWidth 32
  | some .txCfg => input.tx.cfg regIf.tx.continuous
  | some .uartSetup =>
      regIf.uartDiv ++
        (flags [regIf.uartEnRx, regIf.uartEnTx, false, false, regIf.uartRxCleanFifo,
          regIf.uartRxPollingEn, regIf.uartStopBits, regIf.uartBits.getLsbD 1,
          regIf.uartBits.getLsbD 0, regIf.uartParityEn]).extractLsb' 0 16
  | some .status => input.status.setWidth 32
  | some .error => flags [regIf.errParity, regIf.errOverflow]
  | some .irqEn => flags [regIf.uartErrIrqEn, regIf.uartRxIrqEn]
  | some .valid => flags [regIf.uartRxDataValid]
  | some .data => regIf.uartRxData.setWidth 32
  | none => 0

/-- The byte register follows the receive FIFO; a read marks it as taken. -/
def holdByte (input : UartRegInput l2Width transSize) : UartRegIf l2Width transSize :=
  if regIf.manual then
    if input.rxValid && !input.cfg.rxValidClr then
      { regIf with uartRxData := input.rxData, uartRxDataValid := true }
    else if input.cfg.rxValidClr then { regIf with uartRxDataValid := false }
    else regIf
  else { regIf with uartRxDataValid := false }

/-- The errors stay until they are read. -/
def holdErrors (input : UartRegInput l2Width transSize) : UartRegIf l2Width transSize :=
  { regIf with
    errOverflow := input.errOverflow || (regIf.errOverflow && !input.cfg.errClr)
    errParity := input.errParity || (regIf.errParity && !input.cfg.errClr) }

/-- What a cycle does besides a register write. -/
def idle (input : UartRegInput l2Width transSize) : UartRegIf l2Width transSize :=
  { (regIf.holdByte input).holdErrors input with
    rx := regIf.rx.quiet, tx := regIf.tx.quiet, uartRxCleanFifo := false }

/-- One clock edge. -/
def step (input : UartRegInput l2Width transSize) : UartRegIf l2Width transSize :=
  match input.cfg.written with
  | some reg => (regIf.idle input).write reg input.cfg.cfgData
  | none => regIf.idle input

end UartRegIf

end CoreVMcu.Uart
