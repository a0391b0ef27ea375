import CoreVMcu.Spi.TxRx

/-!
# The SPI master

The command interpreter sets up the transfers that the serializer carries out.  What
it drives towards the serializer does not depend on what the serializer answers, so the
signals of a cycle can be computed in this order.
-/

namespace CoreVMcu.Spi

open Clocked

/-- What the serializer answers in a cycle. -/
structure TxRxOutput where
  txDone : Bool
  txDataReady : Bool
  rxDone : Bool
  rxData : BitVec 32
  rxDataValid : Bool

/-- A serializer that does nothing. -/
def TxRxOutput.silent : TxRxOutput :=
  { txDone := false, txDataReady := false, rxDone := false, rxData := 0, rxDataValid := false }

/-- Inputs of the master: the events, the streams of the uDMA and the data lines. -/
structure MasterInput where
  event : BitVec 4
  udmaCmd : BitVec 32
  udmaCmdValid : Bool
  udmaTxData : BitVec 32
  udmaTxDataValid : Bool
  udmaRxDataReady : Bool
  sdi : DataLines

namespace MasterInput

/-- The inputs of the interpreter, with the answer of the serializer. -/
def ctrlInput (input : MasterInput) (output : TxRxOutput) : CtrlInput :=
  { event := input.event
    udmaCmd := input.udmaCmd
    udmaCmdValid := input.udmaCmdValid
    udmaTxData := input.udmaTxData
    udmaTxDataValid := input.udmaTxDataValid
    udmaRxDataReady := input.udmaRxDataReady
    txDone := output.txDone
    txDataReady := output.txDataReady
    rxDone := output.rxDone
    rxData := output.rxData
    rxDataValid := output.rxDataValid }

end MasterInput

/-- The interpreter and the serializer. -/
structure SpiMaster where
  ctrl : SpimCtrl
  txRx : TxRx

namespace SpiMaster

/-- The registers after reset. -/
def reset : SpiMaster := { ctrl := .reset, txRx := .reset }

variable (master : SpiMaster) (input : MasterInput)

/-- What the interpreter drives whatever the serializer answers. -/
def setup : CtrlSignals := master.ctrl.signals (input.ctrlInput .silent)

/-- The inputs of the serializer. -/
def txRxInput : TxRxInput :=
  let setup := master.setup input
  { tx := setup.tx
    txData := setup.txData
    txDataValid := setup.txDataValid
    rx := setup.rx
    sdi := input.sdi }

/-- The answer of the serializer. -/
def output : TxRxOutput :=
  let tx := master.txRx.txSignals (master.txRxInput input)
  let rx := master.txRx.rxSignals (master.txRxInput input)
  { txDone := tx.done
    txDataReady := tx.dataReady
    rxDone := rx.done
    rxData := rx.data
    rxDataValid := rx.dataValid }

/-- The inputs of the interpreter. -/
def ctrlInput : CtrlInput := input.ctrlInput (master.output input)

/-- What the interpreter drives. -/
def signals : CtrlSignals := master.ctrl.signals (master.ctrlInput input)

/-- One clock edge. -/
def step : SpiMaster :=
  { ctrl := master.ctrl.step (master.ctrlInput input)
    txRx := master.txRx.step (master.txRxInput input) }

/-! ## What is observed -/

/-- The command taken from the stream in a cycle. -/
def commandTaken : List (BitVec 32) :=
  if (master.signals input).udmaCmdReady && input.udmaCmdValid then [input.udmaCmd] else []

/-- The data word taken from the uDMA in a cycle. -/
def wordTransmitted : List (BitVec 32) :=
  if (master.signals input).udmaTxDataReady && input.udmaTxDataValid then [input.udmaTxData]
  else []

/-- The data word handed to the uDMA in a cycle. -/
def wordReceived : List (BitVec 32) :=
  if (master.signals input).udmaRxDataValid && input.udmaRxDataReady then
    [(master.signals input).udmaRxData]
  else []

/-! ## The two parts settle -/

/-- What the interpreter drives for the serializer. -/
structure Driven where
  tx : TransferSetup
  txData : BitVec 32
  txDataValid : Bool
  rx : TransferSetup

end SpiMaster

/-- What is driven for the serializer. -/
def CtrlSignals.driven (signals : CtrlSignals) : SpiMaster.Driven :=
  { tx := signals.tx, txData := signals.txData, txDataValid := signals.txDataValid
    rx := signals.rx }

namespace SpiMaster

end SpiMaster

namespace SpiMaster

variable (master : SpiMaster) (input : MasterInput)

/-- The inputs of a cycle with the driven line wired to the line that is read.  It
changes in the middle of the cycle and is read at its end. -/
def looped : MasterInput :=
  { input with
    sdi := { input.sdi with sd1 := (master.txRx.sdoNext (master.txRxInput input)).sd0 } }

end SpiMaster

/-- The master with `spi_sdo0` wired to `spi_sdi1`. -/
def loopbackMachine : Machine SpiMaster MasterInput where
  init := .reset
  step master input := master.step (master.looped input)

end CoreVMcu.Spi
