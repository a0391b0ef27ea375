import CoreVMcu.Clocked.Machine
import CoreVMcu.Clocked.Composition
import CoreVMcu.Clocked.Lanes
import CoreVMcu.Clocked.RingBuffer
import CoreVMcu.Clocked.GrayCode
import CoreVMcu.Clocked.AsyncFifo
import CoreVMcu.Clocked.Tokens
import CoreVMcu.Arbitration.PrefixArbiter
import CoreVMcu.Interconnect.Routing
import CoreVMcu.Interconnect.Demux
import CoreVMcu.Interconnect.Crossbar
import CoreVMcu.Soc.EventQueue
import CoreVMcu.Soc.EventGenerator
import CoreVMcu.Soc.EventDelivery
import CoreVMcu.DcFifo.TokenRing
import CoreVMcu.DcFifo.TokenRingProof
import CoreVMcu.Efpga.A2Fifo
import CoreVMcu.Efpga.A2Refinement
import CoreVMcu.Efpga.A2FifoCorrect
import CoreVMcu.Efpga.TcdmInterface
import CoreVMcu.Efpga.TcdmBridge
import CoreVMcu.Efpga.Apbt1Interface
import CoreVMcu.Efpga.Apbt1Bridge
import CoreVMcu.Clocked.CarrySave
import CoreVMcu.Efpga.BwMultiplier
import CoreVMcu.Efpga.Mac16Bit
import CoreVMcu.I2c.Control
import CoreVMcu.I2c.Reference
import CoreVMcu.I2c.Phases
import CoreVMcu.I2c.Interpreter
import CoreVMcu.I2c.Timing
import CoreVMcu.I2c.BusCtrl
import CoreVMcu.I2c.Handshake
import CoreVMcu.Udma.GenericFifo
import CoreVMcu.Udma.AddrGen
import CoreVMcu.Udma.L2Access
import CoreVMcu.Udma.TxChannels
import CoreVMcu.Udma.TxRealign
import CoreVMcu.Udma.TxPipeline
import CoreVMcu.Udma.TxTransfers
import CoreVMcu.Udma.TxDma
import CoreVMcu.Fc.InterruptLatch
import CoreVMcu.Udma.AddrGenClear
import CoreVMcu.Udma.StreamUnit
import CoreVMcu.Spi.Ctrl
import CoreVMcu.Spi.LoopStep
import CoreVMcu.Spi.Replay
import CoreVMcu.Spi.ReplayRun
import CoreVMcu.Spi.RepeatOnce
import CoreVMcu.Spi.TxRx
import CoreVMcu.Spi.FullDuplex
import CoreVMcu.Spi.Master
import CoreVMcu.Spi.LoopbackStep
import CoreVMcu.Spi.Loopback
import CoreVMcu.Uart.Tx
import CoreVMcu.Uart.Rx
import CoreVMcu.Uart.Frame
import CoreVMcu.Uart.TxFrame
import CoreVMcu.Uart.RxFrame
import CoreVMcu.Uart.Link
import CoreVMcu.Udma.RxChannels
import CoreVMcu.Udma.RxFraming
import CoreVMcu.Udma.StreamDelivery
import CoreVMcu.Interconnect.Lint2Axi
import CoreVMcu.Interconnect.Lint2AxiTransfers
import CoreVMcu.Spi.RxBackPressure
import CoreVMcu.Timer.AdvTimer
import CoreVMcu.Timer.AdvTimerUpdate
import CoreVMcu.Timer.Mode64
import CoreVMcu.Boot.Crc
import CoreVMcu.Boot.SRecord
import CoreVMcu.Boot.SRecordLoad
import CoreVMcu.Boot.UartSafety
import CoreVMcu.Boot.I2cProtocol
import CoreVMcu.Boot.FlashLoad
import CoreVMcu.Interconnect.InterleavedL2
import CoreVMcu.Interconnect.OneMemory
import CoreVMcu.Filter.Channels
import CoreVMcu.Filter.Modes
import CoreVMcu.I2s.Channels
import CoreVMcu.I2s.Loopback
import CoreVMcu.I2s.LoopsBack
import CoreVMcu.Arbitration.RoundRobin
import CoreVMcu.Clocked.ApbMaster
import CoreVMcu.Clocked.TwoRuns
import CoreVMcu.DcFifo.Contents
import CoreVMcu.I2c.ReceivedBytes
import CoreVMcu.I2cs.BusLevels
import CoreVMcu.I2cs.FifoReads
import CoreVMcu.I2cs.GlitchFilter
import CoreVMcu.I2cs.MessageFlag
import CoreVMcu.I2cs.ByteTransfer
import CoreVMcu.I2cs.SlaveProtocol
import CoreVMcu.Soc.ApbSocCtrl
import CoreVMcu.Soc.ControlRegisters
import CoreVMcu.Soc.ErrorRegisters
import CoreVMcu.Soc.RegisterMap
import CoreVMcu.Soc.RegisterRoundTrip
import CoreVMcu.Uart.Afresh
import CoreVMcu.Uart.Polling
import CoreVMcu.Udma.AddrGenCoverage
import CoreVMcu.Udma.TxFifo
import CoreVMcu.Clocked.CicFilter
import CoreVMcu.I2s.Decimation
import CoreVMcu.Clocked.ByteMemory
import CoreVMcu.Udma.RxDma
import CoreVMcu.Udma.RxPath
import CoreVMcu.Udma.TxPath
import CoreVMcu.Efpga.TcdmPorts
import CoreVMcu.Soc.Watchdog
import CoreVMcu.Spi.RegIf
import CoreVMcu.Clocked.Crc
import CoreVMcu.Sdio.Cmd
import CoreVMcu.Sdio.CmdFrame
import CoreVMcu.Sdio.Data
import CoreVMcu.Sdio.DataInvariant
import CoreVMcu.Sdio.DataWaits
import CoreVMcu.Sdio.DataBytes
import CoreVMcu.Sdio.WriteBlock
import CoreVMcu.Sdio.ReadBlock
import CoreVMcu.Sdio.ReadTransfer
import CoreVMcu.Spi.Completed
import CoreVMcu.Spi.Transfer
import CoreVMcu.Spi.Transmit
import CoreVMcu.Spi.TransmitExact
import CoreVMcu.Spi.Check
import CoreVMcu.Spi.CheckExact
import CoreVMcu.Timer.CounterRange
import CoreVMcu.Timer.PwmPeriod
import CoreVMcu.Timer.Shadow
import CoreVMcu.Timer.Independence
import CoreVMcu.Timer.Prescaler
import CoreVMcu.Sdio.BusyResponse
import CoreVMcu.Filter.Bincu
import CoreVMcu.Filter.Dataout
import CoreVMcu.Filter.FetchMarks
import CoreVMcu.Cdc.TwoPhase
import CoreVMcu.Cdc.EdgePropagator
import CoreVMcu.Debug.DmiJtag
import CoreVMcu.Cv32e40p.AluDiv
import CoreVMcu.Camera.OfferedPixels
import CoreVMcu.Clocked.BoundedQueue
import CoreVMcu.Udma.GenericFifoQueue
import CoreVMcu.I2cs.FifoQueue
import CoreVMcu.Interconnect.AmoShim
import CoreVMcu.Interconnect.AtomicRuns
import CoreVMcu.Efpga.TpramWrap
import CoreVMcu.Efpga.TpramRuns
import CoreVMcu.I2s.HandOver
import CoreVMcu.Gpio.ApbGpio
import CoreVMcu.Gpio.Independence
