import Mathlib.Data.BitVec

/-!
# The I2S channels

`i2s_tx_channel` shifts words out after an edge of the word select,
`i2s_rx_channel` shifts them in and hands them over.  Both count the bits of a word.
The registers change with the rising edge of the clock, the lines with the falling one.
-/

namespace CoreVMcu.I2s

/-- The configuration of the channels. -/
structure I2sCfg where
  twoCh : Bool
  wlen : BitVec 5
  lsbFirst : Bool

/-- `r_state` of the transmitter. -/
inductive TxState
  | start
  | sample
  | wait
  | running
  deriving DecidableEq

/-- The registers of `i2s_tx_channel`. -/
structure TxChannel where
  rState : TxState
  rWsSync : Bool × Bool
  rShiftregCh0 : BitVec 32
  rShiftregCh1 : BitVec 32
  rShiftregShadow : BitVec 32
  rCountBit : BitVec 5
  i2sCh0 : Bool
  i2sCh1 : Bool

namespace TxChannel

variable (cfg : I2sCfg) (tx : TxChannel)

def reset : TxChannel := ⟨.start, (false, false), 0, 0, 0, 0, false, false⟩

/-- `s_ws_edge`. -/
def wsEdge (ws : Bool) : Bool := ws ^^ tx.rWsSync.1

/-- `s_word_done`. -/
def wordDone : Bool := tx.rCountBit == cfg.wlen

/-- `s_word_done_pre`. -/
def wordDonePre : Bool := tx.rCountBit.toNat + 1 == cfg.wlen.toNat

/-- `fifo_data_ready_o`. -/
def fifoDataReady (fifoDataValid : Bool) : Bool :=
  match tx.rState with
  | .start => fifoDataValid
  | .sample => fifoDataValid
  | .wait => false
  | .running => tx.wordDonePre cfg && cfg.twoCh || tx.wordDone cfg

/-- A shift register moves to its next bit. -/
def shiftOut (shiftreg : BitVec 32) : BitVec 32 :=
  if cfg.lsbFirst then shiftreg >>> 1 else shiftreg <<< 1

/-- `s_shiftreg_ch0` while running. -/
def shiftregCh0 (fifoData : BitVec 32) : BitVec 32 :=
  if tx.wordDone cfg then if cfg.twoCh then tx.rShiftregShadow else fifoData
  else shiftOut cfg tx.rShiftregCh0

/-- `s_shiftreg_ch1` while running. -/
def shiftregCh1 (fifoData : BitVec 32) : BitVec 32 :=
  if tx.wordDone cfg then fifoData else shiftOut cfg tx.rShiftregCh1

/-- What `proc_SM` does at a rising edge. -/
def machineStep (ws fifoDataValid : Bool) (fifoData : BitVec 32) : TxChannel :=
  match tx.rState with
  | .start => if fifoDataValid then { tx with rShiftregCh0 := fifoData, rState := .sample } else tx
  | .sample => if fifoDataValid then { tx with rShiftregCh1 := fifoData, rState := .wait } else tx
  | .wait => if tx.wsEdge ws then { tx with rState := .running } else tx
  | .running =>
      { tx with
        rShiftregCh0 := tx.shiftregCh0 cfg fifoData
        rShiftregCh1 := if cfg.twoCh then tx.shiftregCh1 cfg fifoData else tx.rShiftregCh1
        rShiftregShadow :=
          if tx.wordDonePre cfg && cfg.twoCh then fifoData else tx.rShiftregShadow
        rCountBit := if tx.wordDone cfg then 0 else tx.rCountBit + 1 }

/-- The rising edge of the clock. -/
def posedge (ws fifoDataValid : Bool) (fifoData : BitVec 32) : TxChannel :=
  { tx.machineStep cfg ws fifoDataValid fifoData with rWsSync := (ws, tx.rWsSync.1) }

/-- The bit of a shift register that is sent. -/
def bitOut (shiftreg : BitVec 32) : Bool :=
  if cfg.lsbFirst then shiftreg.getLsbD 0 else shiftreg.getLsbD cfg.wlen.toNat

/-- The falling edge of the clock. -/
def negedge : TxChannel :=
  { tx with i2sCh0 := bitOut cfg tx.rShiftregCh0, i2sCh1 := bitOut cfg tx.rShiftregCh1 }

end TxChannel

/-! ## The receiver -/

/-- The registers of `i2s_rx_channel`. -/
structure RxChannel where
  rWsOld : Bool
  rStarted : Bool
  rStartedDly : Bool
  rShiftregCh0 : BitVec 32
  rShiftregCh1 : BitVec 32
  rShiftregCh0Shadow : BitVec 32
  rShiftregCh1Shadow : BitVec 32
  rCountBit : BitVec 5
  rCh0Valid : Bool
  rCh1Valid : Bool

namespace RxChannel

variable (cfg : I2sCfg) (rx : RxChannel)

def reset : RxChannel := ⟨false, false, false, 0, 0, 0, 0, 0, false, false⟩

/-- `s_ws_edge`. -/
def wsEdge (ws : Bool) : Bool := ws ^^ rx.rWsOld

/-- `s_word_done`. -/
def wordDone : Bool := rx.rCountBit == cfg.wlen

/-- `fifo_data_valid_o`. -/
def fifoDataValid : Bool := rx.rCh0Valid || rx.rCh1Valid

/-- `fifo_data_o`. -/
def fifoData : BitVec 32 :=
  if rx.rCh0Valid then rx.rShiftregCh0Shadow
  else if rx.rCh1Valid then rx.rShiftregCh1Shadow
  else 0

/-- A shift register takes a bit. -/
def shiftIn (shiftreg : BitVec 32) (bit : Bool) : BitVec 32 :=
  if cfg.lsbFirst then
    (shiftreg >>> 1) &&& ~~~(1#32 <<< cfg.wlen.toNat) |||
      (BitVec.ofBool bit).setWidth 32 <<< cfg.wlen.toNat
  else shiftreg <<< 1 ||| (BitVec.ofBool bit).setWidth 32

/-- A word has been received. -/
def captures : Bool := rx.rStartedDly && rx.wordDone cfg

/-- `r_ch0_valid` unless the word is handed over. -/
def ch0ValidSet : Bool := rx.captures cfg || rx.rCh0Valid

/-- `r_ch1_valid` unless the word is handed over. -/
def ch1ValidSet : Bool := rx.captures cfg && cfg.twoCh || rx.rCh1Valid

/-- The rising edge of the clock. -/
def posedge (cfgEn ch0 ch1 ws fifoDataReady : Bool) : RxChannel where
  rWsOld := ws
  rStarted := if rx.wsEdge ws then cfgEn else rx.rStarted
  rStartedDly := rx.rStarted
  rShiftregCh0 := if rx.rStartedDly then shiftIn cfg rx.rShiftregCh0 ch0 else rx.rShiftregCh0
  rShiftregCh1 :=
    if rx.rStartedDly && cfg.twoCh then shiftIn cfg rx.rShiftregCh1 ch1 else rx.rShiftregCh1
  rShiftregCh0Shadow := if rx.captures cfg then rx.rShiftregCh0 else rx.rShiftregCh0Shadow
  rShiftregCh1Shadow :=
    if rx.captures cfg && cfg.twoCh then rx.rShiftregCh1 else rx.rShiftregCh1Shadow
  rCountBit :=
    if rx.rStartedDly then if rx.wordDone cfg then 0 else rx.rCountBit + 1 else rx.rCountBit
  rCh0Valid := if rx.rCh0Valid && fifoDataReady then false else rx.ch0ValidSet cfg
  -- the last `else` belongs to the test of `fifo_data_ready_i`, so no word of channel 1
  -- is ever marked as handed over
  rCh1Valid :=
    if rx.rCh0Valid then
      if fifoDataReady then rx.ch1ValidSet cfg
      else if rx.rCh1Valid then if fifoDataReady then false else rx.ch1ValidSet cfg
      else rx.ch1ValidSet cfg
    else rx.ch1ValidSet cfg

end RxChannel

/-! ## The word select -/

/-- `pulp_sync` with two stages. -/
structure PulpSync where
  rReg : Bool × Bool

namespace PulpSync

def reset : PulpSync := ⟨(false, false)⟩

def step (serialIn : Bool) (sync : PulpSync) : PulpSync := ⟨(serialIn, sync.rReg.1)⟩

/-- `serial_o`. -/
def serialOut (sync : PulpSync) : Bool := sync.rReg.2

end PulpSync

/-- The registers of `i2s_ws_gen`. -/
structure WsGen where
  rCounter : BitVec 5
  rWordCounter : BitVec 3
  ws : Bool

namespace WsGen

variable (wsGen : WsGen) (wsEn : Bool) (dataSize : BitVec 5) (wordNum : BitVec 3)

def reset : WsGen := ⟨0, 0, false⟩

/-- The rising edge of the clock. -/
def posedge : WsGen :=
  if wsEn then
    if wsGen.rCounter = dataSize then
      { wsGen with
        rCounter := 0
        rWordCounter := if wsGen.rWordCounter = wordNum then 0 else wsGen.rWordCounter + 1 }
    else { wsGen with rCounter := wsGen.rCounter + 1 }
  else wsGen

/-- The falling edge of the clock. -/
def negedge : WsGen :=
  if wsEn && wsGen.rCounter == dataSize && wsGen.rWordCounter == wordNum then
    { wsGen with ws := !wsGen.ws }
  else wsGen

end WsGen

end CoreVMcu.I2s
