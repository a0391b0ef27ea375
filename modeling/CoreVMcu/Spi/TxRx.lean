import CoreVMcu.Spi.Ctrl

/-!
# The SPI serializer

`udma_spim_txrx` shifts words out of and into the data lines.  Its two state machines
share the counters of bits, words and transfers, the offset of a word inside its 32
bits and the setup of the transfer; where both of them drive one, the transmitter wins.
-/

namespace CoreVMcu.Spi

/-- `tx_state`. -/
inductive TxState where
  | idle
  | send
  | waitData
  deriving DecidableEq, Repr

/-- `rx_state`. -/
inductive RxState where
  | idle
  | receive
  deriving DecidableEq, Repr

/-- Who drives the data lines. -/
inductive SpiMode where
  | std
  | quadTx
  | quadRx
  deriving DecidableEq, Repr

/-- The four data lines. -/
structure DataLines where
  sd0 : Bool
  sd1 : Bool
  sd2 : Bool
  sd3 : Bool
  deriving DecidableEq, Repr

/-- Registers of `udma_spim_txrx`.  The lines and the mode change at the falling edge
of the clock, all the others at the rising one. -/
structure TxRx where
  txState : TxState
  rxState : RxState
  txIsLast : Bool
  rxIsLast : Bool
  txShiftReg : BitVec 32
  rxShiftReg : BitVec 32
  counterHi : BitVec 16
  counterBits : BitVec 5
  counterTransf : BitVec 2
  rxClken : Bool
  isFul : Bool
  lsbfirst : Bool
  bitsword : BitVec 5
  wordtransf : BitVec 2
  bitOffset : BitVec 5
  sdo : DataLines
  spiMode : SpiMode

/-- Inputs of a cycle; the ready of the receiver is not looked at. -/
structure TxRxInput where
  tx : TransferSetup
  txData : BitVec 32
  txDataValid : Bool
  rx : TransferSetup
  sdi : DataLines

/-- What the transmitter drives in a cycle. -/
structure TxSignals where
  stateNext : TxState
  dataReady : Bool
  done : Bool
  clken : Bool
  sampleIn : Bool
  shiftReg : BitVec 32
  driving : Bool
  mode : SpiMode
  idle : Bool
  isLast : Bool
  counterHi : BitVec 16
  counterBits : BitVec 5
  counterTransf : BitVec 2
  sampleHi : Bool
  sampleBits : Bool
  sampleTransf : Bool

/-- What the receiver drives in a cycle. -/
structure RxSignals where
  stateNext : RxState
  clken : Bool
  done : Bool
  data : BitVec 32
  dataValid : Bool
  mode : SpiMode
  sampleIn : Bool
  shiftReg : BitVec 32
  idle : Bool
  isLast : Bool
  counterHi : BitVec 16
  counterBits : BitVec 5
  counterTransf : BitVec 2
  sampleHi : Bool
  sampleBits : Bool
  sampleTransf : Bool

/-- A word with one of its bits assigned; an index outside it assigns nothing. -/
def setBit (word : BitVec 32) (index : Nat) (bit : Bool) : BitVec 32 :=
  if bit then word ||| 1#32 <<< index else word &&& ~~~(1#32 <<< index)

theorem getLsbD_setBit (word : BitVec 32) (index : Nat) (bit : Bool) (other : Nat) :
    (setBit word index bit).getLsbD other =
      if other = index ∧ index < 32 then bit else word.getLsbD other := by
  have shifted : (1#32 <<< index).getLsbD other = decide (other = index ∧ index < 32) := by
    simp only [BitVec.getLsbD_shiftLeft, BitVec.getLsbD_one]
    grind
  cases bit with
  | false =>
      rw [setBit, if_neg (by decide), BitVec.getLsbD_and, BitVec.getLsbD_not, shifted]
      cases Nat.lt_or_ge other 32 with
      | inl inside =>
          rw [decide_eq_true inside, Bool.true_and]
          split <;> simp [*]
      | inr outside => simp [outside]
  | true =>
      rw [setBit, if_pos rfl, BitVec.getLsbD_or, shifted]
      split <;> simp [*]

/-- The value of `s_tx_counter_bits` and `s_rx_counter_bits` at the first bit of a word. -/
def firstBit (qpi : Bool) : BitVec 5 := if qpi then 3 else 0

/-- The number of bits in a cycle. -/
def bitsPerCycle (qpi : Bool) : BitVec 5 := if qpi then 4 else 1

/-- `tx_size_i` and `rx_size_i` as they are counted down. -/
def sizeCount (size : BitVec 16) : BitVec 16 := if size = 0 then 0 else size - 1

namespace TxRx

/-- The registers after reset. -/
def reset : TxRx :=
  { txState := .idle, rxState := .idle, txIsLast := false, rxIsLast := false, txShiftReg := 0
    rxShiftReg := 0, counterHi := 0, counterBits := 0, counterTransf := 0, rxClken := false
    isFul := false, lsbfirst := false, bitsword := 0, wordtransf := 0, bitOffset := 0
    sdo := ⟨false, false, false, false⟩, spiMode := .std }

variable (txRx : TxRx) (input : TxRxInput)

/-- `s_is_ful`: both directions are in use. -/
def fullDuplex : Bool := (input.tx.start && input.rx.start) || txRx.isFul

/-- `s_bits_done`. -/
def bitsDone : Bool := txRx.counterBits == txRx.bitsword

/-- `s_transf_done`. -/
def transfDone : Bool := txRx.counterTransf == txRx.wordtransf

/-- `s_bit_offset_add`: the distance of the words of a transfer. -/
def bitOffsetAdd : BitVec 5 :=
  match txRx.wordtransf.toNat with
  | 0 => 0x0
  | 1 => 0x10
  | _ => 0x8

/-- `s_bit_index`. -/
def bitIndex : BitVec 5 :=
  if txRx.lsbfirst then txRx.bitOffset + txRx.counterBits
  else txRx.bitOffset + txRx.bitsword - txRx.counterBits

/-- The counter of bits after a bit, or after four of them. -/
def nextBits (qpi : Bool) : BitVec 5 :=
  if txRx.bitsDone then firstBit qpi else txRx.counterBits + bitsPerCycle qpi

/-- The counter of the words of a transfer after a word. -/
def nextTransf : BitVec 2 := if txRx.transfDone then 0 else txRx.counterTransf + 1

/-! ## The data lines -/

/-- `s_tx_idle`. -/
def txIdle : Bool := txRx.txState == .idle && !input.tx.start

/-- A bit of the transmitted word, counted from a lane of the bit index.  The index is
computed in 32 bits; a bit outside the word is read as zero. -/
def sentBit (lane back : BitVec 32) : Bool :=
  txRx.txShiftReg.getLsbD (txRx.bitIndex.setWidth 32 + lane - back).toNat

/-- `s_spi_sdo`. -/
def drivenLines : DataLines :=
  if txRx.txIdle input then ⟨false, false, false, false⟩
  else if input.tx.qpi then
    let back := if txRx.lsbfirst then 3 else 0
    ⟨txRx.sentBit 0 back, txRx.sentBit 1 back, txRx.sentBit 2 back, txRx.sentBit 3 back⟩
  else ⟨txRx.txShiftReg.getLsbD txRx.bitIndex.toNat, false, false, false⟩

/-- The lines after the falling edge of a cycle: lanes 1 to 3 keep their value unless
four lanes are driven. -/
def sdoNext : DataLines :=
  let driven := txRx.drivenLines input
  if input.tx.qpi then driven else { txRx.sdo with sd0 := driven.sd0 }

/-- `s_data_rx`. -/
def dataRx : BitVec 32 :=
  let index := txRx.bitIndex.toNat
  if input.rx.qpi then
    setBit (setBit (setBit (setBit txRx.rxShiftReg index input.sdi.sd0)
      (index + 1) input.sdi.sd1) (index + 2) input.sdi.sd2) (index + 3) input.sdi.sd3
  else setBit txRx.rxShiftReg index input.sdi.sd1

/-! ## The transmitter -/

/-- What the transmitter drives unless a state says otherwise. -/
def txDefaults : TxSignals :=
  { stateNext := txRx.txState, dataReady := false, done := false, clken := false
    sampleIn := false, shiftReg := txRx.txShiftReg, driving := false, mode := .quadRx
    idle := false, isLast := txRx.txIsLast, counterHi := txRx.counterHi
    counterBits := txRx.counterBits, counterTransf := txRx.counterTransf, sampleHi := false
    sampleBits := false, sampleTransf := false }

/-- The next data word is taken if it is there, and waited for otherwise. -/
def load (signals : TxSignals) : TxSignals :=
  if input.txDataValid then
    { signals with dataReady := true, stateNext := .send, shiftReg := input.txData }
  else { signals with stateNext := .waitData }

/-- The mode while the transmitter sends. -/
def sendMode : SpiMode := if input.tx.qpi then .quadTx else .std

/-- `TX_IDLE`. -/
def txWaiting : TxSignals :=
  if input.tx.start then
    load input
      { txRx.txDefaults with
        counterBits := firstBit input.tx.qpi, sampleBits := true
        isLast := decide (input.tx.size = 0), driving := true, sampleIn := true }
  else { txRx.txDefaults with idle := true }

/-- `TX_SEND`. -/
def txSending : TxSignals :=
  let sending :=
    { txRx.txDefaults with
      driving := true, clken := true, mode := sendMode input, sampleBits := true
      counterBits := txRx.nextBits input.tx.qpi, sampleTransf := txRx.bitsDone
      counterTransf := if txRx.bitsDone then txRx.nextTransf else txRx.counterTransf }
  if txRx.bitsDone && txRx.counterHi == 0 then
    if txRx.txIsLast then
      let finished := { sending with isLast := false, done := true }
      if input.tx.start then load input { finished with sampleIn := true }
      else { finished with stateNext := .idle }
    else
      let lastWord := { sending with isLast := true }
      if txRx.transfDone then load input lastWord else lastWord
  else if txRx.bitsDone then
    let nextWord := { sending with sampleHi := true, counterHi := txRx.counterHi - 1 }
    if txRx.transfDone then load input nextWord else nextWord
  else sending

/-- `TX_WAIT_DATA`. -/
def txWaitData : TxSignals :=
  let waiting := { txRx.txDefaults with driving := true, mode := sendMode input }
  if input.txDataValid then
    { waiting with dataReady := true, stateNext := .send, shiftReg := input.txData }
  else waiting

/-- The combinational part of the transmitter. -/
def txSignals : TxSignals :=
  match txRx.txState with
  | .idle => txRx.txWaiting input
  | .send => txRx.txSending input
  | .waitData => txRx.txWaitData input

/-- What the receiver drives unless a state says otherwise. -/
def rxDefaults : RxSignals :=
  { stateNext := txRx.rxState, clken := false, done := false, data := 0, dataValid := false
    mode := .quadRx, sampleIn := false, shiftReg := txRx.rxShiftReg, idle := false
    isLast := txRx.rxIsLast, counterHi := txRx.counterHi, counterBits := txRx.counterBits
    counterTransf := txRx.counterTransf, sampleHi := false, sampleBits := false
    sampleTransf := false }

/-- The mode while the receiver receives. -/
def receiveMode : SpiMode := if input.rx.qpi then .quadRx else .std

/-- `RX_IDLE`. -/
def rxWaiting : RxSignals :=
  if input.rx.start then
    { txRx.rxDefaults with
      mode := receiveMode input, sampleIn := true, stateNext := .receive
      counterBits := firstBit input.rx.qpi, sampleBits := true
      isLast := decide (input.rx.size = 0) }
  else { txRx.rxDefaults with idle := true }

/-- `RX_RECEIVE`: with both directions in use the receiver follows the clock of the
transmitter. -/
def rxReceiving : RxSignals :=
  let receiving :=
    { txRx.rxDefaults with
      mode := receiveMode input, clken := true, sampleBits := true
      shiftReg := txRx.dataRx input }
  if !txRx.fullDuplex input || (txRx.txSignals input).clken then
    let counting := { receiving with counterBits := txRx.nextBits input.rx.qpi }
    if txRx.rxClken && txRx.bitsDone then
      let word :=
        { counting with
          sampleTransf := true
          counterTransf := txRx.nextTransf
          data := if txRx.transfDone then txRx.dataRx input else 0
          dataValid := txRx.transfDone }
      if txRx.counterHi = 0 then
        if txRx.rxIsLast then
          let finished := { word with isLast := false, done := true }
          if input.rx.start then { finished with sampleIn := true, stateNext := .receive }
          else { finished with stateNext := .idle }
        else { word with isLast := true }
      else { word with sampleHi := true, counterHi := txRx.counterHi - 1 }
    else counting
  else receiving

/-- The combinational part of the receiver. -/
def rxSignals : RxSignals :=
  match txRx.rxState with
  | .idle => txRx.rxWaiting input
  | .receive => txRx.rxReceiving input

/-- `s_clken`: the clock of the lines runs. -/
def clken : Bool :=
  if txRx.fullDuplex input then (txRx.txSignals input).clken
  else (txRx.txSignals input).clken || (txRx.rxSignals input).clken

/-- The setup of the transfer is taken from the direction that starts one. -/
def sampled {Field : Type} (field : TransferSetup → Field) (kept : Field) : Field :=
  if (txRx.txSignals input).sampleIn then field input.tx
  else if (txRx.rxSignals input).sampleIn then field input.rx
  else kept

/-- The counter of words after a clock edge, unless a transfer starts. -/
def countedHi : BitVec 16 :=
  if (txRx.txSignals input).sampleHi then (txRx.txSignals input).counterHi
  else if (txRx.rxSignals input).sampleHi then (txRx.rxSignals input).counterHi
  else txRx.counterHi

/-- One clock edge. -/
def step : TxRx :=
  let tx := txRx.txSignals input
  let rx := txRx.rxSignals input
  { txState := tx.stateNext
    rxState := rx.stateNext
    txIsLast := tx.isLast
    rxIsLast := rx.isLast
    txShiftReg := tx.shiftReg
    rxShiftReg := rx.shiftReg
    counterHi :=
      txRx.sampled input (fun setup => sizeCount setup.size) (txRx.countedHi input)
    counterBits :=
      if tx.sampleBits then tx.counterBits
      else if rx.sampleBits then rx.counterBits
      else txRx.counterBits
    counterTransf :=
      if tx.sampleTransf then tx.counterTransf
      else if rx.sampleTransf then rx.counterTransf
      else txRx.counterTransf
    rxClken := rx.clken
    isFul :=
      if input.tx.start && input.rx.start then true
      else if tx.idle && rx.idle then false
      else txRx.isFul
    lsbfirst := txRx.sampled input TransferSetup.lsbfirst txRx.lsbfirst
    bitsword := txRx.sampled input TransferSetup.bitsword txRx.bitsword
    wordtransf := txRx.sampled input TransferSetup.wordtransf txRx.wordtransf
    bitOffset :=
      if input.tx.start || input.rx.start then 0
      else if tx.sampleTransf || rx.sampleTransf then txRx.bitOffset + txRx.bitOffsetAdd
      else txRx.bitOffset
    sdo := txRx.sdoNext input
    spiMode := if tx.driving then tx.mode else rx.mode }

end TxRx

end CoreVMcu.Spi
