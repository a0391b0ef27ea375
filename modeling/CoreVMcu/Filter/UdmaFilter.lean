import CoreVMcu.Filter.Channels

/-!
# The filter

`udma_filter` connects two fetching channels, a stream, the arithmetic unit, the
threshold unit and the channel that writes back, as the connection mode says.
-/

namespace CoreVMcu.Filter

open Udma

variable {aWidth transSize dataWidth : Nat}

/-- The signals that a connection mode selects. -/
structure Select where
  selOut : Bool
  selOutValid : Bool
  selBincu : Bool
  selBincuValid : Bool
  selOpa : Bool
  selOpaValid : Bool
  selOpbValid : Bool

/-- Nothing is selected unless a mode does so. -/
def Select.none : Select := ⟨false, false, false, false, false, false, false⟩

/-- The mode decoder. -/
def select (mode : BitVec 4) : Select :=
  match mode.toNat with
  | 0 =>
      { Select.none with
        selOpa := true, selOpaValid := true, selOpbValid := true, selOut := true
        selOutValid := true }
  | 1 =>
      { Select.none with
        selOpa := false, selOpaValid := true, selOpbValid := true, selOut := true
        selOutValid := true }
  | 2 =>
      { Select.none with selOpa := true, selOpaValid := true, selOut := true, selOutValid := true }
  | 3 =>
      { Select.none with selOpa := false, selOpaValid := true, selOut := true, selOutValid := true }
  | 4 =>
      { Select.none with
        selOpa := true, selOpaValid := true, selOpbValid := true, selBincu := true
        selBincuValid := true }
  | 5 =>
      { Select.none with
        selOpa := false, selOpaValid := true, selOpbValid := true, selBincu := true
        selBincuValid := true }
  | 6 =>
      { Select.none with
        selOpa := true, selOpaValid := true, selBincu := true, selBincuValid := true }
  | 7 =>
      { Select.none with
        selOpa := false, selOpaValid := true, selBincu := true, selBincuValid := true }
  | 8 =>
      { selOpa := true, selOpaValid := true, selOpbValid := true, selOut := false
        selOutValid := true, selBincu := true, selBincuValid := true }
  | 9 =>
      { selOpa := false, selOpaValid := true, selOpbValid := true, selOut := false
        selOutValid := true, selBincu := true, selBincuValid := true }
  | 10 =>
      { Select.none with
        selOpa := true, selOpaValid := true, selOut := false, selOutValid := true
        selBincu := true, selBincuValid := true }
  | 11 =>
      { Select.none with
        selOpa := false, selOpaValid := true, selOut := false, selOutValid := true
        selBincu := true, selBincuValid := true }
  | 12 => { Select.none with selBincu := false, selBincuValid := true }
  | 13 =>
      { Select.none with
        selOut := false, selOutValid := true, selBincu := false, selBincuValid := true }
  | _ => .none

/-- A flag for each of the three L2 channels. -/
@[ext] structure ChannelFlags where
  cha : Bool
  chb : Bool
  out : Bool
  deriving DecidableEq

namespace ChannelFlags

def zero : ChannelFlags := ⟨false, false, false⟩

/-- Flags that are set stay set. -/
def set (flags set : ChannelFlags) : ChannelFlags :=
  ⟨flags.cha || set.cha, flags.chb || set.chb, flags.out || set.out⟩

/-- The flags of the channels that are used are set. -/
def covers (flags used : ChannelFlags) : Bool :=
  (flags.cha || !used.cha) && (flags.chb || !used.chb) && (flags.out || !used.out)

end ChannelFlags

/-- The registers of `udma_filter` and of the units in it that take part in a transfer. -/
structure UdmaFilter (aWidth transSize dataWidth : Nat) where
  regIf : RegIf aWidth transSize
  cha : TxDatafetch aWidth transSize dataWidth
  chb : TxDatafetch aWidth transSize dataWidth
  out : RxDataout aWidth transSize dataWidth
  rStatus : ChannelFlags
  rDone : Bool

/-- The inputs of the filter in a cycle, with the outputs of the arithmetic unit and of
the threshold unit. -/
structure FilterInput (dataWidth : Nat) where
  write : CfgWrite
  txCh0Gnt : Bool
  txCh0Valid : Bool
  txCh0Data : BitVec dataWidth
  txCh1Gnt : Bool
  txCh1Valid : Bool
  txCh1Data : BitVec dataWidth
  rxChReady : Bool
  operandaReady : Bool
  operandbReady : Bool
  auOutValid : Bool
  auOutData : BitVec dataWidth
  bincuOutValid : Bool
  bincuOutData : BitVec dataWidth

namespace UdmaFilter

variable (filter : UdmaFilter aWidth transSize dataWidth) (input : FilterInput dataWidth)

def reset : UdmaFilter aWidth transSize dataWidth where
  regIf := .reset
  cha := .reset
  chb := .reset
  out := .reset
  rStatus := .zero
  rDone := false

/-- `cfg_filter_mode_o` decoded. -/
def selected : Select := select filter.regIf.rCommit.mode

/-- The channels whose status counts. -/
def used : ChannelFlags :=
  ⟨filter.selected.selOpaValid, filter.selected.selOpbValid, filter.selected.selOutValid⟩

/-- `s_start_cha`. -/
def startCha : Bool := filter.regIf.filterStart && filter.selected.selOpaValid

/-- `s_start_chb`. -/
def startChb : Bool := filter.regIf.filterStart && filter.selected.selOpbValid

/-- `s_start_out`. -/
def startOut : Bool := filter.regIf.filterStart && filter.selected.selOutValid

/-- What channel A gets from L2 and from the arithmetic unit. -/
def chaInput : FetchInput dataWidth where
  gnt := input.txCh0Gnt
  valid := input.txCh0Valid
  data := input.txCh0Data
  streamReady := filter.selected.selOpaValid && filter.selected.selOpa && input.operandaReady

/-- What channel B gets. -/
def chbInput : FetchInput dataWidth where
  gnt := input.txCh1Gnt
  valid := input.txCh1Valid
  data := input.txCh1Data
  streamReady := input.operandbReady

/-- What the output channel gets. -/
def outInput : DataoutInput dataWidth where
  ready := input.rxChReady
  streamValid :=
    filter.selected.selOutValid &&
      if filter.selected.selOut then input.auOutValid else input.bincuOutValid
  streamData := if filter.selected.selOut then input.auOutData else input.bincuOutData

/-- `s_done_cha`, `s_done_chb` and `s_done_out`. -/
def channelsDone : ChannelFlags where
  cha := filter.cha.done filter.regIf.rCommit.txCh0 (filter.chaInput input)
  chb := filter.chb.done filter.regIf.rCommit.txCh1 (chbInput input)
  out := filter.out.done filter.regIf.rCommit.rxCh (filter.outInput input)

/-- `s_done`: the channels that are off count as done. -/
def done : Bool := filter.rStatus.covers filter.used

/-- `eot_event_o`. -/
def eotEvent : Bool := filter.done && !filter.rDone

/-- One clock edge. -/
def step : UdmaFilter aWidth transSize dataWidth where
  regIf := filter.regIf.step filter.eotEvent input.write
  cha := filter.cha.step filter.regIf.rCommit.txCh0 filter.startCha (filter.chaInput input)
  chb := filter.chb.step filter.regIf.rCommit.txCh1 filter.startChb (chbInput input)
  out := filter.out.step filter.regIf.rCommit.rxCh filter.startOut (filter.outInput input)
  rStatus :=
    if filter.regIf.filterStart then .zero else filter.rStatus.set (filter.channelsDone input)
  rDone := filter.done

end UdmaFilter

end CoreVMcu.Filter
