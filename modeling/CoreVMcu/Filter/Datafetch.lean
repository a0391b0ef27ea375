import CoreVMcu.Clocked.Machine
import CoreVMcu.Clocked.Transfers
import CoreVMcu.Filter.Walks

/-!
# Fetching an operand

`udma_filter_tx_datafetch` requests the words of an operand from the addresses of its mode.  It
knows at the grant whether a word is the first or the last one of a window, and
`io_tx_fifo_mark` has to attach these marks to the responses.  The FIFO keeps the number of the
outstanding request with the mark: one number for the first words and one for the last words.
-/

namespace CoreVMcu.Filter

open Clocked Udma

variable {aWidth transSize dataWidth : Nat}

/-! ## The elements of the modes -/

/-- An element of an operand: its address, and whether it is the first or the last one of its
window. -/
structure FetchElement (aWidth : Nat) where
  address : BitVec aWidth
  sof : Bool
  eof : Bool

/-- The marks of an element. -/
def FetchElement.marks (element : FetchElement aWidth) : Bool × Bool := (element.sof, element.eof)

namespace ChannelCfg

variable (cfg : ChannelCfg aWidth transSize)

/-- The number of elements: one row in the linear mode, `len1 + 1` windows or rows otherwise. -/
def fetchCount : Nat :=
  if cfg.mode = 0 then cfg.len0.toNat + 1 else (cfg.len0.toNat + 1) * (cfg.len1.toNat + 1)

/-- The address of an element. -/
def fetchAddress (k : Nat) : BitVec aWidth :=
  let w := k % (cfg.len0.toNat + 1)
  let l := k / (cfg.len0.toNat + 1)
  if cfg.mode = 0 then cfg.startAddr + BitVec.ofNat aWidth k * cfg.wordStep
  else if cfg.mode = 1 then
    -- a sliding window
    cfg.startAddr + BitVec.ofNat aWidth (l + w) * cfg.wordStep
  else if cfg.mode = 2 then
    -- the same window in each pass
    cfg.startAddr + BitVec.ofNat aWidth w * cfg.wordStep
  else
    -- two-dimensional
    cfg.startAddr + BitVec.ofNat aWidth l * cfg.rowStep + BitVec.ofNat aWidth w * cfg.wordStep

/-- Each pass of the inner loop is a window. -/
def windowed : Bool := cfg.mode = 1 || cfg.mode = 2

/-- The element is the first one of its window. -/
def fetchSof (k : Nat) : Bool :=
  if cfg.windowed then k % (cfg.len0.toNat + 1) = 0 else k = 0

/-- The element is the last one of its window. -/
def fetchEof (k : Nat) : Bool :=
  if cfg.windowed then k % (cfg.len0.toNat + 1) = cfg.len0.toNat else k + 1 = cfg.fetchCount

def fetchElement (k : Nat) : FetchElement aWidth :=
  ⟨cfg.fetchAddress k, cfg.fetchSof k, cfg.fetchEof k⟩

/-- The elements of an operand. -/
def fetchElements : List (FetchElement aWidth) := (List.range cfg.fetchCount).map cfg.fetchElement

/-- The loops of an operand. -/
def fetchLoops : NestedLoops aWidth :=
  if cfg.mode = 0 then cfg.wordLoops 0 0
  else if cfg.mode = 1 then cfg.wordLoops cfg.wordStep cfg.len1.toNat
  else if cfg.mode = 2 then cfg.wordLoops 0 cfg.len1.toNat
  else cfg.wordLoops cfg.rowStep cfg.len1.toNat

end ChannelCfg

/-! ## The FIFO with marks -/

/-- A word as it leaves the FIFO. -/
structure FetchedWord (dataWidth : Nat) where
  data : BitVec dataWidth
  sof : Bool
  eof : Bool

/-- The marks of a word. -/
def FetchedWord.marks (word : FetchedWord dataWidth) : Bool × Bool := (word.sof, word.eof)

/-- `s_fifoin`. -/
def fifoIn (markEofEvt markSofEvt : Bool) (data : BitVec dataWidth) : BitVec (1 + 1 + dataWidth) :=
  BitVec.ofBool markEofEvt ++ BitVec.ofBool markSofEvt ++ data

/-- `data_o`, `sof_o` and `eof_o` of `s_fifoout`. -/
def fifoOut (word : BitVec (1 + 1 + dataWidth)) : FetchedWord dataWidth :=
  ⟨word.setWidth dataWidth, word.getLsbD dataWidth, word.getLsbD (dataWidth + 1)⟩

/-- A mark counter of `io_tx_fifo_mark` after a clock edge. -/
def markCntNext {Word : Type} (fifo : TxFifo 4 2 Word) (mark gnt validIn : Bool)
    (markCnt : BitVec 3) : BitVec 3 :=
  if mark then
    if (fifo.req && gnt) && (!validIn || !fifo.ready) then fifo.rInflight + 1
    else fifo.rInflight
  else if markCnt != 0 && (validIn && fifo.ready) then markCnt - 1
  else markCnt

/-- `udma_filter_tx_datafetch` with the marks of the first and last words. -/
structure MarkedFetch (aWidth transSize dataWidth : Nat) where
  fetch : TxDatafetch aWidth transSize (1 + 1 + dataWidth)
  rIssof : Bool
  rMarkSofCnt : BitVec 3
  rMarkEofCnt : BitVec 3

namespace MarkedFetch

variable (marked : MarkedFetch aWidth transSize dataWidth) (cfg : ChannelCfg aWidth transSize)
variable (cmdStart : Bool) (input : FetchInput dataWidth)

def reset : MarkedFetch aWidth transSize dataWidth := ⟨.reset, false, 0, 0⟩

/-- `s_mark_sof_evt`. -/
def markSofEvt : Bool :=
  marked.rMarkSofCnt == 1 && (input.valid && marked.fetch.fifo.ready)

/-- `s_mark_eof_evt`. -/
def markEofEvt : Bool :=
  marked.rMarkEofCnt == 1 && (input.valid && marked.fetch.fifo.ready)

/-- The response as it is stored, with its marks. -/
def stored : BitVec (1 + 1 + dataWidth) :=
  fifoIn (marked.markEofEvt input) (marked.markSofEvt input) input.data

/-- What the channel without the marks sees. -/
def fetchInput : FetchInput (1 + 1 + dataWidth) :=
  { gnt := input.gnt, valid := input.valid, data := marked.stored input
    streamReady := input.streamReady }

/-- A word is granted to the FIFO. -/
def granted : Bool := marked.fetch.granted (marked.fetchInput input)

/-- `s_is_sof`. -/
def isSof : Bool := marked.granted input && marked.rIssof

/-- `s_is_eof`. -/
def isEof : Bool :=
  marked.granted input &&
    if marked.fetch.rMode = 3 then marked.fetch.walk.isLast cfg
    else marked.fetch.walk.rPtnBufferW == cfg.len0

/-- `s_is_sof_next`. -/
def isSofNext : Bool :=
  marked.granted input && (marked.fetch.rMode = 1 || marked.fetch.rMode = 2) &&
    (marked.fetch.walk.rPtnBufferW == cfg.len0 && !marked.fetch.walk.isLast cfg)

/-- `cmd_done_o`. -/
def done : Bool := marked.fetch.done cfg (marked.fetchInput input)

/-- One clock edge. -/
def step : MarkedFetch aWidth transSize dataWidth where
  fetch := marked.fetch.step cfg cmdStart (marked.fetchInput input)
  rIssof :=
    if marked.fetch.starts cmdStart || marked.isSofNext cfg input then true
    else if marked.rIssof && marked.granted input then false
    else marked.rIssof
  rMarkSofCnt := markCntNext marked.fetch.fifo (marked.isSof input) input.gnt input.valid
    marked.rMarkSofCnt
  rMarkEofCnt := markCntNext marked.fetch.fifo (marked.isEof cfg input) input.gnt input.valid
    marked.rMarkEofCnt

end MarkedFetch

/-- What the channel sees in a cycle. -/
structure FetchCycle (aWidth transSize dataWidth : Nat) extends FetchInput dataWidth where
  cfg : ChannelCfg aWidth transSize
  cmdStart : Bool

/-- The channel from reset. -/
def fetchMachine (aWidth transSize dataWidth : Nat) :
    Machine (MarkedFetch aWidth transSize dataWidth) (FetchCycle aWidth transSize dataWidth) where
  init := .reset
  step marked cycle := marked.step cycle.cfg cycle.cmdStart cycle.toFetchInput

section Runs

variable (schedule : Nat → FetchCycle aWidth transSize dataWidth)

/-- The registers in a cycle. -/
def fetchAt (n : Nat) : MarkedFetch aWidth transSize dataWidth :=
  (fetchMachine aWidth transSize dataWidth).run (inputsUpTo schedule n)

/-- The channel is done in a cycle. -/
def fetchDone (n : Nat) : Bool :=
  (fetchAt schedule n).done (schedule n).cfg (schedule n).toFetchInput

/-- A transfer starts in a cycle. -/
def fetchStarts (n : Nat) : Bool := (fetchAt schedule n).fetch.starts (schedule n).cmdStart

/-- The addresses granted before a cycle. -/
def grantedBefore : Nat → List (BitVec aWidth)
  | 0 => []
  | n + 1 => grantedBefore n ++
      if (fetchAt schedule n).fetch.req && (schedule n).gnt then
        [(fetchAt schedule n).fetch.walk.rLocPointer]
      else []

/-- The responses before a cycle. -/
def respondedBefore : Nat → List (BitVec dataWidth)
  | 0 => []
  | n + 1 => respondedBefore n ++ if (schedule n).valid then [(schedule n).data] else []

/-- The words delivered on the stream before a cycle. -/
def deliveredBefore : Nat → List (FetchedWord dataWidth)
  | 0 => []
  | n + 1 => deliveredBefore n ++
      if (schedule n).streamReady && (fetchAt schedule n).fetch.fifo.fifo.valid then
        [fifoOut (fetchAt schedule n).fetch.fifo.fifo.data]
      else []

/-- The elements programmed by the starts before a cycle. -/
def elementsBefore : Nat → List (FetchElement aWidth)
  | 0 => []
  | n + 1 => elementsBefore n ++
      if fetchStarts schedule n then (schedule n).cfg.fetchElements else []

/-- L2 grants only what is requested and responds only to what has been granted before, and the
configuration is kept until the transfer is done. -/
structure Served : Prop where
  granted : ∀ n, (schedule n).gnt = true → (fetchAt schedule n).fetch.req = true
  responded : ∀ n, (schedule n).valid = true →
    (respondedBefore schedule n).length < (grantedBefore schedule n).length
  kept : ∀ n, (fetchAt schedule (n + 1)).fetch.running = true →
    (schedule (n + 1)).cfg = (schedule n).cfg

/-- Each start requests the elements of its mode in order and ends with the grant of the last
one, and the stream delivers the responses in order with the marks of their elements. -/
structure FetchesOperand : Prop where
  inOrder : ∀ n, grantedBefore schedule n <+:
    (elementsBefore schedule n).map FetchElement.address
  complete : ∀ n, (fetchAt schedule n).fetch.running = false ↔
    grantedBefore schedule n = (elementsBefore schedule n).map FetchElement.address
  doneOnce : ∀ n, (List.range n).countP (fetchDone schedule) +
    (fetchAt schedule n).fetch.running.toNat = (List.range n).countP (fetchStarts schedule)
  doneLast : ∀ n, fetchDone schedule n = true →
    grantedBefore schedule (n + 1) = (elementsBefore schedule n).map FetchElement.address
  words : ∀ n, (deliveredBefore schedule n).map FetchedWord.data <+: respondedBefore schedule n
  offered : ∀ n, (fetchAt schedule n).fetch.fifo.fifo.valid = true ↔
    (deliveredBefore schedule n).length < (respondedBefore schedule n).length
  marks : ∀ n, (deliveredBefore schedule n).map FetchedWord.marks <+:
    (elementsBefore schedule n).map FetchElement.marks

/-- The elements that have been granted and not been answered. -/
def outstanding (n : Nat) : List (FetchElement aWidth) :=
  ((elementsBefore schedule n).take (grantedBefore schedule n).length).drop
    (respondedBefore schedule n).length

/-- Of the outstanding elements the oldest one is not a first one with another first one behind
it, and not a last one with another last one behind it. -/
def MarksApart : List (FetchElement aWidth) → Prop
  | [] => True
  | element :: later =>
      (element.sof = true → ∀ other ∈ later, other.sof = false) ∧
        (element.eof = true → ∀ other ∈ later, other.eof = false)

instance : (elements : List (FetchElement aWidth)) → Decidable (MarksApart elements)
  | [] => isTrue trivial
  | _ :: _ => inferInstanceAs (Decidable (_ ∧ _))

/-- The marks of outstanding elements are apart whenever there is a response whose word is
delivered some time. -/
def AnsweredApart : Prop :=
  ∀ n, (schedule n).valid = true →
    (∃ m, (respondedBefore schedule n).length < (deliveredBefore schedule m).length) →
      MarksApart (outstanding schedule n)

end Runs

end CoreVMcu.Filter
