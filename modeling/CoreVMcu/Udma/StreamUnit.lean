import CoreVMcu.Udma.GenericFifo
import CoreVMcu.Clocked.Machine

/-!
# The stream unit of the uDMA

`udma_stream_unit` is meant to buffer a stream in L2: it watches the writes of a
channel to the memory and reads the words back through a transmit channel of its
own.  The enable of that channel is never asserted.
-/

namespace CoreVMcu.Udma

open Clocked

/-! ## The unit -/

/-- `r_state`. -/
inductive StreamState where
  | idle
  | bufTran
  | bufWait
  | stream
  deriving DecidableEq, Repr

/-- Registers of `udma_stream_unit`.  `r_datasize` is never assigned. -/
structure StreamUnit (addrWidth dataWidth : Nat) where
  rState : StreamState
  rWrPtr : BitVec addrWidth
  rRdPtr : BitVec addrWidth
  rJumpDst : BitVec addrWidth
  rJumpSrc : BitVec addrWidth
  rDoJump : Bool
  rErr : Bool
  rDatasize : BitVec 2
  fifo : TxFifo 4 2 (BitVec dataWidth)

/-- Inputs of a cycle: the answers of the transmit channel, the direct stream, the
consumer and the watched write port. -/
structure StreamUnitInput (addrWidth dataWidth idWidth : Nat) where
  cmdClr : Bool
  txChGnt : Bool
  txChValid : Bool
  txChData : BitVec dataWidth
  inStreamDest : BitVec idWidth
  inStreamData : BitVec dataWidth
  inStreamDatasize : BitVec 2
  inStreamValid : Bool
  inStreamSot : Bool
  inStreamEot : Bool
  outStreamReady : Bool
  spoofAddr : BitVec addrWidth
  spoofDest : BitVec idWidth
  spoofDatasize : BitVec 2
  spoofReq : Bool
  spoofGnt : Bool

/-- What the state machine drives. -/
structure StreamControl where
  state : StreamState
  fifoInReady : Bool
  streamBufEn : Bool
  req : Bool
  streamSel : Bool
  sampleRd : Bool
  sampleWr : Bool
  sampleWrStart : Bool

/-- The outputs to the consumer of the stream. -/
structure OutStream (dataWidth : Nat) where
  data : BitVec dataWidth
  datasize : BitVec 2
  valid : Bool
  sot : Bool
  eot : Bool

namespace StreamUnit

variable {addrWidth dataWidth idWidth : Nat} (instId : BitVec idWidth)

/-- The registers after reset; nothing says what `r_datasize` holds. -/
def reset (rDatasize : BitVec 2) : StreamUnit addrWidth dataWidth :=
  { rState := .idle, rWrPtr := 0, rRdPtr := 0, rJumpDst := 0, rJumpSrc := 0, rDoJump := false
    rErr := false, rDatasize := rDatasize, fifo := .reset 0 }

/-- `s_trans_wr`: a write of this unit's channel is granted. -/
def transWr (input : StreamUnitInput addrWidth dataWidth idWidth) : Bool :=
  input.spoofGnt && input.spoofReq && input.spoofDest == instId

/-- What the state machine drives unless a state says otherwise. -/
def defaults (unit : StreamUnit addrWidth dataWidth) : StreamControl :=
  { state := unit.rState, fifoInReady := false, streamBufEn := false, req := false
    streamSel := false, sampleRd := false, sampleWr := false, sampleWrStart := false }

/-- The state machine. -/
def control (unit : StreamUnit addrWidth dataWidth)
    (input : StreamUnitInput addrWidth dataWidth idWidth) : StreamControl :=
  match unit.rState with
  | .idle =>
      if input.cmdClr then { unit.defaults with state := .idle }
      else if transWr instId input then
        { unit.defaults with sampleWrStart := true, sampleRd := true, state := .bufTran }
      else unit.defaults
  | .bufTran =>
      let busy :=
        { unit.defaults with req := true, streamSel := true, sampleWr := transWr instId input }
      if input.cmdClr then { busy with state := .idle }
      else if input.txChGnt then
        if unit.rRdPtr != unit.rWrPtr then { busy with sampleRd := true }
        else { busy with state := .bufWait }
      else busy
  | .bufWait =>
      let waiting := { unit.defaults with streamSel := true }
      if input.cmdClr then { waiting with state := .idle }
      else if transWr instId input then
        { waiting with sampleWr := true, sampleRd := true, state := .bufTran }
      else waiting
  | .stream => { unit.defaults with state := .idle }

/-- `s_int_datasize`, a single bit. -/
def intDatasize (unit : StreamUnit addrWidth dataWidth)
    (input : StreamUnitInput addrWidth dataWidth idWidth) : Bool :=
  if (unit.control instId input).streamSel then unit.rDatasize.getLsbD 0
  else input.inStreamDatasize.getLsbD 0

/-- `s_datasize_toadd`. -/
def datasizeToadd (unit : StreamUnit addrWidth dataWidth)
    (input : StreamUnitInput addrWidth dataWidth idWidth) : BitVec addrWidth :=
  if unit.intDatasize instId input then 2 else 1

/-- `s_wr_ptr_guess`, a single bit. -/
def wrPtrGuess (unit : StreamUnit addrWidth dataWidth)
    (input : StreamUnitInput addrWidth dataWidth idWidth) : Bool :=
  (unit.rWrPtr + unit.datasizeToadd instId input).getLsbD 0

/-- `s_is_jump`. -/
def isJump (unit : StreamUnit addrWidth dataWidth)
    (input : StreamUnitInput addrWidth dataWidth idWidth) : Bool :=
  input.spoofAddr != (BitVec.ofBool (unit.wrPtrGuess instId input)).setWidth addrWidth

/-- `tx_ch_req_o`. -/
def txChReq (unit : StreamUnit addrWidth dataWidth)
    (input : StreamUnitInput addrWidth dataWidth idWidth) : Bool :=
  unit.fifo.req && (unit.control instId input).streamBufEn

/-- `tx_ch_addr_o`. -/
def txChAddr (unit : StreamUnit addrWidth dataWidth) : BitVec addrWidth := unit.rRdPtr

/-- The outputs to the consumer. -/
def outStream (unit : StreamUnit addrWidth dataWidth)
    (input : StreamUnitInput addrWidth dataWidth idWidth) : OutStream dataWidth :=
  if (unit.control instId input).streamSel then
    { data := unit.fifo.fifo.data, datasize := unit.rDatasize, valid := unit.fifo.fifo.valid
      sot := false, eot := false }
  else
    { data := input.inStreamData, datasize := input.inStreamDatasize, valid := input.inStreamValid
      sot := input.inStreamSot, eot := input.inStreamEot }

/-- One clock edge.  `r_rd_ptr` has no next value besides zero: `s_rd_ptr_next` and
`s_sample_rd` drive nothing. -/
def step (unit : StreamUnit addrWidth dataWidth)
    (input : StreamUnitInput addrWidth dataWidth idWidth) : StreamUnit addrWidth dataWidth :=
  let control := unit.control instId input
  let fifo := unit.fifo.step
    { clr := input.cmdClr, gnt := input.txChGnt && control.streamBufEn, validIn := input.txChValid
      dataIn := input.txChData, readyIn := control.fifoInReady }
  if input.cmdClr then
    { unit with
      rState := .idle, rWrPtr := 0, rRdPtr := 0, rJumpSrc := 0, rJumpDst := 0, rDoJump := false
      rErr := false, fifo := fifo }
  else
    let jumps := !control.sampleWrStart && control.sampleWr && unit.isJump instId input
    { unit with
      rState := control.state
      rWrPtr := if control.sampleWrStart || control.sampleWr then input.spoofAddr else unit.rWrPtr
      rJumpSrc := if jumps then unit.rWrPtr else unit.rJumpSrc
      rJumpDst := if jumps then input.spoofAddr else unit.rJumpDst
      rDoJump := jumps || unit.rDoJump
      fifo := fifo }

end StreamUnit

/-- The unit from reset. -/
def streamUnitMachine {addrWidth dataWidth idWidth : Nat} (instId : BitVec idWidth)
    (rDatasize : BitVec 2) :
    Machine (StreamUnit addrWidth dataWidth) (StreamUnitInput addrWidth dataWidth idWidth) where
  init := .reset rDatasize
  step := StreamUnit.step instId

/-! ## What is written, read and passed on -/

section Runs

variable {addrWidth dataWidth idWidth : Nat} (instId : BitVec idWidth) (rDatasize : BitVec 2)

namespace StreamUnit

/-- The address of a write for this unit. -/
def writes (_ : StreamUnit addrWidth dataWidth)
    (input : StreamUnitInput addrWidth dataWidth idWidth) : List (BitVec addrWidth) :=
  if transWr instId input then [input.spoofAddr] else []

/-- The address of a granted read. -/
def reads (unit : StreamUnit addrWidth dataWidth)
    (input : StreamUnitInput addrWidth dataWidth idWidth) : List (BitVec addrWidth) :=
  if unit.txChReq instId input && input.txChGnt then [unit.txChAddr] else []

/-- The data that the transmit channel returns. -/
def returns (_ : StreamUnit addrWidth dataWidth)
    (input : StreamUnitInput addrWidth dataWidth idWidth) : List (BitVec dataWidth) :=
  if input.txChValid then [input.txChData] else []

/-- The data that leaves from the buffer. -/
def leaves (unit : StreamUnit addrWidth dataWidth)
    (input : StreamUnitInput addrWidth dataWidth idWidth) : List (BitVec dataWidth) :=
  let out := unit.outStream instId input
  if (unit.control instId input).streamSel && out.valid && input.outStreamReady then [out.data]
  else []

end StreamUnit

/-- The stream is buffered through the memory: the addresses read are the first ones
written, every one written is read some time, and the data returned leaves in its
order. -/
structure BuffersThroughL2 (schedule : Nat → StreamUnitInput addrWidth dataWidth idWidth) :
    Prop where
  inOrder : ∀ n,
    (streamUnitMachine instId rDatasize).observed (StreamUnit.reads instId)
        (inputsUpTo schedule n) <+:
      (streamUnitMachine instId rDatasize).observed (StreamUnit.writes instId)
        (inputsUpTo schedule n)
  everyOne : ∀ n, ∃ m,
    (streamUnitMachine instId rDatasize).observed (StreamUnit.writes instId)
        (inputsUpTo schedule n) <+:
      (streamUnitMachine instId rDatasize).observed (StreamUnit.reads instId)
        (inputsUpTo schedule m)
  passedOn : ∀ n,
    (streamUnitMachine instId rDatasize).observed (StreamUnit.leaves instId)
        (inputsUpTo schedule n) <+:
      (streamUnitMachine instId rDatasize).observed StreamUnit.returns (inputsUpTo schedule n)

namespace StreamUnit

variable (unit : StreamUnit addrWidth dataWidth)
variable (input : StreamUnitInput addrWidth dataWidth idWidth)

/-- No state enables the buffer. -/
theorem control_streamBufEn : (unit.control instId input).streamBufEn = false := by
  unfold control
  cases unit.rState with
  | stream => rfl
  | idle | bufTran | bufWait =>
      simp only
      split
      · rfl
      · split
        · first
            | rfl
            | (split <;> rfl)
        · rfl

/-- Nothing is requested of the transmit channel. -/
theorem reads_eq_nil : unit.reads instId input = [] := by
  rw [reads, txChReq, control_streamBufEn, Bool.and_false, Bool.false_and,
    if_neg Bool.false_ne_true]

/-- An idle unit stays idle until it sees a write. -/
theorem step_idle (idle : unit.rState = .idle) (noWrite : transWr instId input = false) :
    (unit.step instId input).rState = .idle := by
  have stays : (unit.control instId input).state = .idle := by
    rw [control, idle]
    simp only [noWrite, Bool.false_eq_true, if_false]
    split
    · rfl
    · exact idle
  rw [step]
  split
  · rfl
  · exact stays

/-- An idle unit passes nothing on from its buffer. -/
theorem leaves_idle (idle : unit.rState = .idle) : unit.leaves instId input = [] := by
  have direct : (unit.control instId input).streamSel = false := by
    rw [control, idle]
    simp only
    split
    · rfl
    · split <;> rfl
  rw [leaves, direct, Bool.false_and, Bool.false_and, if_neg Bool.false_ne_true]

end StreamUnit

variable {schedule : Nat → StreamUnitInput addrWidth dataWidth idWidth}

theorem observed_reads (inputs : List (StreamUnitInput addrWidth dataWidth idWidth)) :
    (streamUnitMachine instId rDatasize).observed (StreamUnit.reads instId) inputs = [] := by
  induction inputs using List.reverseRecOn with
  | nil => rfl
  | append_singleton inputs input inductionHypothesis =>
      rw [Machine.observed_snoc, inductionHypothesis, StreamUnit.reads_eq_nil, List.append_nil]

variable (schedule) in
/-- Without a write the unit stays idle, and nothing is written or leaves. -/
theorem idle_of_noWrites (noWrites : ∀ n, StreamUnit.transWr instId (schedule n) = false)
    (n : Nat) :
    ((streamUnitMachine instId rDatasize).run (inputsUpTo schedule n)).rState = .idle ∧
      (streamUnitMachine instId rDatasize).observed (StreamUnit.writes instId)
        (inputsUpTo schedule n) = [] ∧
      (streamUnitMachine instId rDatasize).observed (StreamUnit.leaves instId)
        (inputsUpTo schedule n) = [] := by
  induction n with
  | zero => exact ⟨rfl, rfl, rfl⟩
  | succ n inductionHypothesis =>
      obtain ⟨idle, nothingWritten, nothingLeft⟩ := inductionHypothesis
      rw [inputsUpTo_succ, Machine.run_snoc, Machine.observed_snoc, Machine.observed_snoc,
        nothingWritten, nothingLeft, StreamUnit.leaves_idle instId _ _ idle, StreamUnit.writes,
        noWrites n]
      exact ⟨StreamUnit.step_idle instId _ _ idle (noWrites n), rfl, rfl⟩

/-- A write is never read back. -/
theorem not_buffers_of_write {n : Nat} (writes : StreamUnit.transWr instId (schedule n) = true) :
    ¬BuffersThroughL2 instId rDatasize schedule := by
  intro buffers
  obtain ⟨m, allRead⟩ := buffers.everyOne (n + 1)
  rw [observed_reads, inputsUpTo_succ, Machine.observed_snoc, StreamUnit.writes, if_pos writes]
    at allRead
  simpa using List.prefix_nil.mp allRead

/-- For every run, whatever is granted and returned and whenever: the stream is
buffered through the memory exactly when there is nothing to buffer. -/
theorem streamUnit_buffers_iff (schedule : Nat → StreamUnitInput addrWidth dataWidth idWidth) :
    BuffersThroughL2 instId rDatasize schedule ↔
      ∀ n, StreamUnit.transWr instId (schedule n) = false := by
  constructor
  · intro buffers n
    rw [← Bool.not_eq_true]
    intro writes
    exact not_buffers_of_write instId rDatasize writes buffers
  · intro noWrites
    constructor
    · intro n
      rw [observed_reads]
      exact List.nil_prefix
    · intro n
      refine ⟨n, ?_⟩
      rw [(idle_of_noWrites instId rDatasize schedule noWrites n).2.1]
      exact List.nil_prefix
    · intro n
      rw [(idle_of_noWrites instId rDatasize schedule noWrites n).2.2]
      exact List.nil_prefix

end Runs

/-- One byte is written for the unit, and every request would be granted. -/
def writeOnce (n : Nat) : StreamUnitInput 19 32 3 :=
  { cmdClr := false, txChGnt := true, txChValid := false, txChData := 0, inStreamDest := 0
    inStreamData := 0, inStreamDatasize := 0, inStreamValid := false, inStreamSot := false
    inStreamEot := false, outStreamReady := true, spoofAddr := 0x100, spoofDest := 0
    spoofDatasize := 0, spoofReq := n == 0, spoofGnt := n == 0 }

theorem writeOnce_not_buffers : ¬BuffersThroughL2 0 0 writeOnce :=
  not_buffers_of_write 0 0 (show StreamUnit.transWr 0 (writeOnce 0) = true from rfl)

end CoreVMcu.Udma
