import CoreVMcu.Clocked.Composition
import CoreVMcu.Udma.RxFraming
import CoreVMcu.Udma.StreamUnit

/-!
# Delivery of direct streams

The RX channels with their stream units.  Every unit shows its consumer the word at the
head of the FIFO of the streams, whichever unit the word is for, until a word has been
written to the L2 buffer of the unit.  The word leaves the FIFO when the unit that its
destination names is ready; `udma_stream_unit` has no driver for that signal, and it stays
an input.

So a word is handed over when the signal happens to be what the consumer of its unit
shows, and no other consumer is ready.  A stream that keeps its framing is then delivered
to its unit.
-/

namespace CoreVMcu.Udma

open Clocked Arbitration

variable {nLin nExt aWidth transSize idWidth : Nat}

/-- Inputs of a cycle: those of the channels, the answers of the transmit channels of the
units, and `stream_ready_i`.  A number that has no unit stands for a unit whose consumer is
never ready. -/
structure StreamsInput (nLin nExt aWidth transSize idWidth : Nat) where
  rx : RxInput nLin nExt aWidth transSize idWidth
  txChGnt : BitVec idWidth → Bool
  txChValid : BitVec idWidth → Bool
  txChData : BitVec idWidth → BitVec 32
  streamReady : BitVec idWidth → Bool

/-- The channels and their stream units.  `queue` is no register: it names the words in the
FIFO of the streams with their lanes. -/
structure RxStreams (aWidth transSize idWidth : Nat) (arbiter : Arbiter (nLin + nExt)) where
  channels : RxChannels aWidth transSize idWidth arbiter
  units : BitVec idWidth → StreamUnit aWidth 32
  queue : List (Fin (nLin + nExt) × StreamWord)

namespace RxStreams

variable {arbiter : Arbiter (nLin + nExt)}
variable (system : RxStreams aWidth transSize idWidth arbiter)
variable (input : StreamsInput nLin nExt aWidth transSize idWidth)

/-- What a unit sees: the head of the FIFO of the streams, and the writes at the L2 port.
`cmd_clr_i` is tied low. -/
def unitInput (unit : BitVec idWidth) : StreamUnitInput aWidth 32 idWidth :=
  { cmdClr := false, txChGnt := input.txChGnt unit, txChValid := input.txChValid unit
    txChData := input.txChData unit, inStreamDest := system.channels.fifoOutStream.unit idWidth
    inStreamData := system.channels.fifoOutStream.data
    inStreamDatasize := system.channels.fifoOutStream.size
    inStreamValid := system.channels.filterFifo.valid
    inStreamSot := system.channels.fifoOutStream.sot
    inStreamEot := system.channels.fifoOutStream.eot, outStreamReady := input.streamReady unit
    spoofAddr := system.channels.fifoOut.addr, spoofDest := system.channels.fifoOut.streamId
    spoofDatasize := system.channels.fifoOut.size
    spoofReq := system.channels.l2Req && system.channels.fifoOut.storeL2
    spoofGnt := system.channels.accessGnt input.rx }

/-- What a unit shows its consumer. -/
def shows (unit : BitVec idWidth) : OutStream 32 :=
  (system.units unit).outStream unit (system.unitInput input unit)

/-- A unit passes on what comes from the channels. -/
def passes (unit : BitVec idWidth) : Bool :=
  !((system.units unit).control unit (system.unitInput input unit)).streamSel

/-- The consumer of a unit takes a word that comes from the channels. -/
def takes (unit : BitVec idWidth) : Bool :=
  system.passes input unit && (system.shows input unit).valid && input.streamReady unit

/-- The word of a lane that the consumer of a unit takes, with the destination that the
unit is shown for it. -/
def takenOn (unit : BitVec idWidth) (lane : Fin (nLin + nExt)) :
    List (BitVec idWidth × StreamFrame) :=
  if system.takes input unit && system.queue.head?.map Prod.fst == some lane then
    [((system.unitInput input unit).inStreamDest,
      { sot := (system.shows input unit).sot, eot := (system.shows input unit).eot
        size := (system.shows input unit).datasize, data := (system.shows input unit).data })]
  else []

/-- The word at the head of the FIFO of the streams leaves it. -/
def pops : Bool :=
  system.channels.streamReadyDemux input.rx && system.channels.filterFifo.valid

/-- The words of a lane behind the sampling stage that have not left, and in it. -/
def waiting (lane : Fin (nLin + nExt)) : Nat :=
  (framesOn idWidth lane system.queue).length + (system.channels.rGrant == some lane).toNat

/-- After reset; nothing says what the registers `r_datasize` of the units hold. -/
def reset (rDatasize : BitVec idWidth → BitVec 2) : RxStreams aWidth transSize idWidth arbiter :=
  { channels := .reset, units := fun unit => .reset (rDatasize unit), queue := [] }

/-- One clock edge. -/
def step : RxStreams aWidth transSize idWidth arbiter :=
  { channels := system.channels.step input.rx
    units := fun unit => (system.units unit).step unit (system.unitInput input unit)
    queue := system.queue.drop (system.pops input).toNat ++ system.channels.streamPush }

end RxStreams

/-- The channels and their stream units from reset. -/
def rxStreamsMachine (aWidth transSize : Nat) {idWidth : Nat} (arbiter : Arbiter (nLin + nExt))
    (rDatasize : BitVec idWidth → BitVec 2) :
    Machine (RxStreams aWidth transSize idWidth arbiter)
      (StreamsInput nLin nExt aWidth transSize idWidth) where
  init := .reset rDatasize
  step := RxStreams.step

/-! ## Delivery -/

section Deliveries

variable (arbiter : Arbiter (nLin + nExt)) (rDatasize : BitVec idWidth → BitVec 2)
variable (inputs : List (StreamsInput nLin nExt aWidth transSize idWidth))

/-- The state after a run. -/
abbrev rxStreamsRun : RxStreams aWidth transSize idWidth arbiter :=
  (rxStreamsMachine aWidth transSize arbiter rDatasize).run inputs

/-- What the consumer of a unit has taken of a lane. -/
def deliveredAt (unit : BitVec idWidth) (lane : Fin (nLin + nExt)) :
    List (BitVec idWidth × StreamFrame) :=
  (rxStreamsMachine aWidth transSize arbiter rDatasize).observed
    (fun system input => system.takenOn input unit lane) inputs

/-- The words that a linear channel has accepted, with the flags of the first and the last
word of each transfer, each for unit `k`. -/
def framesFor (j : Fin nLin) (k : BitVec idWidth) : List (BitVec idWidth × StreamFrame) :=
  (streamFrames arbiter (inputs.map (·.rx)) j).map fun frame => (k, frame)

/-- The words that a linear channel has accepted are delivered to unit `k` in order, with
the right flags, and to no other; each is delivered or still on its way. -/
structure StreamsTo (j : Fin nLin) (k : BitVec idWidth) : Prop where
  inOrder : deliveredAt arbiter rDatasize inputs k (j.castAdd nExt) <+:
    framesFor arbiter inputs j k
  nowhereElse : ∀ unit, unit ≠ k → deliveredAt arbiter rDatasize inputs unit (j.castAdd nExt) = []
  kept : (framesFor arbiter inputs j k).length =
    (deliveredAt arbiter rDatasize inputs k (j.castAdd nExt)).length +
      (rxStreamsRun arbiter rDatasize inputs).waiting (j.castAdd nExt)

end Deliveries

namespace RxStreams

variable {arbiter : Arbiter (nLin + nExt)}

/-- While a word of the channel is at the head of the FIFO, the ready signal of its unit is
what the consumer of unit `k` shows, if the unit passes the word on, and no other unit
passes it on to a consumer that is ready. -/
@[mk_iff] structure HandsOver (j : Fin nLin) (k : BitVec idWidth)
    (system : RxStreams aWidth transSize idWidth arbiter)
    (input : StreamsInput nLin nExt aWidth transSize idWidth) : Prop where
  ready : system.queue.head?.map Prod.fst = some (j.castAdd nExt) →
    system.channels.streamReadyDemux input.rx = (system.passes input k && input.streamReady k)
  alone : system.queue.head?.map Prod.fst = some (j.castAdd nExt) → ∀ unit, unit ≠ k →
    system.passes input unit = true → input.streamReady unit = false

/-- In a cycle the channel streams to unit `k`, keeps its framing and is handed over. -/
def Delivers (j : Fin nLin) (k : BitVec idWidth)
    (system : RxStreams aWidth transSize idWidth arbiter)
    (input : StreamsInput nLin nExt aWidth transSize idWidth) : Prop :=
  (RxChannels.SelectsStream j k input.rx ∧ RxChannels.KeepsFraming j k system.channels input.rx) ∧
    HandsOver j k system input

end RxStreams

/-- The words in the FIFO of the streams are never held back for ever. -/
def StreamsFlow (arbiter : Arbiter (nLin + nExt)) (rDatasize : BitVec idWidth → BitVec 2)
    (schedule : Nat → StreamsInput nLin nExt aWidth transSize idWidth) : Prop :=
  ∀ n, ∃ m ≥ n,
    (rxStreamsRun arbiter rDatasize (inputsUpTo schedule m)).channels.filterFifo.valid = false ∨
      (rxStreamsRun arbiter rDatasize (inputsUpTo schedule m)).pops (schedule m) = true

namespace RxStreams

variable {arbiter : Arbiter (nLin + nExt)} {j : Fin nLin} {k : BitVec idWidth}
variable {system : RxStreams aWidth transSize idWidth arbiter}
variable {input : StreamsInput nLin nExt aWidth transSize idWidth}

/-- The queue names the words in the FIFO of the streams. -/
def Named (system : RxStreams aWidth transSize idWidth arbiter) : Prop :=
  IoGenericFifo.Represents rxDepth system.channels.filterFifo (system.queue.map Prod.snd)

theorem streamPush_words (channels : RxChannels aWidth transSize idWidth arbiter) :
    channels.streamPush.map Prod.snd =
      if channels.pushFilter && channels.filterFifo.ready rxDepth then [channels.fifoInStream]
      else [] := by
  rw [RxChannels.streamPush]
  split
  · next pushes =>
      have some := (Bool.and_eq_true_iff.mp (Bool.and_eq_true_iff.mp pushes).1).1
      obtain ⟨lane, granted⟩ := Option.isSome_iff_exists.mp some
      rw [granted]
      rfl
  · rfl

theorem Named.step (named : system.Named)
    (input : StreamsInput nLin nExt aWidth transSize idWidth) : (system.step input).Named := by
  have next := IoGenericFifo.Represents.step named system.channels.pushFilter
    system.channels.fifoInStream (system.channels.streamReadyDemux input.rx)
  rw [← streamPush_words, ← List.map_drop, ← List.map_append] at next
  exact next

/-- A word that leaves is at the head of the queue. -/
theorem Named.pops_le (named : system.Named)
    (input : StreamsInput nLin nExt aWidth transSize idWidth) :
    (system.pops input).toNat ≤ system.queue.length := by
  cases pops : system.pops input with
  | false => exact Nat.zero_le _
  | true =>
      have valid := (Bool.and_eq_true_iff.mp pops).2
      rw [named.valid_eq] at valid
      cases queue : system.queue with
      | nil => simp [queue] at valid
      | cons word rest => exact Nat.succ_le_succ (Nat.zero_le _)

/-- A unit that passes on what comes from the channels shows the head of the FIFO. -/
theorem shows_of_passes {unit : BitVec idWidth} (passes : system.passes input unit = true) :
    system.shows input unit =
      { data := system.channels.fifoOutStream.data, datasize := system.channels.fifoOutStream.size
        valid := system.channels.filterFifo.valid, sot := system.channels.fifoOutStream.sot
        eot := system.channels.fifoOutStream.eot } := by
  rw [shows, StreamUnit.outStream, (Bool.not_eq_true' _).mp passes, if_neg Bool.false_ne_true]
  rfl

/-- A consumer takes the word at the head of the FIFO, when it takes one. -/
theorem takenOn_eq (named : system.Named) (unit : BitVec idWidth) (lane : Fin (nLin + nExt)) :
    system.takenOn input unit lane =
      framesOn idWidth lane
        (system.queue.take (system.passes input unit && input.streamReady unit).toNat) := by
  rw [takenOn, takes]
  cases passes : system.passes input unit with
  | false => rfl
  | true =>
      rw [shows_of_passes passes, named.valid_eq]
      cases input.streamReady unit with
      | false => simp [framesOn]
      | true =>
          cases queue : system.queue with
          | nil => simp [framesOn]
          | cons word rest =>
              have head : system.channels.fifoOutStream = word.2 := by
                rw [Named, queue] at named
                exact named.data_eq
              cases lanes : word.1 == lane <;>
                simp [framesOn, StreamWord.frame, unitInput, head, lanes]

/-- Words of other lanes at the head of the queue are none of this lane. -/
theorem framesOn_take_of_head_ne {lane : Fin (nLin + nExt)}
    {words : List (Fin (nLin + nExt) × StreamWord)}
    (other : words.head?.map Prod.fst ≠ some lane) (count : Bool) :
    framesOn idWidth lane (words.take count.toNat) = [] := by
  cases words with
  | nil => rw [List.take_nil]; rfl
  | cons word rest =>
      have differs : (word.1 == lane) = false := by simpa using other
      cases count <;> simp [framesOn, differs]

/-- The consumer of unit `k` takes the words of the channel that leave the FIFO. -/
theorem HandsOver.takenOn_eq (hands : HandsOver j k system input) (named : system.Named) :
    system.takenOn input k (j.castAdd nExt) =
      framesOn idWidth (j.castAdd nExt) (system.queue.take (system.pops input).toNat) := by
  rw [RxStreams.takenOn_eq named]
  cases head : system.queue.head?.map Prod.fst == some (j.castAdd nExt) with
  | false =>
      have other := ne_of_beq_false head
      rw [framesOn_take_of_head_ne other, framesOn_take_of_head_ne other]
  | true =>
      rw [← hands.ready (eq_of_beq head), pops, named.valid_eq]
      cases queue : system.queue with
      | nil => simp [queue] at head
      | cons word rest => simp

/-- The other consumers take no word of the channel. -/
theorem HandsOver.takenOn_of_ne (hands : HandsOver j k system input) (named : system.Named)
    {unit : BitVec idWidth} (other : unit ≠ k) :
    system.takenOn input unit (j.castAdd nExt) = [] := by
  rw [RxStreams.takenOn_eq named]
  cases head : system.queue.head?.map Prod.fst == some (j.castAdd nExt) with
  | false => exact framesOn_take_of_head_ne (ne_of_beq_false head) _
  | true =>
      cases passes : system.passes input unit with
      | false => rfl
      | true => rw [hands.alone (eq_of_beq head) unit other passes]; rfl

end RxStreams

section Runs

variable {arbiter : Arbiter (nLin + nExt)} {rDatasize : BitVec idWidth → BitVec 2}
variable {inputs : List (StreamsInput nLin nExt aWidth transSize idWidth)}
variable {j : Fin nLin} {k : BitVec idWidth}

/-- The channels as a component. -/
def streamChannels (arbiter : Arbiter (nLin + nExt)) (rDatasize : BitVec idWidth → BitVec 2) :
    Component (rxStreamsMachine aWidth transSize arbiter rDatasize)
      (rxMachine aWidth transSize idWidth arbiter) where
  view := RxStreams.channels
  feed _ input := some input.rx
  reset := rfl
  edge _ _ := rfl

section

variable (arbiter rDatasize)
variable (inputs : List (StreamsInput nLin nExt aWidth transSize idWidth))

theorem fed_streamChannels :
    (streamChannels arbiter rDatasize).fed inputs = inputs.map (·.rx) := by
  induction inputs using List.reverseRecOn with
  | nil => rfl
  | append_singleton inputs input inductionHypothesis =>
      rw [Component.fed_snoc, inductionHypothesis, List.map_append]
      rfl

theorem channels_run :
    (rxStreamsRun arbiter rDatasize inputs).channels = rxRun arbiter (inputs.map (·.rx)) := by
  rw [← fed_streamChannels arbiter rDatasize]
  exact (streamChannels arbiter rDatasize).view_run inputs

theorem rxStreamsRun_snoc (input : StreamsInput nLin nExt aWidth transSize idWidth) :
    rxStreamsRun arbiter rDatasize (inputs ++ [input]) =
      (rxStreamsRun arbiter rDatasize inputs).step input :=
  Machine.run_snoc ..

theorem streamPushes_snoc (input : StreamsInput nLin nExt aWidth transSize idWidth) :
    streamPushes arbiter ((inputs ++ [input]).map (·.rx)) =
      streamPushes arbiter (inputs.map (·.rx)) ++
        (rxStreamsRun arbiter rDatasize inputs).channels.streamPush := by
  rw [channels_run, List.map_append, List.map_singleton, streamPushes, Machine.observed_snoc]
  rfl

theorem named_run : (rxStreamsRun arbiter rDatasize inputs).Named := by
  refine Machine.run_invariant (motive := RxStreams.Named) ?_ ?_ inputs
  · exact IoGenericFifo.represents_reset _ (by decide)
  · exact fun _ input named => named.step input

end

/-- What has been pushed has left the FIFO or is named by the queue, and what has left it
is delivered to unit `k` as far as it is of the channel, and nowhere else. -/
theorem exists_popped
    (hands : (rxStreamsMachine aWidth transSize arbiter rDatasize).Always
      (RxStreams.HandsOver j k) inputs) :
    ∃ popped,
      popped.length =
        (rxStreamsMachine aWidth transSize arbiter rDatasize).counted RxStreams.pops inputs ∧
      streamPushes arbiter (inputs.map (·.rx)) =
        popped ++ (rxStreamsRun arbiter rDatasize inputs).queue ∧
      deliveredAt arbiter rDatasize inputs k (j.castAdd nExt) =
        framesOn idWidth (j.castAdd nExt) popped ∧
      ∀ unit, unit ≠ k → deliveredAt arbiter rDatasize inputs unit (j.castAdd nExt) = [] := by
  induction inputs using List.reverseRecOn with
  | nil => exact ⟨[], rfl, rfl, rfl, fun _ _ => rfl⟩
  | append_singleton inputs input inductionHypothesis =>
      rw [Machine.always_snoc] at hands
      obtain ⟨popped, length, pushed, delivered, nowhereElse⟩ := inductionHypothesis hands.1
      have named := named_run arbiter rDatasize inputs
      refine ⟨popped ++ (rxStreamsRun arbiter rDatasize inputs).queue.take
        ((rxStreamsRun arbiter rDatasize inputs).pops input).toNat, ?_, ?_, ?_, ?_⟩
      · rw [List.length_append, length, Machine.counted_snoc, List.length_take,
          Nat.min_eq_left (named.pops_le input)]
      · rw [streamPushes_snoc arbiter rDatasize, pushed, rxStreamsRun_snoc, RxStreams.step,
          ← List.append_assoc, List.append_assoc popped (List.take ..), List.take_append_drop]
      · rw [deliveredAt, Machine.observed_snoc, ← deliveredAt, delivered, framesOn_append,
          hands.2.takenOn_eq named]
      · intro unit other
        rw [deliveredAt, Machine.observed_snoc, ← deliveredAt, nowhereElse unit other,
          hands.2.takenOn_of_ne named other]
        rfl

/-- What holds of the channels inside of the system holds along their run. -/
theorem always_channels {allowed : RxChannels aWidth transSize idWidth arbiter →
      RxInput nLin nExt aWidth transSize idWidth → Prop}
    (holds : (rxStreamsMachine aWidth transSize arbiter rDatasize).Always
      (fun system input => allowed system.channels input.rx) inputs) :
    (rxMachine aWidth transSize idWidth arbiter).Always allowed (inputs.map (·.rx)) := by
  rw [← fed_streamChannels arbiter rDatasize]
  refine Component.always_fed _ (holds.mono ?_)
  intro system input now sampled fed
  rw [← Option.mem_some.mp fed]
  exact now

theorem length_stageFrame (channels : RxChannels aWidth transSize idWidth arbiter) :
    (RxChannels.stageFrame j channels).length =
      (channels.rGrant == some (j.castAdd nExt)).toNat := by
  rw [RxChannels.stageFrame]
  cases staged : channels.rGrant == some (j.castAdd nExt) with
  | false => rw [if_neg (ne_of_beq_false staged)]; rfl
  | true => rw [if_pos (eq_of_beq staged)]; rfl

/-- A stream that keeps its framing and is handed over is delivered to its unit. -/
theorem streamsTo_of_delivers (wide : 3 ≤ transSize)
    (delivers : (rxStreamsMachine aWidth transSize arbiter rDatasize).Always
      (RxStreams.Delivers j k) inputs) : StreamsTo arbiter rDatasize inputs j k := by
  obtain ⟨keeps, hands⟩ := Machine.always_and.mp delivers
  obtain ⟨popped, -, pushed, delivered, nowhereElse⟩ := exists_popped hands
  obtain ⟨-, frames⟩ := streamFrames_eq wide (always_channels keeps)
  rw [← framesFor, pushed, framesOn_append, ← delivered, List.append_assoc] at frames
  constructor
  case inOrder =>
    rw [frames]
    exact List.prefix_append ..
  case nowhereElse => exact nowhereElse
  case kept =>
    rw [frames, List.length_append, List.length_append, List.length_map, length_stageFrame,
      ← channels_run arbiter rDatasize]
    rfl

variable {schedule : Nat → StreamsInput nLin nExt aWidth transSize idWidth}

theorem map_rx_inputsUpTo (n : Nat) :
    (inputsUpTo schedule n).map (·.rx) = inputsUpTo (fun n => (schedule n).rx) n :=
  List.map_map ..

theorem streamPushes_mono {n m : Nat} (earlier : n ≤ m) :
    streamPushes arbiter ((inputsUpTo schedule n).map (·.rx)) <+:
      streamPushes arbiter ((inputsUpTo schedule m).map (·.rx)) := by
  rw [map_rx_inputsUpTo, map_rx_inputsUpTo]
  exact Machine.observed_inputsUpTo_mono _ _ _ earlier

theorem framesFor_mono {n m : Nat} (earlier : n ≤ m) :
    framesFor arbiter (inputsUpTo schedule n) j k <+:
      framesFor arbiter (inputsUpTo schedule m) j k := by
  obtain ⟨later, events⟩ :=
    (rxMachine aWidth transSize idWidth arbiter).observed_inputsUpTo_mono
      (RxChannels.streamEvents j) (fun n => (schedule n).rx) earlier
  have kept : ∀ accepted, framing.observed FrameState.frame accepted <+:
      framing.observed FrameState.frame (accepted ++ later) := by
    intro accepted
    rw [Machine.observed, Machine.observed, Machine.observedFrom_append]
    exact List.prefix_append ..
  rw [framesFor, framesFor, map_rx_inputsUpTo, map_rx_inputsUpTo, streamFrames, streamFrames,
    ← events]
  exact (kept _).map _

/-- A full FIFO has room after a word has left it. -/
theorem RxStreams.Named.room {system : RxStreams aWidth transSize idWidth arbiter}
    {input : StreamsInput nLin nExt aWidth transSize idWidth} (named : system.Named)
    (full : system.channels.filterFifo.ready rxDepth = false)
    (pops : system.pops input = true) :
    (system.step input).channels.filterFifo.ready rxDepth = true := by
  have popped := named.pops_le input
  have bounded := named.bounded
  rw [pops, Bool.toNat_true] at popped
  rw [List.length_map] at bounded
  rw [(named.step input).ready_iff, RxStreams.step, pops, RxChannels.streamPush, full,
    Bool.and_false, if_neg Bool.false_ne_true, List.append_nil, List.length_map, List.length_drop,
    Bool.toNat_true]
  omega

/-- There is room in the FIFO again and again. -/
theorem StreamsFlow.room (flow : StreamsFlow arbiter rDatasize schedule) (n : Nat) :
    ∃ m ≥ n, (rxStreamsRun arbiter rDatasize (inputsUpTo schedule m)).channels.filterFifo.ready
      rxDepth = true := by
  obtain ⟨m, later, flows⟩ := flow n
  have named := named_run arbiter rDatasize (inputsUpTo schedule m)
  cases full : (rxStreamsRun arbiter rDatasize (inputsUpTo schedule m)).channels.filterFifo.ready
      rxDepth with
  | true => exact ⟨m, later, full⟩
  | false =>
      cases flows with
      | inl empty =>
          rw [named.valid_eq, Bool.not_eq_false', List.isEmpty_iff] at empty
          exact ⟨m, later, named.ready_iff.mpr (by rw [empty]; decide)⟩
      | inr pops =>
          refine ⟨m + 1, Nat.le_succ_of_le later, ?_⟩
          rw [inputsUpTo_succ, rxStreamsRun_snoc]
          exact named.room full pops

/-- As many words leave the FIFO as have been pushed at any time. -/
theorem StreamsFlow.pops (flow : StreamsFlow arbiter rDatasize schedule)
    (hands : ∀ n, (rxStreamsMachine aWidth transSize arbiter rDatasize).Always
      (RxStreams.HandsOver j k) (inputsUpTo schedule n)) (n count : Nat)
    (pushed : count ≤ (streamPushes arbiter ((inputsUpTo schedule n).map (·.rx))).length) :
    ∃ m ≥ n, count ≤ (rxStreamsMachine aWidth transSize arbiter rDatasize).counted RxStreams.pops
      (inputsUpTo schedule m) := by
  induction count with
  | zero => exact ⟨n, Nat.le_refl n, Nat.zero_le _⟩
  | succ count inductionHypothesis =>
      obtain ⟨before, after, reached⟩ := inductionHypothesis (Nat.le_of_succ_le pushed)
      obtain ⟨m, later, flows⟩ := flow before
      obtain ⟨popped, length, split, -⟩ := exists_popped (hands m)
      cases flows with
      | inl empty =>
          rw [(named_run ..).valid_eq, Bool.not_eq_false', List.isEmpty_iff, List.map_eq_nil_iff]
            at empty
          rw [empty, List.append_nil] at split
          refine ⟨m, Nat.le_trans after later, ?_⟩
          rw [← length, ← split]
          exact Nat.le_trans pushed (streamPushes_mono (Nat.le_trans after later)).length_le
      | inr pops =>
          refine ⟨m + 1, Nat.le_succ_of_le (Nat.le_trans after later), ?_⟩
          rw [inputsUpTo_succ, Machine.counted_snoc, pops]
          exact Nat.add_le_add_right
            (Nat.le_trans reached (Machine.counted_inputsUpTo_mono _ _ schedule later)) 1

/-- A word in the sampling stage enters the FIFO when there is room. -/
theorem RxChannels.TracksFraming.stageFrame_pushes {state : FrameState}
    {channels : RxChannels aWidth transSize idWidth arbiter}
    {input : RxInput nLin nExt aWidth transSize idWidth}
    (tracks : RxChannels.TracksFraming j state channels)
    (keeps : RxChannels.KeepsFraming j k channels input) (wide : 3 ≤ transSize)
    (room : channels.filterFifo.ready rxDepth = true) :
    (RxChannels.stageFrame j channels).map (fun frame => (k, frame)) =
      channels.streamPushOn (j.castAdd nExt) := by
  cases staged : channels.rGrant == some (j.castAdd nExt) with
  | false =>
      have empty := ne_of_beq_false staged
      rw [RxChannels.streamPushOn_of_empty empty, RxChannels.stageFrame, if_neg empty]
      rfl
  | true =>
      rw [RxChannels.streamPushOn_of_staged tracks keeps wide (eq_of_beq staged), room, if_pos rfl]

/-- What a channel has accepted at any time is all delivered some time. -/
theorem StreamsFlow.delivered (wide : 3 ≤ transSize)
    (flow : StreamsFlow arbiter rDatasize schedule)
    (delivers : ∀ n, (rxStreamsMachine aWidth transSize arbiter rDatasize).Always
      (RxStreams.Delivers j k) (inputsUpTo schedule n)) (n : Nat) :
    ∃ m, framesFor arbiter (inputsUpTo schedule n) j k <+:
      deliveredAt arbiter rDatasize (inputsUpTo schedule m) k (j.castAdd nExt) := by
  have hands := fun n => (Machine.always_and.mp (delivers n)).2
  obtain ⟨free, afterwards, room⟩ := flow.room n
  have pushed : framesFor arbiter (inputsUpTo schedule free) j k =
      framesOn idWidth (j.castAdd nExt)
        (streamPushes arbiter ((inputsUpTo schedule (free + 1)).map (·.rx))) := by
    have now := delivers (free + 1)
    rw [inputsUpTo_succ, Machine.always_snoc] at now
    obtain ⟨tracks, frames⟩ :=
      streamFrames_eq wide (always_channels (Machine.always_and.mp now.1).1)
    rw [← channels_run arbiter rDatasize] at tracks frames
    rw [framesFor, frames, tracks.stageFrame_pushes now.2.1.2 wide room, inputsUpTo_succ,
      streamPushes_snoc arbiter rDatasize, framesOn_append]
    rfl
  obtain ⟨m, later, reached⟩ := flow.pops hands (free + 1) _ (Nat.le_refl _)
  obtain ⟨popped, length, split, delivered, -⟩ := exists_popped (hands m)
  -- What had been pushed then has left the FIFO by now.
  have left : streamPushes arbiter ((inputsUpTo schedule (free + 1)).map (·.rx)) <+: popped := by
    refine List.prefix_of_prefix_length_le (streamPushes_mono later) ?_ (length ▸ reached)
    rw [split]
    exact List.prefix_append ..
  refine ⟨m, (framesFor_mono afterwards).trans ?_⟩
  rw [pushed, delivered, framesOn, framesOn]
  exact (left.filter _).map _

end Runs

/-- A channel streams directly to unit `k`.  After every run that keeps its framing and
hands its words over, they have been delivered to unit `k` and to no other, in order, with
the right flags, or are on their way; and when all of a schedule does so and the FIFO is
never held back for ever, each word is delivered some time. -/
theorem rxStream_streamsTo (wide : 3 ≤ transSize) (arbiter : Arbiter (nLin + nExt))
    (rDatasize : BitVec idWidth → BitVec 2) (j : Fin nLin) (k : BitVec idWidth)
    (schedule : Nat → StreamsInput nLin nExt aWidth transSize idWidth) :
    (∀ n, (rxStreamsMachine aWidth transSize arbiter rDatasize).Always (RxStreams.Delivers j k)
        (inputsUpTo schedule n) →
      StreamsTo arbiter rDatasize (inputsUpTo schedule n) j k) ∧
    ((∀ n, (rxStreamsMachine aWidth transSize arbiter rDatasize).Always (RxStreams.Delivers j k)
        (inputsUpTo schedule n)) →
      StreamsFlow arbiter rDatasize schedule →
      ∀ n, ∃ m, framesFor arbiter (inputsUpTo schedule n) j k <+:
        deliveredAt arbiter rDatasize (inputsUpTo schedule m) k (j.castAdd nExt)) := by
  constructor
  · exact fun n delivers => streamsTo_of_delivers wide delivers
  · exact fun delivers flow n => flow.delivered wide delivers n

instance (j : Fin nLin) (k : BitVec idWidth)
    (input : RxInput nLin nExt aWidth transSize idWidth) :
    Decidable (RxChannels.SelectsStream j k input) :=
  decidable_of_iff _ (RxChannels.selectsStream_iff j k input).symm

instance {arbiter : Arbiter (nLin + nExt)} (j : Fin nLin) (k : BitVec idWidth)
    (channels : RxChannels aWidth transSize idWidth arbiter)
    (input : RxInput nLin nExt aWidth transSize idWidth) :
    Decidable (RxChannels.KeepsFraming j k channels input) :=
  decidable_of_iff _ (RxChannels.keepsFraming_iff j k channels input).symm

instance {arbiter : Arbiter (nLin + nExt)} (j : Fin nLin) (k : BitVec idWidth)
    (system : RxStreams aWidth transSize idWidth arbiter)
    (input : StreamsInput nLin nExt aWidth transSize idWidth) :
    Decidable (RxStreams.HandsOver j k system input) :=
  decidable_of_iff _ (RxStreams.handsOver_iff j k system input).symm

instance {arbiter : Arbiter (nLin + nExt)} (j : Fin nLin) (k : BitVec idWidth)
    (system : RxStreams aWidth transSize idWidth arbiter)
    (input : StreamsInput nLin nExt aWidth transSize idWidth) :
    Decidable (RxStreams.Delivers j k system input) :=
  inferInstanceAs (Decidable ((_ ∧ _) ∧ _))

/-! ## Runs of two linear channels and an external one -/

/-- A cycle in which one lane may have a word; the first channel streams directly to unit 1,
the second one writes to memory.  The units are ready, as is the consumer of unit 1, and
the L2 port is not. -/
def streamCycle (size : BitVec 4) (destination : BitVec 2) (starts : Bool)
    (valid : Option Nat) : StreamsInput 2 1 8 4 1 where
  rx :=
    { lin := fun j =>
        { valid := valid == some j.val, data := BitVec.ofNat 32 (0xA0 + j.val), datasize := 0
          destination := destination
          cfg :=
            { startaddr := 0x10, size := size, continuous := false, en := starts
              stream := if j.val = 0 then 2 else 0, streamId := 1, clr := false } }
      ext := fun _ =>
        { addr := 0x42, datasize := 2, destination := 0, stream := 0, streamId := 0
          sot := true, eot := false, valid := valid == some 2, data := 0xB0 }
      l2Gnt := false
      streamReady := fun _ => true }
  txChGnt _ := false
  txChValid _ := false
  txChData _ := 0
  streamReady unit := unit == 1

/-- Two words of a longer transfer, with a word of another channel between them. -/
def beginsStream : List (StreamsInput 2 1 8 4 1) :=
  streamCycle 8 1 true (some 0) ::
    [some 1, some 0, none, none].map (streamCycle 8 1 false)

/-- Nothing more is accepted after the two words. -/
def twoWords : Nat → StreamsInput 2 1 8 4 1 :=
  thenQuiet beginsStream (streamCycle 8 1 false none)

theorem twoWords_quiet (n : Nat) : twoWords (n + 5) = streamCycle 8 1 false none :=
  thenQuiet_after (Nat.le_add_left 5 n)

/-- Nobody requests in a quiet cycle. -/
theorem grant_quiet (channels : RxChannels 8 4 1 (udmaArbiter (2 + 1))) :
    channels.grant (streamCycle 8 1 false none).rx = none := by
  have silent : ∀ lane, channels.req (streamCycle 8 1 false none).rx lane = false := by
    refine Fin.addCases (fun j => ?_) (fun i => ?_)
    · rw [RxChannels.req, Fin.append_left]
      rfl
    · rw [RxChannels.req, Fin.append_right]
      rfl
  cases granted : channels.grant (streamCycle 8 1 false none).rx with
  | none => rfl
  | some lane =>
      have requested := (udmaArbiter (2 + 1)).requested granted
      exact absurd ((silent lane).symm.trans requested) Bool.false_ne_true

theorem twoWords_drained (n : Nat) :
    (rxStreamsRun (udmaArbiter (2 + 1)) 0 (inputsUpTo twoWords (n + 5))).channels.rGrant = none ∧
      (rxStreamsRun (udmaArbiter (2 + 1)) 0 (inputsUpTo twoWords (n + 5))).queue = [] := by
  induction n with
  | zero => decide +kernel
  | succ n inductionHypothesis =>
      obtain ⟨empty, nothing⟩ := inductionHypothesis
      rw [Nat.add_right_comm, inputsUpTo_succ, rxStreamsRun_snoc, twoWords_quiet, RxStreams.step,
        RxChannels.step, RxChannels.streamPush, RxChannels.pushFilter, empty, nothing, grant_quiet]
      simp

/-- A quiet cycle in which nothing is on its way asks for nothing. -/
theorem delivers_quiet {system : RxStreams 8 4 1 (udmaArbiter (2 + 1))}
    (empty : system.channels.rGrant = none) (nothing : system.queue = []) :
    RxStreams.Delivers 0 1 system (streamCycle 8 1 false none) := by
  have notStaged : system.channels.rGrant ≠ some ((0 : Fin 2).castAdd 1) := by
    rw [empty]
    exact (Option.some_ne_none _).symm
  have noHead : system.queue.head?.map Prod.fst ≠ some ((0 : Fin 2).castAdd 1) := by
    rw [nothing]
    exact (Option.some_ne_none _).symm
  have notReady : system.channels.chReady (streamCycle 8 1 false none).rx
      ((0 : Fin 2).castAdd 1) = false := by
    rw [RxChannels.chReady, grant_quiet]
    exact Bool.and_false _
  refine ⟨⟨⟨rfl, rfl⟩, ?_⟩, ?_⟩
  · constructor
    case first => exact fun ready => absurd (notReady.symm.trans ready) Bool.false_ne_true
    all_goals exact fun staged => absurd staged notStaged
  · constructor <;> exact fun head => absurd head noHead

theorem twoWords_delivers (n : Nat) :
    (rxStreamsMachine 8 4 (udmaArbiter (2 + 1)) 0).Always (RxStreams.Delivers 0 1)
      (inputsUpTo twoWords n) := by
  have later : ∀ n, (rxStreamsMachine 8 4 (udmaArbiter (2 + 1)) 0).Always
      (RxStreams.Delivers 0 1) (inputsUpTo twoWords (n + 5)) := by
    intro n
    induction n with
    | zero => decide +kernel
    | succ n inductionHypothesis =>
        obtain ⟨empty, nothing⟩ := twoWords_drained n
        rw [Nat.add_right_comm, inputsUpTo_succ, Machine.always_snoc, twoWords_quiet]
        exact ⟨inductionHypothesis, delivers_quiet empty nothing⟩
  have whole := later n
  rw [inputsUpTo, List.range_add, List.map_append] at whole
  exact whole.of_append

theorem twoWords_flow : StreamsFlow (udmaArbiter (2 + 1)) 0 twoWords := by
  intro n
  refine ⟨n + 5, Nat.le_add_right .., .inl ?_⟩
  rw [(named_run ..).valid_eq, (twoWords_drained n).2]
  rfl

theorem twoWords_streamsTo :
    StreamsTo (udmaArbiter (2 + 1)) 0 (inputsUpTo twoWords 5) 0 1 ∧
      (deliveredAt (udmaArbiter (2 + 1)) 0 (inputsUpTo twoWords 5) 1 0).map
          (fun word => (word.2.sot, word.2.eot)) = [(true, false), (false, false)] ∧
      ∀ n, ∃ m, framesFor (udmaArbiter (2 + 1)) (inputsUpTo twoWords n) 0 1 <+:
        deliveredAt (udmaArbiter (2 + 1)) 0 (inputsUpTo twoWords m) 1 0 := by
  have streams := rxStream_streamsTo (by decide) (udmaArbiter (2 + 1)) 0 0 1 twoWords
  exact ⟨streams.1 5 (twoWords_delivers 5), by decide +kernel,
    streams.2 twoWords_delivers twoWords_flow⟩

/-- A transfer of one word, in the cycle in which it is programmed. -/
def oneWordStream : List (StreamsInput 2 1 8 4 1) :=
  streamCycle 1 1 true (some 0) :: List.replicate 2 (streamCycle 1 1 false none)

/-- The first word comes one cycle after the channel is enabled. -/
def lateStream : List (StreamsInput 2 1 8 4 1) :=
  streamCycle 8 1 true none :: [some 0, none, none].map (streamCycle 8 1 false)

/-- The words of the channel have a memory destination. -/
def memoryStream : List (StreamsInput 2 1 8 4 1) :=
  streamCycle 8 0 true (some 0) :: List.replicate 2 (streamCycle 8 0 false none)

/-- A word of the stream is sampled while the FIFO of the L2 port is full. -/
def streamBehindMemory : List (StreamsInput 2 1 8 4 1) :=
  streamCycle 8 1 true (some 0) ::
    [some 1, some 1, some 1, some 1, some 0, none, none, none].map (streamCycle 8 1 false)

/-- The consumer of unit 0 is ready as well. -/
def twoConsumers : List (StreamsInput 2 1 8 4 1) :=
  beginsStream.map fun input => { input with streamReady := fun _ => true }

/-- The consumer of unit 1 is not ready, while the unit is. -/
def busyConsumer : List (StreamsInput 2 1 8 4 1) :=
  beginsStream.map fun input => { input with streamReady := fun _ => false }

/-- The last word of a transfer is not marked, nor is the first one when it comes late; a
word goes to the stream unit that its memory destination names, and several times when the
other FIFO is full; every consumer that is ready takes it, and it is lost when the unit
does not ask its consumer. -/
theorem rxStream_not_streamsTo :
    ¬StreamsTo (udmaArbiter (2 + 1)) 0 oneWordStream 0 1 ∧
      ¬StreamsTo (udmaArbiter (2 + 1)) 0 lateStream 0 1 ∧
      ¬StreamsTo (udmaArbiter (2 + 1)) 0 memoryStream 0 1 ∧
      ¬StreamsTo (udmaArbiter (2 + 1)) 0 streamBehindMemory 0 1 ∧
      ¬StreamsTo (udmaArbiter (2 + 1)) 0 twoConsumers 0 1 ∧
      ¬StreamsTo (udmaArbiter (2 + 1)) 0 busyConsumer 0 1 := by
  refine ⟨fun framed => ?_, fun framed => ?_, fun framed => ?_, fun framed => ?_, fun framed => ?_,
    fun framed => ?_⟩
  · exact absurd framed.inOrder (by decide +kernel)
  · exact absurd framed.inOrder (by decide +kernel)
  · exact absurd framed.inOrder (by decide +kernel)
  · exact absurd framed.inOrder (by decide +kernel)
  · exact absurd (framed.nowhereElse 0 (by decide)) (by decide +kernel)
  · exact absurd framed.kept (by decide +kernel)

end CoreVMcu.Udma
