import Mathlib.Tactic.MkIffOfInductiveProp
import CoreVMcu.Arbitration.PrefixArbiter
import CoreVMcu.Clocked.Lanes
import CoreVMcu.Udma.RxChannels

/-!
# The sampling stage of the RX channels

A word that is accepted waits in the sampling stage until both FIFOs have room.  It
is pushed into the FIFO that its stream mode selects as soon as that FIFO has room,
so that it is pushed once when the two conditions agree.
-/

namespace CoreVMcu.Udma

open Clocked Arbitration

variable {nLin nExt aWidth transSize idWidth : Nat}

/-- A word with the lane that it comes from. -/
structure RxWord (lanes : Nat) where
  lane : Fin lanes
  size : BitVec 2
  dest : BitVec 2
  data : BitVec 32
  deriving DecidableEq, Repr

/-- The words, among those given with their stream modes, whose mode has a target. -/
def wordsTo {lanes : Nat} (target : BitVec 2 → Bool) (words : List (RxWord lanes × BitVec 2)) :
    List (RxWord lanes) :=
  (words.filter (target ·.2)).map Prod.fst

@[simp] theorem wordsTo_nil {lanes : Nat} (target : BitVec 2 → Bool) :
    wordsTo target ([] : List (RxWord lanes × BitVec 2)) = [] := rfl

theorem wordsTo_append {lanes : Nat} (target : BitVec 2 → Bool)
    (words later : List (RxWord lanes × BitVec 2)) :
    wordsTo target (words ++ later) = wordsTo target words ++ wordsTo target later := by
  rw [wordsTo, List.filter_append, List.map_append]
  rfl

theorem wordsTo_singleton {lanes : Nat} (target : BitVec 2 → Bool) (word : RxWord lanes)
    (stream : BitVec 2) :
    wordsTo target [(word, stream)] = if target stream then [word] else [] := by
  cases goes : target stream <;> simp [wordsTo, goes]

/-- The stream modes of a channel that writes to memory. -/
def writesMemory (stream : BitVec 2) : Bool := stream != 2

/-- The stream modes of a channel that streams. -/
def streams (stream : BitVec 2) : Bool := stream.getLsbD 1

/-- The stream mode of a channel that streams and does not write to memory. -/
def streamsDirectly (stream : BitVec 2) : Bool := stream == 2

theorem targetL2_eq (stream : BitVec 2) : targetL2 stream = writesMemory stream := by
  revert stream
  decide

theorem streamDirect_eq (stream : BitVec 2) : streamDirect stream = streamsDirectly stream := by
  revert stream
  decide

namespace RxChannels

variable {arbiter : Arbiter (nLin + nExt)}
variable (channels : RxChannels aWidth transSize idWidth arbiter)
variable (input : RxInput nLin nExt aWidth transSize idWidth)

/-- `lin_ch_valid_i` and `ext_ch_valid_i`. -/
def chValid (input : RxInput nLin nExt aWidth transSize idWidth) :
    Fin (nLin + nExt) → Bool :=
  Fin.append (fun j => (input.lin j).valid) (fun j => (input.ext j).valid)

/-- The word that a lane presents. -/
def chWord (input : RxInput nLin nExt aWidth transSize idWidth) (lane : Fin (nLin + nExt)) :
    RxWord (nLin + nExt) :=
  { lane := lane
    size := Fin.append (fun j => (input.lin j).datasize) (fun j => (input.ext j).datasize) lane
    dest :=
      Fin.append (fun j => (input.lin j).destination) (fun j => (input.ext j).destination) lane
    data := Fin.append (fun j => (input.lin j).data) (fun j => (input.ext j).data) lane }

/-- The stream mode of the word that a lane presents: that of the transfer that the
channel has or is being loaded with. -/
def chStream : Fin (nLin + nExt) → BitVec 2 :=
  Fin.append (fun j => ((channels.addrgen j).step (input.lin j).cfg (channels.chControl j)).stream)
    (fun j => (input.ext j).stream)

/-- The word that is accepted, with its stream mode: valid and ready are both high. -/
def accepts : List (RxWord (nLin + nExt) × BitVec 2) :=
  (raised fun lane => chValid input lane && channels.chReady input lane).map fun lane =>
    (chWord input lane, channels.chStream input lane)

/-- The word in the sampling stage, with the stream mode of its channel. -/
def waiting : List (RxWord (nLin + nExt) × BitVec 2) :=
  channels.rGrant.toList.map fun lane =>
    ({ lane := lane, size := channels.rSize, dest := channels.rDest, data := channels.rData },
      channels.insideMux.stream)

/-- The word that is pushed into the FIFO of the L2 port. -/
def pushesL2 : List (RxWord (nLin + nExt)) :=
  if channels.pushL2 && channels.fifo.ready rxDepth then
    channels.rGrant.toList.map fun lane =>
      { lane := lane, size := channels.fifoIn.size, dest := channels.fifoIn.dest
        data := channels.fifoIn.data }
  else []

/-- The word that is pushed into the FIFO of the stream units. -/
def pushesStream : List (RxWord (nLin + nExt)) :=
  if channels.pushFilter && channels.filterFifo.ready rxDepth then
    channels.rGrant.toList.map fun lane =>
      { lane := lane, size := channels.fifoInStream.size, dest := channels.fifoInStream.dest
        data := channels.fifoInStream.data }
  else []

variable {channels input}

/-- A granted lane presents a word, and an address generator that is granted is enabled. -/
theorem valid_of_grant {lane : Fin (nLin + nExt)}
    (granted : channels.grant input = some lane) : chValid input lane = true := by
  have requests := arbiter.requested granted
  cases lane using Fin.addCases with
  | left j =>
      simp only [req, Fin.append_left, Bool.and_eq_true] at requests
      simpa only [chValid, Fin.append_left] using requests.1
  | right i => simpa only [req, chValid, Fin.append_right] using requests

theorem chEn_of_grant {j : Fin nLin} (granted : channels.grant input = some (j.castAdd nExt)) :
    channels.chEn input j = true := by
  have requests := arbiter.requested granted
  simp only [req, Fin.append_left, Bool.and_eq_true] at requests
  exact requests.2

theorem accepts_of_stall (stalls : channels.sampleIndata = false) :
    channels.accepts input = [] := by
  have none : raised (fun lane => chValid input lane && channels.chReady input lane) = [] :=
    raised_eq_nil fun lane => by rw [chReady, stalls, Bool.false_and, Bool.and_false]
  rw [accepts, none, List.map_nil]

/-- The arbiter picks the word that is accepted. -/
theorem accepts_of_sample (samples : channels.sampleIndata = true) :
    channels.accepts input = (channels.grant input).toList.map fun lane =>
      (chWord input lane, channels.chStream input lane) := by
  rw [accepts]
  congr 1
  cases granted : channels.grant input with
  | none =>
      refine raised_eq_nil fun lane => ?_
      simp [chReady, granted]
  | some lane =>
      refine raised_eq_singleton ?_ fun other ready => ?_
      · simp [chReady, samples, granted, valid_of_grant granted]
      · simp only [chReady, granted, Bool.and_eq_true, beq_iff_eq, Option.some.injEq] at ready
        exact ready.2.2.symm

/-- What is accepted waits in the sampling stage in the next cycle. -/
theorem waiting_of_sample (samples : channels.sampleIndata = true) :
    (channels.step input).waiting = channels.accepts input := by
  rw [accepts_of_sample samples]
  have staged : (channels.step input).rGrant = channels.grant input := by simp [step, samples]
  rw [waiting, staged]
  cases granted : channels.grant input with
  | none => rfl
  | some lane =>
      rw [granted] at staged
      have mux : (channels.step input).insideMux.stream = channels.chStream input lane := by
        cases lane using Fin.addCases with
        | left j =>
            simp only [insideMux, staged, Fin.append_left, linMux, chStream]
            rfl
        | right i =>
            simp only [insideMux, staged, Fin.append_right, extMux, chStream]
            simp [step, samples, granted]
      have data : (channels.step input).rSize = (channels.inputMux input).size ∧
          (channels.step input).rDest = (channels.inputMux input).dest ∧
          (channels.step input).rData = (channels.inputMux input).data := by
        simp [step, samples]
      rw [Option.toList_some, List.map_singleton, List.map_singleton, mux, data.1, data.2.1,
        data.2.2, inputMux, granted]
      cases lane using Fin.addCases with
      | left j => simp [chWord]
      | right i => simp [chWord]

/-- The channel of the word in the sampling stage is enabled if the word goes to a stream
unit. -/
def StageEnabled (channels : RxChannels aWidth transSize idWidth arbiter) : Prop :=
  ∀ j : Fin nLin, channels.rGrant = some (j.castAdd nExt) →
    streamsDirectly (channels.addrgen j).stream = true → (channels.addrgen j).en = true

/-- While a word waits for room, its channel does not change the FIFO that it is for: the
channel is not cleared when it streams directly, and not enabled to do so when it has been
cleared. -/
def KeepsTarget (channels : RxChannels aWidth transSize idWidth arbiter)
    (input : RxInput nLin nExt aWidth transSize idWidth) : Prop :=
  channels.sampleIndata = false →
    ∀ j : Fin nLin, channels.rGrant = some (j.castAdd nExt) →
      (streamsDirectly (channels.addrgen j).stream = true → (input.lin j).cfg.clr = false) ∧
      ((channels.addrgen j).en = false → (input.lin j).cfg.en = true →
        streamsDirectly (input.lin j).cfg.stream = false)

/-- A stalled address generator keeps its transfer. -/
theorem addrgen_of_stall {j : Fin nLin} (stalls : channels.sampleIndata = false)
    (enabled : (channels.addrgen j).en = true) (keeps : (input.lin j).cfg.clr = false) :
    (channels.step input).addrgen j =
      { channels.addrgen j with
        event := false, sot := false
        pendingEn :=
          (channels.addrgen j).nextPendingEn (input.lin j).cfg (channels.chControl j) } := by
  have notStall : (channels.chControl j).notStall = false := stalls
  change (channels.addrgen j).step _ _ = _
  rw [ChAddrgen.step_eq_next (by rw [notStall, Bool.false_and, Bool.false_and])]
  simp only [ChAddrgen.next, enabled, keeps, notStall, Bool.not_true, Bool.and_false,
    Bool.false_and, Bool.false_eq_true, if_false]

/-- A stalled address generator streams directly if it did before, and is enabled then. -/
theorem streamsDirectly_of_stall {j : Fin nLin} (stalls : channels.sampleIndata = false)
    (enabled : streamsDirectly (channels.addrgen j).stream = true →
      (channels.addrgen j).en = true)
    (keeps : streamsDirectly (channels.addrgen j).stream = true → (input.lin j).cfg.clr = false)
    (starts : (channels.addrgen j).en = false → (input.lin j).cfg.en = true →
      streamsDirectly (input.lin j).cfg.stream = false) :
    streamsDirectly ((channels.step input).addrgen j).stream =
        streamsDirectly (channels.addrgen j).stream ∧
      (streamsDirectly ((channels.step input).addrgen j).stream = true →
        ((channels.step input).addrgen j).en = true) := by
  cases direct : streamsDirectly (channels.addrgen j).stream with
  | true =>
      rw [addrgen_of_stall stalls (enabled direct) (keeps direct)]
      exact ⟨direct, fun _ => enabled direct⟩
  | false =>
      have notStall : (channels.chControl j).notStall = false := stalls
      have other : streamsDirectly ((channels.step input).addrgen j).stream = false := by
        change streamsDirectly ((channels.addrgen j).step _ _).stream = false
        rw [ChAddrgen.step_eq_next (by rw [notStall, Bool.false_and, Bool.false_and])]
        simp only [ChAddrgen.next, notStall, Bool.false_and, Bool.false_eq_true, if_false]
        cases loads : (input.lin j).cfg.en && !(channels.addrgen j).en with
        | true =>
            rw [if_pos rfl]
            simp only [Bool.and_eq_true, Bool.not_eq_true'] at loads
            exact starts loads.2 loads.1
        | false =>
            rw [if_neg Bool.false_ne_true]
            cases (input.lin j).cfg.clr with
            | true => rfl
            | false => exact direct
      exact ⟨other, fun now => absurd (other.symm.trans now) Bool.false_ne_true⟩

theorem stageEnabled_reset :
    StageEnabled (reset : RxChannels aWidth transSize idWidth arbiter) :=
  fun _ granted => nomatch granted

theorem StageEnabled.step (enabled : channels.StageEnabled) (keeps : channels.KeepsTarget input) :
    (channels.step input).StageEnabled := by
  intro j granted direct
  cases samples : channels.sampleIndata with
  | true =>
      have now : channels.grant input = some (j.castAdd nExt) := by
        simpa only [RxChannels.step, samples, if_true] using granted
      exact ChAddrgen.step_en.trans (chEn_of_grant now)
  | false =>
      have before : channels.rGrant = some (j.castAdd nExt) := by
        simpa only [RxChannels.step, samples, Bool.false_eq_true, if_false] using granted
      obtain ⟨notCleared, notStarted⟩ := keeps samples j before
      exact (streamsDirectly_of_stall samples (enabled j before) notCleared notStarted).2 direct

/-- A word that waits for room stays one for the same FIFO. -/
theorem streamsDirectly_waiting (stalls : channels.sampleIndata = false)
    (enabled : channels.StageEnabled) (keeps : channels.KeepsTarget input) :
    streamsDirectly (channels.step input).insideMux.stream =
      streamsDirectly channels.insideMux.stream := by
  have staged : (channels.step input).rGrant = channels.rGrant := by simp [step, stalls]
  cases granted : channels.rGrant with
  | none => rw [insideMux, insideMux, staged, granted]
  | some lane =>
      rw [granted] at staged
      cases lane using Fin.addCases with
      | left j =>
          obtain ⟨notCleared, notStarted⟩ := keeps stalls j granted
          simp only [insideMux, staged, granted, Fin.append_left, linMux]
          exact (streamsDirectly_of_stall stalls (enabled j granted) notCleared notStarted).1
      | right i =>
          simp only [insideMux, staged, granted, Fin.append_right, extMux]
          simp [step, stalls]

theorem wordsTo_waiting_of_stall {target : BitVec 2 → Bool} (stalls : channels.sampleIndata = false)
    (same : target (channels.step input).insideMux.stream = target channels.insideMux.stream) :
    wordsTo target (channels.step input).waiting = wordsTo target channels.waiting := by
  have staged : (channels.step input).rGrant = channels.rGrant := by simp [step, stalls]
  have data : (channels.step input).rSize = channels.rSize ∧
      (channels.step input).rDest = channels.rDest ∧
      (channels.step input).rData = channels.rData := by simp [step, stalls]
  rw [waiting, waiting, staged, data.1, data.2.1, data.2.2]
  cases channels.rGrant with
  | none => rfl
  | some lane =>
      rw [Option.toList_some, List.map_singleton, List.map_singleton, wordsTo_singleton,
        wordsTo_singleton, same]

theorem waiting_of_grant {lane : Fin (nLin + nExt)} (granted : channels.rGrant = some lane) :
    channels.waiting =
      [({ lane := lane, size := channels.rSize, dest := channels.rDest, data := channels.rData },
        channels.insideMux.stream)] := by
  rw [waiting, granted]
  rfl

/-- A word is pushed when its FIFO has room. -/
theorem pushesL2_eq :
    channels.pushesL2 =
      if channels.fifo.ready rxDepth then wordsTo writesMemory channels.waiting else [] := by
  rw [pushesL2, pushL2, targetL2_eq]
  cases granted : channels.rGrant with
  | none => simp [waiting, granted]
  | some lane =>
      rw [waiting_of_grant granted, wordsTo_singleton]
      cases room : channels.fifo.ready rxDepth <;>
        cases goes : writesMemory channels.insideMux.stream <;> simp [fifoIn]

theorem pushesStream_eq :
    channels.pushesStream =
      if channels.filterFifo.ready rxDepth then wordsTo streamsDirectly channels.waiting
      else [] := by
  rw [pushesStream, pushFilter, streamDirect_eq]
  cases granted : channels.rGrant with
  | none => simp [waiting, granted]
  | some lane =>
      rw [waiting_of_grant granted, wordsTo_singleton]
      cases room : channels.filterFifo.ready rxDepth <;>
        cases goes : streamsDirectly channels.insideMux.stream <;> simp [fifoInStream]

/-! ## One cycle -/

/-- The sampling stage moves on when it pushes: the word in it does not find room in
its own FIFO while the other one is full, and stays one for that FIFO meanwhile. -/
@[mk_iff] structure MovesWhenPushing (channels : RxChannels aWidth transSize idWidth arbiter)
    (input : RxInput nLin nExt aWidth transSize idWidth) : Prop where
  l2 : channels.pushL2 = true → channels.fifo.ready rxDepth = true →
    channels.filterFifo.ready rxDepth = true
  stream : channels.pushFilter = true → channels.filterFifo.ready rxDepth = true →
    channels.fifo.ready rxDepth = true
  keeps : channels.KeepsTarget input

theorem ready_of_sample (samples : channels.sampleIndata = true) :
    channels.filterFifo.ready rxDepth = true ∧ channels.fifo.ready rxDepth = true :=
  Bool.and_eq_true_iff.mp samples

theorem pushesL2_of_stall (moves : channels.MovesWhenPushing input)
    (stalls : channels.sampleIndata = false) : channels.pushesL2 = [] := by
  rw [pushesL2]
  cases pushes : channels.pushL2 && channels.fifo.ready rxDepth with
  | false => rfl
  | true =>
      obtain ⟨targets, room⟩ := Bool.and_eq_true_iff.mp pushes
      have samples : channels.sampleIndata = true :=
        Bool.and_eq_true_iff.mpr ⟨moves.l2 targets room, room⟩
      exact absurd (stalls.symm.trans samples) Bool.false_ne_true

theorem pushesStream_of_stall (moves : channels.MovesWhenPushing input)
    (stalls : channels.sampleIndata = false) : channels.pushesStream = [] := by
  rw [pushesStream]
  cases pushes : channels.pushFilter && channels.filterFifo.ready rxDepth with
  | false => rfl
  | true =>
      obtain ⟨targets, room⟩ := Bool.and_eq_true_iff.mp pushes
      have samples : channels.sampleIndata = true :=
        Bool.and_eq_true_iff.mpr ⟨room, moves.stream targets room⟩
      exact absurd (stalls.symm.trans samples) Bool.false_ne_true

/-- The word in the sampling stage is pushed once before the next one is sampled. -/
theorem pushesL2_step (enabled : channels.StageEnabled) (moves : channels.MovesWhenPushing input) :
    wordsTo writesMemory channels.waiting ++ wordsTo writesMemory (channels.accepts input) =
      channels.pushesL2 ++ wordsTo writesMemory (channels.step input).waiting := by
  cases samples : channels.sampleIndata with
  | true =>
      rw [waiting_of_sample samples, pushesL2_eq, if_pos (ready_of_sample samples).2]
  | false =>
      have same := congrArg not (streamsDirectly_waiting samples enabled moves.keeps)
      rw [wordsTo_waiting_of_stall samples same,
        pushesL2_of_stall moves samples, accepts_of_stall samples, wordsTo_nil, List.append_nil,
        List.nil_append]

theorem pushesStream_step (enabled : channels.StageEnabled)
    (moves : channels.MovesWhenPushing input) :
    wordsTo streamsDirectly channels.waiting ++ wordsTo streamsDirectly (channels.accepts input) =
      channels.pushesStream ++ wordsTo streamsDirectly (channels.step input).waiting := by
  cases samples : channels.sampleIndata with
  | true =>
      rw [waiting_of_sample samples, pushesStream_eq, if_pos (ready_of_sample samples).1]
  | false =>
      rw [wordsTo_waiting_of_stall samples (streamsDirectly_waiting samples enabled moves.keeps),
        pushesStream_of_stall moves samples, accepts_of_stall samples, wordsTo_nil, List.append_nil,
        List.nil_append]

end RxChannels

/-! ## Runs -/

section Runs

variable (arbiter : Arbiter (nLin + nExt))
variable (inputs : List (RxInput nLin nExt aWidth transSize idWidth))

/-- The state after a run. -/
abbrev rxRun : RxChannels aWidth transSize idWidth arbiter :=
  (rxMachine aWidth transSize idWidth arbiter).run inputs

/-- The words that are accepted along a run, with their stream modes. -/
def acceptedWords : List (RxWord (nLin + nExt) × BitVec 2) :=
  (rxMachine aWidth transSize idWidth arbiter).observed RxChannels.accepts inputs

/-- The words that enter the FIFO of the L2 port along a run. -/
def pushedL2 : List (RxWord (nLin + nExt)) :=
  (rxMachine aWidth transSize idWidth arbiter).observed (fun channels _ => channels.pushesL2) inputs

/-- The words that enter the FIFO of the stream units along a run. -/
def pushedStream : List (RxWord (nLin + nExt)) :=
  (rxMachine aWidth transSize idWidth arbiter).observed (fun channels _ => channels.pushesStream)
    inputs

/-- Every accepted word but the one that is still in the sampling stage has entered the
FIFO of the L2 port once if the channel has a stream mode `toL2`, and that of the stream
units once if it has a stream mode `toStream`, and no other word has entered them. -/
structure PushedOnce (toL2 toStream : BitVec 2 → Bool) : Prop where
  l2 : wordsTo toL2 (acceptedWords arbiter inputs) =
    pushedL2 arbiter inputs ++ wordsTo toL2 (rxRun arbiter inputs).waiting
  stream : wordsTo toStream (acceptedWords arbiter inputs) =
    pushedStream arbiter inputs ++ wordsTo toStream (rxRun arbiter inputs).waiting

end Runs

/-- The words of the channels that write to memory enter the FIFO of the L2 port, those
of the channels that stream directly enter the FIFO of the stream units, each once. -/
theorem rxWords_pushedOnce (arbiter : Arbiter (nLin + nExt))
    (inputs : List (RxInput nLin nExt aWidth transSize idWidth))
    (moves : (rxMachine aWidth transSize idWidth arbiter).Always RxChannels.MovesWhenPushing
      inputs) :
    PushedOnce arbiter inputs writesMemory streamsDirectly := by
  have invariant : PushedOnce arbiter inputs writesMemory streamsDirectly ∧
      (rxRun arbiter inputs).StageEnabled := by
    refine Machine.run_induction
      (motive := fun inputs channels => PushedOnce arbiter inputs writesMemory streamsDirectly ∧
        channels.StageEnabled)
      ⟨⟨rfl, rfl⟩, RxChannels.stageEnabled_reset⟩ ?_ inputs moves
    intro inputs input _ before moves
    obtain ⟨pushed, enabled⟩ := before
    refine ⟨⟨?_, ?_⟩, enabled.step moves.keeps⟩
    · rw [acceptedWords, pushedL2, rxRun, Machine.observed_snoc, Machine.observed_snoc,
        Machine.run_snoc, wordsTo_append, ← acceptedWords, ← pushedL2, pushed.l2, List.append_assoc,
        List.append_assoc, RxChannels.pushesL2_step enabled moves]
      rfl
    · rw [acceptedWords, pushedStream, rxRun, Machine.observed_snoc, Machine.observed_snoc,
        Machine.run_snoc, wordsTo_append, ← acceptedWords, ← pushedStream, pushed.stream,
        List.append_assoc, List.append_assoc, RxChannels.pushesStream_step enabled moves]
      rfl
  exact invariant.1

/-- The stream modes for memory only, stream only, and for a stream that is buffered in
memory. -/
structure RxModes where
  first : BitVec 2
  second : BitVec 2
  external : BitVec 2

/-- A cycle in which one lane has a word, no stream unit is ready and the L2 port is. -/
def rxCycle (modes : RxModes) (starts clr : Bool) (valid : Option Nat) :
    RxInput 2 1 8 4 1 where
  lin j :=
    { valid := valid == some j.val, data := BitVec.ofNat 32 (0xA0 + j.val), datasize := 0
      destination := 0
      cfg :=
        { startaddr := 0x10, size := 15, continuous := false, en := starts
          stream := if j.val = 0 then modes.first else modes.second, streamId := 0, clr := clr } }
  ext _ :=
    { addr := 0x42, datasize := 2, destination := 1, stream := modes.external, streamId := 0
      sot := true, eot := false, valid := valid == some 2, data := 0xB0 }
  l2Gnt := true
  streamReady _ := false

instance (channels : RxChannels aWidth transSize idWidth arbiter)
    (input : RxInput nLin nExt aWidth transSize idWidth) : Decidable (channels.KeepsTarget input) :=
  inferInstanceAs (Decidable (_ → ∀ _ : Fin nLin, _ → (_ → _) ∧ (_ → _ → _)))

instance (channels : RxChannels aWidth transSize idWidth arbiter)
    (input : RxInput nLin nExt aWidth transSize idWidth) :
    Decidable (channels.MovesWhenPushing input) :=
  decidable_of_iff _ (RxChannels.movesWhenPushing_iff channels input).symm

/-- Words of three channels, one for each stream mode. -/
def mixedModes : List (RxInput 2 1 8 4 1) :=
  rxCycle ⟨2, 0, 3⟩ true false (some 0) ::
    [some 1, some 2, some 0, some 1, none].map (rxCycle ⟨2, 0, 3⟩ false false)

theorem mixedModes_pushedOnce :
    PushedOnce (udmaArbiter (2 + 1)) mixedModes writesMemory streamsDirectly ∧
      (pushedL2 (udmaArbiter (2 + 1)) mixedModes).map (·.data) = [0xA1, 0xB0, 0xA1] ∧
      (pushedStream (udmaArbiter (2 + 1)) mixedModes).map (·.data) = [0xA0, 0xA0] :=
  ⟨rxWords_pushedOnce _ _ (by decide +kernel), by decide +kernel, by decide +kernel⟩

/-- A word of a channel that streams through a buffer in memory. -/
def bufferedStream : List (RxInput 2 1 8 4 1) :=
  [rxCycle ⟨3, 3, 3⟩ true false (some 0), rxCycle ⟨3, 3, 3⟩ false false none]

/-- A word for the memory is sampled while the stream units fill their FIFO. -/
def memoryBehindStream : List (RxInput 2 1 8 4 1) :=
  rxCycle ⟨2, 0, 0⟩ true false (some 0) ::
    [some 0, some 0, some 0, some 1, none, none].map (rxCycle ⟨2, 0, 0⟩ false false)

/-- A channel is cleared while its word waits for room in the FIFO of the stream units. -/
def clearedStream : List (RxInput 2 1 8 4 1) :=
  rxCycle ⟨2, 0, 0⟩ true false (some 0) ::
    List.replicate 4 (rxCycle ⟨2, 0, 0⟩ false false (some 0)) ++
    [rxCycle ⟨2, 0, 0⟩ false true none, rxCycle ⟨2, 0, 0⟩ false false none]

/-- The word of the buffered stream does not enter the FIFO of the stream units; a word
for the memory is pushed twice while the other FIFO is full; a word that waits is pushed
into the other FIFO when its channel is cleared. -/
theorem rxWords_not_pushedOnce :
    ¬PushedOnce (udmaArbiter (2 + 1)) bufferedStream writesMemory streams ∧
      ¬PushedOnce (udmaArbiter (2 + 1)) memoryBehindStream writesMemory streams ∧
      ¬PushedOnce (udmaArbiter (2 + 1)) clearedStream writesMemory streams := by
  refine ⟨fun pushed => ?_, fun pushed => ?_, fun pushed => ?_⟩
  · exact absurd pushed.stream (by decide +kernel)
  · exact absurd pushed.l2 (by decide +kernel)
  · exact absurd pushed.l2 (by decide +kernel)

end CoreVMcu.Udma
