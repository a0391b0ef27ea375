import CoreVMcu.Udma.RxSampling

/-!
# Direct streams

The words of a channel that streams directly, with the flags that mark the first and
the last word of each transfer.  What should be delivered is a function of the
transfers that the channel is loaded with and of the words that it accepts.
-/

namespace CoreVMcu.Udma

open Clocked Arbitration

/-- Number of bytes that a word of a data size stands for. -/
def streamBytes (datasize : BitVec 2) : Nat :=
  match datasize.toNat with
  | 0 => 1
  | 1 => 2
  | 2 => 4
  | _ => 0

/-- A word with its start and end flags. -/
structure StreamFrame where
  sot : Bool
  eot : Bool
  size : BitVec 2
  data : BitVec 32
  deriving DecidableEq, Repr

/-- What happens on a channel: a transfer of some bytes is loaded, or a word is accepted. -/
inductive StreamEvent where
  | loads (bytes : Nat)
  | accepts (size : BitVec 2) (data : BitVec 32)
  deriving DecidableEq, Repr

/-- The bytes that are left of a transfer, and whether it has begun. -/
structure FrameState where
  left : Nat
  begun : Bool
  deriving DecidableEq, Repr

/-- The transfer after an event. -/
def FrameState.next (state : FrameState) : StreamEvent → FrameState
  | .loads bytes => { left := bytes, begun := false }
  | .accepts size _ => { left := state.left - streamBytes size, begun := true }

/-- The first word of a transfer starts it, the one that covers what is left ends it. -/
def FrameState.frame (state : FrameState) : StreamEvent → List StreamFrame
  | .loads _ => []
  | .accepts size data =>
      [{ sot := !state.begun, eot := decide (state.left ≤ streamBytes size), size := size
         data := data }]

/-- The framing of the words of a channel. -/
def framing : Machine FrameState StreamEvent where
  init := { left := 0, begun := false }
  step := FrameState.next

variable {nLin nExt aWidth transSize idWidth : Nat}

/-- What is delivered to the stream units of a word. -/
def StreamWord.frame (word : StreamWord) : StreamFrame :=
  { sot := word.sot, eot := word.eot, size := word.size, data := word.data }

/-- The words of a lane among words with their lanes, each with the unit that it is for. -/
def framesOn (idWidth : Nat) {lanes : Nat} (lane : Fin lanes)
    (words : List (Fin lanes × StreamWord)) : List (BitVec idWidth × StreamFrame) :=
  (words.filter (·.1 == lane)).map fun word => (word.2.unit idWidth, word.2.frame)

theorem framesOn_append {lanes : Nat} (lane : Fin lanes)
    (words later : List (Fin lanes × StreamWord)) :
    framesOn idWidth lane (words ++ later) =
      framesOn idWidth lane words ++ framesOn idWidth lane later := by
  rw [framesOn, List.filter_append, List.map_append]
  rfl

/-- A channel is loaded with its configuration: when it is enabled, or when its last
word leaves the sampling stage and another transfer follows. -/
def ChAddrgen.loads (gen : ChAddrgen aWidth transSize idWidth)
    (cfg : ChannelCfg aWidth transSize idWidth) (control : ChannelControl) : Bool :=
  cfg.en && !gen.en ||
    !cfg.clr && (control.notStall && gen.en && control.grant && gen.compare control) &&
      (cfg.continuous || gen.pendingEn || cfg.en)

namespace RxChannels

variable {arbiter : Arbiter (nLin + nExt)}

/-- The words that a lane has accepted, in a cycle. -/
def acceptsOn (lane : Fin (nLin + nExt)) (channels : RxChannels aWidth transSize idWidth arbiter)
    (input : RxInput nLin nExt aWidth transSize idWidth) : List (RxWord (nLin + nExt)) :=
  ((channels.accepts input).map Prod.fst).filter (·.lane == lane)

/-- What happens on a linear channel in a cycle. -/
def streamEvents (j : Fin nLin) (channels : RxChannels aWidth transSize idWidth arbiter)
    (input : RxInput nLin nExt aWidth transSize idWidth) : List StreamEvent :=
  (if (channels.addrgen j).loads (input.lin j).cfg (channels.chControl j) then
    [.loads (input.lin j).cfg.size.toNat] else []) ++
    (channels.acceptsOn (j.castAdd nExt) input).map fun word => .accepts word.size word.data

/-- The word that enters the FIFO of the stream units, with its lane. -/
def streamPush (channels : RxChannels aWidth transSize idWidth arbiter) :
    List (Fin (nLin + nExt) × StreamWord) :=
  if channels.pushFilter && channels.filterFifo.ready rxDepth then
    channels.rGrant.toList.map fun lane => (lane, channels.fifoInStream)
  else []

end RxChannels

section Deliveries

variable (arbiter : Arbiter (nLin + nExt))
variable (inputs : List (RxInput nLin nExt aWidth transSize idWidth))

/-- The words that have entered the FIFO of the stream units, with their lanes. -/
def streamPushes : List (Fin (nLin + nExt) × StreamWord) :=
  (rxMachine aWidth transSize idWidth arbiter).observed (fun channels _ => channels.streamPush)
    inputs

/-- The words that a linear channel should deliver for what it has accepted. -/
def streamFrames (j : Fin nLin) : List StreamFrame :=
  framing.observed FrameState.frame
    ((rxMachine aWidth transSize idWidth arbiter).observed (RxChannels.streamEvents j) inputs)

end Deliveries

/-! ## One cycle of a channel -/

theorem toNat_datasizeToAdd_eq (wide : 3 ≤ transSize) (datasize : BitVec 2) :
    (datasizeToAdd transSize datasize).toNat = streamBytes datasize := by
  have fits : 2 ^ 3 ≤ 2 ^ transSize := Nat.pow_le_pow_right (by decide) wide
  have small : ∀ bytes < 2 ^ 3, (BitVec.ofNat transSize bytes).toNat = bytes := by
    intro bytes below
    rw [BitVec.toNat_ofNat]
    exact Nat.mod_eq_of_lt (Nat.lt_of_lt_of_le below fits)
  rcases twoBit_cases datasize with rfl | rfl | rfl | rfl <;> exact small _ (by decide)

theorem compare_eq (wide : 3 ≤ transSize) (gen : ChAddrgen aWidth transSize idWidth)
    (control : ChannelControl) :
    gen.compare control = decide (gen.counters.toNat ≤ streamBytes control.datasize) := by
  rw [ChAddrgen.compare, Bool.eq_iff_iff, decide_eq_true_eq, decide_eq_true_eq, BitVec.le_def,
    toNat_datasizeToAdd_eq wide]

namespace RxChannels

variable {arbiter : Arbiter (nLin + nExt)} {j : Fin nLin} {k : BitVec idWidth}
variable {channels : RxChannels aWidth transSize idWidth arbiter}
variable {input : RxInput nLin nExt aWidth transSize idWidth}

/-- The channel is configured for direct streaming to unit `k`. -/
@[mk_iff] structure SelectsStream (j : Fin nLin) (k : BitVec idWidth)
    (input : RxInput nLin nExt aWidth transSize idWidth) : Prop where
  stream : (input.lin j).cfg.stream = 2
  streamId : (input.lin j).cfg.streamId = k

/-- The word of the channel in the sampling stage has `k` in the place of its
destination, and is not the last one of its transfer; the first word of a transfer is
accepted when the channel is enabled and does not wait; no word waits behind the FIFO
of the L2 port, and the channel is not cleared while a word waits. -/
@[mk_iff] structure KeepsFraming (j : Fin nLin) (k : BitVec idWidth)
    (channels : RxChannels aWidth transSize idWidth arbiter)
    (input : RxInput nLin nExt aWidth transSize idWidth) : Prop where
  routed : channels.rGrant = some (j.castAdd nExt) →
    StreamWord.unit idWidth
      { sot := !(channels.addrgen j).chEn, eot := false, dest := channels.rDest
        size := channels.rSize, data := channels.rData } = k
  more : channels.rGrant = some (j.castAdd nExt) →
    (channels.addrgen j).compare (channels.chControl j) = false
  first : channels.chReady input (j.castAdd nExt) = true →
    (input.lin j).cfg.en = true ∧ (channels.addrgen j).en = false ∨
      (channels.addrgen j).chEn = true ∨ channels.rGrant = some (j.castAdd nExt)
  prompt : channels.rGrant = some (j.castAdd nExt) → (channels.addrgen j).chEn = false →
    channels.sampleIndata = true
  once : channels.rGrant = some (j.castAdd nExt) → channels.filterFifo.ready rxDepth = true →
    channels.fifo.ready rxDepth = true
  keeps : channels.rGrant = some (j.castAdd nExt) → channels.sampleIndata = false →
    (input.lin j).cfg.clr = false

/-- What should be delivered for the word of the channel in the sampling stage. -/
def stageFrame (j : Fin nLin) (channels : RxChannels aWidth transSize idWidth arbiter) :
    List StreamFrame :=
  if channels.rGrant = some (j.castAdd nExt) then
    [{ sot := !(channels.addrgen j).chEn
       eot := decide ((channels.addrgen j).counters.toNat ≤ streamBytes channels.rSize)
       size := channels.rSize, data := channels.rData }]
  else []

/-- The framing of a channel between two clock edges. -/
structure TracksFraming (j : Fin nLin) (state : FrameState)
    (channels : RxChannels aWidth transSize idWidth arbiter) : Prop where
  silent : (channels.addrgen j).event = false
  stream : (channels.addrgen j).en = true → (channels.addrgen j).stream = 2
  between : channels.rGrant ≠ some (j.castAdd nExt) → (channels.addrgen j).en = true →
    state = { left := (channels.addrgen j).counters.toNat, begun := (channels.addrgen j).chEn }
  staged : channels.rGrant = some (j.castAdd nExt) →
    (channels.addrgen j).en = true ∧ (channels.addrgen j).sot = !(channels.addrgen j).chEn ∧
      state =
        { left := (channels.addrgen j).counters.toNat - streamBytes channels.rSize, begun := true }

theorem tracksFraming_reset :
    TracksFraming j framing.init (reset : RxChannels aWidth transSize idWidth arbiter) where
  silent := rfl
  stream := fun enabled => nomatch enabled
  between := fun _ enabled => nomatch enabled
  staged := fun granted => nomatch granted

theorem acceptsOn_of_not_ready {lane : Fin (nLin + nExt)}
    (notReady : channels.chReady input lane = false) : channels.acceptsOn lane input = [] := by
  rw [acceptsOn]
  cases samples : channels.sampleIndata with
  | false => rw [accepts_of_stall samples]; rfl
  | true =>
      rw [accepts_of_sample samples]
      cases granted : channels.grant input with
      | none => rfl
      | some other =>
          have differs : (other == lane) = false := by
            simpa [chReady, samples, granted] using notReady
          simp [chWord, differs]

theorem acceptsOn_of_ready {lane : Fin (nLin + nExt)}
    (ready : channels.chReady input lane = true) :
    channels.acceptsOn lane input = [chWord input lane] := by
  obtain ⟨samples, granted⟩ := Bool.and_eq_true_iff.mp ready
  rw [acceptsOn, accepts_of_sample samples, eq_of_beq granted]
  simp [chWord]

/-- After a cycle in which the stage is free or moves on, it holds what was accepted. -/
theorem staged_iff_ready {lane : Fin (nLin + nExt)}
    (free : channels.sampleIndata = true ∨ channels.rGrant ≠ some lane)
    (input : RxInput nLin nExt aWidth transSize idWidth) :
    (channels.step input).rGrant = some lane ↔ channels.chReady input lane = true := by
  cases samples : channels.sampleIndata with
  | true => simp [step, chReady, samples]
  | false =>
      have other : channels.rGrant ≠ some lane :=
        free.resolve_left (by rw [samples]; exact Bool.false_ne_true)
      simp [step, chReady, samples, other]

/-- A word that is accepted is framed by the transfer that the channel has then. -/
theorem TracksFraming.accept {state : FrameState}
    (free : channels.sampleIndata = true ∨ channels.rGrant ≠ some (j.castAdd nExt))
    (silent : ((channels.step input).addrgen j).event = false)
    (tracks : ((channels.step input).addrgen j).en = true →
      ((channels.step input).addrgen j).stream = 2 ∧
        state = { left := ((channels.step input).addrgen j).counters.toNat
                  begun := ((channels.step input).addrgen j).chEn })
    (opens : channels.chReady input (j.castAdd nExt) = true →
      ((channels.step input).addrgen j).sot = !((channels.step input).addrgen j).chEn) :
    TracksFraming j
        (framing.runFrom state ((channels.acceptsOn (j.castAdd nExt) input).map fun word =>
          .accepts word.size word.data)) (channels.step input) ∧
      framing.observedFrom FrameState.frame state
          ((channels.acceptsOn (j.castAdd nExt) input).map fun word =>
            .accepts word.size word.data) =
        stageFrame j (channels.step input) := by
  have staged := staged_iff_ready free input
  cases ready : channels.chReady input (j.castAdd nExt) with
  | false =>
      have empty : (channels.step input).rGrant ≠ some (j.castAdd nExt) := by
        rw [Ne, staged, ready]
        exact Bool.false_ne_true
      rw [acceptsOn_of_not_ready ready, stageFrame, if_neg empty]
      exact ⟨⟨silent, fun enabled => (tracks enabled).1, fun _ enabled => (tracks enabled).2,
        fun granted => absurd granted empty⟩, rfl⟩
  | true =>
      have holds : (channels.step input).rGrant = some (j.castAdd nExt) := staged.mpr ready
      obtain ⟨samples, granted⟩ := Bool.and_eq_true_iff.mp ready
      have enabled : ((channels.step input).addrgen j).en = true :=
        ChAddrgen.step_en.trans (chEn_of_grant (eq_of_beq granted))
      obtain ⟨stream, rfl⟩ := tracks enabled
      have size : (channels.step input).rSize = (input.lin j).datasize := by
        simp [step, samples, inputMux, eq_of_beq granted]
      have data : (channels.step input).rData = (input.lin j).data := by
        simp [step, samples, inputMux, eq_of_beq granted]
      rw [acceptsOn_of_ready ready, stageFrame, if_pos holds, size, data]
      simp only [chWord, Fin.append_left]
      refine ⟨⟨silent, fun _ => stream, fun empty => absurd holds empty, fun _ => ?_⟩, rfl⟩
      rw [size]
      exact ⟨enabled, opens ready, rfl⟩

/-- The words of a lane that enter the FIFO of the stream units, with the unit that
they are for. -/
def streamPushOn (lane : Fin (nLin + nExt))
    (channels : RxChannels aWidth transSize idWidth arbiter) :
    List (BitVec idWidth × StreamFrame) :=
  framesOn idWidth lane channels.streamPush

theorem streamPushOn_of_empty {lane : Fin (nLin + nExt)} (empty : channels.rGrant ≠ some lane) :
    channels.streamPushOn lane = [] := by
  rw [streamPushOn, streamPush]
  split
  · cases granted : channels.rGrant with
    | none => rfl
    | some other =>
        have differs : (other == lane) = false := by simpa [granted] using empty
        simp [framesOn, differs]
  · rfl

/-- The word of the channel enters the FIFO with its flags, when there is room. -/
theorem streamPushOn_of_staged {state : FrameState} (tracks : TracksFraming j state channels)
    (keeps : KeepsFraming j k channels input) (wide : 3 ≤ transSize)
    (staged : channels.rGrant = some (j.castAdd nExt)) :
    channels.streamPushOn (j.castAdd nExt) =
      if channels.filterFifo.ready rxDepth then (stageFrame j channels).map fun frame => (k, frame)
      else [] := by
  obtain ⟨enabled, sot, -⟩ := tracks.staged staged
  have more : decide ((channels.addrgen j).counters.toNat ≤ streamBytes channels.rSize) = false :=
    (compare_eq wide (channels.addrgen j) (channels.chControl j)).symm.trans (keeps.more staged)
  have mux : channels.insideMux = channels.linMux j := by
    rw [insideMux, staged]
    exact Fin.append_left ..
  have direct : streamDirect channels.insideMux.stream = true := by
    rw [mux]
    change streamDirect (channels.addrgen j).stream = true
    rw [tracks.stream enabled]
    rfl
  have word : channels.fifoInStream =
      { sot := !(channels.addrgen j).chEn, eot := false, dest := channels.rDest
        size := channels.rSize, data := channels.rData } := by
    rw [fifoInStream, mux]
    simp only [linMux, sot, tracks.silent]
  rw [streamPushOn, streamPush, pushFilter, direct, staged, word, stageFrame, if_pos staged, more]
  cases room : channels.filterFifo.ready rxDepth with
  | false => rfl
  | true => simp [framesOn, StreamWord.frame, keeps.routed staged]

/-- The next values of an address generator whose last word is not in the sampling stage. -/
theorem addrgen_step (more : channels.rGrant = some (j.castAdd nExt) →
      (channels.addrgen j).compare (channels.chControl j) = false)
    (input : RxInput nLin nExt aWidth transSize idWidth) :
    (channels.step input).addrgen j =
      { (channels.addrgen j).next (input.lin j).cfg (channels.chControl j) with
        pendingEn :=
          (channels.addrgen j).nextPendingEn (input.lin j).cfg (channels.chControl j) } := by
  refine ChAddrgen.step_eq_next ?_
  cases granted : (channels.chControl j).grant with
  | false => rw [Bool.and_false, Bool.false_and]
  | true => rw [more (eq_of_beq granted), Bool.and_false]

/-- A word that leaves the sampling stage has entered the FIFO, and the transfer goes on. -/
theorem TracksFraming.leave {state : FrameState} (tracks : TracksFraming j state channels)
    (keeps : KeepsFraming j k channels input) (wide : 3 ≤ transSize)
    (staged : channels.rGrant = some (j.castAdd nExt)) (samples : channels.sampleIndata = true) :
    TracksFraming j
        (framing.runFrom state (channels.streamEvents j input)) (channels.step input) ∧
      framing.observedFrom FrameState.frame state (channels.streamEvents j input) =
        stageFrame j (channels.step input) := by
  obtain ⟨enabled, -, rfl⟩ := tracks.staged staged
  have more := keeps.more staged
  have granted : (channels.chControl j).grant = true := beq_iff_eq.mpr staged
  have moves : (channels.chControl j).notStall = true := samples
  have loads : (channels.addrgen j).loads (input.lin j).cfg (channels.chControl j) = false := by
    simp [ChAddrgen.loads, enabled, more]
  have next := addrgen_step keeps.more input
  rw [streamEvents, loads, if_neg Bool.false_ne_true, List.nil_append]
  have counters : ¬(channels.addrgen j).counters.toNat ≤ streamBytes channels.rSize := by
    have compares := compare_eq wide (channels.addrgen j) (channels.chControl j)
    rw [more] at compares
    exact of_decide_eq_false compares.symm
  cases clears : (input.lin j).cfg.clr with
  | true =>
      refine TracksFraming.accept (.inl samples) ?_ ?_ ?_ <;> rw [next] <;>
        simp [ChAddrgen.next, enabled, clears]
      -- A channel that is cleared accepts nothing.
      refine Bool.eq_false_iff.mpr fun ready => ?_
      have shown := chEn_of_grant (eq_of_beq (Bool.and_eq_true_iff.mp ready).2)
      simp [chEn, ChAddrgen.enPrev, ChAddrgen.next, enabled, clears] at shown
  | false =>
      refine TracksFraming.accept (.inl samples) ?_ (fun _ => ⟨?_, ?_⟩) (fun _ => ?_) <;>
        rw [next] <;>
        simp only [ChAddrgen.next, enabled, clears, granted, moves, more, Bool.not_true,
          Bool.and_false, Bool.and_self, Bool.false_eq_true, if_false, if_true]
      · exact tracks.stream enabled
      · change _ = FrameState.mk
          ((channels.addrgen j).counters - datasizeToAdd transSize channels.rSize).toNat true
        rw [BitVec.toNat_sub_of_le, toNat_datasizeToAdd_eq wide]
        rw [BitVec.le_def, toNat_datasizeToAdd_eq wide]
        exact Nat.le_of_lt (Nat.lt_of_not_le counters)

/-- A word that waits keeps its flags, because it is not the first one. -/
theorem TracksFraming.stall {state : FrameState} (tracks : TracksFraming j state channels)
    (keeps : KeepsFraming j k channels input)
    (staged : channels.rGrant = some (j.castAdd nExt)) (stalls : channels.sampleIndata = false) :
    TracksFraming j state (channels.step input) ∧ channels.streamEvents j input = [] ∧
      stageFrame j (channels.step input) = stageFrame j channels := by
  obtain ⟨enabled, -, same⟩ := tracks.staged staged
  have begun : (channels.addrgen j).chEn = true := by
    rw [← Bool.not_eq_false]
    exact fun fresh => Bool.false_ne_true (stalls.symm.trans (keeps.prompt staged fresh))
  have next := addrgen_of_stall stalls enabled (keeps.keeps staged stalls)
  have stays : (channels.step input).rGrant = some (j.castAdd nExt) ∧
      (channels.step input).rSize = channels.rSize ∧
      (channels.step input).rData = channels.rData := by
    simp [step, stalls, staged]
  have quiet : channels.chReady input (j.castAdd nExt) = false := by
    rw [chReady, stalls, Bool.false_and]
  have notStall : (channels.chControl j).notStall = false := stalls
  refine ⟨⟨?_, ?_, fun empty => absurd stays.1 empty, fun _ => ⟨?_, ?_, ?_⟩⟩, ?_, ?_⟩
  · rw [next]
  · rw [next]
    exact tracks.stream
  · rw [next]
    exact enabled
  · rw [next]
    exact congrArg Bool.not begun.symm
  · rw [next, stays.2.1, same]
  · simp [streamEvents, ChAddrgen.loads, enabled, notStall, acceptsOn_of_not_ready quiet]
  · rw [stageFrame, stageFrame, if_pos stays.1, if_pos staged, stays.2.1, stays.2.2, next]

/-- A channel without a word in the sampling stage may be enabled, and accept its first
word then, or a later one afterwards. -/
theorem TracksFraming.enter {state : FrameState} (tracks : TracksFraming j state channels)
    (selects : SelectsStream j k input) (keeps : KeepsFraming j k channels input)
    (empty : channels.rGrant ≠ some (j.castAdd nExt)) :
    TracksFraming j
        (framing.runFrom state (channels.streamEvents j input)) (channels.step input) ∧
      framing.observedFrom FrameState.frame state (channels.streamEvents j input) =
        stageFrame j (channels.step input) := by
  have granted : (channels.chControl j).grant = false := by
    simpa [chControl] using empty
  have next := addrgen_step (fun staged => absurd staged empty) input
  cases starts : (input.lin j).cfg.en && !(channels.addrgen j).en with
  | true =>
      have loads : (channels.addrgen j).loads (input.lin j).cfg (channels.chControl j) = true := by
        rw [ChAddrgen.loads, starts, Bool.true_or]
      rw [streamEvents, loads, if_pos rfl]
      refine TracksFraming.accept (.inr empty) ?_ ?_ ?_ <;> rw [next] <;>
        simp [ChAddrgen.next, starts, selects.stream, framing, FrameState.next]
  | false =>
      have loads : (channels.addrgen j).loads (input.lin j).cfg (channels.chControl j) = false := by
        simp [ChAddrgen.loads, starts, granted]
      rw [streamEvents, loads, if_neg Bool.false_ne_true, List.nil_append]
      cases clears : (input.lin j).cfg.clr with
      | true =>
          refine TracksFraming.accept (.inr empty) ?_ ?_ ?_ <;> rw [next] <;>
            simp [ChAddrgen.next, starts, clears]
          refine Bool.eq_false_iff.mpr fun ready => ?_
          have shown := chEn_of_grant (eq_of_beq (Bool.and_eq_true_iff.mp ready).2)
          simp [chEn, ChAddrgen.enPrev, ChAddrgen.next, starts, clears] at shown
      | false =>
          refine TracksFraming.accept (.inr empty) ?_ (fun enabled => ?_) (fun ready => ?_)
          · rw [next]
            simp [ChAddrgen.next, starts, clears, granted]
          · rw [next] at enabled ⊢
            simp only [ChAddrgen.next, starts, clears, granted, Bool.and_false, Bool.false_eq_true,
              if_false] at enabled ⊢
            exact ⟨tracks.stream enabled, tracks.between empty enabled⟩
          · have shown := chEn_of_grant (eq_of_beq (Bool.and_eq_true_iff.mp ready).2)
            have begun : (channels.addrgen j).chEn = true := by
              rcases keeps.first ready with started | begun | staged
              · simp [started.1, started.2] at starts
              · exact begun
              · exact absurd staged empty
            rw [next]
            simp [ChAddrgen.next, starts, clears, granted, begun]

/-- One clock edge: what was in the sampling stage and what is accepted enters the FIFO
or is in the sampling stage afterwards. -/
theorem TracksFraming.step {state : FrameState} (tracks : TracksFraming j state channels)
    (selects : SelectsStream j k input) (keeps : KeepsFraming j k channels input)
    (wide : 3 ≤ transSize) :
    TracksFraming j (framing.runFrom state (channels.streamEvents j input))
        (channels.step input) ∧
      (stageFrame j channels ++ framing.observedFrom FrameState.frame state
          (channels.streamEvents j input)).map (fun frame => (k, frame)) =
        channels.streamPushOn (j.castAdd nExt) ++
          (stageFrame j (channels.step input)).map fun frame => (k, frame) := by
  rw [List.map_append]
  cases staged : channels.rGrant == some (j.castAdd nExt) with
  | false =>
      have empty : channels.rGrant ≠ some (j.castAdd nExt) := by simpa using staged
      obtain ⟨tracksNext, frames⟩ := tracks.enter selects keeps empty
      rw [frames, stageFrame, if_neg empty, streamPushOn_of_empty empty]
      exact ⟨tracksNext, rfl⟩
  | true =>
      have holds : channels.rGrant = some (j.castAdd nExt) := eq_of_beq staged
      have pushes := streamPushOn_of_staged tracks keeps wide holds
      cases samples : channels.sampleIndata with
      | true =>
          obtain ⟨tracksNext, frames⟩ := tracks.leave keeps wide holds samples
          rw [frames, pushes, if_pos (ready_of_sample samples).1]
          exact ⟨tracksNext, rfl⟩
      | false =>
          obtain ⟨tracksNext, quiet, same⟩ := tracks.stall keeps holds samples
          have full : channels.filterFifo.ready rxDepth = false := by
            refine Bool.eq_false_iff.mpr fun room => ?_
            have free : channels.sampleIndata = true :=
              Bool.and_eq_true_iff.mpr ⟨room, keeps.once holds room⟩
            exact Bool.false_ne_true (samples.symm.trans free)
          rw [quiet, pushes, full, same]
          exact ⟨tracksNext, List.append_nil _⟩

end RxChannels

/-! ## Runs -/

section Runs

variable {arbiter : Arbiter (nLin + nExt)} {j : Fin nLin} {k : BitVec idWidth}
variable {inputs : List (RxInput nLin nExt aWidth transSize idWidth)}

/-- What should be delivered has entered the FIFO or is in the sampling stage. -/
theorem streamFrames_eq (wide : 3 ≤ transSize)
    (keeps : (rxMachine aWidth transSize idWidth arbiter).Always (fun channels input =>
      RxChannels.SelectsStream j k input ∧ RxChannels.KeepsFraming j k channels input) inputs) :
    RxChannels.TracksFraming j
        (framing.run ((rxMachine aWidth transSize idWidth arbiter).observed
          (RxChannels.streamEvents j) inputs)) (rxRun arbiter inputs) ∧
      (streamFrames arbiter inputs j).map (fun frame => (k, frame)) =
        framesOn idWidth (j.castAdd nExt) (streamPushes arbiter inputs) ++
          (RxChannels.stageFrame j (rxRun arbiter inputs)).map fun frame => (k, frame) := by
  refine Machine.run_induction
    (motive := fun inputs channels => RxChannels.TracksFraming j
        (framing.run ((rxMachine aWidth transSize idWidth arbiter).observed
          (RxChannels.streamEvents j) inputs)) channels ∧
      (streamFrames arbiter inputs j).map (fun frame => (k, frame)) =
        framesOn idWidth (j.castAdd nExt) (streamPushes arbiter inputs) ++
          (RxChannels.stageFrame j channels).map fun frame => (k, frame))
    ⟨RxChannels.tracksFraming_reset, rfl⟩ ?_ inputs keeps
  intro inputs input _ before keeps
  obtain ⟨tracks, frames⟩ := before
  obtain ⟨tracksNext, framesNext⟩ := tracks.step keeps.1 keeps.2 wide
  constructor
  · rw [Machine.observed_snoc, Machine.run_append]
    exact tracksNext
  · rw [streamFrames, streamPushes, Machine.observed_snoc, Machine.observed_snoc, Machine.observed,
      Machine.observedFrom_append, List.map_append, framesOn_append]
    change (streamFrames arbiter inputs j).map (fun frame => (k, frame)) ++ _ = _
    rw [frames, List.append_assoc, ← List.map_append, List.append_assoc]
    exact congrArg _ framesNext

end Runs

end CoreVMcu.Udma
