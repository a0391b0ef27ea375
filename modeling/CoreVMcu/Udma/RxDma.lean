import CoreVMcu.Clocked.ByteMemory
import CoreVMcu.Udma.RxTransfers

/-!
# RX DMA

Each linear channel is programmed with one transfer.  The words that it accepts are
written to the consecutive bytes of the region of the transfer, in order, and nothing
else is written; then the event of the channel is raised, once, and the channel stops.
-/

namespace CoreVMcu.Udma

open Clocked Arbitration

variable {nLin nExt aWidth transSize idWidth : Nat}

/-- The lowest bytes of words of a data size, least significant byte first. -/
def concatenated (datasize : BitVec 2) (words : List (BitVec 32)) : List (BitVec 8) :=
  words.flatMap fun word => (List.range (2 ^ datasize.toNat)).map (byteOf word)

/-- The inputs program the transfers for memory, each at most once, and the external
channels are silent. -/
structure RxProgrammed (transfers : Fin nLin → Transfer aWidth transSize)
    (inputs : List (RxInput nLin nExt aWidth transSize idWidth)) : Prop where
  programs : ∀ input ∈ inputs, ∀ j, (transfers j).Programs (input.lin j).cfg
  memory : ∀ input ∈ inputs, ∀ j, (input.lin j).cfg.en = true → (input.lin j).cfg.stream = 0
  datasize : ∀ input ∈ inputs, ∀ j, (input.lin j).datasize = (transfers j).datasize
  destination : ∀ input ∈ inputs, ∀ j, (input.lin j).destination = (transfers j).destination
  once : ∀ j, inputs.countP (fun input => (input.lin j).cfg.en) ≤ 1
  noExternal : ∀ input ∈ inputs, ∀ i, (input.ext i).valid = false

section Runs

variable (arbiter : Arbiter (nLin + nExt))
variable (transfers : Fin nLin → Transfer aWidth transSize)
variable (inputs : List (RxInput nLin nExt aWidth transSize idWidth))

/-- The L2 port grants only requests. -/
abbrev GrantsRequests : Prop :=
  (rxMachine aWidth transSize idWidth arbiter).Always RxChannels.GrantsRequest inputs

/-- The words that a linear channel accepts. -/
def rxWords (j : Fin nLin) : List (BitVec 32) :=
  ((rxMachine aWidth transSize idWidth arbiter).observed
    (RxChannels.acceptsOn (j.castAdd nExt)) inputs).map (·.data)

/-- The bytes that are written, in order. -/
def rxWrites : List (BitVec 32 × BitVec 8) :=
  (rxMachine aWidth transSize idWidth arbiter).observed RxChannels.writes inputs

/-- Number of cycles in which the event of a linear channel is raised. -/
def rxEvents (j : Fin nLin) : Nat :=
  (rxMachine aWidth transSize idWidth arbiter).counted
    (fun channels input => (channels.step input).chEvent j) inputs

/-- The channel is programmed along a run. -/
def IsProgrammed (j : Fin nLin) : Prop := ∃ input ∈ inputs, (input.lin j).cfg.en = true

/-- No byte belongs to the regions of two channels, or twice to one. -/
def RegionsDisjoint : Prop :=
  ∀ j k, IsProgrammed inputs j → IsProgrammed inputs k →
    ∀ b < (transfers j).size.toNat, ∀ c < (transfers k).size.toNat,
      (transfers j).byteAddress b = (transfers k).byteAddress c → j = k ∧ b = c

/-- The words that have been accepted are written: none is in the sampling stage or in
the FIFO. -/
def Drained (channels : RxChannels aWidth transSize idWidth arbiter) : Prop :=
  channels.rGrant = none ∧ channels.fifo.valid = false

/-- The regions hold the words that the channels have accepted. -/
def HoldsWords (memory : BitVec 32 → BitVec 8) : Prop :=
  Drained arbiter (rxRun arbiter inputs) →
    ∀ j, ∀ b < (transfers j).size.toNat, ∀ byte,
      (concatenated (transfers j).datasize (rxWords arbiter inputs j))[b]? = some byte →
      stored memory (rxWrites arbiter inputs) ((transfers j).byteAddress b) = byte

end Runs

/-- After the last write the regions of the channels hold the words that they have
accepted; only bytes of the regions are written; a channel raises its event once, after
its last word, and stops; and the accepted words are written after enough cycles in
which the L2 port refuses no request. -/
structure RxDelivers (arbiter : Arbiter (nLin + nExt)) (memory : BitVec 32 → BitVec 8)
    (transfers : Fin nLin → Transfer aWidth transSize)
    (inputs : List (RxInput nLin nExt aWidth transSize idWidth)) : Prop where
  contents : RegionsDisjoint transfers inputs → HoldsWords arbiter transfers inputs memory
  confined : ∀ write ∈ rxWrites arbiter inputs,
    ∃ j, IsProgrammed inputs j ∧ ∃ b < (transfers j).size.toNat,
      write.1 = (transfers j).byteAddress b
  whole : ∀ j, (rxWords arbiter inputs j).length ≤ (transfers j).accesses ∧
    ((rxWords arbiter inputs j).length = (transfers j).accesses →
      (transfers j).size.toNat ≤
        (concatenated (transfers j).datasize (rxWords arbiter inputs j)).length)
  once : ∀ j, rxEvents arbiter inputs j ≤ 1
  finishes : Drained arbiter (rxRun arbiter inputs) → ∀ j,
    rxEvents arbiter inputs j =
        (decide ((rxWords arbiter inputs j).length = (transfers j).accesses)).toNat ∧
      (((rxRun arbiter inputs).addrgen j).en = true ↔
        IsProgrammed inputs j ∧ (rxWords arbiter inputs j).length < (transfers j).accesses)
  drains : ∀ later, RxProgrammed transfers (inputs ++ later) →
    GrantsRequests arbiter (inputs ++ later) →
    acceptedWords arbiter (inputs ++ later) = acceptedWords arbiter inputs →
    10 ≤ (rxMachine aWidth transSize idWidth arbiter).countedFrom RxChannels.moves
      (rxRun arbiter inputs) later →
    Drained arbiter (rxRun arbiter (inputs ++ later))

section Flow

variable {arbiter : Arbiter (nLin + nExt)} {transfers : Fin nLin → Transfer aWidth transSize}
variable {inputs : List (RxInput nLin nExt aWidth transSize idWidth)}
variable {done queued : List (Fin (nLin + nExt) × RxAccess aWidth idWidth)}

/-- The accesses that have entered the FIFO of the L2 port along a run, with their lanes. -/
def rxPushes (arbiter : Arbiter (nLin + nExt))
    (inputs : List (RxInput nLin nExt aWidth transSize idWidth)) :
    List (Fin (nLin + nExt) × RxAccess aWidth idWidth) :=
  (rxMachine aWidth transSize idWidth arbiter).observed (fun channels _ => channels.pushes) inputs

/-- The accesses of a linear channel that have entered the FIFO. -/
def rxAccesses (arbiter : Arbiter (nLin + nExt))
    (inputs : List (RxInput nLin nExt aWidth transSize idWidth)) (j : Fin nLin) :
    List (RxAccess aWidth idWidth) :=
  ((rxPushes arbiter inputs).filter (·.1 == j.castAdd nExt)).map Prod.snd

/-- A linear channel along a run. -/
structure LaneFlow (arbiter : Arbiter (nLin + nExt)) (transfer : Transfer aWidth transSize)
    (inputs : List (RxInput nLin nExt aWidth transSize idWidth)) (j : Fin nLin)
    (status : TransferStatus) : Prop where
  tracks : RxChannels.TracksTransfer transfer j (rxRun arbiter inputs)
    (rxAccesses arbiter inputs j).length status
  words : RxChannels.Accesses transfer j (rxRun arbiter inputs) (rxWords arbiter inputs j)
    (rxAccesses arbiter inputs j)
  programmed : status.programmed = inputs.countP fun input => (input.lin j).cfg.en
  events : status.events = rxEvents arbiter inputs j

/-- The channels along a run. -/
structure RxFlow (arbiter : Arbiter (nLin + nExt))
    (transfers : Fin nLin → Transfer aWidth transSize)
    (inputs : List (RxInput nLin nExt aWidth transSize idWidth))
    (done queued : List (Fin (nLin + nExt) × RxAccess aWidth idWidth)) : Prop where
  only : (rxRun arbiter inputs).MemoryOnly
  inFlight : RxChannels.InFlight (rxRun arbiter inputs) (rxPushes arbiter inputs) done queued
    (rxWrites arbiter inputs)
  linear : ∀ access ∈ rxPushes arbiter inputs, ∃ j : Fin nLin, access.1 = j.castAdd nExt
  lane : ∀ j, ∃ status, LaneFlow arbiter (transfers j) inputs j status
  accepted : (acceptedWords arbiter inputs).length =
    (rxPushes arbiter inputs).length + (rxRun arbiter inputs).rGrant.toList.length

theorem RxProgrammed.of_append {later : List (RxInput nLin nExt aWidth transSize idWidth)}
    (programmed : RxProgrammed transfers (inputs ++ later)) : RxProgrammed transfers inputs where
  programs := fun input member => programmed.programs input (List.mem_append_left _ member)
  memory := fun input member => programmed.memory input (List.mem_append_left _ member)
  datasize := fun input member => programmed.datasize input (List.mem_append_left _ member)
  destination := fun input member => programmed.destination input (List.mem_append_left _ member)
  once := fun j => by
    have once := programmed.once j
    rw [List.countP_append] at once
    exact Nat.le_of_add_right_le once
  noExternal := fun input member => programmed.noExternal input (List.mem_append_left _ member)

theorem rxRun_snoc (input : RxInput nLin nExt aWidth transSize idWidth) :
    rxRun arbiter (inputs ++ [input]) = (rxRun arbiter inputs).step input :=
  Machine.run_snoc ..

theorem laneFlow_nil (transfer : Transfer aWidth transSize) (j : Fin nLin) :
    LaneFlow arbiter transfer ([] : List (RxInput nLin nExt aWidth transSize idWidth)) j
      .fresh where
  tracks := RxChannels.tracksTransfer_reset
  words := RxChannels.accesses_reset
  programmed := rfl
  events := rfl

theorem rxAccesses_snoc (only : (rxRun arbiter inputs).MemoryOnly)
    (input : RxInput nLin nExt aWidth transSize idWidth) (j : Fin nLin) :
    rxAccesses arbiter (inputs ++ [input]) j =
      rxAccesses arbiter inputs j ++
        if (rxRun arbiter inputs).sends (j.castAdd nExt) then [(rxRun arbiter inputs).fifoIn]
        else [] := by
  rw [rxAccesses, rxPushes, Machine.observed_snoc, List.filter_append, List.map_append,
    only.filter_pushes]
  cases (rxRun arbiter inputs).sends (j.castAdd nExt) <;> rfl

theorem LaneFlow.snoc {transfer : Transfer aWidth transSize} {j : Fin nLin}
    {status : TransferStatus} (flow : LaneFlow arbiter transfer inputs j status)
    (only : (rxRun arbiter inputs).MemoryOnly) (wide : 3 ≤ transSize)
    {input : RxInput nLin nExt aWidth transSize idWidth}
    (programs : transfer.Programs (input.lin j).cfg)
    (memory : (input.lin j).cfg.en = true → (input.lin j).cfg.stream = 0)
    (sized : (input.lin j).datasize = transfer.datasize)
    (destined : (input.lin j).destination = transfer.destination)
    (once : (inputs ++ [input]).countP (fun input => (input.lin j).cfg.en) ≤ 1) :
    ∃ next, LaneFlow arbiter transfer (inputs ++ [input]) j next := by
  have one : [input].countP (fun input => (input.lin j).cfg.en) = (input.lin j).cfg.en.toNat := by
    cases en : (input.lin j).cfg.en <;> simp [en]
  rw [List.countP_append, one, ← flow.programmed] at once
  obtain ⟨next, tracks, programmed, events⟩ :=
    flow.tracks.step wide programs memory sized destined once
  have accesses := rxAccesses_snoc only input j
  have words := flow.words.step flow.tracks wide input
  refine ⟨next, ?_⟩
  constructor
  case tracks =>
    have length : (rxAccesses arbiter (inputs ++ [input]) j).length =
        (rxAccesses arbiter inputs j).length +
          ((rxRun arbiter inputs).sends (j.castAdd nExt)).toNat := by
      rw [accesses, List.length_append]
      cases (rxRun arbiter inputs).sends (j.castAdd nExt) <;> rfl
    rw [length, rxRun_snoc]
    exact tracks
  case words =>
    rw [accesses, rxRun_snoc, rxWords, Machine.observed_snoc, List.map_append]
    exact words
  case programmed => rw [programmed, flow.programmed, List.countP_append, one]
  case events => rw [events, flow.events, rxEvents, rxEvents, Machine.counted_snoc]

theorem RxFlow.snoc (flow : RxFlow arbiter transfers inputs done queued) (wide : 3 ≤ transSize)
    {input : RxInput nLin nExt aWidth transSize idWidth}
    (programmed : RxProgrammed transfers (inputs ++ [input]))
    (grants : (rxRun arbiter inputs).GrantsRequest input) :
    RxFlow arbiter transfers (inputs ++ [input])
      (done ++ queued.take ((rxRun arbiter inputs).pops input).toNat)
      (queued.drop ((rxRun arbiter inputs).pops input).toNat ++ (rxRun arbiter inputs).pushes) := by
  have member : input ∈ inputs ++ [input] := by simp
  have lane : ∀ j, ∃ status, LaneFlow arbiter (transfers j) (inputs ++ [input]) j status := by
    intro j
    obtain ⟨status, laneFlow⟩ := flow.lane j
    exact laneFlow.snoc flow.only wide (programmed.programs input member j)
      (programmed.memory input member j) (programmed.datasize input member j)
      (programmed.destination input member j) (programmed.once j)
  constructor
  case lane => exact lane
  case only =>
    rw [rxRun_snoc]
    refine flow.only.step (fun j => ?_) (programmed.noExternal input member)
    obtain ⟨status, laneFlow⟩ := lane j
    rw [← rxRun_snoc]
    exact laneFlow.tracks.stream
  case inFlight =>
    rw [rxRun_snoc, rxPushes, rxWrites, Machine.observed_snoc, Machine.observed_snoc]
    exact flow.inFlight.step grants
  case linear =>
    intro access pushed
    rw [rxPushes, Machine.observed_snoc] at pushed
    rcases List.mem_append.mp pushed with before | now
    · exact flow.linear access before
    · exact flow.only.linear now
  case accepted =>
    have step := flow.only.accepts_step input
    rw [acceptedWords, rxPushes, Machine.observed_snoc, Machine.observed_snoc, rxRun_snoc,
      List.length_append, List.length_append, ← acceptedWords, flow.accepted, Nat.add_assoc, step]
    exact (Nat.add_assoc ..).symm

theorem rxFlow (wide : 3 ≤ transSize) (programmed : RxProgrammed transfers inputs)
    (grants : GrantsRequests arbiter inputs) :
    ∃ done queued, RxFlow arbiter transfers inputs done queued := by
  induction inputs using List.reverseRecOn with
  | nil =>
      exact ⟨[], [], RxChannels.memoryOnly_reset, RxChannels.inFlight_reset,
        fun _ member => absurd member List.not_mem_nil, fun j => ⟨.fresh, laneFlow_nil _ j⟩, rfl⟩
  | append_singleton inputs input inductionHypothesis =>
      rw [GrantsRequests, Machine.always_snoc] at grants
      obtain ⟨done, queued, flow⟩ := inductionHypothesis programmed.of_append grants.1
      exact ⟨_, _, flow.snoc wide programmed grants.2⟩

/-! ## What a run writes -/

/-- The bytes of a word at an index of their concatenation. -/
theorem getElem?_concatenated (datasize : BitVec 2) (words : List (BitVec 32)) (b : Nat) :
    (concatenated datasize words)[b]? =
      words[b / 2 ^ datasize.toNat]?.map fun word => byteOf word (b % 2 ^ datasize.toNat) := by
  have positive : 0 < 2 ^ datasize.toNat := Nat.pow_pos (by decide)
  induction words generalizing b with
  | nil => rfl
  | cons word words inductionHypothesis =>
      have tail := inductionHypothesis (b - 2 ^ datasize.toNat)
      rw [concatenated] at tail ⊢
      rw [List.flatMap_cons, List.getElem?_append, List.length_map, List.length_range]
      split
      · next first =>
          rw [Nat.div_eq_of_lt first, Nat.mod_eq_of_lt first, List.getElem?_map,
            List.getElem?_range first]
          rfl
      · next after =>
          have reached := Nat.le_of_not_lt after
          rw [tail, Nat.div_eq_sub_div positive reached, List.getElem?_cons_succ,
            Nat.mod_eq_sub_mod reached]

theorem length_concatenated (datasize : BitVec 2) (words : List (BitVec 32)) :
    (concatenated datasize words).length = words.length * 2 ^ datasize.toNat := by
  simp [concatenated]

theorem isProgrammed_iff {j : Fin nLin} :
    IsProgrammed inputs j ↔ 0 < inputs.countP fun input => (input.lin j).cfg.en := by
  rw [List.countP_pos_iff]
  rfl

/-- A channel that accepts a word is programmed. -/
theorem LaneFlow.isProgrammed {transfer : Transfer aWidth transSize} {j : Fin nLin}
    {status : TransferStatus} (laneFlow : LaneFlow arbiter transfer inputs j status) {k : Nat}
    {word : BitVec 32} (accepted : (rxWords arbiter inputs j)[k]? = some word) :
    IsProgrammed inputs j := by
  have inside := (List.getElem?_eq_some_iff.mp accepted).1
  rw [laneFlow.words.length] at inside
  rw [isProgrammed_iff, ← laneFlow.programmed]
  exact laneFlow.tracks.phase.programmed_pos (Nat.zero_lt_of_lt inside)

/-- What is written is a byte of the words that a channel has accepted, at its place in
the region of the channel. -/
def IsByte (arbiter : Arbiter (nLin + nExt)) (transfers : Fin nLin → Transfer aWidth transSize)
    (inputs : List (RxInput nLin nExt aWidth transSize idWidth)) (j : Fin nLin) (b : Nat)
    (write : BitVec 32 × BitVec 8) : Prop :=
  b < (transfers j).size.toNat ∧ write.1 = (transfers j).byteAddress b ∧
    (concatenated (transfers j).datasize (rxWords arbiter inputs j))[b]? = some write.2

theorem RxFlow.written_of_pushed (flow : RxFlow arbiter transfers inputs done queued)
    (wide : 2 ≤ aWidth) {access : Fin (nLin + nExt) × RxAccess aWidth idWidth}
    (pushed : access ∈ rxPushes arbiter inputs) {write : BitVec 32 × BitVec 8}
    (member : write ∈ access.2.writes) :
    ∃ j b, IsProgrammed inputs j ∧ IsByte arbiter transfers inputs j b write := by
  obtain ⟨j, lane⟩ := flow.linear access pushed
  obtain ⟨status, laneFlow⟩ := flow.lane j
  have mine : access.2 ∈ rxAccesses arbiter inputs j :=
    List.mem_map.mpr ⟨access, List.mem_filter.mpr ⟨pushed, beq_iff_eq.mpr lane⟩, rfl⟩
  obtain ⟨k, inside, present⟩ := List.mem_iff_getElem.mp mine
  obtain ⟨word, accepted, isWord⟩ :=
    laneFlow.words.isWord k access.2 (List.getElem?_eq_some_iff.mpr ⟨inside, present⟩)
  obtain ⟨b, inRegion, rfl, rfl⟩ := (isWord.mem_writes wide).mp member
  refine ⟨j, b, laneFlow.isProgrammed accepted, inRegion, rfl, ?_⟩
  rw [getElem?_concatenated]
  exact congrArg (Option.map _) accepted

/-- Only bytes of accepted words are written. -/
theorem RxFlow.written (flow : RxFlow arbiter transfers inputs done queued)
    (wide : 2 ≤ aWidth) {write : BitVec 32 × BitVec 8} (member : write ∈ rxWrites arbiter inputs) :
    ∃ j b, IsProgrammed inputs j ∧ IsByte arbiter transfers inputs j b write := by
  have conserved := flow.inFlight.conserved
  rw [flow.inFlight.written, List.mem_append] at member
  rcases member with complete | firstWord
  · obtain ⟨access, isDone, written⟩ := List.mem_flatMap.mp complete
    refine flow.written_of_pushed wide ?_ written
    rw [conserved]
    exact List.mem_append_left _ isDone
  · split at firstWord
    · obtain ⟨access, isNext, written⟩ := List.mem_flatMap.mp firstWord
      refine flow.written_of_pushed wide ?_ (List.mem_append_left _ written)
      rw [conserved]
      exact List.mem_append_right _ (List.mem_of_mem_take isNext)
    · exact absurd firstWord List.not_mem_nil

theorem Drained.stages (drained : Drained arbiter (rxRun arbiter inputs))
    (lane : Fin (nLin + nExt)) : (rxRun arbiter inputs).stages lane = false := by
  rw [RxChannels.stages, drained.1]
  rfl

theorem LaneFlow.length_words {j : Fin nLin} {transfer : Transfer aWidth transSize}
    {status : TransferStatus} (laneFlow : LaneFlow arbiter transfer inputs j status)
    (drained : Drained arbiter (rxRun arbiter inputs)) :
    (rxWords arbiter inputs j).length = (rxAccesses arbiter inputs j).length := by
  rw [laneFlow.words.length, drained.stages]
  rfl

/-- When nothing is under way the words that a channel has accepted are written. -/
theorem RxFlow.written_of_drained (flow : RxFlow arbiter transfers inputs done queued)
    (wide : 2 ≤ aWidth) (drained : Drained arbiter (rxRun arbiter inputs)) {j : Fin nLin} {b : Nat}
    {write : BitVec 32 × BitVec 8} (isByte : IsByte arbiter transfers inputs j b write) :
    write ∈ rxWrites arbiter inputs := by
  obtain ⟨address, value⟩ := write
  obtain ⟨inRegion, rfl, byte⟩ := isByte
  obtain ⟨status, laneFlow⟩ := flow.lane j
  rw [getElem?_concatenated, Option.map_eq_some_iff] at byte
  obtain ⟨word, accepted, rfl⟩ := byte
  have short := (List.getElem?_eq_some_iff.mp accepted).1
  rw [laneFlow.length_words drained] at short
  have present := List.getElem?_eq_getElem short
  obtain ⟨other, same, isWord⟩ := laneFlow.words.isWord _ _ present
  obtain rfl : other = word := Option.some.inj (same.symm.trans accepted)
  obtain ⟨access, pushed, isThis⟩ := List.mem_map.mp (List.getElem_mem short)
  have empty : queued = [] := by
    have requests := RxChannels.l2Req_eq flow.inFlight.fifo
    rw [RxChannels.l2Req, drained.2] at requests
    cases queued with
    | nil => rfl
    | cons access rest => exact Bool.noConfusion requests
  rw [flow.inFlight.written]
  refine List.mem_append_left _ (List.mem_flatMap.mpr ⟨access, ?_, ?_⟩)
  · rw [← List.append_nil done, ← empty, ← flow.inFlight.conserved]
    exact (List.mem_filter.mp pushed).1
  · rw [isThis]
    exact (isWord.mem_writes wide).mpr ⟨b, inRegion, rfl, rfl⟩

theorem length_acceptedWords_le (later : List (RxInput nLin nExt aWidth transSize idWidth)) :
    (acceptedWords arbiter inputs).length ≤ (acceptedWords arbiter (inputs ++ later)).length := by
  rw [acceptedWords, acceptedWords, Machine.observed, Machine.observed,
    Machine.observedFrom_append, List.length_append]
  exact Nat.le_add_right ..

/-- The words accepted so far are written after enough cycles without a refused request,
whatever is accepted meanwhile. -/
theorem RxFlow.drain (flow : RxFlow arbiter transfers inputs done queued) (wide : 3 ≤ transSize)
    (later : List (RxInput nLin nExt aWidth transSize idWidth))
    (programmed : RxProgrammed transfers (inputs ++ later))
    (grants : GrantsRequests arbiter (inputs ++ later)) :
    ∃ laterDone laterQueued, RxFlow arbiter transfers (inputs ++ later) laterDone laterQueued ∧
      (laterDone.length < (acceptedWords arbiter inputs).length →
        RxChannels.cyclesLeft ((acceptedWords arbiter inputs).length - laterDone.length)
            laterQueued.length (rxRun arbiter (inputs ++ later)).isNa.toNat +
          (rxMachine aWidth transSize idWidth arbiter).countedFrom RxChannels.moves
            (rxRun arbiter inputs) later ≤
          RxChannels.cyclesLeft ((acceptedWords arbiter inputs).length - done.length)
            queued.length (rxRun arbiter inputs).isNa.toNat) := by
  induction later using List.reverseRecOn with
  | nil =>
      rw [List.append_nil]
      exact ⟨done, queued, flow, fun _ => Nat.le_refl _⟩
  | append_singleton later input inductionHypothesis =>
      rw [← List.append_assoc] at programmed grants
      have both := grants
      rw [GrantsRequests, Machine.always_snoc] at both
      obtain ⟨laterDone, laterQueued, laterFlow, closer⟩ :=
        inductionHypothesis programmed.of_append both.1
      rw [← List.append_assoc]
      refine ⟨_, _, laterFlow.snoc wide programmed both.2, fun left => ?_⟩
      have stillLeft : laterDone.length < (acceptedWords arbiter inputs).length := by
        rw [List.length_append] at left
        exact Nat.lt_of_le_of_lt (Nat.le_add_right ..) left
      have reached := (length_acceptedWords_le later).trans_eq laterFlow.accepted
      have step := laterFlow.inFlight.closer both.2 laterFlow.only.stages reached stillLeft
      have soFar := closer stillLeft
      rw [Machine.countedFrom_append, ← Machine.run_append, rxRun_snoc]
      change _ + (_ + (_ + 0)) ≤ _
      refine Nat.le_trans ?_ soFar
      have sum := Nat.add_le_add_right step
        ((rxMachine aWidth transSize idWidth arbiter).countedFrom RxChannels.moves
          (rxRun arbiter inputs) later)
      refine Nat.le_trans (Nat.le_of_eq ?_) sum
      rw [Nat.add_zero, Nat.add_comm (Machine.countedFrom ..), Nat.add_assoc]

theorem RxFlow.drained_of_done (flow : RxFlow arbiter transfers inputs done queued)
    (all : (acceptedWords arbiter inputs).length ≤ done.length) :
    Drained arbiter (rxRun arbiter inputs) := by
  have accepted := flow.accepted
  have conserved := congrArg List.length flow.inFlight.conserved
  rw [List.length_append] at conserved
  have empty : queued = [] := List.eq_nil_of_length_eq_zero (by omega)
  have free : (rxRun arbiter inputs).rGrant.toList = [] :=
    List.eq_nil_of_length_eq_zero (by omega)
  refine ⟨Option.toList_eq_nil_iff.mp free, ?_⟩
  change (rxRun arbiter inputs).l2Req = false
  rw [RxChannels.l2Req_eq flow.inFlight.fifo, empty]
  rfl

end Flow

/-! ## RX DMA end to end -/

/-- For every interleaving of the words, every pattern of grants of the L2 port and every
order of arbitration, the words of each channel are written to its region, and nothing
else is. -/
theorem rxDma_delivers (arbiter : Arbiter (nLin + nExt)) (memory : BitVec 32 → BitVec 8)
    (wideAddress : 2 ≤ aWidth) (wideSize : 3 ≤ transSize)
    (transfers : Fin nLin → Transfer aWidth transSize)
    (inputs : List (RxInput nLin nExt aWidth transSize idWidth))
    (programmed : RxProgrammed transfers inputs) (grants : GrantsRequests arbiter inputs) :
    RxDelivers arbiter memory transfers inputs := by
  obtain ⟨done, queued, flow⟩ := rxFlow wideSize programmed grants
  constructor
  case contents =>
    intro disjoint drained j b inside byte present
    have isByte : IsByte arbiter transfers inputs j b ((transfers j).byteAddress b, byte) :=
      ⟨inside, rfl, present⟩
    obtain ⟨status, laneFlow⟩ := flow.lane j
    have mine : IsProgrammed inputs j := by
      rw [getElem?_concatenated, Option.map_eq_some_iff] at present
      obtain ⟨word, accepted, -⟩ := present
      exact laneFlow.isProgrammed accepted
    refine stored_of_agree (flow.written_of_drained wideAddress drained isByte) ?_
    intro write member same
    obtain ⟨k, c, isProgrammed, inRegion, address, value⟩ := flow.written wideAddress member
    obtain ⟨rfl, rfl⟩ := disjoint k j isProgrammed mine c inRegion b inside
      (address.symm.trans same)
    exact Option.some.inj (value.symm.trans present)
  case confined =>
    intro write member
    obtain ⟨j, b, isProgrammed, inside, address, -⟩ := flow.written wideAddress member
    exact ⟨j, isProgrammed, b, inside, address⟩
  case whole =>
    intro j
    obtain ⟨status, laneFlow⟩ := flow.lane j
    refine ⟨laneFlow.words.length.trans_le laneFlow.tracks.phase.count_le, fun all => ?_⟩
    have covered := (not_congr ((transfers j).lt_accesses_iff _)).mp (Nat.lt_irrefl _)
    rw [length_concatenated, all]
    exact Nat.le_of_not_lt covered
  case once =>
    intro j
    obtain ⟨status, laneFlow⟩ := flow.lane j
    rw [← laneFlow.events]
    cases status <;> decide
  case finishes =>
    intro drained j
    obtain ⟨status, laneFlow⟩ := flow.lane j
    have phase := laneFlow.tracks.phase
    rw [drained.stages] at phase
    rw [← laneFlow.events, laneFlow.length_words drained, isProgrammed_iff, ← laneFlow.programmed]
    exact phase.finishes
  case drains =>
    intro later programmed grants quiet enough
    obtain ⟨laterDone, laterQueued, laterFlow, closer⟩ :=
      flow.drain wideSize later programmed grants
    refine laterFlow.drained_of_done ?_
    rw [quiet]
    by_contra short
    have left := Nat.lt_of_not_le short
    have soFar := closer left
    have some := RxChannels.cyclesLeft_pos (Nat.sub_pos_of_lt left)
      (Bool.toNat_le (rxRun arbiter (inputs ++ later)).isNa) laterQueued.length
    have inFifo := flow.inFlight.fifo.bounded
    rw [List.length_map] at inFifo
    have conserved := congrArg List.length flow.inFlight.conserved
    rw [List.length_append] at conserved
    have accepted := flow.accepted
    have one := flow.only.stages.one
    have reached : (acceptedWords arbiter inputs).length - done.length ≤ queued.length + 1 := by
      omega
    have atMost := RxChannels.cyclesLeft_le inFifo reached (rxRun arbiter inputs).isNa.toNat
    omega

/-- A cycle in which every channel presents a word. -/
def rxDmaCycle (transfers : Fin nLin → Transfer aWidth transSize) (starts l2Gnt : Bool) :
    RxInput nLin 0 aWidth transSize 1 where
  lin j :=
    { valid := true, data := 0xB3B2B1A0 + BitVec.ofNat 32 j.val
      datasize := (transfers j).datasize, destination := (transfers j).destination
      cfg :=
        { startaddr := (transfers j).startaddr, size := (transfers j).size, continuous := false
          en := starts, stream := 0, streamId := 0, clr := false } }
  ext i := i.elim0
  l2Gnt := l2Gnt
  streamReady _ := false

/-- The channels are programmed, and the L2 port grants after two cycles. -/
def rxDmaRun (transfers : Fin nLin → Transfer aWidth transSize) (grants : Nat) :
    List (RxInput nLin 0 aWidth transSize 1) :=
  rxDmaCycle transfers true false :: rxDmaCycle transfers false false ::
    List.replicate grants (rxDmaCycle transfers false true)

theorem rxDmaRun_programmed (transfers : Fin nLin → Transfer aWidth transSize) (grants : Nat) :
    RxProgrammed transfers (rxDmaRun transfers grants) := by
  have cycles : ∀ input ∈ rxDmaRun transfers grants,
      ∃ starts l2Gnt, input = rxDmaCycle transfers starts l2Gnt := by
    intro input member
    rcases List.mem_cons.mp member with rfl | member
    · exact ⟨true, false, rfl⟩
    rcases List.mem_cons.mp member with rfl | member
    · exact ⟨false, false, rfl⟩
    · exact ⟨false, true, List.eq_of_mem_replicate member⟩
  constructor
  case programs =>
    intro input member j
    obtain ⟨starts, l2Gnt, rfl⟩ := cycles input member
    exact ⟨rfl, rfl, fun _ => rfl, fun _ => rfl⟩
  case memory =>
    intro input member j _
    obtain ⟨starts, l2Gnt, rfl⟩ := cycles input member
    rfl
  case datasize =>
    intro input member j
    obtain ⟨starts, l2Gnt, rfl⟩ := cycles input member
    rfl
  case destination =>
    intro input member j
    obtain ⟨starts, l2Gnt, rfl⟩ := cycles input member
    rfl
  case once =>
    intro j
    rw [rxDmaRun, List.countP_cons, List.countP_cons, List.countP_replicate]
    exact Nat.le_refl 1
  case noExternal =>
    intro input member i
    exact i.elim0

instance {arbiter : Arbiter (nLin + nExt)}
    (channels : RxChannels aWidth transSize idWidth arbiter)
    (input : RxInput nLin nExt aWidth transSize idWidth) :
    Decidable (channels.GrantsRequest input) :=
  inferInstanceAs (Decidable (_ → _))

/-- Two transfers with accesses across words. -/
def twoRegions : Fin 2 → Transfer 8 4 := fun j =>
  if j = 0 then
    { startaddr := 3#8, size := 3#4, datasize := 1#2, destination := 0
      positive := by decide, known := by decide }
  else
    { startaddr := 0x21#8, size := 6#4, datasize := 2#2, destination := 1
      positive := by decide, known := by decide }

/-- Both channels accept two words, of which the regions take three and six bytes. -/
theorem twoRegions_delivers :
    RxDelivers (udmaArbiter (2 + 0)) (fun _ => 0) twoRegions (rxDmaRun twoRegions 7) ∧
      rxWords (udmaArbiter (2 + 0)) (rxDmaRun twoRegions 7) 0 = [0xB3B2B1A0, 0xB3B2B1A0] ∧
      rxWords (udmaArbiter (2 + 0)) (rxDmaRun twoRegions 7) 1 = [0xB3B2B1A1, 0xB3B2B1A1] ∧
      (rxWrites (udmaArbiter (2 + 0)) (rxDmaRun twoRegions 7)).length = 9 :=
  ⟨rxDma_delivers _ _ (by decide) (by decide) _ _ (rxDmaRun_programmed ..) (by decide +kernel),
    by decide +kernel, by decide +kernel, by decide +kernel⟩

/-- Two channels with the same region of one byte. -/
def sameRegion : Fin 2 → Transfer 8 4 := fun _ =>
  { startaddr := 3, size := 1, datasize := 0, destination := 0, positive := by decide
    known := by decide }

/-- The byte of the second channel overwrites that of the first one. -/
theorem sameRegion_not_holdsWords :
    RxProgrammed sameRegion (rxDmaRun sameRegion 2) ∧
      GrantsRequests (udmaArbiter (2 + 0)) (rxDmaRun sameRegion 2) ∧
      ¬HoldsWords (udmaArbiter (2 + 0)) sameRegion (rxDmaRun sameRegion 2) (fun _ => 0) := by
  refine ⟨rxDmaRun_programmed .., by decide +kernel, fun holds => ?_⟩
  have first :=
    holds ⟨by decide +kernel, by decide +kernel⟩ 0 0 (by decide) 0xA0 (by decide +kernel)
  exact absurd first (by decide +kernel)

end CoreVMcu.Udma
