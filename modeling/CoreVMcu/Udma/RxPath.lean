import CoreVMcu.Arbitration.PrefixArbiter
import CoreVMcu.Clocked.Composition
import CoreVMcu.DcFifo.Contents
import CoreVMcu.Udma.RxDma

/-!
# From the peripherals to the memory

A receiving peripheral hands its words to the uDMA through the `udma_dc_fifo` of its top
level: it writes them on a clock of its own, and a linear channel of `udma_rx_channels`
takes them on the system clock, extended with zeros to its data width.

Whatever the clocks do, the words that a peripheral has handed over arrive in the region of
its channel, in order.
-/

namespace CoreVMcu.Udma

open Clocked Arbitration DcFifo

variable {nLin nExt aWidth transSize idWidth : Nat} {dataWidth bufferDepth : Fin nLin → Nat}

/-- What a linear channel gets besides the words of its FIFO. -/
structure LinPort (aWidth transSize idWidth : Nat) where
  datasize : BitVec 2
  destination : BitVec 2
  cfg : ChannelCfg aWidth transSize idWidth

/-- What is sampled at an edge of the system clock besides the words of the FIFOs. -/
structure RxSysInput (nLin nExt aWidth transSize idWidth : Nat) where
  lin : Fin nLin → LinPort aWidth transSize idWidth
  ext : Fin nExt → RxExtInput aWidth idWidth
  l2Gnt : Bool
  streamReady : BitVec idWidth → Bool

/-- The clock edges of an instant: that of the system clock, and those of the clocks of the
peripherals with the words that they offer. -/
structure RxPathEdges (nExt aWidth transSize idWidth : Nat) (dataWidth : Fin nLin → Nat) where
  system : Option (RxSysInput nLin nExt aWidth transSize idWidth)
  peripheral : (j : Fin nLin) → Option (Bool × BitVec (dataWidth j))

/-- The channels with the FIFOs of their peripherals. -/
structure RxPath (aWidth transSize idWidth : Nat) (arbiter : Arbiter (nLin + nExt))
    (dataWidth bufferDepth : Fin nLin → Nat) where
  channels : RxChannels aWidth transSize idWidth arbiter
  dcFifo : (j : Fin nLin) → TokenRingFifo (dataWidth j) (bufferDepth j)

namespace RxPath

variable {arbiter : Arbiter (nLin + nExt)}
variable (path : RxPath aWidth transSize idWidth arbiter dataWidth bufferDepth)
variable (edges : RxPathEdges nExt aWidth transSize idWidth dataWidth)

/-- What the channels sample. -/
def rxInput (sys : RxSysInput nLin nExt aWidth transSize idWidth) :
    RxInput nLin nExt aWidth transSize idWidth where
  lin j :=
    { valid := (path.dcFifo j).dout.valid
      data := ((path.dcFifo j).din.dataAsync (path.dcFifo j).dout.readPointer).setWidth 32
      datasize := (sys.lin j).datasize, destination := (sys.lin j).destination
      cfg := (sys.lin j).cfg }
  ext := sys.ext
  l2Gnt := sys.l2Gnt
  streamReady := sys.streamReady

/-- What the FIFO of a channel samples: `lin_ch_ready_o` is its ready signal. -/
def dcEdges (j : Fin nLin) : ClockEdges (dataWidth j) where
  source := edges.peripheral j
  destination :=
    edges.system.map fun sys => path.channels.chReady (path.rxInput sys) (j.castAdd nExt)

/-- The clock edges of an instant. -/
def step : RxPath aWidth transSize idWidth arbiter dataWidth bufferDepth where
  channels :=
    match edges.system with
    | some sys => path.channels.step (path.rxInput sys)
    | none => path.channels
  dcFifo j :=
    (fifoMachine (dataWidth j) (bufferDepth j)).step (path.dcFifo j) (path.dcEdges edges j)

/-- The word that a peripheral hands over. -/
def handsOver (j : Fin nLin) : List (BitVec (dataWidth j)) :=
  accepted (path.dcFifo j) (path.dcEdges edges j)

/-- The word that a channel takes. -/
def takes (j : Fin nLin) : List (BitVec (dataWidth j)) :=
  transferred (path.dcFifo j) (path.dcEdges edges j)

/-- The bytes that are written. -/
def writes : List (BitVec 32 × BitVec 8) :=
  match edges.system with
  | some sys => path.channels.writes (path.rxInput sys)
  | none => []

/-- The L2 port grants only requests. -/
def GrantsRequest : Prop :=
  ∀ sys ∈ edges.system, sys.l2Gnt = true → path.channels.l2Req = true

/-- The event of a channel is raised by the edge of the system clock. -/
def raisesEvent (j : Fin nLin) : Bool :=
  edges.system.any fun sys => (path.channels.step (path.rxInput sys)).chEvent j

/-- A channel takes a word when it is ready and the FIFO offers one. -/
theorem acceptsOn_rxInput (sys : RxSysInput nLin nExt aWidth transSize idWidth)
    (ticks : edges.system = some sys) (j : Fin nLin) :
    (path.channels.acceptsOn (j.castAdd nExt) (path.rxInput sys)).map (·.data) =
      (path.takes edges j).map (·.setWidth 32) := by
  have destination : (path.dcEdges edges j).destination =
      some (path.channels.chReady (path.rxInput sys) (j.castAdd nExt)) := by
    rw [dcEdges, ticks]
    rfl
  rw [takes, transferred, destination]
  cases ready : path.channels.chReady (path.rxInput sys) (j.castAdd nExt) with
  | false =>
      rw [RxChannels.acceptsOn_of_not_ready ready]
      simp [TokenRingDout.readEnable]
  | true =>
      have granted := (Bool.and_eq_true_iff.mp ready).2
      have offered : (path.dcFifo j).dout.valid = true := by
        have valid := RxChannels.valid_of_grant (eq_of_beq granted)
        rw [RxChannels.chValid, Fin.append_left] at valid
        exact valid
      rw [RxChannels.acceptsOn_of_ready ready]
      simp [TokenRingDout.readEnable, offered, RxChannels.chWord, rxInput]

end RxPath

/-- The channels and the FIFOs from reset. -/
def rxPathMachine (aWidth transSize idWidth : Nat) (arbiter : Arbiter (nLin + nExt))
    (dataWidth bufferDepth : Fin nLin → Nat) :
    Machine (RxPath aWidth transSize idWidth arbiter dataWidth bufferDepth)
      (RxPathEdges nExt aWidth transSize idWidth dataWidth) where
  init :=
    { channels := .reset
      dcFifo := fun j => (fifoMachine (dataWidth j) (bufferDepth j)).init }
  step := RxPath.step

/-! ## The channels and the FIFOs as components -/

section Components

variable (arbiter : Arbiter (nLin + nExt))

/-- The channels run on the system clock. -/
def rxPathChannels (dataWidth bufferDepth : Fin nLin → Nat) :
    Component (rxPathMachine aWidth transSize idWidth arbiter dataWidth bufferDepth)
      (rxMachine aWidth transSize idWidth arbiter) where
  view := RxPath.channels
  feed path edges := edges.system.map path.rxInput
  reset := rfl
  edge path edges := by
    cases ticks : edges.system with
    | none => simp [rxPathMachine, RxPath.step, ticks]
    | some sys => simp [rxPathMachine, RxPath.step, rxMachine, ticks]

/-- A FIFO runs on both clocks. -/
def rxPathFifo (aWidth transSize idWidth : Nat) (dataWidth bufferDepth : Fin nLin → Nat)
    (j : Fin nLin) :
    Component (rxPathMachine aWidth transSize idWidth arbiter dataWidth bufferDepth)
      (fifoMachine (dataWidth j) (bufferDepth j)) where
  view path := path.dcFifo j
  feed path edges := some (path.dcEdges edges j)
  reset := rfl
  edge _ _ := rfl

end Components

section Runs

variable (arbiter : Arbiter (nLin + nExt)) (bufferDepth : Fin nLin → Nat)
variable (transfers : Fin nLin → Transfer aWidth transSize)
variable (inputs : List (RxPathEdges nExt aWidth transSize idWidth dataWidth))

/-- The words that the peripheral of a channel has handed over. -/
def handedOver (j : Fin nLin) : List (BitVec (dataWidth j)) :=
  (rxPathMachine aWidth transSize idWidth arbiter dataWidth bufferDepth).observed
    (fun path edges => path.handsOver edges j) inputs

/-- The words that a channel has taken. -/
def rxTaken (j : Fin nLin) : List (BitVec (dataWidth j)) :=
  (rxPathMachine aWidth transSize idWidth arbiter dataWidth bufferDepth).observed
    (fun path edges => path.takes edges j) inputs

/-- The bytes that have been written, in order. -/
def rxPathWrites : List (BitVec 32 × BitVec 8) :=
  (rxPathMachine aWidth transSize idWidth arbiter dataWidth bufferDepth).observed
    RxPath.writes inputs

/-- Number of times that the event of a channel has been raised. -/
def rxPathEvents (j : Fin nLin) : Nat :=
  (rxPathMachine aWidth transSize idWidth arbiter dataWidth bufferDepth).counted
    (fun path edges => path.raisesEvent edges j) inputs

/-- The inputs that the channels have sampled. -/
def rxInputs : List (RxInput nLin nExt aWidth transSize idWidth) :=
  (rxPathChannels arbiter dataWidth bufferDepth).fed inputs

/-- The peripherals program the transfers of their channels for memory, each at most once, and
the external channels are silent. -/
structure RxPathProgrammed : Prop where
  programs : ∀ edges ∈ inputs, ∀ sys ∈ edges.system, ∀ j,
    (transfers j).Programs (sys.lin j).cfg
  memory : ∀ edges ∈ inputs, ∀ sys ∈ edges.system, ∀ j,
    (sys.lin j).cfg.en = true → (sys.lin j).cfg.stream = 0
  datasize : ∀ edges ∈ inputs, ∀ sys ∈ edges.system, ∀ j,
    (sys.lin j).datasize = (transfers j).datasize
  destination : ∀ edges ∈ inputs, ∀ sys ∈ edges.system, ∀ j,
    (sys.lin j).destination = (transfers j).destination
  once : ∀ j, inputs.countP (fun edges => edges.system.any fun sys => (sys.lin j).cfg.en) ≤ 1
  noExternal : ∀ edges ∈ inputs, ∀ sys ∈ edges.system, ∀ i, (sys.ext i).valid = false

/-- No byte belongs to the regions of two programmed channels, or twice to one. -/
abbrev RxPathDisjoint : Prop := RegionsDisjoint transfers (rxInputs arbiter bufferDepth inputs)

/-- Every word that was handed over and that its channel has room for is in its region when
the channels are done; nothing else is written; and the FIFOs neither lose, nor repeat, nor
reorder a word. -/
structure RxPathDelivers (memory : BitVec 32 → BitVec 8) : Prop where
  contents : RxPathDisjoint arbiter bufferDepth transfers inputs →
    Drained arbiter
      ((rxPathMachine aWidth transSize idWidth arbiter dataWidth bufferDepth).run inputs).channels →
    ∀ j, (rxTaken arbiter bufferDepth inputs j = handedOver arbiter bufferDepth inputs j ∨
        rxPathEvents arbiter bufferDepth inputs j = 1) →
      ∀ b < (transfers j).size.toNat, ∀ byte,
        (concatenated (transfers j).datasize
          ((handedOver arbiter bufferDepth inputs j).map (·.setWidth 32)))[b]? = some byte →
        stored memory (rxPathWrites arbiter bufferDepth inputs) ((transfers j).byteAddress b) = byte
  confined : ∀ write ∈ rxPathWrites arbiter bufferDepth inputs,
    ∃ j, ∃ b < (transfers j).size.toNat, write.1 = (transfers j).byteAddress b ∧
      (concatenated (transfers j).datasize
        ((handedOver arbiter bufferDepth inputs j).map (·.setWidth 32)))[b]? = some write.2
  inOrder : ∀ j, rxTaken arbiter bufferDepth inputs j <+: handedOver arbiter bufferDepth inputs j
  whole : ∀ j, (rxTaken arbiter bufferDepth inputs j).length ≤ (transfers j).accesses
  once : ∀ j, rxPathEvents arbiter bufferDepth inputs j ≤ 1

end Runs

section Delivers

variable {arbiter : Arbiter (nLin + nExt)} {transfers : Fin nLin → Transfer aWidth transSize}
variable {inputs : List (RxPathEdges nExt aWidth transSize idWidth dataWidth)}

theorem handedOver_eq (j : Fin nLin) :
    handedOver arbiter bufferDepth inputs j =
      (fifoMachine (dataWidth j) (bufferDepth j)).observed accepted
        ((rxPathFifo arbiter aWidth transSize idWidth dataWidth bufferDepth j).fed inputs) := by
  rw [← Component.observed_watches, handedOver]
  congr 1
  funext path edges
  exact (List.append_nil _).symm

theorem rxTaken_eq (j : Fin nLin) :
    rxTaken arbiter bufferDepth inputs j =
      (fifoMachine (dataWidth j) (bufferDepth j)).observed transferred
        ((rxPathFifo arbiter aWidth transSize idWidth dataWidth bufferDepth j).fed inputs) := by
  rw [← Component.observed_watches, rxTaken]
  congr 1
  funext path edges
  exact (List.append_nil _).symm

/-- The words that a channel takes are those that it accepts. -/
theorem rxWords_rxInputs (j : Fin nLin) :
    rxWords arbiter (rxInputs arbiter bufferDepth inputs) j =
      (rxTaken arbiter bufferDepth inputs j).map (·.setWidth 32) := by
  rw [rxWords, rxInputs, ← Component.observed_watches, rxTaken, Machine.map_observed,
    Machine.map_observed]
  congr 1
  funext path edges
  rw [Component.watches, Component.samples]
  cases ticks : edges.system with
  | none => simp [rxPathChannels, RxPath.takes, RxPath.dcEdges, transferred, ticks]
  | some sys =>
      rw [← path.acceptsOn_rxInput edges sys ticks]
      simp [rxPathChannels, ticks]

theorem rxPathWrites_eq :
    rxPathWrites arbiter bufferDepth inputs =
      rxWrites arbiter (rxInputs arbiter bufferDepth inputs) := by
  rw [rxWrites, rxInputs, ← Component.observed_watches, rxPathWrites]
  congr 1
  funext path edges
  rw [Component.watches, Component.samples, RxPath.writes]
  cases ticks : edges.system with
  | none => simp [rxPathChannels, ticks]
  | some sys => simp [rxPathChannels, ticks]

theorem rxPathEvents_eq (j : Fin nLin) :
    rxPathEvents arbiter bufferDepth inputs j =
      rxEvents arbiter (rxInputs arbiter bufferDepth inputs) j := by
  rw [rxPathEvents, rxEvents, rxInputs, ← Component.counted_watches]
  congr 1
  funext path edges
  rw [Component.watchesFlag, RxPath.raisesEvent]
  cases ticks : edges.system with
  | none => simp [rxPathChannels, ticks]
  | some sys => simp [rxPathChannels, ticks]

/-- What the channels sample comes from an edge of the system clock. -/
theorem exists_of_mem_rxInputs {input : RxInput nLin nExt aWidth transSize idWidth}
    (member : input ∈ rxInputs arbiter bufferDepth inputs) :
    ∃ edges ∈ inputs, ∃ sys ∈ edges.system,
      ∃ path : RxPath aWidth transSize idWidth arbiter dataWidth bufferDepth,
        input = path.rxInput sys := by
  obtain ⟨before, edges, isPrefix, feeds⟩ := Component.exists_of_mem_fed _ member
  obtain ⟨sys, ticks, rfl⟩ := Option.map_eq_some_iff.mp feeds
  exact ⟨edges, isPrefix.subset (by simp), sys, ticks, _, rfl⟩

/-- The channels are programmed as the peripherals program them. -/
theorem RxPathProgrammed.channels (programmed : RxPathProgrammed transfers inputs) :
    RxProgrammed transfers (rxInputs arbiter bufferDepth inputs) where
  programs := by
    intro input member j
    obtain ⟨edges, fed, sys, ticks, path, rfl⟩ := exists_of_mem_rxInputs member
    exact programmed.programs edges fed sys ticks j
  memory := by
    intro input member j
    obtain ⟨edges, fed, sys, ticks, path, rfl⟩ := exists_of_mem_rxInputs member
    exact programmed.memory edges fed sys ticks j
  datasize := by
    intro input member j
    obtain ⟨edges, fed, sys, ticks, path, rfl⟩ := exists_of_mem_rxInputs member
    exact programmed.datasize edges fed sys ticks j
  destination := by
    intro input member j
    obtain ⟨edges, fed, sys, ticks, path, rfl⟩ := exists_of_mem_rxInputs member
    exact programmed.destination edges fed sys ticks j
  once := by
    intro j
    apply Nat.le_trans _ (programmed.once j)
    apply Nat.le_of_eq
    apply Component.countP_samples
    intro path edges
    exact Option.any_map
  noExternal := by
    intro input member i
    obtain ⟨edges, fed, sys, ticks, path, rfl⟩ := exists_of_mem_rxInputs member
    exact programmed.noExternal edges fed sys ticks i

/-- The L2 port of the channels grants only requests. -/
theorem grantsRequests_rxInputs
    (grants : (rxPathMachine aWidth transSize idWidth arbiter dataWidth bufferDepth).Always
      RxPath.GrantsRequest inputs) :
    GrantsRequests arbiter (rxInputs arbiter bufferDepth inputs) := by
  apply Component.always_fed
  apply grants.mono
  intro path edges granted input feeds
  obtain ⟨sys, ticks, rfl⟩ := Option.map_eq_some_iff.mp feeds
  exact granted sys ticks

/-- The bytes of some words are the first ones of more words. -/
theorem getElem?_concatenated_of_isPrefix {datasize : BitVec 2} {words more : List (BitVec 32)}
    (isPrefix : words <+: more) {b : Nat}
    (inside : b < (concatenated datasize words).length) :
    (concatenated datasize more)[b]? = (concatenated datasize words)[b]? := by
  obtain ⟨rest, rfl⟩ := isPrefix
  rw [concatenated, List.flatMap_append]
  exact List.getElem?_append_left inside

/-- A channel takes the words in the order in which they are handed over. -/
theorem rxTaken_isPrefix (deep : ∀ j, 4 ≤ bufferDepth j)
    (inputs : List (RxPathEdges nExt aWidth transSize idWidth dataWidth)) (j : Fin nLin) :
    rxTaken arbiter bufferDepth inputs j <+: handedOver arbiter bufferDepth inputs j := by
  rw [rxTaken_eq, handedOver_eq, (fifoTracks (deep j) _).inOrder]
  exact List.take_prefix _ _

theorem rxWords_isPrefix (deep : ∀ j, 4 ≤ bufferDepth j)
    (inputs : List (RxPathEdges nExt aWidth transSize idWidth dataWidth)) (j : Fin nLin) :
    rxWords arbiter (rxInputs arbiter bufferDepth inputs) j <+:
      (handedOver arbiter bufferDepth inputs j).map (·.setWidth 32) := by
  rw [rxWords_rxInputs]
  exact (rxTaken_isPrefix deep inputs j).map _

/-- When the channels are done a region holds what was handed over. -/
theorem rxPath_stored (memory : BitVec 32 → BitVec 8)
    (deep : ∀ j, 4 ≤ bufferDepth j) (wideAddress : 2 ≤ aWidth) (wideSize : 3 ≤ transSize)
    (programmed : RxPathProgrammed transfers inputs)
    (grants : (rxPathMachine aWidth transSize idWidth arbiter dataWidth bufferDepth).Always
      RxPath.GrantsRequest inputs)
    (disjoint : RxPathDisjoint arbiter bufferDepth transfers inputs)
    (drained : Drained arbiter
      ((rxPathMachine aWidth transSize idWidth arbiter dataWidth bufferDepth).run inputs).channels)
    {j : Fin nLin}
    (complete : rxTaken arbiter bufferDepth inputs j = handedOver arbiter bufferDepth inputs j ∨
      rxPathEvents arbiter bufferDepth inputs j = 1)
    {b : Nat} (inside : b < (transfers j).size.toNat) {byte : BitVec 8}
    (present : (concatenated (transfers j).datasize
      ((handedOver arbiter bufferDepth inputs j).map (·.setWidth 32)))[b]? = some byte) :
    stored memory (rxPathWrites arbiter bufferDepth inputs) ((transfers j).byteAddress b) =
      byte := by
  have channels : RxProgrammed transfers (rxInputs arbiter bufferDepth inputs) :=
    programmed.channels
  obtain ⟨done, queued, flow⟩ := rxFlow wideSize channels (grantsRequests_rxInputs grants)
  replace drained : Drained arbiter (rxRun arbiter (rxInputs arbiter bufferDepth inputs)) := by
    rw [rxRun, rxInputs, ← Component.view_run]
    exact drained
  obtain ⟨status, laneFlow⟩ := flow.lane j
  -- Either every word has been taken, or enough of them for the whole region.
  have arrived : (concatenated (transfers j).datasize
      (rxWords arbiter (rxInputs arbiter bufferDepth inputs) j))[b]? = some byte := by
    cases complete with
    | inl all => rwa [rxWords_rxInputs, all]
    | inr event =>
        rw [rxPathEvents_eq, ← laneFlow.events] at event
        have phase := laneFlow.tracks.phase
        rw [drained.stages] at phase
        have finished : (rxAccesses arbiter (rxInputs arbiter bufferDepth inputs) j).length =
            (transfers j).accesses := by
          by_contra short
          have finishes := phase.finishes.1
          rw [event, decide_eq_false short] at finishes
          exact absurd finishes (by decide)
        have covered := (not_congr ((transfers j).lt_accesses_iff _)).mp (Nat.lt_irrefl _)
        rw [← getElem?_concatenated_of_isPrefix (rxWords_isPrefix deep inputs j), present]
        rw [length_concatenated, laneFlow.length_words drained, finished]
        exact Nat.lt_of_lt_of_le inside (Nat.le_of_not_lt covered)
  have isByte : IsByte arbiter transfers (rxInputs arbiter bufferDepth inputs) j b
      ((transfers j).byteAddress b, byte) := ⟨inside, rfl, arrived⟩
  rw [rxPathWrites_eq]
  apply stored_of_agree (flow.written_of_drained wideAddress drained isByte)
  intro write member same
  obtain ⟨k, c, isProgrammed, inRegion, address, value⟩ := flow.written wideAddress member
  have mine : IsProgrammed (rxInputs arbiter bufferDepth inputs) j := by
    rw [getElem?_concatenated, Option.map_eq_some_iff] at arrived
    obtain ⟨word, accepted, -⟩ := arrived
    exact laneFlow.isProgrammed accepted
  obtain ⟨rfl, rfl⟩ := disjoint k j isProgrammed mine c inRegion b inside
    (address.symm.trans same)
  exact Option.some.inj (value.symm.trans arrived)

/-- What is written belongs to the region of a channel, and was handed over to it. -/
theorem rxPathWrites_confined (deep : ∀ j, 4 ≤ bufferDepth j) (wideAddress : 2 ≤ aWidth)
    (wideSize : 3 ≤ transSize) (programmed : RxPathProgrammed transfers inputs)
    (grants : (rxPathMachine aWidth transSize idWidth arbiter dataWidth bufferDepth).Always
      RxPath.GrantsRequest inputs) {write : BitVec 32 × BitVec 8}
    (member : write ∈ rxPathWrites arbiter bufferDepth inputs) :
    ∃ j, ∃ b < (transfers j).size.toNat, write.1 = (transfers j).byteAddress b ∧
      (concatenated (transfers j).datasize
        ((handedOver arbiter bufferDepth inputs j).map (·.setWidth 32)))[b]? = some write.2 := by
  have channels : RxProgrammed transfers (rxInputs arbiter bufferDepth inputs) :=
    programmed.channels
  obtain ⟨done, queued, flow⟩ := rxFlow wideSize channels (grantsRequests_rxInputs grants)
  rw [rxPathWrites_eq] at member
  obtain ⟨j, b, -, inside, address, value⟩ := flow.written wideAddress member
  refine ⟨j, b, inside, address, ?_⟩
  rw [getElem?_concatenated_of_isPrefix (rxWords_isPrefix deep inputs j), value]
  exact (List.getElem?_eq_some_iff.mp value).1

/-- For every interleaving of the clocks of the peripherals and the system clock, every
pattern of grants of the L2 port and every order of arbitration, the words that the
peripherals hand over are written to the regions of their channels, and nothing else is. -/
theorem rxPath_delivers (arbiter : Arbiter (nLin + nExt)) (memory : BitVec 32 → BitVec 8)
    (deep : ∀ j, 4 ≤ bufferDepth j) (wideAddress : 2 ≤ aWidth) (wideSize : 3 ≤ transSize)
    (transfers : Fin nLin → Transfer aWidth transSize)
    (inputs : List (RxPathEdges nExt aWidth transSize idWidth dataWidth))
    (programmed : RxPathProgrammed transfers inputs)
    (grants : (rxPathMachine aWidth transSize idWidth arbiter dataWidth bufferDepth).Always
      RxPath.GrantsRequest inputs) :
    RxPathDelivers arbiter bufferDepth transfers inputs memory := by
  have channels : RxProgrammed transfers (rxInputs arbiter bufferDepth inputs) :=
    programmed.channels
  obtain ⟨done, queued, flow⟩ := rxFlow wideSize channels (grantsRequests_rxInputs grants)
  constructor
  case contents =>
    intro disjoint drained j complete b inside byte present
    exact rxPath_stored memory deep wideAddress wideSize programmed grants disjoint drained
      complete inside present
  case confined =>
    intro write member
    exact rxPathWrites_confined deep wideAddress wideSize programmed grants member
  case inOrder => exact rxTaken_isPrefix deep inputs
  case whole =>
    intro j
    obtain ⟨status, laneFlow⟩ := flow.lane j
    have bound := laneFlow.words.length.trans_le laneFlow.tracks.phase.count_le
    rwa [rxWords_rxInputs, List.length_map] at bound
  case once =>
    intro j
    obtain ⟨status, laneFlow⟩ := flow.lane j
    rw [rxPathEvents_eq, ← laneFlow.events]
    cases status <;> decide

end Delivers

/-! ## Two words of one peripheral -/

theorem wordSize_known : (2#2).toNat ≤ 2 := by decide

/-- A region of two words. -/
def portRegion : Fin 1 → Transfer 8 4 := fun _ =>
  { startaddr := 4#8, size := 8#4, datasize := 2#2, destination := 0#2, positive := by decide
    known := wordSize_known }

/-- Both clocks tick. -/
def portCycle (starts : Bool) (offered : Option (BitVec 32)) (l2Gnt : Bool) :
    RxPathEdges 0 8 4 1 (fun _ : Fin 1 => 32) where
  system := some
    { lin := fun j =>
        { datasize := (portRegion j).datasize, destination := (portRegion j).destination
          cfg :=
            { startaddr := (portRegion j).startaddr, size := (portRegion j).size
              continuous := false, en := starts, stream := 0, streamId := 0, clr := false } }
      ext := fun i => i.elim0
      l2Gnt := l2Gnt
      streamReady := fun _ => false }
  peripheral _ := some (offered.isSome, offered.getD 0)

/-- The words are handed over in the first two cycles and reach the L2 port in the last two. -/
def portRun : List (RxPathEdges 0 8 4 1 (fun _ : Fin 1 => 32)) :=
  [portCycle true (some 0x44332211) false, portCycle false (some 0x88776655) false,
    portCycle false none false, portCycle false none false, portCycle false none false,
    portCycle false none true, portCycle false none true]

theorem portRun_programmed : RxPathProgrammed portRegion portRun := by
  have cycles : ∀ edges ∈ portRun,
      ∃ starts offered l2Gnt, edges = portCycle starts offered l2Gnt := by
    simp only [portRun, List.forall_mem_cons, List.not_mem_nil, false_imp_iff, implies_true,
      and_true]
    repeat' constructor
  constructor
  case programs =>
    intro edges member sys ticks j
    obtain ⟨starts, offered, l2Gnt, rfl⟩ := cycles edges member
    cases ticks
    exact ⟨rfl, rfl, fun _ => rfl, fun _ => rfl⟩
  case memory =>
    intro edges member sys ticks j _
    obtain ⟨starts, offered, l2Gnt, rfl⟩ := cycles edges member
    cases ticks
    rfl
  case datasize =>
    intro edges member sys ticks j
    obtain ⟨starts, offered, l2Gnt, rfl⟩ := cycles edges member
    cases ticks
    rfl
  case destination =>
    intro edges member sys ticks j
    obtain ⟨starts, offered, l2Gnt, rfl⟩ := cycles edges member
    cases ticks
    rfl
  case once => decide
  case noExternal =>
    intro edges member sys ticks i
    exact i.elim0

instance {arbiter : Arbiter (nLin + nExt)}
    (path : RxPath aWidth transSize idWidth arbiter dataWidth bufferDepth)
    (edges : RxPathEdges nExt aWidth transSize idWidth dataWidth) :
    Decidable (path.GrantsRequest edges) :=
  inferInstanceAs (Decidable (∀ _ ∈ edges.system, _))

theorem portRun_delivers :
    RxPathDelivers (udmaArbiter (1 + 0)) (fun _ => 4) portRegion portRun (fun _ => 0) ∧
      handedOver (udmaArbiter (1 + 0)) (fun _ => 4) portRun 0 = [0x44332211, 0x88776655] ∧
      rxPathWrites (udmaArbiter (1 + 0)) (fun _ => 4) (portRun.take 6) =
        [(0x1C000004, 0x11), (0x1C000005, 0x22), (0x1C000006, 0x33), (0x1C000007, 0x44)] :=
  ⟨rxPath_delivers _ _ (by decide) (by decide) (by decide) _ _ portRun_programmed
    (by decide +kernel), by decide +kernel, by decide +kernel⟩

end CoreVMcu.Udma
