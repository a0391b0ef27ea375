import CoreVMcu.Udma.RxPath
import CoreVMcu.Udma.TxDma
import CoreVMcu.Udma.TxFifo

/-!
# From the memory to the peripherals

A transmitting peripheral requests its words with an `io_tx_fifo` on the system clock, and
takes them on a clock of its own from the `udma_dc_fifo` behind it: the two are wired like
those of `io_tx_fifo_dc`.  The clear input of the `io_tx_fifo` is tied to zero.

The channels deliver a word only to a FIFO that has requested it, so the FIFOs never lose
one, and a peripheral takes the words of the region of its channel, in order.
-/

namespace CoreVMcu.Udma

open Clocked Arbitration DcFifo

variable {nLin nExt aWidth transSize idWidth : Nat}
variable {dataWidth syncDepth asyncDepth : Fin nLin → Nat}

/-- What is sampled at an edge of the system clock besides the FIFOs. -/
structure TxSysInput (nLin nExt aWidth transSize idWidth : Nat) where
  lin : Fin nLin → LinPort aWidth transSize idWidth
  ext : Fin nExt → TxExtInput aWidth
  l2Ready : Bool

/-- The clock edges of an instant: that of the system clock, and those of the clocks of the
peripherals with their ready signals. -/
structure TxPathEdges (nLin nExt aWidth transSize idWidth : Nat) where
  system : Option (TxSysInput nLin nExt aWidth transSize idWidth)
  peripheral : Fin nLin → Option Bool

/-- The channels, their L2 port and the FIFOs of their peripherals. -/
structure TxPath (aWidth transSize idWidth : Nat) (arbiter : Arbiter (nLin + nExt))
    (dataWidth syncDepth asyncDepth : Fin nLin → Nat) where
  system : TxSystem aWidth transSize idWidth arbiter
  txFifo : (j : Fin nLin) → TxFifoDc (syncDepth j) (asyncDepth j) (dataWidth j)

namespace TxPath

variable {arbiter : Arbiter (nLin + nExt)} (memory : BitVec 32 → BitVec 8)
variable (path : TxPath aWidth transSize idWidth arbiter dataWidth syncDepth asyncDepth)
variable (edges : TxPathEdges nLin nExt aWidth transSize idWidth)

/-- What the channels sample. -/
def txInput (sys : TxSysInput nLin nExt aWidth transSize idWidth) :
    TxSystemInput nLin nExt aWidth transSize idWidth where
  lin j :=
    { req := (path.txFifo j).src.req, ready := (path.txFifo j).src.ready
      datasize := (sys.lin j).datasize, destination := (sys.lin j).destination
      cfg := (sys.lin j).cfg }
  ext := sys.ext
  l2Ready := sys.l2Ready

/-- What the FIFOs of a channel sample: a narrow peripheral takes the lowest bits. -/
def fifoEdges (j : Fin nLin) : TxFifoDcEdges (dataWidth j) where
  source := edges.system.map fun sys =>
    { clr := false
      gnt := path.system.channels.gnt (path.txInput sys).toTxInput (j.castAdd nExt)
      valid := path.system.channels.chValid (j.castAdd nExt)
      data := (path.system.channels.chData (j.castAdd nExt)).setWidth (dataWidth j) }
  destination := edges.peripheral j

/-- What the dual-clock FIFO of a channel samples. -/
def dcEdges (j : Fin nLin) : ClockEdges (dataWidth j) :=
  (path.txFifo j).dcEdges (path.fifoEdges edges j)

/-- The clock edges of an instant. -/
def step : TxPath aWidth transSize idWidth arbiter dataWidth syncDepth asyncDepth where
  system :=
    match edges.system with
    | some sys => path.system.step memory (path.txInput sys)
    | none => path.system
  txFifo j := (path.txFifo j).step (path.fifoEdges edges j)

/-- The word that is delivered to the FIFO of a channel. -/
def delivers (j : Fin nLin) : List (BitVec (dataWidth j)) :=
  if edges.system.isSome && path.system.channels.chValid (j.castAdd nExt) then
    [(path.system.channels.chData (j.castAdd nExt)).setWidth (dataWidth j)]
  else []

/-- The word that goes from one FIFO of a channel to the other. -/
def passes (j : Fin nLin) : List (BitVec (dataWidth j)) :=
  accepted (path.txFifo j).dcFifo (path.dcEdges edges j)

/-- The word that a peripheral takes. -/
def takes (j : Fin nLin) : List (BitVec (dataWidth j)) :=
  transferred (path.txFifo j).dcFifo (path.dcEdges edges j)

/-- A FIFO is ready for the word that is delivered to it. -/
def FindsRoom : Prop :=
  ∀ j, path.delivers edges j ≠ [] → (path.txFifo j).src.ready = true

end TxPath

/-- The channels and the FIFOs from reset. -/
def txPathMachine (aWidth transSize idWidth : Nat) (arbiter : Arbiter (nLin + nExt))
    (dataWidth syncDepth asyncDepth : Fin nLin → Nat) (memory : BitVec 32 → BitVec 8) :
    Machine (TxPath aWidth transSize idWidth arbiter dataWidth syncDepth asyncDepth)
      (TxPathEdges nLin nExt aWidth transSize idWidth) where
  init :=
    { system := (txMachine aWidth transSize idWidth arbiter memory).init
      txFifo := fun j => (txFifoDcMachine (syncDepth j) (asyncDepth j) (dataWidth j)).init }
  step := TxPath.step memory

section Components

variable (arbiter : Arbiter (nLin + nExt)) (memory : BitVec 32 → BitVec 8)

/-- The channels run on the system clock. -/
def txPathSystem (dataWidth syncDepth asyncDepth : Fin nLin → Nat) :
    Component
      (txPathMachine aWidth transSize idWidth arbiter dataWidth syncDepth asyncDepth memory)
      (txMachine aWidth transSize idWidth arbiter memory) where
  view := TxPath.system
  feed path edges := edges.system.map path.txInput
  reset := rfl
  edge path edges := by
    cases ticks : edges.system with
    | none => simp [txPathMachine, TxPath.step, ticks]
    | some sys => simp [txPathMachine, TxPath.step, txMachine, ticks]

/-- A dual-clock FIFO runs on both clocks. -/
def txPathDcFifo (aWidth transSize idWidth : Nat)
    (dataWidth syncDepth asyncDepth : Fin nLin → Nat) (j : Fin nLin) :
    Component
      (txPathMachine aWidth transSize idWidth arbiter dataWidth syncDepth asyncDepth memory)
      (fifoMachine (dataWidth j) (asyncDepth j)) where
  view path := (path.txFifo j).dcFifo
  feed path edges := some (path.dcEdges edges j)
  reset := rfl
  edge _ _ := rfl

end Components

section Runs

variable (arbiter : Arbiter (nLin + nExt)) (memory : BitVec 32 → BitVec 8)
variable (dataWidth syncDepth asyncDepth : Fin nLin → Nat)
variable (transfers : Fin nLin → Transfer aWidth transSize)
variable (inputs : List (TxPathEdges nLin nExt aWidth transSize idWidth))

/-- The state after a run. -/
abbrev txPathRun : TxPath aWidth transSize idWidth arbiter dataWidth syncDepth asyncDepth :=
  (txPathMachine aWidth transSize idWidth arbiter dataWidth syncDepth asyncDepth memory).run
    inputs

/-- The words that have been delivered to the FIFOs of a channel. -/
def txDelivered (j : Fin nLin) : List (BitVec (dataWidth j)) :=
  (txPathMachine aWidth transSize idWidth arbiter dataWidth syncDepth asyncDepth memory).observed
    (fun path edges => path.delivers edges j) inputs

/-- The words that have gone from one FIFO of a channel to the other. -/
def txPassed (j : Fin nLin) : List (BitVec (dataWidth j)) :=
  (txPathMachine aWidth transSize idWidth arbiter dataWidth syncDepth asyncDepth memory).observed
    (fun path edges => path.passes edges j) inputs

/-- The words that the peripheral of a channel has taken. -/
def txTaken (j : Fin nLin) : List (BitVec (dataWidth j)) :=
  (txPathMachine aWidth transSize idWidth arbiter dataWidth syncDepth asyncDepth memory).observed
    (fun path edges => path.takes edges j) inputs

/-- The inputs that the channels have sampled. -/
def txInputs : List (TxSystemInput nLin nExt aWidth transSize idWidth) :=
  (txPathSystem arbiter memory dataWidth syncDepth asyncDepth).fed inputs

/-- The words of the transfer of a channel, as its peripheral gets them. -/
def transferWords (j : Fin nLin) : List (BitVec (dataWidth j)) :=
  (List.range (transfers j).accesses).map fun k =>
    (loadedValue memory (transfers j).destination ((transfers j).address k)
      (transfers j).datasize).setWidth (dataWidth j)

/-- The peripherals program the transfers of their channels, each at most once. -/
structure TxPathProgrammed : Prop where
  programs : ∀ edges ∈ inputs, ∀ sys ∈ edges.system, ∀ j,
    (transfers j).Programs (sys.lin j).cfg
  datasize : ∀ edges ∈ inputs, ∀ sys ∈ edges.system, ∀ j,
    (sys.lin j).datasize = (transfers j).datasize
  destination : ∀ edges ∈ inputs, ∀ sys ∈ edges.system, ∀ j,
    (sys.lin j).destination = (transfers j).destination
  once : ∀ j, inputs.countP (fun edges => edges.system.any fun sys => (sys.lin j).cfg.en) ≤ 1

/-- A peripheral takes the words of the region of its channel, in order; the FIFOs hold every
word that was delivered and not yet taken, and find room for each; and every request that was
granted is answered after enough cycles with a ready L2 port. -/
structure TxPathDelivers : Prop where
  inOrder : ∀ j, txTaken arbiter memory dataWidth syncDepth asyncDepth inputs j <+:
    transferWords memory dataWidth transfers j
  kept : ∀ j, ∃ inDc inSync : List (BitVec (dataWidth j)),
    txDelivered arbiter memory dataWidth syncDepth asyncDepth inputs j =
        txTaken arbiter memory dataWidth syncDepth asyncDepth inputs j ++ inDc ++ inSync ∧
      inDc.length ≤ asyncDepth j ∧ inSync.length ≤ syncDepth j
  findsRoom :
    (txPathMachine aWidth transSize idWidth arbiter dataWidth syncDepth asyncDepth memory).Always
      TxPath.FindsRoom inputs
  answered : ∀ j later, 24 ≤ later.countP (fun edges => edges.system.any (·.l2Ready)) →
    (grantedLanes arbiter memory
        (txInputs arbiter memory dataWidth syncDepth asyncDepth inputs)).count (j.castAdd nExt) ≤
      (txDelivered arbiter memory dataWidth syncDepth asyncDepth (inputs ++ later) j).length

end Runs

/-! ## Grants and deliveries of a lane -/

section Lanes

variable {arbiter : Arbiter (nLin + nExt)} {memory : BitVec 32 → BitVec 8}
variable {inputs : List (TxSystemInput nLin nExt aWidth transSize idWidth)}

theorem filter_raised {n : Nat} (flags : Fin n → Bool) (lane : Fin n) :
    (raised flags).filter (· == lane) = if flags lane then [lane] else [] := by
  rw [List.filter_beq, count_raised]
  cases flags lane <;> rfl

theorem wordsOf_delivers (system : TxSystem aWidth transSize idWidth arbiter)
    (input : TxSystemInput nLin nExt aWidth transSize idWidth) (lane : Fin (nLin + nExt)) :
    wordsOf lane (system.delivers input) =
      if system.channels.chValid lane then [system.channels.chData lane] else [] := by
  have mine : (system.delivers input).filter (·.1 == lane) =
      ((raised system.channels.chValid).filter (· == lane)).map
        fun lane => (lane, system.channels.chData lane) := List.filter_map ..
  rw [wordsOf, mine, filter_raised]
  cases system.channels.chValid lane <;> rfl

theorem count_delivers (system : TxSystem aWidth transSize idWidth arbiter)
    (input : TxSystemInput nLin nExt aWidth transSize idWidth) (lane : Fin (nLin + nExt)) :
    ((system.delivers input).map Prod.fst).count lane = (system.channels.chValid lane).toNat := by
  rw [← count_raised, TxSystem.delivers, List.map_map]
  exact congrArg _ (List.map_id _)

theorem length_wordsOf (lane : Fin (nLin + nExt))
    (delivered : List (Fin (nLin + nExt) × BitVec 32)) :
    (wordsOf lane delivered).length = (delivered.map Prod.fst).count lane := by
  rw [wordsOf, List.length_map, ← List.countP_eq_length_filter, List.count, List.countP_map]
  rfl

/-- The requests that have been granted are answered within the cycles that the L2 port has to
be ready. -/
theorem granted_answered (arbiter : Arbiter (nLin + nExt)) (memory : BitVec 32 → BitVec 8)
    (wideAddress : 2 ≤ aWidth)
    (inputs : List (TxSystemInput nLin nExt aWidth transSize idWidth))
    {later : List (TxSystemInput nLin nExt aWidth transSize idWidth)}
    (enough : 24 ≤ later.countP (·.l2Ready)) :
    grantedLanes arbiter memory inputs <+:
      (deliveries arbiter memory (inputs ++ later)).map Prod.fst := by
  obtain ⟨done, ready, answering, queued, flow⟩ := txFlow arbiter memory wideAddress inputs
  obtain ⟨laterDone, laterReady, laterAnswering, laterQueued, laterFlow, -, closer⟩ :=
    flow.drain wideAddress later
  have granted : grantedLanes arbiter memory inputs <+:
      grantedLanes arbiter memory (inputs ++ later) := by
    rw [grantedLanes, grantedLanes, Machine.observed, Machine.observed,
      Machine.observedFrom_append]
    exact List.prefix_append ..
  apply List.prefix_of_prefix_length_le granted laterFlow.inOrder
  have lengths := congrArg List.length laterFlow.lanes_eq
  rw [List.length_map Fin.val, List.length_map TxAccess.resp] at lengths
  rw [lengths]
  by_contra short
  have left := Nat.lt_of_not_le short
  have soFar := closer left
  have atMost := flow.inFlight.cyclesLeft_le _ (Nat.le_of_eq flow.length_granted)
  have some := TxSystem.cyclesLeft_pos (Nat.sub_pos_of_lt left) (Bool.toNat_le
    (txRun arbiter memory (inputs ++ later)).channels.isNa) laterReady.length
    laterAnswering.length laterQueued.length
  omega

/-- A word that is delivered to a lane answers a request that was granted before and has not
been answered. -/
theorem TxFlow.answers {done ready answering queued : List (TxAccess aWidth)}
    (flow : TxFlow arbiter memory inputs done ready answering queued)
    (input : TxSystemInput nLin nExt aWidth transSize idWidth) (lane : Fin (nLin + nExt)) :
    ((deliveries arbiter memory inputs).map Prod.fst).count lane +
        ((txRun arbiter memory inputs).channels.chValid lane).toNat ≤
      (grantedLanes arbiter memory inputs).count lane := by
  have known : ∀ access ∈ ready, access.resp < nLin + nExt := by
    intro access member
    apply flow.inFlight.known
    rw [flow.inFlight.conserved]
    simp [member]
  have now : (((txRun arbiter memory inputs).delivers input).map Prod.fst).map Fin.val =
      ready.map TxAccess.resp := by
    have delivers := congrArg (List.map Prod.fst)
      (TxSystem.delivers_eq flow.inFlight.ready known input)
    simpa only [List.map_map, Function.comp_def, Prod.map_fst] using delivers
  rw [← count_delivers _ input, ← List.count_map_of_injective _ Fin.val Fin.val_injective,
    ← List.count_map_of_injective _ Fin.val Fin.val_injective,
    ← List.count_map_of_injective _ Fin.val Fin.val_injective, flow.lanes_eq, now, flow.granted,
    flow.inFlight.conserved, ← List.count_append, ← List.map_append]
  apply List.Sublist.count_le
  rw [List.append_assoc (done ++ ready), @List.map_append _ _ _ (done ++ ready),
    List.append_assoc]
  exact List.sublist_append_left ..

end Lanes

section Fifos

variable {arbiter : Arbiter (nLin + nExt)} {memory : BitVec 32 → BitVec 8}
variable {transfers : Fin nLin → Transfer aWidth transSize}
variable {inputs : List (TxPathEdges nLin nExt aWidth transSize idWidth)}
variable {edges : TxPathEdges nLin nExt aWidth transSize idWidth}

theorem txPathRun_snoc :
    txPathRun arbiter memory dataWidth syncDepth asyncDepth (inputs ++ [edges]) =
      (txPathRun arbiter memory dataWidth syncDepth asyncDepth inputs).step memory edges :=
  Machine.run_snoc ..

theorem txInputs_snoc :
    txInputs arbiter memory dataWidth syncDepth asyncDepth (inputs ++ [edges]) =
      txInputs arbiter memory dataWidth syncDepth asyncDepth inputs ++
        (edges.system.map
          (txPathRun arbiter memory dataWidth syncDepth asyncDepth inputs).txInput).toList :=
  Component.fed_snoc ..

/-- The channels are where they would be on their own. -/
theorem txPathRun_system :
    (txPathRun arbiter memory dataWidth syncDepth asyncDepth inputs).system =
      txRun arbiter memory (txInputs arbiter memory dataWidth syncDepth asyncDepth inputs) :=
  (txPathSystem arbiter memory dataWidth syncDepth asyncDepth).view_run inputs

/-- A granted channel has requested a word for its FIFO. -/
theorem TxPath.req_of_gnt {j : Fin nLin} {sys : TxSysInput nLin nExt aWidth transSize idWidth}
    (path : TxPath aWidth transSize idWidth arbiter dataWidth syncDepth asyncDepth)
    (gnt : path.system.channels.gnt (path.txInput sys).toTxInput (j.castAdd nExt) = true) :
    (path.txFifo j).src.req = true := by
  have requests := arbiter.requested (eq_of_beq (Bool.and_eq_true_iff.mp gnt).2)
  rw [TxChannels.req, Fin.append_left, Bool.and_eq_true] at requests
  exact requests.1

/-- The FIFOs of a channel along a run: the requests under way, and the words that wait in the
first one. -/
structure TxLane (arbiter : Arbiter (nLin + nExt)) (memory : BitVec 32 → BitVec 8)
    (dataWidth syncDepth asyncDepth : Fin nLin → Nat)
    (inputs : List (TxPathEdges nLin nExt aWidth transSize idWidth)) (j : Fin nLin)
    (inflight : Nat) (words : List (BitVec (dataWidth j))) : Prop where
  credit :
    ((txPathRun arbiter memory dataWidth syncDepth asyncDepth inputs).txFifo j).src.Credit inflight
  granted :
    (grantedLanes arbiter memory
        (txInputs arbiter memory dataWidth syncDepth asyncDepth inputs)).count (j.castAdd nExt) =
      ((deliveries arbiter memory
        (txInputs arbiter memory dataWidth syncDepth asyncDepth inputs)).map Prod.fst).count
          (j.castAdd nExt) + inflight
  stores : IoGenericFifo.Represents (syncDepth j)
    ((txPathRun arbiter memory dataWidth syncDepth asyncDepth inputs).txFifo j).src.fifo words
  conserved : txDelivered arbiter memory dataWidth syncDepth asyncDepth inputs j =
    txPassed arbiter memory dataWidth syncDepth asyncDepth inputs j ++ words

theorem txLane_nil {j : Fin nLin} (positive : 0 < syncDepth j) :
    TxLane arbiter memory dataWidth syncDepth asyncDepth
      ([] : List (TxPathEdges nLin nExt aWidth transSize idWidth)) j 0 [] where
  credit := credit_reset 0
  granted := rfl
  stores := IoGenericFifo.represents_reset 0 positive
  conserved := rfl

variable {j : Fin nLin} {inflight : Nat} {words : List (BitVec (dataWidth j))}

/-- A word finds its request among those under way, and room in the FIFO. -/
theorem TxLane.answers
    (lane : TxLane arbiter memory dataWidth syncDepth asyncDepth inputs j inflight words)
    (wide : 2 ≤ aWidth) (sys : TxSysInput nLin nExt aWidth transSize idWidth)
    (valid : (txPathRun arbiter memory dataWidth syncDepth asyncDepth
      inputs).system.channels.chValid (j.castAdd nExt) = true) : 0 < inflight := by
  obtain ⟨done, ready, answering, queued, flow⟩ := txFlow arbiter memory wide
    (txInputs arbiter memory dataWidth syncDepth asyncDepth inputs)
  have answered := flow.answers
    ((txPathRun arbiter memory dataWidth syncDepth asyncDepth inputs).txInput sys) (j.castAdd nExt)
  rw [← txPathRun_system, valid, lane.granted] at answered
  exact Nat.lt_of_lt_of_le Nat.zero_lt_one (Nat.le_of_add_le_add_left answered)

/-- One instant. -/
theorem TxLane.step
    (lane : TxLane arbiter memory dataWidth syncDepth asyncDepth inputs j inflight words)
    (wide : 2 ≤ aWidth) (edges : TxPathEdges nLin nExt aWidth transSize idWidth) :
    ∃ inflightNext wordsNext, TxLane arbiter memory dataWidth syncDepth asyncDepth
      (inputs ++ [edges]) j inflightNext wordsNext := by
  have delivered : txDelivered arbiter memory dataWidth syncDepth asyncDepth (inputs ++ [edges]) j =
      txDelivered arbiter memory dataWidth syncDepth asyncDepth inputs j ++
        (txPathRun arbiter memory dataWidth syncDepth asyncDepth inputs).delivers edges j :=
    Machine.observed_snoc ..
  have passed : txPassed arbiter memory dataWidth syncDepth asyncDepth (inputs ++ [edges]) j =
      txPassed arbiter memory dataWidth syncDepth asyncDepth inputs j ++
        (txPathRun arbiter memory dataWidth syncDepth asyncDepth inputs).passes edges j :=
    Machine.observed_snoc ..
  cases ticks : edges.system with
  | none =>
      have same : ((txPathRun arbiter memory dataWidth syncDepth asyncDepth
          (inputs ++ [edges])).txFifo j).src =
          ((txPathRun arbiter memory dataWidth syncDepth asyncDepth inputs).txFifo j).src := by
        rw [txPathRun_snoc]
        simp [TxPath.step, TxFifoDc.step, TxPath.fifoEdges, ticks]
      have fed : txInputs arbiter memory dataWidth syncDepth asyncDepth (inputs ++ [edges]) =
          txInputs arbiter memory dataWidth syncDepth asyncDepth inputs := by
        rw [txInputs_snoc, ticks]
        exact List.append_nil _
      refine ⟨inflight, words, ?_, ?_, ?_, ?_⟩
      · rw [same]
        exact lane.credit
      · rw [fed]
        exact lane.granted
      · rw [same]
        exact lane.stores
      · rw [delivered, passed, lane.conserved]
        simp [TxPath.delivers, TxPath.passes, TxPath.dcEdges, TxFifoDc.dcEdges, TxPath.fifoEdges,
          accepted, ticks]
  | some sys =>
      let path := txPathRun arbiter memory dataWidth syncDepth asyncDepth inputs
      let sampled : TxFifoInput (BitVec (dataWidth j)) :=
        { clr := false
          gnt := path.system.channels.gnt (path.txInput sys).toTxInput (j.castAdd nExt)
          validIn := path.system.channels.chValid (j.castAdd nExt)
          dataIn := (path.system.channels.chData (j.castAdd nExt)).setWidth (dataWidth j)
          readyIn := (path.txFifo j).dcFifo.din.ready }
      have answers : sampled.validIn = true → 0 < inflight := lane.answers wide sys
      have stepped : ((txPathRun arbiter memory dataWidth syncDepth asyncDepth
          (inputs ++ [edges])).txFifo j).src = (path.txFifo j).src.step sampled := by
        rw [txPathRun_snoc]
        simp only [TxPath.step, TxFifoDc.step, TxPath.fifoEdges, ticks]
        rfl
      have fed : txInputs arbiter memory dataWidth syncDepth asyncDepth (inputs ++ [edges]) =
          txInputs arbiter memory dataWidth syncDepth asyncDepth inputs ++ [path.txInput sys] := by
        rw [txInputs_snoc, ticks]
        rfl
      obtain ⟨next, credit, balance⟩ :=
        lane.credit.step (Nat.le_pow_clog (by decide) (syncDepth j)) sampled answers
      refine ⟨next, words.drop (sampled.readyIn && (path.txFifo j).src.fifo.valid).toNat ++
        (if sampled.validIn && (path.txFifo j).src.fifo.ready (syncDepth j) then [sampled.dataIn]
          else []), stepped ▸ credit, ?_, ?_, ?_⟩
      · -- The grants and the deliveries of this cycle.
        have granted : grantedLanes arbiter memory
            (txInputs arbiter memory dataWidth syncDepth asyncDepth inputs ++ [path.txInput sys]) =
            grantedLanes arbiter memory
              (txInputs arbiter memory dataWidth syncDepth asyncDepth inputs) ++
              path.system.grants (path.txInput sys) := by
          rw [grantedLanes, Machine.observed_snoc, ← txRun, ← txPathRun_system]
          rfl
        have answered : deliveries arbiter memory
            (txInputs arbiter memory dataWidth syncDepth asyncDepth inputs ++ [path.txInput sys]) =
            deliveries arbiter memory
              (txInputs arbiter memory dataWidth syncDepth asyncDepth inputs) ++
              path.system.delivers (path.txInput sys) := by
          rw [deliveries, Machine.observed_snoc, ← txRun, ← txPathRun_system]
          rfl
        have requested : ((path.txFifo j).src.req && sampled.gnt) = sampled.gnt := by
          cases gnt : sampled.gnt with
          | false => exact Bool.and_false _
          | true => rw [path.req_of_gnt gnt, Bool.true_and]
        rw [fed, granted, answered, List.count_append, List.map_append, List.count_append,
          lane.granted, count_delivers, TxSystem.grants, count_raised, Nat.add_assoc, Nat.add_assoc]
        rw [requested] at balance
        exact congrArg _ (balance.symm.trans (Nat.add_comm ..))
      · rw [stepped]
        exact lane.stores.step sampled.validIn sampled.dataIn sampled.readyIn
      · have passes : path.passes edges j =
            words.take (sampled.readyIn && (path.txFifo j).src.fifo.valid).toNat := by
          rw [← lane.stores.popped sampled.readyIn, Bool.and_comm]
          simp only [TxPath.passes, TxPath.dcEdges, TxFifoDc.dcEdges, TxPath.fifoEdges, accepted,
            ticks]
          rfl
        have delivers : path.delivers edges j =
            if sampled.validIn && (path.txFifo j).src.fifo.ready (syncDepth j) then
              [sampled.dataIn] else [] := by
          rw [TxPath.delivers, ticks]
          cases valid : sampled.validIn with
          | false => simpa [sampled] using valid
          | true =>
              have room : (path.txFifo j).src.fifo.ready (syncDepth j) = true :=
                lane.credit.ready (answers valid)
              rw [room]
              exact if_pos valid
        rw [delivered, passed, lane.conserved, List.append_assoc, List.append_assoc]
        congr 1
        rw [← List.append_assoc]
        change _ ++ path.delivers edges j = path.passes edges j ++ _ ++ _
        rw [passes, List.take_append_drop, delivers]

theorem txLane (arbiter : Arbiter (nLin + nExt)) (memory : BitVec 32 → BitVec 8)
    (dataWidth asyncDepth : Fin nLin → Nat) (wide : 2 ≤ aWidth)
    (inputs : List (TxPathEdges nLin nExt aWidth transSize idWidth)) {j : Fin nLin}
    (positive : 0 < syncDepth j) :
    ∃ inflight words,
      TxLane arbiter memory dataWidth syncDepth asyncDepth inputs j inflight words := by
  induction inputs using List.reverseRecOn with
  | nil => exact ⟨0, [], txLane_nil positive⟩
  | append_singleton inputs edges inductionHypothesis =>
      obtain ⟨inflight, words, lane⟩ := inductionHypothesis
      exact lane.step wide edges

end Fifos

/-! ## TX end to end -/

section Delivers

variable {arbiter : Arbiter (nLin + nExt)} {memory : BitVec 32 → BitVec 8}
variable {transfers : Fin nLin → Transfer aWidth transSize}
variable {inputs : List (TxPathEdges nLin nExt aWidth transSize idWidth)}

/-- What the channels sample comes from an edge of the system clock. -/
theorem exists_of_mem_txInputs {input : TxSystemInput nLin nExt aWidth transSize idWidth}
    (member : input ∈ txInputs arbiter memory dataWidth syncDepth asyncDepth inputs) :
    ∃ edges ∈ inputs, ∃ sys ∈ edges.system,
      ∃ path : TxPath aWidth transSize idWidth arbiter dataWidth syncDepth asyncDepth,
        input = path.txInput sys := by
  obtain ⟨before, edges, isPrefix, feeds⟩ := Component.exists_of_mem_fed _ member
  obtain ⟨sys, ticks, rfl⟩ := Option.map_eq_some_iff.mp feeds
  exact ⟨edges, isPrefix.subset (by simp), sys, ticks, _, rfl⟩

/-- The channels are programmed as the peripherals program them. -/
theorem TxPathProgrammed.channels (programmed : TxPathProgrammed transfers inputs) :
    TxProgrammed transfers (txInputs arbiter memory dataWidth syncDepth asyncDepth inputs) where
  programs := by
    intro input member j
    obtain ⟨edges, fed, sys, ticks, path, rfl⟩ := exists_of_mem_txInputs member
    exact programmed.programs edges fed sys ticks j
  datasize := by
    intro input member j
    obtain ⟨edges, fed, sys, ticks, path, rfl⟩ := exists_of_mem_txInputs member
    exact programmed.datasize edges fed sys ticks j
  destination := by
    intro input member j
    obtain ⟨edges, fed, sys, ticks, path, rfl⟩ := exists_of_mem_txInputs member
    exact programmed.destination edges fed sys ticks j
  once := by
    intro j
    apply Nat.le_trans _ (programmed.once j)
    apply Nat.le_of_eq
    apply Component.countP_samples
    intro path edges
    exact Option.any_map

/-- The words that are delivered to a FIFO are those of its lane. -/
theorem txDelivered_eq (j : Fin nLin) :
    txDelivered arbiter memory dataWidth syncDepth asyncDepth inputs j =
      (wordsOf (j.castAdd nExt) (deliveries arbiter memory
        (txInputs arbiter memory dataWidth syncDepth asyncDepth inputs))).map
          (·.setWidth (dataWidth j)) := by
  induction inputs using List.reverseRecOn with
  | nil => rfl
  | append_singleton inputs edges inductionHypothesis =>
      rw [txDelivered, Machine.observed_snoc, ← txDelivered, inductionHypothesis, txInputs_snoc,
        deliveries, deliveries, Machine.observed, Machine.observed, Machine.observedFrom_append,
        wordsOf, wordsOf, List.filter_append, List.map_append, List.map_append]
      congr 1
      rw [TxPath.delivers]
      cases edges.system with
      | none => rfl
      | some sys =>
          have words := wordsOf_delivers
            (txPathRun arbiter memory dataWidth syncDepth asyncDepth inputs).system
            ((txPathRun arbiter memory dataWidth syncDepth asyncDepth inputs).txInput sys)
            (j.castAdd nExt)
          rw [wordsOf] at words
          rw [Option.map_some, Option.toList_some, Machine.observedFrom, Machine.observedFrom,
            List.append_nil, ← Machine.run, ← txRun, ← txPathRun_system, words]
          cases (txPathRun arbiter memory dataWidth syncDepth asyncDepth
            inputs).system.channels.chValid (j.castAdd nExt) <;> rfl

/-- The words that are delivered to a FIFO are the first ones of the transfer. -/
theorem txDelivered_isPrefix (wideAddress : 2 ≤ aWidth) (wideSize : 3 ≤ transSize)
    (programmed : TxPathProgrammed transfers inputs) (j : Fin nLin) :
    txDelivered arbiter memory dataWidth syncDepth asyncDepth inputs j <+:
      transferWords memory dataWidth transfers j := by
  obtain ⟨done, ready, answering, queued, flow⟩ := txFlow arbiter memory wideAddress
    (txInputs arbiter memory dataWidth syncDepth asyncDepth inputs)
  obtain ⟨count, status, tracks, -, pushed⟩ :=
    transfer_pushed arbiter memory wideSize programmed.channels j
  have mine := flow.done_prefix.filter (·.resp == (j.castAdd nExt).val)
  rw [pushed] at mine
  have enough : count ≤ (transfers j).accesses :=
    Nat.le_trans (Nat.le_add_right ..) tracks.phase.count_le
  have all : (List.range count).map ((transfers j).access (j.castAdd nExt).val) <+:
      (List.range (transfers j).accesses).map ((transfers j).access (j.castAdd nExt).val) := by
    apply List.IsPrefix.map
    rw [List.prefix_iff_eq_take, List.length_range, List.take_range, Nat.min_eq_left enough]
  have words := ((mine.trans all).map (TxAccess.loaded memory)).map (·.setWidth (dataWidth j))
  rw [← flow.wordsOf_eq, ← txDelivered_eq, List.map_map, List.map_map] at words
  have same : (List.range (transfers j).accesses).map (((·.setWidth (dataWidth j)) ∘
      TxAccess.loaded memory) ∘ (transfers j).access (j.castAdd nExt).val) =
        transferWords memory dataWidth transfers j := by
    apply List.map_congr_left
    intro k _
    exact congrArg _ (loaded_access ..)
  rwa [same] at words

theorem txPassed_eq (j : Fin nLin) :
    txPassed arbiter memory dataWidth syncDepth asyncDepth inputs j =
      (fifoMachine (dataWidth j) (asyncDepth j)).observed accepted
        ((txPathDcFifo arbiter memory aWidth transSize idWidth dataWidth syncDepth asyncDepth
          j).fed inputs) := by
  rw [← Component.observed_watches, txPassed]
  congr 1
  funext path edges
  exact (List.append_nil _).symm

theorem txTaken_eq (j : Fin nLin) :
    txTaken arbiter memory dataWidth syncDepth asyncDepth inputs j =
      (fifoMachine (dataWidth j) (asyncDepth j)).observed transferred
        ((txPathDcFifo arbiter memory aWidth transSize idWidth dataWidth syncDepth asyncDepth
          j).fed inputs) := by
  rw [← Component.observed_watches, txTaken]
  congr 1
  funext path edges
  exact (List.append_nil _).symm

/-- The words that were delivered have been taken or are in the FIFOs. -/
theorem txDelivered_kept (arbiter : Arbiter (nLin + nExt)) (memory : BitVec 32 → BitVec 8)
    (dataWidth : Fin nLin → Nat) (positive : ∀ j, 0 < syncDepth j) (deep : ∀ j, 4 ≤ asyncDepth j)
    (wideAddress : 2 ≤ aWidth) (inputs : List (TxPathEdges nLin nExt aWidth transSize idWidth))
    (j : Fin nLin) :
    ∃ inDc inSync : List (BitVec (dataWidth j)),
      txDelivered arbiter memory dataWidth syncDepth asyncDepth inputs j =
          txTaken arbiter memory dataWidth syncDepth asyncDepth inputs j ++ inDc ++ inSync ∧
        inDc.length ≤ asyncDepth j ∧ inSync.length ≤ syncDepth j := by
  obtain ⟨inflight, words, lane⟩ :=
    txLane arbiter memory dataWidth asyncDepth wideAddress inputs (positive j)
  refine ⟨contents (asyncDepth j) ((txPathDcFifo arbiter memory aWidth transSize idWidth
    dataWidth syncDepth asyncDepth j).fed inputs), words, ?_, ?_, lane.stores.bounded⟩
  · rw [lane.conserved, txPassed_eq, txTaken_eq, transferred_append_contents (deep j)]
  · exact Nat.le_of_lt (length_contents_lt (deep j) _)

/-- A peripheral takes the first words of the transfer. -/
theorem txTaken_isPrefix (arbiter : Arbiter (nLin + nExt)) (memory : BitVec 32 → BitVec 8)
    (dataWidth : Fin nLin → Nat) (positive : ∀ j, 0 < syncDepth j) (deep : ∀ j, 4 ≤ asyncDepth j)
    (wideAddress : 2 ≤ aWidth) (wideSize : 3 ≤ transSize)
    (programmed : TxPathProgrammed transfers inputs) (j : Fin nLin) :
    txTaken arbiter memory dataWidth syncDepth asyncDepth inputs j <+:
      transferWords memory dataWidth transfers j := by
  obtain ⟨inDc, inSync, delivered, -⟩ :=
    txDelivered_kept arbiter memory dataWidth positive deep wideAddress inputs j
  have held : txTaken arbiter memory dataWidth syncDepth asyncDepth inputs j <+:
      txDelivered arbiter memory dataWidth syncDepth asyncDepth inputs j := by
    rw [delivered, List.append_assoc]
    exact List.prefix_append ..
  exact held.trans (txDelivered_isPrefix wideAddress wideSize programmed j)

/-- For every interleaving of the clocks of the peripherals and the system clock, every
pattern of grants of the L2 port and every order of arbitration, the peripherals take the
words of the regions of their channels. -/
theorem txPath_delivers (arbiter : Arbiter (nLin + nExt)) (memory : BitVec 32 → BitVec 8)
    (positive : ∀ j, 0 < syncDepth j) (deep : ∀ j, 4 ≤ asyncDepth j)
    (wideAddress : 2 ≤ aWidth) (wideSize : 3 ≤ transSize)
    (transfers : Fin nLin → Transfer aWidth transSize)
    (inputs : List (TxPathEdges nLin nExt aWidth transSize idWidth))
    (programmed : TxPathProgrammed transfers inputs) :
    TxPathDelivers arbiter memory dataWidth syncDepth asyncDepth transfers inputs := by
  constructor
  case inOrder =>
    exact txTaken_isPrefix arbiter memory dataWidth positive deep wideAddress wideSize programmed
  case kept => exact txDelivered_kept arbiter memory dataWidth positive deep wideAddress inputs
  case findsRoom =>
    apply Machine.always_of_reachable
    intro before edges j delivers
    obtain ⟨inflight, words, lane⟩ :=
      txLane arbiter memory dataWidth asyncDepth wideAddress before (positive j)
    cases ticks : edges.system with
    | none => simp [TxPath.delivers, ticks] at delivers
    | some sys =>
        apply lane.credit.ready
        apply lane.answers wideAddress sys
        cases valid : (txPathRun arbiter memory dataWidth syncDepth asyncDepth
            before).system.channels.chValid (j.castAdd nExt) with
        | true => rfl
        | false => simp [TxPath.delivers, valid] at delivers
  case answered =>
    intro j later enough
    let fed := txInputs arbiter memory dataWidth syncDepth asyncDepth inputs
    let fedLater := (txPathMachine aWidth transSize idWidth arbiter dataWidth syncDepth asyncDepth
      memory).observedFrom (txPathSystem arbiter memory dataWidth syncDepth asyncDepth).samples
        (txPathRun arbiter memory dataWidth syncDepth asyncDepth inputs) later
    have append : txInputs arbiter memory dataWidth syncDepth asyncDepth (inputs ++ later) =
        fed ++ fedLater := Component.fed_append ..
    have cycles : 24 ≤ fedLater.countP (·.l2Ready) := by
      apply Nat.le_trans enough
      apply Nat.le_of_eq
      symm
      apply Component.countP_samples
      intro path edges
      exact Option.any_map
    have counts := (granted_answered arbiter memory wideAddress fed cycles).sublist.count_le
      (j.castAdd nExt)
    rw [txDelivered_eq, append, List.length_map, length_wordsOf]
    exact counts

end Delivers

/-- A transfer of two bytes across words. -/
def portTransfer : Fin 1 → Transfer 8 4 := fun _ =>
  { startaddr := 3#8, size := 2#4, datasize := 0#2, destination := 0#2, positive := by decide
    known := by decide }

/-- A cycle of the system clock, with an edge of the clock of the peripheral that takes a
word. -/
def takingCycle (starts : Bool) : TxPathEdges 1 0 8 4 1 where
  system := some
    { lin := fun j =>
        { datasize := (portTransfer j).datasize, destination := (portTransfer j).destination
          cfg :=
            { startaddr := (portTransfer j).startaddr, size := (portTransfer j).size
              continuous := false, en := starts, stream := 0, streamId := 0, clr := false } }
      ext := fun i => i.elim0
      l2Ready := true }
  peripheral _ := some true

def takingRun : List (TxPathEdges 1 0 8 4 1) :=
  takingCycle true :: List.replicate 5 (takingCycle false)

theorem takingRun_programmed : TxPathProgrammed portTransfer takingRun := by
  have cycles : ∀ edges ∈ takingRun, ∃ starts, edges = takingCycle starts := by
    intro edges member
    rcases List.mem_cons.mp member with rfl | member
    · exact ⟨true, rfl⟩
    · exact ⟨false, List.eq_of_mem_replicate member⟩
  constructor
  case programs =>
    intro edges member sys ticks j
    obtain ⟨starts, rfl⟩ := cycles edges member
    cases ticks
    exact ⟨rfl, rfl, fun _ => rfl, fun _ => rfl⟩
  case datasize =>
    intro edges member sys ticks j
    obtain ⟨starts, rfl⟩ := cycles edges member
    cases ticks
    rfl
  case destination =>
    intro edges member sys ticks j
    obtain ⟨starts, rfl⟩ := cycles edges member
    cases ticks
    rfl
  case once => decide

/-- Both bytes are delivered from a memory that holds at each address its lowest byte. -/
theorem takingRun_delivers :
    TxPathDelivers (udmaArbiter (1 + 0)) (·.setWidth 8) (fun _ => 8) (fun _ => 2) (fun _ => 4)
        portTransfer takingRun ∧
      txDelivered (udmaArbiter (1 + 0)) (·.setWidth 8) (fun _ => 8) (fun _ => 2) (fun _ => 4)
        takingRun 0 = [3, 4] :=
  ⟨txPath_delivers _ _ (by decide) (by decide) (by decide) (by decide) _ _ takingRun_programmed,
    by decide⟩

end CoreVMcu.Udma
