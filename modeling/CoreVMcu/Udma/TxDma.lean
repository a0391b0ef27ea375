import CoreVMcu.Arbitration.PrefixArbiter
import CoreVMcu.Udma.TxTransfers

/-!
# TX DMA

Each linear channel is programmed with one transfer.  The words that it gets are
the little-endian values of the consecutive accesses of the transfer, one for each
request that is granted.
-/

namespace CoreVMcu.Udma

open Clocked Arbitration

variable {nLin nExt aWidth transSize idWidth : Nat}

/-- The inputs program the transfers, each at most once. -/
structure TxProgrammed (transfers : Fin nLin → Transfer aWidth transSize)
    (inputs : List (TxSystemInput nLin nExt aWidth transSize idWidth)) : Prop where
  programs : ∀ input ∈ inputs, ∀ j, (transfers j).Programs (input.lin j).cfg
  datasize : ∀ input ∈ inputs, ∀ j, (input.lin j).datasize = (transfers j).datasize
  destination : ∀ input ∈ inputs, ∀ j, (input.lin j).destination = (transfers j).destination
  once : ∀ j, inputs.countP (fun input => (input.lin j).cfg.en) ≤ 1

/-- The lanes whose requests are granted, in order. -/
def grantedLanes (arbiter : Arbiter (nLin + nExt)) (memory : BitVec 32 → BitVec 8)
    (inputs : List (TxSystemInput nLin nExt aWidth transSize idWidth)) :
    List (Fin (nLin + nExt)) :=
  (txMachine aWidth transSize idWidth arbiter memory).observed TxSystem.grants inputs

/-- The words that are delivered, with their lanes, in order. -/
def deliveries (arbiter : Arbiter (nLin + nExt)) (memory : BitVec 32 → BitVec 8)
    (inputs : List (TxSystemInput nLin nExt aWidth transSize idWidth)) :
    List (Fin (nLin + nExt) × BitVec 32) :=
  (txMachine aWidth transSize idWidth arbiter memory).observed TxSystem.delivers inputs

/-- The words that a lane gets. -/
def wordsOf (lane : Fin (nLin + nExt)) (words : List (Fin (nLin + nExt) × BitVec 32)) :
    List (BitVec 32) :=
  (words.filter (·.1 == lane)).map (·.2)

/-- The accesses that the granted requests of an external channel ask for. -/
def askedFor (arbiter : Arbiter (nLin + nExt)) (memory : BitVec 32 → BitVec 8) (i : Fin nExt)
    (inputs : List (TxSystemInput nLin nExt aWidth transSize idWidth)) : List (TxAccess aWidth) :=
  (txMachine aWidth transSize idWidth arbiter memory).observed (TxSystem.asksFor i) inputs

/-- The words of the memory are delivered to the channels that asked for them: the
`k`-th word of a linear channel is the `k`-th of its transfer, and the words of an
external channel are those at the addresses it gives.  The granted requests are
delivered in order, and all of them after enough cycles with a ready L2 port. -/
structure TxDelivers (arbiter : Arbiter (nLin + nExt)) (memory : BitVec 32 → BitVec 8)
    (transfers : Fin nLin → Transfer aWidth transSize)
    (inputs : List (TxSystemInput nLin nExt aWidth transSize idWidth)) : Prop where
  linWords : ∀ j : Fin nLin,
    wordsOf (j.castAdd nExt) (deliveries arbiter memory inputs) =
      (List.range (wordsOf (j.castAdd nExt) (deliveries arbiter memory inputs)).length).map
        fun k => loadedValue memory (transfers j).destination ((transfers j).address k)
          (transfers j).datasize
  extWords : ∀ i : Fin nExt,
    wordsOf (i.natAdd nLin) (deliveries arbiter memory inputs) <+:
      (askedFor arbiter memory i inputs).map (TxAccess.loaded memory)
  inOrder : (deliveries arbiter memory inputs).map Prod.fst <+: grantedLanes arbiter memory inputs
  delivered : ∀ later, 24 ≤ later.countP (·.l2Ready) →
    grantedLanes arbiter memory inputs <+:
      (deliveries arbiter memory (inputs ++ later)).map Prod.fst

/-! ## Runs of the pipeline -/

section Pipeline

variable {arbiter : Arbiter (nLin + nExt)} {memory : BitVec 32 → BitVec 8}
variable {inputs : List (TxSystemInput nLin nExt aWidth transSize idWidth)}
variable {done ready answering queued : List (TxAccess aWidth)}

/-- The state after a run. -/
abbrev txRun (arbiter : Arbiter (nLin + nExt)) (memory : BitVec 32 → BitVec 8)
    (inputs : List (TxSystemInput nLin nExt aWidth transSize idWidth)) :
    TxSystem aWidth transSize idWidth arbiter :=
  (txMachine aWidth transSize idWidth arbiter memory).run inputs

theorem txRun_snoc (input : TxSystemInput nLin nExt aWidth transSize idWidth) :
    txRun arbiter memory (inputs ++ [input]) = (txRun arbiter memory inputs).step memory input :=
  Machine.run_snoc ..

/-- The accesses that have entered the FIFO along a run. -/
def pushedAccesses (arbiter : Arbiter (nLin + nExt)) (memory : BitVec 32 → BitVec 8)
    (inputs : List (TxSystemInput nLin nExt aWidth transSize idWidth)) : List (TxAccess aWidth) :=
  (txMachine aWidth transSize idWidth arbiter memory).observed (fun system _ => system.pushes)
    inputs

/-- The accesses of a run in flight, with what was granted and delivered. -/
structure TxFlow (arbiter : Arbiter (nLin + nExt)) (memory : BitVec 32 → BitVec 8)
    (inputs : List (TxSystemInput nLin nExt aWidth transSize idWidth))
    (done ready answering queued : List (TxAccess aWidth)) : Prop where
  inFlight : TxSystem.InFlight memory (txRun arbiter memory inputs)
    (pushedAccesses arbiter memory inputs) done ready answering queued
  granted : (grantedLanes arbiter memory inputs).map Fin.val =
    (pushedAccesses arbiter memory inputs).map TxAccess.resp ++
      (txRun arbiter memory inputs).staged.map Fin.val
  delivered : (deliveries arbiter memory inputs).map (Prod.map Fin.val id) =
    done.map fun access => (access.resp, access.loaded memory)

theorem txFlow_nil :
    TxFlow arbiter memory ([] : List (TxSystemInput nLin nExt aWidth transSize idWidth))
      [] [] [] [] where
  inFlight := TxSystem.inFlight_reset
  granted := rfl
  delivered := rfl

theorem TxFlow.snoc (flow : TxFlow arbiter memory inputs done ready answering queued)
    (wide : 2 ≤ aWidth) (input : TxSystemInput nLin nExt aWidth transSize idWidth) :
    TxFlow arbiter memory (inputs ++ [input]) (done ++ ready) answering
      (queued.take (TxSystem.pops memory
        (txRun arbiter memory inputs) input).toNat)
      (queued.drop (TxSystem.pops memory
        (txRun arbiter memory inputs) input).toNat ++
        (txRun arbiter memory inputs).pushes) where
  inFlight := by
    rw [pushedAccesses, Machine.observed_snoc, txRun_snoc]
    exact flow.inFlight.step wide input
  granted := by
    have staged := TxSystem.staged_step memory (txRun arbiter memory inputs) input
    rw [grantedLanes, pushedAccesses, Machine.observed_snoc, Machine.observed_snoc,
      txRun_snoc, List.map_append, List.map_append, ← grantedLanes, flow.granted,
      List.append_assoc, staged, List.append_assoc]
    rfl
  delivered := by
    have known : ∀ access ∈ ready, access.resp < nLin + nExt := by
      intro access member
      refine flow.inFlight.known access ?_
      rw [flow.inFlight.conserved]
      simp [member]
    have delivers := TxSystem.delivers_eq flow.inFlight.ready known input
    rw [deliveries, Machine.observed_snoc, List.map_append, ← deliveries, flow.delivered,
      delivers, List.map_append]

theorem txFlow (arbiter : Arbiter (nLin + nExt)) (memory : BitVec 32 → BitVec 8)
    (wide : 2 ≤ aWidth)
    (inputs : List (TxSystemInput nLin nExt aWidth transSize idWidth)) :
    ∃ done ready answering queued, TxFlow arbiter memory inputs done ready answering queued := by
  induction inputs using List.reverseRecOn with
  | nil => exact ⟨[], [], [], [], txFlow_nil⟩
  | append_singleton inputs input inductionHypothesis =>
      obtain ⟨done, ready, answering, queued, flow⟩ := inductionHypothesis
      exact ⟨_, _, _, _, flow.snoc wide input⟩

theorem TxFlow.length_granted (flow : TxFlow arbiter memory inputs done ready answering queued) :
    (grantedLanes arbiter memory inputs).length =
      (pushedAccesses arbiter memory inputs).length +
        (txRun arbiter memory inputs).staged.length := by
  have lengths := congrArg List.length flow.granted
  simpa only [List.length_map, List.length_append] using lengths

/-- The requests granted so far are delivered after enough cycles with a ready L2 port,
whatever is granted meanwhile. -/
theorem TxFlow.drain (flow : TxFlow arbiter memory inputs done ready answering queued)
    (wide : 2 ≤ aWidth) (later : List (TxSystemInput nLin nExt aWidth transSize idWidth)) :
    ∃ laterDone laterReady laterAnswering laterQueued,
      TxFlow arbiter memory (inputs ++ later) laterDone laterReady laterAnswering laterQueued ∧
      done.length ≤ laterDone.length ∧
      (laterDone.length < (grantedLanes arbiter memory inputs).length →
        TxSystem.cyclesLeft ((grantedLanes arbiter memory inputs).length - laterDone.length)
            laterReady.length laterAnswering.length laterQueued.length
            (txRun arbiter memory (inputs ++ later)).channels.isNa.toNat +
              later.countP (·.l2Ready) ≤
          TxSystem.cyclesLeft ((grantedLanes arbiter memory inputs).length - done.length)
            ready.length answering.length queued.length
            (txRun arbiter memory inputs).channels.isNa.toNat) := by
  induction later using List.reverseRecOn with
  | nil =>
      rw [List.append_nil]
      exact ⟨done, ready, answering, queued, flow, Nat.le_refl _, fun _ => Nat.le_refl _⟩
  | append_singleton later input inductionHypothesis =>
      obtain ⟨laterDone, laterReady, laterAnswering, laterQueued, laterFlow, before, closer⟩ :=
        inductionHypothesis
      have next := laterFlow.snoc wide input
      rw [List.append_assoc] at next
      have grows : (grantedLanes arbiter memory inputs).length ≤
          (grantedLanes arbiter memory (inputs ++ later)).length := by
        rw [grantedLanes, grantedLanes, Machine.observed, Machine.observed,
          Machine.observedFrom_append, List.length_append]
        exact Nat.le_add_right ..
      have count : [input].countP (·.l2Ready) = input.l2Ready.toNat := by
        cases ready : input.l2Ready <;> simp [ready]
      refine ⟨_, _, _, _, next, ?_, fun left => ?_⟩
      · rw [List.length_append]
        exact Nat.le_add_right_of_le before
      · have stillLeft : laterDone.length < (grantedLanes arbiter memory inputs).length := by
          rw [List.length_append] at left
          exact Nat.lt_of_le_of_lt (Nat.le_add_right ..) left
        have step := laterFlow.inFlight.closer input (grows.trans_eq laterFlow.length_granted)
          stillLeft
        have soFar := closer stillLeft
        rw [List.countP_append, count, ← List.append_assoc, txRun_snoc]
        change _ + (_ + _) ≤ _
        refine Nat.le_trans ?_ soFar
        have sum := Nat.add_le_add_right step (later.countP (·.l2Ready))
        refine Nat.le_trans (Nat.le_of_eq ?_) sum
        rw [Nat.add_comm (List.countP _ _), Nat.add_assoc]

/-- The words of a lane are those of its accesses. -/
theorem TxFlow.wordsOf_eq (flow : TxFlow arbiter memory inputs done ready answering queued)
    (lane : Fin (nLin + nExt)) :
    wordsOf lane (deliveries arbiter memory inputs) =
      (done.filter (·.resp == lane.val)).map (TxAccess.loaded memory) := by
  have words : wordsOf lane (deliveries arbiter memory inputs) =
      (((deliveries arbiter memory inputs).map (Prod.map Fin.val id)).filter
        (·.1 == lane.val)).map (·.2) := by
    rw [wordsOf, List.filter_map, List.map_map]
    congr 1
    refine List.filter_congr fun word _ => ?_
    rw [Bool.eq_iff_iff, beq_iff_eq, Function.comp_apply, beq_iff_eq, Prod.map_fst]
    exact Fin.ext_iff
  rw [words, flow.delivered, List.filter_map, List.map_map]
  rfl

theorem TxFlow.done_prefix (flow : TxFlow arbiter memory inputs done ready answering queued) :
    done <+: pushedAccesses arbiter memory inputs := by
  rw [flow.inFlight.conserved, List.append_assoc, List.append_assoc]
  exact List.prefix_append ..

theorem TxFlow.lanes_eq (flow : TxFlow arbiter memory inputs done ready answering queued) :
    ((deliveries arbiter memory inputs).map Prod.fst).map Fin.val = done.map TxAccess.resp := by
  have lanes := congrArg (List.map Prod.fst) flow.delivered
  simpa only [List.map_map, Function.comp_def, Prod.map_fst] using lanes

/-- No request is delivered before it is granted, and none overtakes another one. -/
theorem TxFlow.inOrder (flow : TxFlow arbiter memory inputs done ready answering queued) :
    (deliveries arbiter memory inputs).map Prod.fst <+: grantedLanes arbiter memory inputs := by
  refine (List.prefix_map_iff_of_injective Fin.val_injective).mp ?_
  rw [flow.lanes_eq, flow.granted]
  exact (flow.done_prefix.map _).trans (List.prefix_append ..)

end Pipeline

/-! ## Runs of the channels -/

section Channels

variable {arbiter : Arbiter (nLin + nExt)} {memory : BitVec 32 → BitVec 8}
variable {transfers : Fin nLin → Transfer aWidth transSize}
variable {inputs : List (TxSystemInput nLin nExt aWidth transSize idWidth)}
variable {input : TxSystemInput nLin nExt aWidth transSize idWidth}

theorem TxProgrammed.of_append {later : List (TxSystemInput nLin nExt aWidth transSize idWidth)}
    (programmed : TxProgrammed transfers (inputs ++ later)) : TxProgrammed transfers inputs where
  programs := fun input member => programmed.programs input (List.mem_append_left _ member)
  datasize := fun input member => programmed.datasize input (List.mem_append_left _ member)
  destination := fun input member => programmed.destination input (List.mem_append_left _ member)
  once := fun j => by
    have once := programmed.once j
    rw [List.countP_append] at once
    exact Nat.le_of_add_right_le once

/-- The accesses of a linear channel are those of its transfer. -/
theorem transfer_pushed (arbiter : Arbiter (nLin + nExt)) (memory : BitVec 32 → BitVec 8)
    (wide : 3 ≤ transSize) (programmed : TxProgrammed transfers inputs)
    (j : Fin nLin) :
    ∃ count status,
      TxSystem.TracksTransfer (transfers j) j (txRun arbiter memory inputs) count status ∧
      status.programmed = inputs.countP (fun input => (input.lin j).cfg.en) ∧
      (pushedAccesses arbiter memory inputs).filter (·.resp == (j.castAdd nExt).val) =
        (List.range count).map ((transfers j).access (j.castAdd nExt).val) := by
  induction inputs using List.reverseRecOn with
  | nil => exact ⟨0, .fresh, TxSystem.tracksTransfer_reset, rfl, rfl⟩
  | append_singleton inputs input inductionHypothesis =>
      obtain ⟨count, status, tracks, starts, pushed⟩ := inductionHypothesis programmed.of_append
      have member : input ∈ inputs ++ [input] := by simp
      have one : [input].countP (fun input => (input.lin j).cfg.en) =
          (input.lin j).cfg.en.toNat := by
        cases en : (input.lin j).cfg.en <;> simp [en]
      have once := programmed.once j
      rw [List.countP_append, ← starts, one] at once
      obtain ⟨next, tracksNext, startsNext⟩ := tracks.step memory wide
        (programmed.programs input member j) (programmed.datasize input member j)
        (programmed.destination input member j) once
      refine ⟨_, next, by rw [txRun_snoc]; exact tracksNext, ?_, ?_⟩
      · rw [startsNext, starts, List.countP_append, one]
      · rw [pushedAccesses, Machine.observed_snoc, List.filter_append, ← pushedAccesses, pushed,
          TxSystem.filter_pushes]
        cases sends : (txRun arbiter memory inputs).sends (j.castAdd nExt) with
        | false => simp
        | true =>
            have staged := (Bool.and_eq_true_iff.mp sends).2
            rw [if_pos rfl, TxSystem.fifoIn_of_stages tracks staged, Bool.toNat_true,
              List.range_succ, List.map_append]
            rfl

/-- The accesses of an external channel are those that it asks for. -/
theorem askedFor_pushed (i : Fin nExt) :
    (pushedAccesses arbiter memory inputs).filter (·.resp == (i.natAdd nLin).val) ++
        (txRun arbiter memory inputs).stagedAccess (i.natAdd nLin) =
      askedFor arbiter memory i inputs := by
  induction inputs using List.reverseRecOn with
  | nil => rfl
  | append_singleton inputs input inductionHypothesis =>
      have step := TxSystem.asksFor_step memory (txRun arbiter memory inputs) input i
      rw [askedFor, Machine.observed_snoc, ← askedFor, ← inductionHypothesis, List.append_assoc,
        step, pushedAccesses, Machine.observed_snoc, List.filter_append, txRun_snoc,
        List.append_assoc]
      rfl

theorem loaded_access (transfer : Transfer aWidth transSize) (channel k : Nat) :
    (transfer.access channel k).loaded memory =
      loadedValue memory transfer.destination (transfer.address k) transfer.datasize :=
  if_pos transfer.known

theorem eq_range_of_initial {Word : Type} {words : List Word} {word : Nat → Word} {count : Nat}
    (isPrefix : words <+: (List.range count).map word) :
    words = (List.range words.length).map word := by
  have short : words.length ≤ count := by simpa using isPrefix.length_le
  conv_lhs => rw [List.prefix_iff_eq_take.mp isPrefix]
  rw [← List.map_take, List.take_range, Nat.min_eq_left short]

end Channels

/-- For every interleaving of the requests, every pattern of grants of the L2 port and
every order of arbitration, each linear channel gets the words of its transfer. -/
theorem txDma_delivers (arbiter : Arbiter (nLin + nExt)) (memory : BitVec 32 → BitVec 8)
    (wideAddress : 2 ≤ aWidth) (wideSize : 3 ≤ transSize)
    (transfers : Fin nLin → Transfer aWidth transSize)
    (inputs : List (TxSystemInput nLin nExt aWidth transSize idWidth))
    (programmed : TxProgrammed transfers inputs) :
    TxDelivers arbiter memory transfers inputs := by
  obtain ⟨done, ready, answering, queued, flow⟩ := txFlow arbiter memory wideAddress inputs
  constructor
  case linWords =>
    intro j
    obtain ⟨count, status, -, -, pushed⟩ := transfer_pushed arbiter memory wideSize programmed j
    have mine := flow.done_prefix.filter (·.resp == (j.castAdd nExt).val)
    rw [pushed] at mine
    have words := mine.map (TxAccess.loaded memory)
    rw [← flow.wordsOf_eq, List.map_map] at words
    refine (eq_range_of_initial words).trans (List.map_congr_left fun k _ => ?_)
    exact loaded_access ..
  case extWords =>
    intro i
    rw [flow.wordsOf_eq, ← askedFor_pushed i]
    exact ((flow.done_prefix.filter _).trans (List.prefix_append ..)).map _
  case inOrder => exact flow.inOrder
  case delivered =>
    intro later enough
    obtain ⟨laterDone, laterReady, laterAnswering, laterQueued, laterFlow, -, closer⟩ :=
      flow.drain wideAddress later
    have granted : grantedLanes arbiter memory inputs <+:
        grantedLanes arbiter memory (inputs ++ later) := by
      rw [grantedLanes, grantedLanes, Machine.observed, Machine.observed,
        Machine.observedFrom_append]
      exact List.prefix_append ..
    refine List.prefix_of_prefix_length_le granted laterFlow.inOrder ?_
    have lengths := congrArg List.length laterFlow.lanes_eq
    rw [List.length_map Fin.val, List.length_map TxAccess.resp] at lengths
    rw [lengths]
    by_contra short
    have left := Nat.lt_of_not_le short
    have soFar := closer left
    have atMost := flow.inFlight.cyclesLeft_le _ (Nat.le_of_eq flow.length_granted)
    have some := TxSystem.cyclesLeft_pos (Nat.sub_pos_of_lt left) (Bool.toNat_le
      (txRun arbiter memory (inputs ++ later)).channels.isNa) laterReady.length
      laterAnswering.length laterQueued.length
    omega

/-- A cycle in which every channel asks for a word and takes its words. -/
def requestCycle (transfers : Fin nLin → Transfer aWidth transSize) (starts l2Ready : Bool) :
    TxSystemInput nLin 1 aWidth transSize 1 where
  lin j :=
    { req := true, datasize := (transfers j).datasize, destination := (transfers j).destination
      ready := true
      cfg :=
        { startaddr := (transfers j).startaddr, size := (transfers j).size, continuous := false
          en := starts, stream := 0, streamId := 0, clr := false } }
  ext _ := { req := true, addr := 0x42, datasize := 2, destination := 0, ready := true }
  l2Ready := l2Ready

/-- Two transfers with accesses across words. -/
def unalignedTransfers : Fin 2 → Transfer 8 4
  | 0 =>
      { startaddr := 3, size := 3, datasize := 1, destination := 0, positive := by decide
        known := by decide }
  | 1 =>
      { startaddr := 0x21, size := 8, datasize := 2, destination := 1, positive := by decide
        known := by decide }

def unalignedRequests : List (TxSystemInput 2 1 8 4 1) :=
  requestCycle unalignedTransfers true true ::
    List.replicate 14 (requestCycle unalignedTransfers false true)

theorem unalignedRequests_programmed : TxProgrammed unalignedTransfers unalignedRequests := by
  have cycles : ∀ input ∈ unalignedRequests,
      ∃ starts, input = requestCycle unalignedTransfers starts true := by
    intro input member
    rcases List.mem_cons.mp member with rfl | member
    · exact ⟨true, rfl⟩
    · exact ⟨false, List.eq_of_mem_replicate member⟩
  constructor
  case programs =>
    intro input member j
    obtain ⟨starts, rfl⟩ := cycles input member
    exact ⟨rfl, rfl, fun _ => rfl, fun _ => rfl⟩
  case datasize =>
    intro input member j
    obtain ⟨starts, rfl⟩ := cycles input member
    rfl
  case destination =>
    intro input member j
    obtain ⟨starts, rfl⟩ := cycles input member
    rfl
  case once => decide

/-- Both channels get the bytes of their transfers from a memory that holds at each
address its lowest byte. -/
theorem unalignedRequests_delivers :
    TxDelivers (udmaArbiter 3) (·.setWidth 8) unalignedTransfers unalignedRequests ∧
      wordsOf 0 (deliveries (udmaArbiter 3) (·.setWidth 8) unalignedRequests) = [0x0403, 0x0605] ∧
      wordsOf 1 (deliveries (udmaArbiter 3) (·.setWidth 8) unalignedRequests) =
        [0x24232221, 0x28272625] :=
  ⟨txDma_delivers _ _ (by decide) (by decide) _ _ unalignedRequests_programmed,
    by decide +kernel, by decide +kernel⟩

end CoreVMcu.Udma
