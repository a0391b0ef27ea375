import CoreVMcu.Udma.TxPipeline

/-!
# Transfers of the TX channels

The accesses that a linear channel sends to the FIFO are the consecutive accesses
of its transfer: its address generator moves on exactly when its access is sent.
-/

namespace CoreVMcu.Udma

open Clocked

variable {nLin nExt aWidth transSize idWidth : Nat}

/-- The `k`-th access of a transfer for a channel. -/
def Transfer.access (transfer : Transfer aWidth transSize) (channel k : Nat) : TxAccess aWidth :=
  { dest := transfer.destination, resp := channel, size := transfer.datasize
    addr := transfer.address k }

namespace TxSystem

variable {arbiter : Arbiter (nLin + nExt)} {memory : BitVec 32 → BitVec 8}
variable {system : TxSystem aWidth transSize idWidth arbiter}
variable {input : TxSystemInput nLin nExt aWidth transSize idWidth}
variable {transfer : Transfer aWidth transSize} {j : Fin nLin} {count : Nat}
variable {status : TransferStatus}

/-- The access of a lane gets its address. -/
def stages (system : TxSystem aWidth transSize idWidth arbiter) (lane : Fin (nLin + nExt)) : Bool :=
  system.channels.rGrant == some lane

/-- The access of a lane enters the FIFO. -/
def sends (system : TxSystem aWidth transSize idWidth arbiter) (lane : Fin (nLin + nExt)) : Bool :=
  system.channels.sampleIndata && system.stages lane

theorem filter_pushes (lane : Fin (nLin + nExt)) :
    system.pushes.filter (·.resp == lane.val) =
      if system.sends lane then [system.channels.fifoIn] else [] := by
  cases sample : system.channels.sampleIndata with
  | false => simp [pushes, sends, sample]
  | true =>
      cases grant : system.channels.rGrant with
      | none => simp [pushes, sends, stages, sample, grant]
      | some other =>
          have mine : (other.val == lane.val) = (some other == some lane) := by
            rw [Bool.eq_iff_iff, beq_iff_eq, beq_iff_eq, Option.some.injEq, Fin.ext_iff]
          simp [pushes, sends, stages, sample, grant, TxChannels.fifoIn, TxChannels.grantLog, mine,
            List.filter_cons]

/-- A linear channel is granted while it is enabled, with its data size and destination. -/
theorem granted_of_moves (moves : system.channels.sampleIndata = true)
    (staged : (system.step memory input).stages (j.castAdd nExt) = true) :
    system.channels.chEn input.toTxInput j = true ∧
      (system.step memory input).channels.rInSize = (input.lin j).datasize ∧
      (system.step memory input).channels.rInDest = (input.lin j).destination := by
  simp only [stages, TxSystem.step, TxChannels.step, moves, if_true, beq_iff_eq] at staged
  have requests := arbiter.requested staged
  simp only [TxChannels.req, Fin.append_left, Bool.and_eq_true] at requests
  refine ⟨requests.2, ?_, ?_⟩
  · simp [TxSystem.step, TxChannels.step, moves, TxChannels.inSize, staged]
  · simp [TxSystem.step, TxChannels.step, moves, TxChannels.inDest, staged]

theorem stages_of_stalls (stalls : system.channels.sampleIndata = false)
    (memory : BitVec 32 → BitVec 8) (input : TxSystemInput nLin nExt aWidth transSize idWidth)
    (lane : Fin (nLin + nExt)) :
    (system.step memory input).stages lane = system.stages lane ∧
      (system.step memory input).channels.rInSize = system.channels.rInSize ∧
      (system.step memory input).channels.rInDest = system.channels.rInDest := by
  simp [stages, TxSystem.step, TxChannels.step, stalls]

/-- A linear channel between two clock edges. -/
structure TracksTransfer (transfer : Transfer aWidth transSize) (j : Fin nLin)
    (system : TxSystem aWidth transSize idWidth arbiter) (count : Nat)
    (status : TransferStatus) : Prop where
  phase : TransferPhase transfer (system.channels.addrgen j) (system.stages (j.castAdd nExt)) count
    status
  datasize : system.stages (j.castAdd nExt) = true → system.channels.rInSize = transfer.datasize
  destination : system.stages (j.castAdd nExt) = true →
    system.channels.rInDest = transfer.destination

theorem tracksTransfer_reset :
    TracksTransfer transfer j (txMachine aWidth transSize idWidth arbiter memory).init 0
      .fresh where
  phase := .fresh ChAddrgen.idle_reset
  datasize := fun staged => Bool.noConfusion staged
  destination := fun staged => Bool.noConfusion staged

theorem fifoIn_of_stages (tracks : TracksTransfer transfer j system count status)
    (staged : system.stages (j.castAdd nExt) = true) :
    system.channels.fifoIn = transfer.access (j.castAdd nExt).val count := by
  have phase := tracks.phase
  rw [staged] at phase
  cases phase with
  | serving serves =>
      have grant : system.channels.rGrant = some (j.castAdd nExt) := eq_of_beq staged
      simp only [TxChannels.fifoIn, TxChannels.grantLog, TxChannels.addr, grant, Fin.append_left,
        Transfer.access, tracks.datasize staged, tracks.destination staged, serves.addresses]

/-- One clock edge of a linear channel. -/
theorem TracksTransfer.step (tracks : TracksTransfer transfer j system count status)
    (memory : BitVec 32 → BitVec 8)
    (wide : 3 ≤ transSize) (programs : transfer.Programs (input.lin j).cfg)
    (sized : (input.lin j).datasize = transfer.datasize)
    (destined : (input.lin j).destination = transfer.destination)
    (once : status.programmed + (input.lin j).cfg.en.toNat ≤ 1) :
    ∃ next, TracksTransfer transfer j (system.step memory input)
        (count + (system.sends (j.castAdd nExt)).toNat) next ∧
      next.programmed = status.programmed + (input.lin j).cfg.en.toNat := by
  have phase : TransferPhase transfer (system.channels.addrgen j)
      (system.channels.chControl j).grant count status := tracks.phase
  have cfg : transfer.Programs (TxChannels.chCfg input.toTxInput j) :=
    ⟨programs.once, programs.keeps, programs.startaddr, programs.size⟩
  obtain ⟨next, phase, programmed, -⟩ := phase.step wide cfg tracks.datasize once
    (fun moves staged => (granted_of_moves moves staged).1)
    (fun stalls => (stages_of_stalls stalls memory input _).1)
  refine ⟨next, ⟨phase, fun staged => ?_, fun staged => ?_⟩, programmed⟩
  · cases moves : system.channels.sampleIndata with
    | true => rw [(granted_of_moves moves staged).2.1, sized]
    | false =>
        obtain ⟨stays, size, -⟩ := stages_of_stalls moves memory input (j.castAdd nExt)
        rw [size, tracks.datasize (stays ▸ staged)]
  · cases moves : system.channels.sampleIndata with
    | true => rw [(granted_of_moves moves staged).2.2, destined]
    | false =>
        obtain ⟨stays, -, dest⟩ := stages_of_stalls moves memory input (j.castAdd nExt)
        rw [dest, tracks.destination (stays ▸ staged)]

/-! ## External channels -/

/-- The access of a lane that gets its address. -/
def stagedAccess (system : TxSystem aWidth transSize idWidth arbiter) (lane : Fin (nLin + nExt)) :
    List (TxAccess aWidth) :=
  if system.stages lane then [system.channels.fifoIn] else []

/-- The access that a granted request of an external channel asks for. -/
def asksFor (i : Fin nExt) (system : TxSystem aWidth transSize idWidth arbiter)
    (input : TxSystemInput nLin nExt aWidth transSize idWidth) : List (TxAccess aWidth) :=
  if system.channels.gnt input.toTxInput (i.natAdd nLin) then
    [{ dest := (input.ext i).destination, resp := (i.natAdd nLin).val
       size := (input.ext i).datasize, addr := (input.ext i).addr }]
  else []

/-- An external channel brings its own address. -/
theorem fifoIn_of_ext {i : Fin nExt} (staged : system.stages (i.natAdd nLin) = true) :
    system.channels.fifoIn =
      { dest := system.channels.rInDest, resp := (i.natAdd nLin).val
        size := system.channels.rInSize, addr := system.channels.rInAddr } := by
  have grant : system.channels.rGrant = some (i.natAdd nLin) := eq_of_beq staged
  simp only [TxChannels.fifoIn, TxChannels.grantLog, TxChannels.addr, grant, Fin.append_right]

theorem asksFor_step (memory : BitVec 32 → BitVec 8)
    (system : TxSystem aWidth transSize idWidth arbiter)
    (input : TxSystemInput nLin nExt aWidth transSize idWidth) (i : Fin nExt) :
    system.stagedAccess (i.natAdd nLin) ++ system.asksFor i input =
      system.pushes.filter (·.resp == (i.natAdd nLin).val) ++
        (system.step memory input).stagedAccess (i.natAdd nLin) := by
  rw [filter_pushes]
  cases moves : system.channels.sampleIndata with
  | false =>
      obtain ⟨stays, size, dest⟩ := stages_of_stalls moves memory input (i.natAdd nLin)
      have addr : (system.step memory input).channels.rInAddr = system.channels.rInAddr := by
        simp only [TxSystem.step, TxChannels.step, moves]
        split <;> rfl
      have none : system.asksFor i input = [] := by simp [asksFor, TxChannels.gnt, moves]
      rw [none, sends, moves, stagedAccess, stagedAccess, stays]
      cases staged : system.stages (i.natAdd nLin) with
      | false => rfl
      | true => rw [fifoIn_of_ext staged, fifoIn_of_ext (stays.trans staged), size, dest, addr]; rfl
  | true =>
      rw [sends, moves, Bool.true_and, stagedAccess]
      congr 1
      rw [asksFor, stagedAccess, TxChannels.gnt, moves, Bool.true_and]
      have next : (system.step memory input).stages (i.natAdd nLin) =
          (system.channels.grant input.toTxInput == some (i.natAdd nLin)) := by
        simp [stages, TxSystem.step, TxChannels.step, moves]
      rw [next]
      cases granted : system.channels.grant input.toTxInput == some (i.natAdd nLin) with
      | false => rfl
      | true =>
          rw [fifoIn_of_ext (next.trans granted)]
          have grant : system.channels.grant input.toTxInput = some (i.natAdd nLin) :=
            eq_of_beq granted
          simp [TxSystem.step, TxChannels.step, moves, TxChannels.inSize, TxChannels.inDest, grant]

end TxSystem

end CoreVMcu.Udma
