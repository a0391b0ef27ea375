import CoreVMcu.Udma.RxPipeline

/-!
# Transfers of the RX channels

Each word that a linear channel accepts becomes one access, which writes it to the next
bytes of the region of the transfer: the address generator moves on exactly when the
word leaves the sampling stage.
-/

namespace CoreVMcu.Udma

open Clocked Arbitration

variable {nLin nExt aWidth transSize idWidth : Nat}

/-- The bus address of byte `b` of the region of a transfer. -/
def Transfer.byteAddress (transfer : Transfer aWidth transSize) (b : Nat) : BitVec 32 :=
  byteAddr transfer.destination (transfer.startaddr + BitVec.ofNat aWidth b)

/-- An access writes a word of a transfer. -/
structure RxAccess.IsWord (access : RxAccess aWidth idWidth) (transfer : Transfer aWidth transSize)
    (k : Nat) (word : BitVec 32) : Prop where
  dest : access.dest = transfer.destination
  size : access.size = transfer.datasize
  addr : access.addr = transfer.address k
  bytes : access.bytes.toNat + 1 = transfer.validBytes k
  data : access.data = word

namespace RxAccess.IsWord

variable {access : RxAccess aWidth idWidth} {transfer : Transfer aWidth transSize} {k : Nat}
variable {word : BitVec 32} {write : BitVec 32 × BitVec 8}

theorem valid (isWord : access.IsWord transfer k word) : access.Valid where
  known := isWord.size ▸ transfer.known
  bytes := by
    have bytes := isWord.bytes
    rw [isWord.size]
    change _ < transfer.wordBytes
    rw [Transfer.validBytes] at bytes
    omega

theorem byteWrite_eq (isWord : access.IsWord transfer k word) (i : Nat) :
    access.byteWrite i = (transfer.byteAddress (k * transfer.wordBytes + i), byteOf word i) := by
  rw [byteWrite, isWord.dest, isWord.addr, isWord.data, Transfer.byteAddress, Transfer.address,
    BitVec.ofNat_add, BitVec.add_assoc]

/-- The word is written to its bytes of the region. -/
theorem mem_writes (isWord : access.IsWord transfer k word) (wide : 2 ≤ aWidth) :
    write ∈ access.writes ↔ ∃ b < transfer.size.toNat, b / transfer.wordBytes = k ∧
      write = (transfer.byteAddress b, byteOf word (b % transfer.wordBytes)) := by
  have bytes := isWord.bytes
  rw [Transfer.validBytes] at bytes
  rw [isWord.valid.mem_writes wide]
  constructor
  · rintro ⟨i, inside, rfl⟩
    have inWord : i < transfer.wordBytes := by omega
    have quotient : (k * transfer.wordBytes + i) / transfer.wordBytes = k := by
      rw [Nat.mul_comm, Nat.mul_add_div (Nat.zero_lt_of_lt inWord), Nat.div_eq_of_lt inWord,
        Nat.add_zero]
    have remainder : (k * transfer.wordBytes + i) % transfer.wordBytes = i := by
      rw [Nat.mul_comm, Nat.mul_add_mod, Nat.mod_eq_of_lt inWord]
    refine ⟨_, by omega, quotient, ?_⟩
    rw [remainder]
    exact isWord.byteWrite_eq i
  · rintro ⟨b, inside, rfl, rfl⟩
    have positive : 0 < transfer.wordBytes := Nat.pow_pos (by decide)
    have inWord := Nat.mod_lt b positive
    have split := Nat.div_add_mod' b transfer.wordBytes
    refine ⟨b % transfer.wordBytes, by omega, ?_⟩
    rw [isWord.byteWrite_eq, split]

end RxAccess.IsWord

/-! ## A linear channel -/

namespace ChAddrgen

variable {gen : ChAddrgen aWidth transSize idWidth} {cfg : ChannelCfg aWidth transSize idWidth}
variable {control : ChannelControl}

theorem next_stream (now : gen.stream = 0) (settled : gen.pendingEn = false)
    (once : cfg.continuous = false) (memory : cfg.en = true → cfg.stream = 0) :
    (gen.next cfg control).stream = 0 := by
  cases programs : cfg.en with
  | true => simp only [next, apply_ite ChAddrgen.stream, now, memory programs, ite_self]
  | false =>
      simp only [next, apply_ite ChAddrgen.stream, now, programs, settled, once, Bool.false_and,
        Bool.false_eq_true, if_false, Bool.not_false, Bool.and_self, if_true, ite_self]

/-- A channel that is programmed for memory once keeps its stream mode. -/
theorem step_stream (now : gen.stream = 0) (settled : gen.pendingEn = false)
    (once : cfg.continuous = false) (memory : cfg.en = true → cfg.stream = 0) :
    (gen.step cfg control).stream = 0 := by
  have loaded := @next_stream _ _ _ gen cfg control now settled once memory
  simp only [step, apply_ite ChAddrgen.stream, now, loaded, ite_self]

end ChAddrgen

section Phases

variable {transfer : Transfer aWidth transSize} {gen : ChAddrgen aWidth transSize idWidth}
variable {isStaged : Bool} {count : Nat} {status : TransferStatus}

/-- No request is pending in a channel that is programmed once. -/
theorem TransferPhase.settled (phase : TransferPhase transfer gen isStaged count status) :
    gen.pendingEn = false := by
  cases phase with
  | fresh idle => exact idle.pendingEn
  | serving serves => exact serves.pendingEn
  | finished idle => exact idle.pendingEn

theorem TransferPhase.programmed_pos (phase : TransferPhase transfer gen isStaged count status)
    (some : 0 < count + isStaged.toNat) : 0 < status.programmed := by
  cases phase with
  | fresh idle => exact absurd some (Nat.lt_irrefl 0)
  | serving serves => exact Nat.zero_lt_one
  | finished idle => exact Nat.zero_lt_one

theorem Transfer.accesses_pos (transfer : Transfer aWidth transSize) : 0 < transfer.accesses := by
  rw [transfer.lt_accesses_iff, Nat.zero_mul]
  exact transfer.positive

/-- A channel samples no more words than its transfer has. -/
theorem TransferPhase.count_le (phase : TransferPhase transfer gen isStaged count status) :
    count + isStaged.toNat ≤ transfer.accesses := by
  cases phase with
  | fresh idle => exact Nat.zero_le _
  | serving serves =>
      have more := (transfer.lt_accesses_iff count).mpr serves.left
      have one := Bool.toNat_le isStaged
      omega
  | finished idle => exact Nat.le_refl _

/-- The event has been raised when all words have left the channel. -/
theorem TransferPhase.finishes (phase : TransferPhase transfer gen false count status) :
    status.events = (decide (count = transfer.accesses)).toNat ∧
      (gen.en = true ↔ 0 < status.programmed ∧ count < transfer.accesses) := by
  cases phase with
  | fresh idle =>
      rw [decide_eq_false (Nat.ne_of_lt transfer.accesses_pos), idle.en]
      exact ⟨rfl, by simp [TransferStatus.programmed]⟩
  | serving serves =>
      have more := (transfer.lt_accesses_iff count).mpr serves.left
      rw [decide_eq_false (Nat.ne_of_lt more)]
      exact ⟨rfl, fun _ => ⟨Nat.zero_lt_one, more⟩, fun _ => serves.en⟩
  | finished idle =>
      rw [decide_eq_true rfl, idle.en]
      exact ⟨rfl, by simp⟩

end Phases

namespace RxChannels

variable {arbiter : Arbiter (nLin + nExt)} {channels : RxChannels aWidth transSize idWidth arbiter}
variable {input : RxInput nLin nExt aWidth transSize idWidth}
variable {transfer : Transfer aWidth transSize} {j : Fin nLin} {count : Nat}
variable {status : TransferStatus}

/-- The word of a lane is in the sampling stage. -/
def stages (channels : RxChannels aWidth transSize idWidth arbiter) (lane : Fin (nLin + nExt)) :
    Bool :=
  channels.rGrant == some lane

/-- The word of a lane leaves the sampling stage. -/
def sends (channels : RxChannels aWidth transSize idWidth arbiter) (lane : Fin (nLin + nExt)) :
    Bool :=
  channels.sampleIndata && channels.stages lane

/-- A linear channel between two clock edges. -/
structure TracksTransfer (transfer : Transfer aWidth transSize) (j : Fin nLin)
    (channels : RxChannels aWidth transSize idWidth arbiter) (count : Nat)
    (status : TransferStatus) : Prop where
  phase : TransferPhase transfer (channels.addrgen j) (channels.stages (j.castAdd nExt))
    count status
  datasize : channels.stages (j.castAdd nExt) = true → channels.rSize = transfer.datasize
  destination : channels.stages (j.castAdd nExt) = true → channels.rDest = transfer.destination
  stream : (channels.addrgen j).stream = 0

theorem tracksTransfer_reset :
    TracksTransfer transfer j (reset : RxChannels aWidth transSize idWidth arbiter) 0 .fresh where
  phase := .fresh ChAddrgen.idle_reset
  datasize := fun staged => Bool.noConfusion staged
  destination := fun staged => Bool.noConfusion staged
  stream := rfl

/-- The word of a linear channel is sampled while the channel is enabled. -/
theorem sampled (samples : channels.sampleIndata = true)
    (staged : (channels.step input).stages (j.castAdd nExt) = true) :
    channels.chEn input j = true ∧ (channels.step input).rSize = (input.lin j).datasize ∧
      (channels.step input).rDest = (input.lin j).destination ∧
      (channels.step input).rData = (input.lin j).data := by
  have granted : channels.grant input = some (j.castAdd nExt) := by
    simpa [stages, step, samples] using staged
  refine ⟨chEn_of_grant granted, ?_, ?_, ?_⟩ <;> simp [step, samples, inputMux, granted]

theorem stages_of_stall (stalls : channels.sampleIndata = false)
    (input : RxInput nLin nExt aWidth transSize idWidth) :
    (channels.step input).rGrant = channels.rGrant ∧
      (channels.step input).rSize = channels.rSize ∧
      (channels.step input).rDest = channels.rDest ∧
      (channels.step input).rData = channels.rData := by
  simp [step, stalls]

/-- One clock edge of a linear channel. -/
theorem TracksTransfer.step (tracks : TracksTransfer transfer j channels count status)
    (wide : 3 ≤ transSize) (programs : transfer.Programs (input.lin j).cfg)
    (memory : (input.lin j).cfg.en = true → (input.lin j).cfg.stream = 0)
    (sized : (input.lin j).datasize = transfer.datasize)
    (destined : (input.lin j).destination = transfer.destination)
    (once : status.programmed + (input.lin j).cfg.en.toNat ≤ 1) :
    ∃ next, TracksTransfer transfer j (channels.step input)
        (count + (channels.sends (j.castAdd nExt)).toNat) next ∧
      next.programmed = status.programmed + (input.lin j).cfg.en.toNat ∧
      next.events = status.events + ((channels.step input).chEvent j).toNat := by
  have phase : TransferPhase transfer (channels.addrgen j) (channels.chControl j).grant count
      status := tracks.phase
  have settled := phase.settled
  obtain ⟨next, phase, programmed, events⟩ := phase.step wide programs tracks.datasize once
    (fun samples staged => (sampled samples staged).1)
    (fun stalls => congrArg (· == some (j.castAdd nExt)) (stages_of_stall stalls input).1)
  refine ⟨next, ⟨phase, fun staged => ?_, fun staged => ?_, ?_⟩, programmed, events⟩
  · cases samples : channels.sampleIndata with
    | true => rw [(sampled samples staged).2.1, sized]
    | false =>
        obtain ⟨stays, size, -⟩ := stages_of_stall samples input
        rw [stages, stays] at staged
        rw [size, tracks.datasize staged]
  · cases samples : channels.sampleIndata with
    | true => rw [(sampled samples staged).2.2.1, destined]
    | false =>
        obtain ⟨stays, -, dest, -⟩ := stages_of_stall samples input
        rw [stages, stays] at staged
        rw [dest, tracks.destination staged]
  · exact ChAddrgen.step_stream tracks.stream settled programs.once memory

/-- All channels write to memory: no word goes to the stream units. -/
structure MemoryOnly (channels : RxChannels aWidth transSize idWidth arbiter) : Prop where
  memory : ∀ j, (channels.addrgen j).stream = 0
  noExternal : ∀ i : Fin nExt, channels.rGrant ≠ some (i.natAdd nLin)
  noStream : IoGenericFifo.Represents rxDepth channels.filterFifo []

theorem memoryOnly_reset : MemoryOnly (reset : RxChannels aWidth transSize idWidth arbiter) where
  memory := fun _ => rfl
  noExternal := fun _ granted => nomatch granted
  noStream := IoGenericFifo.represents_reset _ (by decide)

namespace MemoryOnly

theorem insideMux_stream (only : channels.MemoryOnly) : channels.insideMux.stream = 0 := by
  rw [insideMux]
  cases granted : channels.rGrant with
  | none => rfl
  | some lane =>
      cases lane using Fin.addCases with
      | left j =>
          simp only [Fin.append_left]
          exact only.memory j
      | right i => exact absurd granted (only.noExternal i)

theorem sampleIndata_eq (only : channels.MemoryOnly) :
    channels.sampleIndata = channels.fifo.ready rxDepth := by
  rw [sampleIndata, only.noStream.ready_iff.mpr (by decide), Bool.true_and]

theorem pushes_eq (only : channels.MemoryOnly) :
    channels.pushes =
      if channels.sampleIndata then channels.rGrant.toList.map fun lane => (lane, channels.fifoIn)
      else [] := by
  rw [pushes, pushL2, only.insideMux_stream, only.sampleIndata_eq]
  cases channels.rGrant with
  | none => simp
  | some lane => rfl

/-- What a lane pushes. -/
theorem filter_pushes (only : channels.MemoryOnly) (lane : Fin (nLin + nExt)) :
    channels.pushes.filter (·.1 == lane) =
      if channels.sends lane then [(lane, channels.fifoIn)] else [] := by
  rw [only.pushes_eq, sends, RxChannels.stages]
  cases channels.sampleIndata with
  | false => rfl
  | true =>
      cases channels.rGrant with
      | none => rfl
      | some other =>
          by_cases same : other = lane
          · simp [same]
          · simp [same]

theorem stages (only : channels.MemoryOnly) : channels.Stages channels.rGrant.toList.length where
  one := by cases channels.rGrant <;> simp
  room := by
    intro room
    rw [only.pushes_eq, only.sampleIndata_eq, if_pos room, List.length_map]

theorem step (only : channels.MemoryOnly)
    (memory : ∀ j, ((channels.step input).addrgen j).stream = 0)
    (noExternal : ∀ i, (input.ext i).valid = false) : (channels.step input).MemoryOnly where
  memory := memory
  noExternal := by
    intro i staged
    cases samples : channels.sampleIndata with
    | false => exact only.noExternal i ((stages_of_stall samples input).1.symm.trans staged)
    | true =>
        have granted : channels.grant input = some (i.natAdd nLin) := by
          simpa [RxChannels.step, samples] using staged
        have valid := valid_of_grant granted
        rw [chValid, Fin.append_right, noExternal i] at valid
        exact Bool.noConfusion valid
  noStream := by
    have silent : channels.pushFilter = false := by
      rw [pushFilter, only.insideMux_stream]
      exact Bool.and_false _
    change IoGenericFifo.Represents rxDepth
      (channels.filterFifo.step rxDepth false channels.pushFilter _ _) []
    rw [silent]
    simpa using only.noStream.step false channels.fifoInStream (channels.streamReadyDemux input)

/-- Only linear channels push. -/
theorem linear (only : channels.MemoryOnly) {access : Fin (nLin + nExt) × RxAccess aWidth idWidth}
    (member : access ∈ channels.pushes) : ∃ j : Fin nLin, access.1 = j.castAdd nExt := by
  rw [only.pushes_eq] at member
  split at member
  · obtain ⟨lane, granted, rfl⟩ := List.mem_map.mp member
    rw [Option.mem_toList] at granted
    cases lane using Fin.addCases with
    | left j => exact ⟨j, rfl⟩
    | right i => exact absurd granted (only.noExternal i)
  · exact absurd member List.not_mem_nil

/-- What is accepted is pushed or in the sampling stage next. -/
theorem accepts_step (only : channels.MemoryOnly)
    (input : RxInput nLin nExt aWidth transSize idWidth) :
    channels.rGrant.toList.length + (channels.accepts input).length =
      channels.pushes.length + (channels.step input).rGrant.toList.length := by
  rw [only.pushes_eq]
  cases samples : channels.sampleIndata with
  | false =>
      rw [accepts_of_stall samples, (stages_of_stall samples input).1]
      exact Nat.add_comm ..
  | true =>
      have staged : (channels.step input).rGrant = channels.grant input := by
        simp [RxChannels.step, samples]
      rw [accepts_of_sample samples, staged, if_pos rfl, List.length_map, List.length_map]

end MemoryOnly

/-- The access that leaves the sampling stage writes the next word of the transfer. -/
theorem TracksTransfer.isWord (tracks : TracksTransfer transfer j channels count status)
    (wide : 3 ≤ transSize) (staged : channels.stages (j.castAdd nExt) = true) :
    channels.fifoIn.IsWord transfer count channels.rData := by
  have granted : channels.rGrant = some (j.castAdd nExt) := eq_of_beq staged
  have phase := tracks.phase
  rw [staged] at phase
  have mux : channels.insideMux = channels.linMux j := by
    rw [insideMux, granted]
    exact Fin.append_left ..
  have sized := tracks.datasize staged
  cases phase with
  | serving serves =>
      constructor
      case dest => exact tracks.destination staged
      case size => exact sized
      case addr => rw [fifoIn, mux, ← serves.addresses]; rfl
      case bytes =>
        rw [fifoIn, mux]
        exact serves.currBytes wide sized
      case data => rfl

/-- What a lane accepts is in the sampling stage next. -/
theorem acceptsOn_eq (lane : Fin (nLin + nExt))
    (free : channels.sampleIndata = true ∨ channels.stages lane = false) :
    channels.acceptsOn lane input =
      if (channels.step input).stages lane then [chWord input lane] else [] := by
  have empty : channels.sampleIndata = true ∨ channels.rGrant ≠ some lane :=
    free.imp_right fun empty => by simpa [stages] using empty
  have staged := staged_iff_ready empty input
  cases ready : channels.chReady input lane with
  | false =>
      have empty : (channels.step input).stages lane = false := by
        rw [← Bool.not_eq_true, stages, beq_iff_eq, staged, ready]
        exact Bool.false_ne_true
      rw [acceptsOn_of_not_ready ready, empty, if_neg Bool.false_ne_true]
  | true =>
      have holds : (channels.step input).stages lane = true := beq_iff_eq.mpr (staged.mpr ready)
      rw [acceptsOn_of_ready ready, holds, if_pos rfl]

/-- The words that a linear channel has accepted, the first `count` of which have become
accesses, and the next one is in the sampling stage. -/
structure Accesses (transfer : Transfer aWidth transSize) (j : Fin nLin)
    (channels : RxChannels aWidth transSize idWidth arbiter) (words : List (BitVec 32))
    (accesses : List (RxAccess aWidth idWidth)) : Prop where
  length : words.length = accesses.length + (channels.stages (j.castAdd nExt)).toNat
  staged : channels.stages (j.castAdd nExt) = true → words[accesses.length]? = some channels.rData
  isWord : ∀ (k : Nat) (access : RxAccess aWidth idWidth), accesses[k]? = some access →
    ∃ word, words[k]? = some word ∧ access.IsWord transfer k word

theorem accesses_reset :
    Accesses transfer j (reset : RxChannels aWidth transSize idWidth arbiter) [] [] where
  length := rfl
  staged := fun staged => Bool.noConfusion staged
  isWord := fun _ _ present => nomatch present

variable {words : List (BitVec 32)} {accesses : List (RxAccess aWidth idWidth)}

/-- One clock edge of a linear channel: what it accepts and what it pushes. -/
theorem Accesses.step (holds : Accesses transfer j channels words accesses)
    (tracks : TracksTransfer transfer j channels accesses.length status) (wide : 3 ≤ transSize)
    (input : RxInput nLin nExt aWidth transSize idWidth) :
    Accesses transfer j (channels.step input)
      (words ++ (channels.acceptsOn (j.castAdd nExt) input).map (·.data))
      (accesses ++ if channels.sends (j.castAdd nExt) then [channels.fifoIn] else []) := by
  cases samples : channels.sampleIndata with
  | false =>
      obtain ⟨stays, -, -, data⟩ := stages_of_stall samples input
      have kept : (channels.step input).stages (j.castAdd nExt) =
          channels.stages (j.castAdd nExt) := congrArg (· == _) stays
      have silent : channels.acceptsOn (j.castAdd nExt) input = [] :=
        acceptsOn_of_not_ready (by rw [chReady, samples, Bool.false_and])
      rw [silent, sends, samples, Bool.false_and, if_neg Bool.false_ne_true, List.map_nil,
        List.append_nil, List.append_nil]
      constructor
      case length => rw [kept, holds.length]
      case staged => rw [kept, data]; exact holds.staged
      case isWord => exact holds.isWord
  | true =>
      rw [acceptsOn_eq _ (.inl samples), sends, samples, Bool.true_and]
      have length := holds.length
      have pushed : (accesses ++ if channels.stages (j.castAdd nExt) then [channels.fifoIn]
          else []).length = words.length := by
        rw [List.length_append, length]
        cases channels.stages (j.castAdd nExt) <;> rfl
      constructor
      case length =>
        rw [pushed, List.length_append, List.length_map]
        cases (channels.step input).stages (j.castAdd nExt) <;> rfl
      case staged =>
        intro staged
        rw [pushed, staged, if_pos rfl, (sampled samples staged).2.2.2]
        simp [chWord]
      case isWord =>
        intro k access present
        rw [List.getElem?_append] at present
        split at present
        · obtain ⟨word, accepted, isWord⟩ := holds.isWord k access present
          refine ⟨word, ?_, isWord⟩
          rw [List.getElem?_append_left (List.getElem?_eq_some_iff.mp accepted).1, accepted]
        · next after =>
            cases staged : channels.stages (j.castAdd nExt) with
            | false => simp [staged] at present
            | true =>
                rw [staged, if_pos rfl, List.getElem?_singleton] at present
                split at present
                · next last =>
                    obtain rfl : k = accesses.length := by omega
                    have accepted := holds.staged staged
                    refine ⟨channels.rData, ?_, ?_⟩
                    · rw [List.getElem?_append_left (List.getElem?_eq_some_iff.mp accepted).1,
                        accepted]
                    · rw [← Option.some.inj present]
                      exact tracks.isWord wide staged
                · exact absurd present.symm (Option.some_ne_none _)

end RxChannels

end CoreVMcu.Udma
