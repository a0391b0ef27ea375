import CoreVMcu.Udma.TxRealign

/-!
# Accesses on their way through the TX channels

A granted access is staged while it gets its address, waits in the FIFO, is
answered by the L2 port and is ready for its channel in the cycle after the
answer.  No stage overtakes another one, so that the accesses are delivered in the
order in which they were granted, each with the value of its own bytes.
-/

namespace CoreVMcu.Udma

open Clocked

section Stages

variable {nLin nExt aWidth transSize idWidth : Nat} {arbiter : Arbiter (nLin + nExt)}

/-- The L2 port returns the answer for `access`. -/
structure TxChannels.Returns (channels : TxChannels aWidth transSize idWidth arbiter)
    (access : TxAccess aWidth) : Prop where
  resp : channels.rResp = access.resp
  size : channels.rSize = access.size
  addr : channels.rAddr = access.lsb

/-- The bytes that the first of two words gave are registered. -/
def TxChannels.Merging (memory : BitVec 32 → BitVec 8)
    (channels : TxChannels aWidth transSize idWidth arbiter) (access : TxAccess aWidth) : Prop :=
  ∃ wasNa data, channels.rData =
    txData access.size access.lsb true wasNa data
      (readWord memory (l2Addr access.dest access.addr false))

/-- What the L2 port does: the access whose last word it answers, if any, and the
accesses that wait for it, the first of which may have one of its two words. -/
inductive Serving (memory : BitVec 32 → BitVec 8)
    (system : TxSystem aWidth transSize idWidth arbiter) :
    List (TxAccess aWidth) → List (TxAccess aWidth) → Prop
  | quiet {queued : List (TxAccess aWidth)} (aligned : system.channels.rTxState = .idle)
      (silent : system.answering = none) : Serving memory system [] queued
  | oneWord {access : TxAccess aWidth} {queued : List (TxAccess aWidth)}
      (aligned : system.channels.rTxState = .idle)
      (answers : system.answering = some (l2Addr access.dest access.addr false))
      (returns : system.channels.Returns access) (fits : access.splits = false)
      (wasAligned : system.channels.rIsNa = false) : Serving memory system [access] queued
  | firstWord {access : TxAccess aWidth} {rest : List (TxAccess aWidth)}
      (nonAligned : system.channels.rTxState = .nonAligned)
      (answers : system.answering = some (l2Addr access.dest access.addr false))
      (returns : system.channels.Returns access) (splits : access.splits = true) :
      Serving memory system [] (access :: rest)
  | halfway {access : TxAccess aWidth} {rest : List (TxAccess aWidth)}
      (nonAligned : system.channels.rTxState = .nonAligned)
      (silent : system.answering = none)
      (returns : system.channels.Returns access) (splits : access.splits = true)
      (merging : system.channels.Merging memory access) :
      Serving memory system [] (access :: rest)
  | secondWord {access : TxAccess aWidth} {queued : List (TxAccess aWidth)}
      (aligned : system.channels.rTxState = .idle)
      (answers : system.answering = some (l2Addr access.dest access.addr true))
      (returns : system.channels.Returns access) (splits : access.splits = true)
      (wasNa : system.channels.rIsNa = true)
      (merging : system.channels.Merging memory access) : Serving memory system [access] queued

/-- The access that is ready for its channel, if any. -/
inductive Ready (memory : BitVec 32 → BitVec 8)
    (channels : TxChannels aWidth transSize idWidth arbiter) : List (TxAccess aWidth) → Prop
  | none (low : channels.rValid = false) : Ready memory channels []
  | word {access : TxAccess aWidth} (high : channels.rValid = true)
      (resp : channels.rRespDly = access.resp) (data : channels.rData = access.loaded memory) :
      Ready memory channels [access]

end Stages

/-! ## One cycle of the L2 port -/

namespace TxSystem

variable {nLin nExt aWidth transSize idWidth : Nat} {arbiter : Arbiter (nLin + nExt)}
variable {memory : BitVec 32 → BitVec 8} {system : TxSystem aWidth transSize idWidth arbiter}
variable (input : TxSystemInput nLin nExt aWidth transSize idWidth)
variable {answering queued : List (TxAccess aWidth)}

/-- The access at the L2 port leaves the FIFO. -/
def pops (memory : BitVec 32 → BitVec 8) (system : TxSystem aWidth transSize idWidth arbiter)
    (input : TxSystemInput nLin nExt aWidth transSize idWidth) : Bool :=
  system.channels.l2Gnt (system.reply memory input) && system.channels.fifo.valid

variable {input}

theorem valid_of_gnt (granted : (system.reply memory input).gnt = true) :
    system.channels.fifo.valid = true := by
  simp only [reply, TxChannels.l2Req, Bool.and_eq_true] at granted
  exact granted.1.1

theorem reply_of_silent (silent : system.answering = none) :
    (system.reply memory input).rvalid = false := by
  rw [reply, silent]
  rfl

theorem reply_of_answers {addr : BitVec 32} (answers : system.answering = some addr)
    (memory : BitVec 32 → BitVec 8)
    (input : TxSystemInput nLin nExt aWidth transSize idWidth) :
    (system.reply memory input).rvalid = true ∧
      (system.reply memory input).rdata = readWord memory addr := by
  rw [reply, answers]
  exact ⟨rfl, rfl⟩

/-- Without a grant nothing moves at the L2 port. -/
theorem pops_of_noGnt (noGrant : (system.reply memory input).gnt = false) :
    pops memory system input = false := by
  unfold pops TxChannels.l2Gnt
  cases system.channels.rTxState <;> simp [noGrant]

theorem serving_of_idle
    (represents : IoGenericFifo.Represents accessDepth system.channels.fifo queued)
    (aligned : system.channels.rTxState = .idle) (pushed : List (TxAccess aWidth)) :
    Serving memory (system.step memory input) (queued.take (pops memory system input).toNat)
      (queued.drop (pops memory system input).toNat ++ pushed) := by
  have isNa : system.channels.isNa = false := by
    rw [TxChannels.isNa, aligned]
    rfl
  cases granted : (system.reply memory input).gnt with
  | false =>
      rw [pops_of_noGnt granted]
      refine .quiet ?_ ?_
      · simp [TxSystem.step, TxChannels.step, TxChannels.txStateNext, aligned, granted]
      · simp [TxSystem.step, granted]
  | true =>
      have valid := valid_of_gnt granted
      obtain ⟨access, rest, rfl⟩ : ∃ access rest, queued = access :: rest := by
        rw [represents.valid_eq] at valid
        exact List.exists_cons_of_ne_nil fun empty => by simp [empty] at valid
      have out : system.channels.fifoOut = access := represents.data_eq
      have detects : system.channels.detectsNa = access.splits := by
        rw [TxChannels.detectsNa, out]
        rfl
      have answers : (system.step memory input).answering =
          some (l2Addr access.dest access.addr false) := by
        simp [TxSystem.step, granted, TxChannels.l2Address, out, isNa]
      have returns : (system.step memory input).channels.Returns access := by
        constructor <;>
          simp [TxSystem.step, TxChannels.step, granted, valid, isNa, out, TxAccess.lsb]
      cases split : access.splits with
      | false =>
          have popped : pops memory system input = true := by
            simp [pops, TxChannels.l2Gnt, aligned, detects, split, granted, valid]
          rw [popped]
          refine .oneWord ?_ answers returns split ?_
          · simp [TxSystem.step, TxChannels.step, TxChannels.txStateNext, aligned, detects, split]
          · exact isNa
      | true =>
          have kept : pops memory system input = false := by
            simp [pops, TxChannels.l2Gnt, aligned, detects, split]
          rw [kept]
          refine .firstWord ?_ answers returns split
          simp [TxSystem.step, TxChannels.step, TxChannels.txStateNext, aligned, detects, split,
            granted]

theorem serving_of_nonAligned {access : TxAccess aWidth} {rest : List (TxAccess aWidth)}
    (represents : IoGenericFifo.Represents accessDepth system.channels.fifo (access :: rest))
    (nonAligned : system.channels.rTxState = .nonAligned)
    (returns : system.channels.Returns access) (splits : access.splits = true)
    (merges : (system.step memory input).channels.Merging memory access)
    (pushed : List (TxAccess aWidth)) :
    Serving memory (system.step memory input)
      ((access :: rest).take (pops memory system input).toNat)
      ((access :: rest).drop (pops memory system input).toNat ++ pushed) := by
  have isNa : system.channels.isNa = true := by
    rw [TxChannels.isNa, nonAligned]
    rfl
  have stays : (system.step memory input).channels.Returns access := by
    obtain ⟨resp, size, addr⟩ := returns
    constructor <;> simpa [TxSystem.step, TxChannels.step, isNa]
  cases granted : (system.reply memory input).gnt with
  | false =>
      rw [pops_of_noGnt granted]
      refine .halfway ?_ ?_ stays splits merges
      · simp [TxSystem.step, TxChannels.step, TxChannels.txStateNext, nonAligned, granted]
      · simp [TxSystem.step, granted]
  | true =>
      have valid := valid_of_gnt granted
      have out : system.channels.fifoOut = access := represents.data_eq
      have popped : pops memory system input = true := by
        simp [pops, TxChannels.l2Gnt, nonAligned, granted, valid]
      rw [popped]
      refine .secondWord ?_ ?_ stays splits isNa merges
      · simp [TxSystem.step, TxChannels.step, TxChannels.txStateNext, nonAligned, granted]
      · simp [TxSystem.step, granted, TxChannels.l2Address, out, isNa]

/-- One cycle of the L2 port: the access that leaves the FIFO is answered next. -/
theorem serving_step (serving : Serving memory system answering queued)
    (represents : IoGenericFifo.Represents accessDepth system.channels.fifo queued)
    (pushed : List (TxAccess aWidth)) :
    Serving memory (system.step memory input) (queued.take (pops memory system input).toNat)
      (queued.drop (pops memory system input).toNat ++ pushed) := by
  cases serving with
  | quiet aligned => exact serving_of_idle represents aligned pushed
  | oneWord aligned => exact serving_of_idle represents aligned pushed
  | secondWord aligned => exact serving_of_idle represents aligned pushed
  | firstWord nonAligned answers returns splits =>
      obtain ⟨rvalid, rdata⟩ := reply_of_answers answers memory input
      refine serving_of_nonAligned represents nonAligned returns splits ⟨?_, ?_, ?_⟩ pushed
      · exact system.channels.rIsNa
      · exact system.channels.rData
      · have isNa : system.channels.isNa = true := by
          rw [TxChannels.isNa, nonAligned]
          rfl
        simp [TxSystem.step, TxChannels.step, rvalid, TxChannels.data, isNa, returns.size,
          returns.addr, rdata]
  | halfway nonAligned silent returns splits merging =>
      refine serving_of_nonAligned represents nonAligned returns splits ?_ pushed
      obtain ⟨wasNa, data, merging⟩ := merging
      refine ⟨wasNa, data, ?_⟩
      simp [TxSystem.step, TxChannels.step, reply_of_silent silent, merging]

/-- What the L2 port answers is ready in the next cycle. -/
theorem ready_step (serving : Serving memory system answering queued) (wide : 2 ≤ aWidth) :
    Ready memory (system.step memory input).channels answering := by
  have aligned_isNa : system.channels.rTxState = .idle → system.channels.isNa = false := by
    intro aligned
    rw [TxChannels.isNa, aligned]
    rfl
  cases serving with
  | quiet aligned silent =>
      refine .none ?_
      simp [TxSystem.step, TxChannels.step, reply_of_silent silent]
  | oneWord aligned answers returns fits wasAligned =>
      obtain ⟨rvalid, rdata⟩ := reply_of_answers answers memory input
      have isNa := aligned_isNa aligned
      refine .word ?_ ?_ ?_
      · simp [TxSystem.step, TxChannels.step, rvalid, isNa]
      · simp [TxSystem.step, TxChannels.step, returns.resp]
      · rw [← TxAccess.data_of_oneWord wide fits system.channels.rData]
        simp [TxSystem.step, TxChannels.step, rvalid, TxChannels.data, isNa, wasAligned, rdata,
          returns.size, returns.addr]
  | firstWord nonAligned =>
      refine .none ?_
      simp [TxSystem.step, TxChannels.step, TxChannels.isNa, nonAligned]
  | halfway nonAligned =>
      refine .none ?_
      simp [TxSystem.step, TxChannels.step, TxChannels.isNa, nonAligned]
  | secondWord aligned answers returns splits wasNa merging =>
      obtain ⟨rvalid, rdata⟩ := reply_of_answers answers memory input
      obtain ⟨before, data, merging⟩ := merging
      have isNa := aligned_isNa aligned
      refine .word ?_ ?_ ?_
      · simp [TxSystem.step, TxChannels.step, rvalid, isNa]
      · simp [TxSystem.step, TxChannels.step, returns.resp]
      · rw [← TxAccess.data_of_twoWords wide splits before data, ← merging]
        simp [TxSystem.step, TxChannels.step, rvalid, TxChannels.data, isNa, wasNa, rdata,
          returns.size, returns.addr]

/-- The access that enters the FIFO. -/
def pushes (system : TxSystem aWidth transSize idWidth arbiter) : List (TxAccess aWidth) :=
  if system.channels.rGrant.isSome && system.channels.sampleIndata then [system.channels.fifoIn]
  else []

/-- The lane of the access that gets its address. -/
def staged (system : TxSystem aWidth transSize idWidth arbiter) : List (Fin (nLin + nExt)) :=
  system.channels.rGrant.toList

/-- The lanes that see their request granted. -/
def grants (system : TxSystem aWidth transSize idWidth arbiter)
    (input : TxSystemInput nLin nExt aWidth transSize idWidth) : List (Fin (nLin + nExt)) :=
  raised (system.channels.gnt input.toTxInput)

/-- The lane that gets a word, with the word. -/
def delivers (system : TxSystem aWidth transSize idWidth arbiter)
    (_ : TxSystemInput nLin nExt aWidth transSize idWidth) :
    List (Fin (nLin + nExt) × BitVec 32) :=
  (raised system.channels.chValid).map fun lane => (lane, system.channels.chData lane)

variable {ready done pushed : List (TxAccess aWidth)}

theorem delivers_eq (isReady : Ready memory system.channels ready)
    (known : ∀ access ∈ ready, access.resp < nLin + nExt)
    (input : TxSystemInput nLin nExt aWidth transSize idWidth) :
    (system.delivers input).map (Prod.map Fin.val id) =
      ready.map fun access => (access.resp, access.loaded memory) := by
  cases isReady with
  | none low =>
      rw [delivers, raised_eq_nil fun lane => by rw [TxChannels.chValid, low, Bool.and_false]]
      rfl
  | @word access high resp data =>
      have below := known access (List.mem_singleton_self _)
      have one : raised system.channels.chValid = [⟨access.resp, below⟩] := by
        refine raised_eq_singleton ?_ fun other valid => ?_
        · simp [TxChannels.chValid, high, resp]
        · simp only [TxChannels.chValid, high, resp, Bool.and_true, beq_iff_eq] at valid
          exact Fin.ext valid.symm
      simp [delivers, one, TxChannels.chData, resp, data]

/-- A grant is seen when the pipeline moves, and stages its lane. -/
theorem grants_eq :
    system.grants input =
      if system.channels.sampleIndata then (system.channels.grant input.toTxInput).toList
      else [] := by
  unfold grants
  cases sample : system.channels.sampleIndata with
  | false => exact raised_eq_nil fun lane => by rw [TxChannels.gnt, sample, Bool.false_and]
  | true =>
      cases grant : system.channels.grant input.toTxInput with
      | none => exact raised_eq_nil fun lane => by rw [TxChannels.gnt, grant]; simp
      | some lane =>
          refine raised_eq_singleton ?_ fun other high => ?_
          · simp [TxChannels.gnt, sample, grant]
          · simp only [TxChannels.gnt, sample, grant, Bool.true_and, beq_iff_eq] at high
            exact (Option.some.inj high).symm

/-- A staged lane enters the FIFO with its access, and makes room for the next one. -/
theorem staged_step (memory : BitVec 32 → BitVec 8)
    (system : TxSystem aWidth transSize idWidth arbiter)
    (input : TxSystemInput nLin nExt aWidth transSize idWidth) :
    system.staged.map Fin.val ++ (system.grants input).map Fin.val =
      system.pushes.map TxAccess.resp ++ (system.step memory input).staged.map Fin.val := by
  rw [grants_eq]
  cases sample : system.channels.sampleIndata with
  | false => simp [staged, pushes, TxSystem.step, TxChannels.step, sample]
  | true =>
      cases grant : system.channels.rGrant <;>
        simp [staged, pushes, TxSystem.step, TxChannels.step, sample, grant, TxChannels.fifoIn,
          TxChannels.grantLog]

/-! ## Conservation -/

/-- The accesses that have entered the FIFO are delivered, ready, answered or wait. -/
structure InFlight (memory : BitVec 32 → BitVec 8)
    (system : TxSystem aWidth transSize idWidth arbiter)
    (pushed done ready answering queued : List (TxAccess aWidth)) : Prop where
  conserved : pushed = done ++ ready ++ answering ++ queued
  known : ∀ access ∈ pushed, access.resp < nLin + nExt
  fifo : IoGenericFifo.Represents accessDepth system.channels.fifo queued
  serving : Serving memory system answering queued
  ready : Ready memory system.channels ready

theorem inFlight_reset :
    InFlight memory (txMachine aWidth transSize idWidth arbiter memory).init [] [] [] [] [] where
  conserved := rfl
  known := fun _ member => absurd member List.not_mem_nil
  fifo := IoGenericFifo.represents_reset _ (by decide)
  serving := .quiet rfl rfl
  ready := .none rfl

theorem resp_of_pushes {access : TxAccess aWidth} (member : access ∈ system.pushes) :
    access.resp < nLin + nExt := by
  unfold pushes at member
  cases grant : system.channels.rGrant with
  | none => simp [grant] at member
  | some lane =>
      split at member
      · rw [List.mem_singleton.mp member, TxChannels.fifoIn, TxChannels.grantLog, grant]
        exact lane.isLt
      · exact absurd member List.not_mem_nil

theorem InFlight.step (inFlight : InFlight memory system pushed done ready answering queued)
    (wide : 2 ≤ aWidth) (input : TxSystemInput nLin nExt aWidth transSize idWidth) :
    InFlight memory (system.step memory input) (pushed ++ system.pushes) (done ++ ready) answering
      (queued.take (pops memory system input).toNat)
      (queued.drop (pops memory system input).toNat ++ system.pushes) where
  conserved := by
    rw [inFlight.conserved]
    simp only [List.append_assoc]
    rw [← List.append_assoc (queued.take _), List.take_append_drop]
  known := by
    intro access member
    rcases List.mem_append.mp member with member | member
    · exact inFlight.known access member
    · exact resp_of_pushes member
  fifo := inFlight.fifo.step ..
  serving := serving_step inFlight.serving inFlight.fifo _
  ready := ready_step inFlight.serving wide

/-- Number of cycles with a ready L2 port after which the oldest `left` accesses of
the FIFO and the staged one are at most answered; each may need two words. -/
def queueCycles (left queued halfway : Nat) : Nat :=
  4 * min left queued + 5 * (left - queued) - min (min left queued) halfway

/-- Number of cycles with a ready L2 port after which the oldest `left` accesses in
flight are at most delivered. -/
def cyclesLeft (left ready answering queued halfway : Nat) : Nat :=
  min left ready + 2 * min (left - ready) answering +
    queueCycles (left - ready - answering) queued halfway

theorem queueCycles_step {left queued staged halfway popped pushed halfwayNext progress : Nat}
    (all : left ≤ queued + staged) (popsSome : popped ≤ queued) (popsOne : popped ≤ 1)
    (stagedOne : staged ≤ 1) (halfwayOne : halfway ≤ 1) (nextOne : halfwayNext ≤ 1)
    (progressOne : progress ≤ 1) (pushesLe : pushed ≤ staged)
    (pushesAll : queued < 4 → pushed = staged)
    (settles : popped = 0 ∨ halfwayNext = 0)
    (moves : halfway + progress ≤ 2 * popped + halfwayNext ∨
      popped = 0 ∧ halfwayNext = halfway ∧ queued = 0) :
    2 * min left popped + queueCycles (left - popped) (queued - popped + pushed) halfwayNext +
      min left progress ≤ queueCycles left queued halfway := by
  unfold queueCycles
  by_cases inQueue : left ≤ queued
  · have after : left - popped ≤ queued - popped + pushed := by omega
    rw [Nat.min_eq_left inQueue, Nat.sub_eq_zero_of_le inQueue, Nat.min_eq_left after,
      Nat.sub_eq_zero_of_le after]
    clear after pushesAll pushesLe stagedOne all
    rcases settles with rfl | rfl
    · rcases moves with moves | ⟨-, rfl, rfl⟩ <;> omega
    · rcases moves with moves | ⟨rfl, rfl, rfl⟩ <;> omega
  · -- the staged access is one of those that are left
    obtain rfl : staged = 1 := by omega
    obtain rfl : left = queued + 1 := by omega
    rw [Nat.min_eq_right (Nat.le_succ queued), Nat.min_eq_right (Nat.le_succ_of_le popsSome)]
    clear all stagedOne inQueue
    rcases moves with moves | ⟨rfl, rfl, rfl⟩
    · rcases settles with rfl | rfl <;> omega
    · omega

theorem cyclesLeft_pos {left halfway : Nat} (some : 0 < left) (halfwayOne : halfway ≤ 1)
    (ready answering queued : Nat) : 0 < cyclesLeft left ready answering queued halfway := by
  unfold cyclesLeft queueCycles
  omega

theorem cyclesLeft_le {left ready answering queued halfway : Nat} (readyOne : ready ≤ 1)
    (answeringOne : answering ≤ 1) (inFifo : queued ≤ 4)
    (all : left ≤ ready + answering + queued + 1) :
    cyclesLeft left ready answering queued halfway ≤ 24 := by
  unfold cyclesLeft queueCycles
  omega

/-- A grant of the L2 port completes the access or leaves one word to read. -/
theorem pops_of_gnt (granted : (system.reply memory input).gnt = true) :
    system.channels.isNa.toNat + 1 ≤
      2 * (pops memory system input).toNat + (system.step memory input).channels.isNa.toNat := by
  have valid := valid_of_gnt granted
  cases state : system.channels.rTxState <;> cases detects : system.channels.detectsNa <;>
    simp only [pops, TxChannels.l2Gnt, TxChannels.isNa, TxSystem.step, TxChannels.step,
      TxChannels.txStateNext, state, detects, granted, valid] <;>
    decide

theorem isNa_of_pops (popped : pops memory system input = true) :
    (system.step memory input).channels.isNa = false := by
  simp only [pops, TxChannels.l2Gnt, Bool.and_eq_true] at popped
  cases state : system.channels.rTxState with
  | idle =>
      simp only [state, Bool.and_eq_true, Bool.not_eq_true'] at popped
      simp [TxSystem.step, TxChannels.step, TxChannels.txStateNext, TxChannels.isNa, state, popped]
  | nonAligned =>
      simp only [state] at popped
      simp [TxSystem.step, TxChannels.step, TxChannels.txStateNext, TxChannels.isNa, state, popped]

theorem isNa_of_noGnt (noGrant : (system.reply memory input).gnt = false) :
    (system.step memory input).channels.isNa = system.channels.isNa := by
  cases state : system.channels.rTxState <;>
    simp [TxSystem.step, TxChannels.step, TxChannels.txStateNext, TxChannels.isNa, state, noGrant]

/-- A ready L2 port grants a waiting access unless it waits for a channel that is not
ready. -/
theorem gnt_of_l2Ready (isReady : Ready memory system.channels [])
    (represents : IoGenericFifo.Represents accessDepth system.channels.fifo queued)
    (waits : 0 < queued.length) (l2Ready : input.l2Ready = true) :
    (system.reply memory input).gnt = true := by
  cases isReady with
  | none low =>
      have valid : system.channels.fifo.valid = true := by
        rw [represents.valid_eq, Bool.not_eq_true', List.isEmpty_eq_false_iff]
        exact List.ne_nil_of_length_pos waits
      simp [reply, TxChannels.l2Req, TxChannels.stall, low, valid, l2Ready]

theorem length_pushes
    (represents : IoGenericFifo.Represents accessDepth system.channels.fifo queued)
    (room : queued.length < accessDepth) : system.pushes.length = system.staged.length := by
  have sample : system.channels.sampleIndata = true := represents.ready_iff.mpr room
  cases grant : system.channels.rGrant <;> simp [pushes, staged, sample, grant]

theorem length_pushes_le : system.pushes.length ≤ system.staged.length := by
  cases grant : system.channels.rGrant <;> cases sample : system.channels.sampleIndata <;>
    simp [pushes, staged, sample, grant]

theorem length_staged_le : system.staged.length ≤ 1 := by
  cases grant : system.channels.rGrant <;> simp [staged, grant]

theorem pops_le (represents : IoGenericFifo.Represents accessDepth system.channels.fifo queued) :
    (pops memory system input).toNat ≤ queued.length := by
  cases popped : pops memory system input with
  | false => exact Nat.zero_le _
  | true =>
      have valid := (Bool.and_eq_true_iff.mp popped).2
      rw [represents.valid_eq, Bool.not_eq_true', List.isEmpty_eq_false_iff] at valid
      exact List.length_pos_of_ne_nil valid

/-- A cycle with a ready L2 port brings the oldest accesses closer to their channels. -/
theorem InFlight.closer (inFlight : InFlight memory system pushed done ready answering queued)
    (input : TxSystemInput nLin nExt aWidth transSize idWidth) {target : Nat}
    (reached : target ≤ pushed.length + system.staged.length)
    (left : done.length < target) :
    cyclesLeft (target - (done ++ ready).length) answering.length
        (queued.take (pops memory system input).toNat).length
        (queued.drop (pops memory system input).toNat ++ system.pushes).length
        (system.step memory input).channels.isNa.toNat + input.l2Ready.toNat ≤
      cyclesLeft (target - done.length) ready.length answering.length queued.length
        system.channels.isNa.toNat := by
  have conserved := congrArg List.length inFlight.conserved
  have popsSome : (pops memory system input).toNat ≤ _ := pops_le inFlight.fifo
  have readyOne := Bool.toNat_le input.l2Ready
  have settles : (pops memory system input).toNat = 0 ∨
      (system.step memory input).channels.isNa.toNat = 0 := by
    cases popped : pops memory system input with
    | false => exact .inl rfl
    | true => exact .inr (by rw [isNa_of_pops popped]; rfl)
  simp only [List.length_append, List.length_take, List.length_drop] at conserved ⊢
  rw [Nat.min_eq_left popsSome, Nat.sub_add_eq]
  -- Either the L2 port grants, or a waiting access is held up, or none waits.
  obtain ⟨progress, progressOne, moves, serves⟩ : ∃ progress ≤ 1,
      (system.channels.isNa.toNat + progress ≤ 2 * (pops memory system input).toNat +
          (system.step memory input).channels.isNa.toNat ∨
        (pops memory system input).toNat = 0 ∧
          (system.step memory input).channels.isNa.toNat = system.channels.isNa.toNat ∧
          queued.length = 0) ∧
      (ready.length = 0 → input.l2Ready.toNat ≤ progress) := by
    cases granted : (system.reply memory input).gnt with
    | true => exact ⟨1, Nat.le_refl _, .inl (pops_of_gnt granted), fun _ => readyOne⟩
    | false =>
        have stays := isNa_of_noGnt granted
        have kept := pops_of_noGnt granted
        rw [stays, kept]
        by_cases waits : queued.length = 0
        · exact ⟨1, Nat.le_refl _, .inr ⟨rfl, rfl, waits⟩, fun _ => readyOne⟩
        · refine ⟨0, Nat.zero_le _, .inl (by simp), fun none => ?_⟩
          cases l2Ready : input.l2Ready with
          | false => exact Nat.le_refl _
          | true =>
              have isReady := inFlight.ready
              rw [List.eq_nil_of_length_eq_zero none] at isReady
              have grants := gnt_of_l2Ready isReady inFlight.fifo (Nat.pos_of_ne_zero waits) l2Ready
              exact absurd (granted.symm.trans grants) Bool.false_ne_true
  have all : target - done.length - ready.length - answering.length ≤
      queued.length + system.staged.length := by omega
  have queue := queueCycles_step all popsSome (Bool.toNat_le _) length_staged_le
    (Bool.toNat_le _) (Bool.toNat_le _) progressOne length_pushes_le
    (length_pushes inFlight.fifo) settles moves
  unfold cyclesLeft
  omega

theorem InFlight.cyclesLeft_le
    (inFlight : InFlight memory system pushed done ready answering queued) (target : Nat)
    (reached : target ≤ pushed.length + system.staged.length) :
    cyclesLeft (target - done.length) ready.length answering.length queued.length
      system.channels.isNa.toNat ≤ 24 := by
  have conserved := congrArg List.length inFlight.conserved
  have stagedOne : system.staged.length ≤ 1 := length_staged_le
  have readyOne : ready.length ≤ 1 := by
    cases inFlight.ready <;> simp
  have answeringOne : answering.length ≤ 1 := by
    cases inFlight.serving <;> simp
  simp only [List.length_append] at conserved
  exact TxSystem.cyclesLeft_le readyOne answeringOne inFlight.fifo.bounded (by omega)

end TxSystem

end CoreVMcu.Udma
