import CoreVMcu.Clocked.Machine
import CoreVMcu.Clocked.Transfers
import CoreVMcu.Filter.Walks

/-!
# Writing the output back

`udma_filter_rx_dataout` writes the programmed elements of each start to the addresses of its
mode and is done with the last one.  Its FIFO stands in front of the channel all the time, so a
word that has been accepted beyond the programmed elements is offered as well, at an address
that no start has programmed.
-/

namespace CoreVMcu.Filter

open Clocked Udma

variable {aWidth transSize dataWidth : Nat}

namespace ChannelCfg

variable (cfg : ChannelCfg aWidth transSize)

/-- The number of elements: one row in the linear mode, `len1 + 1` rows otherwise. -/
def dataoutCount : Nat :=
  if cfg.mode = 0 then cfg.len0.toNat + 1 else (cfg.len0.toNat + 1) * (cfg.len1.toNat + 1)

/-- The address of an element. -/
def dataoutAddress (k : Nat) : BitVec aWidth :=
  if cfg.mode = 0 then cfg.startAddr + BitVec.ofNat aWidth k * cfg.wordStep
  else if cfg.mode = 1 then
    -- row by row
    cfg.startAddr + BitVec.ofNat aWidth (k / (cfg.len0.toNat + 1)) * cfg.rowStep +
      BitVec.ofNat aWidth (k % (cfg.len0.toNat + 1)) * cfg.wordStep
  else
    -- column by column
    cfg.startAddr + BitVec.ofNat aWidth (k / (cfg.len1.toNat + 1)) * cfg.wordStep +
      BitVec.ofNat aWidth (k % (cfg.len1.toNat + 1)) * cfg.rowStep

/-- The addresses of the elements. -/
def dataoutAddresses : List (BitVec aWidth) :=
  (List.range cfg.dataoutCount).map cfg.dataoutAddress

/-- The loops of a write-back. -/
def dataoutLoops : NestedLoops aWidth :=
  if cfg.mode = 0 then cfg.wordLoops 0 0
  else if cfg.mode = 1 then cfg.wordLoops cfg.rowStep cfg.len1.toNat
  else cfg.rowLoops

theorem dataoutLoops_addresses : cfg.dataoutLoops.addresses = cfg.dataoutAddresses := by
  rw [NestedLoops.addresses, dataoutAddresses, dataoutLoops, dataoutCount]
  cases (inferInstance : Decidable (cfg.mode = 0)) with
  | isTrue linear =>
      rw [if_pos linear, if_pos linear]
      have total : (cfg.wordLoops 0 0).total = cfg.len0.toNat + 1 := Nat.mul_one _
      rw [total]
      refine List.map_congr_left fun k inside => ?_
      have single : k / (cfg.len0.toNat + 1) = 0 := Nat.div_eq_of_lt (List.mem_range.1 inside)
      have same : k % (cfg.len0.toNat + 1) = k := Nat.mod_eq_of_lt (List.mem_range.1 inside)
      rw [dataoutAddress, if_pos linear]
      change cfg.startAddr + BitVec.ofNat aWidth (k / (cfg.len0.toNat + 1)) * 0 +
        BitVec.ofNat aWidth (k % (cfg.len0.toNat + 1)) * cfg.wordStep = _
      rw [single, same]
      exact congrArg (· + _) ((congrArg _ (mul_zero _)).trans (add_zero _))
  | isFalse nested =>
      rw [if_neg nested, if_neg nested]
      cases (inferInstance : Decidable (cfg.mode = 1)) with
      | isTrue rows =>
          rw [if_pos rows]
          refine List.map_congr_left fun k _ => ?_
          rw [dataoutAddress, if_neg nested, if_pos rows]
          rfl
      | isFalse columns =>
          rw [if_neg columns, Nat.mul_comm]
          refine List.map_congr_left fun k _ => ?_
          rw [dataoutAddress, if_neg nested, if_neg columns]
          rfl

end ChannelCfg

/-- What the channel sees in a cycle. -/
structure DataoutCycle (aWidth transSize dataWidth : Nat) extends DataoutInput dataWidth where
  cfg : ChannelCfg aWidth transSize
  cmdStart : Bool

/-- The channel from reset. -/
def dataoutMachine (aWidth transSize dataWidth : Nat) :
    Machine (RxDataout aWidth transSize dataWidth) (DataoutCycle aWidth transSize dataWidth) where
  init := .reset
  step out cycle := out.step cycle.cfg cycle.cmdStart cycle.toDataoutInput

namespace RxDataout

variable (out : RxDataout aWidth transSize dataWidth)
variable (cycle : DataoutCycle aWidth transSize dataWidth)

/-- `rx_ch_valid_o`. -/
def offers : Bool := out.fifo.valid

/-- The word that the channel takes, with its address. -/
def takes : List (BitVec aWidth × BitVec dataWidth) :=
  if cycle.ready && out.offers then [(out.walk.rLocPointer, out.fifo.data)] else []

/-- The word that is accepted from the stream. -/
def accepts : List (BitVec dataWidth) :=
  if cycle.streamValid && out.fifo.ready 4 then [cycle.streamData] else []

/-- The addresses that a start programs. -/
def programs : List (BitVec aWidth) :=
  if out.starts cycle.cmdStart then cycle.cfg.dataoutAddresses else []

end RxDataout

section Runs

variable (schedule : Nat → DataoutCycle aWidth transSize dataWidth)

/-- The registers in a cycle. -/
def dataoutAt (n : Nat) : RxDataout aWidth transSize dataWidth :=
  (dataoutMachine aWidth transSize dataWidth).run (inputsUpTo schedule n)

/-- The channel is done in a cycle. -/
def dataoutDone (n : Nat) : Bool :=
  (dataoutAt schedule n).done (schedule n).cfg (schedule n).toDataoutInput

/-- A transfer starts in a cycle. -/
def dataoutStarts (n : Nat) : Bool := (dataoutAt schedule n).starts (schedule n).cmdStart

/-- The words taken before a cycle, with their addresses. -/
def takenBefore : Nat → List (BitVec aWidth × BitVec dataWidth)
  | 0 => []
  | n + 1 => takenBefore n ++ (dataoutAt schedule n).takes (schedule n)

/-- The words accepted from the stream before a cycle. -/
def acceptedBefore : Nat → List (BitVec dataWidth)
  | 0 => []
  | n + 1 => acceptedBefore n ++ (dataoutAt schedule n).accepts (schedule n)

/-- The addresses programmed by the starts before a cycle. -/
def programmedBefore : Nat → List (BitVec aWidth)
  | 0 => []
  | n + 1 => programmedBefore n ++ (dataoutAt schedule n).programs (schedule n)

/-- A start is for one of the three modes, and the configuration is kept until the transfer is
done. -/
structure Configured : Prop where
  mode : ∀ n, dataoutStarts schedule n = true → (schedule n).cfg.mode ≠ 3
  kept : ∀ n, (dataoutAt schedule (n + 1)).running = true →
    (schedule (n + 1)).cfg = (schedule n).cfg

/-- The number of cycles before one in which a flag is up. -/
def raisedBefore (flag : Nat → Bool) (n : Nat) : Nat := (List.range n).countP flag

/-- Each start writes the programmed elements to their addresses and ends with the last one, and
no word is offered outside of a transfer. -/
structure WritesBack : Prop where
  silent : ∀ n, (dataoutAt schedule n).running = false → (dataoutAt schedule n).offers = false
  inOrder : ∀ n, (takenBefore schedule n).map Prod.fst <+: programmedBefore schedule n
  complete : ∀ n, (dataoutAt schedule n).running = false ↔
    (takenBefore schedule n).map Prod.fst = programmedBefore schedule n
  words : ∀ n, (takenBefore schedule n).map Prod.snd <+: acceptedBefore schedule n
  doneOnce : ∀ n, raisedBefore (dataoutDone schedule) n + (dataoutAt schedule n).running.toNat =
    raisedBefore (dataoutStarts schedule) n
  doneLast : ∀ n, dataoutDone schedule n = true →
    (takenBefore schedule (n + 1)).map Prod.fst = programmedBefore schedule n

/-- Outside of a transfer no more words have been accepted than elements been programmed. -/
def NoSurplus : Prop :=
  ∀ n, (dataoutAt schedule n).running = false →
    (acceptedBefore schedule n).length ≤ (programmedBefore schedule n).length

end Runs

/-! ## One transfer -/

theorem mode_of_ne_three {mode : BitVec 2} (other : mode ≠ 3) : mode = 0 ∨ mode = 1 ∨ mode = 2 := by
  revert mode
  decide

namespace RxDataout

variable {out : RxDataout aWidth transSize dataWidth} {cfg : ChannelCfg aWidth transSize}
variable {round : Nat}

/-- The loops in a round of a transfer. -/
def walkAt (cfg : ChannelCfg aWidth transSize) (round : Nat) : Walk aWidth transSize :=
  if cfg.mode = 2 then .rowsInside cfg.dataoutLoops round else .wordsInside cfg.dataoutLoops round

/-- The channel runs and is in a round of the transfer. -/
structure InRound (cfg : ChannelCfg aWidth transSize) (round : Nat)
    (out : RxDataout aWidth transSize dataWidth) : Prop where
  running : out.running = true
  mode : cfg.mode ≠ 3
  rMode : out.rMode = cfg.mode
  walk : out.walk = walkAt cfg round
  inside : round < cfg.dataoutLoops.total

theorem InRound.pointer (inRound : InRound cfg round out) :
    out.walk.rLocPointer = cfg.dataoutLoops.address round := by
  rw [inRound.walk, walkAt]
  split <;> rfl

theorem dataoutLoops_linear (linear : cfg.mode = 0) : cfg.dataoutLoops = cfg.wordLoops 0 0 :=
  if_pos linear

theorem dataoutLoops_rows (rows : cfg.mode = 1) :
    cfg.dataoutLoops = cfg.wordLoops cfg.rowStep cfg.len1.toNat := by
  rw [ChannelCfg.dataoutLoops, rows]
  rfl

theorem dataoutLoops_columns (columns : cfg.mode = 2) : cfg.dataoutLoops = cfg.rowLoops := by
  rw [ChannelCfg.dataoutLoops, columns]
  rfl

theorem walkAt_words (words : cfg.mode ≠ 2) :
    walkAt cfg round = .wordsInside cfg.dataoutLoops round := if_neg words

theorem walkAt_columns (columns : cfg.mode = 2) :
    walkAt cfg round = .rowsInside cfg.dataoutLoops round := if_pos columns

/-- The channel is done with the last round. -/
theorem InRound.done (inRound : InRound cfg round out) {input : DataoutInput dataWidth}
    (written : out.written input = true) :
    out.done cfg input = decide (round + 1 = cfg.dataoutLoops.total) := by
  have inside := inRound.inside
  rw [RxDataout.done, written, Bool.true_and, inRound.rMode, inRound.walk]
  rcases mode_of_ne_three inRound.mode with linear | rows | columns
  · rw [walkAt_words (by rw [linear]; decide), if_pos linear]
    rw [dataoutLoops_linear linear] at inside ⊢
    exact Walk.lastWord_of_single rfl rfl inside
  · rw [walkAt_words (by rw [rows]; decide), if_neg (by rw [rows]; decide),
      if_neg (by rw [rows]; decide)]
    rw [dataoutLoops_rows rows] at inside ⊢
    exact Walk.isLast_wordsInside rfl rfl inside
  · rw [walkAt_columns columns, if_neg (by rw [columns]; decide),
      if_neg (by rw [columns]; decide)]
    rw [dataoutLoops_columns columns] at inside ⊢
    exact Walk.isLast_rowsInside rfl rfl inside

/-- Before the last round the loops go on to the next one. -/
theorem InRound.walkNext (inRound : InRound cfg round out)
    (goesOn : round + 1 ≠ cfg.dataoutLoops.total) : out.walkNext cfg = walkAt cfg (round + 1) := by
  have inside := inRound.inside
  rw [RxDataout.walkNext, inRound.rMode, inRound.walk]
  rcases mode_of_ne_three inRound.mode with linear | rows | columns
  · rw [walkAt_words (by rw [linear]; decide), walkAt_words (by rw [linear]; decide)]
    rw [dataoutLoops_linear linear] at inside goesOn ⊢
    have notLast := @Walk.lastWord_of_single _ _ _ _ cfg rfl rfl inside
    rw [decide_eq_false goesOn] at notLast
    have inner := @Walk.lastWord _ _ (cfg.wordLoops 0 0) round cfg rfl
    rw [notLast] at inner
    simp only [if_pos linear, notLast, if_neg Bool.false_ne_true]
    exact Walk.inner_wordsInside (of_decide_eq_false inner.symm)
  · rw [walkAt_words (by rw [rows]; decide), walkAt_words (by rw [rows]; decide)]
    rw [dataoutLoops_rows rows] at inside goesOn ⊢
    have notLast := @Walk.isLast_wordsInside _ _ _ _ cfg rfl rfl inside
    rw [decide_eq_false goesOn] at notLast
    have nested : cfg.mode ≠ 0 := by rw [rows]; decide
    simp only [if_neg nested, if_neg inRound.mode, if_pos rows, notLast, if_neg Bool.false_ne_true,
      @Walk.lastWord _ _ (cfg.wordLoops cfg.rowStep cfg.len1.toNat) round cfg rfl,
      decide_eq_true_eq]
    split
    · next ends => exact Walk.outer_wordsInside ends
    · next inner => exact Walk.inner_wordsInside inner
  · rw [walkAt_columns columns, walkAt_columns columns]
    rw [dataoutLoops_columns columns] at inside goesOn ⊢
    have notLast := @Walk.isLast_rowsInside _ _ _ _ cfg rfl rfl inside
    rw [decide_eq_false goesOn] at notLast
    have nested : cfg.mode ≠ 0 := by rw [columns]; decide
    have notRows : cfg.mode ≠ 1 := by rw [columns]; decide
    simp only [if_neg nested, if_neg inRound.mode, if_neg notRows, notLast,
      if_neg Bool.false_ne_true,
      @Walk.lastRow _ _ cfg.rowLoops round cfg rfl, decide_eq_true_eq]
    split
    · next ends => exact Walk.outer_rowsInside ends
    · next inner => exact Walk.inner_rowsInside inner

theorem inRound_start (cycle : DataoutCycle aWidth transSize dataWidth)
    (starts : out.starts cycle.cmdStart = true) (mode : cycle.cfg.mode ≠ 3) :
    InRound cycle.cfg 0 (out.step cycle.cfg cycle.cmdStart cycle.toDataoutInput) where
  running := by
    rw [RxDataout.starts, Bool.and_eq_true, Bool.not_eq_true'] at starts
    rw [step, starts.1, starts.2]
    rfl
  mode := mode
  rMode := if_pos starts
  walk := by
    have begins : cycle.cfg.dataoutLoops.start = cycle.cfg.startAddr := by
      rw [ChannelCfg.dataoutLoops]
      split
      · rfl
      · split <;> rfl
    have begun : walkAt cycle.cfg 0 = Walk.start cycle.cfg := by
      rw [walkAt]
      split
      · exact Walk.rowsInside_zero begins
      · exact Walk.wordsInside_zero begins
    rw [begun]
    exact if_pos starts
  inside := NestedLoops.total_pos

section Busy

variable {cycle : DataoutCycle aWidth transSize dataWidth}

theorem InRound.starts_eq (inRound : InRound cfg round out) (cmdStart : Bool) :
    out.starts cmdStart = false := by
  rw [RxDataout.starts, inRound.running]
  rfl

theorem InRound.written_eq (inRound : InRound cfg round out) :
    out.written cycle.toDataoutInput = (cycle.ready && out.offers) := by
  rw [written, inRound.running, Bool.true_and, Bool.and_comm]
  rfl

/-- Without a word the transfer stays in its round. -/
theorem InRound.stays (inRound : InRound cycle.cfg round out)
    (rests : out.written cycle.toDataoutInput = false) :
    InRound cycle.cfg round (out.step cycle.cfg cycle.cmdStart cycle.toDataoutInput) where
  running := by
    rw [step, inRound.running, RxDataout.done, rests]
    rfl
  mode := inRound.mode
  rMode := by
    rw [step, inRound.starts_eq]
    exact inRound.rMode
  walk := by
    rw [step, inRound.starts_eq, rests]
    exact inRound.walk
  inside := inRound.inside

/-- With a word that is not the last one the transfer goes on to the next round. -/
theorem InRound.goesOn (inRound : InRound cycle.cfg round out)
    (written : out.written cycle.toDataoutInput = true)
    (notLast : round + 1 ≠ cycle.cfg.dataoutLoops.total) :
    InRound cycle.cfg (round + 1) (out.step cycle.cfg cycle.cmdStart cycle.toDataoutInput) where
  running := by
    rw [step, inRound.running, inRound.done written, decide_eq_false notLast]
    rfl
  mode := inRound.mode
  rMode := by
    rw [step, inRound.starts_eq]
    exact inRound.rMode
  walk := by
    rw [step, inRound.starts_eq, written]
    exact inRound.walkNext notLast
  inside := Nat.lt_of_le_of_ne inRound.inside notLast

end Busy

end RxDataout

/-! ## One cycle of a run -/

section Runs

variable {schedule : Nat → DataoutCycle aWidth transSize dataWidth}

theorem dataoutAt_succ (n : Nat) :
    dataoutAt schedule (n + 1) =
      (dataoutAt schedule n).step (schedule n).cfg (schedule n).cmdStart
        (schedule n).toDataoutInput := by
  rw [dataoutAt, inputsUpTo_succ, Machine.run_snoc]
  rfl

/-- The words that have been accepted and not been taken are in the FIFO. -/
theorem queued (schedule : Nat → DataoutCycle aWidth transSize dataWidth) (n : Nat) :
    ∃ words, IoGenericFifo.Represents 4 (dataoutAt schedule n).fifo words ∧
      acceptedBefore schedule n = (takenBefore schedule n).map Prod.snd ++ words := by
  induction n with
  | zero => exact ⟨[], IoGenericFifo.represents_reset 0 (by decide), rfl⟩
  | succ n ih =>
      obtain ⟨words, represents, accepted⟩ := ih
      have next := represents.step (schedule n).streamValid (schedule n).streamData
        (schedule n).ready
      refine ⟨_, by rw [dataoutAt_succ]; exact next, ?_⟩
      · have taken : ((dataoutAt schedule n).takes (schedule n)).map Prod.snd =
            words.take ((schedule n).ready && (dataoutAt schedule n).fifo.valid).toNat := by
          rw [← represents.popped, RxDataout.takes, RxDataout.offers]
          split <;> rfl
        rw [acceptedBefore, takenBefore, accepted, List.map_append, taken, List.append_assoc,
          List.append_assoc, List.append_cancel_left_eq, ← List.append_assoc, List.take_append_drop]
        rfl

/-- The writes of a run. -/
def dataoutChannel (schedule : Nat → DataoutCycle aWidth transSize dataWidth) :
    Channel (BitVec aWidth) where
  running n := (dataoutAt schedule n).running
  starts := dataoutStarts schedule
  program n := (schedule n).cfg.dataoutAddresses
  moved n := ((dataoutAt schedule n).takes (schedule n)).map Prod.fst

/-- The channel is in a round of the transfer with the configuration of the cycle. -/
def DataoutRound (schedule : Nat → DataoutCycle aWidth transSize dataWidth) (n : Nat)
    (addresses : List (BitVec aWidth)) (round : Nat) : Prop :=
  addresses = (schedule n).cfg.dataoutAddresses ∧
    (dataoutAt schedule n).InRound (schedule n).cfg round

theorem dataoutRunning_succ (n : Nat) :
    (dataoutAt schedule (n + 1)).running =
      if (dataoutAt schedule n).running then !dataoutDone schedule n
      else (schedule n).cmdStart := by
  rw [dataoutAt_succ]
  rfl

theorem length_dataoutAddresses (cfg : ChannelCfg aWidth transSize) :
    cfg.dataoutAddresses.length = cfg.dataoutLoops.total := by
  rw [← ChannelCfg.dataoutLoops_addresses, NestedLoops.length_addresses]

theorem getElem_dataoutAddresses {cfg : ChannelCfg aWidth transSize} {round : Nat}
    (inside : round < cfg.dataoutLoops.total) :
    cfg.dataoutAddresses[round]? = some (cfg.dataoutLoops.address round) := by
  rw [← ChannelCfg.dataoutLoops_addresses, NestedLoops.addresses, List.getElem?_map,
    List.getElem?_range inside]
  rfl

/-- A word of a transfer goes to the address of its round. -/
theorem RxDataout.InRound.takes {out : RxDataout aWidth transSize dataWidth}
    {cycle : DataoutCycle aWidth transSize dataWidth} {round : Nat}
    (inRound : out.InRound cycle.cfg round) :
    (out.takes cycle).map Prod.fst =
      if out.written cycle.toDataoutInput then [cycle.cfg.dataoutLoops.address round] else [] := by
  rw [RxDataout.takes, inRound.written_eq, ← inRound.pointer]
  split <;> rfl

/-- The configuration is kept while the channel runs. -/
theorem Configured.nextRound (configured : Configured schedule) {n round : Nat}
    {addresses : List (BitVec aWidth)}
    (inRound : (dataoutAt schedule (n + 1)).InRound (schedule n).cfg round)
    (programmed : addresses = (schedule n).cfg.dataoutAddresses) :
    (dataoutAt schedule (n + 1)).running = true ∧
      DataoutRound schedule (n + 1) addresses round := by
  rw [DataoutRound, configured.kept n inRound.running]
  exact ⟨inRound.running, programmed, inRound⟩

theorem dataoutRounds (configured : Configured schedule) :
    (dataoutChannel schedule).Rounds (DataoutRound schedule) where
  reset := rfl
  inside n addresses round inRound := by
    rw [inRound.1, length_dataoutAddresses]
    exact inRound.2.inside
  starts n running := by
    change (dataoutAt schedule n).running = true at running
    change (!(dataoutAt schedule n).running && _) = false
    rw [running]
    rfl
  rests n idle rests := by
    change (dataoutAt schedule n).running = false at idle
    change (!(dataoutAt schedule n).running && (schedule n).cmdStart) = false at rests
    change (dataoutAt schedule (n + 1)).running = false
    rw [idle] at rests
    rw [dataoutRunning_succ, idle]
    exact rests
  begins n idle starts := by
    have first : RxDataout.InRound (schedule n).cfg 0 (dataoutAt schedule (n + 1)) := by
      rw [dataoutAt_succ]
      exact RxDataout.inRound_start (schedule n) starts (configured.mode n starts)
    exact configured.nextRound first rfl
  stays n addresses round running inRound rests := by
    have notWritten : (dataoutAt schedule n).written (schedule n).toDataoutInput = false := by
      change ((dataoutAt schedule n).takes (schedule n)).map Prod.fst = [] at rests
      rw [inRound.2.takes] at rests
      cases written : (dataoutAt schedule n).written (schedule n).toDataoutInput with
      | false => rfl
      | true =>
          rw [written] at rests
          exact absurd rests (List.cons_ne_nil _ _)
    have same : RxDataout.InRound (schedule n).cfg round (dataoutAt schedule (n + 1)) := by
      rw [dataoutAt_succ]
      exact inRound.2.stays notWritten
    exact configured.nextRound same inRound.1
  moves n addresses round running inRound moves := by
    change ((dataoutAt schedule n).takes (schedule n)).map Prod.fst ≠ [] at moves
    rw [inRound.2.takes] at moves
    have written : (dataoutAt schedule n).written (schedule n).toDataoutInput = true := by
      cases written : (dataoutAt schedule n).written (schedule n).toDataoutInput with
      | true => rfl
      | false =>
          rw [written] at moves
          exact absurd rfl moves
    refine ⟨?_, ?_⟩
    · change _ = ((dataoutAt schedule n).takes (schedule n)).map Prod.fst
      rw [inRound.1, getElem_dataoutAddresses inRound.2.inside, inRound.2.takes, written]
      rfl
    · rw [inRound.1, length_dataoutAddresses]
      split
      · next last =>
          change (dataoutAt schedule (n + 1)).running = false
          rw [dataoutRunning_succ, inRound.2.running, dataoutDone, inRound.2.done written,
            decide_eq_true last]
          rfl
      · next notLast =>
          have next : RxDataout.InRound (schedule n).cfg (round + 1)
              (dataoutAt schedule (n + 1)) := by
            rw [dataoutAt_succ]
            exact inRound.2.goesOn written notLast
          exact configured.nextRound next rfl

theorem movedBefore_dataoutChannel (n : Nat) :
    (dataoutChannel schedule).movedBefore n = (takenBefore schedule n).map Prod.fst := by
  induction n with
  | zero => rfl
  | succ n ih => rw [Channel.movedBefore, takenBefore, List.map_append, ih]; rfl

theorem programmedBefore_dataoutChannel (n : Nat) :
    (dataoutChannel schedule).programmedBefore n = programmedBefore schedule n := by
  induction n with
  | zero => rfl
  | succ n ih => rw [Channel.programmedBefore, programmedBefore, ih]; rfl

/-- A channel that offers nothing moves nothing. -/
theorem silent_of_offers {n : Nat} (silent : (dataoutAt schedule n).running = false →
    (dataoutAt schedule n).offers = false) : (dataoutChannel schedule).Silent n := by
  intro idle
  change ((dataoutAt schedule n).takes (schedule n)).map Prod.fst = []
  rw [RxDataout.takes, silent idle, Bool.and_false]
  rfl

theorem dataoutDone_running {n : Nat} (done : dataoutDone schedule n = true) :
    (dataoutAt schedule n).running = true := by
  rw [dataoutDone, RxDataout.done, RxDataout.written, Bool.and_eq_true, Bool.and_eq_true,
    Bool.and_eq_true] at done
  exact done.1.1.1

/-- There is one end for each transfer that does not run any more. -/
theorem doneOnce (configured : Configured schedule) (n : Nat) :
    raisedBefore (dataoutDone schedule) n + (dataoutAt schedule n).running.toNat =
      raisedBefore (dataoutStarts schedule) n := by
  refine @Channel.ends_counted _ (dataoutChannel schedule) _ rfl ?_ ?_ n
  · intro n idle
    change (dataoutAt schedule n).running = false at idle
    refine ⟨?_, ?_⟩
    · cases done : dataoutDone schedule n with
      | false => rfl
      | true => exact absurd (idle.symm.trans (dataoutDone_running done)) Bool.false_ne_true
    · change (dataoutAt schedule (n + 1)).running = (!_ && _)
      rw [dataoutRunning_succ, idle]
      rfl
  · intro n busy
    refine ⟨(dataoutRounds configured).starts n busy, ?_⟩
    change (dataoutAt schedule n).running = true at busy
    change (dataoutAt schedule (n + 1)).running = _
    rw [dataoutRunning_succ, busy]
    rfl

/-- What has not been taken when all programmed elements have is offered. -/
theorem offers_iff (schedule : Nat → DataoutCycle aWidth transSize dataWidth) (n : Nat) :
    (dataoutAt schedule n).offers = false ↔
      (acceptedBefore schedule n).length ≤ (takenBefore schedule n).length := by
  obtain ⟨words, represents, accepted⟩ := queued schedule n
  rw [RxDataout.offers, represents.valid_eq, accepted, List.length_append, List.length_map]
  cases words with
  | nil => exact iff_of_true rfl le_rfl
  | cons word rest =>
      exact iff_of_false (fun absurd => nomatch absurd)
        (Nat.not_le.2 (Nat.lt_add_of_pos_right (Nat.succ_pos _)))

/-- A run writes back as programmed if and only if outside of a transfer no more words have
been accepted than elements been programmed. -/
theorem writesBack_iff (configured : Configured schedule) :
    WritesBack schedule ↔ NoSurplus schedule := by
  constructor
  · intro writes n idle
    have taken := congrArg List.length ((writes.complete n).1 idle)
    rw [List.length_map] at taken
    rw [← taken]
    exact (offers_iff schedule n).1 (writes.silent n idle)
  · intro noSurplus
    have rounds := dataoutRounds configured
    have silent : ∀ n, (dataoutAt schedule n).running = false →
        (dataoutAt schedule n).offers = false := by
      intro n
      induction n using Nat.strongRecOn with
      | ind n before =>
          intro idle
          have progress := rounds.progress fun m earlier => silent_of_offers (before m earlier)
          have taken := congrArg List.length (progress.idle idle)
          rw [movedBefore_dataoutChannel, programmedBefore_dataoutChannel, List.length_map] at taken
          rw [offers_iff, taken]
          exact noSurplus n idle
    have progress : ∀ n, (dataoutChannel schedule).Progress (DataoutRound schedule) n := fun n =>
      rounds.progress fun m _ => silent_of_offers (silent m)
    exact
      { silent := silent
        inOrder := fun n => by
          rw [← movedBefore_dataoutChannel, ← programmedBefore_dataoutChannel]
          exact (progress n).inOrder
        complete := fun n => by
          rw [← movedBefore_dataoutChannel, ← programmedBefore_dataoutChannel]
          exact ⟨(progress n).idle, fun same =>
            ((progress n).idle_iff rounds).2 (congrArg List.length same)⟩
        words := fun n => by
          obtain ⟨words, -, accepted⟩ := queued schedule n
          exact accepted ▸ List.prefix_append _ _
        doneOnce := doneOnce configured
        doneLast := fun n done => by
          have running := dataoutDone_running done
          rw [← movedBefore_dataoutChannel, ← programmedBefore_dataoutChannel]
          refine (progress n).last rounds running ?_
          change (dataoutAt schedule (n + 1)).running = false
          rw [dataoutRunning_succ, running, done]
          rfl }

end Runs

/-- The output of one element to address 16, and stream words in some cycles. -/
def oneElement (streamValid : Nat → Bool) (n : Nat) : DataoutCycle 15 16 32 where
  ready := true
  streamValid := streamValid n
  streamData := 7
  cfg := ⟨16, 2, 0, 0, 0, 0⟩
  cmdStart := n == 0

theorem oneElement_configured (streamValid : Nat → Bool) : Configured (oneElement streamValid) where
  mode _ _ := show (0 : BitVec 2) ≠ 3 by decide
  kept _ _ := rfl

theorem oneElement_accepted (n : Nat) :
    (acceptedBefore (oneElement (· == 1)) (n + 2)).length = 1 := by
  induction n with
  | zero => decide
  | succ n ih =>
      rw [acceptedBefore, RxDataout.accepts, List.length_append, ih]
      rfl

theorem oneElement_programmed (streamValid : Nat → Bool) (n : Nat) :
    1 ≤ (programmedBefore (oneElement streamValid) (n + 1)).length := by
  induction n with
  | zero => exact le_rfl
  | succ n ih =>
      rw [programmedBefore, List.length_append]
      exact ih.trans (Nat.le_add_right _ _)

/-- One word is written for the one element. -/
theorem oneElement_writesBack : WritesBack (oneElement (· == 1)) :=
  (writesBack_iff (oneElement_configured _)).2 fun n _ => by
    match n with
    | 0 => exact le_rfl
    | 1 => exact Nat.zero_le _
    | n + 2 => exact (oneElement_accepted n).le.trans (oneElement_programmed _ (n + 1))

/-- A second word is offered after the last element. -/
theorem secondWord_not_writesBack :
    Configured (oneElement fun n => n == 1 || n == 2) ∧
      ¬WritesBack (oneElement fun n => n == 1 || n == 2) :=
  ⟨oneElement_configured _, fun writes => absurd (writes.silent 3 (by decide)) (by decide)⟩

end CoreVMcu.Filter
