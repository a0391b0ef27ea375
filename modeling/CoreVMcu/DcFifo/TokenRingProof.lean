import CoreVMcu.DcFifo.TokenRing

/-!
# The token-ring FIFO is a FIFO

The tokens stand for two counters: the number of words written and the number of
words read.  The source side is conservative because the full detector raises its
verdict while two slots are still free, which covers the two edges that the
verdict needs to arrive.  The destination side is conservative because its view
of the write token is old.
-/

namespace CoreVMcu.DcFifo

open Clocked

variable {dataWidth bufferDepth : Nat}

/-! ## Pointers as counters -/

theorem onehotToBin_hot (positive : 0 < bufferDepth) (k : Nat) :
    onehotToBin (hot bufferDepth k) = k % bufferDepth := by
  have scanned : ∀ m ≤ bufferDepth, (List.range m).foldl
      (fun bin index => if (hot bufferDepth k).getLsbD index then bin ||| index else bin) 0 =
        if k % bufferDepth < m then k % bufferDepth else 0 := by
    intro m
    induction m with
    | zero => simp
    | succ m inductionHypothesis =>
        intro bound
        rw [List.range_succ, List.foldl_append, inductionHypothesis (by omega)]
        simp only [List.foldl_cons, List.foldl_nil, getLsbD_hot bound, decide_eq_true_eq]
        by_cases here : k % bufferDepth = m
        · rw [if_pos here, if_neg (by omega), if_pos (by omega), Nat.zero_or, here]
        · rw [if_neg here]
          exact if_congr (by omega) rfl rfl
  rw [onehotToBin, scanned bufferDepth le_rfl, if_pos (Nat.mod_lt k positive)]

/-- The slot of the `j`-th word. -/
def ringSlot (bufferDepth j : Nat) : Nat := (j + 3) % bufferDepth

theorem distinctSlots_ringSlot : DistinctSlots bufferDepth (ringSlot bufferDepth) := by
  have offset : ringSlot bufferDepth = fun j => (3 + j) % bufferDepth :=
    funext fun j => by rw [ringSlot, Nat.add_comm]
  rw [offset]
  exact distinctSlots_offset 3

theorem writePointer_eq {din : TokenRingDin dataWidth bufferDepth} {written : Nat}
    (deep : 4 ≤ bufferDepth) (token : din.writeToken = twoHot bufferDepth (written + 2)) :
    din.writePointer = hot bufferDepth (written + 3) := by
  rw [TokenRingDin.writePointer, token, twoHot_rotateLeft _ (by omega),
    twoHot_and_twoHot_succ _ (by omega)]

theorem readPointer_eq {dout : TokenRingDout bufferDepth} {taken : Nat}
    (deep : 4 ≤ bufferDepth) (token : dout.readToken = twoHot bufferDepth taken) :
    dout.readPointer = hot bufferDepth (taken + 3) := by
  rw [TokenRingDout.readPointer, token, twoHot_rotateLeft _ (by omega),
    twoHot_rotateLeft _ (by omega), BitVec.and_comm, twoHot_and_twoHot_succ _ (by omega)]

/-- The destination sees the FIFO empty exactly when its view of the write
counter agrees with the read counter on the ring. -/
theorem valid_eq {dout : TokenRingDout bufferDepth} {synced taken : Nat}
    (deep : 4 ≤ bufferDepth) (token : dout.readToken = twoHot bufferDepth taken)
    (view : dout.emptySynch.dOut = twoHot bufferDepth (synced + 2)) :
    dout.valid = !decide ((synced + 1) % bufferDepth = (taken + 1) % bufferDepth) := by
  have lower : (twoHot bufferDepth (synced + 2)).rotateRight 1 = twoHot bufferDepth (synced + 1) :=
    twoHot_rotateRight (synced + 1) 1 (by omega)
  have first : ~~~twoHot bufferDepth (synced + 2) &&& twoHot bufferDepth (synced + 1) =
      hot bufferDepth (synced + 1) := not_twoHot_succ_and_twoHot (synced + 1) (by omega)
  have target : (hot bufferDepth (taken + 3)).rotateRight 2 = hot bufferDepth (taken + 1) :=
    hot_rotateRight (taken + 1) 2 (by omega)
  rw [TokenRingDout.valid, TokenRingDout.empty, readPointer_eq deep token, view, lower, target,
    first, anyBit, hot_and_hot_ne_zero (by omega)]

/-- The full detector fires when at most two slots are free. -/
theorem fullDn_of_nearlyFull {din : TokenRingDin dataWidth bufferDepth} {written taken : Nat}
    (deep : 4 ≤ bufferDepth) (token : din.writeToken = twoHot bufferDepth (written + 2))
    (room : written < taken + bufferDepth) (nearlyFull : taken + bufferDepth ≤ written + 3) :
    din.fullDn (hot bufferDepth (taken + 3)) = true := by
  have meets : ∀ r, written + r = taken + bufferDepth →
      (taken + 3) % bufferDepth = (written + 3 + r) % bufferDepth := by
    intro r equal
    rw [show written + 3 + r = taken + 3 + bufferDepth by omega, Nat.add_mod_right]
  rw [TokenRingDin.fullDn, writePointer_eq deep token, hot_rotateLeft _ (by omega),
    hot_rotateLeft _ (by omega), hot_rotateLeft _ (by omega), anyBit, anyBit, anyBit,
    hot_and_hot_ne_zero (by omega), hot_and_hot_ne_zero (by omega),
    hot_and_hot_ne_zero (by omega)]
  simp only [Bool.or_eq_true, decide_eq_true_eq]
  rcases (by omega : written + 1 = taken + bufferDepth ∨ written + 2 = taken + bufferDepth ∨
    written + 3 = taken + bufferDepth) with one | two | three
  · exact .inl (.inl (meets 1 one))
  · exact .inl (.inr (meets 2 two))
  · exact .inr (meets 3 three)

/-- The source side after `written` was accepted and `taken` words were read. -/
structure SourceTracks (din : TokenRingDin dataWidth bufferDepth)
    (written : List (BitVec dataWidth)) (taken : Nat) : Prop where
  token : din.writeToken = twoHot bufferDepth (written.length + 2)
  room : written.length < taken + bufferDepth
  seenMiddle : taken + bufferDepth ≤ written.length + 2 → din.fullSynch.dMiddle = true
  seenOut : taken + bufferDepth ≤ written.length + 1 → din.fullSynch.dOut = true
  latched : taken + bufferDepth ≤ written.length + 1 → din.latchedFull = true
  holds : Holds (ringSlot bufferDepth) din.buffer written taken

variable {din : TokenRingDin dataWidth bufferDepth} {written : List (BitVec dataWidth)}
  {taken : Nat}

/-- Reading words leaves the source side conservative. -/
theorem SourceTracks.mono {later : Nat} (tracks : SourceTracks din written taken)
    (le : taken ≤ later) : SourceTracks din written later where
  token := tracks.token
  room := by have room := tracks.room; omega
  seenMiddle full := tracks.seenMiddle (by omega)
  seenOut full := tracks.seenOut (by omega)
  latched full := tracks.latched (by omega)
  holds := tracks.holds.mono le

/-- A word is accepted only while two slots are free. -/
theorem SourceTracks.room_of_writeEnable (tracks : SourceTracks din written taken) {valid : Bool}
    (enabled : din.writeEnable valid = true) : written.length + 1 < taken + bufferDepth := by
  by_contra full
  have latched := tracks.latched (by omega)
  have seen := tracks.seenOut (by omega)
  simp [TokenRingDin.writeEnable, TokenRingDin.ready, TokenRingDin.stall, latched, seen]
    at enabled

/-- One edge of the source clock. -/
theorem SourceTracks.step (deep : 4 ≤ bufferDepth) (tracks : SourceTracks din written taken)
    (valid : Bool) (data : BitVec dataWidth) :
    SourceTracks (din.step (hot bufferDepth (taken + 3)) valid data)
      (written ++ if din.writeEnable valid then [data] else []) taken := by
  have fires := fun nearlyFull => fullDn_of_nearlyFull deep tracks.token tracks.room nearlyFull
  cases enabled : din.writeEnable valid with
  | false =>
      simp only [TokenRingDin.step, enabled, Bool.false_eq_true, if_false, List.append_nil]
      exact
        { token := tracks.token
          room := tracks.room
          seenMiddle := fun full => fires (by omega)
          seenOut := fun full => tracks.seenMiddle (by omega)
          latched := fun full => by simp [tracks.seenOut full]
          holds := tracks.holds }
  | true =>
      have room := tracks.room_of_writeEnable enabled
      have pointer := writePointer_eq deep tracks.token
      simp only [TokenRingDin.step, enabled, if_true]
      refine
        { token := ?_
          room := by simp only [List.length_append, List.length_singleton]; omega
          seenMiddle := fun full => fires ?_
          seenOut := fun full => tracks.seenMiddle ?_
          latched := fun full => ?_
          holds := ?_ }
      · rw [tracks.token, twoHot_rotateLeft _ (by omega), List.length_append]
        rfl
      · simp only [List.length_append, List.length_singleton] at full
        omega
      · simp only [List.length_append, List.length_singleton] at full
        omega
      · simp only [TokenRingDin.writeEnable, Bool.and_eq_true] at enabled
        simp [enabled.1]
      · rw [pointer, onehotToBin_hot (by omega)]
        exact tracks.holds.store distinctSlots_ringSlot (by omega) data

/-! ## The destination side -/

/-- The destination side after `written` words were accepted and `taken` words
were read: its view of the write counter is somewhere between the two. -/
structure DestinationTracks (dout : TokenRingDout bufferDepth) (written taken : Nat) : Prop where
  token : dout.readToken = twoHot bufferDepth taken
  views : ∃ synced middle, dout.emptySynch.dOut = twoHot bufferDepth (synced + 2) ∧
    dout.emptySynch.dMiddle = twoHot bufferDepth (middle + 2) ∧
    taken ≤ synced ∧ synced ≤ middle ∧ middle ≤ written

variable {dout : TokenRingDout bufferDepth}

/-- Writing words leaves the destination side conservative. -/
theorem DestinationTracks.mono {before later : Nat} (tracks : DestinationTracks dout before taken)
    (le : before ≤ later) : DestinationTracks dout later taken where
  token := tracks.token
  views := by
    obtain ⟨synced, middle, out, mid, taken, order, bound⟩ := tracks.views
    exact ⟨synced, middle, out, mid, taken, order, Nat.le_trans bound le⟩

/-- One edge of the destination clock.  A word is offered only when one is
unread. -/
theorem DestinationTracks.step {count : Nat} (deep : 4 ≤ bufferDepth)
    (tracks : DestinationTracks dout count taken) (ready : Bool) :
    (dout.valid = true → taken < count) ∧
      DestinationTracks (dout.step (twoHot bufferDepth (count + 2)) ready) count
        (if dout.readEnable ready then taken + 1 else taken) := by
  obtain ⟨synced, middle, out, mid, below, order, bound⟩ := tracks.views
  have unread : dout.valid = true → taken < synced := by
    intro offered
    rw [valid_eq deep tracks.token out, Bool.not_eq_true', decide_eq_false_iff_not] at offered
    rcases Nat.lt_or_eq_of_le below with less | equal
    · exact less
    · rw [equal] at offered
      exact absurd rfl offered
  refine ⟨fun offered => Nat.lt_of_lt_of_le (unread offered) (by omega), ?_⟩
  cases enabled : dout.readEnable ready with
  | false =>
      simp only [TokenRingDout.step, enabled, Bool.false_eq_true, if_false]
      exact ⟨tracks.token, middle, count, mid, rfl, by omega, bound, le_rfl⟩
  | true =>
      have offered : dout.valid = true := by
        simp only [TokenRingDout.readEnable, Bool.and_eq_true] at enabled
        exact enabled.1
      have less := unread offered
      simp only [TokenRingDout.step, enabled, if_true]
      refine ⟨?_, middle, count, mid, rfl, by omega, bound, le_rfl⟩
      rw [tracks.token, twoHot_rotateLeft _ (by omega)]

/-- Both sides track the words accepted and transferred so far. -/
structure FifoTracks (inputs : List (ClockEdges dataWidth))
    (fifo : TokenRingFifo dataWidth bufferDepth) : Prop where
  source : SourceTracks fifo.din ((fifoMachine dataWidth bufferDepth).observed accepted inputs)
    ((fifoMachine dataWidth bufferDepth).observed transferred inputs).length
  destination : DestinationTracks fifo.dout
    ((fifoMachine dataWidth bufferDepth).observed accepted inputs).length
    ((fifoMachine dataWidth bufferDepth).observed transferred inputs).length
  inOrder : (fifoMachine dataWidth bufferDepth).observed transferred inputs =
    ((fifoMachine dataWidth bufferDepth).observed accepted inputs).take
      ((fifoMachine dataWidth bufferDepth).observed transferred inputs).length
  slots : (fifoMachine dataWidth bufferDepth).observed writtenSlots inputs =
    (List.range ((fifoMachine dataWidth bufferDepth).observed accepted inputs).length).map
      (ringSlot bufferDepth)

/-- The reset values of the tokens. -/
theorem resetToken (k : Nat) (inside : k + 1 < bufferDepth) :
    BitVec.ofNat bufferDepth (2 ^ k * 3) = twoHot bufferDepth k := by
  apply BitVec.eq_of_getLsbD_eq
  intro i bound
  rw [getLsbD_twoHot bound, Nat.mod_eq_of_lt (by omega), Nat.mod_eq_of_lt (by omega),
    BitVec.getLsbD_ofNat, decide_eq_true bound, Bool.true_and, Nat.testBit_two_pow_mul]
  by_cases low : k ≤ i
  · obtain ⟨d, rfl⟩ := Nat.exists_eq_add_of_le low
    match d with
    | 0 => simp
    | 1 => simp [Nat.testBit]
    | d + 2 =>
        have high : Nat.testBit 3 (d + 2) = false :=
          Nat.testBit_lt_two_pow (Nat.lt_of_lt_of_le (by omega : 3 < 2 ^ 2)
            (Nat.pow_le_pow_right (by omega) (by omega)))
        simp [high]
  · simp [low]
    omega

theorem fifoTracks_reset (deep : 4 ≤ bufferDepth) :
    FifoTracks [] (fifoMachine dataWidth bufferDepth).init where
  source :=
    { token := resetToken 2 (by omega)
      room := by simp; omega
      seenMiddle := fun full => by simp at full; omega
      seenOut := fun full => by simp at full; omega
      latched := fun full => by simp at full; omega
      holds := Holds.nil }
  destination :=
    { token := resetToken 0 (by omega)
      views := ⟨0, 0, resetToken 2 (by omega), resetToken 2 (by omega), le_rfl, le_rfl, le_rfl⟩ }
  inOrder := rfl
  slots := rfl

/-- The source side over one instant, with the read pointer from before it. -/
theorem FifoTracks.sourceStep (deep : 4 ≤ bufferDepth) {inputs : List (ClockEdges dataWidth)}
    {fifo : TokenRingFifo dataWidth bufferDepth} (tracks : FifoTracks inputs fifo)
    (edges : ClockEdges dataWidth) :
    SourceTracks ((fifoMachine dataWidth bufferDepth).step fifo edges).din
      ((fifoMachine dataWidth bufferDepth).observed accepted inputs ++ accepted fifo edges)
      ((fifoMachine dataWidth bufferDepth).observed transferred inputs).length := by
  simp only [fifoMachine, accepted]
  cases edges.source with
  | none =>
      rw [List.append_nil]
      exact tracks.source
  | some sampled =>
      obtain ⟨valid, data⟩ := sampled
      rw [readPointer_eq deep tracks.destination.token]
      exact tracks.source.step deep valid data

/-- The destination side over one instant, with the write token from before it:
a word that is transferred is the next unread one. -/
theorem FifoTracks.destinationStep (deep : 4 ≤ bufferDepth)
    {inputs : List (ClockEdges dataWidth)} {fifo : TokenRingFifo dataWidth bufferDepth}
    (tracks : FifoTracks inputs fifo) (edges : ClockEdges dataWidth) :
    DestinationTracks ((fifoMachine dataWidth bufferDepth).step fifo edges).dout
        ((fifoMachine dataWidth bufferDepth).observed accepted inputs).length
        (((fifoMachine dataWidth bufferDepth).observed transferred inputs).length +
          (transferred fifo edges).length) ∧
      (fifoMachine dataWidth bufferDepth).observed transferred inputs ++
          transferred fifo edges =
        ((fifoMachine dataWidth bufferDepth).observed accepted inputs).take
          (((fifoMachine dataWidth bufferDepth).observed transferred inputs).length +
            (transferred fifo edges).length) := by
  simp only [fifoMachine, transferred]
  cases edges.destination with
  | none =>
      rw [List.append_nil]
      exact ⟨tracks.destination, tracks.inOrder⟩
  | some ready =>
      have stepped := tracks.destination.step deep ready
      simp only [tracks.source.token]
      cases enabled : fifo.dout.readEnable ready with
      | false =>
          simp only [enabled, Bool.false_eq_true, if_false] at stepped ⊢
          rw [List.append_nil]
          exact ⟨stepped.2, tracks.inOrder⟩
      | true =>
          have offered : fifo.dout.valid = true := by
            simp only [TokenRingDout.readEnable, Bool.and_eq_true] at enabled
            exact enabled.1
          simp only [enabled, if_true] at stepped ⊢
          refine ⟨stepped.2, ?_⟩
          have next := tracks.source.holds.next (stepped.1 offered)
          rw [TokenRingDin.dataAsync, readPointer_eq deep tracks.destination.token,
            onehotToBin_hot (by omega)]
          exact (congrArg (· ++ _) tracks.inOrder).trans next.symm

/-- At most one word is accepted at an instant. -/
theorem accepted_cases (fifo : TokenRingFifo dataWidth bufferDepth)
    (edges : ClockEdges dataWidth) :
    accepted fifo edges = [] ∨ ∃ word, accepted fifo edges = [word] := by
  unfold accepted
  split
  next valid data _ => cases fifo.din.writeEnable valid <;> simp
  next => exact .inl rfl

theorem fifoTracks (deep : 4 ≤ bufferDepth) (inputs : List (ClockEdges dataWidth)) :
    FifoTracks inputs ((fifoMachine dataWidth bufferDepth).run inputs) := by
  induction inputs using List.reverseRecOn with
  | nil => exact fifoTracks_reset deep
  | append_singleton inputs edges inductionHypothesis =>
      have source := inductionHypothesis.sourceStep deep edges
      have destination := inductionHypothesis.destinationStep deep edges
      rw [Machine.run_snoc]
      constructor
      case source =>
        rw [Machine.observed_snoc, Machine.observed_snoc, List.length_append]
        exact source.mono (Nat.le_add_right _ _)
      case destination =>
        rw [Machine.observed_snoc, Machine.observed_snoc, List.length_append,
          List.length_append]
        exact destination.1.mono (Nat.le_add_right _ _)
      case inOrder =>
        obtain ⟨synced, middle, -, -, below, order, bound⟩ := destination.1.views
        rw [Machine.observed_snoc, Machine.observed_snoc, List.length_append,
          List.take_append_of_le_length (by omega)]
        exact destination.2
      case slots =>
        rw [Machine.observed_snoc, Machine.observed_snoc, inductionHypothesis.slots,
          List.length_append, writtenSlots,
          writePointer_eq deep inductionHypothesis.source.token, onehotToBin_hot (by omega)]
        rcases accepted_cases ((fifoMachine dataWidth bufferDepth).run inputs) edges with
          none | ⟨word, single⟩
        · rw [none, List.map_nil, List.append_nil, List.length_nil, Nat.add_zero]
        · rw [single, List.length_singleton, List.range_succ, List.map_append]
          rfl

/-- For every depth from four on, every word width and every interleaving of the
clock edges with any `valid` and `ready`: the words transferred are a prefix of
the words accepted, no unread slot is written, and `valid` is raised only over an
unread word. -/
theorem tokenRing_isFifo (deep : 4 ≤ bufferDepth) (inputs : List (ClockEdges dataWidth)) :
    FifoIsFifo dataWidth bufferDepth inputs := by
  have tracks := fifoTracks deep inputs
  constructor
  case inOrder =>
    rw [tracks.inOrder]
    exact List.take_prefix _ _
  case noOverwrite =>
    intro valid enabled
    have room := tracks.source.room_of_writeEnable enabled
    rw [tracks.slots, writePointer_eq deep tracks.source.token, onehotToBin_hot (by omega)]
    exact distinctSlots_ringSlot.fresh (by omega)
  case validUnread => exact (tracks.destination.step deep true).1

/-- Three words are written into four slots while the destination clock ticks
twice, once together with the source clock, and are then read. -/
def threeWords : List (ClockEdges 8) :=
  [⟨some (true, 1#8), none⟩, ⟨some (true, 2#8), some true⟩, ⟨some (true, 3#8), none⟩,
   ⟨none, some true⟩, ⟨some (false, 4#8), some true⟩, ⟨none, some false⟩, ⟨none, some true⟩]

theorem threeWords_isFifo :
    FifoIsFifo 8 4 threeWords ∧
      (fifoMachine 8 4).observed transferred threeWords = [1#8, 2#8] :=
  ⟨tokenRing_isFifo (by decide) threeWords, by decide⟩

end CoreVMcu.DcFifo
