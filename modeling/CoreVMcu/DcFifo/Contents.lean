import CoreVMcu.DcFifo.TokenRingProof

/-!
# What the dual-clock FIFO holds

The words accepted and not yet transferred, and when the destination sees the oldest of
them.
-/

namespace CoreVMcu.DcFifo

open Clocked

variable {dataWidth bufferDepth : Nat}

/-- The words that a FIFO holds after a run, oldest first. -/
def contents (bufferDepth : Nat) (inputs : List (ClockEdges dataWidth)) :
    List (BitVec dataWidth) :=
  ((fifoMachine dataWidth bufferDepth).observed accepted inputs).drop
    ((fifoMachine dataWidth bufferDepth).observed transferred inputs).length

variable {inputs : List (ClockEdges dataWidth)} {edges : ClockEdges dataWidth}

/-- Words are read at one end and written at the other. -/
theorem contents_snoc (deep : 4 ≤ bufferDepth) (inputs : List (ClockEdges dataWidth))
    (edges : ClockEdges dataWidth) :
    contents bufferDepth (inputs ++ [edges]) =
      (contents bufferDepth inputs).drop
          (transferred ((fifoMachine dataWidth bufferDepth).run inputs) edges).length ++
        accepted ((fifoMachine dataWidth bufferDepth).run inputs) edges := by
  have destination := ((fifoTracks deep inputs).destinationStep deep edges).1
  obtain ⟨synced, middle, -, -, below, order, bound⟩ := destination.views
  rw [contents, contents, Machine.observed_snoc, Machine.observed_snoc, List.length_append,
    List.drop_append_of_le_length (by omega), List.drop_drop]

/-- What was accepted has been read or is held. -/
theorem transferred_append_contents (deep : 4 ≤ bufferDepth)
    (inputs : List (ClockEdges dataWidth)) :
    (fifoMachine dataWidth bufferDepth).observed transferred inputs ++
        contents bufferDepth inputs =
      (fifoMachine dataWidth bufferDepth).observed accepted inputs := by
  rw [(fifoTracks deep inputs).inOrder, contents]
  exact List.take_append_drop ..

/-- A FIFO never holds more words than its buffer. -/
theorem length_contents_lt (deep : 4 ≤ bufferDepth) (inputs : List (ClockEdges dataWidth)) :
    (contents bufferDepth inputs).length < bufferDepth := by
  have room := (fifoTracks deep inputs).source.room
  rw [contents, List.length_drop]
  omega

/-- The word that the destination sees is the oldest one. -/
theorem contents_of_valid (deep : 4 ≤ bufferDepth) (inputs : List (ClockEdges dataWidth))
    (valid : ((fifoMachine dataWidth bufferDepth).run inputs).dout.valid = true) :
    ∃ rest, contents bufferDepth inputs =
      ((fifoMachine dataWidth bufferDepth).run inputs).din.dataAsync
        ((fifoMachine dataWidth bufferDepth).run inputs).dout.readPointer :: rest := by
  have tracks := fifoTracks deep inputs
  have unread := (tracks.destination.step deep true).1 valid
  have stored := tracks.source.holds _ _ le_rfl (List.getElem?_eq_getElem unread)
  rw [contents, List.drop_eq_getElem_cons unread, ← stored, TokenRingDin.dataAsync,
    readPointer_eq deep tracks.destination.token, onehotToBin_hot (by omega)]
  exact ⟨_, rfl⟩

/-! ## The oldest word comes into sight -/

/-- How far the destination has come towards seeing the oldest word: it is written, its
write token is in the first flip-flop, it is offered. -/
inductive Sight (bufferDepth : Nat) (inputs : List (ClockEdges dataWidth)) : Nat → Prop where
  | written (waits : contents bufferDepth inputs ≠ []) : Sight bufferDepth inputs 0
  | synchronised {middle : Nat}
      (seen : ((fifoMachine dataWidth bufferDepth).run inputs).dout.emptySynch.dMiddle =
        twoHot bufferDepth (middle + 2))
      (unread : ((fifoMachine dataWidth bufferDepth).observed transferred inputs).length < middle)
      (bound : middle ≤ ((fifoMachine dataWidth bufferDepth).observed accepted inputs).length) :
      Sight bufferDepth inputs 1
  | offered (valid : ((fifoMachine dataWidth bufferDepth).run inputs).dout.valid = true) :
      Sight bufferDepth inputs 2

/-- A token in the second flip-flop that is ahead of the read token offers a word. -/
theorem valid_of_ahead (deep : 4 ≤ bufferDepth) {dout : TokenRingDout bufferDepth}
    {synced taken : Nat} (token : dout.readToken = twoHot bufferDepth taken)
    (view : dout.emptySynch.dOut = twoHot bufferDepth (synced + 2)) (ahead : taken < synced)
    (room : synced < taken + bufferDepth) : dout.valid = true := by
  rw [valid_eq deep token view, Bool.not_eq_true', decide_eq_false_iff_not]
  intro same
  obtain ⟨distance, rfl⟩ := Nat.exists_eq_add_of_lt ahead
  have positive : (distance + 1) % bufferDepth = distance + 1 := Nat.mod_eq_of_lt (by omega)
  have congruent : (taken + 1 + (distance + 1)) % bufferDepth = (taken + 1 + 0) % bufferDepth := by
    rw [Nat.add_zero, ← same]
    congr 1
    omega
  have zero := Nat.ModEq.add_left_cancel' (taken + 1) congruent
  rw [Nat.ModEq, positive, Nat.zero_mod] at zero
  exact absurd zero (Nat.succ_ne_zero distance)

/-- A word that is offered has its write token in the first flip-flop as well. -/
theorem DestinationTracks.ahead (deep : 4 ≤ bufferDepth) {dout : TokenRingDout bufferDepth}
    {written taken : Nat} (tracks : DestinationTracks dout written taken)
    (valid : dout.valid = true) : ∃ middle,
      dout.emptySynch.dMiddle = twoHot bufferDepth (middle + 2) ∧ taken < middle ∧
        middle ≤ written := by
  obtain ⟨synced, middle, out, mid, below, order, bound⟩ := tracks.views
  refine ⟨middle, mid, ?_, bound⟩
  rw [valid_eq deep tracks.token out, Bool.not_eq_true', decide_eq_false_iff_not] at valid
  rcases Nat.lt_or_eq_of_le below with less | equal
  · exact Nat.lt_of_lt_of_le less order
  · rw [equal] at valid
    exact absurd rfl valid

theorem dout_step (fifo : TokenRingFifo dataWidth bufferDepth) (edges : ClockEdges dataWidth) :
    ((fifoMachine dataWidth bufferDepth).step fifo edges).dout =
      match edges.destination with
      | some ready => fifo.dout.step fifo.din.writeToken ready
      | none => fifo.dout := rfl

/-- A word that is not read comes nearer with every edge of the destination clock. -/
theorem Sight.step (deep : 4 ≤ bufferDepth) {stage : Nat} (sight : Sight bufferDepth inputs stage)
    (kept : transferred ((fifoMachine dataWidth bufferDepth).run inputs) edges = []) :
    ∃ next, Sight bufferDepth (inputs ++ [edges]) next ∧
      min 2 (stage + edges.destination.isSome.toNat) ≤ next := by
  have tracks := fifoTracks deep inputs
  have room := tracks.source.room
  have taken : (fifoMachine dataWidth bufferDepth).observed transferred (inputs ++ [edges]) =
      (fifoMachine dataWidth bufferDepth).observed transferred inputs := by
    rw [Machine.observed_snoc, kept, List.append_nil]
  have written : ((fifoMachine dataWidth bufferDepth).observed accepted inputs).length ≤
      ((fifoMachine dataWidth bufferDepth).observed accepted (inputs ++ [edges])).length := by
    rw [Machine.observed_snoc, List.length_append]
    exact Nat.le_add_right ..
  cases destination : edges.destination with
  | none =>
      have same : ((fifoMachine dataWidth bufferDepth).run (inputs ++ [edges])).dout =
          ((fifoMachine dataWidth bufferDepth).run inputs).dout := by
        rw [Machine.run_snoc, dout_step, destination]
      cases sight with
      | written waits =>
          refine ⟨0, .written ?_, Nat.min_le_right ..⟩
          rw [contents_snoc deep, kept]
          exact List.append_ne_nil_of_left_ne_nil waits _
      | synchronised seen unread bound =>
          exact ⟨1, .synchronised (same ▸ seen) (taken ▸ unread) (bound.trans written),
            Nat.min_le_right ..⟩
      | offered valid => exact ⟨2, .offered (same ▸ valid), Nat.min_le_left ..⟩
  | some ready =>
      have notRead : ((fifoMachine dataWidth bufferDepth).run inputs).dout.readEnable ready =
          false := by
        cases enabled :
            ((fifoMachine dataWidth bufferDepth).run inputs).dout.readEnable ready with
        | false => rfl
        | true =>
            simp only [transferred, destination, enabled, if_true] at kept
            cases kept
      have stepped : ((fifoMachine dataWidth bufferDepth).run (inputs ++ [edges])).dout =
          { ((fifoMachine dataWidth bufferDepth).run inputs).dout with
            emptySynch := ((fifoMachine dataWidth bufferDepth).run inputs).dout.emptySynch.step
              ((fifoMachine dataWidth bufferDepth).run inputs).din.writeToken } := by
        rw [Machine.run_snoc, dout_step, destination]
        simp only [TokenRingDout.step, notRead, Bool.false_eq_true, if_false]
      have offers : ∀ {middle : Nat},
          ((fifoMachine dataWidth bufferDepth).run inputs).dout.emptySynch.dMiddle =
            twoHot bufferDepth (middle + 2) →
          ((fifoMachine dataWidth bufferDepth).observed transferred inputs).length < middle →
          middle ≤ ((fifoMachine dataWidth bufferDepth).observed accepted inputs).length →
          Sight bufferDepth (inputs ++ [edges]) 2 := by
        intro middle seen unread bound
        refine .offered ?_
        rw [stepped]
        exact valid_of_ahead deep tracks.destination.token seen unread (by omega)
      cases sight with
      | written waits =>
          refine ⟨1, .synchronised ?_ ?_ written, Nat.min_le_right ..⟩
          · rw [stepped]
            exact tracks.source.token
          · rw [taken]
            exact List.drop_eq_nil_iff.not.mp waits |> Nat.lt_of_not_le
      | synchronised seen unread bound => exact ⟨2, offers seen unread bound, Nat.min_le_left ..⟩
      | offered valid =>
          obtain ⟨middle, seen, unread, bound⟩ := tracks.destination.ahead deep valid
          exact ⟨2, offers seen unread bound, Nat.min_le_left ..⟩

/-- A word that is offered and not read is still offered. -/
theorem valid_stays (deep : 4 ≤ bufferDepth)
    (valid : ((fifoMachine dataWidth bufferDepth).run inputs).dout.valid = true)
    (kept : transferred ((fifoMachine dataWidth bufferDepth).run inputs) edges = []) :
    ((fifoMachine dataWidth bufferDepth).run (inputs ++ [edges])).dout.valid = true := by
  obtain ⟨next, sight, bound⟩ := (Sight.offered valid).step deep kept
  cases sight with
  | offered valid => exact valid
  | written waits => omega
  | synchronised seen unread bound => omega

end CoreVMcu.DcFifo
