import CoreVMcu.Filter.FetchRounds

/-!
# The marks of fetched words

`io_tx_fifo_mark` numbers its outstanding requests and keeps the number of the last one with a
mark.  A response is marked when that number is one, so the mark of an element is lost when
another element with the same mark is granted before the response comes.
-/

namespace CoreVMcu.Filter

open Clocked Udma

variable {aWidth transSize dataWidth : Nat}

/-- The position of the last mark, counted from one, or zero if there is none. -/
def lastMark : List Bool → Nat
  | [] => 0
  | mark :: later => if lastMark later = 0 then mark.toNat else lastMark later + 1

theorem lastMark_le (marks : List Bool) : lastMark marks ≤ marks.length := by
  induction marks with
  | nil => exact le_rfl
  | cons mark later ih =>
      rw [lastMark, List.length_cons]
      split
      · exact (Bool.toNat_le mark).trans (Nat.le_add_left 1 _)
      · exact Nat.succ_le_succ ih

theorem lastMark_snoc (marks : List Bool) (mark : Bool) :
    lastMark (marks ++ [mark]) = if mark then marks.length + 1 else lastMark marks := by
  induction marks with
  | nil => cases mark <;> rfl
  | cons first marks ih =>
      rw [List.cons_append, lastMark, ih]
      cases mark with
      | true => rfl
      | false => rfl

/-- Without the oldest element the last mark is one position further to the front. -/
theorem lastMark_tail (marks : List Bool) : lastMark (marks.drop 1) = lastMark marks - 1 := by
  cases marks with
  | nil => rfl
  | cons mark later =>
      rw [List.drop_one, List.tail_cons, lastMark]
      split
      · next none => rw [none]; cases mark <;> rfl
      · rfl

theorem lastMark_eq_zero_iff (marks : List Bool) :
    lastMark marks = 0 ↔ ∀ mark ∈ marks, mark = false := by
  induction marks with
  | nil => exact iff_of_true rfl fun _ absent => nomatch absent
  | cons mark later ih =>
      rw [lastMark, List.forall_mem_cons, ← ih]
      cases (inferInstance : Decidable (lastMark later = 0)) with
      | isTrue none => rw [if_pos none]; cases mark <;> simp [none]
      | isFalse some =>
          rw [if_neg some]
          exact iff_of_false (Nat.succ_ne_zero _) fun both => some both.2

/-- The last mark is that of the oldest element. -/
theorem lastMark_eq_one_iff (mark : Bool) (later : List Bool) :
    lastMark (mark :: later) = 1 ↔ mark = true ∧ ∀ other ∈ later, other = false := by
  rw [lastMark, ← lastMark_eq_zero_iff]
  cases (inferInstance : Decidable (lastMark later = 0)) with
  | isTrue none => rw [if_pos none]; cases mark <;> simp [none]
  | isFalse some =>
      rw [if_neg some]
      exact iff_of_false (fun one => some (Nat.succ.inj one)) fun both => some both.2

section Fifo

variable {Word : Type}

/-- The FIFO has the given words, and room for the outstanding ones. -/
structure Credits (fifo : TxFifo 4 2 Word) (words : List Word) (count : Nat) : Prop where
  represents : IoGenericFifo.Represents 4 fifo.fifo words
  credit : fifo.Credit count

variable {fifo : TxFifo 4 2 Word} {words : List Word} {count : Nat}

theorem Credits.inflight (credits : Credits fifo words count) :
    fifo.rInflight = BitVec.ofNat 3 count := by
  rw [← credits.credit.counter, BitVec.ofNat_toNat, BitVec.setWidth_eq]

theorem Credits.room (credits : Credits fifo words count) : words.length + count ≤ 4 := by
  rw [← credits.represents.elements]
  exact credits.credit.bounded

theorem ofNat_small {left right : Nat} (leftSmall : left ≤ 4) (rightSmall : right ≤ 4) :
    BitVec.ofNat 3 left = BitVec.ofNat 3 right ↔ left = right := by
  rw [← BitVec.toNat_inj, BitVec.toNat_ofNat, BitVec.toNat_ofNat, Nat.mod_eq_of_lt (by omega),
    Nat.mod_eq_of_lt (by omega)]

theorem ofNat_pred {count : Nat} (positive : 0 < count) :
    BitVec.ofNat 3 count - 1 = BitVec.ofNat 3 (count - 1) := by
  obtain ⟨rest, rfl⟩ := Nat.exists_eq_succ_of_ne_zero positive.ne'
  rw [Nat.succ_eq_add_one, BitVec.ofNat_add, Nat.add_sub_cancel]
  exact add_sub_cancel_right _ _

theorem Credits.accepts (credits : Credits fifo words count) {validIn : Bool}
    (answers : validIn = true → 0 < count) : (validIn && fifo.ready) = validIn := by
  cases valid : validIn with
  | false => rfl
  | true => exact credits.credit.ready (answers valid)

theorem grants_eq {gnt : Bool} (granted : gnt = true → fifo.req = true) :
    (fifo.req && gnt) = gnt := by
  cases grant : gnt with
  | false => exact Bool.and_false _
  | true => rw [granted grant]; rfl

section Step

variable (credits : Credits fifo words count) {gnt validIn : Bool}
variable (granted : gnt = true → fifo.req = true) (answers : validIn = true → 0 < count)
include credits granted answers

theorem Credits.step (dataIn : Word) (readyIn : Bool) :
    Credits (fifo.step ⟨false, gnt, validIn, dataIn, readyIn⟩)
      (words.drop (readyIn && fifo.fifo.valid).toNat ++ if validIn then [dataIn] else [])
      (count - validIn.toNat + gnt.toNat) where
  represents := by
    have next := credits.represents.step validIn dataIn readyIn
    have accepts := credits.accepts answers
    rw [TxFifo.ready] at accepts
    rw [accepts] at next
    exact next
  credit := by
    obtain ⟨next, credit, balance⟩ :=
      credits.credit.step (by decide) ⟨false, gnt, validIn, dataIn, readyIn⟩ answers
    rw [grants_eq granted] at balance
    have counted : next = count - validIn.toNat + gnt.toNat := by
      cases valid : validIn with
      | false =>
          rw [valid] at balance
          exact balance
      | true =>
          have some := answers valid
          rw [valid, Bool.toNat_true] at balance
          rw [Bool.toNat_true]
          omega
    exact counted ▸ credit

/-- A mark counter is the position of the last mark among the outstanding requests. -/
theorem Credits.markCntNext {marks : List Bool} (length : marks.length = count) (mark : Bool) :
    markCntNext fifo (gnt && mark) gnt validIn (BitVec.ofNat 3 (lastMark marks)) =
      BitVec.ofNat 3 (lastMark (marks.drop validIn.toNat ++ if gnt then [mark] else [])) := by
  have accepts := credits.accepts answers
  have small : lastMark marks ≤ 4 := by
    have bounded := lastMark_le marks
    have room := credits.room
    omega
  -- without a new mark the counter follows the responses
  have follows : (if BitVec.ofNat 3 (lastMark marks) != 0 && (validIn && fifo.ready) then
      BitVec.ofNat 3 (lastMark marks) - 1 else BitVec.ofNat 3 (lastMark marks)) =
      BitVec.ofNat 3 (lastMark (marks.drop validIn.toNat)) := by
    rw [accepts]
    cases validIn with
    | false => rw [Bool.and_false]; rfl
    | true =>
        rw [Bool.and_true, Bool.toNat_true, lastMark_tail]
        cases (inferInstance : Decidable (lastMark marks = 0)) with
        | isTrue none => rw [none]; rfl
        | isFalse some =>
            have notZero : BitVec.ofNat 3 (lastMark marks) ≠ 0 := fun zero =>
              some ((ofNat_small small (Nat.zero_le 4)).1 zero)
            rw [bne_iff_ne.2 notZero, if_pos rfl, ofNat_pred (Nat.pos_of_ne_zero some)]
  rw [Filter.markCntNext, grants_eq granted, credits.inflight, follows]
  cases gnt with
  | false =>
      rw [Bool.false_and, if_neg Bool.false_ne_true, if_neg Bool.false_ne_true, List.append_nil]
  | true =>
      rw [Bool.true_and, if_pos rfl, lastMark_snoc, List.length_drop, length]
      cases mark with
      | false => rfl
      | true =>
          cases valid : validIn with
          | false => exact (BitVec.ofNat_add count 1).symm
          | true =>
              rw [credits.credit.ready (answers valid)]
              exact congrArg (BitVec.ofNat 3) (Nat.sub_add_cancel (answers valid)).symm

end Step

end Fifo

/-! ## The words of the FIFO -/

theorem fifoOut_fifoIn (eof sof : Bool) (data : BitVec dataWidth) :
    fifoOut (fifoIn eof sof data) = ⟨data, sof, eof⟩ := by
  have sofBit : (fifoIn eof sof data).getLsbD dataWidth = sof := by
    rw [fifoIn, BitVec.getLsbD_append, if_neg (Nat.lt_irrefl _), Nat.sub_self]
    cases eof <;> cases sof <;> rfl
  have eofBit : (fifoIn eof sof data).getLsbD (dataWidth + 1) = eof := by
    rw [fifoIn, BitVec.getLsbD_append, if_neg (Nat.not_lt.2 (Nat.le_succ _)),
      Nat.add_sub_cancel_left]
    cases eof <;> cases sof <;> rfl
  rw [fifoOut, sofBit, eofBit, fifoIn, BitVec.setWidth_append_eq_right]

section Runs

variable {schedule : Nat → FetchCycle aWidth transSize dataWidth}

/-- The responses stored before a cycle, with their marks. -/
def storedBefore (schedule : Nat → FetchCycle aWidth transSize dataWidth) :
    Nat → List (FetchedWord dataWidth)
  | 0 => []
  | n + 1 => storedBefore schedule n ++
      if (schedule n).valid then
        [fifoOut ((fetchAt schedule n).stored (schedule n).toFetchInput)]
      else []

/-- The requests that have been granted and not been answered. -/
def pending (schedule : Nat → FetchCycle aWidth transSize dataWidth) (n : Nat) :
    List (FetchElement aWidth) :=
  ((fetchChannel schedule).movedBefore n).drop (respondedBefore schedule n).length

theorem outstanding_eq (served : Served schedule) (n : Nat) :
    outstanding schedule n = pending schedule n := by
  have order := (fetchProgress served n).inOrder
  rw [programmedBefore_fetchChannel, List.prefix_iff_eq_take] at order
  rw [outstanding, pending, grantedBefore_eq served, List.length_map, ← order]

/-- The FIFO holds some words, and its numbers are those of the pending requests. -/
structure Holds (schedule : Nat → FetchCycle aWidth transSize dataWidth) (n : Nat)
    (words : List (BitVec (1 + 1 + dataWidth))) : Prop where
  credits : Credits (fetchAt schedule n).fetch.fifo words (pending schedule n).length
  answered : (respondedBefore schedule n).length ≤
    ((fetchChannel schedule).movedBefore n).length
  sofCnt : (fetchAt schedule n).rMarkSofCnt =
    BitVec.ofNat 3 (lastMark ((pending schedule n).map FetchElement.sof))
  eofCnt : (fetchAt schedule n).rMarkEofCnt =
    BitVec.ofNat 3 (lastMark ((pending schedule n).map FetchElement.eof))
  stored : storedBefore schedule n = deliveredBefore schedule n ++ words.map fifoOut

theorem holds_zero : Holds schedule 0 [] where
  credits := ⟨IoGenericFifo.represents_reset 0 (by decide), ⟨Nat.zero_le 4, rfl⟩⟩
  answered := le_rfl
  sofCnt := rfl
  eofCnt := rfl
  stored := rfl

section Step

variable {n : Nat} {words : List (BitVec (1 + 1 + dataWidth))}

theorem length_respondedBefore_succ (n : Nat) :
    (respondedBefore schedule (n + 1)).length =
      (respondedBefore schedule n).length + (schedule n).valid.toNat := by
  rw [respondedBefore, List.length_append]
  cases (schedule n).valid <;> rfl

/-- A response answers a pending request. -/
theorem pending_pos (served : Served schedule) (n : Nat) (valid : (schedule n).valid = true) :
    0 < (pending schedule n).length := by
  have answered := served.responded n valid
  rw [grantedBefore_eq served, List.length_map] at answered
  rw [pending, List.length_drop]
  exact Nat.sub_pos_of_lt answered

theorem fifo_req (served : Served schedule) (n : Nat) (grants : (schedule n).gnt = true) :
    (fetchAt schedule n).fetch.fifo.req = true := by
  have requests := served.granted n grants
  rw [TxDatafetch.req, Bool.and_eq_true] at requests
  exact requests.1

theorem granted_eq_gnt (served : Served schedule) (n : Nat) :
    (fetchAt schedule n).granted (schedule n).toFetchInput = (schedule n).gnt := by
  rw [MarkedFetch.granted, TxDatafetch.granted]
  exact grants_eq (fifo_req served n)

/-- A response takes the oldest pending request, and a grant adds one. -/
theorem Holds.pending_succ (holds : Holds schedule n words) (served : Served schedule) :
    pending schedule (n + 1) = (pending schedule n).drop (schedule n).valid.toNat ++
      (fetchAt schedule n).requested (schedule n).cfg (schedule n).toFetchInput := by
  have enough : (respondedBefore schedule n).length + (schedule n).valid.toNat ≤
      ((fetchChannel schedule).movedBefore n).length := by
    have answered := holds.answered
    have answers := pending_pos served n
    rw [pending, List.length_drop] at answers
    cases valid : (schedule n).valid with
    | false => exact answered
    | true => exact Nat.lt_of_sub_pos (answers valid)
  rw [pending, length_respondedBefore_succ, Channel.movedBefore,
    List.drop_append_of_le_length enough, pending, List.drop_drop]
  rfl

theorem length_requested (served : Served schedule) (n : Nat) :
    ((fetchAt schedule n).requested (schedule n).cfg (schedule n).toFetchInput).length =
      (schedule n).gnt.toNat := by
  rw [MarkedFetch.requested, granted_eq_gnt served]
  cases (schedule n).gnt <;> rfl

theorem requested_sof (served : Served schedule) (n : Nat) :
    ((fetchAt schedule n).requested (schedule n).cfg (schedule n).toFetchInput).map
        FetchElement.sof =
      if (schedule n).gnt then [(fetchAt schedule n).isSof (schedule n).toFetchInput] else [] := by
  rw [MarkedFetch.requested, granted_eq_gnt served]
  cases (schedule n).gnt <;> rfl

theorem requested_eof (served : Served schedule) (n : Nat) :
    ((fetchAt schedule n).requested (schedule n).cfg (schedule n).toFetchInput).map
        FetchElement.eof =
      if (schedule n).gnt then
        [(fetchAt schedule n).isEof (schedule n).cfg (schedule n).toFetchInput]
      else [] := by
  rw [MarkedFetch.requested, granted_eq_gnt served]
  cases (schedule n).gnt <;> rfl

theorem Holds.step (holds : Holds schedule n words) (served : Served schedule) :
    ∃ next, Holds schedule (n + 1) next := by
  have granted := fifo_req served n
  have answers := pending_pos served n
  have pendingNext := holds.pending_succ served
  have lengthNext : (pending schedule (n + 1)).length =
      (pending schedule n).length - (schedule n).valid.toNat + (schedule n).gnt.toNat := by
    rw [pendingNext, List.length_append, List.length_drop, length_requested served]
  have creditsNext := holds.credits.step granted answers
    ((fetchAt schedule n).stored (schedule n).toFetchInput) (schedule n).streamReady
  have isSof : (fetchAt schedule n).isSof (schedule n).toFetchInput =
      ((schedule n).gnt && (fetchAt schedule n).isSof (schedule n).toFetchInput) := by
    rw [MarkedFetch.isSof, granted_eq_gnt served]
    cases (schedule n).gnt <;> rfl
  have isEof : (fetchAt schedule n).isEof (schedule n).cfg (schedule n).toFetchInput =
      ((schedule n).gnt &&
        (fetchAt schedule n).isEof (schedule n).cfg (schedule n).toFetchInput) := by
    rw [MarkedFetch.isEof, granted_eq_gnt served]
    cases (schedule n).gnt <;> rfl
  exact ⟨_,
    { credits := by
        rw [fetchAt_succ, lengthNext]
        exact creditsNext
      answered := by
        have answered := holds.answered
        rw [pending, List.length_drop] at answers
        rw [length_respondedBefore_succ, Channel.movedBefore, List.length_append]
        cases valid : (schedule n).valid with
        | false => exact answered.trans (Nat.le_add_right _ _)
        | true =>
            exact (Nat.succ_le_of_lt (Nat.lt_of_sub_pos (answers valid))).trans
              (Nat.le_add_right _ _)
      sofCnt := by
        have next := holds.credits.markCntNext granted answers
          (List.length_map FetchElement.sof) ((fetchAt schedule n).isSof (schedule n).toFetchInput)
        rw [← isSof, ← holds.sofCnt] at next
        rw [fetchAt_succ, pendingNext, List.map_append, List.map_drop, requested_sof served]
        exact next
      eofCnt := by
        have next := holds.credits.markCntNext granted answers
          (List.length_map FetchElement.eof)
          ((fetchAt schedule n).isEof (schedule n).cfg (schedule n).toFetchInput)
        rw [← isEof, ← holds.eofCnt] at next
        rw [fetchAt_succ, pendingNext, List.map_append, List.map_drop, requested_eof served]
        exact next
      stored := by
        have delivered : (if (schedule n).streamReady &&
            (fetchAt schedule n).fetch.fifo.fifo.valid then
              [fifoOut (fetchAt schedule n).fetch.fifo.fifo.data] else []) =
            (words.take ((schedule n).streamReady &&
              (fetchAt schedule n).fetch.fifo.fifo.valid).toNat).map fifoOut := by
          rw [← holds.credits.represents.popped]
          split <;> rfl
        rw [storedBefore, deliveredBefore, holds.stored, delivered, List.map_append,
          List.append_assoc, List.append_assoc, List.append_cancel_left_eq, ← List.append_assoc,
          ← List.map_append, List.take_append_drop]
        cases (schedule n).valid <;> rfl }⟩

end Step

theorem holds_fetch (served : Served schedule) (n : Nat) : ∃ words, Holds schedule n words := by
  induction n with
  | zero => exact ⟨[], holds_zero⟩
  | succ n ih =>
      obtain ⟨words, holds⟩ := ih
      exact holds.step served

/-! ## The response to a request -/

/-- The word stored for the response in a cycle. -/
def responseAt (schedule : Nat → FetchCycle aWidth transSize dataWidth) (n : Nat) :
    FetchedWord dataWidth :=
  fifoOut ((fetchAt schedule n).stored (schedule n).toFetchInput)

theorem responseAt_data (n : Nat) : (responseAt schedule n).data = (schedule n).data := by
  rw [responseAt, MarkedFetch.stored, fifoOut_fifoIn]

theorem storedBefore_data (n : Nat) :
    (storedBefore schedule n).map FetchedWord.data = respondedBefore schedule n := by
  induction n with
  | zero => rfl
  | succ n ih =>
      rw [storedBefore, respondedBefore, List.map_append, ih]
      cases (schedule n).valid with
      | false => rfl
      | true => exact congrArg (fun data => _ ++ [data]) (responseAt_data n)

theorem length_storedBefore (n : Nat) :
    (storedBefore schedule n).length = (respondedBefore schedule n).length := by
  rw [← storedBefore_data, List.length_map]

theorem length_respondedBefore_mono {m n : Nat} (before : m ≤ n) :
    (respondedBefore schedule m).length ≤ (respondedBefore schedule n).length := by
  induction n, before using Nat.le_induction with
  | base => exact le_rfl
  | succ n _ ih =>
      rw [length_respondedBefore_succ]
      exact ih.trans (Nat.le_add_right _ _)

/-- Each stored word is that of one response. -/
theorem storedBefore_getElem {n k : Nat} (inside : k < (storedBefore schedule n).length) :
    ∃ m < n, (schedule m).valid = true ∧ (respondedBefore schedule m).length = k ∧
      (storedBefore schedule n)[k]? = some (responseAt schedule m) := by
  induction n with
  | zero => exact absurd inside (Nat.not_lt_zero k)
  | succ n ih =>
      rw [length_storedBefore, length_respondedBefore_succ, ← length_storedBefore] at inside
      cases (inferInstance : Decidable (k < (storedBefore schedule n).length)) with
      | isTrue earlier =>
          obtain ⟨m, before, valid, position, word⟩ := ih earlier
          refine ⟨m, Nat.lt_succ_of_lt before, valid, position, ?_⟩
          rw [storedBefore, List.getElem?_append_left earlier, word]
      | isFalse new =>
          have last := Nat.le_of_not_lt new
          cases valid : (schedule n).valid with
          | false =>
              rw [valid] at inside
              exact absurd inside new
          | true =>
              rw [valid] at inside
              have position : k = (storedBefore schedule n).length :=
                Nat.le_antisymm (Nat.le_of_lt_succ inside) last
              refine ⟨n, Nat.lt_succ_self n, valid, ?_, ?_⟩
              · rw [position, length_storedBefore]
              · rw [storedBefore, valid, position, List.getElem?_append_right le_rfl, Nat.sub_self]
                rfl

/-- Two cycles do not bring the same response. -/
theorem response_unique {m n : Nat} (validM : (schedule m).valid = true)
    (validN : (schedule n).valid = true)
    (same : (respondedBefore schedule m).length = (respondedBefore schedule n).length) :
    m = n := by
  have later : ∀ {i j}, (schedule i).valid = true → i < j →
      (respondedBefore schedule i).length < (respondedBefore schedule j).length := by
    intro i j valid before
    have next : (respondedBefore schedule (i + 1)).length =
        (respondedBefore schedule i).length + 1 := by
      rw [length_respondedBefore_succ, valid]
      rfl
    have mono : (respondedBefore schedule (i + 1)).length ≤ (respondedBefore schedule j).length :=
      length_respondedBefore_mono before
    rw [next] at mono
    exact mono
  rcases Nat.lt_trichotomy m n with before | equal | after
  · exact absurd same (later validM before).ne
  · exact equal
  · exact absurd same.symm (later validN after).ne

theorem elementsBefore_mono {m n : Nat} (before : m ≤ n) :
    elementsBefore schedule m <+: elementsBefore schedule n := by
  induction n, before using Nat.le_induction with
  | base => exact List.prefix_rfl
  | succ n _ ih => exact ih.trans (List.prefix_append _ _)

theorem getElem?_of_prefix {Item : Type} {items later : List Item} (starts : items <+: later)
    {k : Nat} {item : Item} (here : items[k]? = some item) : later[k]? = some item := by
  obtain ⟨rest, rfl⟩ := starts
  rw [List.getElem?_append_left (List.getElem?_eq_some_iff.1 here).1, here]

/-- The oldest of some requests is marked exactly if it has the mark and no later one has. -/
theorem markEvt_eq (element : FetchElement aWidth) (later : List (FetchElement aWidth))
    (mark : FetchElement aWidth → Bool) (few : (element :: later).length ≤ 4) :
    (BitVec.ofNat 3 (lastMark ((element :: later).map mark)) == 1) = mark element ↔
      (mark element = true → ∀ other ∈ later, mark other = false) := by
  have small : lastMark ((element :: later).map mark) ≤ 4 := by
    refine (lastMark_le _).trans ?_
    rw [List.length_map]
    exact few
  have one : (BitVec.ofNat 3 (lastMark ((element :: later).map mark)) == 1) = true ↔
      mark element = true ∧ ∀ other ∈ later, mark other = false := by
    rw [beq_iff_eq, ← List.forall_mem_map (P := (· = false)), ← lastMark_eq_one_iff]
    exact ofNat_small small (by decide)
  rw [Bool.eq_iff_iff, one]
  exact ⟨fun both marked => (both.2 marked).2, fun alone =>
    ⟨And.left, fun marked => ⟨marked, alone marked⟩⟩⟩

/-- A response is stored with the marks of its element exactly if the marks are apart. -/
theorem responseAt_marks (served : Served schedule) {n : Nat} (valid : (schedule n).valid = true) :
    ∃ element, (elementsBefore schedule n)[(respondedBefore schedule n).length]? = some element ∧
      ((responseAt schedule n).marks = element.marks ↔ MarksApart (outstanding schedule n)) := by
  obtain ⟨words, holds⟩ := holds_fetch served n
  have positive := pending_pos served n valid
  obtain ⟨element, later, split⟩ := List.exists_cons_of_length_pos positive
  refine ⟨element, ?_, ?_⟩
  · have order := (fetchProgress served n).inOrder
    rw [programmedBefore_fetchChannel] at order
    refine getElem?_of_prefix order ?_
    have first : (pending schedule n)[0]? = some element := by rw [split]; rfl
    rw [pending, List.getElem?_drop] at first
    exact first
  · have few : (element :: later).length ≤ 4 := by
      rw [← split]
      exact (Nat.le_add_left _ _).trans holds.credits.room
    have ready := holds.credits.credit.ready positive
    have sof := markEvt_eq element later FetchElement.sof few
    have eof := markEvt_eq element later FetchElement.eof few
    rw [← split, ← holds.sofCnt] at sof
    rw [← split, ← holds.eofCnt] at eof
    rw [outstanding_eq served, split, MarksApart, ← sof, ← eof, FetchedWord.marks, responseAt,
      MarkedFetch.stored, fifoOut_fifoIn, FetchElement.marks, MarkedFetch.markSofEvt,
      MarkedFetch.markEofEvt, valid, ready, Prod.mk.injEq]
    rw [Bool.and_self, Bool.and_true, Bool.and_true]

theorem deliveredBefore_isPrefix (served : Served schedule) (n : Nat) :
    deliveredBefore schedule n <+: storedBefore schedule n := by
  obtain ⟨words, holds⟩ := holds_fetch served n
  exact holds.stored ▸ List.prefix_append _ _

/-- A delivered word is that of one response, and its element has been programmed. -/
theorem deliveredBefore_getElem (served : Served schedule) {n k : Nat}
    (inside : k < (deliveredBefore schedule n).length) :
    ∃ m ≤ n, (schedule m).valid = true ∧ (respondedBefore schedule m).length = k ∧
      (deliveredBefore schedule n)[k] = responseAt schedule m := by
  have stored := deliveredBefore_isPrefix served n
  obtain ⟨m, before, valid, position, word⟩ :=
    storedBefore_getElem (inside.trans_le stored.length_le)
  refine ⟨m, before.le, valid, position, ?_⟩
  have same := List.prefix_iff_getElem?.1 stored k inside
  exact Option.some.inj (same.symm.trans word)

/-- The delivered words have the marks of their elements if and only if the marks are apart
whenever a response comes whose word is delivered. -/
theorem marks_iff (served : Served schedule) :
    (∀ n, (deliveredBefore schedule n).map FetchedWord.marks <+:
        (elementsBefore schedule n).map FetchElement.marks) ↔ AnsweredApart schedule := by
  constructor
  · rintro marks n valid ⟨m, delivered⟩
    obtain ⟨element, here, apart⟩ := responseAt_marks served valid
    obtain ⟨i, before, validI, sameI, word⟩ := deliveredBefore_getElem served delivered
    obtain rfl : i = n := response_unique validI valid sameI
    have programmed := getElem?_of_prefix (elementsBefore_mono before) here
    have same := List.prefix_iff_getElem?.1 (marks m) _ (by rw [List.length_map]; exact delivered)
    rw [List.getElem?_map, programmed, List.getElem_map, word] at same
    exact apart.1 (Option.some.inj same).symm
  · intro answered n
    rw [List.prefix_iff_getElem?]
    intro k inside
    rw [List.length_map] at inside
    obtain ⟨i, before, valid, position, word⟩ := deliveredBefore_getElem served inside
    subst position
    obtain ⟨element, here, apart⟩ := responseAt_marks served valid
    rw [List.getElem?_map, getElem?_of_prefix (elementsBefore_mono before) here,
      List.getElem_map, word, apart.2 (answered i valid ⟨n, inside⟩)]
    rfl

theorem fetchDone_granted (served : Served schedule) {n : Nat}
    (done : fetchDone schedule n = true) :
    (schedule n).gnt = true := by
  rw [fetchDone, MarkedFetch.done, TxDatafetch.done, Bool.and_eq_true] at done
  exact (granted_eq_gnt served n).symm.trans done.1

theorem fetchDone_running (served : Served schedule) {n : Nat}
    (done : fetchDone schedule n = true) :
    (fetchAt schedule n).fetch.running = true := by
  have requests := served.granted n (fetchDone_granted served done)
  rw [TxDatafetch.req, Bool.and_eq_true] at requests
  exact requests.2

theorem running_succ (n : Nat) :
    (fetchAt schedule (n + 1)).fetch.running =
      if (fetchAt schedule n).fetch.running then !fetchDone schedule n
      else (schedule n).cmdStart := by
  rw [fetchAt_succ]
  rfl

/-- There is one end for each transfer that does not run any more. -/
theorem fetchDoneOnce (served : Served schedule) (n : Nat) :
    (List.range n).countP (fetchDone schedule) + (fetchAt schedule n).fetch.running.toNat =
      (List.range n).countP (fetchStarts schedule) := by
  refine @Channel.ends_counted _ (fetchChannel schedule) _ rfl ?_ ?_ n
  · intro n idle
    change (fetchAt schedule n).fetch.running = false at idle
    refine ⟨?_, ?_⟩
    · cases done : fetchDone schedule n with
      | false => rfl
      | true => exact absurd (idle.symm.trans (fetchDone_running served done)) Bool.false_ne_true
    · change (fetchAt schedule (n + 1)).fetch.running = (!_ && _)
      rw [running_succ, idle]
      rfl
  · intro n busy
    refine ⟨(fetchRounds served).starts n busy, ?_⟩
    change (fetchAt schedule n).fetch.running = true at busy
    change (fetchAt schedule (n + 1)).fetch.running = _
    rw [running_succ, busy]
    rfl

/-- A run fetches the operand as programmed if and only if the marks of the outstanding elements
are apart whenever a response comes whose word is delivered. -/
theorem fetchesOperand_iff (served : Served schedule) :
    FetchesOperand schedule ↔ AnsweredApart schedule := by
  refine ⟨fun fetches => (marks_iff served).1 fetches.marks, fun apart => ?_⟩
  have progress := fetchProgress served
  exact
    { inOrder := fun n => by
        rw [grantedBefore_eq served, ← programmedBefore_fetchChannel]
        exact (progress n).inOrder.map _
      complete := fun n => by
        rw [grantedBefore_eq served, ← programmedBefore_fetchChannel]
        refine ⟨fun idle => congrArg _ ((progress n).idle idle), fun same => ?_⟩
        have lengths := congrArg List.length same
        rw [List.length_map, List.length_map] at lengths
        exact ((progress n).idle_iff (fetchRounds served)).2 lengths
      doneOnce := fetchDoneOnce served
      doneLast := fun n done => by
        have running := fetchDone_running served done
        have ends : (fetchAt schedule (n + 1)).fetch.running = false := by
          rw [running_succ, running, done]
          rfl
        rw [grantedBefore_eq served, ← programmedBefore_fetchChannel]
        exact congrArg _ ((progress n).last (fetchRounds served) running ends)
      words := fun n => by
        rw [← storedBefore_data]
        exact (deliveredBefore_isPrefix served n).map _
      offered := fun n => by
        obtain ⟨words, holds⟩ := holds_fetch served n
        rw [holds.credits.represents.valid_eq, ← length_storedBefore, holds.stored,
          List.length_append, List.length_map]
        cases words with
        | nil => exact iff_of_false (fun absurd => nomatch absurd) (Nat.lt_irrefl _)
        | cons word rest => exact iff_of_true rfl (Nat.lt_add_of_pos_right (Nat.succ_pos _))
      marks := (marks_iff served).2 apart }

end Runs

/-- Two requests are granted in the cycles after a start, and answered after that. -/
def twoRequests (mode : BitVec 2) (len0 len1 : BitVec 16) (n : Nat) : FetchCycle 15 16 32 where
  gnt := n == 1 || n == 2
  valid := n == 3 || n == 4
  data := 7
  streamReady := true
  cfg := ⟨16, 2, mode, len0, len1, 0⟩
  cmdStart := n == 0

theorem twoRequests_served {mode : BitVec 2} {len0 len1 : BitVec 16}
    (first : (fetchAt (twoRequests mode len0 len1) 1).fetch.req = true)
    (second : (fetchAt (twoRequests mode len0 len1) 2).fetch.req = true)
    (both : (grantedBefore (twoRequests mode len0 len1) 3).length = 2)
    (still : (grantedBefore (twoRequests mode len0 len1) 4).length = 2) :
    Served (twoRequests mode len0 len1) where
  granted n grants := by
    rcases Bool.or_eq_true_iff.1 grants with one | two
    · rw [beq_iff_eq.1 one]; exact first
    · rw [beq_iff_eq.1 two]; exact second
  responded n valid := by
    rcases Bool.or_eq_true_iff.1 valid with three | four
    · rw [beq_iff_eq.1 three, both]; exact Nat.zero_lt_two
    · rw [beq_iff_eq.1 four, still]; exact Nat.one_lt_two
  kept _ _ := rfl

/-- In one window of two elements the marks are apart. -/
theorem oneWindow_fetched : FetchesOperand (twoRequests 0 1 0) :=
  (fetchesOperand_iff
    (twoRequests_served (by decide) (by decide) (by decide) (by decide))).2 fun n valid _ => by
      rcases Bool.or_eq_true_iff.1 valid with three | four
      · rw [beq_iff_eq.1 three]; decide
      · rw [beq_iff_eq.1 four]; decide

/-- Of two windows of one element the first one loses its marks. -/
theorem twoWindows_not_fetched :
    Served (twoRequests 1 0 1) ∧ ¬FetchesOperand (twoRequests 1 0 1) :=
  ⟨twoRequests_served (by decide) (by decide) (by decide) (by decide),
    fun fetches => absurd (fetches.marks 5) (by decide)⟩

end CoreVMcu.Filter
