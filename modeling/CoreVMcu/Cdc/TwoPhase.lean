import CoreVMcu.Clocked.Counters
import CoreVMcu.Clocked.Machine

/-!
# The two-phase clock domain crossing

`cdc_2phase` takes a word into a register of the source and toggles a request line; the
destination sees the line through two registers, takes the word over, and toggles an
acknowledge line when the word is read, which the source sees through two registers.

Every line is the parity of a count of words.  Around the ring each count is behind the one
before it, and the last one is at most one behind the first, so that a word is never
overwritten before it has been read.
-/

namespace CoreVMcu.Cdc

open Clocked

variable {T : Type}

/-- Registers of `cdc_2phase_src`. -/
structure TwoPhaseSrc (T : Type) where
  reqSrc : Bool
  ackSrc : Bool
  ack : Bool
  dataSrc : T

namespace TwoPhaseSrc

variable (src : TwoPhaseSrc T)

/-- `ready_o`. -/
def ready : Bool := src.reqSrc == src.ack

/-- One edge of the source clock. -/
def step (valid : Bool) (data : T) (asyncAck : Bool) : TwoPhaseSrc T where
  reqSrc := if valid && src.ready then !src.reqSrc else src.reqSrc
  dataSrc := if valid && src.ready then data else src.dataSrc
  ackSrc := asyncAck
  ack := src.ackSrc

end TwoPhaseSrc

/-- Registers of `cdc_2phase_dst`. -/
structure TwoPhaseDst (T : Type) where
  reqDst : Bool
  req0 : Bool
  req1 : Bool
  ackDst : Bool
  dataDst : T

namespace TwoPhaseDst

variable (dst : TwoPhaseDst T)

/-- `valid_o`. -/
def valid : Bool := dst.ackDst != dst.req1

/-- One edge of the destination clock. -/
def step (ready : Bool) (asyncReq : Bool) (asyncData : T) : TwoPhaseDst T where
  ackDst := if dst.valid && ready then !dst.ackDst else dst.ackDst
  dataDst := if dst.req0 != dst.req1 && !dst.valid then asyncData else dst.dataDst
  reqDst := asyncReq
  req0 := dst.reqDst
  req1 := dst.req0

end TwoPhaseDst

/-- `cdc_2phase`. -/
structure TwoPhase (T : Type) where
  src : TwoPhaseSrc T
  dst : TwoPhaseDst T

/-- The clock edges of an instant with what they sample: a word that is offered or not, and
whether the destination is ready. -/
structure TwoPhaseEdges (T : Type) where
  source : Option (Bool × T)
  destination : Option Bool

/-- Both sides from a common reset. -/
def twoPhaseMachine (zero : T) : Machine (TwoPhase T) (TwoPhaseEdges T) where
  init :=
    { src := { reqSrc := false, ackSrc := false, ack := false, dataSrc := zero }
      dst := { reqDst := false, req0 := false, req1 := false, ackDst := false, dataDst := zero } }
  step cdc edges :=
    { src :=
        match edges.source with
        | some (valid, data) => cdc.src.step valid data cdc.dst.ackDst
        | none => cdc.src
      dst :=
        match edges.destination with
        | some ready => cdc.dst.step ready cdc.src.reqSrc cdc.src.dataSrc
        | none => cdc.dst }

/-- The word that is accepted at the source. -/
def accepted (cdc : TwoPhase T) (edges : TwoPhaseEdges T) : List T :=
  match edges.source with
  | some (valid, data) => if valid && cdc.src.ready then [data] else []
  | none => []

/-- The word that is read at the destination. -/
def transferred (cdc : TwoPhase T) (edges : TwoPhaseEdges T) : List T :=
  match edges.destination with
  | some ready => if cdc.dst.valid && ready then [cdc.dst.dataDst] else []
  | none => []

/-! ## The ring of counts -/

/-- How many words each line has seen: the request line and its views, the words read, and the
views of the acknowledge line. -/
structure Counts where
  sent : Nat
  reqDst : Nat
  req0 : Nat
  req1 : Nat
  taken : Nat
  ackSrc : Nat
  ack : Nat

/-- Around the ring each count is behind the one before it. -/
structure Counts.Ring (counts : Counts) : Prop where
  reqDst : counts.reqDst ≤ counts.sent
  req0 : counts.req0 ≤ counts.reqDst
  req1 : counts.req1 ≤ counts.req0
  taken : counts.taken ≤ counts.req1
  ackSrc : counts.ackSrc ≤ counts.taken
  ack : counts.ack ≤ counts.ackSrc
  close : counts.sent ≤ counts.ack + 1

/-- The lines hold the parities of the counts, and a word that is offered is the one that was
accepted last. -/
structure TwoPhase.Tracks (cdc : TwoPhase T) (counts : Counts) : Prop where
  ring : counts.Ring
  reqSrc : cdc.src.reqSrc = counts.sent.bodd
  reqDst : cdc.dst.reqDst = counts.reqDst.bodd
  req0 : cdc.dst.req0 = counts.req0.bodd
  req1 : cdc.dst.req1 = counts.req1.bodd
  ackDst : cdc.dst.ackDst = counts.taken.bodd
  ackSrc : cdc.src.ackSrc = counts.ackSrc.bodd
  ack : cdc.src.ack = counts.ack.bodd
  data : counts.taken < counts.req1 → cdc.dst.dataDst = cdc.src.dataSrc

namespace TwoPhase.Tracks

variable {cdc : TwoPhase T} {counts : Counts}

/-- The source is ready when every word has gone around the ring. -/
theorem ready (tracks : cdc.Tracks counts) :
    cdc.src.ready = decide (counts.ack = counts.sent) := by
  obtain ⟨reqDst, req0, req1, taken, ackSrc, ack, close⟩ := tracks.ring
  rw [TwoPhaseSrc.ready, tracks.reqSrc, tracks.ack, Bool.beq_comm]
  exact bodd_beq_of_close (by omega) close

/-- A word is offered when it has come to the destination and has not been read. -/
theorem valid (tracks : cdc.Tracks counts) :
    cdc.dst.valid = decide (counts.taken < counts.req1) := by
  obtain ⟨reqDst, req0, req1, taken, ackSrc, ack, close⟩ := tracks.ring
  have same := bodd_beq_of_close taken (by omega)
  rw [TwoPhaseDst.valid, tracks.ackDst, tracks.req1, bne, same, ← decide_not, decide_eq_decide]
  omega

/-- The counts after an instant: each view follows what it views. -/
def next (counts : Counts) (edges : TwoPhaseEdges T) (accepts takes : Nat) : Counts where
  sent := counts.sent + accepts
  reqDst := if edges.destination.isSome then counts.sent else counts.reqDst
  req0 := if edges.destination.isSome then counts.reqDst else counts.req0
  req1 := if edges.destination.isSome then counts.req0 else counts.req1
  taken := counts.taken + takes
  ackSrc := if edges.source.isSome then counts.taken else counts.ackSrc
  ack := if edges.source.isSome then counts.ackSrc else counts.ack

/-- A word is accepted when none is on its way. -/
theorem length_accepted (tracks : cdc.Tracks counts) (edges : TwoPhaseEdges T) :
    (accepted cdc edges).length = 0 ∨
      (accepted cdc edges).length = 1 ∧ edges.source.isSome ∧ counts.ack = counts.sent := by
  rw [accepted]
  cases source : edges.source with
  | none => exact .inl rfl
  | some offer =>
      by_cases around : counts.ack = counts.sent
      · cases valid : offer.1 <;> simp [tracks.ready, around, valid]
      · simp [tracks.ready, around]

/-- A word is read when it has come to the destination. -/
theorem length_transferred (tracks : cdc.Tracks counts) (edges : TwoPhaseEdges T) :
    (transferred cdc edges).length = 0 ∨
      (transferred cdc edges).length = 1 ∧ edges.destination.isSome ∧
        counts.taken < counts.req1 := by
  rw [transferred]
  cases destination : edges.destination with
  | none => exact .inl rfl
  | some ready =>
      by_cases waits : counts.taken < counts.req1
      · cases ready <;> simp [tracks.valid, waits]
      · simp [tracks.valid, waits]

theorem ring_next (tracks : cdc.Tracks counts) (edges : TwoPhaseEdges T) :
    (next counts edges (accepted cdc edges).length (transferred cdc edges).length).Ring := by
  obtain ⟨reqDst, req0, req1, taken, ackSrc, ack, close⟩ := tracks.ring
  have accepts := tracks.length_accepted edges
  have takes := tracks.length_transferred edges
  generalize (accepted cdc edges).length = accepts at *
  generalize (transferred cdc edges).length = takes at *
  cases source : edges.source.isSome <;> cases destination : edges.destination.isSome <;>
    simp only [source, destination, Bool.false_eq_true, false_and, and_false, or_false,
      true_and] at accepts takes <;>
    constructor <;> simp only [next, source, destination, if_true, Bool.false_eq_true, if_false] <;>
    omega

/-- An instant keeps the registers at the parities of the counts. -/
theorem step (tracks : cdc.Tracks counts) (zero : T) (edges : TwoPhaseEdges T) :
    ((twoPhaseMachine zero).step cdc edges).Tracks
      (next counts edges (accepted cdc edges).length (transferred cdc edges).length) := by
  constructor
  case ring => exact tracks.ring_next edges
  case reqSrc =>
    cases source : edges.source with
    | none => simp [twoPhaseMachine, next, accepted, source, tracks.reqSrc]
    | some offer =>
        obtain ⟨valid, data⟩ := offer
        cases valid <;> cases ready : cdc.src.ready <;>
          simp [twoPhaseMachine, next, accepted, source, ready, TwoPhaseSrc.step, tracks.reqSrc]
  case ackDst =>
    cases destination : edges.destination with
    | none => simp [twoPhaseMachine, next, transferred, destination, tracks.ackDst]
    | some ready =>
        cases ready <;> cases valid : cdc.dst.valid <;>
          simp [twoPhaseMachine, next, transferred, destination, valid, TwoPhaseDst.step,
            tracks.ackDst]
  case reqDst =>
    cases destination : edges.destination with
    | none => simp [twoPhaseMachine, next, destination, tracks.reqDst]
    | some ready => simp [twoPhaseMachine, next, destination, TwoPhaseDst.step, tracks.reqSrc]
  case req0 =>
    cases destination : edges.destination with
    | none => simp [twoPhaseMachine, next, destination, tracks.req0]
    | some ready => simp [twoPhaseMachine, next, destination, TwoPhaseDst.step, tracks.reqDst]
  case req1 =>
    cases destination : edges.destination with
    | none => simp [twoPhaseMachine, next, destination, tracks.req1]
    | some ready => simp [twoPhaseMachine, next, destination, TwoPhaseDst.step, tracks.req0]
  case ackSrc =>
    cases source : edges.source with
    | none => simp [twoPhaseMachine, next, source, tracks.ackSrc]
    | some offer => simp [twoPhaseMachine, next, source, TwoPhaseSrc.step, tracks.ackDst]
  case ack =>
    cases source : edges.source with
    | none => simp [twoPhaseMachine, next, source, tracks.ack]
    | some offer => simp [twoPhaseMachine, next, source, TwoPhaseSrc.step, tracks.ackSrc]
  case data =>
    intro waits
    obtain ⟨reqDst, req0, req1, taken, ackSrc, ack, close⟩ := tracks.ring
    have accepts := tracks.length_accepted edges
    -- A word that is under way keeps the source from taking another one.
    have kept : counts.taken < counts.req0 →
        ((twoPhaseMachine zero).step cdc edges).src.dataSrc = cdc.src.dataSrc := by
      intro underWay
      have notReady : cdc.src.ready = false := by
        rw [tracks.ready, decide_eq_false_iff_not]
        omega
      cases source : edges.source with
      | none => simp [twoPhaseMachine, source]
      | some offer => simp [twoPhaseMachine, source, TwoPhaseSrc.step, notReady]
    cases destination : edges.destination with
    | none =>
        have still : counts.taken < counts.req1 := by
          simpa [next, transferred, destination] using waits
        rw [kept (Nat.lt_of_lt_of_le still req1), ← tracks.data still]
        simp [twoPhaseMachine, destination]
    | some ready =>
        have newest : counts.taken < counts.req0 := by
          have bound : counts.taken + (transferred cdc edges).length < counts.req0 := by
            simpa [next, destination] using waits
          omega
        rw [kept newest]
        cases valid : cdc.dst.valid with
        | true =>
            have waited := of_decide_eq_true (tracks.valid.symm.trans valid)
            simp [twoPhaseMachine, destination, TwoPhaseDst.step, valid, tracks.data waited]
        | false =>
            have read := of_decide_eq_false (tracks.valid.symm.trans valid)
            have arrives : cdc.dst.req0 ≠ cdc.dst.req1 := by
              rw [tracks.req0, tracks.req1]
              intro same
              have equal := eq_of_bodd_eq req1 (by omega) same.symm
              omega
            simp [twoPhaseMachine, destination, TwoPhaseDst.step, valid, arrives]

end TwoPhase.Tracks

/-! ## Runs -/

section Runs

variable {zero : T}

/-- The word that has been accepted and not been read. -/
def TwoPhase.held (cdc : TwoPhase T) : List T :=
  if cdc.src.reqSrc == cdc.dst.ackDst then [] else [cdc.src.dataSrc]

theorem TwoPhase.Tracks.held_eq {cdc : TwoPhase T} {counts : Counts}
    (tracks : cdc.Tracks counts) :
    cdc.held = if counts.taken = counts.sent then [] else [cdc.src.dataSrc] := by
  obtain ⟨reqDst, req0, req1, taken, ackSrc, ack, close⟩ := tracks.ring
  have behind : counts.taken ≤ counts.sent := by omega
  have same := bodd_beq_of_close behind (by omega)
  rw [TwoPhase.held, tracks.reqSrc, tracks.ackDst, Bool.beq_comm, same]
  simp

/-- The word that is offered is the one that is held. -/
theorem TwoPhase.Tracks.held_of_valid {cdc : TwoPhase T} {counts : Counts}
    (tracks : cdc.Tracks counts) (valid : cdc.dst.valid = true) :
    cdc.held = [cdc.dst.dataDst] := by
  have waits := of_decide_eq_true (tracks.valid.symm.trans valid)
  have behind := tracks.ring.reqDst
  have first := tracks.ring.req0
  have second := tracks.ring.req1
  rw [tracks.held_eq, if_neg (by omega), tracks.data waits]

/-- What is accepted and read at an instant, and what is held before and after it. -/
theorem TwoPhase.Tracks.held_step {cdc : TwoPhase T} {counts : Counts}
    (tracks : cdc.Tracks counts) (zero : T) (edges : TwoPhaseEdges T) :
    cdc.held ++ accepted cdc edges =
      transferred cdc edges ++ ((twoPhaseMachine zero).step cdc edges).held := by
  obtain ⟨reqDst, req0, req1, taken, ackSrc, ack, close⟩ := tracks.ring
  have later : ((twoPhaseMachine zero).step cdc edges).held =
      if counts.taken + (transferred cdc edges).length =
          counts.sent + (accepted cdc edges).length then []
      else [((twoPhaseMachine zero).step cdc edges).src.dataSrc] :=
    (tracks.step zero edges).held_eq
  rw [tracks.held_eq, later]
  by_cases read : counts.taken = counts.sent
  · -- Nothing is held: what is accepted is held after the instant.
    have nothing : transferred cdc edges = [] := by
      rcases tracks.length_transferred edges with none | ⟨-, -, waits⟩
      · exact List.eq_nil_of_length_eq_zero none
      · omega
    rw [if_pos read, nothing]
    cases source : edges.source with
    | none => simp [accepted, source, read]
    | some offer =>
        obtain ⟨valid, data⟩ := offer
        cases valid <;> cases ready : cdc.src.ready <;>
          simp [accepted, source, read, ready, twoPhaseMachine, TwoPhaseSrc.step]
  · -- A word is held: nothing is accepted, and the word is read or still held.
    have notReady : cdc.src.ready = false := by
      rw [tracks.ready, decide_eq_false_iff_not]
      omega
    have refused : accepted cdc edges = [] := by
      cases source : edges.source with
      | none => simp [accepted, source]
      | some offer => simp [accepted, source, notReady]
    have kept : ((twoPhaseMachine zero).step cdc edges).src.dataSrc = cdc.src.dataSrc := by
      cases source : edges.source with
      | none => simp [twoPhaseMachine, source]
      | some offer => simp [twoPhaseMachine, source, TwoPhaseSrc.step, notReady]
    rw [if_neg read, refused, kept]
    rcases tracks.length_transferred edges with none | ⟨one, -, waits⟩
    · rw [List.eq_nil_of_length_eq_zero none]
      simp [read]
    · have word : transferred cdc edges = [cdc.src.dataSrc] := by
        rw [transferred] at one ⊢
        cases destination : edges.destination with
        | none => simp [destination] at one
        | some ready =>
            rw [destination] at one
            cases enabled : cdc.dst.valid && ready with
            | false => simp [enabled] at one
            | true => simp [enabled, tracks.data waits]
      have last : counts.taken + 1 = counts.sent := by omega
      rw [word]
      simp [last]

/-- After a run the registers hold the parities of the numbers of words accepted and read, and
what was accepted was read or is held. -/
theorem twoPhaseTracks (zero : T) (inputs : List (TwoPhaseEdges T)) :
    ∃ counts, ((twoPhaseMachine zero).run inputs).Tracks counts ∧
      counts.sent = ((twoPhaseMachine zero).observed accepted inputs).length ∧
      counts.taken = ((twoPhaseMachine zero).observed transferred inputs).length ∧
      (twoPhaseMachine zero).observed accepted inputs =
        (twoPhaseMachine zero).observed transferred inputs ++
          ((twoPhaseMachine zero).run inputs).held := by
  induction inputs using List.reverseRecOn with
  | nil =>
      refine ⟨⟨0, 0, 0, 0, 0, 0, 0⟩, ?_, rfl, rfl, rfl⟩
      constructor
      case ring => constructor <;> decide
      case data => exact fun waits => absurd waits (Nat.lt_irrefl 0)
      all_goals rfl
  | append_singleton inputs edges inductionHypothesis =>
      obtain ⟨counts, tracks, sent, taken, conserved⟩ := inductionHypothesis
      refine ⟨_, Machine.run_snoc .. ▸ tracks.step zero edges, ?_, ?_, ?_⟩
      · rw [Machine.observed_snoc, List.length_append, ← sent]
        rfl
      · rw [Machine.observed_snoc, List.length_append, ← taken]
        rfl
      · rw [Machine.observed_snoc, Machine.observed_snoc, Machine.run_snoc, conserved,
          List.append_assoc, List.append_assoc, tracks.held_step zero edges]

/-- Edges of a ready destination until so many words have been read: the lines on the way that
have not seen them. -/
def Counts.readsLeft (counts : Counts) (target : Nat) : Nat :=
  (if counts.taken < target then 1 else 0) + (if counts.req1 < target then 1 else 0) +
    (if counts.req0 < target then 1 else 0) + (if counts.reqDst < target then 1 else 0)

/-- Edges of the source until it knows that so many words have been read. -/
def Counts.acksLeft (counts : Counts) (target : Nat) : Nat :=
  (if counts.ackSrc < target then 1 else 0) + (if counts.ack < target then 1 else 0)

/-- An edge of a ready destination brings a word nearer. -/
theorem TwoPhase.Tracks.readsLeft_step {cdc : TwoPhase T} {counts : Counts}
    (tracks : cdc.Tracks counts) (edges : TwoPhaseEdges T) {target : Nat}
    (sent : target ≤ counts.sent) :
    (next counts edges (accepted cdc edges).length (transferred cdc edges).length).readsLeft
        target ≤
      counts.readsLeft target - (if edges.destination = some true then 1 else 0) := by
  obtain ⟨reqDst, req0, req1, taken, ackSrc, ack, close⟩ := tracks.ring
  cases destination : edges.destination with
  | none => simp [Counts.readsLeft, TwoPhase.Tracks.next, transferred, destination]
  | some ready =>
      have takes : (transferred cdc edges).length =
          if counts.taken < counts.req1 ∧ ready = true then 1 else 0 := by
        rw [transferred, destination]
        cases ready <;> by_cases waits : counts.taken < counts.req1 <;> simp [tracks.valid, waits]
      rw [takes]
      cases ready with
      | false =>
          simp only [Counts.readsLeft, TwoPhase.Tracks.next, destination, Option.isSome_some,
            if_true, Bool.false_eq_true, and_false, if_false, Option.some.injEq, Nat.add_zero,
            Nat.sub_zero]
          split_ifs <;> omega
      | true =>
          simp only [Counts.readsLeft, TwoPhase.Tracks.next, destination, Option.isSome_some,
            if_true, and_true]
          split_ifs <;> omega

/-- An edge of the source brings the acknowledge of a word that was read nearer. -/
theorem TwoPhase.Tracks.acksLeft_step {cdc : TwoPhase T} {counts : Counts}
    (tracks : cdc.Tracks counts) (edges : TwoPhaseEdges T) {target : Nat}
    (read : target ≤ counts.taken) :
    (next counts edges (accepted cdc edges).length (transferred cdc edges).length).acksLeft
        target ≤
      counts.acksLeft target - (if edges.source.isSome then 1 else 0) := by
  obtain ⟨reqDst, req0, req1, taken, ackSrc, ack, close⟩ := tracks.ring
  cases source : edges.source with
  | none => simp [Counts.acksLeft, TwoPhase.Tracks.next, source]
  | some offer =>
      simp only [Counts.acksLeft, TwoPhase.Tracks.next, source, Option.isSome_some, if_true]
      split_ifs <;> omega

/-- Words that have been accepted are read within four edges of a ready destination. -/
theorem TwoPhase.Tracks.reads (zero : T) (later : List (TwoPhaseEdges T)) :
    ∀ {cdc : TwoPhase T} {counts : Counts} {target : Nat}, cdc.Tracks counts →
      target ≤ counts.sent →
      counts.readsLeft target ≤ later.countP (fun edges => edges.destination = some true) →
      target ≤ counts.taken +
        ((twoPhaseMachine zero).observedFrom transferred cdc later).length := by
  induction later with
  | nil =>
      intro cdc counts target tracks sent enough
      rw [List.countP_nil, Counts.readsLeft] at enough
      by_contra unread
      have behind : counts.taken < target := Nat.lt_of_not_le unread
      rw [if_pos behind] at enough
      omega
  | cons edges later inductionHypothesis =>
      intro cdc counts target tracks sent enough
      have nearer := tracks.readsLeft_step edges sent
      have stillSent : target ≤ counts.sent + (accepted cdc edges).length :=
        Nat.le_trans sent (Nat.le_add_right ..)
      rw [List.countP_cons] at enough
      simp only [decide_eq_true_eq] at enough
      have read := inductionHypothesis (tracks.step zero edges) stillSent (by omega)
      rw [Machine.observedFrom, List.length_append, ← Nat.add_assoc]
      exact read

/-- The source knows within two of its edges that words have been read. -/
theorem TwoPhase.Tracks.acks (zero : T) (later : List (TwoPhaseEdges T)) :
    ∀ {cdc : TwoPhase T} {counts : Counts} {target : Nat}, cdc.Tracks counts →
      target ≤ counts.taken → counts.acksLeft target ≤ later.countP (·.source.isSome) →
      ∃ countsLater, ((twoPhaseMachine zero).runFrom cdc later).Tracks countsLater ∧
        target ≤ countsLater.ack ∧
        countsLater.sent =
          counts.sent + ((twoPhaseMachine zero).observedFrom accepted cdc later).length := by
  induction later with
  | nil =>
      intro cdc counts target tracks read enough
      refine ⟨counts, tracks, ?_, rfl⟩
      rw [List.countP_nil, Counts.acksLeft] at enough
      by_contra unknown
      rw [if_pos (Nat.lt_of_not_le unknown)] at enough
      omega
  | cons edges later inductionHypothesis =>
      intro cdc counts target tracks read enough
      have nearer := tracks.acksLeft_step edges read
      have stillRead : target ≤ counts.taken + (transferred cdc edges).length :=
        Nat.le_trans read (Nat.le_add_right ..)
      rw [List.countP_cons] at enough
      obtain ⟨countsLater, tracksLater, known, sent⟩ :=
        inductionHypothesis (tracks.step zero edges) stillRead (by omega)
      refine ⟨countsLater, tracksLater, known, ?_⟩
      rw [Machine.observedFrom, List.length_append, ← Nat.add_assoc]
      exact sent

variable (zero : T) (inputs : List (TwoPhaseEdges T))

/-- Words cross in order, at most one at a time; the one that is offered is the next one and
stays until it is read; each word is read within four edges of a ready destination, and after
two edges of the source the next one can be accepted. -/
structure TwoPhaseTransfers : Prop where
  inOrder : (twoPhaseMachine zero).observed transferred inputs <+:
    (twoPhaseMachine zero).observed accepted inputs
  oneHeld : ((twoPhaseMachine zero).observed accepted inputs).length ≤
    ((twoPhaseMachine zero).observed transferred inputs).length + 1
  offersNext : ((twoPhaseMachine zero).run inputs).dst.valid = true →
    (twoPhaseMachine zero).observed accepted inputs =
      (twoPhaseMachine zero).observed transferred inputs ++
        [((twoPhaseMachine zero).run inputs).dst.dataDst]
  reads : ∀ later, 4 ≤ later.countP (fun edges => edges.destination = some true) →
    (twoPhaseMachine zero).observed accepted inputs <+:
      (twoPhaseMachine zero).observed transferred (inputs ++ later)
  frees : ∀ later, (twoPhaseMachine zero).observed transferred inputs =
      (twoPhaseMachine zero).observed accepted inputs →
    2 ≤ later.countP (·.source.isSome) →
    ((twoPhaseMachine zero).run (inputs ++ later)).src.ready = true ∨
      (twoPhaseMachine zero).observed accepted inputs ≠
        (twoPhaseMachine zero).observed accepted (inputs ++ later)

/-- Whatever the two clocks do, `cdc_2phase` neither loses, nor repeats, nor reorders a word. -/
theorem twoPhase_transfers : TwoPhaseTransfers zero inputs := by
  have isPrefix : ∀ run, (twoPhaseMachine zero).observed transferred run <+:
      (twoPhaseMachine zero).observed accepted run := by
    intro run
    obtain ⟨-, -, -, -, conserved⟩ := twoPhaseTracks zero run
    rw [conserved]
    exact List.prefix_append ..
  obtain ⟨counts, tracks, sent, taken, conserved⟩ := twoPhaseTracks zero inputs
  constructor
  case inOrder => exact isPrefix inputs
  case oneHeld =>
    rw [conserved, List.length_append]
    apply Nat.add_le_add_left
    rw [TwoPhase.held]
    split <;> simp
  case offersNext =>
    intro valid
    rw [conserved, tracks.held_of_valid valid]
  case reads =>
    intro later enough
    have few : counts.readsLeft counts.sent ≤ 4 := by
      rw [Counts.readsLeft]
      split_ifs <;> omega
    have read := TwoPhase.Tracks.reads zero later tracks (Nat.le_refl _)
      (Nat.le_trans few enough)
    have now : (twoPhaseMachine zero).observed accepted inputs <+:
        (twoPhaseMachine zero).observed accepted (inputs ++ later) := by
      rw [Machine.observed, Machine.observed, Machine.observedFrom_append]
      exact List.prefix_append ..
    apply List.prefix_of_prefix_length_le now (isPrefix (inputs ++ later))
    rw [sent, taken] at read
    have appended : (twoPhaseMachine zero).observed transferred (inputs ++ later) =
        (twoPhaseMachine zero).observed transferred inputs ++
          (twoPhaseMachine zero).observedFrom transferred ((twoPhaseMachine zero).run inputs)
            later := Machine.observedFrom_append ..
    rw [appended, List.length_append]
    exact read
  case frees =>
    intro later all enough
    have read : counts.sent ≤ counts.taken := Nat.le_of_eq (by rw [sent, taken, all])
    have few : counts.acksLeft counts.sent ≤ 2 := by
      rw [Counts.acksLeft]
      split_ifs <;> omega
    obtain ⟨countsLater, tracksLater, known, sentLater⟩ :=
      TwoPhase.Tracks.acks zero later tracks read (Nat.le_trans few enough)
    have appended : (twoPhaseMachine zero).observed accepted (inputs ++ later) =
        (twoPhaseMachine zero).observed accepted inputs ++
          (twoPhaseMachine zero).observedFrom accepted ((twoPhaseMachine zero).run inputs) later :=
      Machine.observedFrom_append ..
    by_cases idle : ((twoPhaseMachine zero).observedFrom accepted
        ((twoPhaseMachine zero).run inputs) later).length = 0
    · left
      have behind := tracksLater.ring
      rw [Machine.run_append, tracksLater.ready, decide_eq_true_eq]
      have order := Nat.le_trans behind.ack (Nat.le_trans behind.ackSrc (Nat.le_trans behind.taken
        (Nat.le_trans behind.req1 (Nat.le_trans behind.req0 behind.reqDst))))
      omega
    · right
      intro same
      have lengths := congrArg List.length same
      rw [appended, List.length_append] at lengths
      omega

end Runs

end CoreVMcu.Cdc
