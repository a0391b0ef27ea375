import Mathlib.Order.Basic
import CoreVMcu.Clocked.Machine
import CoreVMcu.I2s.Channels

/-!
# The hand-over of received words

A completed word waits in a shadow register until the FIFO takes it.  With one channel a
word is lost if the one before it is taken in the very cycle that completes it.  With two
channels the words of channel 1 are never marked as taken.
-/

namespace CoreVMcu.I2s

open Clocked

/-- The inputs of `i2s_rx_channel` at a rising edge of its clock. -/
structure RxInput where
  cfgEn : Bool
  ch0 : Bool
  ch1 : Bool
  ws : Bool
  fifoDataReady : Bool

/-- `i2s_rx_channel`. -/
def rxMachine (cfg : I2sCfg) : Machine RxChannel RxInput where
  init := .reset
  step rx input := rx.posedge cfg input.cfgEn input.ch0 input.ch1 input.ws input.fifoDataReady

/-- The two channels. -/
inductive RxSide where
  | ch0
  | ch1
  deriving DecidableEq

namespace HandOver

variable (cfg : I2sCfg) (schedule : Nat → RxInput)

/-- The registers before the `n`-th edge. -/
def rxAt (n : Nat) : RxChannel := (rxMachine cfg).run (inputsUpTo schedule n)

/-- The `n`-th edge completes a word. -/
def completes (n : Nat) : Bool := (rxAt cfg schedule n).captures cfg

/-- The FIFO accepts at the `n`-th edge. -/
def accepts (n : Nat) : Bool := (schedule n).fifoDataReady

/-- The word that a side completes. -/
def completedWord (side : RxSide) (n : Nat) : BitVec 32 :=
  match side with
  | .ch0 => (rxAt cfg schedule n).rShiftregCh0
  | .ch1 => (rxAt cfg schedule n).rShiftregCh1

/-- A word is shown that a side holds. -/
def shows (side : RxSide) (m : Nat) : Bool :=
  match side with
  | .ch0 => (rxAt cfg schedule m).rCh0Valid
  | .ch1 => !(rxAt cfg schedule m).rCh0Valid && (rxAt cfg schedule m).rCh1Valid

/-- The `m`-th edge lies after the `n`-th one and not after the next one that completes a
word. -/
structure InWordTime (n m : Nat) : Prop where
  after : n < m
  noneBetween : ∀ k, n < k → k < m → completes cfg schedule k = false

/-- The `m`-th edge transfers the word that a side completed at the `n`-th one. -/
structure Transfers (side : RxSide) (n m : Nat) : Prop where
  completed : completes cfg schedule n = true
  wordTime : InWordTime cfg schedule n m
  accepted : accepts schedule m = true
  shown : shows cfg schedule side m = true

/-- The FIFO accepts once in each word time, or twice with two channels. -/
def AcceptsEnough : Prop :=
  ∀ n, completes cfg schedule n = true →
    ∃ m, InWordTime cfg schedule n m ∧ accepts schedule m = true ∧
      (cfg.twoCh = true → ∃ k, m < k ∧ InWordTime cfg schedule n k ∧ accepts schedule k = true)

/-- Each completed word is transferred once, channel 0 before channel 1, and nothing else. -/
structure HandsOver : Prop where
  ch0Once : ∀ n, completes cfg schedule n = true → ∃! m, Transfers cfg schedule .ch0 n m
  ch1Once : cfg.twoCh = true → ∀ n, completes cfg schedule n = true →
    ∃! m, Transfers cfg schedule .ch1 n m
  inOrder : ∀ n m k, Transfers cfg schedule .ch0 n m → Transfers cfg schedule .ch1 n k → m < k
  nothingElse : ∀ m, (rxAt cfg schedule m).fifoDataValid = true → accepts schedule m = true →
    ∃ side n, (side = .ch1 → cfg.twoCh = true) ∧ Transfers cfg schedule side n m ∧
      (rxAt cfg schedule m).fifoData = completedWord cfg schedule side n

/-- With one channel the FIFO accepts in each word time before the edge that completes the
next word; with two channels it accepts no third time. -/
def InTime : Prop :=
  ∀ n, completes cfg schedule n = true →
    (cfg.twoCh = false → ∃ m, InWordTime cfg schedule n m ∧ accepts schedule m = true ∧
      completes cfg schedule m = false) ∧
    (cfg.twoCh = true → ∀ m k l, m < k → k < l → InWordTime cfg schedule n l →
      n < m → accepts schedule m = true → accepts schedule k = true →
      accepts schedule l = false)

variable {cfg schedule} {n m k : Nat}

theorem rxAt_succ (n : Nat) :
    rxAt cfg schedule (n + 1) =
      (rxAt cfg schedule n).posedge cfg (schedule n).cfgEn (schedule n).ch0 (schedule n).ch1
        (schedule n).ws (schedule n).fifoDataReady := by
  rw [rxAt, inputsUpTo_succ, Machine.run_snoc]
  rfl

/-- A word of channel 0 is kept until the FIFO accepts it, also if it is a new one. -/
theorem ch0Valid_succ (n : Nat) :
    (rxAt cfg schedule (n + 1)).rCh0Valid =
      (!((rxAt cfg schedule n).rCh0Valid && accepts schedule n) &&
        (completes cfg schedule n || (rxAt cfg schedule n).rCh0Valid)) := by
  rw [rxAt_succ]
  change (if (rxAt cfg schedule n).rCh0Valid && accepts schedule n then false else _) = _
  cases (rxAt cfg schedule n).rCh0Valid && accepts schedule n <;> rfl

/-- A word of channel 1 is kept for ever. -/
theorem ch1Valid_succ (n : Nat) :
    (rxAt cfg schedule (n + 1)).rCh1Valid =
      (completes cfg schedule n && cfg.twoCh || (rxAt cfg schedule n).rCh1Valid) := by
  rw [rxAt_succ]
  change (if (rxAt cfg schedule n).rCh0Valid then if accepts schedule n then _ else
    if (rxAt cfg schedule n).rCh1Valid then if accepts schedule n then false else _ else _
    else _) = (rxAt cfg schedule n).ch1ValidSet cfg
  cases accepts schedule n <;> simp

theorem shadowCh0_succ (n : Nat) :
    (rxAt cfg schedule (n + 1)).rShiftregCh0Shadow =
      if completes cfg schedule n then (rxAt cfg schedule n).rShiftregCh0
      else (rxAt cfg schedule n).rShiftregCh0Shadow := by
  rw [rxAt_succ]
  rfl

theorem shadowCh1_succ (n : Nat) :
    (rxAt cfg schedule (n + 1)).rShiftregCh1Shadow =
      if completes cfg schedule n && cfg.twoCh then (rxAt cfg schedule n).rShiftregCh1
      else (rxAt cfg schedule n).rShiftregCh1Shadow := by
  rw [rxAt_succ]
  rfl

/-! ## Word times -/

namespace InWordTime

theorem succ (n : Nat) : InWordTime cfg schedule n (n + 1) where
  after := Nat.lt_succ_self n
  noneBetween _ after before := absurd before (Nat.not_lt.mpr after)

theorem mono (inside : InWordTime cfg schedule n m) (after : n < k) (le : k ≤ m) :
    InWordTime cfg schedule n k where
  after := after
  noneBetween j later before := inside.noneBetween j later (Nat.lt_of_lt_of_le before le)

theorem extend (inside : InWordTime cfg schedule n m)
    (goesOn : completes cfg schedule m = false) : InWordTime cfg schedule n (m + 1) where
  after := Nat.lt_succ_of_lt inside.after
  noneBetween j later before := by
    cases Nat.eq_or_lt_of_le (Nat.le_of_lt_succ before) with
    | inl same => exact same ▸ goesOn
    | inr earlier => exact inside.noneBetween j later earlier

/-- An edge that completes a word is not passed. -/
theorem le_of_completes (inside : InWordTime cfg schedule n m) (after : n < k)
    (completed : completes cfg schedule k = true) : m ≤ k := by
  by_contra later
  rw [inside.noneBetween k after (Nat.lt_of_not_le later)] at completed
  exact Bool.false_ne_true completed

/-- What holds after a word is completed and is kept by every edge until the next one. -/
theorem induction {motive : Nat → Prop} (inside : InWordTime cfg schedule n m)
    (start : motive (n + 1))
    (next : ∀ k, InWordTime cfg schedule n k → k < m → completes cfg schedule k = false →
      motive k → motive (k + 1)) : motive m := by
  obtain ⟨distance, rfl⟩ := Nat.exists_eq_add_of_lt inside.after
  induction distance with
  | zero => exact start
  | succ distance inductionHypothesis =>
      have before : n + distance + 1 < n + (distance + 1) + 1 := by omega
      have earlier := inside.mono (by omega) (Nat.le_of_lt before)
      refine next _ earlier before (inside.noneBetween _ (by omega) before)
        (inductionHypothesis earlier ?_)
      intro k inside below
      exact next k inside (Nat.lt_trans below before)

/-- The first edge of a word time at which the FIFO accepts. -/
theorem exists_first (inside : InWordTime cfg schedule n m) (accepted : accepts schedule m = true) :
    ∃ k ≤ m, InWordTime cfg schedule n k ∧ accepts schedule k = true ∧
      ∀ j, n < j → j < k → accepts schedule j = false := by
  induction m using Nat.strongRecOn with
  | ind m inductionHypothesis =>
      by_cases earlier : ∃ j, n < j ∧ j < m ∧ accepts schedule j = true
      · obtain ⟨j, after, before, accepted⟩ := earlier
        obtain ⟨k, le, found⟩ :=
          inductionHypothesis j before (inside.mono after (Nat.le_of_lt before)) accepted
        exact ⟨k, Nat.le_trans le (Nat.le_of_lt before), found⟩
      · refine ⟨m, Nat.le_refl m, inside, accepted, ?_⟩
        intro j after before
        exact Bool.eq_false_iff.mpr fun accepted => earlier ⟨j, after, before, accepted⟩

variable (inside : InWordTime cfg schedule n m) (completed : completes cfg schedule n = true)

include inside

/-- In its word time a word of channel 0 is shown until it is accepted. -/
theorem ch0Valid_iff :
    (rxAt cfg schedule m).rCh0Valid = true ↔
      (rxAt cfg schedule (n + 1)).rCh0Valid = true ∧
        ∀ j, n < j → j < m → accepts schedule j = false := by
  refine inside.induction (motive := fun m => (rxAt cfg schedule m).rCh0Valid = true ↔
    (rxAt cfg schedule (n + 1)).rCh0Valid = true ∧
      ∀ j, n < j → j < m → accepts schedule j = false) ?_ ?_
  · constructor
    · exact fun valid => ⟨valid, fun j after before => absurd before (Nat.not_lt.mpr after)⟩
    · exact fun both => both.1
  · intro k within _ goesOn before
    rw [ch0Valid_succ, goesOn, Bool.false_or]
    constructor
    · intro stays
      simp only [Bool.and_eq_true, Bool.not_eq_true', Bool.and_eq_false_iff] at stays
      obtain ⟨refused, valid⟩ := stays
      obtain ⟨start, none⟩ := before.mp valid
      refine ⟨start, ?_⟩
      intro j after upTo
      cases Nat.eq_or_lt_of_le (Nat.le_of_lt_succ upTo) with
      | inl same =>
          rw [same]
          exact refused.resolve_left (by rw [valid]; exact Bool.noConfusion)
      | inr earlier => exact none j after earlier
    · rintro ⟨start, none⟩
      have valid :=
        before.mpr ⟨start, fun j after earlier => none j after (Nat.lt_succ_of_lt earlier)⟩
      rw [valid, none k within.after (Nat.lt_succ_self k)]
      rfl

include completed

theorem shadowCh0 :
    (rxAt cfg schedule m).rShiftregCh0Shadow = completedWord cfg schedule .ch0 n := by
  refine inside.induction (motive := fun m =>
    (rxAt cfg schedule m).rShiftregCh0Shadow = completedWord cfg schedule .ch0 n) ?_ ?_
  · rw [shadowCh0_succ, if_pos completed]
    rfl
  · intro k _ _ goesOn before
    rw [shadowCh0_succ, goesOn]
    exact before

theorem shadowCh1 (two : cfg.twoCh = true) :
    (rxAt cfg schedule m).rShiftregCh1Shadow = completedWord cfg schedule .ch1 n := by
  refine inside.induction (motive := fun m =>
    (rxAt cfg schedule m).rShiftregCh1Shadow = completedWord cfg schedule .ch1 n) ?_ ?_
  · rw [shadowCh1_succ, completed, two]
    rfl
  · intro k _ _ goesOn before
    rw [shadowCh1_succ, goesOn]
    exact before

theorem ch1Valid (two : cfg.twoCh = true) : (rxAt cfg schedule m).rCh1Valid = true := by
  refine inside.induction (motive := fun m => (rxAt cfg schedule m).rCh1Valid = true) ?_ ?_
  · rw [ch1Valid_succ, completed, two]
    rfl
  · intro k _ _ _ before
    rw [ch1Valid_succ, before, Bool.or_true]

end InWordTime

/-- Without a second channel nothing is shown of it. -/
theorem ch1Valid_of_oneCh (one : cfg.twoCh = false) (n : Nat) :
    (rxAt cfg schedule n).rCh1Valid = false := by
  induction n with
  | zero => rfl
  | succ n inductionHypothesis =>
      rw [ch1Valid_succ, one, inductionHypothesis, Bool.and_false, Bool.or_false]

/-- What is shown belongs to the word that was completed last. -/
theorem exists_completes (valid : (rxAt cfg schedule m).fifoDataValid = true) :
    ∃ n, completes cfg schedule n = true ∧ InWordTime cfg schedule n m := by
  induction m with
  | zero => exact absurd valid Bool.false_ne_true
  | succ m inductionHypothesis =>
      cases completed : completes cfg schedule m with
      | true => exact ⟨m, completed, .succ m⟩
      | false =>
          have earlier : (rxAt cfg schedule m).fifoDataValid = true := by
            rw [RxChannel.fifoDataValid, ch0Valid_succ, ch1Valid_succ, completed] at valid
            rw [RxChannel.fifoDataValid]
            simp only [Bool.false_or, Bool.false_and, Bool.or_eq_true, Bool.and_eq_true] at valid ⊢
            exact valid.imp_left And.right
          obtain ⟨n, done, inside⟩ := inductionHypothesis earlier
          exact ⟨n, done, inside.extend completed⟩

/-- A word of channel 0 is transferred at the first edge of its word time that the FIFO
accepts at. -/
theorem transfers_ch0_iff (completed : completes cfg schedule n = true) :
    Transfers cfg schedule .ch0 n m ↔
      (rxAt cfg schedule (n + 1)).rCh0Valid = true ∧ InWordTime cfg schedule n m ∧
        accepts schedule m = true ∧ ∀ j, n < j → j < m → accepts schedule j = false := by
  constructor
  · intro transfers
    obtain ⟨start, none⟩ := transfers.wordTime.ch0Valid_iff.mp transfers.shown
    exact ⟨start, transfers.wordTime, transfers.accepted, none⟩
  · rintro ⟨start, inside, accepted, none⟩
    exact ⟨completed, inside, accepted, inside.ch0Valid_iff.mpr ⟨start, none⟩⟩

/-- A word of channel 0 is lost if the one before it is taken at the edge that completes it. -/
theorem ch0Once_iff (completed : completes cfg schedule n = true)
    (enough : AcceptsEnough cfg schedule) :
    (∃! m, Transfers cfg schedule .ch0 n m) ↔ (rxAt cfg schedule (n + 1)).rCh0Valid = true := by
  constructor
  · rintro ⟨m, transfers, -⟩
    exact ((transfers_ch0_iff completed).mp transfers).1
  · intro start
    obtain ⟨m, inside, accepted, -⟩ := enough n completed
    obtain ⟨k, -, within, first, none⟩ := inside.exists_first accepted
    refine ⟨k, (transfers_ch0_iff completed).mpr ⟨start, within, first, none⟩, ?_⟩
    intro other transfers
    obtain ⟨-, -, acceptedOther, noneOther⟩ := (transfers_ch0_iff completed).mp transfers
    rcases Nat.lt_trichotomy other k with before | same | after
    · exact absurd ((none other transfers.wordTime.after before).symm.trans acceptedOther)
        Bool.false_ne_true
    · exact same
    · exact absurd ((noneOther k within.after after).symm.trans first) Bool.false_ne_true

/-- A new word of channel 0 is marked unless the one before it is accepted at the same edge. -/
theorem ch0Valid_succ_of_completes (completed : completes cfg schedule n = true) :
    (rxAt cfg schedule (n + 1)).rCh0Valid = true ↔
      ¬((rxAt cfg schedule n).rCh0Valid = true ∧ accepts schedule n = true) := by
  rw [ch0Valid_succ, completed, Bool.true_or, Bool.and_true, Bool.not_eq_true',
    ← Bool.not_eq_true, Bool.and_eq_true]

/-- A word that waits when the next one is completed was not accepted in between. -/
theorem none_accepted (valid : (rxAt cfg schedule m).rCh0Valid = true) :
    ∃ n, completes cfg schedule n = true ∧ InWordTime cfg schedule n m ∧
      ∀ j, n < j → j < m → accepts schedule j = false := by
  obtain ⟨n, completed, inside⟩ := exists_completes (m := m) (by
    rw [RxChannel.fifoDataValid, valid, Bool.true_or])
  exact ⟨n, completed, inside, (inside.ch0Valid_iff.mp valid).2⟩

/-- A word of channel 1 is transferred at every accepting edge but the first. -/
theorem transfers_ch1_iff (two : cfg.twoCh = true) (completed : completes cfg schedule n = true) :
    Transfers cfg schedule .ch1 n m ↔
      InWordTime cfg schedule n m ∧ accepts schedule m = true ∧
        (rxAt cfg schedule m).rCh0Valid = false := by
  constructor
  · intro transfers
    have shown := transfers.shown
    rw [shows, Bool.and_eq_true, Bool.not_eq_true'] at shown
    exact ⟨transfers.wordTime, transfers.accepted, shown.1⟩
  · rintro ⟨inside, accepted, taken⟩
    refine ⟨completed, inside, accepted, ?_⟩
    rw [shows, taken, inside.ch1Valid completed two]
    rfl

theorem not_both {b : Bool} (high : b = true) (low : b = false) : False :=
  Bool.false_ne_true (low.symm.trans high)

/-! ## One channel -/

/-- With one channel no word is lost exactly if each is accepted before the next one is
completed. -/
theorem ch0_kept_iff (one : cfg.twoCh = false) (enough : AcceptsEnough cfg schedule) :
    (∀ n, completes cfg schedule n = true → (rxAt cfg schedule (n + 1)).rCh0Valid = true) ↔
      InTime cfg schedule := by
  constructor
  · intro kept n completed
    refine ⟨fun _ => ?_, fun two => (not_both two one).elim⟩
    obtain ⟨m, inside, accepted, -⟩ := enough n completed
    obtain ⟨k, -, within, first, none⟩ := inside.exists_first accepted
    refine ⟨k, within, first, Bool.eq_false_iff.mpr fun next => ?_⟩
    have valid := within.ch0Valid_iff.mpr ⟨kept n completed, none⟩
    exact (ch0Valid_succ_of_completes next).mp (kept k next) ⟨valid, first⟩
  · intro inTime n completed
    rw [ch0Valid_succ_of_completes completed]
    rintro ⟨valid, -⟩
    obtain ⟨p, before, inside, none⟩ := none_accepted valid
    obtain ⟨k, within, accepted, notLast⟩ := (inTime p before).1 one
    cases Nat.eq_or_lt_of_le (within.le_of_completes inside.after completed) with
    | inl same => exact not_both completed (same ▸ notLast)
    | inr earlier => exact not_both accepted (none k within.after earlier)

/-- With two channels no word of channel 0 is lost, since the FIFO accepts it before the
last edge of a word time. -/
theorem ch0_kept_of_twoCh (two : cfg.twoCh = true) (enough : AcceptsEnough cfg schedule)
    (completed : completes cfg schedule n = true) :
    (rxAt cfg schedule (n + 1)).rCh0Valid = true := by
  rw [ch0Valid_succ_of_completes completed]
  rintro ⟨valid, -⟩
  obtain ⟨p, before, inside, none⟩ := none_accepted valid
  obtain ⟨m, within, accepted, more⟩ := enough p before
  obtain ⟨k, later, inside', -⟩ := more two
  have upTo := inside'.le_of_completes inside.after completed
  exact not_both accepted (none m within.after (Nat.lt_of_lt_of_le later upTo))

/-- After the first acceptance of a word time the word of channel 0 is no longer shown. -/
theorem ch0_taken_iff (inside : InWordTime cfg schedule n m)
    (kept : (rxAt cfg schedule (n + 1)).rCh0Valid = true) :
    (rxAt cfg schedule m).rCh0Valid = false ↔ ∃ j, n < j ∧ j < m ∧ accepts schedule j = true := by
  rw [← Bool.not_eq_true, inside.ch0Valid_iff]
  constructor
  · intro taken
    by_contra none
    refine taken ⟨kept, fun j after before => Bool.eq_false_iff.mpr fun accepted => ?_⟩
    exact none ⟨j, after, before, accepted⟩
  · rintro ⟨j, after, before, accepted⟩ ⟨-, none⟩
    exact not_both accepted (none j after before)

/-- With two channels each word of channel 1 is transferred once exactly if the FIFO accepts
no third time. -/
theorem ch1Once_iff (two : cfg.twoCh = true) (enough : AcceptsEnough cfg schedule) :
    (∀ n, completes cfg schedule n = true → ∃! m, Transfers cfg schedule .ch1 n m) ↔
      InTime cfg schedule := by
  constructor
  · intro once n completed
    refine ⟨fun one => (not_both two one).elim, ?_⟩
    intro _ m k l first second inside after acceptedM acceptedK
    have kept := ch0_kept_of_twoCh two enough completed
    by_contra accepted
    rw [Bool.not_eq_false] at accepted
    have insideK := inside.mono (Nat.lt_trans after first) (Nat.le_of_lt second)
    have transfersK := (transfers_ch1_iff two completed).mpr
      ⟨insideK, acceptedK, (ch0_taken_iff insideK kept).mpr ⟨m, after, first, acceptedM⟩⟩
    have transfersL := (transfers_ch1_iff two completed).mpr
      ⟨inside, accepted,
        (ch0_taken_iff inside kept).mpr ⟨m, after, Nat.lt_trans first second, acceptedM⟩⟩
    exact Nat.ne_of_lt second ((once n completed).unique transfersK transfersL)
  · intro inTime n completed
    have kept := ch0_kept_of_twoCh two enough completed
    obtain ⟨m, inside, acceptedM, more⟩ := enough n completed
    obtain ⟨k, later, insideK, acceptedK⟩ := more two
    refine ⟨k, (transfers_ch1_iff two completed).mpr ⟨insideK, acceptedK,
      (ch0_taken_iff insideK kept).mpr ⟨m, inside.after, later, acceptedM⟩⟩, ?_⟩
    intro l transfers
    obtain ⟨insideL, acceptedL, taken⟩ := (transfers_ch1_iff two completed).mp transfers
    obtain ⟨j, after, before, acceptedJ⟩ := (ch0_taken_iff insideL kept).mp taken
    have third := (inTime n completed).2 two
    rcases Nat.lt_trichotomy l k with less | same | greater
    · exact (not_both acceptedK (third j l k before less insideK after acceptedJ acceptedL)).elim
    · exact same
    · exact (not_both acceptedL
        (third m k l later greater insideL inside.after acceptedM acceptedK)).elim

theorem inOrder {n m k : Nat} (first : Transfers cfg schedule .ch0 n m)
    (second : Transfers cfg schedule .ch1 n k) : m < k := by
  have shown := second.shown
  rw [shows, Bool.and_eq_true, Bool.not_eq_true'] at shown
  obtain ⟨start, none⟩ := first.wordTime.ch0Valid_iff.mp first.shown
  obtain ⟨j, after, before, accepted⟩ := (ch0_taken_iff second.wordTime start).mp shown.1
  cases Nat.lt_or_ge j m with
  | inl earlier => exact (not_both accepted (none j after earlier)).elim
  | inr later => exact Nat.lt_of_le_of_lt later before

/-- Whatever is transferred is a completed word. -/
theorem nothingElse (valid : (rxAt cfg schedule m).fifoDataValid = true)
    (accepted : accepts schedule m = true) :
    ∃ side n, (side = .ch1 → cfg.twoCh = true) ∧ Transfers cfg schedule side n m ∧
      (rxAt cfg schedule m).fifoData = completedWord cfg schedule side n := by
  obtain ⟨n, completed, inside⟩ := exists_completes valid
  cases shown : (rxAt cfg schedule m).rCh0Valid with
  | true =>
      refine
        ⟨.ch0, n, fun other => RxSide.noConfusion other, ⟨completed, inside, accepted, shown⟩, ?_⟩
      rw [RxChannel.fifoData, shown, ← inside.shadowCh0 completed]
      rfl
  | false =>
      rw [RxChannel.fifoDataValid, shown, Bool.false_or] at valid
      have two : cfg.twoCh = true := by
        by_contra one
        exact not_both valid (ch1Valid_of_oneCh (Bool.eq_false_iff.mpr one) m)
      refine ⟨.ch1, n, fun _ => two, ⟨completed, inside, accepted, ?_⟩, ?_⟩
      · rw [shows, shown, valid]
        rfl
      · rw [RxChannel.fifoData, shown, valid, ← inside.shadowCh1 completed two]
        rfl

variable (cfg schedule) in
/-- In every stream in which the FIFO accepts often enough, the words are handed over as they
should exactly if, with one channel, each is accepted before the next one is completed, and,
with two channels, the FIFO accepts no third time. -/
theorem handsOver_iff (enough : AcceptsEnough cfg schedule) :
    HandsOver cfg schedule ↔ InTime cfg schedule := by
  have once (n : Nat) (completed : completes cfg schedule n = true) :=
    ch0Once_iff completed enough
  cases two : cfg.twoCh with
  | false =>
      rw [← ch0_kept_iff two enough]
      constructor
      · intro handsOver n completed
        exact (once n completed).mp (handsOver.ch0Once n completed)
      · intro kept
        refine ⟨fun n completed => (once n completed).mpr (kept n completed), ?_,
          fun _ _ _ => inOrder, fun _ => nothingElse⟩
        exact fun other => (not_both other two).elim
  | true =>
      rw [← ch1Once_iff two enough]
      constructor
      · exact fun handsOver => handsOver.ch1Once two
      · intro ch1Once
        refine ⟨fun n completed => ?_, fun _ => ch1Once, fun _ _ _ => inOrder,
          fun _ => nothingElse⟩
        exact (once n completed).mpr (ch0_kept_of_twoCh two enough completed)

/-- With words of more than one bit the edge after a completed word does not complete one. -/
theorem not_completes_succ (long : cfg.wlen ≠ 0) (completed : completes cfg schedule n = true) :
    completes cfg schedule (n + 1) = false := by
  obtain ⟨started, done⟩ := Bool.and_eq_true_iff.mp completed
  have count : (rxAt cfg schedule (n + 1)).rCountBit = 0 := by
    rw [rxAt_succ]
    change (if (rxAt cfg schedule n).rStartedDly then
      if (rxAt cfg schedule n).wordDone cfg then 0 else _ else _) = _
    rw [if_pos started, if_pos done]
  rw [completes, RxChannel.captures, RxChannel.wordDone, count, beq_false_of_ne long.symm,
    Bool.and_false]

/-- A FIFO that accepts at every edge, and a channel that is started at the first one. -/
def alwaysAccepts (n : Nat) : RxInput := ⟨true, n % 2 == 0, false, true, true⟩

theorem acceptsEnough_alwaysAccepts (long : cfg.wlen ≠ 0) : AcceptsEnough cfg alwaysAccepts := by
  intro n completed
  refine ⟨n + 1, .succ n, rfl, fun _ => ⟨n + 2, Nat.lt_succ_self _, ?_, rfl⟩⟩
  exact (InWordTime.succ n).extend (not_completes_succ long completed)

/-- Bytes of one channel are handed over to a FIFO that always accepts. -/
theorem handsOver_alwaysAccepts : HandsOver ⟨false, 7, false⟩ alwaysAccepts := by
  refine (handsOver_iff _ _ (acceptsEnough_alwaysAccepts (by decide))).mpr fun n completed => ?_
  refine ⟨fun _ => ⟨n + 1, .succ n, rfl, ?_⟩, fun two => Bool.noConfusion two⟩
  exact not_completes_succ (by decide) completed

/-- With two channels of four bits the same word of channel 1 is transferred twice. -/
theorem twoCh_not_handsOver :
    AcceptsEnough ⟨true, 3, false⟩ alwaysAccepts ∧
      ¬HandsOver ⟨true, 3, false⟩ alwaysAccepts := by
  have enough : AcceptsEnough ⟨true, 3, false⟩ alwaysAccepts :=
    acceptsEnough_alwaysAccepts (by decide)
  refine ⟨enough, fun handsOver => ?_⟩
  have inTime := (ch1Once_iff rfl enough).mp (handsOver.ch1Once rfl)
  have inside : InWordTime ⟨true, 3, false⟩ alwaysAccepts 5 8 :=
    ((InWordTime.succ 5).extend (by decide)).extend (by decide)
  exact not_both rfl ((inTime 5 (by decide)).2 rfl 6 7 8 (by decide) (by decide) inside
    (by decide) rfl rfl)

end HandOver

end CoreVMcu.I2s
