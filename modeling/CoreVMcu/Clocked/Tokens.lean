import CoreVMcu.Clocked.Machine
import Mathlib.Algebra.Ring.Nat
import Mathlib.Data.List.Infix

/-!
# Machines that wait for one kind of token at a time

In each of its states such a machine waits for a token of one kind and, apart from
what the view leaves out, nothing happens until it is presented.  The tokens of
each kind come in an order of their own.  The order of the tokens of all kinds,
and with it everything that is seen of the machine, then does not depend on when
they are presented.
-/

namespace Clocked

universe u v w x y z

/-- A machine whose view waits for tokens, in the states that satisfy an invariant:
`reader` is what the view does with the tokens it takes. -/
structure Waiting {State : Type u} {Input : Type v} (machine : Machine State Input)
    (legal : State → Input → Prop) (View : Type w) (Kind : Type x) (Token : Type y) where
  reader : Machine View Token
  awaited : View → Kind
  kind : Token → Kind
  view : State → View
  token : State → Input → Option Token
  invariant : State → Prop
  invariant_init : invariant machine.init
  invariant_step : ∀ state input, invariant state → invariant (machine.step state input)
  view_init : view machine.init = reader.init
  kind_token : ∀ state input taken, invariant state → legal state input →
    token state input = some taken → kind taken = awaited (view state)
  view_step : ∀ state input, invariant state → legal state input →
    view (machine.step state input) =
      (token state input).elim (view state) (reader.step (view state))

namespace Waiting

variable {State : Type u} {Input : Type v} {machine : Machine State Input}
variable {legal : State → Input → Prop} {View : Type w} {Kind : Type x} {Token : Type y}
variable [DecidableEq Kind] (waiting : Waiting machine legal View Kind Token)

omit [DecidableEq Kind] in
theorem invariant_run (inputs : List Input) : waiting.invariant (machine.run inputs) :=
  Machine.run_invariant waiting.invariant_init waiting.invariant_step inputs

/-- The tokens taken along a list of inputs. -/
def history (inputs : List Input) : List Token :=
  machine.observed (fun state input => (waiting.token state input).toList) inputs

/-- How many tokens of a kind are among some tokens. -/
def taken (kind : Kind) (tokens : List Token) : Nat :=
  tokens.countP fun token => waiting.kind token = kind

/-- A schedule presents the tokens of a source, each kind in its order, and presents
the next one some time after the machine begins to wait for it. -/
structure Delivers (source : Kind → Nat → Option Token) (schedule : Nat → Input) : Prop where
  inOrder : ∀ n token,
    waiting.token (machine.run (inputsUpTo schedule n)) (schedule n) = some token →
    source (waiting.kind token)
      (waiting.taken (waiting.kind token) (waiting.history (inputsUpTo schedule n))) = some token
  eventually : ∀ n,
    let kind := waiting.awaited (waiting.view (machine.run (inputsUpTo schedule n)))
    (source kind (waiting.taken kind (waiting.history (inputsUpTo schedule n)))).isSome = true →
    ∃ m, n ≤ m ∧
      (waiting.token (machine.run (inputsUpTo schedule m)) (schedule m)).isSome = true

/-- Every cycle of a schedule is legal. -/
def Legal (_ : Waiting machine legal View Kind Token) (schedule : Nat → Input) : Prop :=
  ∀ n, legal (machine.run (inputsUpTo schedule n)) (schedule n)

/-- Every token of a history is the one that the source has next of the kind that is
awaited. -/
def FedBy (source : Kind → Nat → Option Token) (tokens : List Token) : Prop :=
  ∀ before token, before ++ [token] <+: tokens →
    waiting.kind token = waiting.awaited (waiting.reader.run before) ∧
      source (waiting.kind token) (waiting.taken (waiting.kind token) before) = some token

variable {waiting} {source : Kind → Nat → Option Token}

/-- One history that is fed by a source begins another one. -/
theorem FedBy.comparable {left right : List Token} (leftFed : waiting.FedBy source left)
    (rightFed : waiting.FedBy source right) : left <+: right ∨ right <+: left := by
  induction left using List.reverseRecOn with
  | nil => exact Or.inl List.nil_prefix
  | append_singleton left token inductionHypothesis =>
      have beforeFed : waiting.FedBy source left := fun before other isPrefix =>
        leftFed before other (isPrefix.trans (List.prefix_append ..))
      rcases inductionHypothesis beforeFed with ⟨rest, rfl⟩ | shorter
      · cases rest with
        | nil =>
            rw [List.append_nil]
            exact Or.inr (List.prefix_append ..)
        | cons other rest =>
            -- both histories go on with the next token of the same kind
            have otherPrefix : left ++ [other] <+: left ++ other :: rest :=
              (List.prefix_append_right_inj left).mpr ⟨rest, rfl⟩
            obtain ⟨sameKind, sourceToken⟩ := leftFed left token (List.prefix_refl _)
            obtain ⟨otherKind, sourceOther⟩ := rightFed left other otherPrefix
            rw [otherKind, ← sameKind, sourceToken] at sourceOther
            rw [Option.some.inj sourceOther]
            exact Or.inl otherPrefix
      · exact Or.inr (shorter.trans (List.prefix_append ..))

section Schedules

variable {schedule : Nat → Input}

omit [DecidableEq Kind] in
theorem history_succ (schedule : Nat → Input) (n : Nat) :
    waiting.history (inputsUpTo schedule (n + 1)) =
      waiting.history (inputsUpTo schedule n) ++
        (waiting.token (machine.run (inputsUpTo schedule n)) (schedule n)).toList := by
  rw [inputsUpTo_succ, history, Machine.observed_snoc]
  rfl

omit [DecidableEq Kind] in
/-- The view is what the reader makes of the tokens taken. -/
theorem view_run (legal : waiting.Legal schedule) (n : Nat) :
    waiting.view (machine.run (inputsUpTo schedule n)) =
      waiting.reader.run (waiting.history (inputsUpTo schedule n)) := by
  induction n with
  | zero => exact waiting.view_init
  | succ n inductionHypothesis =>
      rw [history_succ, inputsUpTo_succ, Machine.run_snoc,
        waiting.view_step _ _ (waiting.invariant_run _) (legal n)]
      cases waiting.token (machine.run (inputsUpTo schedule n)) (schedule n) with
      | none =>
          rw [Option.elim_none, Option.toList_none, List.append_nil]
          exact inductionHypothesis
      | some token =>
          rw [Option.elim_some, Option.toList_some, Machine.run_snoc, inductionHypothesis]

omit [DecidableEq Kind] in
/-- What is observed of the machine is what the reader shows of the tokens taken. -/
theorem observed_eq {Event : Type z} {observe : State → Input → List Event}
    {shows : View → Token → List Event}
    (determined : ∀ state input, waiting.invariant state → legal state input →
      observe state input = (waiting.token state input).elim [] (shows (waiting.view state)))
    (legal : waiting.Legal schedule) (n : Nat) :
    machine.observed observe (inputsUpTo schedule n) =
      waiting.reader.observed shows (waiting.history (inputsUpTo schedule n)) := by
  induction n with
  | zero => rfl
  | succ n inductionHypothesis =>
      rw [history_succ, inputsUpTo_succ, Machine.observed_snoc,
        determined _ _ (waiting.invariant_run _) (legal n),
        view_run legal, inductionHypothesis]
      cases waiting.token (machine.run (inputsUpTo schedule n)) (schedule n) with
      | none => rw [Option.elim_none, Option.toList_none, List.append_nil, List.append_nil]
      | some token => rw [Option.elim_some, Option.toList_some, Machine.observed_snoc]

theorem Delivers.fedBy (delivers : waiting.Delivers source schedule)
    (legal : waiting.Legal schedule) (n : Nat) :
    waiting.FedBy source (waiting.history (inputsUpTo schedule n)) := by
  induction n with
  | zero =>
      intro before token isPrefix
      exact absurd (List.prefix_nil.mp isPrefix) (by simp)
  | succ n inductionHypothesis =>
      intro before token isPrefix
      rw [history_succ] at isPrefix
      cases taken : waiting.token (machine.run (inputsUpTo schedule n)) (schedule n) with
      | none =>
          rw [taken, Option.toList_none, List.append_nil] at isPrefix
          exact inductionHypothesis before token isPrefix
      | some last =>
          rw [taken, Option.toList_some] at isPrefix
          rcases List.prefix_concat_iff.mp isPrefix with same | earlier
          · obtain ⟨rfl, sameToken⟩ := List.append_inj' same rfl
            cases sameToken
            rw [← view_run legal]
            exact ⟨waiting.kind_token _ _ _ (waiting.invariant_run _) (legal n) taken,
              delivers.inOrder n token taken⟩
          · exact inductionHypothesis before token earlier

end Schedules

/-- The tokens taken in one of two schedules of a source are taken, some time, in the
other one too. -/
theorem Delivers.history_extends {left right : Nat → Input}
    (leftDelivers : waiting.Delivers source left) (leftLegal : waiting.Legal left)
    (rightDelivers : waiting.Delivers source right) (rightLegal : waiting.Legal right) (n : Nat) :
    ∃ m, waiting.history (inputsUpTo left n) <+: waiting.history (inputsUpTo right m) := by
  -- the histories are comparable, so it is enough that the other one becomes as long
  have comparable : ∀ n m, waiting.history (inputsUpTo left n) <+:
        waiting.history (inputsUpTo right m) ∨
      waiting.history (inputsUpTo right m) <+: waiting.history (inputsUpTo left n) :=
    fun n m => (leftDelivers.fedBy leftLegal n).comparable (rightDelivers.fedBy rightLegal m)
  suffices ∃ m, (waiting.history (inputsUpTo left n)).length ≤
      (waiting.history (inputsUpTo right m)).length by
    obtain ⟨m, long⟩ := this
    refine ⟨m, ?_⟩
    rcases comparable n m with isPrefix | shorter
    · exact isPrefix
    · rw [shorter.eq_of_length_le long]
  induction n with
  | zero => exact ⟨0, Nat.le_refl _⟩
  | succ n inductionHypothesis =>
      obtain ⟨m, long⟩ := inductionHypothesis
      rw [history_succ]
      cases taken : waiting.token (machine.run (inputsUpTo left n)) (left n) with
      | none => exact ⟨m, by simpa using long⟩
      | some token =>
          rcases Nat.lt_or_eq_of_le long with longer | sameLength
          · exact ⟨m, by simpa using Nat.succ_le_of_lt longer⟩
          · have same : waiting.history (inputsUpTo left n) =
                waiting.history (inputsUpTo right m) := by
              rcases comparable n m with before | before
              · exact before.eq_of_length sameLength
              · exact (before.eq_of_length sameLength.symm).symm
            have awaits : waiting.kind token =
                waiting.awaited (waiting.view (machine.run (inputsUpTo right m))) := by
              rw [view_run rightLegal, ← same, ← view_run leftLegal]
              exact waiting.kind_token _ _ _ (waiting.invariant_run _) (leftLegal n) taken
            have available := leftDelivers.inOrder n token taken
            rw [awaits, same] at available
            obtain ⟨later, laterLe, presented⟩ := rightDelivers.eventually m
              (by rw [available]; rfl)
            refine ⟨later + 1, ?_⟩
            have grown := (machine.observed_inputsUpTo_mono
              (fun state input => (waiting.token state input).toList) right laterLe).length_le
            change (waiting.history _).length ≤ (waiting.history _).length at grown
            obtain ⟨next, isNext⟩ := Option.isSome_iff_exists.mp presented
            rw [history_succ, isNext]
            simp only [Option.toList_some, List.length_append, List.length_singleton]
            omega

omit [DecidableEq Kind] in
/-- A schedule in which more tokens are taken shows more. -/
theorem observed_of_history {Event : Type z} {observe : State → Input → List Event}
    {shows : View → Token → List Event}
    (determined : ∀ state input, waiting.invariant state → legal state input →
      observe state input = (waiting.token state input).elim [] (shows (waiting.view state)))
    {left right : Nat → Input} (leftLegal : waiting.Legal left) (rightLegal : waiting.Legal right)
    {n m : Nat}
    (more : waiting.history (inputsUpTo left n) <+: waiting.history (inputsUpTo right m)) :
    machine.observed observe (inputsUpTo left n) <+:
      machine.observed observe (inputsUpTo right m) := by
  obtain ⟨rest, longer⟩ := more
  rw [observed_eq determined leftLegal, observed_eq determined rightLegal, ← longer,
    Machine.observed, Machine.observed, Machine.observedFrom_append]
  exact List.prefix_append ..

/-! ## Schedules that come to rest -/

/-- The machine stays where some inputs lead and waits there in vain. -/
structure RestsAfter (source : Kind → Nat → Option Token) (inputs : List Input) (quiet : Input) :
    Prop where
  rests : machine.step (machine.run inputs) quiet = machine.run inputs
  noToken : waiting.token (machine.run inputs) quiet = none
  exhausted :
    let kind := waiting.awaited (waiting.view (machine.run inputs))
    source kind (waiting.taken kind (waiting.history inputs)) = none

variable {inputs : List Input} {quiet : Input}

theorem RestsAfter.run_eq (rests : waiting.RestsAfter source inputs quiet) (n : Nat) :
    machine.run (inputsUpTo (thenQuiet inputs quiet) n) = machine.run (inputs.take n) ∧
      waiting.history (inputsUpTo (thenQuiet inputs quiet) n) =
        waiting.history (inputs.take n) := by
  refine ⟨machine.run_thenQuiet rests.rests n, machine.observed_thenQuiet _ rests.rests ?_ n⟩
  rw [rests.noToken]
  rfl

/-- A schedule that comes to rest is legal if its first cycles are and so is the last
state. -/
theorem RestsAfter.thenQuiet_legal (rests : waiting.RestsAfter source inputs quiet)
    (before : ∀ n : Fin inputs.length, legal (machine.run (inputs.take n)) inputs[n])
    (after : legal (machine.run inputs) quiet) : waiting.Legal (thenQuiet inputs quiet) := by
  intro n
  rw [(rests.run_eq n).1]
  cases Nat.lt_or_ge n inputs.length with
  | inl inside =>
      rw [thenQuiet_inside inside]
      exact before ⟨n, inside⟩
  | inr past =>
      rw [thenQuiet_after past, List.take_of_length_le past]
      exact after

/-- What a schedule that comes to rest delivers is decided by its first cycles. -/
theorem RestsAfter.delivers (rests : waiting.RestsAfter source inputs quiet)
    (inOrder : ∀ (n : Fin inputs.length), ∀ token ∈
      waiting.token (machine.run (inputs.take n)) inputs[n],
      source (waiting.kind token)
        (waiting.taken (waiting.kind token) (waiting.history (inputs.take n))) = some token)
    (eventually : ∀ (n : Fin inputs.length),
      let kind := waiting.awaited (waiting.view (machine.run (inputs.take n)))
      (source kind (waiting.taken kind (waiting.history (inputs.take n)))).isSome = true →
      ∃ (m : Fin inputs.length), n ≤ m ∧
        (waiting.token (machine.run (inputs.take m)) inputs[m]).isSome = true) :
    waiting.Delivers source (thenQuiet inputs quiet) := by
  constructor
  · intro n token
    rw [(rests.run_eq n).1, (rests.run_eq n).2]
    cases Nat.lt_or_ge n inputs.length with
    | inl inside =>
        rw [thenQuiet_inside inside]
        exact inOrder ⟨n, inside⟩ token
    | inr after =>
        rw [thenQuiet_after after, List.take_of_length_le after, rests.noToken]
        exact nofun
  · intro n
    rw [(rests.run_eq n).1, (rests.run_eq n).2]
    cases Nat.lt_or_ge n inputs.length with
    | inl inside =>
        intro kind available
        obtain ⟨m, later, presented⟩ := eventually ⟨n, inside⟩ available
        refine ⟨m, later, ?_⟩
        rw [(rests.run_eq m).1, thenQuiet_inside m.isLt]
        exact presented
    | inr after =>
        rw [List.take_of_length_le after]
        intro kind available
        rw [show source kind _ = none from rests.exhausted] at available
        cases available

end Waiting

end Clocked
