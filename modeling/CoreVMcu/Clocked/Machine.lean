import Mathlib.Algebra.Group.Nat.Defs
import Mathlib.Data.List.Induction

/-!
# Synchronous machines and their runs

A clocked design is an initial (reset) state and a next-state function that is
applied at every clock instant to the values of the inputs at that instant.  A
run is a finite list of inputs.  What an observer records along a run, and what
is assumed of the environment at every instant, are both functions of the state
before the instant and of the input at it.

Designs with several clocks are machines too: their input says which of the
clocks tick at the instant, so a list of inputs is one interleaving of edges.
-/

namespace Clocked

universe u v w

/-- The inputs of the first cycles of a schedule. -/
def inputsUpTo {Input : Type v} (schedule : Nat → Input) (n : Nat) : List Input :=
  (List.range n).map schedule

@[simp] theorem inputsUpTo_zero {Input : Type v} (schedule : Nat → Input) :
    inputsUpTo schedule 0 = [] := rfl

@[simp] theorem inputsUpTo_succ {Input : Type v} (schedule : Nat → Input) (n : Nat) :
    inputsUpTo schedule (n + 1) = inputsUpTo schedule n ++ [schedule n] := by
  simp [inputsUpTo, List.range_succ]

/-- A schedule of some inputs after which nothing is presented any more. -/
def thenQuiet {Input : Type v} (inputs : List Input) (quiet : Input) (n : Nat) : Input :=
  inputs.getD n quiet

theorem thenQuiet_inside {Input : Type v} {inputs : List Input} {quiet : Input} {n : Nat}
    (inside : n < inputs.length) : thenQuiet inputs quiet n = inputs[n] := by
  simp [thenQuiet, inside]

theorem thenQuiet_after {Input : Type v} {inputs : List Input} {quiet : Input} {n : Nat}
    (after : inputs.length ≤ n) : thenQuiet inputs quiet n = quiet := by
  simp [thenQuiet, after]

/-- A clocked design with its reset state. -/
structure Machine (State : Type u) (Input : Type v) where
  init : State
  step : State → Input → State

namespace Machine

variable {State : Type u} {Input : Type v} {Event : Type w}
variable (machine : Machine State Input)

/-- The state after a list of inputs, from an arbitrary state. -/
def runFrom (state : State) (inputs : List Input) : State :=
  inputs.foldl machine.step state

/-- The state after a list of inputs, from reset. -/
def run (inputs : List Input) : State :=
  machine.runFrom machine.init inputs

/-- Events an observer records along a list of inputs, oldest first. -/
def observedFrom (observe : State → Input → List Event) :
    State → List Input → List Event
  | _, [] => []
  | state, input :: inputs =>
      observe state input ++ observedFrom observe (machine.step state input) inputs

/-- Events an observer records along a run from reset. -/
def observed (observe : State → Input → List Event) (inputs : List Input) :
    List Event :=
  machine.observedFrom observe machine.init inputs

/-- Number of instants at which a flag is raised along a list of inputs. -/
def countedFrom (flag : State → Input → Bool) : State → List Input → Nat
  | _, [] => 0
  | state, input :: inputs =>
      (flag state input).toNat + countedFrom flag (machine.step state input) inputs

/-- Number of instants at which a flag is raised along a run from reset. -/
def counted (flag : State → Input → Bool) (inputs : List Input) : Nat :=
  machine.countedFrom flag machine.init inputs

/-- A flag has been raised since another one was last raised, along a list of
inputs before which it had been or not. -/
def raisedFrom (raise clear : State → Input → Bool) : Bool → State → List Input → Bool
  | raised, _, [] => raised
  | raised, state, input :: inputs =>
      raisedFrom raise clear (!clear state input && (raised || raise state input))
        (machine.step state input) inputs

/-- Along a run from reset, a flag has been raised since another one last was. -/
def raisedSince (raise clear : State → Input → Bool) (inputs : List Input) : Bool :=
  machine.raisedFrom raise clear false machine.init inputs

/-- A condition on the state and the input holds at every instant. -/
def AlwaysFrom (allowed : State → Input → Prop) : State → List Input → Prop
  | _, [] => True
  | state, input :: inputs =>
      allowed state input ∧ AlwaysFrom allowed (machine.step state input) inputs

/-- A condition on the state and the input holds at every instant of the run
from reset. -/
def Always (allowed : State → Input → Prop) (inputs : List Input) : Prop :=
  machine.AlwaysFrom allowed machine.init inputs

instance decidableAlwaysFrom (allowed : State → Input → Prop)
    [∀ state input, Decidable (allowed state input)] :
    (state : State) → (inputs : List Input) →
      Decidable (machine.AlwaysFrom allowed state inputs)
  | _, [] => inferInstanceAs (Decidable True)
  | state, input :: inputs =>
      have := decidableAlwaysFrom allowed (machine.step state input) inputs
      inferInstanceAs (Decidable (_ ∧ _))

instance (allowed : State → Input → Prop)
    [∀ state input, Decidable (allowed state input)] (inputs : List Input) :
    Decidable (machine.Always allowed inputs) :=
  decidableAlwaysFrom machine allowed machine.init inputs

/-! ## Runs are extended at their end -/

theorem runFrom_cons (state : State) (input : Input) (inputs : List Input) :
    machine.runFrom state (input :: inputs) = machine.runFrom (machine.step state input) inputs :=
  rfl

theorem runFrom_append (state : State) (inputs later : List Input) :
    machine.runFrom state (inputs ++ later) =
      machine.runFrom (machine.runFrom state inputs) later :=
  List.foldl_append

@[simp] theorem run_nil : machine.run [] = machine.init := rfl

@[simp] theorem run_snoc (inputs : List Input) (input : Input) :
    machine.run (inputs ++ [input]) = machine.step (machine.run inputs) input := by
  simp [run, runFrom, List.foldl_append]

theorem run_append (inputs later : List Input) :
    machine.run (inputs ++ later) = machine.runFrom (machine.run inputs) later :=
  machine.runFrom_append _ _ _

/-- The state in the cycle after the `n`-th one. -/
theorem run_take_succ {inputs : List Input} {n : Nat} (inside : n < inputs.length) :
    machine.run (inputs.take (n + 1)) = machine.step (machine.run (inputs.take n)) inputs[n] := by
  rw [List.take_succ_eq_append_getElem inside, run_snoc]

@[simp] theorem observed_nil (observe : State → Input → List Event) :
    machine.observed observe [] = [] := rfl

theorem observedFrom_append (observe : State → Input → List Event)
    (state : State) (inputs later : List Input) :
    machine.observedFrom observe state (inputs ++ later) =
      machine.observedFrom observe state inputs ++
        machine.observedFrom observe (machine.runFrom state inputs) later := by
  induction inputs generalizing state with
  | nil => simp [observedFrom, runFrom]
  | cons input inputs inductionHypothesis =>
      simp [observedFrom, runFrom, inductionHypothesis]

@[simp] theorem observed_snoc (observe : State → Input → List Event)
    (inputs : List Input) (input : Input) :
    machine.observed observe (inputs ++ [input]) =
      machine.observed observe inputs ++ observe (machine.run inputs) input := by
  simp [observed, observedFrom_append, observedFrom, run]

@[simp] theorem counted_nil (flag : State → Input → Bool) :
    machine.counted flag [] = 0 := rfl

theorem countedFrom_append (flag : State → Input → Bool)
    (state : State) (inputs later : List Input) :
    machine.countedFrom flag state (inputs ++ later) =
      machine.countedFrom flag state inputs +
        machine.countedFrom flag (machine.runFrom state inputs) later := by
  induction inputs generalizing state with
  | nil => simp [countedFrom, runFrom]
  | cons input inputs inductionHypothesis =>
      simp [countedFrom, runFrom, inductionHypothesis, Nat.add_assoc]

@[simp] theorem counted_snoc (flag : State → Input → Bool)
    (inputs : List Input) (input : Input) :
    machine.counted flag (inputs ++ [input]) =
      machine.counted flag inputs + (flag (machine.run inputs) input).toNat := by
  simp [counted, countedFrom_append, countedFrom, run]

@[simp] theorem raisedSince_nil (raise clear : State → Input → Bool) :
    machine.raisedSince raise clear [] = false := rfl

theorem raisedFrom_append (raise clear : State → Input → Bool)
    (raised : Bool) (state : State) (inputs later : List Input) :
    machine.raisedFrom raise clear raised state (inputs ++ later) =
      machine.raisedFrom raise clear (machine.raisedFrom raise clear raised state inputs)
        (machine.runFrom state inputs) later := by
  induction inputs generalizing raised state with
  | nil => rfl
  | cons input inputs inductionHypothesis =>
      exact inductionHypothesis _ _

@[simp] theorem raisedSince_snoc (raise clear : State → Input → Bool)
    (inputs : List Input) (input : Input) :
    machine.raisedSince raise clear (inputs ++ [input]) =
      (!clear (machine.run inputs) input &&
        (machine.raisedSince raise clear inputs || raise (machine.run inputs) input)) := by
  simp [raisedSince, raisedFrom_append, raisedFrom, run]

@[simp] theorem always_nil (allowed : State → Input → Prop) :
    machine.Always allowed [] := trivial

theorem alwaysFrom_append (allowed : State → Input → Prop)
    (state : State) (inputs later : List Input) :
    machine.AlwaysFrom allowed state (inputs ++ later) ↔
      machine.AlwaysFrom allowed state inputs ∧
        machine.AlwaysFrom allowed (machine.runFrom state inputs) later := by
  induction inputs generalizing state with
  | nil => simp [AlwaysFrom, runFrom]
  | cons input inputs inductionHypothesis =>
      simp [AlwaysFrom, runFrom, inductionHypothesis, and_assoc]

@[simp] theorem always_snoc (allowed : State → Input → Prop)
    (inputs : List Input) (input : Input) :
    machine.Always allowed (inputs ++ [input]) ↔
      machine.Always allowed inputs ∧ allowed (machine.run inputs) input := by
  simp [Always, alwaysFrom_append, AlwaysFrom, run]

/-- What holds along a run holds along its beginning. -/
theorem Always.of_append {machine : Machine State Input} {allowed : State → Input → Prop}
    {inputs later : List Input} (always : machine.Always allowed (inputs ++ later)) :
    machine.Always allowed inputs :=
  ((machine.alwaysFrom_append allowed machine.init inputs later).mp always).1

/-- What holds along a run holds in each of its cycles. -/
theorem Always.getElem {machine : Machine State Input} {allowed : State → Input → Prop}
    {inputs : List Input} (always : machine.Always allowed inputs) {n : Nat}
    (inside : n < inputs.length) : allowed (machine.run (inputs.take n)) inputs[n] := by
  rw [← List.take_append_drop (n + 1) inputs] at always
  have upTo := always.of_append
  rw [List.take_succ_eq_append_getElem inside, always_snoc] at upTo
  exact upTo.2

/-- What has been observed is kept. -/
theorem observed_inputsUpTo_mono (observe : State → Input → List Event)
    (schedule : Nat → Input) {n m : Nat} (earlier : n ≤ m) :
    machine.observed observe (inputsUpTo schedule n) <+:
      machine.observed observe (inputsUpTo schedule m) := by
  induction earlier with
  | refl => exact List.prefix_refl _
  | step _ inductionHypothesis =>
      rw [inputsUpTo_succ, observed_snoc]
      exact inductionHypothesis.trans (List.prefix_append ..)

/-- What has been counted stays counted. -/
theorem counted_inputsUpTo_mono (flag : State → Input → Bool) (schedule : Nat → Input)
    {n m : Nat} (earlier : n ≤ m) :
    machine.counted flag (inputsUpTo schedule n) ≤
      machine.counted flag (inputsUpTo schedule m) := by
  induction earlier with
  | refl => exact Nat.le_refl _
  | step _ inductionHypothesis =>
      rw [inputsUpTo_succ, counted_snoc]
      exact Nat.le_add_right_of_le inductionHypothesis

/-- What goes on until a condition holds goes on up to the first time it does. -/
theorem stays_until (stays condition : Nat → Prop)
    (goesOn : ∀ j, stays j → ¬condition j → stays (j + 1)) {n k : Nat} (now : stays n)
    (later : n ≤ k) (holds : condition k) : ∃ m, n ≤ m ∧ stays m ∧ condition m := by
  obtain ⟨distance, rfl⟩ := Nat.exists_eq_add_of_le later
  clear later
  induction distance generalizing n with
  | zero => exact ⟨n, Nat.le_refl n, now, holds⟩
  | succ distance inductionHypothesis =>
      cases Classical.em (condition n) with
      | inl already => exact ⟨n, Nat.le_refl n, now, already⟩
      | inr notYet =>
          rw [← Nat.add_assoc, Nat.add_right_comm] at holds
          obtain ⟨m, after, found⟩ := inductionHypothesis (goesOn n now notYet) holds
          exact ⟨m, Nat.le_of_succ_le after, found⟩

/-! ## Schedules that come to rest -/

/-- A machine that rests after some inputs stays in the state they lead to. -/
theorem run_thenQuiet {inputs : List Input} {quiet : Input}
    (rests : machine.step (machine.run inputs) quiet = machine.run inputs) (n : Nat) :
    machine.run (inputsUpTo (thenQuiet inputs quiet) n) = machine.run (inputs.take n) := by
  induction n with
  | zero => rfl
  | succ n inductionHypothesis =>
      rw [inputsUpTo_succ, run_snoc, inductionHypothesis]
      cases Nat.lt_or_ge n inputs.length with
      | inl inside =>
          rw [thenQuiet_inside inside, List.take_succ_eq_append_getElem inside, run_snoc]
      | inr after =>
          rw [thenQuiet_after after, List.take_of_length_le after,
            List.take_of_length_le (Nat.le_succ_of_le after), rests]

theorem observed_thenQuiet (observe : State → Input → List Event) {inputs : List Input}
    {quiet : Input} (rests : machine.step (machine.run inputs) quiet = machine.run inputs)
    (nothing : observe (machine.run inputs) quiet = []) (n : Nat) :
    machine.observed observe (inputsUpTo (thenQuiet inputs quiet) n) =
      machine.observed observe (inputs.take n) := by
  induction n with
  | zero => rfl
  | succ n inductionHypothesis =>
      rw [inputsUpTo_succ, observed_snoc, inductionHypothesis, run_thenQuiet machine rests]
      cases Nat.lt_or_ge n inputs.length with
      | inl inside =>
          rw [thenQuiet_inside inside, List.take_succ_eq_append_getElem inside, observed_snoc]
      | inr after =>
          rw [thenQuiet_after after, List.take_of_length_le after,
            List.take_of_length_le (Nat.le_succ_of_le after), nothing, List.append_nil]

variable {machine}

/-- The induction rule for runs: what holds at reset and is preserved by every
allowed instant holds after every allowed run.  The motive may mention the
inputs so far, so that it can relate the state to what was observed. -/
theorem run_induction {allowed : State → Input → Prop}
    {motive : List Input → State → Prop}
    (start : motive [] machine.init)
    (next : ∀ inputs input, machine.Always allowed inputs →
      motive inputs (machine.run inputs) → allowed (machine.run inputs) input →
      motive (inputs ++ [input]) (machine.step (machine.run inputs) input))
    (inputs : List Input) (always : machine.Always allowed inputs) :
    motive inputs (machine.run inputs) := by
  induction inputs using List.reverseRecOn with
  | nil => exact start
  | append_singleton inputs input inductionHypothesis =>
      rw [always_snoc] at always
      rw [run_snoc]
      exact next inputs input always.1 (inductionHypothesis always.1) always.2

/-- The induction rule for what holds in every reachable state, whatever the
environment does. -/
theorem run_invariant {motive : State → Prop} (start : motive machine.init)
    (next : ∀ state input, motive state → motive (machine.step state input))
    (inputs : List Input) : motive (machine.run inputs) := by
  induction inputs using List.reverseRecOn with
  | nil => exact start
  | append_singleton inputs input inductionHypothesis =>
      rw [run_snoc]
      exact next _ input inductionHypothesis

/-- What holds in every reachable state holds at every instant. -/
theorem always_of_reachable {conclusion : State → Input → Prop}
    (holds : ∀ inputs input, conclusion (machine.run inputs) input)
    (inputs : List Input) : machine.Always conclusion inputs := by
  induction inputs using List.reverseRecOn with
  | nil => exact always_nil ..
  | append_singleton inputs input inductionHypothesis =>
      exact (always_snoc ..).mpr ⟨inductionHypothesis, holds inputs input⟩

/-- Conditions that agree in every reachable state hold along the same runs. -/
theorem always_congr {left right : State → Input → Prop}
    (agree : ∀ inputs input, left (machine.run inputs) input ↔ right (machine.run inputs) input)
    (inputs : List Input) : machine.Always left inputs ↔ machine.Always right inputs := by
  induction inputs using List.reverseRecOn with
  | nil => simp
  | append_singleton inputs input inductionHypothesis =>
      rw [always_snoc, always_snoc, inductionHypothesis, agree inputs input]

/-- Observers that record the same at every instant record the same along the run. -/
theorem observed_congr (observe other : State → Input → List Event) {inputs : List Input}
    (agree : machine.Always (fun state input => observe state input = other state input) inputs) :
    machine.observed observe inputs = machine.observed other inputs := by
  induction inputs using List.reverseRecOn with
  | nil => rfl
  | append_singleton inputs input inductionHypothesis =>
      rw [always_snoc] at agree
      rw [observed_snoc, observed_snoc, inductionHypothesis agree.1, agree.2]

/-- Conditions that agree wherever an invariant of the runs of one of them holds
allow the same runs. -/
theorem always_congr_of_invariant {left right : State → Input → Prop}
    {motive : List Input → State → Prop}
    (invariant : ∀ inputs, machine.Always right inputs → motive inputs (machine.run inputs))
    (agree : ∀ inputs input, motive inputs (machine.run inputs) →
      (left (machine.run inputs) input ↔ right (machine.run inputs) input))
    (inputs : List Input) : machine.Always left inputs ↔ machine.Always right inputs := by
  induction inputs using List.reverseRecOn with
  | nil => simp
  | append_singleton inputs input inductionHypothesis =>
      rw [always_snoc, always_snoc, inductionHypothesis]
      exact and_congr_right fun before => agree inputs input (invariant inputs before)

/-- A weaker condition on the environment admits every run that a stronger one
does. -/
theorem Always.mono {allowed weaker : State → Input → Prop}
    (weaken : ∀ state input, allowed state input → weaker state input)
    {inputs : List Input} (always : machine.Always allowed inputs) :
    machine.Always weaker inputs := by
  refine run_induction (motive := fun inputs _ => machine.Always weaker inputs)
    (always_nil ..) ?_ inputs always
  intro inputs input _ holds step
  exact (always_snoc ..).mpr ⟨holds, weaken _ _ step⟩

/-- A condition that follows from an invariant of the allowed runs holds at
every instant of them. -/
theorem Always.of_invariant {allowed conclusion : State → Input → Prop}
    {motive : List Input → State → Prop}
    (invariant : ∀ inputs, machine.Always allowed inputs →
      motive inputs (machine.run inputs))
    (follows : ∀ inputs input, motive inputs (machine.run inputs) →
      allowed (machine.run inputs) input → conclusion (machine.run inputs) input)
    {inputs : List Input} (always : machine.Always allowed inputs) :
    machine.Always conclusion inputs := by
  refine run_induction (motive := fun inputs _ => machine.Always conclusion inputs)
    (always_nil ..) ?_ inputs always
  intro inputs input before holds step
  exact (always_snoc ..).mpr ⟨holds, follows inputs input (invariant inputs before) step⟩

/-- What has a rank that no input raises and helpful inputs lower comes to an end
when there are as many helpful inputs as the rank says. -/
theorem ends_of_rank {busy : Nat → State → Prop} {ended : State → Prop} {allowed : Input → Prop}
    {helps : Input → Bool}
    (next : ∀ rank state input, busy rank state → allowed input →
      (∃ rankNext, busy rankNext (machine.step state input) ∧
        rankNext + (helps input).toNat ≤ rank) ∨ ended (machine.step state input))
    (positive : ∀ state, ¬busy 0 state) {inputs : List Input} :
    ∀ {rank : Nat} {state : State}, busy rank state → (∀ input ∈ inputs, allowed input) →
      rank ≤ inputs.countP helps →
      ∃ n ≤ inputs.length, ended (machine.runFrom state (inputs.take n)) := by
  induction inputs with
  | nil =>
      intro rank state now _ enough
      rw [List.countP_nil, Nat.le_zero] at enough
      exact absurd (enough ▸ now) (positive state)
  | cons input inputs inductionHypothesis =>
      intro rank state now all enough
      rcases next rank state input now (all input List.mem_cons_self) with
        ⟨rankNext, goesOn, lowers⟩ | ends
      · have counted : (input :: inputs).countP helps =
            inputs.countP helps + (helps input).toNat := by
          rw [List.countP_cons]
          cases helps input <;> rfl
        rw [counted] at enough
        obtain ⟨n, inside, ends⟩ := inductionHypothesis goesOn
          (fun later member => all later (List.mem_cons_of_mem _ member)) (by omega)
        exact ⟨n + 1, Nat.succ_le_succ inside, ends⟩
      · exact ⟨1, Nat.succ_le_succ (Nat.zero_le _), ends⟩

theorem always_and {left right : State → Input → Prop} {inputs : List Input} :
    machine.Always (fun state input => left state input ∧ right state input) inputs ↔
      machine.Always left inputs ∧ machine.Always right inputs := by
  induction inputs using List.reverseRecOn with
  | nil => simp
  | append_singleton inputs input inductionHypothesis =>
      simp only [always_snoc, inductionHypothesis]
      exact and_and_and_comm

theorem always_forall {Index : Type w} {allowed : Index → State → Input → Prop}
    {inputs : List Input} :
    machine.Always (fun state input => ∀ index, allowed index state input) inputs ↔
      ∀ index, machine.Always (allowed index) inputs := by
  induction inputs using List.reverseRecOn with
  | nil => simp
  | append_singleton inputs input inductionHypothesis =>
      simp only [always_snoc, inductionHypothesis]
      exact forall_and.symm

/-- A flag that is never raised is counted zero times, and conversely. -/
theorem counted_eq_zero_iff {flag : State → Input → Bool} {inputs : List Input} :
    machine.counted flag inputs = 0 ↔
      machine.Always (fun state input => flag state input = false) inputs := by
  induction inputs using List.reverseRecOn with
  | nil => simp
  | append_singleton inputs input inductionHypothesis =>
      rw [counted_snoc, always_snoc, Nat.add_eq_zero_iff, inductionHypothesis]
      simp

theorem toNat_le_of_imp {flag other : Bool} (implies : flag = true → other = true) :
    flag.toNat ≤ other.toNat := by
  cases flag with
  | false => exact Nat.zero_le _
  | true => exact (implies rfl) ▸ Nat.le_refl _

/-- A flag that implies another is counted at most as often. -/
theorem counted_le_counted {flag other : State → Input → Bool}
    (implies : ∀ state input, flag state input = true → other state input = true)
    (inputs : List Input) : machine.counted flag inputs ≤ machine.counted other inputs := by
  induction inputs using List.reverseRecOn with
  | nil => simp
  | append_singleton inputs input inductionHypothesis =>
      rw [counted_snoc, counted_snoc]
      exact Nat.add_le_add inductionHypothesis (toNat_le_of_imp (implies _ _))

/-- A flag that implies another is counted as often exactly when the two agree at
every instant. -/
theorem counted_eq_counted_iff {flag other : State → Input → Bool}
    (implies : ∀ state input, flag state input = true → other state input = true)
    {inputs : List Input} :
    machine.counted flag inputs = machine.counted other inputs ↔
      machine.Always (fun state input => flag state input = other state input) inputs := by
  induction inputs using List.reverseRecOn with
  | nil => simp
  | append_singleton inputs input inductionHypothesis =>
      have before : machine.counted flag inputs ≤ machine.counted other inputs :=
        counted_le_counted implies inputs
      have now := toNat_le_of_imp (implies (machine.run inputs) input)
      have agree : flag (machine.run inputs) input = other (machine.run inputs) input ↔
          (flag (machine.run inputs) input).toNat = (other (machine.run inputs) input).toNat := by
        cases flag (machine.run inputs) input <;> cases other (machine.run inputs) input <;> simp
      rw [counted_snoc, counted_snoc, always_snoc, ← inductionHypothesis, agree]
      omega

end Machine

end Clocked
