import CoreVMcu.Clocked.Machine
import Mathlib.Data.List.Forall2

/-!
# Two runs of one machine

Two states are alike under a schedule if the same inputs are answered by the same
observations for ever.  A relation that the inputs preserve and that implies equal
observations shows that two states are alike.  Conversely, two tasks that go on in
lockstep and end together had equally much left to do.
-/

namespace Clocked

universe u v w

theorem inputsUpTo_succ_left {Input : Type v} (schedule : Nat → Input) (n : Nat) :
    inputsUpTo schedule (n + 1) = schedule 0 :: inputsUpTo (fun n => schedule (n + 1)) n := by
  simp [inputsUpTo, List.range_succ_eq_map, Function.comp_def]

namespace Machine

variable {State : Type u} {Input : Type v} {Output : Type w}
variable (machine : Machine State Input) (output : State → Input → Output)

theorem runFrom_snoc (state : State) (inputs : List Input) (input : Input) :
    machine.runFrom state (inputs ++ [input]) =
      machine.step (machine.runFrom state inputs) input := by
  simp [runFrom, List.foldl_append]

/-- The output in the `n`-th cycle of a schedule. -/
def outputAt (state : State) (schedule : Nat → Input) (n : Nat) : Output :=
  output (machine.runFrom state (inputsUpTo schedule n)) (schedule n)

/-- Two states give the same outputs under a schedule. -/
def Alike (left right : State) (schedule : Nat → Input) : Prop :=
  ∀ n, machine.outputAt output left schedule n = machine.outputAt output right schedule n

variable {machine output} {left right : State} {schedule : Nat → Input}

theorem outputAt_succ (state : State) (schedule : Nat → Input) (n : Nat) :
    machine.outputAt output state schedule (n + 1) =
      machine.outputAt output (machine.step state (schedule 0)) (fun n => schedule (n + 1)) n := by
  rw [outputAt, inputsUpTo_succ_left, runFrom_cons]
  rfl

theorem Alike.now (alike : machine.Alike output left right schedule) :
    output left (schedule 0) = output right (schedule 0) :=
  alike 0

theorem Alike.later (alike : machine.Alike output left right schedule) :
    machine.Alike output (machine.step left (schedule 0)) (machine.step right (schedule 0))
      (fun n => schedule (n + 1)) := by
  intro n
  have next := alike (n + 1)
  rw [outputAt_succ, outputAt_succ] at next
  exact next

/-- The states after some cycles are alike as well. -/
theorem Alike.after (alike : machine.Alike output left right schedule) (n : Nat) :
    machine.Alike output (machine.runFrom left (inputsUpTo schedule n))
      (machine.runFrom right (inputsUpTo schedule n)) (fun m => schedule (n + m)) := by
  induction n generalizing left right schedule with
  | zero =>
      simp only [Nat.zero_add]
      exact alike
  | succ n inductionHypothesis =>
      rw [inputsUpTo_succ_left, runFrom_cons, runFrom_cons]
      have shifted : (fun m => schedule (n + 1 + m)) = fun m => schedule (n + m + 1) :=
        funext fun m => congrArg schedule (Nat.add_right_comm n 1 m)
      rw [shifted]
      exact inductionHypothesis alike.later

/-- A relation that every input preserves and that implies equal outputs. -/
theorem alike_of_relation {related : State → State → Prop} {allowed : Input → Prop}
    (outputs : ∀ left right input, allowed input → related left right →
      output left input = output right input)
    (next : ∀ left right input, allowed input → related left right →
      related (machine.step left input) (machine.step right input))
    (all : ∀ n, allowed (schedule n)) (start : related left right) :
    machine.Alike output left right schedule := by
  intro n
  have reached : related (machine.runFrom left (inputsUpTo schedule n))
      (machine.runFrom right (inputsUpTo schedule n)) := by
    induction n with
    | zero => exact start
    | succ n inductionHypothesis =>
        rw [inputsUpTo_succ, runFrom_snoc, runFrom_snoc]
        exact next _ _ _ (all n) inductionHypothesis
  exact outputs _ _ _ (all n) reached

/-! ## Two machines -/

/-- A relation between the states of two machines that corresponding inputs preserve
holds after corresponding runs. -/
theorem run_related {Other : Type u} {OtherInput : Type v} {other : Machine Other OtherInput}
    (related : State → Other → Prop) {corresponds : Input → OtherInput → Prop}
    (start : related machine.init other.init)
    (next : ∀ state otherState input otherInput, related state otherState →
      corresponds input otherInput →
      related (machine.step state input) (other.step otherState otherInput))
    {inputs : List Input} {others : List OtherInput}
    (all : List.Forall₂ corresponds inputs others) :
    related (machine.run inputs) (other.run others) := by
  have from_start : ∀ state otherState, related state otherState →
      related (machine.runFrom state inputs) (other.runFrom otherState others) := by
    induction all with
    | nil => exact fun _ _ now => now
    | cons now _ inductionHypothesis =>
        intro state otherState before
        exact inductionHypothesis _ _ (next _ _ _ _ before now)
  exact from_start _ _ start

/-- What relates every state to that of an abstract machine under the same requests. -/
theorem run_refines {Other : Type u} {OtherInput : Type v} {other : Machine Other OtherInput}
    (related : State → Other → Prop) (request : Input → OtherInput)
    (start : related machine.init other.init)
    (next : ∀ state otherState input, related state otherState →
      related (machine.step state input) (other.step otherState (request input)))
    (inputs : List Input) :
    related (machine.run inputs) (other.run (inputs.map request)) := by
  have all : List.Forall₂ (fun input otherInput => request input = otherInput) inputs
      (inputs.map request) :=
    List.forall₂_map_right_iff.mpr (List.forall₂_same.mpr fun _ _ => rfl)
  refine run_related related start ?_ all
  rintro state otherState input _ before rfl
  exact next state otherState input before

/-- Related states record the same along corresponding runs. -/
theorem observedFrom_refines {Other : Type u} {OtherInput : Type v} {Event : Type w}
    {other : Machine Other OtherInput} (related : State → Other → Prop)
    (request : Input → OtherInput)
    (next : ∀ state otherState input, related state otherState →
      related (machine.step state input) (other.step otherState (request input)))
    {observe : State → Input → List Event} {observeOther : Other → OtherInput → List Event}
    (same : ∀ state otherState input, related state otherState →
      observe state input = observeOther otherState (request input))
    (inputs : List Input) {state : State} {otherState : Other}
    (start : related state otherState) :
    machine.observedFrom observe state inputs =
      other.observedFrom observeOther otherState (inputs.map request) := by
  induction inputs generalizing state otherState with
  | nil => rfl
  | cons input inputs inductionHypothesis =>
      rw [List.map_cons, observedFrom, observedFrom, same state otherState input start,
        inductionHypothesis (next state otherState input start)]

/-- Schedules that correspond in every cycle. -/
theorem forall₂_inputsUpTo {OtherInput : Type v} {corresponds : Input → OtherInput → Prop}
    {schedule : Nat → Input} {other : Nat → OtherInput}
    (all : ∀ n, corresponds (schedule n) (other n)) (n : Nat) :
    List.Forall₂ corresponds (inputsUpTo schedule n) (inputsUpTo other n) := by
  rw [inputsUpTo, inputsUpTo, List.forall₂_map_left_iff, List.forall₂_map_right_iff,
    List.forall₂_same]
  exact fun k _ => all k

/-! ## Tasks in lockstep -/

/-- A task under way with what it has left to do. -/
structure Task (machine : Machine State Input) (allowed : Input → Prop) where
  busy : State → Bool
  /-- What is left to do. -/
  remaining : State → Nat
  /-- A bound on the cycles to the end. -/
  rank : State → Nat
  /-- Two tasks advance at the same time. -/
  lockstep : State → State → Prop
  atRest : ∀ state, busy state = false → remaining state = 0
  lowers : ∀ state input, allowed input → busy state = true →
    busy (machine.step state input) = true → rank (machine.step state input) < rank state
  advances : ∀ left right input, allowed input → lockstep left right → busy left = true →
    busy right = true → ∃ done, remaining left = remaining (machine.step left input) + done ∧
      remaining right = remaining (machine.step right input) + done ∧
      lockstep (machine.step left input) (machine.step right input)

/-- Tasks that go on in lockstep and whose ends are observed had equally much left. -/
theorem Task.remaining_eq {allowed : Input → Prop} (task : machine.Task allowed)
    (observed : ∀ left right input, output left input = output right input →
      task.busy left = task.busy right)
    (all : ∀ n, allowed (schedule n)) (alike : machine.Alike output left right schedule)
    (lockstep : task.lockstep left right) (busy : task.busy left = true) :
    task.remaining left = task.remaining right := by
  induction bound : task.rank left using Nat.strongRecOn generalizing left right schedule with
  | ind rank inductionHypothesis =>
      have busyRight : task.busy right = true := (observed _ _ _ alike.now).symm.trans busy
      obtain ⟨done, leftNext, rightNext, lockstepNext⟩ :=
        task.advances left right (schedule 0) (all 0) lockstep busy busyRight
      have same : task.remaining (machine.step left (schedule 0)) =
          task.remaining (machine.step right (schedule 0)) := by
        have together := observed _ _ _ alike.later.now
        cases goesOn : task.busy (machine.step left (schedule 0)) with
        | false =>
            rw [task.atRest _ goesOn, task.atRest _ (together.symm.trans goesOn)]
        | true =>
            have lower := task.lowers left (schedule 0) (all 0) busy goesOn
            exact inductionHypothesis _ (bound ▸ lower) (fun n => all (n + 1)) alike.later
              lockstepNext goesOn rfl
      rw [leftNext, rightNext, same]

end Machine

end Clocked
