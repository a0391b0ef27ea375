import CoreVMcu.Clocked.Machine

/-!
# Components of a system

A system is wired from components.  Each has its own registers inside of the state of the
system, and at an instant at which its clock ticks it samples inputs that are made from the
state and the input of the whole system.

Along a run of the system a component makes the steps that it would make on its own on the
inputs that it was fed: none is added, left out or moved.  So what is known of every run of
the component is known of it inside of every system.
-/

namespace Clocked

universe u v w x y

variable {State : Type u} {Input : Type v} {InnerState : Type w} {InnerInput : Type x}
variable {Event : Type y}

/-- What an observer sees of what another one records. -/
theorem Machine.map_observed {Seen : Type v} (machine : Machine State Input)
    (observe : State → Input → List Event) (see : Event → Seen) (inputs : List Input) :
    (machine.observed observe inputs).map see =
      machine.observed (fun state input => (observe state input).map see) inputs := by
  induction inputs using List.reverseRecOn with
  | nil => rfl
  | append_singleton inputs input inductionHypothesis =>
      rw [machine.observed_snoc, machine.observed_snoc, List.map_append, inductionHypothesis]

/-- A component of a system: where its registers are, and what it samples at an instant,
if its clock ticks. -/
structure Component (system : Machine State Input) (inner : Machine InnerState InnerInput) where
  view : State → InnerState
  feed : State → Input → Option InnerInput
  reset : view system.init = inner.init
  edge : ∀ state input, view (system.step state input) =
    match feed state input with
    | some sampled => inner.step (view state) sampled
    | none => view state

namespace Component

variable {system : Machine State Input} {inner : Machine InnerState InnerInput}
variable (component : Component system inner)

/-- What the component samples at an instant. -/
def samples (state : State) (input : Input) : List InnerInput :=
  (component.feed state input).toList

/-- The inputs that the component has been fed along a run of the system. -/
def fed (inputs : List Input) : List InnerInput :=
  system.observed component.samples inputs

@[simp] theorem fed_snoc (inputs : List Input) (input : Input) :
    component.fed (inputs ++ [input]) =
      component.fed inputs ++ component.samples (system.run inputs) input :=
  system.observed_snoc _ _ _

theorem fed_append (inputs later : List Input) :
    component.fed (inputs ++ later) =
      component.fed inputs ++
        system.observedFrom component.samples (system.run inputs) later :=
  system.observedFrom_append _ _ _ _

theorem view_step (state : State) (input : Input) :
    component.view (system.step state input) =
      inner.runFrom (component.view state) (component.samples state input) := by
  rw [component.edge, samples]
  cases component.feed state input with
  | none => rfl
  | some sampled => rfl

/-- The component makes the steps that it would make on its own. -/
theorem view_runFrom (state : State) (inputs : List Input) :
    component.view (system.runFrom state inputs) =
      inner.runFrom (component.view state)
        (system.observedFrom component.samples state inputs) := by
  induction inputs generalizing state with
  | nil => rfl
  | cons input inputs inductionHypothesis =>
      rw [system.runFrom_cons, inductionHypothesis, view_step, Machine.observedFrom,
        inner.runFrom_append]

/-- What the component has sampled up to some moment. -/
theorem exists_isPrefix (state : State) (inputs : List Input) (count : Nat) :
    ∃ before, before <+: inputs ∧
      system.observedFrom component.samples state before =
        (system.observedFrom component.samples state inputs).take count := by
  induction inputs generalizing state count with
  | nil => exact ⟨[], List.prefix_rfl, List.take_nil.symm⟩
  | cons input inputs inductionHypothesis =>
      cases count with
      | zero => exact ⟨[], List.nil_prefix, rfl⟩
      | succ count =>
          cases sampled : component.feed state input with
          | none =>
              obtain ⟨before, isPrefix, same⟩ :=
                inductionHypothesis (system.step state input) (count + 1)
              refine ⟨input :: before, List.cons_prefix_cons.mpr ⟨rfl, isPrefix⟩, ?_⟩
              simpa [Machine.observedFrom, samples, sampled] using same
          | some value =>
              obtain ⟨before, isPrefix, same⟩ :=
                inductionHypothesis (system.step state input) count
              refine ⟨input :: before, List.cons_prefix_cons.mpr ⟨rfl, isPrefix⟩, ?_⟩
              simpa [Machine.observedFrom, samples, sampled] using same

/-- Inside of the system the component is where it would be on its own. -/
theorem view_run (inputs : List Input) :
    component.view (system.run inputs) = inner.run (component.fed inputs) := by
  rw [Machine.run, view_runFrom, component.reset]
  rfl

/-- What an observer of the component records in the system. -/
def watches (observe : InnerState → InnerInput → List Event) (state : State) (input : Input) :
    List Event :=
  (component.samples state input).flatMap (observe (component.view state))

theorem watches_eq (observe : InnerState → InnerInput → List Event) (state : State)
    (input : Input) :
    component.watches observe state input =
      inner.observedFrom observe (component.view state) (component.samples state input) := by
  rw [watches, samples]
  cases component.feed state input with
  | none => rfl
  | some sampled => simp [Machine.observedFrom]

/-- An observer of the component records in the system what it records of the component on
its own. -/
theorem observedFrom_watches (observe : InnerState → InnerInput → List Event) (state : State)
    (inputs : List Input) :
    system.observedFrom (component.watches observe) state inputs =
      inner.observedFrom observe (component.view state)
        (system.observedFrom component.samples state inputs) := by
  induction inputs generalizing state with
  | nil => rfl
  | cons input inputs inductionHypothesis =>
      rw [Machine.observedFrom, inductionHypothesis, watches_eq, Machine.observedFrom,
        inner.observedFrom_append, view_step]

theorem observed_watches (observe : InnerState → InnerInput → List Event)
    (inputs : List Input) :
    system.observed (component.watches observe) inputs =
      inner.observed observe (component.fed inputs) := by
  rw [Machine.observed, observedFrom_watches, component.reset]
  rfl

/-- A flag of the component, looked at in the system. -/
def watchesFlag (flag : InnerState → InnerInput → Bool) (state : State) (input : Input) : Bool :=
  (component.feed state input).any (flag (component.view state))

/-- A flag of the component is raised in the system as often as on its own. -/
theorem counted_watches (flag : InnerState → InnerInput → Bool) (inputs : List Input) :
    system.counted (component.watchesFlag flag) inputs =
      inner.counted flag (component.fed inputs) := by
  induction inputs using List.reverseRecOn with
  | nil => rfl
  | append_singleton inputs input inductionHypothesis =>
      rw [system.counted_snoc, inductionHypothesis, fed_snoc, samples, watchesFlag]
      cases sampled : component.feed (system.run inputs) input with
      | none => simp
      | some value =>
          rw [Option.toList_some, inner.counted_snoc, component.view_run]
          rfl

/-- Every input of the component is made from an input of the system. -/
theorem exists_of_mem_fed {inputs : List Input} {sampled : InnerInput}
    (member : sampled ∈ component.fed inputs) :
    ∃ before input, before ++ [input] <+: inputs ∧
      component.feed (system.run before) input = some sampled := by
  induction inputs using List.reverseRecOn with
  | nil => exact absurd member List.not_mem_nil
  | append_singleton inputs input inductionHypothesis =>
      rw [fed_snoc, List.mem_append] at member
      cases member with
      | inl earlier =>
          obtain ⟨before, fedBy, isPrefix, feeds⟩ := inductionHypothesis earlier
          exact ⟨before, fedBy, isPrefix.trans (List.prefix_append ..), feeds⟩
      | inr now =>
          exact ⟨inputs, input, List.prefix_rfl, Option.mem_toList.mp now⟩

/-- The number of inputs of a kind that the component samples is that of the inputs of the
system which feed one. -/
theorem countP_samples {kind : InnerInput → Bool} {feeds : Input → Bool}
    (same : ∀ state input, (component.feed state input).any kind = feeds input)
    (state : State) (inputs : List Input) :
    (system.observedFrom component.samples state inputs).countP kind = inputs.countP feeds := by
  induction inputs generalizing state with
  | nil => rfl
  | cons input inputs inductionHypothesis =>
      rw [Machine.observedFrom, List.countP_append, inductionHypothesis, List.countP_cons,
        ← same state input, samples, Nat.add_comm]
      cases component.feed state input with
      | none => rfl
      | some sampled => simp [List.countP_cons]

/-- A condition on the component holds along its run when it holds in the system. -/
theorem always_fed {allowed : InnerState → InnerInput → Prop} {inputs : List Input}
    (holds : system.Always
      (fun state input => ∀ sampled ∈ component.feed state input,
        allowed (component.view state) sampled) inputs) :
    inner.Always allowed (component.fed inputs) := by
  induction inputs using List.reverseRecOn with
  | nil => exact inner.always_nil allowed
  | append_singleton inputs input inductionHypothesis =>
      rw [system.always_snoc] at holds
      have before := inductionHypothesis holds.1
      rw [fed_snoc, samples]
      cases sampled : component.feed (system.run inputs) input with
      | none => simpa using before
      | some value =>
          rw [Option.toList_some, inner.always_snoc, ← component.view_run]
          exact ⟨before, holds.2 value sampled⟩

end Component

end Clocked
