import CoreVMcu.Clocked.Machine
import Mathlib.Data.List.DropRight

/-!
# A pipeline that folds a stream

A pipeline of two stages moves only in the cycles in which it is enabled.  It stages an
element, folds the staged element into a value, and delivers the value together with the
element.  What it has delivered is the fold over all elements that were accepted before the
last two cycles in which it was enabled.
-/

namespace Clocked

universe u v w

variable {Item : Type u} {Value : Type v} {Input : Type w}

/-! ## Before the last input of a kind -/

/-- The inputs before the last one at which a flag is up. -/
def beforeLast (flag : Input → Bool) (inputs : List Input) : List Input :=
  (inputs.rdropWhile fun input => !flag input).dropLast

@[simp] theorem beforeLast_nil (flag : Input → Bool) : beforeLast flag [] = [] := rfl

theorem beforeLast_snoc (flag : Input → Bool) (inputs : List Input) (input : Input) :
    beforeLast flag (inputs ++ [input]) =
      if flag input then inputs else beforeLast flag inputs := by
  cases raised : flag input with
  | true =>
      rw [beforeLast, List.rdropWhile_concat_neg _ _ _ (by simp [raised]), List.dropLast_concat,
        if_pos rfl]
  | false =>
      rw [beforeLast, List.rdropWhile_concat_pos _ _ _ (by simp [raised]),
        if_neg Bool.false_ne_true]
      rfl

theorem beforeLast_map {Other : Type v} (flag : Other → Bool) (map : Input → Other)
    (inputs : List Input) :
    beforeLast flag (inputs.map map) =
      (beforeLast (fun input => flag (map input)) inputs).map map := by
  induction inputs using List.reverseRecOn with
  | nil => rfl
  | append_singleton inputs input ih =>
      rw [List.map_append, List.map_singleton, beforeLast_snoc, beforeLast_snoc, ih]
      cases flag (map input) <;> rfl

theorem beforeLast_isPrefix (flag : Input → Bool) (inputs : List Input) :
    beforeLast flag inputs <+: inputs :=
  (List.dropLast_prefix _).trans (List.rdropWhile_prefix _ _)

/-- If each cycle delivers the oldest of what is held and adds what enters, then what has
entered has been delivered or is still held. -/
theorem Machine.conserved {State : Type u} {Event : Type v} (machine : Machine State Input)
    {invariant : State → Prop} {held : State → List Event}
    {enters delivers : State → Input → List Event}
    (keeps : ∀ state input, invariant state → invariant (machine.step state input))
    (moves : ∀ state input, invariant state →
      held state ++ enters state input = delivers state input ++ held (machine.step state input))
    {state : State} (start : invariant state) (inputs : List Input) :
    held state ++ machine.observedFrom enters state inputs =
      machine.observedFrom delivers state inputs ++ held (machine.runFrom state inputs) := by
  induction inputs generalizing state with
  | nil => exact List.append_nil _
  | cons input inputs ih =>
      have later := ih (keeps state input start)
      rw [observedFrom, observedFrom, runFrom_cons, ← List.append_assoc, moves state input start,
        List.append_assoc, later, List.append_assoc]

/-- The elements of a list, each with the value of the fold up to it. -/
def foldTrace (fold : Value → Item → Value) : Value → List Item → List (Item × Value)
  | _, [] => []
  | value, item :: items => (item, fold value item) :: foldTrace fold (fold value item) items

theorem foldTrace_append (fold : Value → Item → Value) (value : Value) (items later : List Item) :
    foldTrace fold value (items ++ later) =
      foldTrace fold value items ++ foldTrace fold (items.foldl fold value) later := by
  induction items generalizing value with
  | nil => rfl
  | cons item items ih => exact congrArg ((item, fold value item) :: ·) (ih _)

theorem foldTrace_isPrefix (fold : Value → Item → Value) (value : Value) {items later : List Item}
    (starts : items <+: later) : foldTrace fold value items <+: foldTrace fold value later := by
  obtain ⟨rest, rfl⟩ := starts
  exact ⟨_, (foldTrace_append fold value items rest).symm⟩

/-- Two folds that agree on the elements of a list have the same values. -/
theorem foldTrace_congr {fold other : Value → Item → Value} {items : List Item}
    (agree : ∀ item ∈ items, ∀ value, fold value item = other value item) (value : Value) :
    foldTrace fold value items = foldTrace other value items := by
  induction items generalizing value with
  | nil => rfl
  | cons item items ih =>
      have same := agree item List.mem_cons_self value
      have later := ih (fun item inside => agree item (List.mem_cons_of_mem _ inside))
      rw [foldTrace, foldTrace, same, later]

/-- A fold that does not look at its value maps the elements. -/
theorem foldTrace_of_const {fold : Value → Item → Value} {result : Item → Value}
    (const : ∀ value item, fold value item = result item) (value : Value) (items : List Item) :
    foldTrace fold value items = items.map fun item => (item, result item) := by
  induction items generalizing value with
  | nil => rfl
  | cons item items ih => rw [foldTrace, const, ih, List.map_cons]

/-! ## The pipeline -/

/-- The element staged for the fold, the value of the fold, and the element folded last. -/
structure FoldPipe (Item : Type u) (Value : Type v) where
  staged : Option Item
  value : Value
  last : Option Item

/-- What the pipeline sees in a cycle. -/
structure PipeInput (Item : Type u) where
  enable : Bool
  next : Option Item

namespace PipeInput

/-- The element that is accepted. -/
def accepts (input : PipeInput Item) : List Item :=
  if input.enable then input.next.toList else []

/-- The elements that are accepted in some cycles. -/
def accepted (inputs : List (PipeInput Item)) : List Item := inputs.flatMap accepts

theorem accepted_snoc (inputs : List (PipeInput Item)) (input : PipeInput Item) :
    accepted (inputs ++ [input]) = accepted inputs ++ input.accepts := by
  rw [accepted, List.flatMap_append]
  exact congrArg (_ ++ ·) (List.append_nil _)

end PipeInput

namespace FoldPipe

variable (fold : Value → Item → Value)

/-- One clock edge. -/
def step (pipe : FoldPipe Item Value) (input : PipeInput Item) : FoldPipe Item Value :=
  if input.enable then
    { staged := input.next, value := pipe.staged.elim pipe.value (fold pipe.value)
      last := pipe.staged }
  else pipe

/-- What is delivered in a cycle. -/
def delivers (pipe : FoldPipe Item Value) (input : PipeInput Item) : List (Item × Value) :=
  if input.enable then pipe.last.toList.map fun item => (item, pipe.value) else []

/-- An empty pipeline with a value. -/
def machine (value : Value) : Machine (FoldPipe Item Value) (PipeInput Item) where
  init := ⟨none, value, none⟩
  step := step fold

open PipeInput

/-- The elements in the pipeline are the last ones accepted. -/
structure Holds (value : Value) (inputs : List (PipeInput Item)) (pipe : FoldPipe Item Value) :
    Prop where
  staged : accepted inputs = accepted (beforeLast enable inputs) ++ pipe.staged.toList
  last : accepted (beforeLast enable inputs) =
    accepted (beforeLast enable (beforeLast enable inputs)) ++ pipe.last.toList
  value : pipe.value = (accepted (beforeLast enable inputs)).foldl fold value

variable {fold} {value : Value}

theorem Holds.step {inputs : List (PipeInput Item)} {pipe : FoldPipe Item Value}
    (holds : Holds fold value inputs pipe) (input : PipeInput Item) :
    Holds fold value (inputs ++ [input]) (pipe.step fold input) := by
  cases enabled : input.enable with
  | false =>
      have same : accepted (inputs ++ [input]) = accepted inputs := by
        rw [accepted_snoc, accepts, enabled]
        exact List.append_nil _
      have before : beforeLast enable (inputs ++ [input]) = beforeLast enable inputs := by
        rw [beforeLast_snoc, enabled]; rfl
      have rests : pipe.step fold input = pipe := by rw [FoldPipe.step, enabled]; rfl
      rw [rests]
      exact ⟨by rw [same, before]; exact holds.staged, by rw [before]; exact holds.last,
        by rw [before]; exact holds.value⟩
  | true =>
      have before : beforeLast enable (inputs ++ [input]) = inputs := by
        rw [beforeLast_snoc, enabled]; rfl
      have moves : pipe.step fold input = _ := if_pos enabled
      rw [moves]
      refine ⟨?_, ?_, ?_⟩
      · rw [accepted_snoc, accepts, enabled, before]
        rfl
      · rw [before]
        exact holds.staged
      · rw [before, holds.staged, List.foldl_append, ← holds.value]
        cases pipe.staged <;> rfl

theorem holds_run (inputs : List (PipeInput Item)) :
    Holds fold value inputs ((machine fold value).run inputs) := by
  induction inputs using List.reverseRecOn with
  | nil => exact ⟨rfl, rfl, rfl⟩
  | append_singleton inputs input ih =>
      rw [Machine.run_snoc]
      exact ih.step input

/-- The pipeline delivers the fold over what was accepted before the last two cycles in which
it was enabled. -/
theorem observed_delivers (inputs : List (PipeInput Item)) :
    (machine fold value).observed delivers inputs =
      foldTrace fold value (accepted (beforeLast enable (beforeLast enable inputs))) := by
  induction inputs using List.reverseRecOn with
  | nil => rfl
  | append_singleton inputs input ih =>
      have holds : Holds fold value inputs ((machine fold value).run inputs) := holds_run inputs
      rw [Machine.observed_snoc, ih, beforeLast_snoc, delivers]
      cases enabled : input.enable with
      | false => exact List.append_nil _
      | true =>
          rw [if_pos rfl, if_pos rfl, holds.last, foldTrace_append]
          have value' := holds.value
          rw [holds.last, List.foldl_append] at value'
          cases last : ((machine fold value).run inputs).last with
          | none => rfl
          | some item =>
              rw [last] at value'
              exact congrArg (fun value => _ ++ [(item, value)]) value'

end FoldPipe

end Clocked
