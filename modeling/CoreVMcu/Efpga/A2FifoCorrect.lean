import CoreVMcu.Efpga.A2Refinement

/-!
# What `A2_fifo` guarantees

From `fflush` on, with any contents of the memory, the FIFO delivers what it
accepted, and a refused request leaves no trace, in exactly the runs that present
no push while `full` is raised.
-/

namespace CoreVMcu.Efpga

open Clocked

variable {width aWidth : Nat}

/-- `A2_fifo` after `fflush`. -/
def a2Machine (ram : UnresetRam width aWidth) :
    Machine (A2Fifo width aWidth) (FifoEdges (BitVec width)) where
  init := A2Fifo.flushed ram
  step := A2Fifo.step

/-- The edges of an instant without a push while full and a pop while empty. -/
def withoutRefused (fifo : A2Fifo width aWidth) (edges : FifoEdges (BitVec width)) :
    FifoEdges (BitVec width) where
  push := edges.push.map fun request => if fifo.push.full then none else request
  pop := edges.pop.map fun pop => pop && !fifo.pop.empty

/-- Nothing is pushed, and every edge of the pop clock asks for a word. -/
def Drains (edges : FifoEdges (BitVec width)) : Prop :=
  (∀ wdata, edges.push ≠ some (some wdata)) ∧ edges.pop ≠ some false

/-- The FIFO along a run. -/
structure A2FifoIsFifo (ram : UnresetRam width aWidth)
    (inputs : List (FifoEdges (BitVec width))) : Prop where
  /-- The words popped while not empty are, in order, the words pushed while not
  full. -/
  inOrder : (a2Machine ram).observed A2Fifo.delivered inputs <+:
    (a2Machine ram).observed A2Fifo.accepted inputs
  /-- All of them are delivered when enough edges of the pop clock follow. -/
  drained : ∀ later, (∀ edges ∈ later, Drains edges) →
    2 ^ aWidth + 3 ≤ later.countP (·.pop.isSome) →
    (a2Machine ram).observed A2Fifo.delivered (inputs ++ later) =
      (a2Machine ram).observed A2Fifo.accepted inputs
  /-- Refused requests change nothing. -/
  refusedIdle : (a2Machine ram).Always
    (fun fifo edges => fifo.step edges = fifo.step (withoutRefused fifo edges)) inputs
  /-- `full` is raised when there is no room. -/
  fullSafe : ((a2Machine ram).run inputs).push.full = false →
    ((a2Machine ram).observed A2Fifo.accepted inputs).length <
      ((a2Machine ram).observed A2Fifo.delivered inputs).length + 2 ^ aWidth
  /-- `empty` is raised when there is no word. -/
  emptySafe : ((a2Machine ram).run inputs).pop.empty = false →
    ((a2Machine ram).observed A2Fifo.delivered inputs).length <
      ((a2Machine ram).observed A2Fifo.accepted inputs).length

variable {ram : UnresetRam width aWidth}

/-- The registers encode an abstract FIFO with the words of the run. -/
def A2Tracks (ram : UnresetRam width aWidth) (inputs : List (FifoEdges (BitVec width)))
    (abstract : AsyncFifo (BitVec width)) : Prop :=
  Carries ((a2Machine ram).run inputs) abstract
    ((a2Machine ram).observed A2Fifo.accepted inputs)
    ((a2Machine ram).observed A2Fifo.delivered inputs)

theorem A2Tracks.step {inputs : List (FifoEdges (BitVec width))}
    {abstract : AsyncFifo (BitVec width)} (tracks : A2Tracks ram inputs abstract)
    {edges : FifoEdges (BitVec width)}
    (room : NoPushWhileFull ((a2Machine ram).run inputs) edges) :
    A2Tracks ram (inputs ++ [edges]) (abstract.step (2 ^ aWidth) edges) := by
  rw [A2Tracks, Machine.run_snoc, Machine.observed_snoc, Machine.observed_snoc]
  exact Carries.step tracks room

theorem a2Tracks (inputs : List (FifoEdges (BitVec width)))
    (room : (a2Machine ram).Always NoPushWhileFull inputs) :
    ∃ abstract, A2Tracks ram inputs abstract := by
  refine Machine.run_induction (motive := fun inputs _ => ∃ abstract, A2Tracks ram inputs abstract)
    ?_ ?_ inputs room
  · exact ⟨AsyncFifo.reset, carries_flushed ram⟩
  · rintro inputs edges - ⟨abstract, tracks⟩ room
    exact ⟨_, tracks.step room⟩

/-- Draining instants bring the FIFO closer to the end of its words. -/
theorem A2Tracks.drain {inputs : List (FifoEdges (BitVec width))}
    {abstract : AsyncFifo (BitVec width)} (tracks : A2Tracks ram inputs abstract)
    (later : List (FifoEdges (BitVec width))) (drains : ∀ edges ∈ later, Drains edges) :
    ∃ drained, A2Tracks ram (inputs ++ later) drained ∧
      drained.push.words = abstract.push.words ∧
      drained.rank ≤ abstract.rank - later.countP (·.pop.isSome) := by
  induction later using List.reverseRecOn with
  | nil => exact ⟨abstract, by rwa [List.append_nil], rfl, Nat.le_refl _⟩
  | append_singleton later edges inductionHypothesis =>
      obtain ⟨drained, tracks, words, rank⟩ := inductionHypothesis fun other member =>
        drains other (List.mem_append_left _ member)
      obtain ⟨quiet, popping⟩ := drains edges (by simp)
      have room : NoPushWhileFull ((a2Machine ram).run (inputs ++ later)) edges := by
        intro request push isPush
        obtain ⟨wdata, rfl⟩ := Option.isSome_iff_exists.mp isPush
        exact absurd push (quiet wdata)
      have none : drained.accepted (2 ^ aWidth) edges = [] := by
        unfold AsyncFifo.accepted PushSide.accepts
        split
        next request push =>
          cases request with
          | none => rfl
          | some wdata => exact absurd push (quiet wdata)
        next => rfl
      have asks : drained.asked edges = edges.pop.isSome := by
        cases pop : edges.pop with
        | none => simp [AsyncFifo.asked, pop]
        | some request =>
            cases request with
            | true => simp [AsyncFifo.asked, pop]
            | false => exact absurd pop popping
      have closer := AsyncFifo.rank_step (Carries.represents tracks).ordered none
      have grown := AsyncFifo.words_step (2 ^ aWidth) drained edges
      refine ⟨drained.step (2 ^ aWidth) edges, ?_, ?_, ?_⟩
      · rw [← List.append_assoc]
        exact tracks.step room
      · rw [grown, none, List.append_nil, words]
      · have single : [edges].countP (·.pop.isSome) = edges.pop.isSome.toNat := by
          cases pop : edges.pop <;> simp [pop]
        rw [asks] at closer
        rw [List.countP_append, single]
        omega

theorem step_eq_withoutRefused {fifo : A2Fifo width aWidth} {edges : FifoEdges (BitVec width)} :
    fifo.step edges = fifo.step (withoutRefused fifo edges) ↔ NoPushWhileFull fifo edges := by
  have pops : (fifo.step edges).pop = (fifo.step (withoutRefused fifo edges)).pop := by
    simp only [A2Fifo.step, withoutRefused]
    cases edges.pop with
    | none => rfl
    | some pop =>
        cases wasEmpty : fifo.pop.empty <;> cases pop <;>
          simp [A2PopSide.edge, A2PopSide.raddrAfter, A2PopSide.advances, A2PopSide.emptyNext,
            wasEmpty]
  constructor
  · intro equal request push isPush
    by_contra isFull
    have waddr := congrArg (fun fifo : A2Fifo width aWidth => fifo.push.waddr) equal
    simp only [A2Fifo.step, withoutRefused, push, Option.map_some, A2PushSide.edge,
      A2PushSide.waddrAfter, isPush, if_true, Bool.not_eq_false] at waddr isFull
    rw [if_pos isFull] at waddr
    simp at waddr
  · intro room
    have pushes : (fifo.step edges).push = (fifo.step (withoutRefused fifo edges)).push := by
      simp only [A2Fifo.step, withoutRefused]
      cases push : edges.push with
      | none => rfl
      | some request =>
          cases request with
          | none => cases fifo.push.full <;> rfl
          | some wdata =>
              have notFull := room _ push rfl
              simp [notFull]
    exact A2Fifo.ext pushes pops

/-- For every depth, every interleaving of the clock edges and every request
pattern: the FIFO is a FIFO along exactly the runs without a push while full. -/
theorem a2Fifo_isFifo_iff (ram : UnresetRam width aWidth)
    (inputs : List (FifoEdges (BitVec width))) :
    A2FifoIsFifo ram inputs ↔ (a2Machine ram).Always NoPushWhileFull inputs := by
  have unchanged : (a2Machine ram).Always
      (fun fifo edges => fifo.step edges = fifo.step (withoutRefused fifo edges)) inputs ↔
      (a2Machine ram).Always NoPushWhileFull inputs :=
    Machine.always_congr (fun _ _ => step_eq_withoutRefused) inputs
  constructor
  · intro isFifo
    exact unchanged.mp isFifo.refusedIdle
  · intro room
    obtain ⟨abstract, tracks⟩ := a2Tracks inputs room
    have popped := Carries.length_popped tracks
    have pushed := congrArg List.length (Carries.pushed tracks)
    obtain ⟨represents, -, -⟩ := id tracks
    obtain ⟨seenPopped, secondPopped, firstPopped, poppedSeen, seenPushed, secondPushed,
      firstPushed, bounded⟩ := represents.ordered
    constructor
    case inOrder => exact Carries.inOrder tracks
    case drained =>
      intro later drains enough
      obtain ⟨drained, tracks', words, rank⟩ := tracks.drain later drains
      have bound := represents.ordered.rank_le
      rw [Carries.drained tracks' (by omega), tracks'.pushed, words, ← tracks.pushed]
    case refusedIdle => exact unchanged.mpr room
    case fullSafe =>
      intro notFull
      rw [represents.push.full, PushSide.full, decide_eq_false_iff_not] at notFull
      omega
    case emptySafe =>
      intro offered
      rw [represents.pop.empty, PopSide.empty, decide_eq_false_iff_not] at offered
      omega

/-- An edge of the push clock with a word, and one of the pop clock with a pop. -/
def pushEdge (wdata : BitVec 8) : FifoEdges (BitVec 8) := ⟨some (some wdata), none⟩

def popEdge : FifoEdges (BitVec 8) := ⟨none, some true⟩

/-- Five words are pushed into four slots, and all are popped. -/
def overrun : List (FifoEdges (BitVec 8)) :=
  [pushEdge 1#8, pushEdge 2#8, pushEdge 3#8, pushEdge 4#8, pushEdge 5#8,
   popEdge, popEdge, popEdge, popEdge, popEdge, popEdge, popEdge, popEdge]

/-- After a push while full the FIFO delivers a word that was never accepted. -/
theorem overrun_not_isFifo : ¬A2FifoIsFifo (⟨fun _ => 0#8, 0#2⟩ : UnresetRam 8 2) overrun :=
  fun isFifo => absurd isFifo.inOrder (by decide)

end CoreVMcu.Efpga
