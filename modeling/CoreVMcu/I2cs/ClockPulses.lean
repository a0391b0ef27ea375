import CoreVMcu.I2cs.EdgeAnswers

/-!
# Clock pulses

What the slave does when the master changes the levels, and from it what a clock pulse and
a sequence of them lead to.
-/

namespace CoreVMcu.I2cs

open Clocked

variable {cfg : SlaveCfg} {watched next later : Watched} {level levelNext : Level}
variable {fsm mid : Fsm} {edges : Edges}

/-- The data line does not change while the state machine answers an edge. -/
def KeepsLine (cfg : SlaveCfg) (fsm : Fsm) (edges : Edges) (sda : Bool) : Prop :=
  ∀ rddata, (sda && (fsm.step cfg edges rddata).sdaOut) = (sda && fsm.sdaOut) ∧
    (sda && ((fsm.step cfg edges rddata).quiet cfg).sdaOut) = (sda && fsm.sdaOut) ∧
    (sda && (((fsm.step cfg edges rddata).quiet cfg).quiet cfg).sdaOut) = (sda && fsm.sdaOut)

theorem keepsLine_low : KeepsLine cfg fsm edges false := fun _ => ⟨rfl, rfl, rfl⟩

theorem keepsLine_of_step {last : BitVec 8 → Fsm} {sda : Bool}
    (steps : ∀ rddata, fsm.step cfg edges rddata = last rddata)
    (steadyLast : ∀ rddata, (last rddata).Steady cfg)
    (same : ∀ rddata, (sda && (last rddata).sdaOut) = (sda && fsm.sdaOut)) :
    KeepsLine cfg fsm edges sda := by
  intro rddata
  rw [steps, (steadyLast rddata).stays, (steadyLast rddata).stays]
  exact ⟨same rddata, same rddata, same rddata⟩

namespace At

/-- Levels that are held and make an edge which the state machine answers. -/
theorem answered (plain : cfg.Plain) (settled : At cfg watched level fsm)
    {inputs : List BusInput} (long : settleClocks ≤ inputs.length)
    (held : HoldsLevel levelNext inputs) {clock : Nat} (early : clock < settleClocks - 3)
    {last : BitVec 8 → Fsm} {written : List (BitVec 8 × BitVec 8)}
    {loaded : BitVec 8 → List (BitVec 8)}
    (answers : ∀ rddata, Answers cfg fsm edges rddata (last rddata) written (loaded rddata))
    (oneEdge : ∀ rddata rcvd, ∃ rcvdNext, OneEdge
      ((Lines.settled level.scl (level.sda && fsm.sdaOut) rcvd).after levelNext.scl
        (dataLine clock (levelNext.sda && fsm.sdaOut)
          (levelNext.sda && (fsm.step cfg edges rddata).sdaOut)
          (levelNext.sda && ((fsm.step cfg edges rddata).quiet cfg).sdaOut)
          (levelNext.sda && (last rddata).sdaOut)))
      clock edges (.settled levelNext.scl (levelNext.sda && (last rddata).sdaOut) rcvdNext)) :
    ∃ rddata, Reacts cfg watched levelNext (last rddata) written (loaded rddata)
      ((slaveMachine cfg).runFrom watched inputs) := by
  obtain ⟨rcvd, lines⟩ := settled.lines
  have reaction : ∀ rddata, Reaction cfg clock edges rddata fsm (fsm.step cfg edges rddata)
      ((fsm.step cfg edges rddata).quiet cfg) (last rddata) := fun rddata =>
    ⟨early, settled.steady, rfl, rfl, (answers rddata).rests, (answers rddata).steadyLast⟩
  obtain ⟨rddata, reacts⟩ := hold_reacts plain settled.machine long held reaction
    (fun rddata => by rw [lines]; exact oneEdge rddata rcvd)
  rw [(answers rddata).written, (answers rddata).loaded] at reacts
  exact ⟨rddata, reacts⟩

variable {sda sdaNext : Bool} {inputs : List BusInput}

/-- The data line changes while the clock line is low. -/
theorem low (plain : cfg.Plain) (settled : At cfg watched ⟨false, sda⟩ fsm)
    (long : settleClocks ≤ inputs.length) (held : HoldsLevel ⟨false, sdaNext⟩ inputs) :
    Reacts cfg watched ⟨false, sdaNext⟩ fsm [] []
      ((slaveMachine cfg).runFrom watched inputs) := by
  have quiet : ∀ rddata, fsm.step cfg .none rddata = fsm := fun rddata =>
    (fsm.step_none cfg rddata).trans settled.steady.stays
  obtain ⟨_, reacts⟩ := settled.answered plain long held
    (show 0 < settleClocks - 3 by decide)
    (fun rddata => .of_step settled.steady (quiet rddata) settled.steady
      (fsm.byteLoaded_none rddata))
    (fun rddata rcvd => by
      rw [quiet, settled.steady.stays]
      exact ⟨rcvd, oneEdge_low rcvd _ _⟩)
  exact reacts

/-- The clock line falls. -/
theorem fall (plain : cfg.Plain) (settled : At cfg watched ⟨true, sda⟩ fsm)
    (long : settleClocks ≤ inputs.length) (held : HoldsLevel ⟨false, sda⟩ inputs)
    {last : BitVec 8 → Fsm} {written : List (BitVec 8 × BitVec 8)}
    {loaded : BitVec 8 → List (BitVec 8)}
    (answers : ∀ rddata, Answers cfg fsm fallEdge rddata (last rddata) written (loaded rddata)) :
    ∃ rddata, Reacts cfg watched ⟨false, sda⟩ (last rddata) written (loaded rddata)
      ((slaveMachine cfg).runFrom watched inputs) :=
  settled.answered plain long held (show 4 < settleClocks - 3 by decide) answers
    fun _ rcvd => ⟨rcvd, oneEdge_fall rcvd _ _ _ _⟩

/-- The clock line rises. -/
theorem rise (plain : cfg.Plain) (settled : At cfg watched ⟨false, sda⟩ fsm)
    (long : settleClocks ≤ inputs.length) (held : HoldsLevel ⟨true, sda⟩ inputs) {bit : Bool}
    (line : (sda && fsm.sdaOut) = bit) {last : BitVec 8 → Fsm}
    {loaded : BitVec 8 → List (BitVec 8)}
    (answers : ∀ rddata, Answers cfg fsm (bitEdge bit) rddata (last rddata) [] (loaded rddata))
    (keeps : KeepsLine cfg fsm (bitEdge bit) sda) :
    ∃ rddata, Reacts cfg watched ⟨true, sda⟩ (last rddata) [] (loaded rddata)
      ((slaveMachine cfg).runFrom watched inputs) := by
  subst line
  refine settled.answered plain long held (show 5 < settleClocks - 3 by decide) answers
    fun rddata rcvd => ⟨sda && fsm.sdaOut, ?_⟩
  rw [(keeps rddata).1, (keeps rddata).2.1, ← (answers rddata).rests, (keeps rddata).2.2]
  exact oneEdge_rise rcvd _

/-- The data line falls while the clock line is high. -/
theorem start (plain : cfg.Plain) (settled : At cfg watched ⟨true, true⟩ fsm)
    (released : fsm.sdaOut = true) (long : settleClocks ≤ inputs.length)
    (held : HoldsLevel ⟨true, false⟩ inputs) {last : Fsm}
    (answers : ∀ rddata, Answers cfg fsm startEdge rddata last [] []) :
    Reacts cfg watched ⟨true, false⟩ last [] [] ((slaveMachine cfg).runFrom watched inputs) := by
  obtain ⟨_, reacts⟩ := settled.answered plain long held
    (show 5 < settleClocks - 3 by decide) answers
    (fun _ rcvd => ⟨rcvd, by rw [released]; exact oneEdge_start rcvd⟩)
  exact reacts

/-- The data line rises while the clock line is high. -/
theorem stop (plain : cfg.Plain) (settled : At cfg watched ⟨true, false⟩ fsm)
    (released : fsm.sdaOut = true) (long : settleClocks ≤ inputs.length)
    (held : HoldsLevel ⟨true, true⟩ inputs) {last : Fsm}
    (answers : ∀ rddata, Answers cfg fsm stopEdge rddata last [] [])
    (keeps : KeepsLine cfg fsm stopEdge true) :
    Reacts cfg watched ⟨true, true⟩ last [] [] ((slaveMachine cfg).runFrom watched inputs) := by
  obtain ⟨_, reacts⟩ := settled.answered plain long held
    (show 3 < settleClocks - 3 by decide) answers
    (fun rddata rcvd => ⟨rcvd, by
      rw [(keeps rddata).1, (keeps rddata).2.1, ← (answers rddata).rests, (keeps rddata).2.2,
        released]
      exact oneEdge_stop rcvd⟩)
  exact reacts

end At

/-! ## Playing actions -/

theorem Reacts.trans {written writtenNext : List (BitVec 8 × BitVec 8)}
    {loaded loadedNext : List (BitVec 8)}
    (first : Reacts cfg watched level mid written loaded next)
    (second : Reacts cfg next levelNext fsm writtenNext loadedNext later) :
    Reacts cfg watched levelNext fsm (written ++ writtenNext) (loaded ++ loadedNext) later where
  settled := second.settled
  written := by rw [second.written, first.written, List.append_assoc]
  loaded := by rw [second.loaded, first.loaded, List.append_assoc]

namespace Plays

variable {action : Action} {actions actionsNext : List Action} {samples : List Bool}

theorem of_nil (plays : Plays cfg watched [] samples later) : later = watched ∧ samples = [] := by
  cases plays
  exact ⟨rfl, rfl⟩

theorem of_cons (plays : Plays cfg watched (action :: actions) samples later) :
    ∃ inputs samplesNext, settleClocks ≤ inputs.length ∧ HoldsLevel action.level inputs ∧
      Plays cfg ((slaveMachine cfg).runFrom watched inputs) actions samplesNext later ∧
      samples = (if action.sampled then
          [action.level.sda && ((slaveMachine cfg).runFrom watched inputs).slave.fsm.sdaOut]
        else []) ++ samplesNext := by
  cases plays with
  | hold long held rest => exact ⟨_, _, long, held, rest, rfl⟩

theorem of_append (plays : Plays cfg watched (actions ++ actionsNext) samples later) :
    ∃ next first second, Plays cfg watched actions first next ∧
      Plays cfg next actionsNext second later ∧ samples = first ++ second := by
  induction actions generalizing watched samples with
  | nil => exact ⟨watched, [], samples, .nil watched, plays, rfl⟩
  | cons action actions inductionHypothesis =>
      obtain ⟨inputs, samplesNext, long, held, rest, rfl⟩ := plays.of_cons
      obtain ⟨next, first, second, playsFirst, playsSecond, rfl⟩ := inductionHypothesis rest
      exact ⟨next, _, second, .hold long held playsFirst, playsSecond,
        (List.append_assoc _ _ _).symm⟩

end Plays

/-! ## What actions lead to -/

/-- Where actions leave the state machine, what it writes and loads meanwhile, and what the
master samples. -/
structure Outcome where
  fsm : Fsm
  written : List (BitVec 8 × BitVec 8)
  loaded : List (BitVec 8)
  samples : List Bool

/-- A later outcome with what came before it. -/
def Outcome.andThen (first second : Outcome) : Outcome where
  fsm := second.fsm
  written := first.written ++ second.written
  loaded := first.loaded ++ second.loaded
  samples := first.samples ++ second.samples

/-- From a low clock line to a low clock line, the actions lead to one of some outcomes. -/
def Leads (cfg : SlaveCfg) (fsm : Fsm) (actions : List Action) (outcome : Outcome → Prop) :
    Prop :=
  ∀ watched sda samples later, At cfg watched ⟨false, sda⟩ fsm →
    Plays cfg watched actions samples later →
      ∃ sdaLater reached, outcome reached ∧ reached.samples = samples ∧
        Reacts cfg watched ⟨false, sdaLater⟩ reached.fsm reached.written reached.loaded later

namespace Leads

variable {actions actionsNext : List Action} {outcome outcomeNext : Outcome → Prop}
variable {first second : Outcome}

theorem nil : Leads cfg fsm [] (· = ⟨fsm, [], [], []⟩) := by
  intro watched sda samples later settled plays
  obtain ⟨rfl, rfl⟩ := plays.of_nil
  exact ⟨sda, _, rfl, rfl, settled, (List.append_nil _).symm, (List.append_nil _).symm⟩

theorem append (leads : Leads cfg fsm actions outcome)
    (next : ∀ reached, outcome reached →
      Leads cfg reached.fsm actionsNext fun last => outcomeNext (reached.andThen last)) :
    Leads cfg fsm (actions ++ actionsNext) outcomeNext := by
  intro watched sda samples later settled plays
  obtain ⟨middle, samplesFirst, samplesSecond, playsFirst, playsSecond, rfl⟩ := plays.of_append
  obtain ⟨sdaMiddle, reached, holds, rfl, reacts⟩ :=
    leads watched sda samplesFirst middle settled playsFirst
  obtain ⟨sdaLater, last, holdsLast, rfl, reactsLast⟩ :=
    next reached holds middle sdaMiddle samplesSecond later reacts.settled playsSecond
  exact ⟨sdaLater, reached.andThen last, holdsLast, rfl, reacts.trans reactsLast⟩

theorem mono (leads : Leads cfg fsm actions outcome)
    (implies : ∀ reached, outcome reached → outcomeNext reached) :
    Leads cfg fsm actions outcomeNext := by
  intro watched sda samples later settled plays
  obtain ⟨sdaLater, reached, holds, rest⟩ := leads watched sda samples later settled plays
  exact ⟨sdaLater, reached, implies reached holds, rest⟩

/-- One outcome after another one. -/
theorem andThen (leads : Leads cfg fsm actions (· = first))
    (next : Leads cfg first.fsm actionsNext (· = second)) :
    Leads cfg fsm (actions ++ actionsNext) (· = first.andThen second) := by
  refine leads.append fun reached same => ?_
  rw [same]
  refine next.mono fun last lastSame => ?_
  rw [lastSame]

end Leads

/-- A clock pulse. -/
theorem clockBit_leads (plain : cfg.Plain) {sda bit sampled : Bool} {mid : BitVec 8 → Fsm}
    {last : BitVec 8 → BitVec 8 → Fsm} {written : List (BitVec 8 × BitVec 8)}
    {loadedRise loadedFall : BitVec 8 → List (BitVec 8)} (line : (sda && fsm.sdaOut) = bit)
    (rise : ∀ rddata, Answers cfg fsm (bitEdge bit) rddata (mid rddata) [] (loadedRise rddata))
    (keeps : KeepsLine cfg fsm (bitEdge bit) sda)
    (fall : ∀ early rddata, Answers cfg (mid early) fallEdge rddata (last early rddata) written
      (loadedFall rddata)) :
    Leads cfg fsm (clockBit sda sampled) fun reached => ∃ early rddata,
      reached = ⟨last early rddata, written, loadedRise early ++ loadedFall rddata,
        if sampled then [sda && (mid early).sdaOut] else []⟩ := by
  intro watched sdaBefore samples later settled plays
  obtain ⟨_, _, longLow, heldLow, plays, samplesEq⟩ := plays.of_cons
  have low := settled.low plain longLow heldLow
  obtain ⟨_, _, longRise, heldRise, plays, samplesRise⟩ := plays.of_cons
  obtain ⟨early, risen⟩ := low.settled.rise plain longRise heldRise line rise keeps
  obtain ⟨_, _, longFall, heldFall, plays, samplesFall⟩ := plays.of_cons
  obtain ⟨rddata, fallen⟩ := risen.settled.fall plain longFall heldFall (fall early)
  obtain ⟨rfl, samplesNil⟩ := plays.of_nil
  refine ⟨sda, _, ⟨early, rddata, rfl⟩, ?_, (low.trans risen).trans fallen⟩
  rw [samplesEq, samplesRise, samplesFall, samplesNil, risen.settled.machine]
  exact (List.append_nil _).symm

/-- A clock pulse with one outcome. -/
theorem clockBit_leads_one (plain : cfg.Plain) {sda bit sampled : Bool} {mid last : Fsm}
    {written : List (BitVec 8 × BitVec 8)} (line : (sda && fsm.sdaOut) = bit)
    (rise : ∀ rddata, Answers cfg fsm (bitEdge bit) rddata mid [] [])
    (keeps : KeepsLine cfg fsm (bitEdge bit) sda)
    (fall : ∀ rddata, Answers cfg mid fallEdge rddata last written []) :
    Leads cfg fsm (clockBit sda sampled)
      (· = ⟨last, written, [], if sampled then [sda && mid.sdaOut] else []⟩) :=
  (clockBit_leads plain line rise keeps fun _ => fall).mono fun _ ⟨_, _, same⟩ => same

end CoreVMcu.I2cs
