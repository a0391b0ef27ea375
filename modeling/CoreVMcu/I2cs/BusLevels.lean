import CoreVMcu.I2cs.PeripheralInterface
import CoreVMcu.Clocked.Machine

/-!
# The levels of the bus

The master holds each pair of levels of the two lines for many clocks.  However long it
does, the slave sees one edge for one change of a line, and what it does about it is done
before the next change.
-/

namespace CoreVMcu.I2cs

open Clocked

/-! ## What is observed -/

/-- The slave with the bytes that it has written to the registers and those that it has
loaded from them. -/
structure Watched where
  slave : Slave
  written : List (BitVec 8 × BitVec 8)
  loaded : List (BitVec 8)

namespace Watched

def step (cfg : SlaveCfg) (watched : Watched) (input : BusInput) : Watched where
  slave := watched.slave.step cfg input
  written := watched.written ++ watched.slave.fsm.byteWritten
  loaded :=
    watched.loaded ++ watched.slave.fsm.byteLoaded watched.slave.lines.edges input.rddata

end Watched

/-- The slave from reset. -/
def slaveMachine (cfg : SlaveCfg) : Machine Watched BusInput where
  init := ⟨.reset, [], []⟩
  step := Watched.step cfg

namespace Lines

/-- The lines when nothing has changed for a while. -/
def settled (scl sda rcvd : Bool) : Lines where
  sclD := .all scl
  sdaD := .all sda
  sclCs := scl
  sclLs := scl
  sdaCs := sda
  sdaLs := sda
  sdaCnt := 0
  sclCnt := 0
  startDetect := false
  stopDetect := false
  bitXfer := false
  bitRcvd := rcvd

/-- The lines some clocks later, with a clock line that is held and a data line that is
given. -/
def after (lines : Lines) (scl : Bool) (sda : Nat → Bool) : Nat → Lines
  | 0 => lines
  | t + 1 => (after lines scl sda t).step 0 0 scl (sda t)

theorem settled_step (scl sda rcvd : Bool) :
    (settled scl sda rcvd).step 0 0 scl sda = settled scl sda rcvd := by
  revert scl sda rcvd
  decide

theorem settled_edges (scl sda rcvd : Bool) : (settled scl sda rcvd).edges = .none := by
  revert scl sda rcvd
  decide

end Lines

/-- The number of clocks after which the lines are settled. -/
def settleClocks : Nat := 16

/-- Something that changes with an edge and in the two clocks after it. -/
def stage {Value : Type} (before first second last : Value) : Nat → Value
  | 0 => before
  | 1 => first
  | 2 => second
  | _ + 3 => last

/-- The data line when the slave reacts in a clock. -/
def dataLine (clock : Nat) (before first second last : Bool) (t : Nat) : Bool :=
  stage before first second last (t - clock)

/-- The lines settle after one edge that is seen in a clock. -/
structure OneEdge (lines : Nat → Lines) (clock : Nat) (edges : Edges) (settled : Lines) :
    Prop where
  settles : lines settleClocks = settled
  seen : ∀ t < settleClocks, (lines t).edges = if t = clock then edges else .none

instance (lines : Nat → Lines) (clock : Nat) (edges : Edges) (settled : Lines) :
    Decidable (OneEdge lines clock edges settled) :=
  decidable_of_iff ((lines settleClocks = settled) ∧
      ∀ t < settleClocks, (lines t).edges = if t = clock then edges else .none)
    ⟨fun both => ⟨both.1, both.2⟩, fun one => ⟨one.settles, one.seen⟩⟩

/-- The clock line falls. -/
theorem oneEdge_fall (rcvd before first second last : Bool) :
    OneEdge ((Lines.settled true before rcvd).after false (dataLine 4 before first second last))
      4 { Edges.none with sclFall := true } (.settled false last rcvd) := by
  revert rcvd before first second last
  decide

/-- The clock line rises and a bit is transferred. -/
theorem oneEdge_rise (rcvd sda : Bool) :
    OneEdge ((Lines.settled false sda rcvd).after true (dataLine 5 sda sda sda sda))
      5 { Edges.none with bit := some sda } (.settled true sda sda) := by
  revert rcvd sda
  decide

/-- The data line falls while the clock line is high. -/
theorem oneEdge_start (rcvd : Bool) :
    OneEdge ((Lines.settled true true rcvd).after true (dataLine 5 false false false false))
      5 { Edges.none with startDetect := true } (.settled true false rcvd) := by
  revert rcvd
  decide

/-- The data line rises while the clock line is high. -/
theorem oneEdge_stop (rcvd : Bool) :
    OneEdge ((Lines.settled true false rcvd).after true (dataLine 3 true true true true))
      3 { Edges.none with stopDetect := true } (.settled true true rcvd) := by
  revert rcvd
  decide

/-- The data line changes while the clock line is low. -/
theorem oneEdge_low (rcvd before sda : Bool) :
    OneEdge ((Lines.settled false before rcvd).after false (dataLine 0 sda sda sda sda))
      0 .none (.settled false sda rcvd) := by
  revert rcvd before sda
  decide

namespace Fsm

variable (cfg : SlaveCfg) (fsm : Fsm)

/-- A clock without an edge. -/
def quiet : Fsm := fsm.step cfg .none 0

theorem step_none (rddata : BitVec 8) : fsm.step cfg .none rddata = fsm.quiet cfg := by
  rw [quiet, step, step]
  cases fsm.i2cState <;> rfl

theorem byteLoaded_none (rddata : BitVec 8) : fsm.byteLoaded .none rddata = [] := by
  rw [byteLoaded]
  cases fsm.i2cState <;> rfl

/-- The state machine waits for an edge. -/
structure Steady : Prop where
  stays : fsm.quiet cfg = fsm
  notWritten : fsm.i2cRegWrenable = false

theorem Steady.byteWritten {cfg : SlaveCfg} {fsm : Fsm} (steady : fsm.Steady cfg) :
    fsm.byteWritten = [] := by
  rw [Fsm.byteWritten, steady.notWritten]
  rfl

end Fsm

/-! ## Holding the levels -/

/-- The levels that the master drives. -/
structure Level where
  scl : Bool
  sda : Bool
  deriving DecidableEq

/-- The inputs hold a pair of levels. -/
def HoldsLevel (level : Level) (inputs : List BusInput) : Prop :=
  ∀ input ∈ inputs, input.scl = level.scl ∧ input.sda = level.sda

/-- The slave is settled at a pair of levels. -/
structure At (cfg : SlaveCfg) (watched : Watched) (level : Level) (fsm : Fsm) : Prop where
  lines : ∃ rcvd,
    watched.slave.lines = .settled level.scl (level.sda && fsm.sdaOut) rcvd
  machine : watched.slave.fsm = fsm
  steady : fsm.Steady cfg

/-- The slave after it has seen an edge: the state machine, the bytes written and those
loaded. -/
structure Reacts (cfg : SlaveCfg) (watched : Watched) (level : Level) (fsm : Fsm)
    (written : List (BitVec 8 × BitVec 8)) (loaded : List (BitVec 8)) (later : Watched) :
    Prop where
  settled : At cfg later level fsm
  written : later.written = watched.written ++ written
  loaded : later.loaded = watched.loaded ++ loaded

section Holding

variable {cfg : SlaveCfg} {watched : Watched} {level : Level} {fsm : Fsm}

/-- The delays of the lines are zero and the slave is enabled. -/
structure SlaveCfg.Plain (cfg : SlaveCfg) : Prop where
  sclDelay : cfg.i2cSclDelayLen = 0
  sdaDelay : cfg.i2cSdaDelayLen = 0
  enabled : cfg.i2cEnabled = true

/-- A settled slave stays as it is while the levels are held. -/
theorem At.run (plain : cfg.Plain) (settled : At cfg watched level fsm) {inputs : List BusInput}
    (held : HoldsLevel level inputs) : (slaveMachine cfg).runFrom watched inputs = watched := by
  induction inputs with
  | nil => rfl
  | cons input inputs inductionHypothesis =>
      obtain ⟨rcvd, lines⟩ := settled.lines
      have levels := held input List.mem_cons_self
      have stays : watched.step cfg input = watched := by
        have linesNext : (watched.slave.step cfg input).lines = watched.slave.lines := by
          rw [Slave.step, Slave.sda, settled.machine, lines, levels.1, levels.2, plain.sclDelay,
            plain.sdaDelay]
          exact Lines.settled_step ..
        have fsmNext : (watched.slave.step cfg input).fsm = watched.slave.fsm := by
          rw [Slave.step, lines, Lines.settled_edges, settled.machine, Fsm.step_none]
          exact settled.steady.stays
        have slave : watched.slave.step cfg input = watched.slave :=
          congr (congrArg Slave.mk linesNext) fsmNext
        rw [Watched.step, slave, lines, Lines.settled_edges, Fsm.byteLoaded_none, settled.machine,
          settled.steady.byteWritten, List.append_nil, List.append_nil]
      rw [Machine.runFrom_cons]
      change (slaveMachine cfg).runFrom (watched.step cfg input) inputs = _
      rw [stays]
      exact inductionHypothesis fun later member => held later (List.mem_cons_of_mem _ member)

/-- The state machine around the clock in which it sees an edge. -/
def around (clock : Nat) (before first second last : Fsm) (t : Nat) : Fsm :=
  stage before first second last (t - clock)

theorem around_sdaOut (clock : Nat) (before first second last : Fsm) (sda : Bool) (t : Nat) :
    (sda && (around clock before first second last t).sdaOut) =
      dataLine clock (sda && before.sdaOut) (sda && first.sdaOut) (sda && second.sdaOut)
        (sda && last.sdaOut) t := by
  rw [around, dataLine]
  match t - clock with
  | 0 => rfl
  | 1 => rfl
  | 2 => rfl
  | _ + 3 => rfl

/-- An edge that is seen in a clock, and what the state machine does about it. -/
structure Reaction (cfg : SlaveCfg) (clock : Nat) (edges : Edges) (rddata : BitVec 8)
    (before first second last : Fsm) : Prop where
  early : clock < settleClocks - 3
  steady : before.Steady cfg
  reacts : before.step cfg edges rddata = first
  goesOn : first.quiet cfg = second
  rests : second.quiet cfg = last
  steadyLast : last.Steady cfg

namespace Reaction

variable {clock : Nat} {edges : Edges} {rddata : BitVec 8} {before first second last : Fsm}

/-- The state machine in one clock. -/
theorem step (reaction : Reaction cfg clock edges rddata before first second last) {t : Nat}
    {seen : Edges} {data : BitVec 8} (edge : seen = if t = clock then edges else .none)
    (atClock : t = clock → data = rddata) :
    (around clock before first second last t).step cfg seen data =
        around clock before first second last (t + 1) ∧
      stage [] [] first.byteWritten (first.byteWritten ++ second.byteWritten) (t - clock) ++
          (around clock before first second last t).byteWritten =
        stage [] [] first.byteWritten (first.byteWritten ++ second.byteWritten) (t + 1 - clock) ∧
      let loaded := before.byteLoaded edges rddata
      stage [] loaded loaded loaded (t - clock) ++
          (around clock before first second last t).byteLoaded seen data =
        stage [] loaded loaded loaded (t + 1 - clock) := by
  rw [edge, around, around]
  cases Nat.lt_or_ge t clock with
  | inl earlier =>
      rw [if_neg (Nat.ne_of_lt earlier), Nat.sub_eq_zero_of_le (Nat.le_of_lt earlier),
        Nat.sub_eq_zero_of_le earlier, Fsm.step_none, Fsm.byteLoaded_none]
      exact ⟨reaction.steady.stays, reaction.steady.byteWritten, rfl⟩
  | inr later =>
      obtain ⟨past, rfl⟩ := Nat.exists_eq_add_of_le later
      rw [Nat.add_assoc, Nat.add_sub_cancel_left, Nat.add_sub_cancel_left]
      match past with
      | 0 =>
          rw [if_pos (Nat.add_zero clock), atClock (Nat.add_zero clock)]
          exact ⟨reaction.reacts, reaction.steady.byteWritten, rfl⟩
      | past + 1 =>
          rw [if_neg (by omega), Fsm.step_none, Fsm.byteLoaded_none]
          match past with
          | 0 => exact ⟨reaction.goesOn, rfl, List.append_nil _⟩
          | 1 => exact ⟨reaction.rests, rfl, List.append_nil _⟩
          | past + 2 =>
              have nothing : stage before first second last (past + 2 + 1) = last := rfl
              rw [nothing, reaction.steadyLast.byteWritten]
              exact ⟨reaction.steadyLast.stays, List.append_nil _, List.append_nil _⟩

end Reaction

/-- Levels that are held and make one edge. -/
theorem hold_reacts (plain : cfg.Plain) {clock : Nat} {edges : Edges} {inputs : List BusInput}
    (machine : watched.slave.fsm = fsm) (long : settleClocks ≤ inputs.length)
    (held : HoldsLevel level inputs) {first second last : BitVec 8 → Fsm}
    (reaction : ∀ rddata, Reaction cfg clock edges rddata fsm (first rddata) (second rddata)
      (last rddata))
    (oneEdge : ∀ rddata, ∃ rcvd, OneEdge (watched.slave.lines.after level.scl
      (dataLine clock (level.sda && fsm.sdaOut) (level.sda && (first rddata).sdaOut)
        (level.sda && (second rddata).sdaOut) (level.sda && (last rddata).sdaOut)))
      clock edges (.settled level.scl (level.sda && (last rddata).sdaOut) rcvd)) :
    ∃ rddata, Reacts cfg watched level (last rddata)
      ((first rddata).byteWritten ++ (second rddata).byteWritten) (fsm.byteLoaded edges rddata)
      ((slaveMachine cfg).runFrom watched inputs) := by
  have early := (reaction 0).early
  have inside : clock < inputs.length := by
    rw [settleClocks] at early long
    omega
  refine ⟨inputs[clock].rddata, ?_⟩
  have reaction := reaction inputs[clock].rddata
  obtain ⟨rcvd, oneEdge⟩ := oneEdge inputs[clock].rddata
  generalize first inputs[clock].rddata = first at reaction oneEdge ⊢
  generalize second inputs[clock].rddata = second at reaction oneEdge ⊢
  generalize last inputs[clock].rddata = last at reaction oneEdge ⊢
  generalize lineEq : dataLine clock (level.sda && fsm.sdaOut) (level.sda && first.sdaOut)
    (level.sda && second.sdaOut) (level.sda && last.sdaOut) = line at oneEdge
  have path : ∀ t ≤ settleClocks,
      ((slaveMachine cfg).runFrom watched (inputs.take t)).slave =
          ⟨watched.slave.lines.after level.scl line t, around clock fsm first second last t⟩ ∧
        ((slaveMachine cfg).runFrom watched (inputs.take t)).written = watched.written ++
          stage [] [] first.byteWritten (first.byteWritten ++ second.byteWritten) (t - clock) ∧
        ((slaveMachine cfg).runFrom watched (inputs.take t)).loaded = watched.loaded ++
          stage [] (fsm.byteLoaded edges inputs[clock].rddata)
            (fsm.byteLoaded edges inputs[clock].rddata)
            (fsm.byteLoaded edges inputs[clock].rddata) (t - clock) := by
    intro t
    induction t with
    | zero =>
        intro _
        rw [List.take_zero, Nat.zero_sub, around, Nat.zero_sub]
        refine ⟨?_, (List.append_nil _).symm, (List.append_nil _).symm⟩
        change watched.slave = ⟨watched.slave.lines, fsm⟩
        rw [← machine]
    | succ t inductionHypothesis =>
        intro within
        have room : t < inputs.length := by omega
        obtain ⟨slave, written, loaded⟩ := inductionHypothesis (Nat.le_of_succ_le within)
        have levels := held inputs[t] (List.getElem_mem room)
        have data : t = clock → inputs[t].rddata = inputs[clock].rddata := by
          intro now
          simp only [now]
        have cycle := reaction.step (oneEdge.seen t within) data
        have next : (slaveMachine cfg).runFrom watched (inputs.take (t + 1)) =
            ((slaveMachine cfg).runFrom watched (inputs.take t)).step cfg inputs[t] := by
          rw [List.take_succ_eq_append_getElem room, Machine.runFrom, List.foldl_append]
          rfl
        rw [next, Watched.step, slave, written, loaded, List.append_assoc, List.append_assoc,
          cycle.2.1, cycle.2.2]
        refine ⟨?_, rfl, rfl⟩
        rw [Slave.step, cycle.1, Slave.sda, levels.1, levels.2, around_sdaOut, lineEq,
          plain.sclDelay, plain.sdaDelay]
        rfl
  have rest := path settleClocks (Nat.le_refl _)
  have far : settleClocks - clock = settleClocks - clock - 3 + 3 := by omega
  rw [oneEdge.settles, around, far] at rest
  have settled : At cfg ((slaveMachine cfg).runFrom watched (inputs.take settleClocks)) level
      last := ⟨⟨rcvd, by rw [rest.1]⟩, by rw [rest.1]; rfl, reaction.steadyLast⟩
  have whole : (slaveMachine cfg).runFrom watched inputs =
      (slaveMachine cfg).runFrom watched (inputs.take settleClocks) := by
    conv_lhs => rw [← List.take_append_drop settleClocks inputs]
    rw [Machine.runFrom, List.foldl_append]
    exact settled.run plain fun input member => held input (List.mem_of_mem_drop member)
  rw [whole]
  exact ⟨settled, rest.2.1, rest.2.2⟩

end Holding

end CoreVMcu.I2cs
