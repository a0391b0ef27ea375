import CoreVMcu.Clocked.Machine

/-!
# A bus slave and its master

The master of an APB slave presents an access for one cycle with `PSEL` alone and then with
`PENABLE`, unchanged, until the slave answers with `PREADY`.  The accesses that were answered
are kept with what the slave answered.
-/

namespace Clocked.Apb

universe u v

variable {State : Type u} {Env : Type v} {addrWidth dataWidth : Nat}

/-- An access; the data is the one that is written. -/
structure Access (addrWidth dataWidth : Nat) where
  write : Bool
  addr : BitVec addrWidth
  data : BitVec dataWidth
  deriving DecidableEq, Repr

/-- An access that was answered. -/
structure Answered (addrWidth dataWidth : Nat) where
  access : Access addrWidth dataWidth
  rdata : BitVec dataWidth
  err : Bool
  deriving DecidableEq, Repr

/-- The lines from the master to a slave. -/
structure Lines (addrWidth dataWidth : Nat) where
  psel : Bool
  penable : Bool
  access : Access addrWidth dataWidth
  deriving DecidableEq, Repr

/-- What the master does in a cycle. -/
inductive Phase (addrWidth dataWidth : Nat) where
  | idle
  | setup (access : Access addrWidth dataWidth)
  | enable (access : Access addrWidth dataWidth)
  deriving DecidableEq, Repr

/-- The master after a cycle, with the access it wants to begin. -/
def Phase.next (ready : Bool) (request : Option (Access addrWidth dataWidth)) :
    Phase addrWidth dataWidth → Phase addrWidth dataWidth
  | .idle => request.elim .idle .setup
  | .setup access => .enable access
  | .enable access => if ready then request.elim .idle .setup else .enable access

/-- A slave: at the instants that are not edges of the bus clock it may change as well. -/
structure Slave (State : Type u) (Env : Type v) (addrWidth dataWidth : Nat) where
  init : State
  ticks : Env → Bool
  step : State → Env → Lines addrWidth dataWidth → State
  ready : State → Bool
  rdata : State → BitVec dataWidth
  err : State → Bool

/-- An instant: the environment of the slave, the access the master wants to begin, and the
lines while the slave is not selected. -/
structure Instant (Env : Type v) (addrWidth dataWidth : Nat) where
  env : Env
  request : Option (Access addrWidth dataWidth)
  resting : Lines addrWidth dataWidth

/-- A slave with its master. -/
structure System (State : Type u) (addrWidth dataWidth : Nat) where
  slave : State
  phase : Phase addrWidth dataWidth
  /-- The accesses that were answered, oldest first. -/
  done : List (Answered addrWidth dataWidth)

namespace System

variable (slave : Slave State Env addrWidth dataWidth) (system : System State addrWidth dataWidth)
variable (instant : Instant Env addrWidth dataWidth)

def lines : Lines addrWidth dataWidth :=
  match system.phase with
  | .idle => { instant.resting with psel := false }
  | .setup access => { psel := true, penable := false, access }
  | .enable access => { psel := true, penable := true, access }

/-- The answer that the slave gives in a cycle. -/
def answered : List (Answered addrWidth dataWidth) :=
  match system.phase with
  | .enable access =>
      if slave.ready system.slave then
        [{ access, rdata := slave.rdata system.slave, err := slave.err system.slave }]
      else []
  | _ => []

def step : System State addrWidth dataWidth where
  slave := slave.step system.slave instant.env (system.lines instant)
  phase :=
    if slave.ticks instant.env then
      system.phase.next (slave.ready system.slave) instant.request
    else system.phase
  done :=
    if slave.ticks instant.env then system.done ++ system.answered slave else system.done

end System

/-- A slave with its master, from reset. -/
def machine (slave : Slave State Env addrWidth dataWidth) :
    Machine (System State addrWidth dataWidth) (Instant Env addrWidth dataWidth) where
  init := { slave := slave.init, phase := .idle, done := [] }
  step := System.step slave

variable {slave : Slave State Env addrWidth dataWidth}

theorem step_quiet {system : System State addrWidth dataWidth}
    {instant : Instant Env addrWidth dataWidth} (quiet : slave.ticks instant.env = false) :
    system.step slave instant =
      { system with slave := slave.step system.slave instant.env (system.lines instant) } := by
  rw [System.step, quiet]
  rfl

/-- An answer that was given stays in the record. -/
theorem done_runFrom (system : System State addrWidth dataWidth)
    (instants : List (Instant Env addrWidth dataWidth)) :
    system.done <+: ((machine slave).runFrom system instants).done := by
  induction instants generalizing system with
  | nil => exact List.prefix_refl _
  | cons instant instants inductionHypothesis =>
      have now : system.done <+: (system.step slave instant).done := by
        rw [System.step]
        split
        · exact List.prefix_append ..
        · exact List.prefix_refl _
      exact now.trans (inductionHypothesis (system.step slave instant))

end Clocked.Apb
