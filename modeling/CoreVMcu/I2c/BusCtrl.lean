import CoreVMcu.I2c.Control

/-!
# I2C bus controller

`udma_i2c_bus_ctrl` turns each bit-level command into four phases of the bus
lines, paced by a clock divider that a slave may stretch.  It watches both lines,
and when the bus does something that it did not ask for it flags the loss of the
arbitration, abandons its command and releases the lines.
-/

namespace CoreVMcu.I2c

open Clocked

/-- The four phases of a command. -/
inductive BusPhase where
  | phase1
  | phase2
  | phase3
  | phase4
  deriving DecidableEq, Repr

/-- `CS` of the bus controller. -/
inductive BusState where
  | idle
  | start (phase : BusPhase)
  | stop (phase : BusPhase)
  | rd (phase : BusPhase)
  | wait (phase : BusPhase)
  | wr (phase : BusPhase)
  deriving DecidableEq, Repr

/-- The command that a state belongs to. -/
def BusState.command : BusState → BusCmd
  | .idle => .none
  | .start _ => .start
  | .stop _ => .stop
  | .rd _ => .read
  | .wait _ => .wait
  | .wr _ => .write

/-- The state in which a command begins. -/
def BusCmd.first : BusCmd → BusState
  | .none => .idle
  | .start => .start .phase1
  | .stop => .stop .phase1
  | .write => .wr .phase1
  | .read => .rd .phase1
  | .wait => .wait .phase1

@[simp] theorem BusCmd.first_command (cmd : BusCmd) : cmd.first.command = cmd := by
  cases cmd <;> rfl

/-- The phase after a phase; the command is over after the last one. -/
def BusPhase.advance (phase : BusPhase) (within : BusPhase → BusState) : BusState :=
  match phase with
  | .phase1 => within .phase2
  | .phase2 => within .phase3
  | .phase3 => within .phase4
  | .phase4 => .idle

/-- The state after an enabled clock in the middle of a command. -/
def BusState.advance : BusState → BusState
  | .idle => .idle
  | .start phase => phase.advance .start
  | .stop phase => phase.advance .stop
  | .rd phase => phase.advance .rd
  | .wait phase => phase.advance .wait
  | .wr phase => phase.advance .wr

/-- The last phase of a command, whose end is acknowledged. -/
def BusState.isLast : BusState → Bool
  | .idle => false
  | .start phase | .stop phase | .rd phase | .wait phase | .wr phase => phase == .phase4

/-- An enabled clock ends the command after its last phase and stays within it
otherwise. -/
theorem BusState.advance_command (cs : BusState) :
    if cs.isLast then cs.advance = .idle else cs.advance.command = cs.command := by
  cases cs with
  | idle => rfl
  | start phase | stop phase | rd phase | wait phase | wr phase => cases phase <;> rfl

/-- What is driven on the lines (`oen` is active low) and whether the data line is
checked. -/
structure LineDrive where
  sclOen : Bool
  sdaOen : Bool
  sdaChk : Bool
  deriving DecidableEq, Repr

/-- The lines in each phase; `idle` and the first phase of a start keep them. -/
def BusState.drive (cs : BusState) (sclOen sdaOen din : Bool) : LineDrive :=
  match cs with
  | .idle => ⟨sclOen, sdaOen, false⟩
  | .wait _ => ⟨true, true, false⟩
  | .start .phase1 => ⟨sclOen, true, false⟩
  | .start .phase2 => ⟨true, true, false⟩
  | .start .phase3 => ⟨true, false, false⟩
  | .start .phase4 => ⟨false, false, false⟩
  | .stop .phase1 => ⟨false, false, false⟩
  | .stop .phase2 => ⟨true, false, false⟩
  | .stop .phase3 => ⟨true, false, false⟩
  | .stop .phase4 => ⟨true, true, false⟩
  | .rd .phase1 => ⟨false, true, false⟩
  | .rd .phase2 => ⟨true, true, false⟩
  | .rd .phase3 => ⟨true, true, false⟩
  | .rd .phase4 => ⟨false, true, false⟩
  | .wr .phase1 => ⟨false, din, false⟩
  | .wr .phase2 => ⟨true, din, false⟩
  | .wr .phase3 => ⟨true, din, true⟩
  | .wr .phase4 => ⟨false, din, false⟩

/-- Registers of `udma_i2c_bus_ctrl`. -/
structure BusCtrl where
  cs : BusState
  cmdAck : Bool
  sclOen : Bool
  sdaOen : Bool
  sdaChk : Bool
  dsclOen : Bool
  slaveWait : Bool
  cnt : BitVec 16
  clkEn : Bool
  rSyncScl : BitVec 2
  rSyncSda : BitVec 2
  rFilterCnt : BitVec 14
  rFilterScl : BitVec 3
  rFilterSda : BitVec 3
  sSCL : Bool
  sSDA : Bool
  dSCL : Bool
  dSDA : Bool
  rStart : Bool
  rStop : Bool
  busy : Bool
  rCmdStop : Bool
  al : Bool
  dout : Bool
  deriving DecidableEq, Repr

/-- Inputs of a cycle. -/
structure BusInput where
  ena : Bool
  swRst : Bool
  clkCnt : BitVec 16
  cmd : BusCmd
  cmdValid : Bool
  din : Bool
  scl : Bool
  sda : Bool

/-- Majority of the three filter bits. -/
def majority (filter : BitVec 3) : Bool :=
  (filter.getLsbD 2 && filter.getLsbD 1) || (filter.getLsbD 1 && filter.getLsbD 0) ||
    (filter.getLsbD 2 && filter.getLsbD 0)

namespace BusCtrl

/-- The registers after reset. -/
def reset : BusCtrl :=
  { cs := .idle, cmdAck := false, sclOen := true, sdaOen := true, sdaChk := false
    dsclOen := true, slaveWait := false, cnt := 0, clkEn := true, rSyncScl := 0, rSyncSda := 0
    rFilterCnt := 0, rFilterScl := 0b111, rFilterSda := 0b111, sSCL := true, sSDA := true
    dSCL := true, dSDA := true, rStart := false, rStop := false, busy := false
    rCmdStop := false, al := false, dout := true }

/-- Another master pulls the clock low while this one drives it high. -/
def sclSync (bus : BusCtrl) : Bool := bus.dSCL && !bus.sSCL && bus.sclOen

/-- `CS` after a clock edge. -/
def nextCs (bus : BusCtrl) (input : BusInput) : BusState :=
  if bus.al || input.swRst then .idle
  else if bus.cs = .idle then if input.cmdValid then input.cmd.first else .idle
  else if bus.clkEn then bus.cs.advance
  else bus.cs

/-- `cmd_ack_o` after a clock edge. -/
def nextCmdAck (bus : BusCtrl) (input : BusInput) : Bool :=
  if bus.al || input.swRst then false else bus.cs.isLast && bus.clkEn

/-- The lines after a clock edge. -/
def nextDrive (bus : BusCtrl) (input : BusInput) : LineDrive :=
  if bus.al || input.swRst then ⟨true, true, false⟩
  else bus.cs.drive bus.sclOen bus.sdaOen input.din

/-- The clock divider after a clock edge. -/
def nextCnt (bus : BusCtrl) (input : BusInput) : BitVec 16 :=
  if input.swRst then 0
  else if bus.cnt == 0 || !input.ena || bus.sclSync then input.clkCnt
  else if bus.slaveWait then bus.cnt
  else bus.cnt - 1

/-- `clk_en` after a clock edge. -/
def nextClkEn (bus : BusCtrl) (input : BusInput) : Bool :=
  input.swRst || bus.cnt == 0 || !input.ena || bus.sclSync

/-- The divider of the filters after a clock edge. -/
def nextFilterCnt (bus : BusCtrl) (input : BusInput) : BitVec 14 :=
  if !input.ena || input.swRst then 0
  else if bus.rFilterCnt == 0 then (input.clkCnt >>> 2).extractLsb' 0 14
  else bus.rFilterCnt - 1

/-- A filter after a clock edge, fed by the second bit of its synchronizer. -/
def nextFilter (bus : BusCtrl) (input : BusInput) (filter : BitVec 3) (sync : BitVec 2) :
    BitVec 3 :=
  if input.swRst then 0b111
  else if bus.rFilterCnt == 0 then
    filter.extractLsb' 0 2 ++ BitVec.ofBool (sync.getLsbD 1)
  else filter

/-- A synchronizer after a clock edge. -/
def nextSync (input : BusInput) (sync : BitVec 2) (line : Bool) : BitVec 2 :=
  if input.swRst then 0 else sync.extractLsb' 0 1 ++ BitVec.ofBool line

/-- `al_o` after a clock edge: the data line is low although it is driven high, or
a stop was seen that nobody here asked for. -/
def nextAl (bus : BusCtrl) (input : BusInput) : Bool :=
  !input.swRst &&
    ((bus.sdaChk && !bus.sSDA && bus.sdaOen) || (bus.cs != .idle && bus.rStop && !bus.rCmdStop))

/-- One clock edge. -/
def step (bus : BusCtrl) (input : BusInput) : BusCtrl :=
  let drive := bus.nextDrive input
  { cs := bus.nextCs input
    cmdAck := bus.nextCmdAck input
    sclOen := drive.sclOen
    sdaOen := drive.sdaOen
    sdaChk := drive.sdaChk
    dsclOen := bus.sclOen
    slaveWait := !input.swRst &&
      ((bus.sclOen && !bus.dsclOen && !bus.sSCL) || (bus.slaveWait && !bus.sSCL))
    cnt := bus.nextCnt input
    clkEn := bus.nextClkEn input
    rSyncScl := nextSync input bus.rSyncScl input.scl
    rSyncSda := nextSync input bus.rSyncSda input.sda
    rFilterCnt := bus.nextFilterCnt input
    rFilterScl := bus.nextFilter input bus.rFilterScl bus.rSyncScl
    rFilterSda := bus.nextFilter input bus.rFilterSda bus.rSyncSda
    sSCL := input.swRst || majority bus.rFilterScl
    sSDA := input.swRst || majority bus.rFilterSda
    dSCL := input.swRst || bus.sSCL
    dSDA := input.swRst || bus.sSDA
    rStart := !input.swRst && (!bus.sSDA && bus.dSDA && bus.sSCL)
    rStop := !input.swRst && (bus.sSDA && !bus.dSDA && bus.sSCL)
    busy := !input.swRst && ((bus.rStart || bus.busy) && !bus.rStop)
    rCmdStop := !input.swRst && (if input.cmdValid then input.cmd == .stop else bus.rCmdStop)
    al := bus.nextAl input
    dout := if bus.sSCL && !bus.dSCL then bus.sSDA else bus.dout }

/-- The controller has a command in progress. -/
def executes (bus : BusCtrl) : Bool := bus.cs != .idle

/-! ## What a clock edge does to the command in progress -/

variable (bus : BusCtrl) (input : BusInput)

/-- An abort leaves the controller idle and without an acknowledge. -/
theorem step_abort (aborted : (bus.al || input.swRst) = true) :
    (bus.step input).cs = .idle ∧ (bus.step input).cmdAck = false := by
  simp [step, nextCs, nextCmdAck, aborted]

/-- An idle controller begins the command that is requested. -/
theorem step_idle (aborted : (bus.al || input.swRst) = false) (idle : bus.cs = .idle) :
    (bus.step input).cs = (if input.cmdValid then input.cmd.first else .idle) ∧
      (bus.step input).cmdAck = false := by
  simp [step, nextCs, nextCmdAck, aborted, idle, BusState.isLast]

/-- A command in progress goes on, or ends with an acknowledge. -/
theorem step_executing (aborted : (bus.al || input.swRst) = false) (executing : bus.cs ≠ .idle) :
    (bus.step input).cs.command = bus.cs.command ∧ (bus.step input).cmdAck = false ∨
      (bus.step input).cs = .idle ∧ (bus.step input).cmdAck = true := by
  have advance := bus.cs.advance_command
  simp only [step, nextCs, nextCmdAck, aborted, executing, Bool.false_eq_true, if_false]
  cases enabled : bus.clkEn with
  | false => simp
  | true =>
      cases last : bus.cs.isLast with
      | false =>
          rw [last] at advance
          exact Or.inl ⟨advance, rfl⟩
      | true =>
          rw [last] at advance
          exact Or.inr ⟨advance, rfl⟩

end BusCtrl

end CoreVMcu.I2c
