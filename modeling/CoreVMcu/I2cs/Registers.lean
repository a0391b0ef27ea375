import CoreVMcu.Clocked.ApbMaster
import CoreVMcu.I2cs.FifoSync

/-!
# The registers of the I2C slave

`i2c_peripheral_registers` is written from both sides: from the APB through the registers of
`apb_slave_interface`, and from the state machine of the I2C side, whose accesses may come in
any cycle.
-/

namespace CoreVMcu.I2cs

open Clocked Apb

/-- What the I2C side wants of the registers in a cycle. -/
structure I2cAccess where
  regAddr : BitVec 8
  regWdata : BitVec 8
  regWrenable : Bool
  regRdByteComplete : Bool
  deriving DecidableEq

namespace I2cAccess

/-- A register is written from the I2C side. -/
def writes (access : I2cAccess) (addr : BitVec 8) : Bool :=
  access.regWrenable && access.regAddr == addr

/-- A cycle without an access. -/
def quiet : I2cAccess where
  regAddr := 0
  regWdata := 0
  regWrenable := false
  regRdByteComplete := false

/-- A cycle in which a register is written. -/
def write (addr data : BitVec 8) : I2cAccess :=
  { quiet with regAddr := addr, regWdata := data, regWrenable := true }

end I2cAccess

/-- The registers of `apb_slave_interface`. -/
structure ApbSlaveInterface where
  preadyReg : Bool
  apbRegWaddr : BitVec 12
  apbRegWdata : BitVec 32
  apbRegWrenable : Bool
  apbRegRdByteComplete : Bool
  deriving DecidableEq

namespace ApbSlaveInterface

/-- The registers in reset, which leaves `pready_reg` as it is. -/
def reset (preadyReg : Bool) : ApbSlaveInterface where
  preadyReg
  apbRegWaddr := 0
  apbRegWdata := 0
  apbRegWrenable := false
  apbRegRdByteComplete := false

def step (interface : ApbSlaveInterface) (lines : Apb.Lines 12 32) : ApbSlaveInterface where
  preadyReg := lines.psel && lines.penable
  apbRegWaddr := lines.access.addr
  apbRegWdata := lines.access.data
  apbRegWrenable := lines.psel && lines.penable && lines.access.write && interface.preadyReg
  apbRegRdByteComplete := lines.psel && lines.penable && !lines.access.write

/-- `apb_reg_write_enable`. -/
def apbRegWriteEnable (interface : ApbSlaveInterface) : Bool :=
  interface.apbRegWaddr.extractLsb' 10 2 == 0 && interface.apbRegWrenable

/-- A register whose word address is compared is written. -/
def writesWord (interface : ApbSlaveInterface) (index : BitVec 8) : Bool :=
  interface.apbRegWriteEnable && interface.apbRegWaddr.extractLsb' 2 8 == index

/-- A register whose byte address is compared is written. -/
def writesAddr (interface : ApbSlaveInterface) (addr : BitVec 12) : Bool :=
  interface.apbRegWriteEnable && interface.apbRegWaddr == addr

end ApbSlaveInterface

/-- The registers of `i2c_peripheral_registers` that are seen from the APB. -/
structure Registers where
  reg0x00 : BitVec 7
  reg0x01 : Bool
  reg0x02 : BitVec 8
  reg0x03 : BitVec 8
  reg0x04 : BitVec 8
  reg0x10 : BitVec 8
  reg0x11 : Bool
  reg0x12 : BitVec 8
  reg0x13 : Bool
  reg0x20 : BitVec 8
  reg0x22 : Bool
  reg0x23 : BitVec 3
  reg0x24 : BitVec 3
  reg0x30 : BitVec 8
  reg0x32 : Bool
  reg0x33 : BitVec 3
  reg0x34 : BitVec 3
  reg0x41 : BitVec 3
  reg0x42 : BitVec 8
  reg0x43 : BitVec 8
  reg0x51 : BitVec 3
  reg0x52 : BitVec 8
  reg0x53 : BitVec 8
  fifoI2cToApbPush : Bool
  fifoI2cToApbPop : Bool
  fifoApbToI2cPush : Bool
  fifoApbToI2cPop : Bool
  apbRegRdata : BitVec 32
  fifoI2cToApb : FifoSync
  fifoApbToI2c : FifoSync

/-- What reset does not touch. -/
structure PowerUp where
  preadyReg : Bool
  fifoI2cToApbPop : Bool
  fifoApbToI2cPush : Bool
  fifoApbToI2cPop : Bool
  fifoI2cToApb : FifoSync
  fifoApbToI2c : FifoSync

/-- Everything is zero at power-up. -/
def PowerUp.zero : PowerUp where
  preadyReg := false
  fifoI2cToApbPop := false
  fifoApbToI2cPush := false
  fifoApbToI2cPop := false
  fifoI2cToApb := .blank
  fifoApbToI2c := .blank

/-- A FIFO is reset by the level of its flush register, so before and after a clock edge. -/
def FifoSync.stepFlushed (fifo : FifoSync) (flush flushNext push : Bool) (wrData : BitVec 8)
    (pop : Bool) : FifoSync :=
  if flush || flushNext then (fifo.step push wrData pop).reset else fifo.step push wrData pop

namespace Registers

/-- The registers in reset, with the parameters of `apb_i2cs`. -/
def reset (powerUp : PowerUp) : Registers where
  reg0x00 := 0x6F
  reg0x01 := false
  reg0x02 := 0
  reg0x03 := 0
  reg0x04 := 0
  reg0x10 := 0
  reg0x11 := false
  reg0x12 := 0
  reg0x13 := false
  reg0x20 := 0
  reg0x22 := false
  reg0x23 := 0
  reg0x24 := 0
  reg0x30 := 0
  reg0x32 := false
  reg0x33 := 0
  reg0x34 := 0
  reg0x41 := 0
  reg0x42 := 0
  reg0x43 := 0
  reg0x51 := 0
  reg0x52 := 0
  reg0x53 := 0
  fifoI2cToApbPush := false
  fifoI2cToApbPop := powerUp.fifoI2cToApbPop
  fifoApbToI2cPush := powerUp.fifoApbToI2cPush
  fifoApbToI2cPop := powerUp.fifoApbToI2cPop
  apbRegRdata := 0
  fifoI2cToApb := powerUp.fifoI2cToApb.reset
  fifoApbToI2c := powerUp.fifoApbToI2c.reset

variable (registers : Registers)

/-- Some selected flags are those of a FIFO. -/
def flagSelected (select : BitVec 8) (flags : BitVec 3) : Bool :=
  (List.range 8).any fun index => select.getLsbD index && flags == BitVec.ofNat 3 index

/-- `reg_0x40`, the interrupts to the I2C side. -/
def reg0x40 : BitVec 3 :=
  BitVec.ofBool (registers.reg0x41.getLsbD 2 &&
      flagSelected registers.reg0x42 registers.fifoI2cToApb.wrFlags) ++
    (BitVec.ofBool (registers.reg0x41.getLsbD 1 &&
        flagSelected registers.reg0x43 registers.fifoApbToI2c.rdFlags) ++
      BitVec.ofBool (registers.reg0x41.getLsbD 0 && registers.reg0x13))

/-- `reg_0x50`, the interrupts to the APB side. -/
def reg0x50 : BitVec 3 :=
  BitVec.ofBool (registers.reg0x51.getLsbD 2 &&
      flagSelected registers.reg0x52 registers.fifoApbToI2c.wrFlags) ++
    (BitVec.ofBool (registers.reg0x51.getLsbD 1 &&
        flagSelected registers.reg0x53 registers.fifoI2cToApb.rdFlags) ++
      BitVec.ofBool (registers.reg0x51.getLsbD 0 && registers.reg0x11))

/-- `apb_reg_rdata_muxed`. -/
def apbRegRdataMuxed (apbRegRaddr : BitVec 12) : BitVec 8 :=
  if apbRegRaddr.extractLsb' 10 2 = 0 then
    match (apbRegRaddr.extractLsb' 2 8).toNat with
    | 0x00 => registers.reg0x00.setWidth 8
    | 0x01 => (BitVec.ofBool registers.reg0x01).setWidth 8
    | 0x02 => registers.reg0x02
    | 0x03 => registers.reg0x03
    | 0x04 => registers.reg0x04
    | 0x10 => registers.reg0x10
    | 0x11 => (BitVec.ofBool registers.reg0x11).setWidth 8
    | 0x12 => registers.reg0x12
    | 0x13 => (BitVec.ofBool registers.reg0x13).setWidth 8
    | 0x21 => registers.fifoI2cToApb.rdData
    | 0x22 => (BitVec.ofBool registers.reg0x22).setWidth 8
    | 0x23 => registers.reg0x23.setWidth 8
    | 0x24 => registers.reg0x24.setWidth 8
    | 0x32 => (BitVec.ofBool registers.reg0x32).setWidth 8
    | 0x33 => registers.reg0x33.setWidth 8
    | 0x34 => registers.reg0x34.setWidth 8
    | 0x40 => registers.reg0x40.setWidth 8
    | 0x41 => registers.reg0x41.setWidth 8
    | 0x42 => registers.reg0x42
    | 0x43 => registers.reg0x43
    | 0x50 => registers.reg0x50.setWidth 8
    | 0x51 => registers.reg0x51.setWidth 8
    | 0x52 => registers.reg0x52
    | 0x53 => registers.reg0x53
    | _ => 0
  else 0

variable (interface : ApbSlaveInterface) (apbRegRaddr : BitVec 12) (i2c : I2cAccess)

/-- `reg_0x22` after a clock edge. -/
def nextReg0x22 : Bool :=
  if interface.writesAddr 0x88 then interface.apbRegWdata.getLsbD 0
  else if i2c.writes 0x22 then i2c.regWdata.getLsbD 0
  else registers.reg0x22

/-- `reg_0x32` after a clock edge. -/
def nextReg0x32 : Bool :=
  if interface.writesAddr 0xC8 then interface.apbRegWdata.getLsbD 0
  else if i2c.writes 0x32 then i2c.regWdata.getLsbD 0
  else registers.reg0x32

/-- One clock edge. -/
def step : Registers where
  reg0x00 :=
    if interface.writesWord 0x00 then interface.apbRegWdata.setWidth 7 else registers.reg0x00
  reg0x01 :=
    if interface.writesWord 0x01 then interface.apbRegWdata.getLsbD 0 else registers.reg0x01
  reg0x02 :=
    if interface.writesWord 0x02 then interface.apbRegWdata.setWidth 8 else registers.reg0x02
  reg0x03 :=
    if interface.writesWord 0x03 then interface.apbRegWdata.setWidth 8 else registers.reg0x03
  reg0x04 :=
    if interface.writesWord 0x04 then interface.apbRegWdata.setWidth 8 else registers.reg0x04
  reg0x10 := if i2c.writes 0x10 then i2c.regWdata else registers.reg0x10
  reg0x11 :=
    if i2c.writes 0x10 then true
    else if interface.apbRegRdByteComplete && apbRegRaddr == 0x40 then false
    else registers.reg0x11
  reg0x12 :=
    if interface.writesWord 0x12 then interface.apbRegWdata.setWidth 8 else registers.reg0x12
  reg0x13 :=
    if interface.writesAddr 0x48 then true
    else if i2c.regRdByteComplete && i2c.regAddr == 0x12 then false
    else registers.reg0x13
  reg0x20 := if i2c.writes 0x20 then i2c.regWdata else registers.reg0x20
  reg0x22 := registers.nextReg0x22 interface i2c
  reg0x23 := registers.fifoI2cToApb.wrFlags
  reg0x24 := registers.fifoI2cToApb.rdFlags
  reg0x30 :=
    if interface.writesAddr 0xC0 then interface.apbRegWdata.setWidth 8 else registers.reg0x30
  reg0x32 := registers.nextReg0x32 interface i2c
  reg0x33 := registers.fifoApbToI2c.wrFlags
  reg0x34 := registers.fifoApbToI2c.rdFlags
  reg0x41 := if i2c.writes 0x41 then i2c.regWdata.setWidth 3 else registers.reg0x41
  reg0x42 := if i2c.writes 0x42 then i2c.regWdata else registers.reg0x42
  reg0x43 := if i2c.writes 0x43 then i2c.regWdata else registers.reg0x43
  reg0x51 :=
    if interface.writesAddr 0x144 then interface.apbRegWdata.setWidth 3 else registers.reg0x51
  reg0x52 :=
    if interface.writesAddr 0x148 then interface.apbRegWdata.setWidth 8 else registers.reg0x52
  reg0x53 :=
    if interface.writesAddr 0x14C then interface.apbRegWdata.setWidth 8 else registers.reg0x53
  fifoI2cToApbPush := i2c.writes 0x20
  fifoI2cToApbPop := apbRegRaddr == 0x84 && interface.apbRegRdByteComplete
  fifoApbToI2cPush := interface.writesAddr 0xC0
  fifoApbToI2cPop := i2c.regAddr == 0x31 && i2c.regRdByteComplete
  apbRegRdata := (registers.apbRegRdataMuxed apbRegRaddr).setWidth 32
  fifoI2cToApb :=
    registers.fifoI2cToApb.stepFlushed registers.reg0x22 (registers.nextReg0x22 interface i2c)
      registers.fifoI2cToApbPush registers.reg0x20 registers.fifoI2cToApbPop
  fifoApbToI2c :=
    registers.fifoApbToI2c.stepFlushed registers.reg0x32 (registers.nextReg0x32 interface i2c)
      registers.fifoApbToI2cPush registers.reg0x30 registers.fifoApbToI2cPop

end Registers

/-! ## The slave on the bus -/

/-- `apb_slave_interface` with `i2c_peripheral_registers`. -/
structure ApbI2cs where
  interface : ApbSlaveInterface
  registers : Registers

/-- The slave with its power-up state. -/
def apbI2csSlave (powerUp : PowerUp) : Apb.Slave ApbI2cs I2cAccess 12 32 where
  init := { interface := .reset powerUp.preadyReg, registers := .reset powerUp }
  ticks _ := true
  step slave i2c lines :=
    { interface := slave.interface.step lines
      registers := slave.registers.step slave.interface lines.access.addr i2c }
  ready slave := slave.interface.preadyReg
  rdata slave := slave.registers.apbRegRdata
  err _ := false

abbrev I2csSystem := System ApbI2cs 12 32

abbrev I2csInstant := Instant I2cAccess 12 32

/-- The slave with its master, from reset. -/
abbrev apbI2csMachine (powerUp : PowerUp) := machine (apbI2csSlave powerUp)

/-! ## Reads on the bus -/

/-- A read of an address is answered in this cycle. -/
def readAnswered (system : I2csSystem) (addr : BitVec 12) : Bool :=
  match system.phase with
  | .enable access =>
      system.slave.interface.preadyReg && !access.write && access.addr == addr
  | _ => false

/-- The slave keeps up with the access of its master: it answers in the second cycle of the
access, and a read is then over for the registers as well. -/
def KeepsUp (system : I2csSystem) : Prop :=
  match system.phase with
  | .enable access =>
      system.slave.interface.apbRegRdByteComplete =
          (system.slave.interface.preadyReg && !access.write) ∧
        (system.slave.interface.preadyReg = true →
          system.slave.registers.fifoI2cToApbPop = false)
  | _ => True

variable (powerUp : PowerUp)

theorem keepsUp_init : KeepsUp (apbI2csMachine powerUp).init := trivial

theorem KeepsUp.step {system : I2csSystem} (keepsUp : KeepsUp system) (instant : I2csInstant) :
    KeepsUp (system.step (apbI2csSlave powerUp) instant) := by
  rcases system with ⟨⟨interface, registers⟩, phase, done⟩
  cases phase with
  | idle =>
    simp only [KeepsUp, System.step, apbI2csSlave, Phase.next]
    cases instant.request <;> trivial
  | setup access => exact ⟨rfl, fun ready => absurd ready Bool.false_ne_true⟩
  | enable access =>
    obtain ⟨strobe, -⟩ := keepsUp
    cases ready : interface.preadyReg with
    | false =>
      simp only [ready, Bool.false_and] at strobe
      simp [KeepsUp, System.step, apbI2csSlave, Phase.next, ready, ApbSlaveInterface.step,
        System.lines, Registers.step, strobe]
    | true =>
      simp only [KeepsUp, System.step, apbI2csSlave, Phase.next, ready]
      cases instant.request <;> trivial

/-- In the cycle in which a read is answered the strobe is up and its address is presented. -/
theorem KeepsUp.answered {system : I2csSystem} (keepsUp : KeepsUp system) {addr : BitVec 12}
    (answered : readAnswered system addr = true) (instant : I2csInstant) :
    system.slave.interface.apbRegRdByteComplete = true ∧
      (system.lines instant).access.addr = addr ∧
      system.slave.registers.fifoI2cToApbPop = false := by
  rcases system with ⟨slave, phase, done⟩
  cases phase with
  | idle | setup access => cases answered
  | enable access =>
    simp only [readAnswered, Bool.and_eq_true, Bool.not_eq_true', beq_iff_eq] at answered
    obtain ⟨⟨ready, read⟩, same⟩ := answered
    simp only [KeepsUp, ready, read] at keepsUp
    exact ⟨by simpa using keepsUp.1, same, by simpa using keepsUp.2⟩

section Schedule

variable (schedule : Nat → I2csInstant)

/-- The slave with its master in cycle `n`. -/
def systemAt (n : Nat) : I2csSystem :=
  (apbI2csMachine powerUp).run (inputsUpTo schedule n)

theorem systemAt_succ (n : Nat) :
    systemAt powerUp schedule (n + 1) =
      (systemAt powerUp schedule n).step (apbI2csSlave powerUp) (schedule n) := by
  rw [systemAt, inputsUpTo_succ, Machine.run_snoc]
  rfl

theorem keepsUp_systemAt (n : Nat) : KeepsUp (systemAt powerUp schedule n) := by
  induction n with
  | zero => exact keepsUp_init powerUp
  | succ n inductionHypothesis =>
    rw [systemAt_succ]
    exact inductionHypothesis.step powerUp (schedule n)

/-- The address that the registers see in cycle `n`. -/
def apbRegRaddr (n : Nat) : BitVec 12 :=
  ((systemAt powerUp schedule n).lines (schedule n)).access.addr

/-- `apb_reg_rd_byte_complete` in cycle `n`. -/
def apbRegRdByteComplete (n : Nat) : Bool :=
  (systemAt powerUp schedule n).slave.interface.apbRegRdByteComplete

/-- The registers in cycle `n`. -/
def registersAt (n : Nat) : Registers := (systemAt powerUp schedule n).slave.registers

theorem registersAt_succ (n : Nat) :
    registersAt powerUp schedule (n + 1) =
      (registersAt powerUp schedule n).step (systemAt powerUp schedule n).slave.interface
        (apbRegRaddr powerUp schedule n) (schedule n).env := by
  rw [registersAt, systemAt_succ]
  rfl

/-- The first of the two access cycles of a read. -/
def readBegins (system : I2csSystem) (addr : BitVec 12) : Bool :=
  match system.phase with
  | .enable access =>
      !system.slave.interface.preadyReg && !access.write && access.addr == addr
  | _ => false

/-- A read is answered in the cycle after its first one. -/
theorem readAnswered_succ (n : Nat) (addr : BitVec 12) :
    readAnswered (systemAt powerUp schedule (n + 1)) addr =
      readBegins (systemAt powerUp schedule n) addr := by
  rw [systemAt_succ]
  rcases systemAt powerUp schedule n with ⟨⟨interface, registers⟩, phase, done⟩
  cases phase with
  | idle =>
    simp only [readAnswered, readBegins, System.step, apbI2csSlave, Phase.next]
    cases (schedule n).request <;> rfl
  | setup access => rfl
  | enable access =>
    cases ready : interface.preadyReg with
    | false => simp [readAnswered, readBegins, System.step, apbI2csSlave, Phase.next, ready,
        ApbSlaveInterface.step, System.lines]
    | true =>
      simp only [readAnswered, readBegins, System.step, apbI2csSlave, Phase.next, ready]
      cases (schedule n).request <;> rfl

/-- After a read was answered another access has to begin first. -/
theorem readBegins_of_answered {n : Nat} {addr : BitVec 12}
    (answered : readAnswered (systemAt powerUp schedule n) addr = true) (other : BitVec 12) :
    readBegins (systemAt powerUp schedule (n + 1)) other = false := by
  rw [systemAt_succ]
  generalize systemAt powerUp schedule n = system at answered
  rcases system with ⟨⟨interface, registers⟩, phase, done⟩
  cases phase with
  | idle | setup access => cases answered
  | enable access =>
    simp only [readAnswered, Bool.and_eq_true] at answered
    simp only [readBegins, System.step, apbI2csSlave, Phase.next, answered.1.1]
    cases (schedule n).request <;> rfl

theorem apbRegRaddr_of_begins {n : Nat} {addr : BitVec 12}
    (begins : readBegins (systemAt powerUp schedule n) addr = true) :
    apbRegRaddr powerUp schedule n = addr := by
  rw [apbRegRaddr, System.lines]
  rw [readBegins] at begins
  split at begins
  next access phase =>
    rw [phase]
    simp only [Bool.and_eq_true, beq_iff_eq] at begins
    exact begins.2
  next => cases begins

/-- The data of a read is taken in its first cycle. -/
theorem apbRegRdata_answered {n : Nat} {addr : BitVec 12}
    (answered : readAnswered (systemAt powerUp schedule (n + 1)) addr = true) :
    (registersAt powerUp schedule (n + 1)).apbRegRdata =
      ((registersAt powerUp schedule n).apbRegRdataMuxed addr).setWidth 32 := by
  rw [readAnswered_succ] at answered
  rw [registersAt_succ, ← apbRegRaddr_of_begins powerUp schedule answered]
  rfl

end Schedule

end CoreVMcu.I2cs
