import CoreVMcu.I2cs.BusLevels

/-!
# The transactions of an I2C master

A master writes bytes to a register address or reads bytes, starts a transaction again or
stops it, and holds every pair of levels on the bus for many clocks of the slave.
-/

namespace CoreVMcu.I2cs

open Clocked

/-- Levels that the master drives, and whether it samples the data line at their end. -/
structure Action where
  level : Level
  sampled : Bool

/-- A master that drives levels one after the other, what it samples, and the slave
afterwards. -/
inductive Plays (cfg : SlaveCfg) : Watched → List Action → List Bool → Watched → Prop
  | nil (watched : Watched) : Plays cfg watched [] [] watched
  | hold {watched later : Watched} {action : Action} {actions : List Action}
      {samples : List Bool} {inputs : List BusInput} (long : settleClocks ≤ inputs.length)
      (held : HoldsLevel action.level inputs)
      (rest : Plays cfg ((slaveMachine cfg).runFrom watched inputs) actions samples later) :
      Plays cfg watched (action :: actions)
        ((if action.sampled then
          [action.level.sda && ((slaveMachine cfg).runFrom watched inputs).slave.fsm.sdaOut]
        else []) ++ samples)
        later

/-- The bits of a byte in the order of transmission. -/
def bitsOf (byte : BitVec 8) : List Bool :=
  [byte.getLsbD 7, byte.getLsbD 6, byte.getLsbD 5, byte.getLsbD 4, byte.getLsbD 3,
    byte.getLsbD 2, byte.getLsbD 1, byte.getLsbD 0]

/-- A clock pulse with a level of the data line. -/
def clockBit (sda sampled : Bool) : List Action :=
  [⟨⟨false, sda⟩, false⟩, ⟨⟨true, sda⟩, sampled⟩, ⟨⟨false, sda⟩, false⟩]

def sendBit (bit : Bool) : List Action := clockBit bit false

/-- The data line is released for a bit of the slave. -/
def readBit : List Action := clockBit true true

def sendBits (bits : List Bool) : List Action := bits.flatMap sendBit

/-- A byte, and a clock pulse for the acknowledgement of the slave. -/
def sendByte (byte : BitVec 8) : List Action := sendBits (bitsOf byte) ++ sendBit true

def readBits (count : Nat) : List Action := (List.replicate count readBit).flatten

/-- A byte that is acknowledged or not. -/
def readByte (ack : Bool) : List Action := readBits 8 ++ sendBit (!ack)

/-- Some bytes that are acknowledged, and a last one that is not. -/
def readBytes (acked : Nat) : List Action :=
  (List.replicate acked (readByte true)).flatten ++ readByte false

/-- The data line falls while the clock line is high. -/
def startCondition : List Action := [⟨⟨true, false⟩, false⟩, ⟨⟨false, false⟩, false⟩]

/-- The data line rises while the clock line is high. -/
def stopCondition : List Action :=
  [⟨⟨false, false⟩, false⟩, ⟨⟨true, false⟩, false⟩, ⟨⟨true, true⟩, false⟩]

/-- The lines are released for a repeated start. -/
def releaseLines : List Action := [⟨⟨false, true⟩, false⟩, ⟨⟨true, true⟩, false⟩]

/-! ## Transactions -/

/-- Bytes that are written to a register address, or a number of bytes that are read and
acknowledged before a last one. -/
inductive Transfer
  | write (regAddr : BitVec 8) (data : List (BitVec 8))
  | read (acked : Nat)

/-- A transaction is stopped or followed by a repeated start. -/
structure Transaction where
  transfer : Transfer
  stop : Bool

/-- The device address with the direction. -/
def addressByte (devAddr : BitVec 7) (rdWrn : Bool) : BitVec 8 := devAddr ++ BitVec.ofBool rdWrn

def Transfer.actions (devAddr : BitVec 7) : Transfer → List Action
  | .write regAddr data =>
      sendByte (addressByte devAddr false) ++ (sendByte regAddr ++ data.flatMap sendByte)
  | .read acked => sendByte (addressByte devAddr true) ++ readBytes acked

def Transaction.actions (devAddr : BitVec 7) (transaction : Transaction) : List Action :=
  startCondition ++ (transaction.transfer.actions devAddr ++
    if transaction.stop then stopCondition else releaseLines)

/-- What a transaction has written to and loaded from the registers, and what the master
has sampled. -/
structure Report where
  written : List (BitVec 8 × BitVec 8)
  loaded : List (BitVec 8)
  samples : List Bool

/-- Transactions one after the other. -/
inductive Session (cfg : SlaveCfg) : Slave → List Transaction → List Report → Prop
  | nil (slave : Slave) : Session cfg slave [] []
  | next {slave : Slave} {transaction : Transaction} {transactions : List Transaction}
      {samples : List Bool} {later : Watched} {reports : List Report}
      (plays : Plays cfg ⟨slave, [], []⟩ (transaction.actions cfg.i2cDevAddr) samples later)
      (rest : Session cfg later.slave transactions reports) :
      Session cfg slave (transaction :: transactions)
        (⟨later.written, later.loaded, samples⟩ :: reports)

/-! ## What the slave has to do -/

/-- Every byte is written once, in order, at the register address; the bits that are read
are those of the bytes that have been loaded. -/
def Transfer.Correct : Transfer → Report → Prop
  | .write regAddr data, report => report.written = data.map fun byte => (regAddr, byte)
  | .read _, report => report.written = [] ∧ report.samples = report.loaded.flatMap bitsOf

def AllCorrect : List Transaction → List Report → Prop
  | transaction :: transactions, report :: reports =>
      transaction.transfer.Correct report ∧ AllCorrect transactions reports
  | _, _ => True

/-- A slave that is deaf only misses nothing when nothing is written; one that is not reads
a single byte right, or two of which the second one is all ones. -/
def Transfer.Works (deaf : Bool) : Transfer → Report → Prop
  | .write _ data, _ => deaf = false ∨ data = []
  | .read acked, report =>
      deaf = false ∧ (acked = 0 ∨ acked = 1 ∧ report.loaded.getLast? = some 255#8)

/-- After a read the slave only listens for a stop. -/
def Transaction.deafAfter (deaf : Bool) (transaction : Transaction) : Bool :=
  !transaction.stop &&
    match transaction.transfer with
    | .write _ _ => deaf
    | .read _ => true

def AllWork : Bool → List Transaction → List Report → Prop
  | deaf, transaction :: transactions, report :: reports =>
      transaction.transfer.Works deaf report ∧
        AllWork (transaction.deafAfter deaf) transactions reports
  | _, _, _ => True

end CoreVMcu.I2cs
