import CoreVMcu.I2c.Control

/-!
# Reference interpreter of the I2C instruction set

A command stream is read as the list of the instructions it executes: a repeated
transfer counts as often as it is executed, and a skipped command does not count.
The list says which bus commands are issued, and with the answers of the bus it
says which bytes are stored.
-/

namespace CoreVMcu.I2c

/-- An executed instruction with its operands. -/
inductive Instruction where
  | start
  | stop
  | read (nack : Bool)
  | write (byte : BitVec 8)
  | wait (cycles : BitVec 8)
  | config (divider : BitVec 16)
  deriving DecidableEq, Repr

/-- The bits of a byte, most significant first. -/
def bitsOf (byte : BitVec 8) : List Bool := (List.range 8).map byte.getMsbD

/-- The byte with the given bits, most significant first. -/
def byteOf (bits : List Bool) : BitVec 8 :=
  BitVec.ofNat 8 (bits.foldl (fun value bit => 2 * value + bit.toNat) 0)

/-- The bus commands of an instruction. -/
def Instruction.operations : Instruction → List BusOperation
  | .start => [.start]
  | .stop => [.stop]
  | .read nack => List.replicate 8 .read ++ [.write nack]
  | .write byte => (bitsOf byte).map .write ++ [.read]
  | .wait cycles => List.replicate (cycles.toNat + 1) .wait
  | .config _ => []

/-- The bytes stored by a list of instructions, given the bits with which the bus
has answered so far.  A read stores its byte as soon as it has eight bits. -/
def stored : List Instruction → List Bool → List (BitVec 8)
  | [], _ => []
  | .read nack :: instructions, answers =>
      (if 8 ≤ answers.length then [byteOf (answers.take 8)] else []) ++
        stored instructions (answers.drop (Instruction.read nack).operations.length)
  | instruction :: instructions, answers =>
      stored instructions (answers.drop instruction.operations.length)

/-- The divider after a list of instructions. -/
def divider (instructions : List Instruction) : BitVec 16 :=
  instructions.foldl
    (fun current instruction =>
      match instruction with
      | .config divider => divider
      | _ => current)
    0x100

/-- Number of operand bytes of a command byte. -/
def operandBytes (command : BitVec 8) : Nat :=
  match decode command with
  | some .wr | some .wait | some .rpt => 1
  | some .cfg => 2
  | _ => 0

/-- What the next byte of the stream stands for.  `times` is how often the next
transfer is executed. -/
inductive Expects where
  | command (times : Nat)
  | writeData (times : Nat)
  | waitCount (times : Nat)
  | repeatCount
  | dividerMsb (times : Nat)
  | dividerLsb (msb : BitVec 8) (times : Nat)
  | skippedCommand
  | skippedOperand (further : Nat)
  deriving DecidableEq, Repr

/-- After a byte was written, `times` counting that execution. -/
def Expects.afterWrite (times : Nat) : Expects :=
  if times ≤ 1 then .command 1 else .writeData (times - 1)

/-- The instructions that a stream executes.  A repeated write takes a byte for
every execution, and a repeat count of zero skips the next command with its
operands. -/
def execute : Expects → List (BitVec 8) → List Instruction
  | _, [] => []
  | .command times, byte :: stream =>
      match decode byte with
      | some .start => .start :: execute (.command times) stream
      | some .stop => .stop :: execute (.command times) stream
      | some .rdAck => List.replicate times (.read false) ++ execute (.command 1) stream
      | some .rdNack => List.replicate times (.read true) ++ execute (.command 1) stream
      | some .wr => execute (.writeData times) stream
      | some .wait => execute (.waitCount times) stream
      | some .rpt => execute .repeatCount stream
      | some .cfg => execute (.dividerMsb times) stream
      | some .waitEv | none => execute (.command times) stream
  | .writeData times, byte :: stream => .write byte :: execute (.afterWrite times) stream
  | .waitCount times, byte :: stream => .wait byte :: execute (.command times) stream
  | .repeatCount, byte :: stream =>
      if byte = 0 then execute .skippedCommand stream else execute (.command byte.toNat) stream
  | .dividerMsb times, byte :: stream => execute (.dividerLsb byte times) stream
  | .dividerLsb msb times, byte :: stream =>
      .config (msb ++ byte) :: execute (.command times) stream
  | .skippedCommand, byte :: stream =>
      match operandBytes byte with
      | 0 => execute (.command 1) stream
      | further + 1 => execute (.skippedOperand further) stream
  | .skippedOperand further, _ :: stream =>
      match further with
      | 0 => execute (.command 1) stream
      | further + 1 => execute (.skippedOperand further) stream

/-- The instructions that a stream executes from reset. -/
def program (stream : List (BitVec 8)) : List Instruction := execute (.command 1) stream

/-! ## Properties of the interpreter -/

/-- `times` repeats are requested and two data bytes follow. -/
example : program [0xC0, 2, 0x80, 0xA4, 0x3C, 0x20] = [.write 0xA4, .write 0x3C, .stop] := by
  decide

/-- Answers to earlier instructions do not change what later ones store. -/
theorem stored_append (completed later : List Instruction) (answers recent : List Bool)
    (covers : answers.length = (completed.flatMap Instruction.operations).length) :
    stored (completed ++ later) (answers ++ recent) =
      stored completed answers ++ stored later recent := by
  induction completed generalizing answers with
  | nil =>
      have none : answers = [] := List.eq_nil_of_length_eq_zero (by simpa using covers)
      simp [none, stored]
  | cons instruction completed inductionHypothesis =>
      simp only [List.flatMap_cons, List.length_append] at covers
      have enough : instruction.operations.length ≤ answers.length := by omega
      have rest : stored (completed ++ later)
            ((answers ++ recent).drop instruction.operations.length) =
          stored completed (answers.drop instruction.operations.length) ++
            stored later recent := by
        rw [List.drop_append_of_le_length enough]
        exact inductionHypothesis _ (by rw [List.length_drop]; omega)
      cases instruction with
      | read nack =>
          have nine : (Instruction.read nack).operations.length = 9 := rfl
          have eight : 8 ≤ answers.length := by omega
          simp only [List.cons_append, stored, rest, eight, if_true, List.append_assoc,
            List.take_append_of_le_length eight, List.length_append,
            Nat.le_trans eight (Nat.le_add_right _ _)]
      | start => simpa only [List.cons_append, stored] using rest
      | stop => simpa only [List.cons_append, stored] using rest
      | write byte => simpa only [List.cons_append, stored] using rest
      | wait cycles => simpa only [List.cons_append, stored] using rest
      | config divider => simpa only [List.cons_append, stored] using rest

theorem stored_nil (instructions : List Instruction) : stored instructions [] = [] := by
  induction instructions with
  | nil => rfl
  | cons instruction instructions inductionHypothesis =>
      cases instruction <;> simpa [stored] using inductionHypothesis

@[simp] theorem divider_snoc_config (instructions : List Instruction) (value : BitVec 16) :
    divider (instructions ++ [.config value]) = value := by
  simp [divider, List.foldl_append]

theorem divider_snoc (instructions : List Instruction) (instruction : Instruction)
    (noConfig : ∀ value, instruction ≠ .config value) :
    divider (instructions ++ [instruction]) = divider instructions := by
  cases instruction with
  | config value => exact absurd rfl (noConfig value)
  | _ => simp [divider, List.foldl_append]

@[simp] theorem length_operations_read (nack : Bool) :
    (Instruction.read nack).operations.length = 9 := rfl

@[simp] theorem length_operations_write (byte : BitVec 8) :
    (Instruction.write byte).operations.length = 9 := rfl

end CoreVMcu.I2c
