import Mathlib.Data.BitVec
import Mathlib.Logic.Function.Basic

/-!
# S-records

A record is a line of text: its type, the number of bytes that follow, an address,
data and a check sum, each byte as two hexadecimal digits.
-/

namespace CoreVMcu.Boot

inductive RecordType
  | s0
  | s1
  | s2
  | s3
  | s5
  | s7
  | s8
  | s9
  deriving DecidableEq

namespace RecordType

/-- The digit after the letter. -/
def char : RecordType → BitVec 8
  | s0 => 0x30
  | s1 => 0x31
  | s2 => 0x32
  | s3 => 0x33
  | s5 => 0x35
  | s7 => 0x37
  | s8 => 0x38
  | s9 => 0x39

def addressBytes : RecordType → Nat
  | s0 | s1 | s5 | s9 => 2
  | s2 | s8 => 3
  | s3 | s7 => 4

/-- The types whose records have data. -/
def hasData : RecordType → Bool
  | s0 | s1 | s2 | s3 => true
  | _ => false

/-- The types whose data is loaded to the address. -/
def isLoaded : RecordType → Bool
  | s1 | s2 | s3 => true
  | _ => false

/-- The types that end a file with the address to start at. -/
def isTerminator : RecordType → Bool
  | s7 | s8 | s9 => true
  | _ => false

end RecordType

inductive LineEnd
  | cr
  | lf
  | crlf
  deriving DecidableEq

def LineEnd.chars : LineEnd → List (BitVec 8)
  | cr => [0x0D]
  | lf => [0x0A]
  | crlf => [0x0D, 0x0A]

/-- A digit in upper or lower case. -/
def hexDigit (upper : Bool) (nibble : BitVec 4) : BitVec 8 :=
  if nibble < 10 then 0x30 + nibble.setWidth 8
  else (if upper then 0x37 else 0x57) + nibble.setWidth 8

def highNibble (byte : BitVec 8) : BitVec 4 := byte.extractLsb' 4 4

def lowNibble (byte : BitVec 8) : BitVec 4 := byte.extractLsb' 0 4

/-- Bytes as text, with the case of each digit. -/
def hexText (upper : Nat → Bool) : List (BitVec 8) → List (BitVec 8)
  | [] => []
  | byte :: bytes =>
      hexDigit (upper 0) (highNibble byte) :: hexDigit (upper 1) (lowNibble byte) ::
        hexText (fun position => upper (position + 2)) bytes

theorem length_hexText (upper : Nat → Bool) (bytes : List (BitVec 8)) :
    (hexText upper bytes).length = 2 * bytes.length := by
  induction bytes generalizing upper with
  | nil => rfl
  | cons byte bytes inductionHypothesis =>
      rw [hexText, List.length_cons, List.length_cons, inductionHypothesis, List.length_cons]
      omega

theorem hexText_append (upper : Nat → Bool) (bytes later : List (BitVec 8)) :
    ∃ laterCase, hexText upper (bytes ++ later) =
      hexText upper bytes ++ hexText laterCase later := by
  induction bytes generalizing upper with
  | nil => exact ⟨upper, rfl⟩
  | cons byte bytes inductionHypothesis =>
      rcases inductionHypothesis (fun position => upper (position + 2)) with ⟨laterCase, split⟩
      refine ⟨laterCase, ?_⟩
      rw [List.cons_append, hexText, split, hexText, List.cons_append, List.cons_append]

/-- The sum of bytes. -/
def byteSum (bytes : List (BitVec 8)) : BitVec 8 := bytes.foldl (· + ·) 0

/-- A number with its most significant byte first. -/
def bigEndian (bytes : List (BitVec 8)) : BitVec 32 :=
  bytes.foldl (fun number byte => number * 256 + byte.setWidth 32) 0

/-- A well-formed record. -/
structure SRecord where
  type : RecordType
  addressField : List (BitVec 8)
  data : List (BitVec 8)
  checkSum : BitVec 8
  upper : Nat → Bool
  lineEnd : LineEnd
  addressLength : addressField.length = type.addressBytes
  noData : type.hasData = false → data = []
  fits : addressField.length + data.length + 1 < 256

namespace SRecord

variable (record : SRecord)

/-- The number of bytes after the count. -/
def count : BitVec 8 :=
  BitVec.ofNat 8 (record.addressField.length + record.data.length + 1)

/-- The bytes that are summed up. -/
def summed : List (BitVec 8) := record.count :: (record.addressField ++ record.data)

/-- The line of the record. -/
def text : List (BitVec 8) :=
  [0x53, record.type.char] ++ hexText record.upper (record.summed ++ [record.checkSum]) ++
    record.lineEnd.chars

/-- The check sum is the complement of the sum. -/
def Correct : Prop := record.checkSum = ~~~byteSum record.summed

instance : Decidable record.Correct := inferInstanceAs (Decidable (_ = _))

def address : BitVec 32 := bigEndian record.addressField

end SRecord

/-- Bytes over a memory from an address on. -/
def overwrite (memory : BitVec 32 → BitVec 8) (address : BitVec 32) (bytes : List (BitVec 8))
    (target : BitVec 32) : BitVec 8 :=
  bytes.getD (target - address).toNat (memory target)

/-- The memory after a record. -/
def SRecord.load (record : SRecord) (memory : BitVec 32 → BitVec 8) : BitVec 32 → BitVec 8 :=
  if record.Correct ∧ record.type.isLoaded ∧ record.address ≠ 0 then
    overwrite memory record.address record.data
  else memory

/-- The memory after a list of records. -/
def loadAll (memory : BitVec 32 → BitVec 8) (records : List SRecord) : BitVec 32 → BitVec 8 :=
  records.foldl (fun loaded record => record.load loaded) memory

/-- The address the first correct terminator starts at. -/
def startAddress (records : List SRecord) : Option (BitVec 32) :=
  (records.find? fun record => record.Correct ∧ record.type.isTerminator).map SRecord.address

/-- The lines of a list of records. -/
def textOf (records : List SRecord) : List (BitVec 8) := records.flatMap SRecord.text

end CoreVMcu.Boot
