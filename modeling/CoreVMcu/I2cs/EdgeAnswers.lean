import CoreVMcu.I2cs.Transactions

/-!
# How the slave answers the edges

The state machine in the modes that a transaction leads it through, and what it does in
each of them about an edge of the bus.
-/

namespace CoreVMcu.I2cs

open Clocked

/-! ## The modes of the state machine -/

namespace Fsm

/-- A byte is received. -/
def receiving (state : I2cState) (bitCnt : BitVec 4) (inByte outByte : BitVec 8) (rdWrn : Bool)
    (regAddr : BitVec 8) : Fsm :=
  ⟨state, bitCnt, inByte, outByte, rdWrn, regAddr, true, false, false⟩

/-- A byte is acknowledged. -/
def acking (state : I2cState) (inByte outByte : BitVec 8) (rdWrn : Bool)
    (regAddr : BitVec 8) : Fsm :=
  ⟨state, 0, inByte, outByte, rdWrn, regAddr, false, false, false⟩

/-- A byte is sent. -/
def sending (bitCnt : BitVec 4) (inByte outByte : BitVec 8) (rdWrn : Bool)
    (regAddr : BitVec 8) : Fsm :=
  ⟨.regRData, bitCnt, inByte, outByte, rdWrn, regAddr, outByte.getLsbD 7, false, false⟩

/-- The acknowledgement of the master is awaited. -/
def awaiting (inByte outByte : BitVec 8) (rdWrn : Bool) (regAddr : BitVec 8) : Fsm :=
  ⟨.regRDataAck, 0, inByte, outByte, rdWrn, regAddr, true, false, false⟩

/-- A stop is awaited. -/
def deaf (outByte : BitVec 8) (rdWrn : Bool) (regAddr : BitVec 8) : Fsm :=
  ⟨.wtStop, 0, 0, outByte, rdWrn, regAddr, true, false, false⟩

/-- A start is awaited. -/
def resting (outByte : BitVec 8) (rdWrn : Bool) (regAddr : BitVec 8) : Fsm :=
  ⟨.idle, 0, 0, outByte, rdWrn, regAddr, true, false, false⟩

/-- The states in which a byte is received. -/
def Receives (state : I2cState) : Prop :=
  state = .devAddr ∨ state = .regAddr ∨ state = .regWData

/-- The states in which a byte is acknowledged. -/
def Acks (state : I2cState) : Prop :=
  state = .devAddrAck ∨ state = .regAddrAck ∨ state = .regWDataAck

end Fsm

/-! ## Answers -/

/-- What the state machine does about an edge: where it comes to rest, what it writes and
what it loads. -/
structure Answers (cfg : SlaveCfg) (fsm : Fsm) (edges : Edges) (rddata : BitVec 8) (last : Fsm)
    (written : List (BitVec 8 × BitVec 8)) (loaded : List (BitVec 8)) : Prop where
  steady : fsm.Steady cfg
  rests : ((fsm.step cfg edges rddata).quiet cfg).quiet cfg = last
  steadyLast : last.Steady cfg
  written : (fsm.step cfg edges rddata).byteWritten ++
    ((fsm.step cfg edges rddata).quiet cfg).byteWritten = written
  loaded : fsm.byteLoaded edges rddata = loaded

def fallEdge : Edges := { Edges.none with sclFall := true }

def bitEdge (bit : Bool) : Edges := { Edges.none with bit := some bit }

def startEdge : Edges := { Edges.none with startDetect := true }

def stopEdge : Edges := { Edges.none with stopDetect := true }

section Answers

variable {cfg : SlaveCfg} {state : I2cState} {bitCnt : BitVec 4} {inByte outByte : BitVec 8}
variable {rdWrn : Bool} {regAddr rddata : BitVec 8}

open Fsm

theorem Fsm.receiving_steady (receives : Receives state) :
    (receiving state bitCnt inByte outByte rdWrn regAddr).Steady cfg := by
  rcases receives with rfl | rfl | rfl
  · refine ⟨?_, rfl⟩
    simp [quiet, step, devAddrStep, receiving, shifted, byteEnds, Edges.none]
  · refine ⟨?_, rfl⟩
    simp [quiet, step, regAddrStep, receiving, shifted, byteEnds, Edges.none]
  · refine ⟨?_, rfl⟩
    simp [quiet, step, regWDataStep, receiving, shifted, byteEnds, Edges.none]

theorem Fsm.acking_steady (acks : Acks state) :
    (acking state inByte outByte rdWrn regAddr).Steady cfg := by
  rcases acks with rfl | rfl | rfl <;> exact ⟨rfl, rfl⟩

theorem Fsm.sending_steady (inside : bitCnt ≠ 8#4) :
    (sending bitCnt inByte outByte rdWrn regAddr).Steady cfg := by
  refine ⟨?_, rfl⟩
  simp [quiet, step, regRDataStep, sending, Edges.none, inside]

theorem Fsm.awaiting_steady : (awaiting inByte outByte rdWrn regAddr).Steady cfg := ⟨rfl, rfl⟩

theorem Fsm.deaf_steady : (deaf outByte rdWrn regAddr).Steady cfg := ⟨rfl, rfl⟩

theorem Fsm.resting_steady : (resting outByte rdWrn regAddr).Steady cfg := ⟨rfl, rfl⟩

/-- An edge after which the state machine is at rest at once. -/
theorem Answers.of_step {fsm last : Fsm} {edges : Edges} {loaded : List (BitVec 8)}
    (steady : fsm.Steady cfg) (steps : fsm.step cfg edges rddata = last)
    (steadyLast : last.Steady cfg) (loads : fsm.byteLoaded edges rddata = loaded) :
    Answers cfg fsm edges rddata last [] loaded := by
  refine ⟨steady, ?_, steadyLast, ?_, loads⟩
  · rw [steps, steadyLast.stays, steadyLast.stays]
  · rw [steps, steadyLast.stays, steadyLast.byteWritten]
    rfl

theorem Fsm.receiving_step_bit (receives : Receives state) (bit : Bool) :
    (receiving state bitCnt inByte outByte rdWrn regAddr).step cfg (bitEdge bit) rddata =
      receiving state (bitCnt + 1) (shiftIn inByte bit) outByte rdWrn regAddr := by
  rcases receives with rfl | rfl | rfl
  · simp [step, devAddrStep, receiving, shifted, byteEnds, bitEdge, Edges.none]
  · simp [step, regAddrStep, receiving, shifted, byteEnds, bitEdge, Edges.none]
  · simp [step, regWDataStep, receiving, shifted, byteEnds, bitEdge, Edges.none]

/-- A bit is shifted in. -/
theorem receiving_bit (receives : Receives state) (bit : Bool) :
    Answers cfg (receiving state bitCnt inByte outByte rdWrn regAddr) (bitEdge bit) rddata
      (receiving state (bitCnt + 1) (shiftIn inByte bit) outByte rdWrn regAddr) [] [] := by
  refine .of_step (receiving_steady receives) (receiving_step_bit receives bit)
    (receiving_steady receives) ?_
  rcases receives with rfl | rfl | rfl <;> rfl

/-- A bit inside a byte ends. -/
theorem receiving_fall (receives : Receives state) (inside : bitCnt ≠ 8#4) :
    Answers cfg (receiving state bitCnt inByte outByte rdWrn regAddr) fallEdge rddata
      (receiving state bitCnt inByte outByte rdWrn regAddr) [] [] := by
  refine .of_step (receiving_steady receives) ?_ (receiving_steady receives) ?_
  · rcases receives with rfl | rfl | rfl
    · simp [step, devAddrStep, receiving, shifted, byteEnds, fallEdge, Edges.none, inside]
    · simp [step, regAddrStep, receiving, shifted, byteEnds, fallEdge, Edges.none, inside]
    · simp [step, regWDataStep, receiving, shifted, byteEnds, fallEdge, Edges.none, inside]
  · rcases receives with rfl | rfl | rfl <;> rfl

/-- The device address is that of the slave. -/
theorem devAddr_fall (rdWrnNext : Bool) :
    Answers cfg
      (receiving .devAddr 8 (addressByte cfg.i2cDevAddr rdWrnNext) outByte rdWrn regAddr) fallEdge
      rddata
      (acking .devAddrAck (addressByte cfg.i2cDevAddr rdWrnNext) outByte rdWrnNext regAddr)
      [] [] := by
  have address : (addressByte cfg.i2cDevAddr rdWrnNext).extractLsb' 1 7 = cfg.i2cDevAddr := by
    apply BitVec.eq_of_getLsbD_eq
    intro i inside
    rw [BitVec.getLsbD_extractLsb', addressByte, BitVec.getLsbD_append]
    simp [inside]
  have direction : (addressByte cfg.i2cDevAddr rdWrnNext)[0] = rdWrnNext := by
    rw [← BitVec.getLsbD_eq_getElem, addressByte, BitVec.getLsbD_append]
    simp
  have first : (receiving .devAddr 8 (addressByte cfg.i2cDevAddr rdWrnNext) outByte rdWrn
      regAddr).step cfg fallEdge rddata =
      { acking .devAddrAck (addressByte cfg.i2cDevAddr rdWrnNext) outByte rdWrnNext regAddr with
        sdaOut := true } := by
    simp [step, devAddrStep, receiving, acking, shifted, byteEnds, fallEdge, Edges.none, address,
      direction]
  refine ⟨receiving_steady (.inl rfl), ?_, acking_steady (.inl rfl), ?_, rfl⟩
  · rw [first]
    rfl
  · rw [first]
    rfl

theorem regAddr_fall :
    Answers cfg (receiving .regAddr 8 inByte outByte rdWrn regAddr) fallEdge rddata
      (acking .regAddrAck inByte outByte rdWrn inByte) [] [] :=
  ⟨receiving_steady (.inr (.inl rfl)), rfl, acking_steady (.inr (.inl rfl)), rfl, rfl⟩

/-- A byte is written. -/
theorem regWData_fall :
    Answers cfg (receiving .regWData 8 inByte outByte rdWrn regAddr) fallEdge rddata
      (acking .regWDataAck inByte outByte rdWrn regAddr) [(regAddr, inByte)] [] :=
  ⟨receiving_steady (.inr (.inr rfl)), rfl, acking_steady (.inr (.inr rfl)), rfl, rfl⟩

/-- A repeated start. -/
theorem regWData_start :
    Answers cfg (receiving .regWData bitCnt inByte outByte rdWrn regAddr) startEdge rddata
      (receiving .devAddr 0 inByte outByte rdWrn regAddr) [] [] :=
  .of_step (receiving_steady (.inr (.inr rfl))) rfl (receiving_steady (.inl rfl)) rfl

theorem regWData_stop :
    Answers cfg (receiving .regWData bitCnt inByte outByte rdWrn regAddr) stopEdge rddata
      (resting outByte rdWrn regAddr) [] [] :=
  ⟨receiving_steady (.inr (.inr rfl)), rfl, resting_steady, rfl, rfl⟩

theorem acking_bit (acks : Acks state) (bit : Bool) :
    Answers cfg (acking state inByte outByte rdWrn regAddr) (bitEdge bit) rddata
      (acking state inByte outByte rdWrn regAddr) [] [] := by
  refine .of_step (acking_steady acks) ?_ (acking_steady acks) ?_
  · rcases acks with rfl | rfl | rfl <;> rfl
  · rcases acks with rfl | rfl | rfl <;> rfl

theorem devAddrAck_fall_write :
    Answers cfg (acking .devAddrAck inByte outByte false regAddr) fallEdge rddata
      (receiving .regAddr 0 inByte outByte false regAddr) [] [] :=
  .of_step (acking_steady (.inl rfl)) rfl (receiving_steady (.inr (.inl rfl))) rfl

/-- The first byte of a read is loaded. -/
theorem devAddrAck_fall_read :
    Answers cfg (acking .devAddrAck inByte outByte true regAddr) fallEdge rddata
      (sending 0 inByte rddata true regAddr) [] [rddata] :=
  ⟨acking_steady (.inl rfl), rfl, sending_steady (by decide), rfl, rfl⟩

theorem regAddrAck_fall :
    Answers cfg (acking .regAddrAck inByte outByte rdWrn regAddr) fallEdge rddata
      (receiving .regWData 0 inByte outByte rdWrn regAddr) [] [] :=
  .of_step (acking_steady (.inr (.inl rfl))) rfl (receiving_steady (.inr (.inr rfl))) rfl

theorem regWDataAck_fall :
    Answers cfg (acking .regWDataAck inByte outByte rdWrn regAddr) fallEdge rddata
      (receiving .regWData 0 inByte outByte rdWrn regAddr) [] [] :=
  .of_step (acking_steady (.inr (.inr rfl))) rfl (receiving_steady (.inr (.inr rfl))) rfl

theorem Fsm.sending_step_bit (inside : bitCnt ≠ 8#4) (bit : Bool) :
    (sending bitCnt inByte outByte rdWrn regAddr).step cfg (bitEdge bit) rddata =
      sending bitCnt inByte outByte rdWrn regAddr := by
  simp [step, regRDataStep, sending, bitEdge, Edges.none, inside]

theorem sending_bit (inside : bitCnt ≠ 8#4) (bit : Bool) :
    Answers cfg (sending bitCnt inByte outByte rdWrn regAddr) (bitEdge bit) rddata
      (sending bitCnt inByte outByte rdWrn regAddr) [] [] :=
  .of_step (sending_steady inside) (sending_step_bit inside bit) (sending_steady inside) rfl

/-- The next bit is sent. -/
theorem sending_fall (inside : bitCnt ≠ 8#4) (more : bitCnt + 1#4 ≠ 8#4) :
    Answers cfg (sending bitCnt inByte outByte rdWrn regAddr) fallEdge rddata
      (sending (bitCnt + 1) inByte (shiftIn outByte false) rdWrn regAddr) [] [] := by
  have first : (sending bitCnt inByte outByte rdWrn regAddr).step cfg fallEdge rddata =
      { sending (bitCnt + 1) inByte (shiftIn outByte false) rdWrn regAddr with
        sdaOut := outByte.getLsbD 7 } := by
    simp [step, regRDataStep, sending, fallEdge, Edges.none, inside]
  have second : ({ sending (bitCnt + 1) inByte (shiftIn outByte false) rdWrn regAddr with
      sdaOut := outByte.getLsbD 7 } : Fsm).quiet cfg =
      sending (bitCnt + 1) inByte (shiftIn outByte false) rdWrn regAddr := by
    simp [quiet, step, regRDataStep, sending, Edges.none, more]
  refine ⟨sending_steady inside, ?_, sending_steady more, ?_, rfl⟩
  · rw [first, second]
    exact (sending_steady more).stays
  · rw [first, second]
    rfl

/-- The last bit has been sent. -/
theorem sending_fall_last :
    Answers cfg (sending 7 inByte outByte rdWrn regAddr) fallEdge rddata
      (awaiting inByte (shiftIn outByte false) rdWrn regAddr) [] [] :=
  ⟨sending_steady (by decide), rfl, awaiting_steady, rfl, rfl⟩

/-- The master wants no further byte. -/
theorem awaiting_nack :
    Answers cfg (awaiting inByte outByte rdWrn regAddr) (bitEdge true) rddata
      (deaf outByte rdWrn regAddr) [] [] :=
  ⟨awaiting_steady, rfl, deaf_steady, rfl, rfl⟩

/-- The master wants a further byte, which is loaded while the clock line is high. -/
theorem awaiting_ack :
    Answers cfg (awaiting inByte outByte rdWrn regAddr) (bitEdge false) rddata
      (sending 0 inByte rddata rdWrn regAddr) [] [rddata] :=
  ⟨awaiting_steady, rfl, sending_steady (by decide), rfl, rfl⟩

theorem Fsm.deaf_step_other {edges : Edges} (noStop : edges.stopDetect = false) :
    (deaf outByte rdWrn regAddr).step cfg edges rddata = deaf outByte rdWrn regAddr := by
  simp [step, deaf, noStop]

/-- A deaf slave only hears a stop. -/
theorem deaf_other {edges : Edges} (noStop : edges.stopDetect = false) :
    Answers cfg (deaf outByte rdWrn regAddr) edges rddata (deaf outByte rdWrn regAddr) [] [] :=
  .of_step deaf_steady (deaf_step_other noStop) deaf_steady rfl

theorem deaf_stop :
    Answers cfg (deaf outByte rdWrn regAddr) stopEdge rddata (resting outByte rdWrn regAddr)
      [] [] :=
  .of_step deaf_steady rfl resting_steady rfl

theorem resting_stop :
    Answers cfg (resting outByte rdWrn regAddr) stopEdge rddata (resting outByte rdWrn regAddr)
      [] [] :=
  .of_step resting_steady rfl resting_steady rfl

theorem resting_start (enabled : cfg.i2cEnabled = true) :
    Answers cfg (resting outByte rdWrn regAddr) startEdge rddata
      (receiving .devAddr 0 0 outByte rdWrn regAddr) [] [] := by
  refine .of_step resting_steady ?_ (receiving_steady (.inl rfl)) rfl
  change Fsm.mk (if true && cfg.i2cEnabled then .devAddr else .idle) _ _ _ _ _ _ _ _ = _
  rw [enabled]
  rfl

end Answers

end CoreVMcu.I2cs
