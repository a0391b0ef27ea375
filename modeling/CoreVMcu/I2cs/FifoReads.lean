import CoreVMcu.I2cs.Registers

/-!
# Reads of the FIFO of the I2C slave

A read of the data port returns the byte at the head of the FIFO from the I2C side, and the strobe
at its end pops this byte.  The strobe is up for two cycles, in the second one of which the next
address may be that of the data port already, and a byte that is popped may not be the one that
was returned.
-/

namespace CoreVMcu.I2cs

open Clocked Apb

section Bytes

variable (powerUp : PowerUp) (schedule : Nat → I2csInstant)

/-- The bytes that the FIFO holds in cycle `n`. -/
def fifoBytes (n : Nat) : List (BitVec 8) := (registersAt powerUp schedule n).fifoI2cToApb.contents

/-- The byte that a read of the data port returns in cycle `n`, unless the FIFO is empty. -/
def byteRead (n : Nat) : List (BitVec 8) :=
  if readAnswered (systemAt powerUp schedule n) 0x84 = true ∧ fifoBytes powerUp schedule n ≠ [] then
    [(registersAt powerUp schedule n).apbRegRdata.setWidth 8]
  else []

/-- The byte that is returned in the cycle before cycle `n`. -/
def byteReadBefore : Nat → List (BitVec 8)
  | 0 => []
  | n + 1 => byteRead powerUp schedule n

/-- The byte that leaves the FIFO at the end of cycle `n`. -/
def byteRemoved (n : Nat) : List (BitVec 8) :=
  if (registersAt powerUp schedule n).fifoI2cToApbPop then (fifoBytes powerUp schedule n).take 1
  else []

/-- The byte that joins the FIFO at the end of cycle `n`. -/
def byteAdded (n : Nat) : List (BitVec 8) :=
  if (registersAt powerUp schedule n).fifoI2cToApbPush &&
      !(registersAt powerUp schedule n).fifoI2cToApb.full then
    [(registersAt powerUp schedule n).reg0x20]
  else []

/-- The FIFO is flushed in cycle `n`. -/
def flushed (n : Nat) : Bool := (registersAt powerUp schedule n).reg0x22

/-- The bytes that joined the FIFO before cycle `n`, since it was flushed. -/
def bytesAdded : Nat → List (BitVec 8)
  | 0 => []
  | n + 1 =>
      if flushed powerUp schedule n || flushed powerUp schedule (n + 1) then []
      else bytesAdded n ++ byteAdded powerUp schedule n

/-- The bytes that were returned before cycle `n`, since the FIFO was flushed. -/
def bytesRead : Nat → List (BitVec 8)
  | 0 => []
  | n + 1 =>
      if flushed powerUp schedule n || flushed powerUp schedule (n + 1) then []
      else bytesRead n ++ byteRead powerUp schedule n

/-- In cycle `n` a read of the data port returns the byte at the head, the byte that was
returned in the cycle before and no other one is removed, and the bytes that were returned and
those that remain are the bytes that joined. -/
structure ReadsRight (n : Nat) : Prop where
  returnsHead : readAnswered (systemAt powerUp schedule n) 0x84 = true →
    fifoBytes powerUp schedule n ≠ [] →
      (registersAt powerUp schedule n).apbRegRdata =
        ((fifoBytes powerUp schedule n).headD 0).setWidth 32
  removesRead : flushed powerUp schedule n = false →
    byteRemoved powerUp schedule n = byteReadBefore powerUp schedule n
  inOrder : bytesAdded powerUp schedule n =
    bytesRead powerUp schedule n ++
      (fifoBytes powerUp schedule n).drop (byteReadBefore powerUp schedule n).length

/-- The FIFO is empty after cycle `n`: it is flushed, or the only byte in it is popped and
none is pushed. -/
def EmptyAfter (n : Nat) : Prop :=
  flushed powerUp schedule n = true ∨
    (registersAt powerUp schedule n).nextReg0x22 (systemAt powerUp schedule n).slave.interface
        (schedule n).env = true ∨
    (registersAt powerUp schedule n).fifoI2cToApbPush = false ∧
      (fifoBytes powerUp schedule n).length ≤
        (registersAt powerUp schedule n).fifoI2cToApbPop.toNat

/-- The strobe meets the address of the data port in cycle `n` only in the last cycle of a read
that returns a byte, or while the FIFO is empty after the cycle; and a byte that joins an empty
FIFO in the first cycle of a read is the one in its RAM already. -/
structure PopsRightly (n : Nat) : Prop where
  strobe : apbRegRdByteComplete powerUp schedule n = true →
    apbRegRaddr powerUp schedule n = 0x84 → byteRead powerUp schedule n = [] →
      EmptyAfter powerUp schedule n
  firstByte : readBegins (systemAt powerUp schedule n) 0x84 = true →
    fifoBytes powerUp schedule n = [] → ¬EmptyAfter powerUp schedule n →
      (registersAt powerUp schedule n).fifoI2cToApb.rdData =
        (registersAt powerUp schedule n).reg0x20

variable {powerUp schedule}

theorem flushed_succ (n : Nat) :
    flushed powerUp schedule (n + 1) =
      (registersAt powerUp schedule n).nextReg0x22 (systemAt powerUp schedule n).slave.interface
        (schedule n).env := by
  rw [flushed, registersAt_succ]
  rfl

theorem fifo_succ (n : Nat) :
    (registersAt powerUp schedule (n + 1)).fifoI2cToApb =
      (registersAt powerUp schedule n).fifoI2cToApb.stepFlushed (flushed powerUp schedule n)
        (flushed powerUp schedule (n + 1)) (registersAt powerUp schedule n).fifoI2cToApbPush
        (registersAt powerUp schedule n).reg0x20
        (registersAt powerUp schedule n).fifoI2cToApbPop := by
  rw [flushed_succ, registersAt_succ]
  rfl

/-- The strobe pops at the address of the data port. -/
theorem pop_succ (n : Nat) :
    (registersAt powerUp schedule (n + 1)).fifoI2cToApbPop = true ↔
      apbRegRaddr powerUp schedule n = 0x84 ∧ apbRegRdByteComplete powerUp schedule n = true := by
  rw [registersAt_succ, Registers.step, Bool.and_eq_true, beq_iff_eq]
  rfl

variable (powerUp schedule) in
theorem fifo_wellFormed (n : Nat) : (registersAt powerUp schedule n).fifoI2cToApb.WellFormed := by
  induction n with
  | zero => exact FifoSync.wellFormed_reset _
  | succ n inductionHypothesis =>
    rw [fifo_succ, FifoSync.stepFlushed]
    split
    · exact FifoSync.wellFormed_reset _
    · exact inductionHypothesis.step _ _ _

/-- The bytes after a cycle. -/
theorem fifoBytes_succ (n : Nat) :
    fifoBytes powerUp schedule (n + 1) =
      if flushed powerUp schedule n || flushed powerUp schedule (n + 1) then []
      else
        (if (registersAt powerUp schedule n).fifoI2cToApbPop then
          (fifoBytes powerUp schedule n).tail
          else fifoBytes powerUp schedule n) ++ byteAdded powerUp schedule n := by
  rw [fifoBytes, fifo_succ, FifoSync.stepFlushed]
  split
  · rfl
  · exact FifoSync.contents_step (fifo_wellFormed powerUp schedule n) _ _ _

/-- A FIFO that is flushed is empty. -/
theorem fifoBytes_flushed {n : Nat} (isFlushed : flushed powerUp schedule n = true) :
    fifoBytes powerUp schedule n = [] := by
  cases n with
  | zero => rfl
  | succ n => rw [fifoBytes_succ, isFlushed, Bool.or_true, if_pos rfl]

theorem notFlushed_of_held {n : Nat} (held : fifoBytes powerUp schedule n ≠ []) :
    flushed powerUp schedule n = false := by
  rw [← Bool.not_eq_true]
  intro isFlushed
  exact held (fifoBytes_flushed isFlushed)

theorem fifoBytes_succ_eq_nil_iff (n : Nat) :
    fifoBytes powerUp schedule (n + 1) = [] ↔ EmptyAfter powerUp schedule n := by
  have full := (fifo_wellFormed powerUp schedule n).full
  rw [← FifoSync.contents_length, ← fifoBytes] at full
  rw [fifoBytes_succ, EmptyAfter, ← flushed_succ]
  cases flushed powerUp schedule n with
  | true => simp
  | false =>
    cases flushed powerUp schedule (n + 1) with
    | true => simp
    | false =>
      have remaining :
          (if (registersAt powerUp schedule n).fifoI2cToApbPop then
              (fifoBytes powerUp schedule n).tail
            else fifoBytes powerUp schedule n) = [] ↔
          (fifoBytes powerUp schedule n).length ≤
            (registersAt powerUp schedule n).fifoI2cToApbPop.toNat := by
        rw [← List.length_eq_zero_iff]
        cases (registersAt powerUp schedule n).fifoI2cToApbPop <;> simp
        omega
      have refused (all : (registersAt powerUp schedule n).fifoI2cToApb.full = true) :
          ¬(fifoBytes powerUp schedule n).length ≤
            (registersAt powerUp schedule n).fifoI2cToApbPop.toNat := by
        have := full.mp all
        have := Bool.toNat_le (registersAt powerUp schedule n).fifoI2cToApbPop
        omega
      simp only [Bool.or_self, Bool.false_eq_true, if_false, false_or, List.append_eq_nil_iff,
        remaining, byteAdded]
      cases push : (registersAt powerUp schedule n).fifoI2cToApbPush with
      | false => simp
      | true =>
        cases isFull : (registersAt powerUp schedule n).fifoI2cToApb.full with
        | false => simp
        | true => simpa using refused isFull

/-! ## One read -/

/-- A read that is answered returns the byte that was at the read address in its first cycle. -/
theorem dataRead_answered {n : Nat}
    (answered : readAnswered (systemAt powerUp schedule (n + 1)) 0x84 = true) :
    (registersAt powerUp schedule (n + 1)).apbRegRdata =
      (registersAt powerUp schedule n).fifoI2cToApb.rdData.setWidth 32 :=
  apbRegRdata_answered powerUp schedule answered

/-- A byte is returned in the last cycle of a read only. -/
theorem answered_of_byteRead {n : Nat} (some : byteRead powerUp schedule n ≠ []) :
    readAnswered (systemAt powerUp schedule n) 0x84 = true ∧ fifoBytes powerUp schedule n ≠ [] := by
  rw [byteRead] at some
  split at some
  next both => exact both
  next => exact absurd rfl some

/-- While no byte is popped and the FIFO is not flushed the bytes in it remain. -/
theorem fifoBytes_remain {n : Nat}
    (notPopped : (registersAt powerUp schedule n).fifoI2cToApbPop = false)
    (some : fifoBytes powerUp schedule n ≠ [])
    (notFlushed : flushed powerUp schedule (n + 1) = false) :
    fifoBytes powerUp schedule (n + 1) =
      fifoBytes powerUp schedule n ++ byteAdded powerUp schedule n := by
  rw [fifoBytes_succ, notFlushed_of_held some, notFlushed, notPopped]
  rfl

/-- A byte that joins an empty FIFO is the only one in it. -/
theorem fifoBytes_join {n : Nat} (none : fifoBytes powerUp schedule n = [])
    (held : fifoBytes powerUp schedule (n + 1) ≠ []) :
    fifoBytes powerUp schedule (n + 1) = [(registersAt powerUp schedule n).reg0x20] := by
  have before : flushed powerUp schedule n = false := by
    rw [← Bool.not_eq_true]
    intro isFlushed
    exact held ((fifoBytes_succ_eq_nil_iff n).mpr (.inl isFlushed))
  have joins : fifoBytes powerUp schedule (n + 1) = byteAdded powerUp schedule n := by
    rw [fifoBytes_succ, before, notFlushed_of_held held, none]
    simp
  rw [joins, byteAdded] at held ⊢
  split
  next => rfl
  next refused =>
    rw [if_neg refused] at held
    exact absurd rfl held

/-- The byte at the head of the FIFO is returned. -/
def ReturnsHead (powerUp : PowerUp) (schedule : Nat → I2csInstant) (n : Nat) : Prop :=
  readAnswered (systemAt powerUp schedule n) 0x84 = true → fifoBytes powerUp schedule n ≠ [] →
    (registersAt powerUp schedule n).apbRegRdata =
      ((fifoBytes powerUp schedule n).headD 0).setWidth 32

theorem ReturnsHead.byteRead_eq {n : Nat} (head : ReturnsHead powerUp schedule n)
    (some : byteRead powerUp schedule n ≠ []) :
    byteRead powerUp schedule n = (fifoBytes powerUp schedule n).take 1 := by
  obtain ⟨answered, held⟩ := answered_of_byteRead some
  rw [byteRead, if_pos ⟨answered, held⟩, head answered held]
  cases bytes : fifoBytes powerUp schedule n with
  | nil => exact absurd bytes held
  | cons byte rest => simp

/-- A byte that was returned is at the head in the next cycle as well. -/
theorem ReturnsHead.byteRead_succ {n : Nat} (head : ReturnsHead powerUp schedule n)
    (some : byteRead powerUp schedule n ≠ [])
    (notFlushed : flushed powerUp schedule (n + 1) = false) :
    byteRead powerUp schedule n = (fifoBytes powerUp schedule (n + 1)).take 1 := by
  obtain ⟨answered, held⟩ := answered_of_byteRead some
  have keepsUp := (keepsUp_systemAt powerUp schedule n).answered answered (schedule n)
  rw [head.byteRead_eq some, fifoBytes_remain keepsUp.2.2 held notFlushed,
    List.take_append_of_le_length (List.length_pos_iff.mpr held)]

/-- Nothing is popped from a FIFO with bytes in the first cycle of a read. -/
theorem pop_of_begins {n : Nat} (pops : ∀ n, PopsRightly powerUp schedule n)
    (begins : readBegins (systemAt powerUp schedule n) 0x84 = true)
    (held : fifoBytes powerUp schedule n ≠ []) :
    (registersAt powerUp schedule n).fifoI2cToApbPop = false := by
  cases n with
  | zero => cases begins
  | succ n =>
    rw [← Bool.not_eq_true, pop_succ]
    rintro ⟨address, strobe⟩
    apply held
    rw [fifoBytes_succ_eq_nil_iff]
    apply (pops n).strobe strobe address
    by_contra some
    rw [readBegins_of_answered powerUp schedule (answered_of_byteRead some).1] at begins
    cases begins

theorem returnsHead_of_pops (pops : ∀ n, PopsRightly powerUp schedule n) (n : Nat) :
    ReturnsHead powerUp schedule n := by
  intro answered held
  cases n with
  | zero => cases answered
  | succ n =>
    have begins := answered
    rw [readAnswered_succ] at begins
    rw [dataRead_answered answered]
    by_cases none : fifoBytes powerUp schedule n = []
    · have same := (pops n).firstByte begins none (mt (fifoBytes_succ_eq_nil_iff n).mpr held)
      rw [fifoBytes_join none held, same]
      rfl
    · rw [fifoBytes_remain (pop_of_begins pops begins none) none (notFlushed_of_held held)]
      have head := FifoSync.rdData_eq none
      rw [← fifoBytes] at head
      cases bytes : fifoBytes powerUp schedule n with
      | nil => exact absurd bytes none
      | cons byte rest =>
        rw [bytes] at head
        cases head
        rfl

theorem removesRead_of_pops (pops : ∀ n, PopsRightly powerUp schedule n) {n : Nat}
    (notFlushed : flushed powerUp schedule n = false) :
    byteRemoved powerUp schedule n = byteReadBefore powerUp schedule n := by
  rw [byteRemoved]
  cases n with
  | zero =>
    split <;> rfl
  | succ n =>
    rw [byteReadBefore]
    by_cases none : byteRead powerUp schedule n = []
    · rw [none]
      split
      next popped =>
        obtain ⟨address, strobe⟩ := (pop_succ n).mp popped
        rw [(fifoBytes_succ_eq_nil_iff n).mpr ((pops n).strobe strobe address none)]
        rfl
      next => rfl
    · obtain ⟨answered, -⟩ := answered_of_byteRead none
      have keepsUp := (keepsUp_systemAt powerUp schedule n).answered answered (schedule n)
      rw [if_pos ((pop_succ n).mpr ⟨keepsUp.2.1, keepsUp.1⟩)]
      exact ((returnsHead_of_pops pops n).byteRead_succ none notFlushed).symm

/-! ## Runs -/

/-- Nothing is returned out of order while every byte that is returned is removed. -/
theorem inOrder_of_removes (heads : ∀ n, ReturnsHead powerUp schedule n)
    (removes : ∀ n, flushed powerUp schedule n = false →
      byteRemoved powerUp schedule n = byteReadBefore powerUp schedule n) (n : Nat) :
    bytesAdded powerUp schedule n =
      bytesRead powerUp schedule n ++
        (fifoBytes powerUp schedule n).drop (byteReadBefore powerUp schedule n).length := by
  induction n with
  | zero => rfl
  | succ n inductionHypothesis =>
    rw [bytesAdded, bytesRead, byteReadBefore]
    by_cases notFlushed :
      flushed powerUp schedule n = false ∧ flushed powerUp schedule (n + 1) = false
    · have dropped : (fifoBytes powerUp schedule n).drop (byteRemoved powerUp schedule n).length =
          if (registersAt powerUp schedule n).fifoI2cToApbPop then
            (fifoBytes powerUp schedule n).tail
          else fifoBytes powerUp schedule n := by
        rw [byteRemoved]
        split
        · cases fifoBytes powerUp schedule n <;> simp
        · rfl
      have after : fifoBytes powerUp schedule (n + 1) =
          (fifoBytes powerUp schedule n).drop (byteReadBefore powerUp schedule n).length ++
            byteAdded powerUp schedule n := by
        rw [← removes n notFlushed.1, dropped, fifoBytes_succ, notFlushed.1, notFlushed.2]
        rfl
      have front : byteRead powerUp schedule n <+: fifoBytes powerUp schedule (n + 1) := by
        by_cases none : byteRead powerUp schedule n = []
        · rw [none]
          exact List.nil_prefix
        · rw [(heads n).byteRead_succ none notFlushed.2]
          exact List.take_prefix ..
      obtain ⟨rest, split⟩ := front
      rw [notFlushed.1, notFlushed.2]
      simp only [Bool.or_self, Bool.false_eq_true, if_false]
      rw [inductionHypothesis, List.append_assoc, ← after, List.append_assoc]
      congr 1
      rw [← split, List.drop_left]
    · have isFlushed : (flushed powerUp schedule n || flushed powerUp schedule (n + 1)) = true := by
        revert notFlushed
        cases flushed powerUp schedule n <;> cases flushed powerUp schedule (n + 1) <;> simp
      rw [fifoBytes_succ, isFlushed]
      simp

/-- The reads of the data port are right in every cycle exactly if the strobe pops rightly in
every cycle. -/
theorem readsRight_iff (powerUp : PowerUp) (schedule : Nat → I2csInstant) :
    (∀ n, ReadsRight powerUp schedule n) ↔ ∀ n, PopsRightly powerUp schedule n := by
  constructor
  · intro right n
    constructor
    · intro strobe address none
      rw [← fifoBytes_succ_eq_nil_iff]
      by_contra held
      have removes := (right (n + 1)).removesRead (notFlushed_of_held held)
      rw [byteRemoved, if_pos ((pop_succ n).mpr ⟨address, strobe⟩), byteReadBefore, none] at removes
      cases bytes : fifoBytes powerUp schedule (n + 1) with
      | nil => exact held bytes
      | cons byte rest =>
        rw [bytes] at removes
        cases removes
    · intro begins none notEmpty
      have held := mt (fifoBytes_succ_eq_nil_iff n).mp notEmpty
      have answered := begins
      rw [← readAnswered_succ] at answered
      have head := (right (n + 1)).returnsHead answered held
      rw [dataRead_answered answered, fifoBytes_join none held] at head
      simpa using congrArg (BitVec.setWidth 8) head
  · intro pops n
    exact {
      returnsHead := returnsHead_of_pops pops n
      removesRead := removesRead_of_pops pops
      inOrder := inOrder_of_removes (returnsHead_of_pops pops)
        (fun _ notFlushed => removesRead_of_pops pops notFlushed) n }

end Bytes

/-- Two bytes are pushed and the data port is read twice, without a cycle between the reads. -/
def backToBack (n : Nat) : I2csInstant where
  env :=
    if n = 0 then I2cAccess.write 0x20 0xA1 else if n = 1 then I2cAccess.write 0x20 0xB2 else .quiet
  request := if n = 3 ∨ n = 6 then some { write := false, addr := 0x84, data := 0 } else none
  resting := { psel := false, penable := false, access := { write := false, addr := 0, data := 0 } }

/-- The first read removes the second byte as well. -/
theorem backToBack_loses : ¬ ∀ n, ReadsRight .zero backToBack n := by
  intro right
  exact absurd ((right 8).removesRead (by decide)) (by decide)

end CoreVMcu.I2cs
