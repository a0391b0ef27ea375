import CoreVMcu.Clocked.Counters
import CoreVMcu.Clocked.RingBuffer

/-!
# The generic FIFO of the uDMA

`io_generic_fifo` keeps its words in a circular buffer between an input and an
output pointer and counts them.  It behaves as a bounded queue.  `io_tx_fifo` asks
for the words that it is to store, as long as it has a place for one besides those
that are kept for the words under way.
-/

namespace CoreVMcu.Udma

open Clocked

/-- Registers of `io_generic_fifo` with `bufferDepth` words. -/
structure IoGenericFifo (Word : Type) where
  pointerIn : Nat
  pointerOut : Nat
  elements : Nat
  buffer : Nat → Word

namespace IoGenericFifo

variable {Word : Type} (bufferDepth : Nat)

/-- The FIFO after reset. -/
def reset (zero : Word) : IoGenericFifo Word :=
  { pointerIn := 0, pointerOut := 0, elements := 0, buffer := fun _ => zero }

/-- `full`. -/
def full (fifo : IoGenericFifo Word) : Bool := fifo.elements == bufferDepth

/-- `ready_o`. -/
def ready (fifo : IoGenericFifo Word) : Bool := !fifo.full bufferDepth

/-- `valid_o`. -/
def valid (fifo : IoGenericFifo Word) : Bool := fifo.elements != 0

/-- `data_o`. -/
def data (fifo : IoGenericFifo Word) : Word := fifo.buffer fifo.pointerOut

/-- A pointer moves to the next word of the buffer. -/
def advance (pointer : Nat) : Nat :=
  if pointer = bufferDepth - 1 then 0 else pointer + 1

/-- One clock edge. -/
def step (fifo : IoGenericFifo Word) (clr validIn : Bool) (dataIn : Word) (readyIn : Bool) :
    IoGenericFifo Word where
  elements :=
    if clr then 0
    else if readyIn && fifo.valid && (!validIn || fifo.full bufferDepth) then fifo.elements - 1
    else if (!fifo.valid || !readyIn) && validIn && !fifo.full bufferDepth then fifo.elements + 1
    else fifo.elements
  buffer :=
    if validIn && !fifo.full bufferDepth then Function.update fifo.buffer fifo.pointerIn dataIn
    else fifo.buffer
  pointerIn :=
    if clr then 0
    else if validIn && !fifo.full bufferDepth then advance bufferDepth fifo.pointerIn
    else fifo.pointerIn
  pointerOut :=
    if clr then 0
    else if readyIn && fifo.valid then advance bufferDepth fifo.pointerOut
    else fifo.pointerOut

/-! ## The FIFO as a queue -/

/-- The FIFO stores `words`, the oldest first. -/
structure Represents (fifo : IoGenericFifo Word) (words : List Word) : Prop where
  bounded : words.length ≤ bufferDepth
  elements : fifo.elements = words.length
  pointerOut : fifo.pointerOut < bufferDepth
  pointerIn : fifo.pointerIn = (fifo.pointerOut + words.length) % bufferDepth
  holds : Holds (fun j => (fifo.pointerOut + j) % bufferDepth) fifo.buffer words 0

variable {bufferDepth} {fifo : IoGenericFifo Word} {words : List Word}

theorem represents_reset (zero : Word) (positive : 0 < bufferDepth) :
    Represents bufferDepth (reset zero) [] where
  bounded := Nat.zero_le _
  elements := rfl
  pointerOut := positive
  pointerIn := (Nat.zero_mod _).symm
  holds := .nil

theorem Represents.valid_eq (represents : Represents bufferDepth fifo words) :
    fifo.valid = !words.isEmpty := by
  rw [valid, represents.elements]
  cases words <;> rfl

theorem Represents.ready_iff (represents : Represents bufferDepth fifo words) :
    fifo.ready bufferDepth = true ↔ words.length < bufferDepth := by
  have bounded := represents.bounded
  rw [ready, full, represents.elements, Bool.not_eq_true', beq_eq_false_iff_ne]
  omega

theorem Represents.data_eq {word : Word} {rest : List Word}
    (represents : Represents bufferDepth fifo (word :: rest)) : fifo.data = word := by
  have first := represents.holds 0 word (Nat.le_refl 0) rfl
  simpa only [data, Nat.add_zero, Nat.mod_eq_of_lt represents.pointerOut] using first

/-- The word that a pop takes is the oldest one. -/
theorem Represents.popped (represents : Represents bufferDepth fifo words) (readyIn : Bool) :
    (if readyIn && fifo.valid then [fifo.data] else []) =
      words.take (readyIn && fifo.valid).toNat := by
  cases pops : readyIn && fifo.valid with
  | false => rfl
  | true =>
      have valid := (Bool.and_eq_true_iff.mp pops).2
      cases words with
      | nil => exact absurd (represents.valid_eq.symm.trans valid) Bool.false_ne_true
      | cons word rest => rw [if_pos rfl, represents.data_eq, Bool.toNat_true, List.take_one]; rfl

theorem advance_eq {pointer : Nat} (inside : pointer < bufferDepth) :
    advance bufferDepth pointer = (pointer + 1) % bufferDepth := by
  unfold advance
  split
  · next last => rw [last, Nat.sub_add_cancel (by omega), Nat.mod_self]
  · next => rw [Nat.mod_eq_of_lt (by omega)]

theorem advance_lt {pointer : Nat} (inside : pointer < bufferDepth) :
    advance bufferDepth pointer < bufferDepth := by
  rw [advance_eq inside]
  exact Nat.mod_lt _ (by omega)

theorem Represents.push (represents : Represents bufferDepth fifo words)
    (room : words.length < bufferDepth) (word : Word) :
    Represents bufferDepth
      { fifo with
        elements := fifo.elements + 1
        buffer := Function.update fifo.buffer fifo.pointerIn word
        pointerIn := advance bufferDepth fifo.pointerIn }
      (words ++ [word]) where
  bounded := by rw [List.length_append]; exact room
  elements := by rw [List.length_append, represents.elements]; rfl
  pointerOut := represents.pointerOut
  pointerIn := by
    have inside : fifo.pointerIn < bufferDepth := by
      rw [represents.pointerIn]
      exact Nat.mod_lt _ (Nat.zero_lt_of_lt represents.pointerOut)
    rw [advance_eq inside, represents.pointerIn, Nat.mod_add_mod, List.length_append,
      List.length_singleton, Nat.add_assoc]
  holds := by
    have stored := represents.holds.store (distinctSlots_offset fifo.pointerOut)
      (by rwa [Nat.zero_add]) word
    rwa [← represents.pointerIn] at stored

theorem Represents.pop {word : Word} {rest : List Word}
    (represents : Represents bufferDepth fifo (word :: rest)) :
    Represents bufferDepth
      { fifo with
        elements := fifo.elements - 1
        pointerOut := advance bufferDepth fifo.pointerOut }
      rest where
  bounded := Nat.le_of_succ_le represents.bounded
  elements := by rw [represents.elements]; rfl
  pointerOut := advance_lt represents.pointerOut
  pointerIn := by
    rw [represents.pointerIn, advance_eq represents.pointerOut, Nat.mod_add_mod, List.length_cons,
      Nat.add_assoc, Nat.add_comm rest.length]
  holds := by
    intro j other _ present
    have stored := represents.holds (j + 1) other (Nat.zero_le _) (by simpa using present)
    simp only [advance_eq represents.pointerOut, Nat.mod_add_mod]
    rwa [show fifo.pointerOut + 1 + j = fifo.pointerOut + (j + 1) by omega]

/-- A clock edge in terms of whether a word is pushed and whether one is popped. -/
theorem step_eq (validIn : Bool) (dataIn : Word) (readyIn : Bool) :
    fifo.step bufferDepth false validIn dataIn readyIn =
      { elements :=
          if (readyIn && fifo.valid) && !(validIn && fifo.ready bufferDepth) then fifo.elements - 1
          else if (validIn && fifo.ready bufferDepth) && !(readyIn && fifo.valid) then
            fifo.elements + 1
          else fifo.elements
        buffer :=
          if validIn && fifo.ready bufferDepth then
            Function.update fifo.buffer fifo.pointerIn dataIn
          else fifo.buffer
        pointerIn :=
          if validIn && fifo.ready bufferDepth then advance bufferDepth fifo.pointerIn
          else fifo.pointerIn
        pointerOut :=
          if readyIn && fifo.valid then advance bufferDepth fifo.pointerOut
          else fifo.pointerOut } := by
  unfold ready
  cases validIn <;> cases readyIn <;> by_cases full : fifo.full bufferDepth = true <;>
    by_cases valid : fifo.valid = true <;> simp [step, full, valid]

/-- Pushing onto a queue that is not full, popping from one that is not empty, or
both. -/
theorem Represents.step (represents : Represents bufferDepth fifo words) (validIn : Bool)
    (dataIn : Word) (readyIn : Bool) :
    Represents bufferDepth (fifo.step bufferDepth false validIn dataIn readyIn)
      (words.drop (readyIn && fifo.valid).toNat ++
        if validIn && fifo.ready bufferDepth then [dataIn] else []) := by
  rw [step_eq]
  have room : (validIn && fifo.ready bufferDepth) = true → words.length < bufferDepth :=
    fun pushing => represents.ready_iff.mp (Bool.and_eq_true_iff.mp pushing).2
  have some : (readyIn && fifo.valid) = true → words ≠ [] := by
    intro popping
    have valid := (Bool.and_eq_true_iff.mp popping).2
    rw [represents.valid_eq] at valid
    rintro rfl
    exact Bool.noConfusion valid
  cases popping : readyIn && fifo.valid with
  | false =>
      cases pushing : validIn && fifo.ready bufferDepth with
      | false => simpa using represents
      | true => exact represents.push (room pushing) dataIn
  | true =>
      obtain ⟨word, rest, rfl⟩ := List.exists_cons_of_ne_nil (some popping)
      cases pushing : validIn && fifo.ready bufferDepth with
      | false => simpa using represents.pop
      | true =>
          have popped := represents.pop
          have pushed := popped.push (Nat.lt_of_succ_lt (room pushing)) dataIn
          have positive : fifo.elements - 1 + 1 = fifo.elements := by
            rw [represents.elements]
            rfl
          simp only [positive] at pushed
          exact pushed

end IoGenericFifo

/-! ## The FIFO with outstanding requests -/

/-- Registers of `io_tx_fifo` with `bufferDepth` words. -/
structure TxFifo (bufferDepth logDepth : Nat) (Word : Type) where
  fifo : IoGenericFifo Word
  rInflight : BitVec (logDepth + 1)

/-- Inputs of `io_tx_fifo` in one cycle. -/
structure TxFifoInput (Word : Type) where
  clr : Bool
  gnt : Bool
  validIn : Bool
  dataIn : Word
  readyIn : Bool

namespace TxFifo

variable {bufferDepth logDepth : Nat} {Word : Type}
variable (fifo : TxFifo bufferDepth logDepth Word) (input : TxFifoInput Word)

def reset (zero : Word) : TxFifo bufferDepth logDepth Word := ⟨.reset zero, 0⟩

/-- `ready_o`. -/
def ready : Bool := fifo.fifo.ready bufferDepth

/-- `s_free_ele`. -/
def freeEle : BitVec (logDepth + 1) := BitVec.ofNat _ (bufferDepth - fifo.fifo.elements)

/-- `req_o`. -/
def req : Bool := fifo.ready && fifo.freeEle != fifo.rInflight

/-- One clock edge. -/
def step : TxFifo bufferDepth logDepth Word where
  fifo := fifo.fifo.step bufferDepth input.clr input.validIn input.dataIn input.readyIn
  rInflight :=
    if fifo.req && input.gnt then
      if !input.validIn || !fifo.ready then fifo.rInflight + 1 else fifo.rInflight
    else if input.validIn && fifo.ready then fifo.rInflight - 1
    else fifo.rInflight

end TxFifo

section Credits

variable {bufferDepth logDepth : Nat} {Word : Type}

/-- A FIFO with a number of requests under way. -/
structure TxFifo.Credit (fifo : TxFifo bufferDepth logDepth Word) (inflight : Nat) : Prop where
  bounded : fifo.fifo.elements + inflight ≤ bufferDepth
  counter : fifo.rInflight.toNat = inflight

/-- A clock edge adds at most the word that is taken. -/
theorem IoGenericFifo.elements_step_le (fifo : IoGenericFifo Word) (clr validIn : Bool)
    (dataIn : Word) (readyIn : Bool) :
    (fifo.step bufferDepth clr validIn dataIn readyIn).elements ≤
      fifo.elements + validIn.toNat := by
  simp only [IoGenericFifo.step]
  cases clr with
  | true => exact Nat.zero_le _
  | false =>
      rw [if_neg Bool.false_ne_true]
      split
      · omega
      · split
        · next adds =>
            simp only [Bool.and_eq_true] at adds
            rw [adds.1.2]
            exact Nat.le_refl _
        · exact Nat.le_add_right ..

variable {fifo : TxFifo bufferDepth logDepth Word} {inflight : Nat}

/-- There is a place for every word under way. -/
theorem TxFifo.Credit.ready (credit : fifo.Credit inflight) (some : 0 < inflight) :
    fifo.ready = true := by
  have bounded := credit.bounded
  rw [TxFifo.ready, IoGenericFifo.ready, IoGenericFifo.full, Bool.not_eq_true',
    beq_eq_false_iff_ne]
  omega

/-- A request is only made for a place that is not kept. -/
theorem TxFifo.Credit.of_req (credit : fifo.Credit inflight) (fits : bufferDepth ≤ 2 ^ logDepth)
    (requests : fifo.req = true) : fifo.fifo.elements + inflight < bufferDepth := by
  have bounded := credit.bounded
  rw [TxFifo.req, Bool.and_eq_true, bne_iff_ne, Ne, ← BitVec.toNat_inj, credit.counter,
    TxFifo.freeEle, BitVec.toNat_ofNat, Nat.mod_eq_of_lt (by rw [Nat.pow_succ]; omega)] at requests
  omega

/-- One clock edge. -/
theorem TxFifo.Credit.step (credit : fifo.Credit inflight) (fits : bufferDepth ≤ 2 ^ logDepth)
    (input : TxFifoInput Word) (answers : input.validIn = true → 0 < inflight) :
    ∃ next, (fifo.step input).Credit next ∧
      next + input.validIn.toNat = inflight + (fifo.req && input.gnt).toNat := by
  have bounded := credit.bounded
  have elements : (fifo.step input).fifo.elements ≤
      fifo.fifo.elements + input.validIn.toNat := IoGenericFifo.elements_step_le ..
  have positive : 0 < 2 ^ logDepth := Nat.pow_pos (by decide)
  have counter : (fifo.step input).rInflight =
      if fifo.req && input.gnt then
        if !input.validIn || !fifo.ready then fifo.rInflight + 1 else fifo.rInflight
      else if input.validIn && fifo.ready then fifo.rInflight - 1
      else fifo.rInflight := rfl
  cases grants : fifo.req && input.gnt with
  | false =>
      cases valid : input.validIn with
      | false =>
          rw [grants, valid, Bool.false_and, if_neg Bool.false_ne_true,
            if_neg Bool.false_ne_true] at counter
          rw [valid] at elements
          exact ⟨inflight, ⟨Nat.le_trans (Nat.add_le_add_right elements _) bounded,
            counter ▸ credit.counter⟩, rfl⟩
      | true =>
          have some := answers valid
          rw [grants, valid, credit.ready some, if_neg Bool.false_ne_true, Bool.true_and,
            if_pos rfl] at counter
          rw [valid] at elements
          refine ⟨inflight - 1, ⟨?_, ?_⟩, Nat.sub_add_cancel some⟩
          · change _ ≤ _ + 1 at elements
            omega
          · rw [counter, toNat_pred (credit.counter ▸ some), credit.counter]
  | true =>
      have room := credit.of_req fits (Bool.and_eq_true_iff.mp grants).1
      cases valid : input.validIn with
      | false =>
          rw [grants, valid, if_pos rfl, Bool.not_false, Bool.true_or, if_pos rfl] at counter
          rw [valid] at elements
          refine ⟨inflight + 1, ⟨?_, ?_⟩, rfl⟩
          · change _ ≤ _ + 0 at elements
            omega
          · rw [counter, toNat_succ, credit.counter]
            rw [credit.counter, Nat.pow_succ]
            omega
      | true =>
          rw [grants, valid, if_pos rfl, credit.ready (answers valid), Bool.not_true,
            Bool.or_self, if_neg Bool.false_ne_true] at counter
          rw [valid] at elements
          refine ⟨inflight, ⟨?_, counter ▸ credit.counter⟩, rfl⟩
          change _ ≤ _ + 1 at elements
          omega

end Credits

end CoreVMcu.Udma
