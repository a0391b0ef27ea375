import CoreVMcu.Clocked.Machine
import CoreVMcu.Interconnect.AmoShim
import Mathlib.Tactic.MkIffOfInductiveProp

/-!
# Atomic requests in any sequence of requests

`amo_shim` with its memory.  Whatever is requested, an atomic request holds the memory until
its result is written and changes one half of one double word only.  The result is that of
its operation unless a compare-and-swap finds its compare value, which then is stored again
in the upper half, and in the lower one unless it is zero.

An atomic request enables the lanes of the half that it is for.  Its operand stands in that
half of the data, and the swap value of a compare-and-swap in the other one.
-/

namespace CoreVMcu.Interconnect

open Clocked

variable {addrWidth : Nat}

/-- `amo_shim` in front of a memory. -/
def atomicMemory (memory : OneCycleMemory addrWidth) (start : memory.State) :
    Machine (AmoShim addrWidth × memory.State) (AmoInput addrWidth) where
  init := (.reset, start)
  step state input :=
    (state.1.step input, memory.step state.2 (state.1.bankRequest (memory.rdata state.2) input))

/-- The byte lanes of a half. -/
def lanesOf (upper : Bool) : BitVec 8 := if upper then 0b1111_0000 else 0b0000_1111

/-- What the shim captures of a request for a half: the operand, and the swap value for the
lower half only. -/
theorem AmoShim.captured {input : AmoInput addrWidth} {upper : Bool}
    (onHalf : input.be = lanesOf upper) :
    AmoShim.operandOf input = half upper input.wdata ∧
      AmoShim.swapValueOf input =
        (if upper then half upper input.wdata else half (!upper) input.wdata) ∧
      AmoShim.upperOf input = upper := by
  rw [AmoShim.operandOf, AmoShim.swapValueOf, AmoShim.upperOf, onHalf]
  cases upper <;> exact ⟨rfl, rfl, rfl⟩

namespace AtomicMemory

variable (memory : OneCycleMemory addrWidth) (start : memory.State)

/-- An atomic request for a half is granted. -/
@[mk_iff] structure Grants (op : AmoOp) (upper : Bool) (state : AmoShim addrWidth × memory.State)
    (input : AmoInput addrWidth) : Prop where
  gnt : state.1.gnt input = true
  opcode : input.amo = op.encoding
  onHalf : input.be = lanesOf upper

/-- The addressed word before a request. -/
def oldWord (upper : Bool) (state : AmoShim addrWidth × memory.State)
    (input : AmoInput addrWidth) : BitVec 32 :=
  half upper (memory.content state.2 input.add)

/-- What an atomic request brings about within two cycles, whatever is requested in the
second one. -/
structure Executes (op : AmoOp) (upper : Bool) (state : AmoShim addrWidth × memory.State)
    (input next : AmoInput addrWidth) : Prop where
  /-- No other access is granted before the result is written. -/
  excludes : ((atomicMemory memory start).step state input).1.gnt next = false
  /-- The requester sees the old word. -/
  shows :
    half upper
        (((atomicMemory memory start).step state input).1.rdataO
          (memory.rdata ((atomicMemory memory start).step state input).2)) =
      oldWord memory upper state input
  replaces :
    half upper
        (memory.content ((atomicMemory memory start).runFrom state [input, next]).2 input.add) =
      op.apply (oldWord memory upper state input) (half upper input.wdata)
        (half (!upper) input.wdata)
  otherHalf :
    half (!upper)
        (memory.content ((atomicMemory memory start).runFrom state [input, next]).2 input.add) =
      half (!upper) (memory.content state.2 input.add)
  elsewhere : ∀ address ≠ input.add,
    memory.content ((atomicMemory memory start).runFrom state [input, next]).2 address =
      memory.content state.2 address

/-- A granted atomic request is executed. -/
def Served (state : AmoShim addrWidth × memory.State) (input : AmoInput addrWidth) : Prop :=
  ∀ op upper, Grants memory op upper state input →
    ∀ next, Executes memory start op upper state input next

/-- A granted atomic request is not presented as a store. -/
def AsLoad (state : AmoShim addrWidth × memory.State) (input : AmoInput addrWidth) : Prop :=
  ∀ op upper, Grants memory op upper state input → input.wen = false

/-- A granted atomic request is not a compare-and-swap that finds its compare value and would
change it, in the upper half or with a compare value other than zero. -/
def KeepsSwap (state : AmoShim addrWidth × memory.State) (input : AmoInput addrWidth) : Prop :=
  ∀ op upper, Grants memory op upper state input →
    ¬AmoShim.LosesSwap (oldWord memory upper state input) (half upper input.wdata)
      (half (!upper) input.wdata) upper op

variable {memory start}
variable {op : AmoOp} {upper : Bool} {state : AmoShim addrWidth × memory.State}
variable {input : AmoInput addrWidth}

theorem Grants.idle (grants : Grants memory op upper state input) : state.1.state = .idle := by
  have granted := grants.gnt
  unfold AmoShim.gnt at granted
  cases equal : state.1.state with
  | idle => rfl
  | doAmo =>
      rw [equal] at granted
      exact Bool.noConfusion granted

theorem Grants.req (grants : Grants memory op upper state input) : input.req = true := by
  have granted := grants.gnt
  rwa [AmoShim.gnt, grants.idle] at granted

/-- The shim with an atomic request that it has to commit. -/
def holding (op : AmoOp) (upper : Bool) (input : AmoInput addrWidth) : AmoShim addrWidth where
  state := .doAmo
  amoOp := op.encoding
  addr := input.add
  amoOperandB := half upper input.wdata
  swapValue := if upper then half upper input.wdata else half (!upper) input.wdata
  upperWord := upper

theorem half_rdataO_holding (op : AmoOp) (upper : Bool) (input : AmoInput addrWidth)
    (rdata : BitVec 64) :
    half upper ((holding op upper input).rdataO rdata) = half upper rdata := by
  unfold AmoShim.rdataO AmoShim.amoOperandA holding
  cases upper <;> exact half_append ..

/-- The result of the shim for a word. -/
def resultFor (op : AmoOp) (upper : Bool) (input : AmoInput addrWidth) (old : BitVec 32) :
    BitVec 32 :=
  AmoShim.amoResult op.encoding old (half upper input.wdata)
    (if upper then half upper input.wdata else half (!upper) input.wdata)

/-- The word that the memory shows is combined with the operand and written back. -/
theorem content_holding (op : AmoOp) (upper : Bool) (input next : AmoInput addrWidth)
    (before : memory.State) :
    memory.content
      (memory.step before ((holding op upper input).bankRequest (memory.rdata before) next)) =
      Function.update (memory.content before) input.add
        (replaceHalf upper (resultFor op upper input (half upper (memory.rdata before)))
          (memory.content before input.add)) := by
  refine (memory.written rfl rfl).trans ?_
  congr 1
  unfold AmoShim.bankRequest AmoShim.amoOperandA holding resultFor
  cases upper
  · exact mergeDouble_lower ..
  · exact mergeDouble_upper ..

/-- The shim keeps an atomic request. -/
theorem Grants.step (grants : Grants memory op upper state input) :
    state.1.step input = holding op upper input := by
  have loads : state.1.loadAmo input = true := by
    simp [AmoShim.loadAmo, grants.idle, grants.req, grants.opcode, op.encoding_ne_zero]
  obtain ⟨operand, swapValue, upperWord⟩ := AmoShim.captured grants.onHalf
  rw [AmoShim.step, if_pos loads, grants.opcode, operand, swapValue, upperWord]
  rfl

variable (start) in
/-- The word is read and the memory is left as it is. -/
theorem Grants.reads (grants : Grants memory op upper state input) (asLoad : input.wen = false) :
    memory.content ((atomicMemory memory start).step state input).2 = memory.content state.2 ∧
      memory.rdata ((atomicMemory memory start).step state input).2 =
        memory.content state.2 input.add := by
  have forwards : state.1.bankRequest (memory.rdata state.2) input =
      ⟨input.req, input.add, input.wen, input.wdata, input.be⟩ := by
    rw [AmoShim.bankRequest, grants.idle]
  simp only [atomicMemory, forwards]
  exact ⟨memory.kept (.inr asLoad), memory.read grants.req asLoad⟩

variable (start) in
/-- The result that the shim computes is written over the addressed word. -/
theorem Grants.writes (grants : Grants memory op upper state input) (asLoad : input.wen = false)
    (next : AmoInput addrWidth) :
    memory.content ((atomicMemory memory start).runFrom state [input, next]).2 =
      Function.update (memory.content state.2) input.add
        (replaceHalf upper (resultFor op upper input (oldWord memory upper state input))
          (memory.content state.2 input.add)) := by
  obtain ⟨content, rdata⟩ := grants.reads start asLoad
  have shim : ((atomicMemory memory start).step state input).1 = holding op upper input :=
    grants.step
  rw [Machine.runFrom_cons, Machine.runFrom_cons]
  generalize (atomicMemory memory start).step state input = read at content rdata shim
  change memory.content (memory.step read.2 (read.1.bankRequest (memory.rdata read.2) next)) = _
  rw [shim, content_holding, content, rdata]
  rfl

/-- An atomic request that is not presented as a store is executed unless it is a
compare-and-swap that loses its swap. -/
theorem Grants.executes_iff (grants : Grants memory op upper state input)
    (asLoad : input.wen = false) :
    (∀ next, Executes memory start op upper state input next) ↔
      ¬AmoShim.LosesSwap (oldWord memory upper state input) (half upper input.wdata)
        (half (!upper) input.wdata) upper op := by
  rw [← AmoShim.amoResult_eq_apply_iff, ← resultFor]
  constructor
  · intro executes
    have replaced := (executes input).replaces
    rw [grants.writes start asLoad, Function.update_self, half_replaceHalf, if_pos rfl] at replaced
    exact replaced
  · intro result next
    obtain ⟨_, rdata⟩ := grants.reads start asLoad
    have shim : ((atomicMemory memory start).step state input).1 = holding op upper input :=
      grants.step
    constructor
    · rw [shim]
      rfl
    · rw [shim, half_rdataO_holding, rdata]
      rfl
    · rw [grants.writes start asLoad, Function.update_self, half_replaceHalf, if_pos rfl, result]
    · rw [grants.writes start asLoad, Function.update_self, half_replaceHalf, if_neg (by simp)]
    · intro address other
      rw [grants.writes start asLoad, Function.update_of_ne other]

theorem served_iff (asLoad : AsLoad memory state input) :
    Served memory start state input ↔ KeepsSwap memory state input := by
  constructor
  · intro served op upper grants
    exact (grants.executes_iff (asLoad op upper grants)).mp (served op upper grants)
  · intro keeps op upper grants
    exact (grants.executes_iff (asLoad op upper grants)).mpr (keeps op upper grants)

/-! ## Runs -/

variable (memory start) in
/-- In every sequence of requests every atomic request is executed, if none is presented as
a store and none is a compare-and-swap that loses its swap.  Among requests that are not
presented as stores these are all that are not executed. -/
theorem always_served (inputs : List (AmoInput addrWidth)) :
    ((atomicMemory memory start).Always
        (fun state input => AsLoad memory state input ∧ KeepsSwap memory state input) inputs →
      (atomicMemory memory start).Always (Served memory start) inputs) ∧
    ((atomicMemory memory start).Always (AsLoad memory) inputs →
      (atomicMemory memory start).Always (Served memory start) inputs →
      (atomicMemory memory start).Always (KeepsSwap memory) inputs) := by
  constructor
  · intro safe
    exact safe.mono fun _ _ now => (served_iff now.1).mpr now.2
  · intro asLoads served
    exact (Machine.always_and.mpr ⟨asLoads, served⟩).mono fun _ _ now =>
      (served_iff now.1).mp now.2

instance (op : AmoOp) (upper : Bool) (state : AmoShim addrWidth × memory.State)
    (input : AmoInput addrWidth) : Decidable (Grants memory op upper state input) :=
  decidable_of_iff _ (grants_iff memory op upper state input).symm

instance (state : AmoShim addrWidth × memory.State) (input : AmoInput addrWidth) :
    Decidable (AsLoad memory state input) :=
  inferInstanceAs (Decidable (∀ _ _, _ → _))

instance (old operand swapValue : BitVec 32) (upper : Bool) (op : AmoOp) :
    Decidable (AmoShim.LosesSwap old operand swapValue upper op) :=
  inferInstanceAs (Decidable (_ ∧ _ ∧ _ ∧ _))

instance (state : AmoShim addrWidth × memory.State) (input : AmoInput addrWidth) :
    Decidable (KeepsSwap memory state input) :=
  inferInstanceAs (Decidable (∀ _ _, _ → ¬_))

/-- A request for a half of a double word. -/
def requestOf (amo : BitVec 4) (upper wen : Bool) (add : BitVec 1) (wdata : BitVec 64) :
    AmoInput 1 where
  req := true
  add := add
  amo := amo
  wen := wen
  wdata := wdata
  be := lanesOf upper

/-- Stores, loads and atomic requests on both halves; each atomic request is followed by a
request that has to wait. -/
def mixedRequests : List (AmoInput 1) :=
  [requestOf 0 false true 0 5#64, requestOf AmoOp.add.encoding false false 0 3#64,
    requestOf 0 true true 0 (9#32 ++ 0#32), requestOf 0 true true 0 (9#32 ++ 0#32),
    requestOf AmoOp.min.encoding true false 0 (0xFFFFFFFF#32 ++ 0#32),
    requestOf AmoOp.cas.encoding false false 1 (7#32 ++ 0#32),
    requestOf AmoOp.cas.encoding false false 1 (7#32 ++ 0#32),
    requestOf 0 false false 0 0#64,
    requestOf AmoOp.cas.encoding true false 0 (1#32 ++ 2#32), requestOf 0 false false 0 0#64]

theorem mixedRequests_served :
    (atomicMemory (holdingMemory 1) (fun _ => 0#64, 0#64)).Always
        (Served (holdingMemory 1) (fun _ => 0#64, 0#64)) mixedRequests ∧
      ((atomicMemory (holdingMemory 1) (fun _ => 0#64, 0#64)).run mixedRequests).2.1 0 =
        0xFFFFFFFF#32 ++ 8#32 ∧
      ((atomicMemory (holdingMemory 1) (fun _ => 0#64, 0#64)).run mixedRequests).2.1 1 =
        0#32 ++ 7#32 :=
  ⟨(always_served (holdingMemory 1) (fun _ => 0#64, 0#64) mixedRequests).1 (by decide +kernel),
    by decide +kernel, by decide +kernel⟩

/-- A compare-and-swap of the value 5, which is stored in every word. -/
def swapFive : AmoInput 1 := requestOf AmoOp.cas.encoding false false 0 (7#32 ++ 5#32)

/-- A compare-and-swap of zero, which is stored in every word, in the upper half. -/
def swapUpperZero : AmoInput 1 := requestOf AmoOp.cas.encoding true false 0 (0#32 ++ 7#32)

/-- The swap value is not stored although the compare value is found. -/
theorem swapFive_not_served :
    ¬(atomicMemory (holdingMemory 1) (fun _ => 5#64, 0#64)).Always
        (Served (holdingMemory 1) (fun _ => 5#64, 0#64)) [swapFive] ∧
      ¬(atomicMemory (holdingMemory 1) (fun _ => 0#64, 0#64)).Always
        (Served (holdingMemory 1) (fun _ => 0#64, 0#64)) [swapUpperZero] := by
  constructor
  · rintro ⟨served, -⟩
    have executes := served .cas false ⟨rfl, rfl, rfl⟩ swapFive
    exact absurd executes.replaces (by decide)
  · rintro ⟨served, -⟩
    have executes := served .cas true ⟨rfl, rfl, rfl⟩ swapUpperZero
    exact absurd executes.replaces (by decide)

end AtomicMemory

end CoreVMcu.Interconnect
