import Mathlib.Data.Nat.ModEq
import CoreVMcu.Interconnect.InterleavedL2

/-!
# The interleaved banks as one memory

In any interleaving of the masters, every granted request is answered in the next cycle,
and a read shows in each byte what was written there last.
-/

namespace CoreVMcu.Interconnect

open Clocked

/-- The word that a byte address lies in. -/
def wordAddr (address : BitVec 32) : BitVec 30 := address.extractLsb' 2 30

/-- The lane of a byte address. -/
def laneOf (address : BitVec 32) : BitVec 2 := address.extractLsb' 0 2

/-- A request writes a byte. -/
def TcdmRequest.writesByte (request : TcdmRequest) (address : BitVec 32) : Prop :=
  request.wen = false ∧ wordAddr request.add = wordAddr address ∧
    request.be.getLsbD (laneOf address).toNat = true

instance (request : TcdmRequest) (address : BitVec 32) : Decidable (request.writesByte address) :=
  inferInstanceAs (Decidable (_ ∧ _))

/-- The byte that was written to an address last, or its initial value. -/
def lastByte (address : BitVec 32) (initial : BitVec 8) (requests : List TcdmRequest) : BitVec 8 :=
  requests.foldl (fun byte request =>
    if request.writesByte address then byteLane request.wdata (laneOf address).toNat else byte)
    initial

/-- An address of the interleaved memory. -/
def InTcdm (portSelWidth : Nat) (address : BitVec 32) : Prop :=
  tcdmStartAddr.toNat ≤ address.toNat ∧
    address.toNat < tcdmStartAddr.toNat + 2 ^ portSelWidth * 2 ^ intlMemAddrWidth * 4

instance (portSelWidth : Nat) (address : BitVec 32) : Decidable (InTcdm portSelWidth address) :=
  inferInstanceAs (Decidable (_ ∧ _))

theorem lastByte_append (address : BitVec 32) (initial : BitVec 8)
    (requests later : List TcdmRequest) :
    lastByte address initial (requests ++ later) =
      lastByte address (lastByte address initial requests) later :=
  List.foldl_append

theorem lastByte_of_none {address : BitVec 32} (initial : BitVec 8) {requests : List TcdmRequest}
    (none : ∀ request ∈ requests, ¬request.writesByte address) :
    lastByte address initial requests = initial := by
  induction requests with
  | nil => rfl
  | cons request requests inductionHypothesis =>
      rw [lastByte, List.foldl_cons, if_neg (none request (List.mem_cons_self ..))]
      exact inductionHypothesis fun later member => none later (List.mem_cons_of_mem _ member)

/-- Where the writes of a byte agree, their order does not matter. -/
theorem lastByte_of_agree {address : BitVec 32} {initial byte : BitVec 8}
    {requests : List TcdmRequest}
    (agree : ∀ request ∈ requests, request.writesByte address →
      byteLane request.wdata (laneOf address).toNat = byte)
    (written : initial = byte ∨ ∃ request ∈ requests, request.writesByte address) :
    lastByte address initial requests = byte := by
  induction requests generalizing initial with
  | nil =>
      rcases written with same | ⟨request, member, -⟩
      · exact same
      · cases member
  | cons request requests inductionHypothesis =>
      have later := fun other member => agree other (List.mem_cons_of_mem request member)
      rw [lastByte, List.foldl_cons]
      by_cases writes : request.writesByte address
      · rw [if_pos writes, agree request (List.mem_cons_self ..) writes]
        exact inductionHypothesis later (.inl rfl)
      · rw [if_neg writes]
        refine inductionHypothesis later ?_
        rcases written with same | ⟨other, member, otherWrites⟩
        · exact .inl same
        · rcases List.mem_cons.mp member with rfl | inside
          · exact absurd otherWrites writes
          · exact .inr ⟨other, inside, otherWrites⟩

theorem toNat_wordAddr (address : BitVec 32) : (wordAddr address).toNat = address.toNat / 4 := by
  have bound := address.isLt
  rw [wordAddr, BitVec.extractLsb'_toNat, Nat.shiftRight_eq_div_pow]
  omega

theorem toNat_bankOf (portSelWidth : Nat) (address : BitVec 32) :
    (bankOf portSelWidth address).toNat = address.toNat / 4 % 2 ^ portSelWidth := by
  rw [bankOf, BitVec.extractLsb'_toNat, Nat.shiftRight_eq_div_pow]

/-- The number of a word from the start of the memory on. -/
def wordOffset (address : BitVec 32) : Nat := (address.toNat - tcdmStartAddr.toNat) / 4

/-- The other bytes of a word in the memory are in it too. -/
theorem InTcdm.of_word {portSelWidth : Nat} {left right : BitVec 32}
    (inside : InTcdm portSelWidth left) (same : wordAddr right = wordAddr left) :
    InTcdm portSelWidth right := by
  have words := congrArg BitVec.toNat same
  rw [toNat_wordAddr, toNat_wordAddr] at words
  have start : tcdmStartAddr.toNat = 0x1C010000 := rfl
  rcases inside with ⟨lower, upper⟩
  rw [start] at lower upper
  constructor
  · rw [start]
    omega
  · rw [start]
    omega

theorem toNat_rowOf {portSelWidth : Nat} {address : BitVec 32}
    (inside : InTcdm portSelWidth address) :
    (rowOf portSelWidth address).toNat = wordOffset address / 2 ^ portSelWidth := by
  have offset : (address - tcdmStartAddr).toNat = address.toNat - tcdmStartAddr.toNat :=
    BitVec.toNat_sub_of_le (BitVec.le_def.mpr inside.1)
  have words : wordOffset address < 2 ^ portSelWidth * 2 ^ intlMemAddrWidth := by
    have lower := inside.1
    have upper := inside.2
    rw [wordOffset]
    omega
  rw [rowOf, BitVec.extractLsb'_toNat, Nat.shiftRight_eq_div_pow, Nat.pow_add,
    ← Nat.div_div_eq_div_mul, offset]
  exact Nat.mod_eq_of_lt (Nat.div_lt_of_lt_mul words)

/-- The start address is a word address. -/
theorem toNat_wordAddr_eq {portSelWidth : Nat} {address : BitVec 32}
    (inside : InTcdm portSelWidth address) :
    (wordAddr address).toNat = tcdmStartAddr.toNat / 4 + wordOffset address := by
  have lower := inside.1
  have start : tcdmStartAddr.toNat = 0x1C010000 := rfl
  rw [toNat_wordAddr, wordOffset, start]
  rw [start] at lower
  omega

/-- Two different words never share a cell. -/
theorem cell_injective {portSelWidth : Nat} {left right : BitVec 32}
    (leftInside : InTcdm portSelWidth left) (rightInside : InTcdm portSelWidth right)
    (bank : bankOf portSelWidth left = bankOf portSelWidth right)
    (row : rowOf portSelWidth left = rowOf portSelWidth right) :
    wordAddr left = wordAddr right := by
  have sameRow : wordOffset left / 2 ^ portSelWidth = wordOffset right / 2 ^ portSelWidth := by
    rw [← toNat_rowOf leftInside, ← toNat_rowOf rightInside, row]
  have sameBank : tcdmStartAddr.toNat / 4 + wordOffset left ≡
      tcdmStartAddr.toNat / 4 + wordOffset right [MOD 2 ^ portSelWidth] := by
    rw [Nat.ModEq, ← toNat_wordAddr_eq leftInside, ← toNat_wordAddr_eq rightInside,
      toNat_wordAddr, toNat_wordAddr, ← toNat_bankOf, ← toNat_bankOf, bank]
  have sameSelect : wordOffset left % 2 ^ portSelWidth = wordOffset right % 2 ^ portSelWidth :=
    Nat.ModEq.add_left_cancel' _ sameBank
  have same : wordOffset left = wordOffset right := by
    rw [← Nat.div_add_mod (wordOffset left) (2 ^ portSelWidth), sameRow, sameSelect,
      Nat.div_add_mod]
  apply BitVec.eq_of_toNat_eq
  rw [toNat_wordAddr_eq leftInside, toNat_wordAddr_eq rightInside, same]

/-- The cell of a word does not depend on the byte in it. -/
theorem bankOf_congr (portSelWidth : Nat) {left right : BitVec 32}
    (same : wordAddr left = wordAddr right) :
    bankOf portSelWidth left = bankOf portSelWidth right := by
  apply BitVec.eq_of_toNat_eq
  rw [toNat_bankOf, toNat_bankOf, ← toNat_wordAddr, ← toNat_wordAddr, same]

theorem rowOf_congr {portSelWidth : Nat} {left right : BitVec 32}
    (leftInside : InTcdm portSelWidth left) (rightInside : InTcdm portSelWidth right)
    (same : wordAddr left = wordAddr right) :
    rowOf portSelWidth left = rowOf portSelWidth right := by
  have words := congrArg BitVec.toNat same
  rw [toNat_wordAddr_eq leftInside, toNat_wordAddr_eq rightInside] at words
  apply BitVec.eq_of_toNat_eq
  rw [toNat_rowOf leftInside, toNat_rowOf rightInside, Nat.add_left_cancel words]

/-! ## One cycle -/

namespace InterleavedL2

variable {nrMasterPorts : Nat} {arbTree : ArbTree nrMasterPorts} {ram : SyncRam intlMemAddrWidth}
variable {portSelWidth : Nat} {l2 : InterleavedL2 arbTree ram portSelWidth}
variable {input : L2Input nrMasterPorts} {master : Fin nrMasterPorts}

/-- A master is only selected at the bank of its request. -/
theorem of_selected {bank : BitVec portSelWidth} (selected : l2.selected input bank = some master) :
    input.req master = true ∧ bankOf portSelWidth (input.request master).add = bank := by
  have requested := arbTree.requested selected
  rw [slReq, Bool.and_eq_true, decide_eq_true_eq] at requested
  exact requested

/-- A master is granted if it is selected at the bank of its request. -/
theorem gnt_iff :
    l2.gnt input master = true ↔
      l2.selected input (bankOf portSelWidth (input.request master).add) = some master := by
  rw [gnt, decide_eq_true_eq]
  constructor
  · rintro ⟨bank, selected, -⟩
    rw [(of_selected selected).2]
    exact selected
  · intro selected
    refine ⟨_, selected, ?_⟩
    rw [bankReq, selected]
    rfl

/-- What the bank of a granted request sees. -/
theorem ramInput_of_gnt (granted : l2.gnt input master = true) :
    l2.ramInput input (bankOf portSelWidth (input.request master).add) =
      { csn := false
        wen := (input.request master).wen
        be := (input.request master).be
        addr := rowOf portSelWidth (input.request master).add
        wdata := (input.request master).wdata } := by
  have selected := gnt_iff.mp granted
  rw [ramInput, bankReq, selected]
  rfl

/-- What a bank holds after a cycle in which no request to it is granted. -/
theorem content_of_idle {bank : BitVec portSelWidth}
    (idle : ∀ master, l2.selected input bank ≠ some master) :
    ram.content ((l2.step input).bank bank) = ram.content (l2.bank bank) := by
  have none : l2.selected input bank = none := Option.eq_none_iff_forall_ne_some.mpr idle
  refine ram.kept (.inl ?_)
  rw [ramInput, bankReq, none]
  rfl

/-- What the bank of a granted read holds and shows after it. -/
theorem content_of_read (granted : l2.gnt input master = true)
    (reads : (input.request master).wen = true) :
    ram.content ((l2.step input).bank (bankOf portSelWidth (input.request master).add)) =
        ram.content (l2.bank (bankOf portSelWidth (input.request master).add)) ∧
      ((l2.step input).response master).rRdata =
        ram.content (l2.bank (bankOf portSelWidth (input.request master).add))
          (rowOf portSelWidth (input.request master).add) := by
  have ports := ramInput_of_gnt granted
  rw [reads] at ports
  constructor
  · refine ram.kept (.inr ?_)
    rw [ports]
  · change ram.rdata (ram.step (l2.bank (bankOf portSelWidth (input.request master).add))
      (l2.ramInput input (bankOf portSelWidth (input.request master).add))) = _
    rw [ports]
    exact ram.read rfl rfl

/-- What the bank of a granted write holds after it. -/
theorem content_of_write (granted : l2.gnt input master = true)
    (writes : (input.request master).wen = false) :
    ram.content ((l2.step input).bank (bankOf portSelWidth (input.request master).add)) =
      Function.update (ram.content (l2.bank (bankOf portSelWidth (input.request master).add)))
        (rowOf portSelWidth (input.request master).add)
        (mergeBytes (input.request master).be (input.request master).wdata
          (ram.content (l2.bank (bankOf portSelWidth (input.request master).add))
            (rowOf portSelWidth (input.request master).add))) := by
  have ports := ramInput_of_gnt granted
  rw [writes] at ports
  change ram.content (ram.step _ (l2.ramInput input _)) = _
  rw [ports]
  exact ram.written rfl rfl

/-- The byte that the banks hold for an address. -/
def storedByte (l2 : InterleavedL2 arbTree ram portSelWidth) (address : BitVec 32) : BitVec 8 :=
  byteLane (ram.content (l2.bank (bankOf portSelWidth address)) (rowOf portSelWidth address))
    (laneOf address).toNat

theorem mem_granted {request : TcdmRequest} :
    request ∈ l2.granted input ↔ ∃ master, l2.gnt input master = true ∧
      input.request master = request := by
  rw [granted, List.mem_map]
  exact exists_congr fun master => and_congr_left' mem_raised

/-- The requests of a cycle lie in the memory. -/
def Requests (portSelWidth : Nat) (input : L2Input nrMasterPorts) : Prop :=
  ∀ master, input.req master = true → InTcdm portSelWidth (input.request master).add

instance (portSelWidth : Nat) (input : L2Input nrMasterPorts) :
    Decidable (Requests portSelWidth input) :=
  inferInstanceAs (Decidable (∀ master, input.req master = true →
    InTcdm portSelWidth (input.request master).add))

/-- A granted request that writes a byte is the one selected at the bank of the byte. -/
theorem selected_of_writesByte {address : BitVec 32} {request : TcdmRequest}
    (member : request ∈ l2.granted input) (writes : request.writesByte address) :
    ∃ master, l2.selected input (bankOf portSelWidth address) = some master ∧
      input.request master = request := by
  rcases mem_granted.mp member with ⟨master, granted, rfl⟩
  refine ⟨master, ?_, rfl⟩
  rw [← bankOf_congr portSelWidth writes.2.1]
  exact gnt_iff.mp granted

/-- In one cycle the banks change as one memory does. -/
theorem storedByte_step {address : BitVec 32} (inside : InTcdm portSelWidth address)
    (requests : Requests portSelWidth input) :
    (l2.step input).storedByte address =
      lastByte address (l2.storedByte address) (l2.granted input) := by
  cases selected : l2.selected input (bankOf portSelWidth address) with
  | none =>
      have noWrite : ∀ request ∈ l2.granted input, ¬request.writesByte address := by
        intro request member writes
        rcases selected_of_writesByte member writes with ⟨master, isSelected, -⟩
        rw [selected] at isSelected
        cases isSelected
      have idle : ∀ master, l2.selected input (bankOf portSelWidth address) ≠ some master := by
        intro master isSelected
        rw [selected] at isSelected
        cases isSelected
      rw [lastByte_of_none _ noWrite, storedByte, content_of_idle idle]
      rfl
  | some master =>
      have isRequested := of_selected selected
      have addressed := requests master isRequested.1
      have granted : l2.gnt input master = true := by
        rw [gnt_iff, isRequested.2]
        exact selected
      have only : ∀ request ∈ l2.granted input, request.writesByte address →
          input.request master = request := by
        intro request member writes
        rcases selected_of_writesByte member writes with ⟨other, isSelected, same⟩
        rw [selected] at isSelected
        cases isSelected
        exact same
      have unwritten : ¬(input.request master).writesByte address →
          lastByte address (l2.storedByte address) (l2.granted input) = l2.storedByte address := by
        intro other
        refine lastByte_of_none _ fun request member writes => other ?_
        rw [only request member writes]
        exact writes
      cases wen : (input.request master).wen with
      | true =>
          have kept := (content_of_read granted wen).1
          rw [unwritten fun writes => Bool.false_ne_true (writes.1.symm.trans wen),
            storedByte, ← isRequested.2, kept, isRequested.2]
          rfl
      | false =>
          have written := content_of_write granted wen
          rw [isRequested.2] at written
          rw [storedByte, written]
          by_cases word : wordAddr (input.request master).add = wordAddr address
          · have row := rowOf_congr addressed inside word
            have lane := (laneOf address).isLt
            rw [row, Function.update_self, byteLane_mergeBytes _ _ _ lane]
            by_cases enabled :
                (input.request master).be.getLsbD (laneOf address).toNat = true
            · rw [if_pos enabled]
              refine (lastByte_of_agree ?_ (.inr ⟨_, mem_granted.mpr ⟨master, granted, rfl⟩, wen,
                word, enabled⟩)).symm
              intro request member writes
              rw [only request member writes]
            · rw [if_neg enabled, unwritten fun writes => enabled writes.2.2]
              rfl
          · have row : rowOf portSelWidth address ≠ rowOf portSelWidth (input.request master).add :=
              fun same => word (cell_injective addressed inside isRequested.2 same.symm)
            rw [Function.update_of_ne row, unwritten fun writes => word writes.2.1]
            rfl

end InterleavedL2

/-! ## Runs -/

section Runs

variable {nrMasterPorts : Nat} (arbTree : ArbTree nrMasterPorts) (ram : SyncRam intlMemAddrWidth)
variable {portSelWidth : Nat} (initial : BitVec portSelWidth → ram.State)

/-- The requests granted in a run, oldest first. -/
def grantedRequests (inputs : List (L2Input nrMasterPorts)) : List TcdmRequest :=
  (l2Machine arbTree ram initial).observed InterleavedL2.granted inputs

/-- The byte that the banks hold for an address at first. -/
def initialByte (address : BitVec 32) : BitVec 8 :=
  (l2Machine arbTree ram initial).init.storedByte address

/-- The memory in a cycle of a run: before it, `before` were granted.  A granted request
is answered in the next cycle and no other master is, the answer comes from a bank that
answers, and a read shows in each byte what was written there last. -/
structure AnswersAsOne (before : List TcdmRequest) (l2 : InterleavedL2 arbTree ram portSelWidth)
    (input : L2Input nrMasterPorts) : Prop where
  once : ∀ master, (l2.step input).rValid master = l2.gnt input master
  fromBank : ∀ master, (l2.step input).rValid master = true →
    (l2.step input).bankRValid ((l2.step input).bankSelQ master) = true
  reads : ∀ master, l2.gnt input master = true → (input.request master).wen = true →
    ∀ address, wordAddr address = wordAddr (input.request master).add →
      byteLane ((l2.step input).response master).rRdata (laneOf address).toNat =
        lastByte address (initialByte arbTree ram initial address) before

/-- One memory: each cycle of a run answers as one, nothing is answered before the first
request, and two words have no cell in common. -/
structure OneMemory (inputs : List (L2Input nrMasterPorts)) : Prop where
  answers : ∀ before input later, inputs = before ++ input :: later →
    AnswersAsOne arbTree ram initial (grantedRequests arbTree ram initial before)
      ((l2Machine arbTree ram initial).run before) input
  starts : ∀ master, (l2Machine arbTree ram initial).init.rValid master = false
  cells : ∀ left right, InTcdm portSelWidth left → InTcdm portSelWidth right →
    wordAddr left ≠ wordAddr right →
      ¬(bankOf portSelWidth left = bankOf portSelWidth right ∧
        rowOf portSelWidth left = rowOf portSelWidth right)

variable {arbTree ram initial}

/-- Along a run the banks hold what was written last. -/
theorem storedByte_run {address : BitVec 32} (inside : InTcdm portSelWidth address)
    (inputs : List (L2Input nrMasterPorts))
    (requests : (l2Machine arbTree ram initial).Always
      (fun _ => InterleavedL2.Requests portSelWidth) inputs) :
    ((l2Machine arbTree ram initial).run inputs).storedByte address =
      lastByte address (initialByte arbTree ram initial address)
        (grantedRequests arbTree ram initial inputs) := by
  refine Machine.run_induction (motive := fun inputs l2 => l2.storedByte address =
    lastByte address (initialByte arbTree ram initial address)
      (grantedRequests arbTree ram initial inputs)) rfl ?_ inputs requests
  intro inputs input _ stored addressed
  rw [grantedRequests, Machine.observed_snoc, lastByte_append]
  refine (InterleavedL2.storedByte_step inside addressed).trans ?_
  rw [stored]
  rfl

/-- A cycle answers as one memory where the banks hold what was written last. -/
theorem answersAsOne {before : List TcdmRequest} {l2 : InterleavedL2 arbTree ram portSelWidth}
    {input : L2Input nrMasterPorts} (requests : InterleavedL2.Requests portSelWidth input)
    (stored : ∀ address, InTcdm portSelWidth address → l2.storedByte address =
      lastByte address (initialByte arbTree ram initial address) before) :
    AnswersAsOne arbTree ram initial before l2 input where
  once _ := rfl
  fromBank := by
    intro master valid
    have selected := InterleavedL2.gnt_iff.mp valid
    change (l2.selected input (bankOf portSelWidth (input.request master).add)).isSome = true
    rw [selected]
    rfl
  reads := by
    intro master granted reads address word
    have selected := InterleavedL2.gnt_iff.mp granted
    have addressed := requests master (InterleavedL2.of_selected selected).1
    have inside := addressed.of_word word
    rw [(InterleavedL2.content_of_read granted reads).2, ← stored address inside,
      InterleavedL2.storedByte, bankOf_congr portSelWidth word, rowOf_congr inside addressed word]

/-- The interleaved memory is one memory: for any number of masters, any number of banks
that is a power of two, any arbitration tree, memory macro and initial content, and any
run whose requests lie in the memory. -/
theorem interleavedL2_isOneMemory (arbTree : ArbTree nrMasterPorts)
    (ram : SyncRam intlMemAddrWidth) (initial : BitVec portSelWidth → ram.State)
    (inputs : List (L2Input nrMasterPorts))
    (requests : (l2Machine arbTree ram initial).Always
      (fun _ => InterleavedL2.Requests portSelWidth) inputs) :
    OneMemory arbTree ram initial inputs where
  answers := by
    rintro before input later rfl
    have runs := (Machine.alwaysFrom_append ..).mp requests
    exact answersAsOne runs.2.1 fun address inside => storedByte_run inside before runs.1
  starts _ := rfl
  cells left right leftInside rightInside different same :=
    different (cell_injective leftInside rightInside same.1 same.2)

end Runs

/-- Two masters at one bank: the first writes two bytes of a word that both read then. -/
def writeThenReads : List (L2Input 2) :=
  [{ req := fun _ => true
     request := fun master => ⟨0x1C010008, decide (master.val = 1), 0x04030201, 0x6⟩ },
   { req := fun master => decide (master.val = 1), request := fun _ => ⟨0x1C010008, true, 0, 0xF⟩ },
   { req := fun master => decide (master.val = 0), request := fun _ => ⟨0x1C010008, true, 0, 0xF⟩ }]

theorem writeThenReads_isOneMemory :
    OneMemory (ofArbiter (rrArbTree 2)) (simulationRam intlMemAddrWidth)
      (fun _ : BitVec 2 => ⟨fun _ => 0, 0⟩) writeThenReads :=
  interleavedL2_isOneMemory _ _ _ _ (by decide)

end CoreVMcu.Interconnect
