import Mathlib.Data.List.FinRange
import CoreVMcu.Clocked.Lanes
import CoreVMcu.Clocked.Machine
import CoreVMcu.Interconnect.Routing
import CoreVMcu.Interconnect.SyncRam

/-!
# The interleaved L2 memory

`interleaved_crossbar` selects a bank by the word address, arbitrates the masters at
every bank and returns the word of the bank that was selected in the cycle before.
`l2_ram_multi_bank` grants every request and addresses a row of the bank.

The banks are the values of the select bits, so their number is a power of two.
-/

namespace CoreVMcu.Interconnect

open Clocked

/-- What the crossbar relies on of the tree that arbitrates the masters at a bank: it
selects one master at most, and only one that requests. -/
structure ArbTree (nrMasterPorts : Nat) where
  State : Type
  init : State
  select : State → (Fin nrMasterPorts → Bool) → Option (Fin nrMasterPorts)
  next : State → (Fin nrMasterPorts → Bool) → Bool → State
  requested : ∀ {state req master}, select state req = some master → req master = true

/-- An arbiter is such a tree. -/
def ofArbiter {nrMasterPorts : Nat} (arbiter : Arbiter nrMasterPorts) : ArbTree nrMasterPorts where
  State := arbiter.State
  init := arbiter.init
  select := arbiter.grant
  next := arbiter.next
  requested := arbiter.requested

/-! ## Addresses -/

/-- `SOC_MEM_MAP_TCDM_START_ADDR`. -/
def tcdmStartAddr : BitVec 32 := 0x1C010000

/-- `INTL_MEM_ADDR_WIDTH`: a bank has `2 ^ 15` words. -/
def intlMemAddrWidth : Nat := 15

/-- `port_sel`: the bank of an address. -/
def bankOf (portSelWidth : Nat) (add : BitVec 32) : BitVec portSelWidth :=
  add.extractLsb' 2 portSelWidth

/-- `addr_i` of a bank: the row of an address, after the offset is removed. -/
def rowOf (portSelWidth : Nat) (add : BitVec 32) : BitVec intlMemAddrWidth :=
  (add - tcdmStartAddr).extractLsb' (2 + portSelWidth) intlMemAddrWidth

/-! ## One cycle -/

/-- The registers: the arbitration tree of each bank, the response multiplexer of each
master, and each bank with its `r_valid`. -/
structure InterleavedL2 {nrMasterPorts : Nat} (arbTree : ArbTree nrMasterPorts)
    (ram : SyncRam intlMemAddrWidth) (portSelWidth : Nat) where
  arb : BitVec portSelWidth → arbTree.State
  vldQ : Fin nrMasterPorts → Bool
  bankSelQ : Fin nrMasterPorts → BitVec portSelWidth
  bankRValid : BitVec portSelWidth → Bool
  bank : BitVec portSelWidth → ram.State

/-- The request halves of the master ports. -/
structure L2Input (nrMasterPorts : Nat) where
  req : Fin nrMasterPorts → Bool
  request : Fin nrMasterPorts → TcdmRequest

namespace InterleavedL2

variable {nrMasterPorts : Nat} {arbTree : ArbTree nrMasterPorts} {ram : SyncRam intlMemAddrWidth}
variable {portSelWidth : Nat}

/-- The requests of the masters for one bank, `sl_req`. -/
def slReq (portSelWidth : Nat) (input : L2Input nrMasterPorts) (bank : BitVec portSelWidth)
    (master : Fin nrMasterPorts) : Bool :=
  input.req master && decide (bankOf portSelWidth (input.request master).add = bank)

variable (l2 : InterleavedL2 arbTree ram portSelWidth) (input : L2Input nrMasterPorts)

/-- The master whose request is forwarded to a bank. -/
def selected (bank : BitVec portSelWidth) : Option (Fin nrMasterPorts) :=
  arbTree.select (l2.arb bank) (slReq portSelWidth input bank)

/-- `req` of a bank, which is also its `gnt`. -/
def bankReq (bank : BitVec portSelWidth) : Bool := (l2.selected input bank).isSome

/-- `gnt_o` of a master: the grants of all banks are put together. -/
def gnt (master : Fin nrMasterPorts) : Bool :=
  decide (∃ bank, l2.selected input bank = some master ∧ l2.bankReq input bank = true)

/-- The ports of the macro of a bank. -/
def ramInput (bank : BitVec portSelWidth) : RamInput intlMemAddrWidth :=
  match l2.selected input bank with
  | some master =>
      let request := input.request master
      { csn := !l2.bankReq input bank, wen := request.wen, be := request.be
        addr := rowOf portSelWidth request.add, wdata := request.wdata }
  | none => { csn := !l2.bankReq input bank, wen := false, be := 0, addr := 0, wdata := 0 }

/-- `r_valid` of a master. -/
def rValid (master : Fin nrMasterPorts) : Bool := l2.vldQ master

/-- `r_rdata` and `r_opc` of a master. -/
def response (master : Fin nrMasterPorts) : TcdmResponse where
  rRdata := ram.rdata (l2.bank (l2.bankSelQ master))
  rOpc := false

/-- One clock edge; writes are responded to as well. -/
def step : InterleavedL2 arbTree ram portSelWidth where
  arb bank := arbTree.next (l2.arb bank) (slReq portSelWidth input bank) (l2.bankReq input bank)
  vldQ := l2.gnt input
  bankSelQ master := bankOf portSelWidth (input.request master).add
  bankRValid := l2.bankReq input
  bank bank := ram.step (l2.bank bank) (l2.ramInput input bank)

/-- The requests that are granted in a cycle. -/
def granted : List TcdmRequest := (raised (l2.gnt input)).map input.request

end InterleavedL2

/-- The memory from reset, over what the banks hold. -/
def l2Machine {nrMasterPorts : Nat} (arbTree : ArbTree nrMasterPorts)
    (ram : SyncRam intlMemAddrWidth) {portSelWidth : Nat}
    (initial : BitVec portSelWidth → ram.State) :
    Machine (InterleavedL2 arbTree ram portSelWidth) (L2Input nrMasterPorts) where
  init :=
    { arb := fun _ => arbTree.init, vldQ := fun _ => false, bankSelQ := fun _ => 0
      bankRValid := fun _ => false, bank := initial }
  step := InterleavedL2.step

end CoreVMcu.Interconnect
