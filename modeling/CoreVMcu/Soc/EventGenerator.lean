import CoreVMcu.Clocked.Machine
import CoreVMcu.Arbitration.PrefixArbiter
import CoreVMcu.Soc.EventQueue
import Mathlib.Data.Fintype.Basic

/-!
# The SoC event generator

`soc_event_generator` queues the occurrences of every event line, arbitrates the
lines with pending occurrences and offers the granted event to the FC event FIFO,
the cluster and the peripherals, each behind its own mask.
-/

namespace CoreVMcu.Soc

open Clocked

/-- The three receivers of granted events. -/
inductive Destination where
  | fc
  | cl
  | pr
  deriving DecidableEq, Repr

instance : Fintype Destination where
  elems := {.fc, .cl, .pr}
  complete destination := by cases destination <;> decide

/-- `EVNT_NUM`. -/
abbrev evntNum (perEvntNum apbEvntNum : Nat) : Nat := perEvntNum + apbEvntNum + 1

variable {perEvntNum apbEvntNum : Nat}

/-- Registers of `soc_event_generator` and of the queues, the arbiter and the
FIFO in it. -/
structure SocEventGenerator (arbiter : Arbiter (evntNum perEvntNum apbEvntNum)) where
  queue : Fin (evntNum perEvntNum apbEvntNum) → SocEventQueue
  arbiter : arbiter.State
  fcMask : BitVec 256
  clMask : BitVec 256
  prMask : BitVec 256
  apbEvents : BitVec apbEvntNum
  timerSelLo : BitVec 8
  timerSelHi : BitVec 8
  err : BitVec 256
  lsSync : BitVec 3
  eventFifo : GenericFifo (BitVec 8)
  fifoEvent : BitVec 8

/-- Inputs of `soc_event_generator` in one cycle. -/
structure EventInput (perEvntNum : Nat) where
  paddr : BitVec 12
  pwdata : BitVec 32
  pwrite : Bool
  psel : Bool
  penable : Bool
  lowSpeedClk : Bool
  perEvents : Fin perEvntNum → Bool
  coreIrqAckId : BitVec 5
  coreIrqAck : Bool
  clEventReady : Bool
  prEventReady : Bool

/-! ## The APB register map -/

/-- `s_apb_addr`. -/
def EventInput.apbAddr (input : EventInput perEvntNum) : Nat :=
  (input.paddr.extractLsb' 2 6).toNat

/-- The word of a bank of eight registers that an address selects. -/
def bankWord (base addr : Nat) : Option Nat :=
  if base ≤ addr ∧ addr < base + 8 then some (addr - base) else none

/-- `REG_EVENT`, the banks `REG_FC_MASK`, `REG_CL_MASK`, `REG_PR_MASK` and
`REG_ERR`, `REG_TIMER1_SEL_HI`, `REG_TIMER1_SEL_LO` and `REG_FIFO`. -/
def regEvent : Nat := 0
def regFcMask : Nat := 1
def regClMask : Nat := 9
def regPrMask : Nat := 17
def regErr : Nat := 25
def regTimer1SelHi : Nat := 33
def regTimer1SelLo : Nat := 34
def regFifo : Nat := 36

/-- Word `index` of a vector of 256 bits. -/
def readWord (vector : BitVec 256) (index : Nat) : BitVec 32 :=
  vector.extractLsb' (32 * index) 32

/-- The vector with word `index` replaced. -/
def writeWord (vector : BitVec 256) (index : Nat) (word : BitVec 32) : BitVec 256 :=
  (vector &&& ~~~((0xFFFFFFFF#256) <<< (32 * index))) ||| (word.setWidth 256 <<< (32 * index))

/-- The vector after a write to an address, when the address is in its bank. -/
def writeBank (base addr : Nat) (vector : BitVec 256) (word : BitVec 32) : BitVec 256 :=
  match bankWord base addr with
  | some index => writeWord vector index word
  | none => vector

/-- The word of a bank that a read returns, when the address is in it. -/
def readBank (base addr : Nat) (vector : BitVec 256) : Option (BitVec 32) :=
  (bankWord base addr).map (readWord vector)

/-- An APB access in its access phase. -/
def EventInput.writes (input : EventInput perEvntNum) : Bool :=
  input.psel && input.penable && input.pwrite

def EventInput.reads (input : EventInput perEvntNum) : Bool :=
  input.psel && input.penable && !input.pwrite

namespace SocEventGenerator

variable {arbiter : Arbiter (evntNum perEvntNum apbEvntNum)}
variable (generator : SocEventGenerator arbiter) (input : EventInput perEvntNum)

/-- `PRDATA`. -/
def prdata : BitVec 32 :=
  let addr := input.apbAddr
  (readBank regFcMask addr generator.fcMask).getD <|
  (readBank regClMask addr generator.clMask).getD <|
  (readBank regPrMask addr generator.prMask).getD <|
  (readBank regErr addr generator.err).getD <|
  if addr = regTimer1SelLo then generator.timerSelLo.setWidth 32
  else if addr = regTimer1SelHi then generator.timerSelHi.setWidth 32
  else if addr = regFifo then generator.fifoEvent.setWidth 32
  else 0#32

/-! ## Events, grants and deliveries -/

/-- `s_ls_rise`. -/
def lsRise : Bool := !generator.lsSync.getLsbD 2 && generator.lsSync.getLsbD 1

/-- `s_events`: the peripheral events, the APB events and the slow clock. -/
def events (lane : Fin (evntNum perEvntNum apbEvntNum)) : Bool :=
  if peripheral : lane.val < perEvntNum then input.perEvents ⟨lane, peripheral⟩
  else if lane.val < perEvntNum + apbEvntNum then
    generator.apbEvents.getLsbD (lane - perEvntNum)
  else generator.lsRise

/-- The granted line, if any: `s_grant`. -/
def grant : Option (Fin (evntNum perEvntNum apbEvntNum)) :=
  arbiter.grant generator.arbiter fun lane => (generator.queue lane).event

/-- The mask bit of a line for a destination. -/
def masked : Destination → Fin (evntNum perEvntNum apbEvntNum) → Bool
  | .fc, lane => generator.fcMask.getLsbD lane
  | .cl, lane => generator.clMask.getLsbD lane
  | .pr, lane => generator.prMask.getLsbD lane

/-- `fc_event_valid_o`, `cl_event_valid_o` and `pr_event_valid_o`. -/
def valid (destination : Destination) : Bool :=
  generator.grant.any fun lane => !generator.masked destination lane

/-- The ready of a destination: `fc_event_ready`, `cl_event_ready_i`,
`pr_event_ready_i`. -/
def ready : Destination → Bool
  | .fc => generator.eventFifo.grant
  | .cl => input.clEventReady
  | .pr => input.prEventReady

/-- `s_ready_fc`, `s_ready_cl` and `s_ready_pr`. -/
def readyOrIdle (destination : Destination) : Bool :=
  if generator.valid destination then generator.ready input destination else true

/-- `s_event_ready`. -/
def eventReady : Bool :=
  generator.readyOrIdle input .fc && generator.readyOrIdle input .cl &&
    generator.readyOrIdle input .pr

/-- `s_event_data`. -/
def eventData : BitVec 8 :=
  match generator.grant with
  | some lane => BitVec.ofNat 8 lane
  | none => 0#8

/-- `s_ack`. -/
def ack (lane : Fin (evntNum perEvntNum apbEvntNum)) : Bool :=
  decide (generator.grant = some lane) && generator.eventReady input

/-- `s_err`. -/
def queueErr (lane : Fin (evntNum perEvntNum apbEvntNum)) : Bool :=
  (generator.queue lane).err (generator.events input lane)

/-- `s_event_fifo_ready`: the core acknowledges interrupt 11. -/
def eventFifoReady : Bool := input.coreIrqAck && input.coreIrqAckId == 11#5

/-- The vector of the lines with an error. -/
def errVector : BitVec 256 :=
  (List.finRange (evntNum perEvntNum apbEvntNum)).foldl
    (fun vector lane =>
      if generator.queueErr input lane then vector ||| (1#256 <<< lane.val) else vector) 0#256

/-- One clock edge of the event generator. -/
def step : SocEventGenerator arbiter :=
  let addr := input.apbAddr
  let bank (base : Nat) (vector : BitVec 256) : BitVec 256 :=
    if input.writes then writeBank base addr vector input.pwdata else vector
  let err := generator.err ||| generator.errVector input
  { queue := fun lane =>
      (generator.queue lane).step (generator.events input lane) (generator.ack input lane)
    arbiter := arbiter.next generator.arbiter (fun lane => (generator.queue lane).event)
      (generator.eventReady input)
    fcMask := bank regFcMask generator.fcMask
    clMask := bank regClMask generator.clMask
    prMask := bank regPrMask generator.prMask
    apbEvents :=
      if input.writes && addr == regEvent then input.pwdata.setWidth apbEvntNum else 0
    timerSelLo :=
      if input.writes && addr == regTimer1SelLo then input.pwdata.setWidth 8
      else generator.timerSelLo
    timerSelHi :=
      if input.writes && addr == regTimer1SelHi then input.pwdata.setWidth 8
      else generator.timerSelHi
    err := if input.reads then writeBank regErr addr err 0#32 else err
    lsSync := generator.lsSync.extractLsb' 0 2 ++ BitVec.ofBool input.lowSpeedClk
    eventFifo := generator.eventFifo.step 4 (generator.valid .fc) generator.eventData
      (eventFifoReady input)
    fifoEvent :=
      if generator.eventFifo.valid && eventFifoReady input then generator.eventFifo.data
      else generator.fifoEvent }

end SocEventGenerator

/-- The event generator from reset: every line is masked for every
destination. -/
def eventMachine (arbiter : Arbiter (evntNum perEvntNum apbEvntNum)) :
    Machine (SocEventGenerator arbiter) (EventInput perEvntNum) where
  init :=
    { queue := fun _ => ⟨0#2⟩
      arbiter := arbiter.init
      fcMask := BitVec.allOnes 256
      clMask := BitVec.allOnes 256
      prMask := BitVec.allOnes 256
      apbEvents := 0
      timerSelLo := 0
      timerSelHi := 0
      err := 0
      lsSync := 0
      eventFifo := .reset 0
      fifoEvent := 0 }
  step := SocEventGenerator.step

end CoreVMcu.Soc
