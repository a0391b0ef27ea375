import CoreVMcu.Spi.Ctrl
import CoreVMcu.Uart.RegIf

/-!
# The registers of the SPI master

`udma_spim_reg_if` holds the registers of the three L2 channels.  They are written by the
configuration bus, which is always ready, and by the commands `SETUP_UCA` and `SETUP_UCS` of
the command stream.
-/

namespace CoreVMcu.Spi

open Clocked
open CoreVMcu.Uart (CfgPort L2Channel L2Status flags)

/-- The registers at the addresses of the interface. -/
inductive SpimReg where
  | rxSaddr | rxSize | rxCfg
  | txSaddr | txSize | txCfg
  | cmdSaddr | cmdSize | cmdCfg
  | status
  deriving DecidableEq, Repr

/-- The decoded address; nothing stands at the others. -/
def spimReg (addr : BitVec 5) : Option SpimReg :=
  match addr.toNat with
  | 0x0 => some .rxSaddr
  | 0x1 => some .rxSize
  | 0x2 => some .rxCfg
  | 0x4 => some .txSaddr
  | 0x5 => some .txSize
  | 0x6 => some .txCfg
  | 0x8 => some .cmdSaddr
  | 0x9 => some .cmdSize
  | 0xA => some .cmdCfg
  | 0xC => some .status
  | _ => none

/-- The registers of a data channel: those of every L2 channel, and the size of a word. -/
structure SpimChannel (aWidth transSize : Nat) extends L2Channel aWidth transSize where
  datasize : BitVec 2

/-- The registers of `udma_spim_reg_if`. -/
structure SpimRegIf (aWidth transSize : Nat) where
  cmd : L2Channel aWidth transSize
  rx : SpimChannel aWidth transSize
  tx : SpimChannel aWidth transSize

/-- The inputs of a cycle. -/
structure SpimRegInput (aWidth transSize : Nat) where
  cfg : CfgPort
  cmd : L2Status aWidth transSize
  rx : L2Status aWidth transSize
  tx : L2Status aWidth transSize
  status : BitVec 2
  udmaCmd : BitVec 32
  udmaCmdValid : Bool
  udmaCmdReady : Bool

variable {aWidth transSize : Nat}

/-! ## The setup commands -/

def cmdDecodeTxrxn (word : BitVec 32) : Bool := word.getLsbD 27
def cmdDecodeDs (word : BitVec 32) : BitVec 2 := word.extractLsb' 25 2
def cmdDecodeSize (transSize : Nat) (word : BitVec 32) : BitVec transSize :=
  word.setWidth transSize
def cmdDecodeAddr (aWidth : Nat) (word : BitVec 32) : BitVec aWidth := word.setWidth aWidth

namespace SpimChannel

variable (channel : SpimChannel aWidth transSize)

def reset : SpimChannel aWidth transSize := { L2Channel.reset with datasize := 2 }

/-- `en` and `clr` are pulses. -/
def quiet : SpimChannel aWidth transSize :=
  { channel with toL2Channel := channel.toL2Channel.quiet }

/-- A write of the configuration register. -/
def configure (data : BitVec 32) : SpimChannel aWidth transSize :=
  { toL2Channel := channel.toL2Channel.configure data, datasize := data.extractLsb' 1 2 }

/-- `SETUP_UCS`. -/
def setupUcs (word : BitVec 32) : SpimChannel aWidth transSize :=
  { channel with
    size := cmdDecodeSize transSize word, datasize := cmdDecodeDs word, en := true }

/-- `SETUP_UCA`. -/
def setupUca (word : BitVec 32) : SpimChannel aWidth transSize :=
  { channel with startaddr := cmdDecodeAddr aWidth word }

end SpimChannel

namespace SpimRegIf

variable (regIf : SpimRegIf aWidth transSize)

def reset : SpimRegIf aWidth transSize where
  cmd := .reset
  rx := .reset
  tx := .reset

def quiet : SpimRegIf aWidth transSize where
  cmd := regIf.cmd.quiet
  rx := regIf.rx.quiet
  tx := regIf.tx.quiet

/-- The case statement of the writes. -/
def write (reg : SpimReg) (data : BitVec 32) : SpimRegIf aWidth transSize :=
  match reg with
  | .cmdSaddr => { regIf with cmd := { regIf.cmd with startaddr := data.setWidth aWidth } }
  | .cmdSize => { regIf with cmd := { regIf.cmd with size := data.setWidth transSize } }
  | .cmdCfg => { regIf with cmd := regIf.cmd.configure data }
  | .rxSaddr => { regIf with rx := { regIf.rx with startaddr := data.setWidth aWidth } }
  | .rxSize => { regIf with rx := { regIf.rx with size := data.setWidth transSize } }
  | .rxCfg => { regIf with rx := regIf.rx.configure data }
  | .txSaddr => { regIf with tx := { regIf.tx with startaddr := data.setWidth aWidth } }
  | .txSize => { regIf with tx := { regIf.tx with size := data.setWidth transSize } }
  | .txCfg => { regIf with tx := regIf.tx.configure data }
  | .status => regIf

/-- `SETUP_UCA` and `SETUP_UCS` set the channel that bit 27 selects. -/
def setupUca (word : BitVec 32) : SpimRegIf aWidth transSize :=
  if cmdDecodeTxrxn word then { regIf with tx := regIf.tx.setupUca word }
  else { regIf with rx := regIf.rx.setupUca word }

def setupUcs (word : BitVec 32) : SpimRegIf aWidth transSize :=
  if cmdDecodeTxrxn word then { regIf with tx := regIf.tx.setupUcs word }
  else { regIf with rx := regIf.rx.setupUcs word }

end SpimRegIf

namespace SpimRegInput

variable (input : SpimRegInput aWidth transSize)

/-- The register written, if any. -/
def written : Option SpimReg :=
  if input.cfg.cfgValid && !input.cfg.cfgRwn then spimReg input.cfg.cfgAddr else none

/-- The register whose value is driven; without a read this is the first one. -/
def driven : Option SpimReg :=
  spimReg (if input.cfg.cfgValid && input.cfg.cfgRwn then input.cfg.cfgAddr else 0)

/-- The command of the stream that is accepted in the cycle. -/
def acceptedCmd : Option SpiCmd :=
  if input.udmaCmdValid && input.udmaCmdReady then spiCmd input.udmaCmd else none

end SpimRegInput

namespace SpimRegIf

variable (regIf : SpimRegIf aWidth transSize) (input : SpimRegInput aWidth transSize)

/-- `{26'h0, pending, en, 1'b0, datasize, continuous}`. -/
def cfgWord (status : L2Status aWidth transSize) (datasize : BitVec 2) (continuous : Bool) :
    BitVec 32 :=
  flags [status.pending, status.en, false, datasize.getLsbD 1, datasize.getLsbD 0, continuous]

/-- `cfg_data_o`. -/
def cfgDataO : BitVec 32 :=
  match input.driven with
  | some .cmdSaddr => input.cmd.currAddr.setWidth 32
  | some .cmdSize => input.cmd.bytesLeft.setWidth 32
  | some .cmdCfg => cfgWord input.cmd 2 regIf.cmd.continuous
  | some .rxSaddr => input.rx.currAddr.setWidth 32
  | some .rxSize => input.rx.bytesLeft.setWidth 32
  | some .rxCfg => cfgWord input.rx regIf.rx.datasize regIf.rx.continuous
  | some .txSaddr => input.tx.currAddr.setWidth 32
  | some .txSize => input.tx.bytesLeft.setWidth 32
  | some .txCfg => cfgWord input.tx regIf.tx.datasize regIf.tx.continuous
  | some .status => input.status.setWidth 32
  | none => 0

/-- `cfg_ready_o`. -/
def cfgReadyO : Bool := true

/-- A clock edge: an accepted setup command goes before a write. -/
def step : SpimRegIf aWidth transSize :=
  match input.acceptedCmd with
  | some .setupUca => regIf.quiet.setupUca input.udmaCmd
  | some .setupUcs => regIf.quiet.setupUcs input.udmaCmd
  | _ =>
      match input.written with
      | some reg => regIf.quiet.write reg input.cfg.cfgData
      | none => regIf.quiet

end SpimRegIf

/-- `udma_spim_reg_if` after reset. -/
def spimRegIf (aWidth transSize : Nat) :
    Machine (SpimRegIf aWidth transSize) (SpimRegInput aWidth transSize) where
  init := .reset
  step := SpimRegIf.step

/-- An accepted access: a write of the configuration bus, or a setup command. -/
inductive SpimAccess where
  | write (reg : SpimReg) (data : BitVec 32)
  | uca (word : BitVec 32)
  | ucs (word : BitVec 32)
  deriving DecidableEq, Repr

/-- An access takes effect in full. -/
def SpimRegIf.perform (regIf : SpimRegIf aWidth transSize) : SpimAccess → SpimRegIf aWidth transSize
  | .write reg data => regIf.write reg data
  | .uca word => regIf.setupUca word
  | .ucs word => regIf.setupUcs word

namespace SpimRegInput

variable (input : SpimRegInput aWidth transSize)

/-- The write that is accepted in the cycle. -/
def acceptedWrite : Option SpimAccess :=
  if SpimRegIf.cfgReadyO then input.written.map fun reg => .write reg input.cfg.cfgData else none

/-- The setup command that is accepted in the cycle. -/
def acceptedSetup : Option SpimAccess :=
  match input.acceptedCmd with
  | some .setupUca => some (.uca input.udmaCmd)
  | some .setupUcs => some (.ucs input.udmaCmd)
  | _ => none

/-- All accesses that are accepted in the cycle. -/
def accesses : List SpimAccess := input.acceptedWrite.toList ++ input.acceptedSetup.toList

end SpimRegInput

/-! ## The registers as values -/

/-- The registers that keep their value. -/
inductive SpimField where
  | cmdStartaddr | cmdSize | cmdContinuous
  | rxStartaddr | rxSize | rxDatasize | rxContinuous
  | txStartaddr | txSize | txDatasize | txContinuous
  deriving DecidableEq, Repr

namespace SpimField

/-- The value of a register. -/
def valueIn (regIf : SpimRegIf aWidth transSize) : SpimField → Nat
  | .cmdStartaddr => regIf.cmd.startaddr.toNat
  | .cmdSize => regIf.cmd.size.toNat
  | .cmdContinuous => regIf.cmd.continuous.toNat
  | .rxStartaddr => regIf.rx.startaddr.toNat
  | .rxSize => regIf.rx.size.toNat
  | .rxDatasize => regIf.rx.datasize.toNat
  | .rxContinuous => regIf.rx.continuous.toNat
  | .txStartaddr => regIf.tx.startaddr.toNat
  | .txSize => regIf.tx.size.toNat
  | .txDatasize => regIf.tx.datasize.toNat
  | .txContinuous => regIf.tx.continuous.toNat

end SpimField

/-- The registers that an access addresses. -/
def SpimAccess.addresses : SpimAccess → List SpimField
  | .write .cmdSaddr _ => [.cmdStartaddr]
  | .write .cmdSize _ => [.cmdSize]
  | .write .cmdCfg _ => [.cmdContinuous]
  | .write .rxSaddr _ => [.rxStartaddr]
  | .write .rxSize _ => [.rxSize]
  | .write .rxCfg _ => [.rxDatasize, .rxContinuous]
  | .write .txSaddr _ => [.txStartaddr]
  | .write .txSize _ => [.txSize]
  | .write .txCfg _ => [.txDatasize, .txContinuous]
  | .write .status _ => []
  | .uca word => if cmdDecodeTxrxn word then [.txStartaddr] else [.rxStartaddr]
  | .ucs word =>
      if cmdDecodeTxrxn word then [.txSize, .txDatasize] else [.rxSize, .rxDatasize]

/-- A write and a setup command are accepted in the same cycle, and the write addresses a
register that the command does not set. -/
def SpimRegInput.Collides (input : SpimRegInput aWidth transSize) : Prop :=
  ∃ write ∈ input.acceptedWrite, ∃ setup ∈ input.acceptedSetup,
    ∃ field ∈ write.addresses, field ∉ setup.addresses

variable (aWidth transSize) in
/-- What an access stores in a register that it addresses. -/
def SpimAccess.stores (access : SpimAccess) (field : SpimField) : Nat :=
  field.valueIn ((SpimRegIf.reset : SpimRegIf aWidth transSize).perform access)

variable (aWidth transSize) in
/-- The value of the latest access of a log that addresses a register, or the one of reset. -/
def latestValue (log : List SpimAccess) (field : SpimField) : Nat :=
  match (log.filter (field ∈ ·.addresses)).getLast? with
  | some access => access.stores aWidth transSize field
  | none => field.valueIn (SpimRegIf.reset : SpimRegIf aWidth transSize)

/-- No access is lost along a run: every one takes effect in full in its cycle, those of one
cycle in any order, and every register holds the value of the latest one that addresses it. -/
structure NoAccessLost (inputs : List (SpimRegInput aWidth transSize)) : Prop where
  inFull : (spimRegIf aWidth transSize).Always (fun regIf input =>
    ∃ order : List SpimAccess, order.Perm input.accesses ∧
      regIf.step input = order.foldl SpimRegIf.perform regIf.quiet) inputs
  latest : ∃ orders : List (List SpimAccess),
    List.Forall₂ (fun (input : SpimRegInput aWidth transSize) order =>
      order.Perm input.accesses) inputs orders ∧
    ∀ field, SpimField.valueIn ((spimRegIf aWidth transSize).run inputs) field =
      latestValue aWidth transSize orders.flatten field

section Cycle

variable {regIf : SpimRegIf aWidth transSize} {input : SpimRegInput aWidth transSize}

theorem valueIn_perform (access : SpimAccess) (field : SpimField) :
    field.valueIn (regIf.perform access) =
      if field ∈ access.addresses then access.stores aWidth transSize field
      else field.valueIn regIf := by
  cases access with
  | write reg data => cases reg <;> cases field <;> rfl
  | uca word =>
      cases txrxn : cmdDecodeTxrxn word <;> cases field <;>
        simp [SpimAccess.addresses, SpimAccess.stores, SpimRegIf.perform, SpimRegIf.setupUca,
          SpimField.valueIn, SpimChannel.setupUca, txrxn]
  | ucs word =>
      cases txrxn : cmdDecodeTxrxn word <;> cases field <;>
        simp [SpimAccess.addresses, SpimAccess.stores, SpimRegIf.perform, SpimRegIf.setupUcs,
          SpimField.valueIn, SpimChannel.setupUcs, txrxn]

theorem valueIn_quiet (field : SpimField) : field.valueIn regIf.quiet = field.valueIn regIf := by
  cases field <;> rfl

/-- A setup command that sets all registers of a write leaves nothing of it. -/
theorem perform_write {reg : SpimReg} {data : BitVec 32} {setup : SpimAccess}
    (accepted : setup ∈ input.acceptedSetup)
    (sets : ∀ field ∈ (SpimAccess.write reg data).addresses, field ∈ setup.addresses) :
    (regIf.write reg data).perform setup = regIf.perform setup := by
  cases setup with
  | write reg data =>
      unfold SpimRegInput.acceptedSetup at accepted
      split at accepted <;> cases accepted
  | uca word =>
      cases txrxn : cmdDecodeTxrxn word <;> cases reg <;>
        simp [SpimAccess.addresses, SpimRegIf.perform, SpimRegIf.setupUca, SpimRegIf.write,
          SpimChannel.setupUca, txrxn] at sets ⊢
  | ucs word =>
      cases txrxn : cmdDecodeTxrxn word <;> cases reg <;>
        simp [SpimAccess.addresses, SpimRegIf.perform, SpimRegIf.setupUcs, SpimRegIf.write,
          SpimChannel.setupUcs, txrxn] at sets ⊢

theorem step_of_setup {setup : SpimAccess} (accepted : setup ∈ input.acceptedSetup) :
    regIf.step input = regIf.quiet.perform setup := by
  unfold SpimRegInput.acceptedSetup at accepted
  unfold SpimRegIf.step
  split at accepted <;> cases accepted
  · rfl
  · rfl

theorem step_of_noSetup (noSetup : input.acceptedSetup = none) :
    regIf.step input = input.acceptedWrite.toList.foldl SpimRegIf.perform regIf.quiet := by
  unfold SpimRegInput.acceptedSetup at noSetup
  unfold SpimRegIf.step SpimRegInput.acceptedWrite
  split at noSetup
  · cases noSetup
  · cases noSetup
  · cases input.written <;> rfl

/-- The accesses of a cycle without a collision take effect. -/
theorem step_eq_perform (apart : ¬input.Collides) :
    regIf.step input = input.accesses.foldl SpimRegIf.perform regIf.quiet := by
  unfold SpimRegInput.accesses
  rw [List.foldl_append]
  cases setup : input.acceptedSetup with
  | none => exact step_of_noSetup setup
  | some setup' =>
      rw [step_of_setup setup]
      cases write : input.acceptedWrite with
      | none => rfl
      | some write' =>
          have sets : ∀ field ∈ write'.addresses, field ∈ setup'.addresses := by
            intro field addressed
            by_contra missing
            exact apart ⟨write', write, setup', setup, field, addressed, missing⟩
          cases write' with
          | write reg data => exact (perform_write setup sets).symm
          | uca word => simp [SpimRegInput.acceptedWrite] at write
          | ucs word => simp [SpimRegInput.acceptedWrite] at write

end Cycle

theorem latestValue_snoc (log : List SpimAccess) (access : SpimAccess) (field : SpimField) :
    latestValue aWidth transSize (log ++ [access]) field =
      if field ∈ access.addresses then access.stores aWidth transSize field
      else latestValue aWidth transSize log field := by
  unfold latestValue
  rw [List.filter_append]
  by_cases addressed : field ∈ access.addresses
  · simp [addressed]
  · simp [addressed]

/-- The registers after the accesses of a cycle. -/
theorem valueIn_foldl {regIf : SpimRegIf aWidth transSize} {log : List SpimAccess}
    (holds : ∀ field, SpimField.valueIn regIf field = latestValue aWidth transSize log field)
    (order : List SpimAccess) (field : SpimField) :
    SpimField.valueIn (order.foldl SpimRegIf.perform regIf) field =
      latestValue aWidth transSize (log ++ order) field := by
  induction order generalizing regIf log with
  | nil => simpa using holds field
  | cons access order inductionHypothesis =>
      rw [List.foldl_cons, List.append_cons]
      refine inductionHypothesis fun field => ?_
      rw [valueIn_perform, latestValue_snoc, holds field]

/-- In every run in which no write is accepted together with a setup command that leaves one of
its registers alone, no access is lost. -/
theorem noAccessLost (inputs : List (SpimRegInput aWidth transSize))
    (apart : ∀ input ∈ inputs, ¬input.Collides) : NoAccessLost inputs where
  inFull := by
    induction inputs using List.reverseRecOn with
    | nil => trivial
    | append_singleton inputs input inductionHypothesis =>
        rw [Machine.always_snoc]
        refine ⟨inductionHypothesis fun other member =>
          apart other (List.mem_append_left _ member), _, .refl _, ?_⟩
        exact step_eq_perform (apart input (by simp))
  latest := by
    refine ⟨inputs.map SpimRegInput.accesses, ?_, ?_⟩
    · rw [List.forall₂_map_right_iff, List.forall₂_same]
      exact fun input _ => .refl _
    · induction inputs using List.reverseRecOn with
      | nil => exact fun field => rfl
      | append_singleton inputs input inductionHypothesis =>
          intro field
          rw [Machine.run_snoc, List.map_append, List.flatten_append]
          change SpimField.valueIn (SpimRegIf.step _ input) field = _
          rw [step_eq_perform (apart input (by simp))]
          simp only [List.map_cons, List.map_nil, List.flatten_cons, List.flatten_nil,
            List.append_nil]
          refine valueIn_foldl (fun field => ?_) _ field
          rw [valueIn_quiet]
          exact inductionHypothesis (fun other member =>
            apart other (List.mem_append_left _ member)) field

/-- A cycle with a write of the configuration bus and a command of the stream. -/
def busAndCommand (cfgAddr : BitVec 5) (cfgData udmaCmd : BitVec 32) : SpimRegInput 19 16 where
  cfg := { cfgValid := true, cfgRwn := false, cfgAddr, cfgData }
  cmd := ⟨false, false, 0, 0⟩
  rx := ⟨false, false, 0, 0⟩
  tx := ⟨false, false, 0, 0⟩
  status := 0
  udmaCmd
  udmaCmdValid := true
  udmaCmdReady := true

/-- A write of `REG_RX_SIZE` with a `SETUP_UCA` for the transmit channel. -/
def writeWithSetup : SpimRegInput 19 16 := busAndCommand 1 64 0xD8001000

/-- The size of the receive channel is not written. -/
theorem writeWithSetup_lost : ¬NoAccessLost [writeWithSetup] := by
  intro noneLost
  obtain ⟨⟨order, perm, stepped⟩, -⟩ := noneLost.inFull
  have addressing : order.filter (.rxSize ∈ ·.addresses) = [.write .rxSize 64] :=
    List.perm_singleton.mp ((perm.filter _).trans (.of_eq (by decide)))
  have stored : SpimField.valueIn (order.foldl SpimRegIf.perform SpimRegIf.reset.quiet) .rxSize =
      latestValue 19 16 ([] ++ order) .rxSize :=
    valueIn_foldl (fun field => valueIn_quiet field) order .rxSize
  rw [List.nil_append, latestValue, addressing] at stored
  have dropped : SpimField.valueIn (SpimRegIf.reset.step writeWithSetup) .rxSize = 0 := by decide
  rw [show SpimRegIf.reset.step writeWithSetup = _ from stepped] at dropped
  exact absurd (dropped.symm.trans stored) (by decide)

instance {input : SpimRegInput aWidth transSize} : Decidable input.Collides :=
  decidable_of_iff (input.acceptedWrite.any fun write => input.acceptedSetup.any fun setup =>
    write.addresses.any fun field => !setup.addresses.contains field) (by
      simp [SpimRegInput.Collides, Option.any_eq_true])

/-- A write, a setup command, and a write that the command of its cycle overwrites. -/
theorem setupsApart_noAccessLost :
    NoAccessLost [{ writeWithSetup with udmaCmdValid := false },
      busAndCommand 8 64 0x20000000, busAndCommand 4 64 0xD8001000] :=
  noAccessLost _ (by decide)

end CoreVMcu.Spi
