import CoreVMcu.Soc.ControlRegisters

/-!
# The map of the control registers

Every address names at most one register.  An access changes what can be read at the addresses
that it reaches, itself or through a view of the same pad, and at those that it resets.
-/

namespace CoreVMcu.Soc

open Clocked Apb

/-- A register of the address map: one with a label of its own, or the settings of a pad. -/
inductive CtrlTarget where
  | reg (reg : SocReg)
  | pad (index : Fin nIo)
  deriving DecidableEq, Repr

def targetOf (paddr : BitVec 12) : Option CtrlTarget :=
  if there : inPadWindow paddr = true ∧ (padIndex paddr).toNat < nIo then
    some (.pad ⟨(padIndex paddr).toNat, there.2⟩)
  else (socReg? paddr).map .reg

theorem inPadWindow_addr (reg : SocReg) : inPadWindow reg.addr = false := by
  cases reg <;> rfl

/-- The two windows of the pads agree where there are pads. -/
theorem inCfgWindow_eq {paddr : BitVec 12} (inside : (padIndex paddr).toNat < nIo) :
    inCfgWindow paddr = inPadWindow paddr := by
  simp only [padIndex, nIo, BitVec.extractLsb'_toNat, Nat.shiftRight_eq_div_pow] at inside
  rw [inCfgWindow, inPadWindow, Bool.eq_iff_iff, beq_iff_eq, beq_iff_eq, ← BitVec.toNat_inj,
    ← BitVec.toNat_inj]
  simp only [BitVec.extractLsb'_toNat, Nat.shiftRight_eq_div_pow]
  change paddr.toNat / 256 % 16 = 4 ↔ paddr.toNat / 1024 % 4 = 1
  omega

theorem targetOf_reg {paddr : BitVec 12} {reg : SocReg}
    (names : targetOf paddr = some (.reg reg)) :
    socReg? paddr = some reg ∧ inPadWindow paddr = false := by
  rw [targetOf] at names
  split at names
  · cases names
  · have found : socReg? paddr = some reg := by
      cases found : socReg? paddr with
      | none => rw [found] at names; cases names
      | some other => rw [found] at names; cases names; rfl
    refine ⟨found, ?_⟩
    rw [← addr_of_socReg? found]
    exact inPadWindow_addr reg

theorem socReg?_inPadWindow {paddr : BitVec 12} (inside : inPadWindow paddr = true) :
    socReg? paddr = none := by
  cases found : socReg? paddr with
  | none => rfl
  | some reg =>
      rw [← addr_of_socReg? found, inPadWindow_addr] at inside
      cases inside

theorem targetOf_label {paddr : BitVec 12} {reg : SocReg} (label : socReg? paddr = some reg) :
    targetOf paddr = some (.reg reg) := by
  have outside : ¬(inPadWindow paddr = true ∧ (padIndex paddr).toNat < nIo) := by
    rintro ⟨inside, -⟩
    rw [socReg?_inPadWindow inside] at label
    cases label
  rw [targetOf, dif_neg outside, label]
  rfl

theorem targetOf_pad {paddr : BitVec 12} {index : Fin nIo}
    (names : targetOf paddr = some (.pad index)) :
    socReg? paddr = none ∧ inPadWindow paddr = true ∧ (padIndex paddr).toNat = index := by
  rw [targetOf] at names
  split at names
  · next there =>
      cases names
      exact ⟨socReg?_inPadWindow there.1, there.1, rfl⟩
  · cases found : socReg? paddr with
    | none => rw [found] at names; cases names
    | some other => rw [found] at names; cases names

theorem targetOf_none {paddr : BitVec 12} (names : targetOf paddr = none) :
    socReg? paddr = none ∧ (inPadWindow paddr = true → ¬(padIndex paddr).toNat < nIo) := by
  rw [targetOf] at names
  split at names
  · cases names
  · next missing =>
      refine ⟨?_, fun inside below => missing ⟨inside, below⟩⟩
      cases found : socReg? paddr with
      | none => rfl
      | some other => rw [found] at names; cases names

/-- The registers that a soft reset is meant to reset, beside those of the pads. -/
def SocReg.softResets : SocReg → Bool
  | .rtoPeripheral | .rtoCount | .resetType1Efpga | .enableInOutEfpga | .efpgaControl => true
  | _ => false

/-- An access that moves the pointer `r_io_pad`: to the pads, or a write to their views. -/
def movesPad (access : CtrlAccess) : Bool :=
  if access.write then
    match targetOf access.addr with
    | some (.pad _) | some (.reg .wcfgfun) | some (.reg .rcfgfun) => true
    | _ => false
  else inPadWindow access.addr

/-- An access to a register itself or through a view of it: a pad is also written through
`REG_WCFGFUN`, and that register and `REG_RCFGFUN` show the pad that `r_io_pad` points to. -/
def reaches (access : CtrlAccess) : CtrlTarget → Bool
  | .pad index =>
      access.write &&
        match targetOf access.addr with
        | some (.pad other) => other == index
        | some (.reg .wcfgfun) => (access.data.extractLsb' 0 6).toNat == index.val
        | _ => false
  | .reg .wcfgfun | .reg .rcfgfun => movesPad access
  | .reg reg => access.write && targetOf access.addr == some (.reg reg)

/-- A soft reset of a register. -/
def resets (access : CtrlAccess) (target : CtrlTarget) : Bool :=
  access.write && targetOf access.addr == some (.reg .softReset) &&
    match target with
    | .pad _ | .reg .wcfgfun | .reg .rcfgfun => true
    | .reg reg => reg.softResets

section Serve

variable (regs : CtrlRegs) {access : CtrlAccess}

theorem serve_reg {reg : SocReg} (isWrite : access.write = true)
    (names : targetOf access.addr = some (.reg reg)) :
    regs.serve access = (regs.writeReg access.data reg).getD regs := by
  rw [CtrlRegs.serve, isWrite, if_pos rfl, CtrlRegs.write, (targetOf_reg names).1]

theorem serve_pad {index : Fin nIo} (isWrite : access.write = true)
    (names : targetOf access.addr = some (.pad index)) :
    regs.serve access =
      { regs.writePad index (access.data.extractLsb' 8 6) (access.data.extractLsb' 0 2) with
        rIoPad := (padIndex access.addr).setWidth 6 } := by
  obtain ⟨noLabel, inside, same⟩ := targetOf_pad names
  have below : (padIndex access.addr).toNat < nIo := same ▸ index.isLt
  rw [CtrlRegs.serve, isWrite, if_pos rfl, CtrlRegs.write, noLabel, inCfgWindow_eq below, inside]
  simp only [if_true, same, if_pos index.isLt, Option.getD_some]

theorem serve_nothing (isWrite : access.write = true) (names : targetOf access.addr = none) :
    regs.serve access = regs := by
  obtain ⟨noLabel, missing⟩ := targetOf_none names
  rw [CtrlRegs.serve, isWrite, if_pos rfl, CtrlRegs.write, noLabel]
  cases window : inCfgWindow access.addr with
  | false => rfl
  | true =>
      cases Nat.lt_or_ge (padIndex access.addr).toNat nIo with
      | inl below =>
          rw [inCfgWindow_eq below] at window
          exact absurd below (missing window)
      | inr past => simp only [if_true, if_neg (Nat.not_lt.mpr past), Option.getD_some]

theorem serve_read (isRead : access.write = false) :
    regs.serve access = regs.afterRead access.addr := by
  rw [CtrlRegs.serve, isRead]
  rfl

end Serve

/-! ## What stays -/

/-- The registers of a state replaced. -/
def ApbSocCtrl.withRegs (ctrl : ApbSocCtrl) (regs : CtrlRegs) : ApbSocCtrl := { ctrl with regs }

/-- The registers that show the pad that `r_io_pad` points to. -/
def SocReg.showsPad : SocReg → Bool
  | .wcfgfun | .rcfgfun => true
  | _ => false

section Stays

variable (params : SocCtrlParams) (ctrl : ApbSocCtrl) (pins : SocCtrlPins)

/-- What a register shows does not follow the pads. -/
theorem readReg_pads {reg : SocReg} (noPad : reg.showsPad = false) (regs : CtrlRegs)
    (pointer : BitVec 6) (padCfg : Vector (BitVec 6) nIo) (rPadmux : Vector (BitVec 2) nIo) :
    (ctrl.withRegs { regs with rIoPad := pointer, padCfg, rPadmux }).readReg params pins reg =
      (ctrl.withRegs regs).readReg params pins reg := by
  cases reg with
  | wcfgfun | rcfgfun => cases noPad
  | _ => rfl

/-- What a register shows follows the writes of its own label and a soft reset. -/
theorem readReg_writeReg {reg written : SocReg} (noPad : reg.showsPad = false)
    (other : written ≠ reg) (noReset : ¬(written = .softReset ∧ reg.softResets = true))
    (regs : CtrlRegs) (pwdata : BitVec 32) :
    (ctrl.withRegs ((regs.writeReg pwdata written).getD regs)).readReg params pins reg =
      (ctrl.withRegs regs).readReg params pins reg := by
  cases written with
  | softReset =>
      cases reg with
      | wcfgfun | rcfgfun => cases noPad
      | rtoPeripheral | rtoCount | resetType1Efpga | enableInOutEfpga | efpgaControl =>
          exact absurd ⟨rfl, rfl⟩ noReset
      | _ => rfl
  | wcfgfun => exact readReg_pads params ctrl pins noPad regs _ _ _
  | rcfgfun => exact readReg_pads params ctrl pins noPad regs _ regs.padCfg regs.rPadmux
  | fcBoot | fcFetch | jtagReg | wdCount | wdControl | rtoCount | resetType1Efpga
  | enableInOutEfpga | efpgaControl =>
      cases reg with
      | wcfgfun | rcfgfun => cases noPad
      | _ => first | exact absurd rfl other | rfl
  | info | buildDate | buildTime | bootsel | clksel | resetReason | rtoPeripheral | efpgaStatus
  | efpgaVersion => rfl

theorem afterRead_pads (regs : CtrlRegs) (paddr : BitVec 12) :
    ∃ pointer, regs.afterRead paddr = { regs with rIoPad := pointer } := by
  rw [CtrlRegs.afterRead]
  split
  · exact ⟨_, rfl⟩
  · exact ⟨regs.rIoPad, rfl⟩

variable {access : CtrlAccess} {reg : SocReg}

/-- What a register shows follows the accesses that name it and those that reset it. -/
theorem readReg_serve (noPad : reg.showsPad = false)
    (unreached : reaches access (.reg reg) = false) (notReset : resets access (.reg reg) = false) :
    (ctrl.withRegs (ctrl.regs.serve access)).readReg params pins reg =
      ctrl.readReg params pins reg := by
  cases direction : access.write with
  | false =>
      obtain ⟨pointer, moved⟩ := afterRead_pads ctrl.regs access.addr
      rw [serve_read _ direction, moved]
      exact readReg_pads params ctrl pins noPad ctrl.regs pointer ctrl.regs.padCfg
        ctrl.regs.rPadmux
  | true =>
      cases names : targetOf access.addr with
      | none =>
          rw [serve_nothing _ direction names]
          rfl
      | some target =>
          cases target with
          | pad index =>
              rw [serve_pad _ direction names]
              exact readReg_pads params ctrl pins noPad ctrl.regs _ _ _
          | reg written =>
              have other : written ≠ reg := by
                rintro rfl
                cases written with
                | wcfgfun | rcfgfun => cases noPad
                | _ => simp [reaches, direction, names] at unreached
              have noReset : ¬(written = .softReset ∧ reg.softResets = true) := by
                rintro ⟨rfl, resetting⟩
                cases reg with
                | wcfgfun | rcfgfun => cases noPad
                | _ => simp [resets, direction, names, resetting] at notReset
              rw [serve_reg _ direction names]
              exact readReg_writeReg params ctrl pins noPad other noReset ctrl.regs access.data

/-- An access that does not move the pointer does not change the settings of a pad either. -/
theorem serve_pads (regs : CtrlRegs) (unmoved : movesPad access = false)
    (notReset : targetOf access.addr = some (.reg .softReset) → access.write = false) :
    (regs.serve access).rIoPad = regs.rIoPad ∧ (regs.serve access).padCfg = regs.padCfg ∧
      (regs.serve access).rPadmux = regs.rPadmux := by
  rw [movesPad] at unmoved
  cases direction : access.write with
  | false =>
      rw [direction] at unmoved
      rw [serve_read _ direction, CtrlRegs.afterRead]
      simp only [Bool.false_eq_true, if_false] at unmoved
      rw [unmoved]
      exact ⟨rfl, rfl, rfl⟩
  | true =>
      rw [direction, if_pos rfl] at unmoved
      cases names : targetOf access.addr with
      | none =>
          rw [serve_nothing _ direction names]
          exact ⟨rfl, rfl, rfl⟩
      | some target =>
          rw [names] at unmoved
          cases target with
          | pad index => cases unmoved
          | reg written =>
              rw [serve_reg _ direction names]
              cases written with
              | wcfgfun | rcfgfun => cases unmoved
              | softReset =>
                  rw [notReset names] at direction
                  cases direction
              | _ => exact ⟨rfl, rfl, rfl⟩

/-- The settings of a pad follow the accesses that name it and a soft reset. -/
theorem serve_padAt {index : Fin nIo} (unreached : reaches access (.pad index) = false)
    (notReset : resets access (.pad index) = false) :
    (ctrl.withRegs (ctrl.regs.serve access)).padAt pins index = ctrl.padAt pins index := by
  rw [reaches] at unreached
  cases direction : access.write with
  | false =>
      obtain ⟨pointer, moved⟩ := afterRead_pads ctrl.regs access.addr
      rw [serve_read _ direction, moved]
      rfl
  | true =>
      rw [direction, Bool.true_and] at unreached
      cases names : targetOf access.addr with
      | none =>
          rw [serve_nothing _ direction names]
          rfl
      | some target =>
          rw [names] at unreached
          cases target with
          | pad other =>
              have apart : other.val ≠ index.val := fun same =>
                beq_eq_false_iff_ne.mp unreached (Fin.ext same)
              rw [serve_pad _ direction names]
              simp only [ApbSocCtrl.padAt, ApbSocCtrl.withRegs, CtrlRegs.writePad,
                Vector.getElem?_setIfInBounds_ne apart]
          | reg written =>
              rw [serve_reg _ direction names]
              cases written with
              | wcfgfun =>
                  have apart := beq_eq_false_iff_ne.mp unreached
                  simp only [ApbSocCtrl.padAt, ApbSocCtrl.withRegs, CtrlRegs.writeReg,
                    CtrlRegs.writePad, Option.getD_some, Vector.getElem?_setIfInBounds_ne apart]
              | softReset => simp [resets, direction, names] at notReset
              | _ => rfl

/-! ## What a read shows -/

theorem readData_reg {paddr : BitVec 12} (names : targetOf paddr = some (.reg reg)) :
    ctrl.readData params pins paddr = (ctrl.readReg params pins reg).getD 0xDEADBEEF := by
  obtain ⟨label, outside⟩ := targetOf_reg names
  rw [ApbSocCtrl.readData, ApbSocCtrl.readCase, label, outside]
  rfl

theorem readData_pad {paddr : BitVec 12} {index : Fin nIo}
    (names : targetOf paddr = some (.pad index)) :
    ctrl.readData params pins paddr =
      0#18 ++ (ctrl.padAt pins index).1 ++ 0#6 ++ (ctrl.padAt pins index).2 := by
  obtain ⟨-, inside, same⟩ := targetOf_pad names
  rw [ApbSocCtrl.readData, inside, same, if_pos rfl, if_pos index.isLt]

theorem readData_nothing {paddr : BitVec 12} (names : targetOf paddr = none) :
    ctrl.readData params pins paddr =
      if inPadWindow paddr then 0x0095BEEF else 0xDEADBEEF := by
  obtain ⟨noLabel, missing⟩ := targetOf_none names
  rw [ApbSocCtrl.readData, ApbSocCtrl.readCase, noLabel]
  cases window : inPadWindow paddr with
  | false => rfl
  | true => rw [if_pos rfl, if_neg (missing window), if_pos rfl]

/-- The error of a read depends on the address only. -/
theorem readErr_eq (paddr : BitVec 12) :
    ctrl.readErr params pins paddr =
      match socReg? paddr with
      | some reg => reg == .softReset
      | none => true := by
  rw [ApbSocCtrl.readErr, ApbSocCtrl.readCase]
  cases socReg? paddr with
  | none => rfl
  | some reg => cases reg <;> rfl

/-- What an access leaves to be read at an address that it neither names nor resets. -/
theorem readData_serve {paddr : BitVec 12}
    (untouched : ∀ target, targetOf paddr = some target →
      reaches access target = false ∧ resets access target = false) :
    (ctrl.withRegs (ctrl.regs.serve access)).readData params pins paddr =
      ctrl.readData params pins paddr := by
  cases names : targetOf paddr with
  | none => rw [readData_nothing params _ pins names, readData_nothing params _ pins names]
  | some target =>
      obtain ⟨unreached, notReset⟩ := untouched target names
      cases target with
      | pad index =>
          rw [readData_pad params _ pins names, readData_pad params _ pins names,
            serve_padAt ctrl pins unreached notReset]
      | reg reg =>
          rw [readData_reg params _ pins names, readData_reg params _ pins names]
          cases shows : reg.showsPad with
          | false => rw [readReg_serve params ctrl pins shows unreached notReset]
          | true =>
              have unmoved : movesPad access = false := by
                cases reg with
                | wcfgfun | rcfgfun => exact unreached
                | _ => cases shows
              have noReset : targetOf access.addr = some (.reg .softReset) →
                  access.write = false := by
                intro soft
                cases direction : access.write with
                | false => rfl
                | true =>
                    cases reg with
                    | wcfgfun | rcfgfun => simp [resets, direction, soft] at notReset
                    | _ => cases shows
              obtain ⟨pointer, padCfg, rPadmux⟩ := serve_pads ctrl.regs unmoved noReset
              have same : (ctrl.withRegs (ctrl.regs.serve access)).cfgfunData pins =
                  ctrl.cfgfunData pins := by
                simp only [ApbSocCtrl.cfgfunData, ApbSocCtrl.padAt, ApbSocCtrl.withRegs, pointer,
                  padCfg, rPadmux]
              cases reg with
              | wcfgfun | rcfgfun => exact congrArg (fun data => (some data).getD _) same
              | _ => cases shows

end Stays

end CoreVMcu.Soc
