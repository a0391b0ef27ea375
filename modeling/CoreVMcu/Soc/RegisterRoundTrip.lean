import CoreVMcu.Soc.RegisterMap

/-!
# Control registers return what was written

A register keeps what was written to it until an access reaches it again or resets it, in
every run of accesses and whatever the other inputs do.
-/

namespace CoreVMcu.Soc

open Clocked Apb

/-- The data of a read is the data of a write, reduced to the bits that the register has.
`REG_WCFGFUN` has the settings of a pad only where there is one, `REG_RCFGFUN` is written in
its pointer and `REG_JTAGREG` in its low byte. -/
def ReadsBack (data rdata : BitVec 32) : CtrlTarget → Prop
  | .pad _ => rdata = 0#18 ++ data.extractLsb' 8 6 ++ 0#6 ++ data.extractLsb' 0 2
  | .reg .wcfgfun =>
      rdata.extractLsb' 0 6 = data.extractLsb' 0 6 ∧
        ((data.extractLsb' 0 6).toNat < nIo →
          rdata = 0#2 ++ data.extractLsb' 24 6 ++ 0#6 ++ data.extractLsb' 16 2 ++ 0#10 ++
            data.extractLsb' 0 6)
  | .reg .rcfgfun => rdata.extractLsb' 0 6 = data.extractLsb' 0 6
  | .reg .fcBoot | .reg .efpgaControl => rdata = data
  | .reg .fcFetch | .reg .softReset => rdata = (data.extractLsb' 0 1).setWidth 32
  | .reg .jtagReg =>
      rdata.extractLsb' 16 16 = 0 ∧ rdata.extractLsb' 0 8 = data.extractLsb' 0 8
  | .reg .wdCount => rdata = (data.extractLsb' 0 31).setWidth 32
  | .reg .wdControl => data.getLsbD 31 = true → rdata.getLsbD 31 = true
  | .reg .rtoPeripheral => rdata = (data.extractLsb' 0 11).setWidth 32
  | .reg .rtoCount => rdata = (data.extractLsb' 4 16 ++ 0xf#4).setWidth 32
  | .reg .resetType1Efpga => rdata = (data.extractLsb' 0 4).setWidth 32
  | .reg .enableInOutEfpga => rdata = (data.extractLsb' 0 6).setWidth 32
  | .reg .info | .reg .buildDate | .reg .buildTime | .reg .bootsel | .reg .clksel
  | .reg .resetReason | .reg .efpgaStatus | .reg .efpgaVersion => True

/-- A write of a register that was accepted without an error and a later read of it, with
accesses in between of which none disturbs the register. -/
def ReadAfterWrite (disturbs : CtrlAccess → CtrlTarget → Bool) (answers : List CtrlAnswer)
    (target : CtrlTarget) (before : List CtrlAnswer) (write read : CtrlAnswer) : Prop :=
  ∃ between after, answers = before ++ write :: (between ++ read :: after) ∧
    write.access.write = true ∧ targetOf write.access.addr = some target ∧ write.err = false ∧
    (∀ other ∈ between, disturbs other.access target = false) ∧
    read.access.write = false ∧ targetOf read.access.addr = some target

/-- A write that is taking place changes what can be read only at the addresses that it
disturbs: elsewhere the same data and error are read as if no access took place. -/
def LeavesOthers (disturbs : CtrlAccess → CtrlTarget → Bool) (params : SocCtrlParams)
    (system : CtrlSystem) : Prop :=
  ∀ access (pins later : SocCtrlPins) refClk resting paddr,
    system.phase = .enable access → system.slave.apbFsm = .write →
    (∀ target, targetOf paddr = some target → disturbs access target = false) →
    let written := atEdge params system.slave pins refClk (enabled access)
    let untouched := atEdge params { system.slave with apbFsm := .idle } pins refClk
      { psel := false, penable := false, access := resting }
    written.readData params later paddr = untouched.readData params later paddr ∧
      written.readErr params later paddr = untouched.readErr params later paddr

/-- What is claimed of a run: every register returns what was written, and a write leaves the
other registers as they are. -/
def RegistersRoundTrip (params : SocCtrlParams) (system : CtrlSystem) : Prop :=
  (∀ target before write read,
      ReadAfterWrite reaches system.done target before write read →
        read.err = false ∧ ReadsBack write.access.data read.rdata target) ∧
    LeavesOthers reaches params system

/-- An access that a register does not survive: one that reaches it, or a soft reset. -/
def disturbs (access : CtrlAccess) (target : CtrlTarget) : Bool :=
  reaches access target || resets access target

/-- A write that enables the watchdog. -/
def enablesWatchdog (access : CtrlAccess) : Bool :=
  access.write && targetOf access.addr == some (.reg .wdControl) && access.data.getLsbD 31

/-- The registers that remember what is written: `RTO_PERIPHERAL` is cleared by every write,
`SOFT_RESET` is a strobe and `REG_WD_COUNT` is locked once the watchdog is enabled. -/
def Remembers (before : List CtrlAnswer) : CtrlTarget → Prop
  | .reg .rtoPeripheral | .reg .softReset => False
  | .reg .wdCount => ∀ answer ∈ before, enablesWatchdog answer.access = false
  | _ => True

/-! ## A register remembers -/

section Remembers

variable (params : SocCtrlParams)

/-- Every read of a register shows some data that was written to it. -/
def Kept (regs : CtrlRegs) (data : BitVec 32) (target : CtrlTarget) : Prop :=
  ∀ (ctrl : ApbSocCtrl) (pins : SocCtrlPins) (paddr : BitVec 12), ctrl.regs = regs →
    targetOf paddr = some target → ReadsBack data (ctrl.readData params pins paddr) target

variable {params} {regs : CtrlRegs} {access : CtrlAccess} {target : CtrlTarget}

theorem Kept.serve {data : BitVec 32} (kept : Kept params regs data target)
    (undisturbed : disturbs access target = false) :
    Kept params (regs.serve access) data target := by
  intro ctrl pins paddr same names
  have before := kept (ctrl.withRegs regs) pins paddr rfl names
  have untouched : ∀ found, targetOf paddr = some found →
      reaches access found = false ∧ resets access found = false := by
    intro found named
    rw [names] at named
    cases named
    exact Bool.or_eq_false_iff.mp undisturbed
  rw [← readData_serve params (ctrl.withRegs regs) pins untouched] at before
  have again : (ctrl.withRegs regs).withRegs ((ctrl.withRegs regs).regs.serve access) = ctrl := by
    rcases ctrl with ⟨_⟩
    cases same
    rfl
  rwa [again] at before

theorem lowBits_append {width rest : Nat} (high : BitVec rest) (low : BitVec width) :
    (high ++ low).extractLsb' 0 width = low := by
  rw [BitVec.extractLsb'_append_eq_of_add_le (Nat.le_of_eq (Nat.zero_add width)),
    BitVec.extractLsb'_eq_self]

theorem upperHalf_append (middle low : BitVec 8) :
    (0#16 ++ middle ++ low).extractLsb' 16 16 = 0 := by
  rw [BitVec.extractLsb'_append_eq_of_le (Nat.le_add_left 8 8),
    BitVec.extractLsb'_append_eq_of_le (Nat.le_refl 8)]
  exact BitVec.extractLsb'_eq_self

theorem ofBool_lowBit (data : BitVec 32) :
    BitVec.ofBool (data.getLsbD 0) = data.extractLsb' 0 1 := by
  ext i inside
  cases Nat.lt_one_iff.mp inside
  simp

variable (params) in
/-- What a register shows after a write to it. -/
theorem readsBack_writeReg (ctrl : ApbSocCtrl) (pins : SocCtrlPins) {reg : SocReg}
    {data : BitVec 32} (same : ctrl.regs = (regs.writeReg data reg).getD regs)
    (strobe : CtrlTarget.reg reg ≠ .reg .rtoPeripheral ∧ CtrlTarget.reg reg ≠ .reg .softReset)
    (unlocked : CtrlTarget.reg reg = .reg .wdCount → regs.wdEnabled = false) :
    ReadsBack data ((ctrl.readReg params pins reg).getD 0xDEADBEEF) (.reg reg) := by
  cases reg with
  | info | buildDate | buildTime | bootsel | clksel | resetReason | efpgaStatus
  | efpgaVersion => trivial
  | rtoPeripheral => exact absurd rfl strobe.1
  | softReset => exact absurd rfl strobe.2
  | fcBoot | rtoCount | resetType1Efpga | enableInOutEfpga | efpgaControl =>
      rw [ApbSocCtrl.readReg, same]
      rfl
  | fcFetch =>
      rw [ApbSocCtrl.readReg, same]
      exact congrArg (BitVec.setWidth 32) (ofBool_lowBit data)
  | wcfgfun =>
      rw [ApbSocCtrl.readReg, ApbSocCtrl.cfgfunData, ApbSocCtrl.padAt, same]
      refine ⟨lowBits_append _ _, ?_⟩
      intro there
      simp only [CtrlRegs.writeReg, CtrlRegs.writePad, Option.getD_some,
        Vector.getElem?_setIfInBounds_self_of_lt there]
  | rcfgfun =>
      rw [ApbSocCtrl.readReg, ApbSocCtrl.cfgfunData, same]
      exact lowBits_append _ _
  | jtagReg =>
      rw [ApbSocCtrl.readReg, same]
      exact ⟨upperHalf_append _ _, lowBits_append _ _⟩
  | wdCount =>
      rw [ApbSocCtrl.readReg, same]
      simp only [CtrlRegs.writeReg, unlocked rfl, Bool.false_eq_true, if_false, Option.getD_some]
      rw [ReadsBack, BitVec.setWidth_eq_append (Nat.le_succ 31)]
      rfl
  | wdControl =>
      rw [ApbSocCtrl.readReg, same]
      intro enables
      simp only [CtrlRegs.writeReg, Option.getD_some, enables, Bool.true_or]
      exact BitVec.getLsbD_append

/-- A write to a register that remembers. -/
theorem kept_write (isWrite : access.write = true) (names : targetOf access.addr = some target)
    (strobe : target ≠ .reg .rtoPeripheral ∧ target ≠ .reg .softReset)
    (unlocked : target = .reg .wdCount → regs.wdEnabled = false) :
    Kept params (regs.serve access) access.data target := by
  intro ctrl pins paddr same named
  cases target with
  | pad index =>
      rw [readData_pad params ctrl pins named, ApbSocCtrl.padAt, same,
        serve_pad regs isWrite names]
      simp [CtrlRegs.writePad, ReadsBack]
  | reg reg =>
      rw [readData_reg params ctrl pins named]
      rw [serve_reg regs isWrite names] at same
      exact readsBack_writeReg params ctrl pins same strobe unlocked

/-- The watchdog is enabled by the writes that do so, and stays enabled. -/
theorem serve_wdEnabled (regs : CtrlRegs) (access : CtrlAccess) :
    (regs.serve access).wdEnabled = (enablesWatchdog access || regs.wdEnabled) := by
  rw [enablesWatchdog]
  cases direction : access.write with
  | false =>
      obtain ⟨pointer, moved⟩ := afterRead_pads regs access.addr
      rw [serve_read _ direction, moved]
      rfl
  | true =>
      cases names : targetOf access.addr with
      | none =>
          rw [serve_nothing _ direction names]
          rfl
      | some target =>
          cases target with
          | pad index =>
              rw [serve_pad _ direction names]
              rfl
          | reg reg =>
              rw [serve_reg _ direction names]
              cases reg <;> rfl

theorem regsAfter_wdEnabled {answers : List CtrlAnswer}
    (never : ∀ answer ∈ answers, enablesWatchdog answer.access = false) :
    (regsAfter answers).wdEnabled = false := by
  induction answers using List.reverseRecOn with
  | nil => rfl
  | append_singleton answers answer inductionHypothesis =>
      rw [regsAfter_snoc, serve_wdEnabled, never answer (by simp), Bool.false_or]
      exact inductionHypothesis fun earlier member => never earlier (List.mem_append_left _ member)

/-- The registers after a write to one of them and accesses that do not disturb it. -/
theorem kept_regsAfter {before between : List CtrlAnswer} {write : CtrlAnswer}
    (isWrite : write.access.write = true) (names : targetOf write.access.addr = some target)
    (remembers : Remembers before target)
    (undisturbed : ∀ other ∈ between, disturbs other.access target = false) :
    Kept params (regsAfter (before ++ write :: between)) write.access.data target := by
  induction between using List.reverseRecOn with
  | nil =>
      have strobe : target ≠ .reg .rtoPeripheral ∧ target ≠ .reg .softReset := by
        constructor <;> rintro rfl <;> exact remembers
      have unlocked : target = .reg .wdCount → (regsAfter before).wdEnabled = false := by
        rintro rfl
        exact regsAfter_wdEnabled remembers
      rw [regsAfter_snoc]
      exact kept_write isWrite names strobe unlocked
  | append_singleton between other inductionHypothesis =>
      rw [← List.cons_append, ← List.append_assoc, regsAfter_snoc]
      apply Kept.serve
      · exact inductionHypothesis fun earlier member =>
          undisturbed earlier (List.mem_append_left _ member)
      · exact undisturbed other (by simp)

/-- A register that remembers returns what was written. -/
theorem ReadAfterWrite.readsBack {dmactive bootsel : Bool}
    {instants : List (Instant SocCtrlEnv 12 32)} {before : List CtrlAnswer}
    {write read : CtrlAnswer}
    (readAfter : ReadAfterWrite disturbs
      ((socCtrlMachine params dmactive bootsel).run instants).done target before write read)
    (remembers : Remembers before target) :
    ReadsBack write.access.data read.rdata target ∧
      ∀ reg, target = .reg reg → read.err = false := by
  obtain ⟨between, after, split, isWrite, names, -, undisturbed, isRead, named⟩ := readAfter
  rw [← List.cons_append, ← List.append_assoc] at split
  obtain ⟨state, regs, right⟩ := done_right instants split
  have kept : Kept params (regsAfter (before ++ write :: between)) write.access.data target :=
    kept_regsAfter isWrite names remembers undisturbed
  rw [RightAnswer, isRead] at right
  obtain ⟨pins, rdata, err⟩ := right
  refine ⟨rdata ▸ kept state pins read.access.addr regs named, ?_⟩
  rintro reg rfl
  rw [err, readErr_eq, (targetOf_reg named).1]
  cases reg with
  | softReset => exact absurd remembers id
  | _ => rfl

end Remembers

/-! ## A write leaves the other registers as they are -/

section Others

variable (params : SocCtrlParams) (pins : SocCtrlPins) {paddr : BitVec 12}

/-- What can be read follows the registers and what the other inputs left. -/
theorem readData_congr {left right : ApbSocCtrl} (regs : left.regs = right.regs)
    (sync : left.rJtagRegiSync0 = right.rJtagRegiSync0) (boot : left.rBootsel = right.rBootsel)
    (watchdog : left.watchdog = right.watchdog) (reason : left.resetReason = right.resetReason)
    (periph : targetOf paddr = some (.reg .rtoPeripheral) →
      left.periphRtoReg = right.periphRtoReg) :
    left.readData params pins paddr = right.readData params pins paddr := by
  cases names : targetOf paddr with
  | none => rw [readData_nothing params left pins names, readData_nothing params right pins names]
  | some target =>
      cases target with
      | pad index =>
          rw [readData_pad params left pins names, readData_pad params right pins names]
          simp only [ApbSocCtrl.padAt, regs]
      | reg reg =>
          rw [readData_reg params left pins names, readData_reg params right pins names]
          cases reg with
          | rtoPeripheral => rw [ApbSocCtrl.readReg, ApbSocCtrl.readReg, periph names]
          | _ =>
              simp only [ApbSocCtrl.readReg, ApbSocCtrl.cfgfunData, ApbSocCtrl.padAt, regs, sync,
                boot, watchdog, reason]

/-- What an edge leaves of what is read beside the registers of the accesses. -/
theorem atEdge_write_fields {ctrl : ApbSocCtrl} (fsm : ctrl.apbFsm = .write)
    (access resting : CtrlAccess) (refClk : Option Bool) :
    let written := atEdge params ctrl pins refClk (enabled access)
    let untouched := atEdge params { ctrl with apbFsm := .idle } pins refClk
      { psel := false, penable := false, access := resting }
    written.rJtagRegiSync0 = untouched.rJtagRegiSync0 ∧ written.rBootsel = untouched.rBootsel ∧
      written.watchdog = untouched.watchdog ∧ written.resetReason = untouched.resetReason ∧
      (socReg? access.addr ≠ some .rtoPeripheral → socReg? access.addr ≠ some .softReset →
        written.periphRtoReg = untouched.periphRtoReg) := by
  intro written untouched
  have same : ctrl.hclkStep params (pins.withLines (enabled access)) =
      ctrl.doWrite (pins.withLines (enabled access)) := by
    rw [ApbSocCtrl.hclkStep, fsm]
  refine ⟨?_, ?_, rfl, ?_, ?_⟩
  · change (ctrl.hclkStep params _).rJtagRegiSync0 = _
    rw [same]
    rfl
  · change (ctrl.hclkStep params _).rBootsel = _
    rw [same]
    rfl
  · change (if _ then _ else if (ctrl.hclkStep params _).resetReasonClear then _ else _) = _
    rw [same]
    rfl
  · intro notPeripheral notReset
    change (ctrl.hclkStep params _).periphRtoReg = _
    rw [same]
    simp only [ApbSocCtrl.doWrite]
    split
    · next label => exact absurd label notPeripheral
    · next label => exact absurd label notReset
    · rfl

/-- A write leaves the other registers as they are. -/
theorem leavesOthers (system : CtrlSystem) (inStep : InStep system.phase system.slave) :
    LeavesOthers disturbs params system := by
  rcases system with ⟨ctrl, phase, done⟩
  intro access pins later refClk resting paddr presents fsm undisturbed written untouched
  change phase = .enable access at presents
  change ctrl.apbFsm = .write at fsm
  subst presents
  refine ⟨?_, by rw [readErr_eq, readErr_eq]⟩
  cases inStep with
  | waits _ idle | reads _ idle | answers _ idle =>
      have clash := idle.symm.trans fsm
      cases clash
  | writes _ _ _ noErr isWrite =>
      obtain ⟨-, -, regs, -⟩ := atEdge_writes params pins refClk access fsm noErr
      obtain ⟨sync, boot, watchdog, reason, periph⟩ :=
        atEdge_write_fields params pins fsm access resting refClk
      have served : written.regs = untouched.regs.serve access := by
        rw [CtrlRegs.serve, isWrite]
        exact regs
      have untouchedThere : ∀ target, targetOf paddr = some target →
          reaches access target = false ∧ resets access target = false :=
        fun target names => Bool.or_eq_false_iff.mp (undisturbed target names)
      rw [← readData_serve params untouched later untouchedThere]
      refine @readData_congr params later paddr written
        (untouched.withRegs (untouched.regs.serve access)) served sync boot watchdog reason ?_
      intro names
      obtain ⟨unreached, notReset⟩ := untouchedThere _ names
      apply periph
      · intro label
        simp [reaches, isWrite, targetOf_label label] at unreached
      · intro label
        simp [resets, isWrite, targetOf_label label, SocReg.softResets] at notReset

end Others

/-- In every run each access is answered, a register that remembers returns what was written to
it, without an error where it has a label of its own, and a write leaves the registers that it
neither reaches nor resets as they are. -/
theorem socCtrl_roundTrips (params : SocCtrlParams) (dmactive bootsel : Bool)
    (instants : List (Instant SocCtrlEnv 12 32)) :
    let system := (socCtrlMachine params dmactive bootsel).run instants
    (∀ access later, presented system.phase = some access →
        4 ≤ later.countP (fun instant : Instant SocCtrlEnv 12 32 => instant.env.hclk.isSome) →
        ∃ answer : CtrlAnswer, answer.access = access ∧ system.done ++ [answer] <+:
          ((socCtrlMachine params dmactive bootsel).runFrom system later).done) ∧
      (∀ target before write read,
        ReadAfterWrite disturbs system.done target before write read → Remembers before target →
          ReadsBack write.access.data read.rdata target ∧
            ∀ reg, target = .reg reg → read.err = false) ∧
      LeavesOthers disturbs params system := by
  intro system
  obtain ⟨inStep, -⟩ := served_run params dmactive bootsel instants
  refine ⟨?_, ?_, leavesOthers params system inStep⟩
  · intro access later wanted enough
    apply answered_within inStep wanted later
    apply Nat.le_trans _ enough
    cases phase : system.phase with
    | idle => exact Nat.zero_le 4
    | setup access => exact Nat.le_refl 4
    | enable access => cases fsm : system.slave.apbFsm <;> rw [remaining, fsm] <;> decide
  · intro target before write read readAfter remembers
    exact readAfter.readsBack remembers

/-- An edge of `HCLK` with the access that the master wants to begin. -/
def busCycle (request : Option CtrlAccess) : Instant SocCtrlEnv 12 32 where
  env :=
    { hclk := some
        { selFllClk := false, bootsel := false, dmactive := false, statusOut := 0, version := 0
          socJtagReg := 0, startRto := false, peripheralRto := 0, missingPad := (0, 0) }
      refClk := none }
  request := request
  resting := { psel := false, penable := false, access := { write := false, addr := 0, data := 0 } }

/-- The cycles of an access, from its request to its answer. -/
def busAccess (access : CtrlAccess) : List (Instant SocCtrlEnv 12 32) :=
  [busCycle (some access), busCycle none, busCycle none, busCycle none, busCycle none]

def exampleParams : SocCtrlParams := { nCores := 1, nClusters := 0, buildDate := 0, buildTime := 0 }

/-- A write of `EFPGA_CONTROL`, one of the boot address and a read of `EFPGA_CONTROL`. -/
def bootBetween : List (Instant SocCtrlEnv 12 32) :=
  busAccess { write := true, addr := 0xF0, data := 0x12345678 } ++
    (busAccess { write := true, addr := 0x04, data := 0x1C000000 } ++
      busAccess { write := false, addr := 0xF0, data := 0 })

theorem bootBetween_done :
    ((socCtrlMachine exampleParams false false).run bootBetween).done =
      [{ access := { write := true, addr := 0xF0, data := 0x12345678 }, rdata := 0, err := false },
        { access := { write := true, addr := 0x04, data := 0x1C000000 }, rdata := 0, err := false },
        { access := { write := false, addr := 0xF0, data := 0 }, rdata := 0x12345678,
          err := false }] := by
  decide

/-- The first write is answered within its cycles, the read shows its data, and the write leaves the
other registers as they are. -/
theorem bootBetween_roundTrips :
    (∃ answer : CtrlAnswer, answer.access.data = 0x12345678 ∧
        [answer] <+: ((socCtrlMachine exampleParams false false).run (bootBetween.take 5)).done) ∧
      (∃ write read : CtrlAnswer,
        ReadAfterWrite disturbs ((socCtrlMachine exampleParams false false).run bootBetween).done
            (.reg .efpgaControl) [] write read ∧
          read.rdata = 0x12345678 ∧ read.err = false) ∧
      ((socCtrlMachine exampleParams false false).run (bootBetween.take 3)).slave.apbFsm = .write ∧
        LeavesOthers disturbs exampleParams
          ((socCtrlMachine exampleParams false false).run (bootBetween.take 3)) := by
  obtain ⟨answers, -, -⟩ := socCtrl_roundTrips exampleParams false false (bootBetween.take 1)
  obtain ⟨-, readsBack, -⟩ := socCtrl_roundTrips exampleParams false false bootBetween
  obtain ⟨-, -, leaves⟩ := socCtrl_roundTrips exampleParams false false (bootBetween.take 3)
  refine ⟨?_, ?_, by decide, leaves⟩
  · obtain ⟨answer, access, answered⟩ := answers { write := true, addr := 0xF0, data := 0x12345678 }
      ((bootBetween.take 5).drop 1) rfl (by decide)
    exact ⟨answer, congrArg (·.data) access, answered⟩
  · have readAfter : ReadAfterWrite disturbs
        ((socCtrlMachine exampleParams false false).run bootBetween).done (.reg .efpgaControl) []
        { access := { write := true, addr := 0xF0, data := 0x12345678 }, rdata := 0, err := false }
        { access := { write := false, addr := 0xF0, data := 0 }, rdata := 0x12345678,
          err := false } :=
      ⟨[⟨{ write := true, addr := 0x04, data := 0x1C000000 }, 0, false⟩], [], bootBetween_done,
        rfl, rfl, rfl, by decide, rfl, rfl⟩
    obtain ⟨back, noError⟩ := readsBack _ _ _ _ readAfter trivial
    exact ⟨_, _, readAfter, back, noError _ rfl⟩

/-- A write of `EFPGA_CONTROL`, a soft reset and a read of `EFPGA_CONTROL`. -/
def softResetBetween : List (Instant SocCtrlEnv 12 32) :=
  busAccess { write := true, addr := 0xF0, data := 0xFFFFFFFF } ++
    (busAccess { write := true, addr := 0xFC, data := 0 } ++
      busAccess { write := false, addr := 0xF0, data := 0 })

theorem softResetBetween_done :
    ((socCtrlMachine exampleParams false false).run softResetBetween).done =
      [{ access := { write := true, addr := 0xF0, data := 0xFFFFFFFF }, rdata := 0, err := false },
        { access := { write := true, addr := 0xFC, data := 0 }, rdata := 0, err := false },
        { access := { write := false, addr := 0xF0, data := 0 }, rdata := 0, err := false }] := by
  decide

/-- The register was reset by an access to another one. -/
theorem softResetBetween_not_roundTrip :
    ¬RegistersRoundTrip exampleParams
      ((socCtrlMachine exampleParams false false).run softResetBetween) := by
  intro claimed
  obtain ⟨-, back⟩ := claimed.1 (.reg .efpgaControl) [] _ _
    ⟨[{ access := { write := true, addr := 0xFC, data := 0 }, rdata := 0, err := false }], [],
      softResetBetween_done, rfl, rfl, rfl, by decide, rfl, rfl⟩
  have differs : 0#32 = 0xFFFFFFFF#32 := back
  exact absurd differs (by decide)

end CoreVMcu.Soc
