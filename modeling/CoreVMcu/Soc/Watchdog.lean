import CoreVMcu.Soc.ApbSocCtrl

/-!
# The watchdog

The counter runs in the domain of the reference clock.  A write on the bus raises `wd_reset`,
which stays up until the bus clock sees that the counter was reloaded.  Both clocks tick as they
like, and the bus carries anything.
-/

namespace CoreVMcu.Soc

open Clocked

/-- `apb_soc_ctrl` after reset. -/
def socCtrl (params : SocCtrlParams) (dmactive bootsel : Bool) :
    Machine ApbSocCtrl SocCtrlEdges where
  init := .reset dmactive bootsel
  step := ApbSocCtrl.step params

namespace ApbSocCtrl

variable (ctrl : ApbSocCtrl) (edges : SocCtrlEdges)

/-- A service of the watchdog is accepted: a write that enables it, or one of the magic value
while it is enabled. -/
def accepts : Bool :=
  match edges.hclk with
  | some input => ctrl.apbFsm == .write && ctrl.reloads input.paddr input.pwdata
  | none => false

/-- The watchdog expires at a tick of the reference clock. -/
def expires : Bool :=
  match edges.refClk with
  | some stoptimer => (ctrl.watchdogStep stoptimer).expired
  | none => false

variable {ctrl edges}

theorem write_locked {regs next : CtrlRegs} {paddr : BitVec 12} {pwdata : BitVec 32}
    (written : regs.write paddr pwdata = some next) (enabled : regs.wdEnabled = true) :
    next.wdEnabled = true ∧ next.wdCount = regs.wdCount := by
  unfold CtrlRegs.write at written
  cases found : socReg? paddr with
  | none =>
      simp only [found] at written
      split at written
      · cases written
        split
        · exact ⟨enabled, rfl⟩
        · exact ⟨enabled, rfl⟩
      · cases written
  | some reg =>
      simp only [found] at written
      cases reg <;> cases written <;> simp [enabled, CtrlRegs.writePad, CtrlRegs.softReset]

/-- Once the watchdog is enabled, no access disables it or changes its count. -/
theorem step_locked (params : SocCtrlParams) (edges : SocCtrlEdges)
    (enabled : ctrl.regs.wdEnabled = true) :
    (ctrl.step params edges).regs.wdEnabled = true ∧
      (ctrl.step params edges).regs.wdCount = ctrl.regs.wdCount := by
  unfold ApbSocCtrl.step
  cases edges.hclk with
  | none => exact ⟨enabled, rfl⟩
  | some input =>
      simp only [hclkStep]
      cases ctrl.apbFsm with
      | wait => exact ⟨enabled, rfl⟩
      | idle => exact ⟨enabled, rfl⟩
      | read =>
          simp only [doRead, CtrlRegs.afterRead]
          split
          · exact ⟨enabled, rfl⟩
          · exact ⟨enabled, rfl⟩
      | write =>
          simp only [doWrite]
          cases written : ctrl.regs.write input.paddr input.pwdata with
          | none => exact ⟨enabled, rfl⟩
          | some next => exact write_locked written enabled

/-- An accepted service finds the watchdog enabled or enables it. -/
theorem step_accepts (params : SocCtrlParams) (accepted : ctrl.accepts edges = true) :
    (ctrl.step params edges).regs.wdEnabled = true ∧
      (ctrl.step params edges).regs.wdCount = ctrl.regs.wdCount := by
  unfold accepts at accepted
  cases hclk : edges.hclk with
  | none => simp [hclk] at accepted
  | some input =>
      simp only [hclk, Bool.and_eq_true, beq_iff_eq, reloads] at accepted
      obtain ⟨fsm, control, reloading⟩ := accepted
      have written : ctrl.regs.write input.paddr input.pwdata = some
          { ctrl.regs with wdEnabled := input.pwdata.getLsbD 31 || ctrl.regs.wdEnabled } := by
        simp [CtrlRegs.write, control, CtrlRegs.writeReg]
      simp only [ApbSocCtrl.step, hclk, hclkStep, fsm, doWrite, written, Option.getD_some]
      refine ⟨?_, trivial⟩
      simp only [Bool.or_eq_true, Bool.and_eq_true] at reloading ⊢
      exact reloading.imp_right And.left

/-- `wd_reset` is raised by a service and cleared by an edge of the bus clock that sees
`wd_cleared`. -/
theorem step_wdReset (params : SocCtrlParams) : (ctrl.step params edges).wdReset =
    if edges.hclk.isSome then
      ctrl.accepts edges || (ctrl.wdReset && !ctrl.watchdog.cleared)
    else ctrl.wdReset := by
  unfold ApbSocCtrl.step accepts
  cases edges.hclk with
  | none => rfl
  | some input =>
      simp only [hclkStep]
      cases ctrl.apbFsm <;> simp [tick, doWrite, doRead]

/-- Only an accepted service enables the watchdog. -/
theorem accepts_of_enables {params : SocCtrlParams} (disabled : ctrl.regs.wdEnabled = false)
    (enables : (ctrl.step params edges).regs.wdEnabled = true) : ctrl.accepts edges = true := by
  unfold ApbSocCtrl.step at enables
  unfold accepts
  cases hclk : edges.hclk with
  | none => simp [hclk, disabled] at enables
  | some input =>
      simp only [hclk, hclkStep] at enables ⊢
      cases fsm : ctrl.apbFsm with
      | wait => simp [fsm, tick, disabled] at enables
      | idle => simp [fsm, tick, disabled] at enables
      | read =>
          simp only [fsm, doRead, CtrlRegs.afterRead] at enables
          split at enables <;> simp [disabled] at enables
      | write =>
          simp only [fsm, doWrite, CtrlRegs.write] at enables
          cases found : socReg? input.paddr with
          | none =>
              simp only [found] at enables
              split at enables
              · split at enables <;> simp [CtrlRegs.writePad, disabled] at enables
              · simp [disabled] at enables
          | some reg =>
              cases reg <;> simp [found, CtrlRegs.writeReg, CtrlRegs.writePad, CtrlRegs.softReset,
                disabled] at enables
              simp [reloads, found, enables]

theorem wdReset_of_accepts (params : SocCtrlParams) (accepted : ctrl.accepts edges = true) :
    (ctrl.step params edges).wdReset = true := by
  rw [step_wdReset, accepted]
  unfold accepts at accepted
  cases hclk : edges.hclk with
  | none => simp [hclk] at accepted
  | some input => rfl

theorem enabled_of_expires (expires : ctrl.expires edges = true) :
    ctrl.regs.wdEnabled = true := by
  unfold ApbSocCtrl.expires at expires
  cases refClk : edges.refClk with
  | none => simp [refClk] at expires
  | some stoptimer =>
      simp only [refClk, watchdogStep] at expires
      cases enabled : ctrl.regs.wdEnabled with
      | true => rfl
      | false => split at expires <;> simp [enabled] at expires

theorem step_watchdog (params : SocCtrlParams) : (ctrl.step params edges).watchdog =
    match edges.refClk with
    | some stoptimer => ctrl.watchdogStep stoptimer
    | none => ctrl.watchdog := rfl

/-- A tick of the reference clock reloads, counts or rests. -/
theorem watchdogStep_reloads {stoptimer : Bool} (reset : ctrl.wdReset = true) :
    ctrl.watchdogStep stoptimer =
      { currentCount := ctrl.regs.wdCount, cleared := true, expired := false } := by
  simp [watchdogStep, reset]

theorem watchdogStep_counts (noReset : ctrl.wdReset = false)
    (enabled : ctrl.regs.wdEnabled = true) : ctrl.watchdogStep false =
      { currentCount := ctrl.watchdog.currentCount - 1, cleared := false
        expired := ctrl.watchdog.currentCount == 1 } := by
  simp [watchdogStep, noReset, enabled]

theorem watchdogStep_rests {stoptimer : Bool} (noReset : ctrl.wdReset = false)
    (stopped : ctrl.regs.wdEnabled = false ∨ stoptimer = true) :
    ctrl.watchdogStep stoptimer = { ctrl.watchdog with cleared := false, expired := false } := by
  rcases stopped with disabled | stopped
  · simp [watchdogStep, noReset, disabled]
  · simp [watchdogStep, noReset, stopped]

theorem watchdogStep_cleared (stoptimer : Bool) :
    (ctrl.watchdogStep stoptimer).cleared = ctrl.wdReset := by
  unfold watchdogStep
  cases ctrl.wdReset with
  | true => rfl
  | false =>
      rw [if_neg Bool.false_ne_true]
      split <;> rfl

/-- `wd_cleared` says that the last tick reloaded the counter. -/
structure Guarded (ctrl : ApbSocCtrl) : Prop where
  reloaded : ctrl.watchdog.cleared = true → ctrl.watchdog.currentCount = ctrl.regs.wdCount
  clearedEnabled : ctrl.watchdog.cleared = true → ctrl.regs.wdEnabled = true
  resetEnabled : ctrl.wdReset = true → ctrl.regs.wdEnabled = true

theorem guarded_reset (dmactive bootsel : Bool) : (reset dmactive bootsel).Guarded := by
  constructor <;> intro raised <;> cases raised

theorem Guarded.step (guarded : ctrl.Guarded) (params : SocCtrlParams) :
    (ctrl.step params edges).Guarded := by
  have keeps : ctrl.regs.wdEnabled = true → (ctrl.step params edges).regs.wdEnabled = true ∧
      (ctrl.step params edges).regs.wdCount = ctrl.regs.wdCount := step_locked params edges
  have reset := guarded.resetEnabled
  have resets : (ctrl.step params edges).watchdog.cleared = true →
      (ctrl.step params edges).watchdog.currentCount = ctrl.regs.wdCount ∧
        ctrl.regs.wdEnabled = true := by
    rw [step_watchdog]
    cases edges.refClk with
    | none => exact fun cleared => ⟨guarded.reloaded cleared, guarded.clearedEnabled cleared⟩
    | some stoptimer =>
        intro cleared
        have wdReset : ctrl.wdReset = true := by rwa [← watchdogStep_cleared stoptimer]
        exact ⟨by simp [watchdogStep_reloads wdReset], reset wdReset⟩
  constructor
  case reloaded =>
    intro cleared
    rw [(resets cleared).1, (keeps (resets cleared).2).2]
  case clearedEnabled => exact fun cleared => (keeps (resets cleared).2).1
  case resetEnabled =>
    intro raised
    rw [step_wdReset] at raised
    split at raised
    · rcases Bool.or_eq_true_iff.mp raised with accepted | waits
      · exact (step_accepts params accepted).1
      · exact (keeps (reset (Bool.and_eq_true_iff.mp waits).1)).1
    · exact (keeps (reset raised)).1

/-- A service was accepted `ticks` ticks ago: the counter was reloaded since or will be, or it
has not counted further than the ticks. -/
structure Covers (ctrl : ApbSocCtrl) (wdCount : BitVec 31) (ticks : Nat) : Prop where
  enabled : ctrl.regs.wdEnabled = true
  count : ctrl.regs.wdCount = wdCount
  counted : ctrl.wdReset = true ∨ wdCount.toNat ≤ ctrl.watchdog.currentCount.toNat + ticks

variable {wdCount : BitVec 31} {ticks : Nat}

/-- The counter may wrap. -/
theorem toNat_le_sub_one (count : BitVec 31) (le : wdCount.toNat ≤ count.toNat + ticks) :
    wdCount.toNat ≤ (count - 1).toNat + (ticks + 1) := by
  bv_omega

theorem Covers.tick (covers : ctrl.Covers wdCount ticks) (stoptimer : Bool) :
    wdCount.toNat ≤ (ctrl.watchdogStep stoptimer).currentCount.toNat + (ticks + 1) := by
  cases reset : ctrl.wdReset with
  | true =>
      rw [watchdogStep_reloads reset, covers.count]
      exact Nat.le_add_right _ _
  | false =>
      have counted := covers.counted.resolve_left (by simp [reset])
      cases stoptimer with
      | true =>
          rw [watchdogStep_rests reset (.inr rfl)]
          exact Nat.le_succ_of_le counted
      | false =>
          rw [watchdogStep_counts reset covers.enabled]
          exact toNat_le_sub_one _ counted

theorem Covers.step (covers : ctrl.Covers wdCount ticks) (edges : SocCtrlEdges)
    (guarded : ctrl.Guarded) (params : SocCtrlParams) :
    (ctrl.step params edges).Covers wdCount (ticks + edges.refClk.isSome.toNat) := by
  obtain ⟨enabled, count⟩ := step_locked params edges covers.enabled
  refine ⟨enabled, count.trans covers.count, ?_⟩
  cases refClk : edges.refClk with
  | some stoptimer =>
      right
      rw [step_watchdog, refClk]
      exact covers.tick stoptimer
  | none =>
      rw [step_watchdog, refClk, step_wdReset]
      rcases covers.counted with reset | counted
      · cases cleared : ctrl.watchdog.cleared with
        | false => simp [reset]
        | true =>
            right
            simp only [guarded.reloaded cleared, covers.count]
            exact Nat.le_add_right _ _
      · exact .inr counted

/-- An expiry takes as many ticks as are programmed. -/
theorem Covers.expires (covers : ctrl.Covers wdCount ticks) (expires : ctrl.expires edges = true) :
    wdCount.toNat ≤ ticks + edges.refClk.isSome.toNat := by
  unfold ApbSocCtrl.expires at expires
  cases refClk : edges.refClk with
  | none => simp [refClk] at expires
  | some stoptimer =>
      simp only [refClk] at expires
      have reset : ctrl.wdReset = false := by
        cases reset : ctrl.wdReset with
        | false => rfl
        | true => simp [watchdogStep_reloads reset] at expires
      have counted := covers.counted.resolve_left (by simp [reset])
      have running : stoptimer = false := by
        cases stoptimer with
        | false => rfl
        | true => simp [watchdogStep_rests reset (.inr rfl)] at expires
      rw [running, watchdogStep_counts reset covers.enabled] at expires
      rw [beq_iff_eq.mp expires] at counted
      simp only [Option.isSome_some, Bool.toNat_true]
      rwa [Nat.add_comm]

/-! ## Never skipped -/

/-- The ticks until an expiry, when the bus clock keeps up with the reference clock. -/
def ticksLeft (ctrl : ApbSocCtrl) : Nat :=
  if ctrl.wdReset then
    if ctrl.watchdog.cleared then ctrl.regs.wdCount.toNat + 1 else ctrl.regs.wdCount.toNat + 2
  else ctrl.watchdog.currentCount.toNat

/-- The watchdog runs towards an expiry. -/
structure Runs (ctrl : ApbSocCtrl) (wdCount : BitVec 31) : Prop where
  enabled : ctrl.regs.wdEnabled = true
  count : ctrl.regs.wdCount = wdCount
  positive : ctrl.wdReset = false → 0 < ctrl.watchdog.currentCount.toNat

theorem Runs.ticksLeft_pos (runs : ctrl.Runs wdCount) : 0 < ctrl.ticksLeft := by
  cases reset : ctrl.wdReset with
  | false => simpa [ticksLeft, reset] using runs.positive reset
  | true =>
      rw [ticksLeft, if_pos reset]
      split <;> exact Nat.succ_pos _

end ApbSocCtrl

/-- A tick of the reference clock that counts. -/
def countingTick (edges : SocCtrlEdges) : Bool := edges.refClk == some false

/-- A period of the reference clock: one tick at its end, and an edge of the bus clock. -/
structure RefPeriod (period : List SocCtrlEdges) : Prop where
  ticks : ∃ waiting last stoptimer, period = waiting ++ [last] ∧
    (∀ edges ∈ waiting, edges.refClk = none) ∧ last.refClk = some stoptimer
  clocked : ∃ edges ∈ period, edges.hclk.isSome = true

section Periods

variable {params : SocCtrlParams} {dmactive bootsel : Bool} {ctrl : ApbSocCtrl}
  {wdCount : BitVec 31}

/-- No service is accepted at an instant. -/
def NotServed (ctrl : ApbSocCtrl) (edges : SocCtrlEdges) : Prop := ctrl.accepts edges = false

/-- Before the tick, an edge of the bus clock clears `wd_reset` when `wd_cleared` is set. -/
theorem waits {waiting : List SocCtrlEdges} (noTick : ∀ edges ∈ waiting, edges.refClk = none)
    (notServed : (socCtrl params dmactive bootsel).AlwaysFrom NotServed ctrl waiting)
    (enabled : ctrl.regs.wdEnabled = true) :
    ((socCtrl params dmactive bootsel).runFrom ctrl waiting).regs.wdEnabled = true ∧
    ((socCtrl params dmactive bootsel).runFrom ctrl waiting).regs.wdCount = ctrl.regs.wdCount ∧
    ((socCtrl params dmactive bootsel).runFrom ctrl waiting).watchdog = ctrl.watchdog ∧
    ((socCtrl params dmactive bootsel).runFrom ctrl waiting).wdReset =
      (ctrl.wdReset && !(ctrl.watchdog.cleared && waiting.any (·.hclk.isSome))) := by
  induction waiting generalizing ctrl with
  | nil => exact ⟨enabled, rfl, rfl, by simp [Machine.runFrom]⟩
  | cons edges waiting inductionHypothesis =>
      obtain ⟨quiet, notServed⟩ := notServed
      rw [List.forall_mem_cons] at noTick
      obtain ⟨enabled', count⟩ := ApbSocCtrl.step_locked params edges enabled
      have watchdog : (ctrl.step params edges).watchdog = ctrl.watchdog := by
        rw [ApbSocCtrl.step_watchdog, noTick.1]
      obtain ⟨later, laterCount, laterWatchdog, laterReset⟩ :=
        inductionHypothesis noTick.2 notServed enabled'
      rw [Machine.runFrom_cons]
      refine ⟨later, laterCount.trans count, laterWatchdog.trans watchdog, laterReset.trans ?_⟩
      change ((ctrl.step params edges).wdReset &&
        !((ctrl.step params edges).watchdog.cleared && _)) = _
      rw [watchdog, ApbSocCtrl.step_wdReset, show ctrl.accepts edges = false from quiet,
        List.any_cons]
      cases edges.hclk.isSome <;> cases ctrl.wdReset <;> cases ctrl.watchdog.cleared <;> simp

/-- A tick that counts reaches the expiry or leaves one tick less. -/
theorem counts {edges : SocCtrlEdges} (tick : edges.refClk = some false)
    (quiet : NotServed ctrl edges) (runs : ctrl.Runs wdCount) (noReset : ctrl.wdReset = false) :
    (ctrl.step params edges).watchdog.expired = true ∨
      (ctrl.step params edges).Runs wdCount ∧
        (ctrl.step params edges).ticksLeft + 1 = ctrl.watchdog.currentCount.toNat := by
  obtain ⟨enabled, count⟩ := ApbSocCtrl.step_locked params edges runs.enabled
  have positive := runs.positive noReset
  have watchdog : (ctrl.step params edges).watchdog =
      { currentCount := ctrl.watchdog.currentCount - 1, cleared := false
        expired := ctrl.watchdog.currentCount == 1 } := by
    rw [ApbSocCtrl.step_watchdog, tick]
    exact ApbSocCtrl.watchdogStep_counts noReset runs.enabled
  have reset : (ctrl.step params edges).wdReset = false := by
    rw [ApbSocCtrl.step_wdReset, show ctrl.accepts edges = false from quiet, noReset]
    simp
  by_cases one : ctrl.watchdog.currentCount = 1
  · left
    simp [watchdog, one]
  · right
    refine ⟨⟨enabled, count.trans runs.count, fun _ => ?_⟩, ?_⟩
    · rw [watchdog]
      bv_omega
    · simp only [ApbSocCtrl.ticksLeft, reset, watchdog, Bool.false_eq_true, if_false]
      bv_omega

/-- A tick while the counter is stopped leaves as many ticks. -/
theorem rests (params : SocCtrlParams) {edges : SocCtrlEdges} (tick : edges.refClk = some true)
    (quiet : NotServed ctrl edges) (runs : ctrl.Runs wdCount) (noReset : ctrl.wdReset = false) :
    (ctrl.step params edges).Runs wdCount ∧
      (ctrl.step params edges).ticksLeft = ctrl.watchdog.currentCount.toNat := by
  obtain ⟨enabled, count⟩ := ApbSocCtrl.step_locked params edges runs.enabled
  have watchdog : (ctrl.step params edges).watchdog =
      { ctrl.watchdog with cleared := false, expired := false } := by
    rw [ApbSocCtrl.step_watchdog, tick]
    exact ApbSocCtrl.watchdogStep_rests noReset (.inr rfl)
  have reset : (ctrl.step params edges).wdReset = false := by
    rw [ApbSocCtrl.step_wdReset, show ctrl.accepts edges = false from quiet, noReset]
    simp
  refine ⟨⟨enabled, count.trans runs.count, fun _ => ?_⟩, ?_⟩
  · rw [watchdog]
    exact runs.positive noReset
  · rw [ApbSocCtrl.ticksLeft, reset, watchdog, if_neg Bool.false_ne_true]

/-- A tick that reloads sets `wd_cleared`, also when the counter is stopped; a simultaneous edge
of the bus clock clears `wd_reset` when `wd_cleared` was set before. -/
theorem reloads (params : SocCtrlParams) {edges : SocCtrlEdges} {stoptimer : Bool}
    (tick : edges.refClk = some stoptimer)
    (quiet : NotServed ctrl edges) (runs : ctrl.Runs wdCount) (reset : ctrl.wdReset = true)
    (programmed : 0 < wdCount.toNat) :
    (ctrl.step params edges).Runs wdCount ∧
      (ctrl.step params edges).ticksLeft =
        if ctrl.watchdog.cleared && edges.hclk.isSome then wdCount.toNat
        else wdCount.toNat + 1 := by
  obtain ⟨enabled, count⟩ := ApbSocCtrl.step_locked params edges runs.enabled
  have watchdog : (ctrl.step params edges).watchdog =
      { currentCount := wdCount, cleared := true, expired := false } := by
    rw [ApbSocCtrl.step_watchdog, tick, ← runs.count]
    exact ApbSocCtrl.watchdogStep_reloads reset
  have cleared : (ctrl.step params edges).wdReset =
      !(ctrl.watchdog.cleared && edges.hclk.isSome) := by
    rw [ApbSocCtrl.step_wdReset, show ctrl.accepts edges = false from quiet, reset]
    cases edges.hclk.isSome <;> cases ctrl.watchdog.cleared <;> rfl
  refine ⟨⟨enabled, count.trans runs.count, fun _ => ?_⟩, ?_⟩
  · rw [watchdog]
    exact programmed
  · rw [ApbSocCtrl.ticksLeft, cleared, watchdog, count, runs.count]
    cases ctrl.watchdog.cleared && edges.hclk.isSome <;> rfl

/-- The counting ticks of a period are at its end. -/
theorem countP_period {waiting : List SocCtrlEdges} {last : SocCtrlEdges}
    (noTick : ∀ edges ∈ waiting, edges.refClk = none) :
    (waiting ++ [last]).countP countingTick = (countingTick last).toNat := by
  have none : waiting.countP countingTick = 0 := by
    refine List.countP_eq_zero.mpr fun edges member => ?_
    simp [countingTick, noTick edges member]
  rw [List.countP_append, none, Nat.zero_add, List.countP_singleton]
  cases countingTick last <;> rfl

/-- A tick without a service that does not reload reaches the expiry, or leaves one tick less when
it counts. -/
theorem ticksLeft_of_noReset {edges : SocCtrlEdges} {stoptimer : Bool}
    (tick : edges.refClk = some stoptimer) (quiet : NotServed ctrl edges)
    (runs : ctrl.Runs wdCount) (noReset : ctrl.wdReset = false) :
    (ctrl.step params edges).watchdog.expired = true ∨
      (ctrl.step params edges).Runs wdCount ∧
        (ctrl.step params edges).ticksLeft + (countingTick edges).toNat =
          ctrl.watchdog.currentCount.toNat := by
  cases stoptimer with
  | false =>
      have counting : countingTick edges = true := by simp [countingTick, tick]
      rw [counting]
      exact counts tick quiet runs noReset
  | true =>
      have stopped : countingTick edges = false := by simp [countingTick, tick]
      rw [stopped]
      exact .inr (rests params tick quiet runs noReset)

/-- A period of the reference clock without a service reaches the expiry or comes nearer, if its
tick counts. -/
theorem ticksLeft_period {period : List SocCtrlEdges} (isPeriod : RefPeriod period)
    (notServed : (socCtrl params dmactive bootsel).AlwaysFrom NotServed ctrl period)
    (guarded : ctrl.Guarded) (runs : ctrl.Runs wdCount) (programmed : 0 < wdCount.toNat) :
    ((socCtrl params dmactive bootsel).runFrom ctrl period).watchdog.expired = true ∨
      ((socCtrl params dmactive bootsel).runFrom ctrl period).Runs wdCount ∧
        ((socCtrl params dmactive bootsel).runFrom ctrl period).ticksLeft +
          period.countP countingTick ≤ ctrl.ticksLeft := by
  obtain ⟨⟨waiting, last, stoptimer, rfl, noTick, tick⟩, clocked⟩ := isPeriod
  rw [Machine.alwaysFrom_append] at notServed
  obtain ⟨notServed, quiet, -⟩ := notServed
  obtain ⟨enabled, count, watchdog, reset⟩ := waits noTick notServed runs.enabled
  rw [countP_period noTick, show (socCtrl params dmactive bootsel).runFrom ctrl (waiting ++ [last]) =
    ((socCtrl params dmactive bootsel).runFrom ctrl waiting).step params last by
      simp [Machine.runFrom, socCtrl]]
  generalize (socCtrl params dmactive bootsel).runFrom ctrl waiting = later at *
  have laterRuns : later.Runs wdCount := by
    refine ⟨enabled, count.trans runs.count, fun noReset => ?_⟩
    rw [watchdog]
    cases wasReset : ctrl.wdReset with
    | false => exact runs.positive wasReset
    | true =>
        rw [reset, wasReset, Bool.true_and, Bool.not_eq_false', Bool.and_eq_true] at noReset
        rwa [guarded.reloaded noReset.1, runs.count]
  cases laterReset : later.wdReset with
  | false =>
      refine (ticksLeft_of_noReset tick quiet laterRuns laterReset).imp_right fun counted => ?_
      refine ⟨counted.1, Nat.le_trans (Nat.le_of_eq counted.2) ?_⟩
      rw [watchdog, ApbSocCtrl.ticksLeft]
      split
      next wasReset =>
        rw [reset, wasReset, Bool.true_and, Bool.not_eq_false', Bool.and_eq_true] at laterReset
        rw [if_pos laterReset.1, guarded.reloaded laterReset.1]
        exact Nat.le_succ _
      next => exact Nat.le_refl _
  | true =>
      right
      obtain ⟨runs', left⟩ := reloads params tick quiet laterRuns laterReset programmed
      refine ⟨runs', Nat.le_trans (Nat.add_le_add_left (Bool.toNat_le _) _) ?_⟩
      rw [reset, Bool.and_eq_true, Bool.not_eq_true', Bool.and_eq_false_iff] at laterReset
      rw [left, watchdog, ApbSocCtrl.ticksLeft, if_pos laterReset.1, runs.count]
      cases cleared : ctrl.watchdog.cleared with
      | false => exact Nat.le_refl _
      | true =>
          have unseen := laterReset.2.resolve_left (by simp [cleared])
          have seen : last.hclk.isSome = true := by
            obtain ⟨edges, member, clocked⟩ := clocked
            rcases List.mem_append.mp member with member | member
            · exact absurd clocked (List.any_eq_false.mp unseen edges member)
            · rwa [← List.mem_singleton.mp member]
          rw [seen]
          exact Nat.le_refl _

theorem guarded_runFrom (guarded : ctrl.Guarded) (instants : List SocCtrlEdges) :
    ((socCtrl params dmactive bootsel).runFrom ctrl instants).Guarded := by
  induction instants generalizing ctrl with
  | nil => exact guarded
  | cons edges instants inductionHypothesis => exact inductionHypothesis (guarded.step params)

/-- Periods without a service in which as many ticks count as are left reach an expiry. -/
theorem expired_periods {periods : List (List SocCtrlEdges)}
    (arePeriods : ∀ period ∈ periods, RefPeriod period)
    (notServed : (socCtrl params dmactive bootsel).AlwaysFrom NotServed ctrl periods.flatten)
    (guarded : ctrl.Guarded) (runs : ctrl.Runs wdCount) (programmed : 0 < wdCount.toNat)
    (enough : ctrl.ticksLeft ≤ periods.flatten.countP countingTick) :
    ∃ expiring rest, periods = expiring ++ rest ∧
      ((socCtrl params dmactive bootsel).runFrom ctrl expiring.flatten).watchdog.expired =
        true := by
  induction periods generalizing ctrl with
  | nil => exact absurd runs.ticksLeft_pos (Nat.not_lt.mpr enough)
  | cons period periods inductionHypothesis =>
      rw [List.forall_mem_cons] at arePeriods
      rw [List.flatten_cons, Machine.alwaysFrom_append] at notServed
      rcases ticksLeft_period arePeriods.1 notServed.1 guarded runs programmed with
        expired | ⟨runs', nearer⟩
      · refine ⟨[period], periods, rfl, ?_⟩
        rwa [List.flatten_singleton]
      · rw [List.flatten_cons, List.countP_append] at enough
        obtain ⟨expiring, rest, rfl, expired⟩ := inductionHypothesis arePeriods.2 notServed.2
          (guarded_runFrom guarded period) runs' (by omega)
        refine ⟨period :: expiring, rest, rfl, ?_⟩
        rwa [List.flatten_cons, Machine.runFrom_append]

end Periods

/-! ## The watchdog along a run -/

/-- What the watchdog does after a run. -/
structure WatchdogGuards (params : SocCtrlParams) (dmactive bootsel : Bool)
    (inputs : List SocCtrlEdges) : Prop where
  /-- Once enabled it stays enabled, with the same count. -/
  locked : ((socCtrl params dmactive bootsel).run inputs).regs.wdEnabled = true → ∀ later,
    ((socCtrl params dmactive bootsel).run (inputs ++ later)).regs.wdEnabled = true ∧
      ((socCtrl params dmactive bootsel).run (inputs ++ later)).regs.wdCount =
        ((socCtrl params dmactive bootsel).run inputs).regs.wdCount
  /-- It expires after a service only. -/
  serviced : ∀ edges, ((socCtrl params dmactive bootsel).run inputs).expires edges = true →
    ∃ before service after, inputs = before ++ service :: after ∧
      ((socCtrl params dmactive bootsel).run before).accepts service = true
  /-- No service is lost: an expiry comes as many ticks after each one as were programmed. -/
  notEarly : ∀ service later edges,
    ((socCtrl params dmactive bootsel).run inputs).accepts service = true →
    ((socCtrl params dmactive bootsel).run (inputs ++ service :: later)).expires edges = true →
    ((socCtrl params dmactive bootsel).run inputs).regs.wdCount.toNat ≤
      (later ++ [edges]).countP (·.refClk.isSome)
  /-- It has expired when two ticks more than were programmed have counted without a service,
  whatever ticks of a stopped counter are among them. -/
  expires : ∀ (service : SocCtrlEdges) (periods : List (List SocCtrlEdges)),
    ((socCtrl params dmactive bootsel).run inputs).accepts service = true →
    0 < ((socCtrl params dmactive bootsel).run inputs).regs.wdCount.toNat →
    ((socCtrl params dmactive bootsel).run inputs).regs.wdCount.toNat + 2 ≤
      periods.flatten.countP countingTick →
    (∀ period ∈ periods, RefPeriod period) →
    (socCtrl params dmactive bootsel).AlwaysFrom NotServed
      ((socCtrl params dmactive bootsel).run (inputs ++ [service])) periods.flatten →
    ∃ expiring rest, periods = expiring ++ rest ∧
      ((socCtrl params dmactive bootsel).run
        (inputs ++ service :: expiring.flatten)).watchdog.expired = true

section Runs

variable {params : SocCtrlParams} {dmactive bootsel : Bool}

theorem guarded_run (inputs : List SocCtrlEdges) :
    ((socCtrl params dmactive bootsel).run inputs).Guarded :=
  Machine.run_invariant (ApbSocCtrl.guarded_reset _ _) (fun _ _ guarded => guarded.step params) _

theorem locked_runFrom {ctrl : ApbSocCtrl} (enabled : ctrl.regs.wdEnabled = true)
    (later : List SocCtrlEdges) :
    ((socCtrl params dmactive bootsel).runFrom ctrl later).regs.wdEnabled = true ∧
      ((socCtrl params dmactive bootsel).runFrom ctrl later).regs.wdCount = ctrl.regs.wdCount := by
  induction later generalizing ctrl with
  | nil => exact ⟨enabled, rfl⟩
  | cons edges later inductionHypothesis =>
      obtain ⟨enabled', count⟩ := ApbSocCtrl.step_locked params edges enabled
      exact (inductionHypothesis enabled').imp_right (·.trans count)

/-- A watchdog that is enabled was enabled by an accepted service. -/
theorem accepted_of_enabled {inputs : List SocCtrlEdges}
    (enabled : ((socCtrl params dmactive bootsel).run inputs).regs.wdEnabled = true) :
    ∃ before service after, inputs = before ++ service :: after ∧
      ((socCtrl params dmactive bootsel).run before).accepts service = true := by
  induction inputs using List.reverseRecOn with
  | nil => cases enabled
  | append_singleton inputs edges inductionHypothesis =>
      cases wasEnabled : ((socCtrl params dmactive bootsel).run inputs).regs.wdEnabled with
      | true =>
          obtain ⟨before, service, after, rfl, accepted⟩ := inductionHypothesis wasEnabled
          exact ⟨before, service, after ++ [edges], by simp, accepted⟩
      | false =>
          rw [Machine.run_snoc] at enabled
          exact ⟨inputs, edges, [], rfl, ApbSocCtrl.accepts_of_enables wasEnabled enabled⟩

theorem covers_runFrom {ctrl : ApbSocCtrl} {wdCount : BitVec 31} {ticks : Nat}
    (covers : ctrl.Covers wdCount ticks) (guarded : ctrl.Guarded) (later : List SocCtrlEdges) :
    ((socCtrl params dmactive bootsel).runFrom ctrl later).Covers wdCount
      (ticks + later.countP (·.refClk.isSome)) := by
  induction later generalizing ctrl ticks with
  | nil => exact covers
  | cons edges later inductionHypothesis =>
      have covers' := inductionHypothesis (covers.step edges guarded params) (guarded.step params)
      have ticks' : (edges :: later).countP (·.refClk.isSome) =
          edges.refClk.isSome.toNat + later.countP (·.refClk.isSome) := by
        rw [List.countP_cons, Nat.add_comm]
        cases edges.refClk.isSome <;> rfl
      rw [ticks', ← Nat.add_assoc]
      exact covers'

/-- The state that an accepted service leaves. -/
theorem covers_of_accepts {ctrl : ApbSocCtrl} {service : SocCtrlEdges}
    (accepted : ctrl.accepts service = true) :
    (ctrl.step params service).Covers ctrl.regs.wdCount 0 := by
  obtain ⟨enabled, count⟩ := ApbSocCtrl.step_accepts params accepted
  exact ⟨enabled, count, .inl (ApbSocCtrl.wdReset_of_accepts params accepted)⟩

theorem runs_of_accepts {ctrl : ApbSocCtrl} {service : SocCtrlEdges}
    (accepted : ctrl.accepts service = true) :
    (ctrl.step params service).Runs ctrl.regs.wdCount ∧
      (ctrl.step params service).ticksLeft ≤ ctrl.regs.wdCount.toNat + 2 := by
  obtain ⟨enabled, count⟩ := ApbSocCtrl.step_accepts params accepted
  have reset := ApbSocCtrl.wdReset_of_accepts params accepted
  refine ⟨⟨enabled, count, fun noReset => by simp [reset] at noReset⟩, ?_⟩
  rw [ApbSocCtrl.ticksLeft, if_pos reset, count]
  split
  · exact Nat.le_succ _
  · exact Nat.le_refl _

end Runs

/-- For every run of bus traffic and ticks of the reference clock: the watchdog is locked, never
early, and never late while every period of the reference clock has an edge of the bus clock. -/
theorem watchdog_guards (params : SocCtrlParams) (dmactive bootsel : Bool)
    (inputs : List SocCtrlEdges) : WatchdogGuards params dmactive bootsel inputs where
  locked := by
    intro enabled later
    rw [Machine.run_append]
    exact locked_runFrom enabled later
  serviced := by
    intro edges expires
    refine accepted_of_enabled (ApbSocCtrl.enabled_of_expires expires)
  notEarly := by
    intro service later edges accepted expires
    have guarded : ((socCtrl params dmactive bootsel).run inputs).Guarded := guarded_run inputs
    rw [Machine.run_append, Machine.runFrom_cons] at expires
    have enough := (covers_runFrom (covers_of_accepts accepted) (guarded.step params) later).expires
      expires
    rw [List.countP_append, List.countP_singleton]
    cases refClk : edges.refClk.isSome <;> simpa [refClk] using enough
  expires := by
    intro service periods accepted programmed enough arePeriods notServed
    obtain ⟨runs, left⟩ := runs_of_accepts accepted
    rw [Machine.run_snoc] at notServed
    obtain ⟨expiring, rest, split, expired⟩ := expired_periods arePeriods notServed
      ((guarded_run inputs).step params) runs programmed (Nat.le_trans left enough)
    refine ⟨expiring, rest, split, ?_⟩
    rwa [Machine.run_append, Machine.runFrom_cons]

/-- What is claimed of any interleaving: the watchdog has expired once two ticks more than were
programmed have passed without a service. -/
def ExpiresInTime (params : SocCtrlParams) (dmactive bootsel : Bool)
    (inputs : List SocCtrlEdges) : Prop :=
  ∀ (service : SocCtrlEdges) (later : List SocCtrlEdges),
    ((socCtrl params dmactive bootsel).run inputs).accepts service = true →
    0 < ((socCtrl params dmactive bootsel).run inputs).regs.wdCount.toNat →
    ((socCtrl params dmactive bootsel).run inputs).regs.wdCount.toNat + 2 ≤
      later.countP countingTick →
    (socCtrl params dmactive bootsel).AlwaysFrom NotServed
      ((socCtrl params dmactive bootsel).run (inputs ++ [service])) later →
    ∃ n ≤ later.length, ((socCtrl params dmactive bootsel).run
      (inputs ++ service :: later.take n)).watchdog.expired = true

/-- A write at an edge of the bus clock. -/
def busWrite (paddr : BitVec 12) (pwdata : BitVec 32) : SocCtrlEdges where
  hclk := some
    { selFllClk := false, bootsel := false, dmactive := false, statusOut := 0, version := 0
      socJtagReg := 0, startRto := false, peripheralRto := 0, missingPad := (0, 0)
      paddr, pwdata, pwrite := true, psel := true, penable := true }
  refClk := none

/-- `WD_COUNT` is written, and the write that enables the watchdog is under way. -/
def programsOne : List SocCtrlEdges :=
  [busWrite 0xD0 1, busWrite 0xD0 1, busWrite 0xD0 1, busWrite 0xD4 0x80000000]

def refTick : SocCtrlEdges := ⟨none, some false⟩

instance (ctrl : ApbSocCtrl) (edges : SocCtrlEdges) : Decidable (NotServed ctrl edges) :=
  inferInstanceAs (Decidable (_ = _))

/-- Without an edge of the bus clock `wd_reset` stays up, and every tick reloads the counter. -/
theorem programsOne_not_expiresInTime :
    ¬ExpiresInTime ⟨0, 0, 0, 0⟩ false false programsOne :=
  fun inTime => absurd (inTime (busWrite 0xD4 0x80000000) [refTick, refTick, refTick]
    (by decide +kernel) (by decide +kernel) (by decide +kernel) (by decide +kernel))
    (by decide +kernel)

end CoreVMcu.Soc
