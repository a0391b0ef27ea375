import CoreVMcu.Sdio.Cmd

/-!
# The frame of a command

A start that is accepted in idle sends a start bit, the direction, the index and the argument of
the command, the check of these bits and a stop bit.
-/

namespace CoreVMcu.Sdio

open Clocked Clocked.Crc

/-- What the line shows after the falling edge in a clock. -/
def sdcmdO (cmd : SdioCmd) (input : SdioCmdInput) : List Bool := [(cmd.step input).sdcmd]

/-- The bits before the check. -/
def frameHead (cmdOp : BitVec 6) (cmdArg : BitVec 32) : List Bool :=
  false :: true :: (msbFirst cmdOp ++ msbFirst cmdArg)

open Polynomial in
/-- The 48 bits of a frame. -/
noncomputable def commandFrame (cmdOp : BitVec 6) (cmdArg : BitVec 32) : List Bool :=
  frameHead cmdOp cmdArg ++ check 7 (X ^ 7 + X ^ 3 + 1) (frameHead cmdOp cmdArg) ++ [true]

/-- The word that a start loads. -/
def SdioCmdInput.command (input : SdioCmdInput) : BitVec 38 := input.cmdOp ++ input.cmdArg

/-- A start is accepted. -/
def StartsCommand (cmd : SdioCmd) (input : SdioCmdInput) : Prop :=
  cmd.state = .idle ∧ input.cmdStart = true ∧ input.clrStat = false

/-- The latest start of some clocks comes in clock `j`. -/
def LatestStart (inputs : List SdioCmdInput) (j : Nat) (start : SdioCmdInput) : Prop :=
  inputs[j]? = some start ∧ start.cmdStart = true ∧
    ∀ k later, j < k → inputs[k]? = some later → later.cmdStart = false

/-- Further starts in the clocks after an accepted one leave its bits: where the latest of them
comes before bit `n` leaves the register, the bit that it puts there is bit `n` of the command.
The register shifts from the third clock on. -/
def KeepsCommand (command : BitVec 38) (inputs : List SdioCmdInput) : Prop :=
  ∀ n < 38, ∀ j start, LatestStart (inputs.take (n + 2)) j start →
    start.command.getMsbD (n - (j - 1)) = command.getMsbD n

theorem msbFirst_append {m n : Nat} (high : BitVec m) (low : BitVec n) :
    msbFirst (high ++ low) = msbFirst high ++ msbFirst low := by
  simp only [msbFirst_eq_getMsbD]
  rw [List.range_add, List.map_append, List.map_map]
  congr 1
  · apply List.map_congr_left
    intro i member
    simp [BitVec.getMsbD_append, List.mem_range.mp member]
  · apply List.map_congr_left
    intro i _
    simp [BitVec.getMsbD_append]

/-- The register after a clock in which it does not shift. -/
def keepStep (word : BitVec 38) (input : SdioCmdInput) : BitVec 38 :=
  if input.cmdStart then input.command else word

/-- The register after a clock in which it shifts. -/
def shiftStep (word : BitVec 38) (input : SdioCmdInput) : BitVec 38 :=
  if input.cmdStart then input.command else word <<< 1

/-- The bits that leave the register. -/
def sentBits : BitVec 38 → List SdioCmdInput → List Bool
  | _, [] => []
  | word, input :: inputs => word.getMsbD 0 :: sentBits (shiftStep word input) inputs

theorem sentBits_eq (word : BitVec 38) (inputs : List SdioCmdInput) :
    sentBits word inputs =
      (List.range inputs.length).map fun n =>
        ((inputs.take n).foldl shiftStep word).getMsbD 0 := by
  induction inputs generalizing word with
  | nil => rfl
  | cons input inputs inductionHypothesis =>
      rw [sentBits, inductionHypothesis, List.length_cons, List.range_succ_eq_map, List.map_cons,
        List.map_map]
      rfl

theorem latestStart_snoc (inputs : List SdioCmdInput) (input : SdioCmdInput) (j : Nat)
    (start : SdioCmdInput) :
    LatestStart (inputs ++ [input]) j start ↔
      if input.cmdStart then j = inputs.length ∧ start = input
      else LatestStart inputs j start := by
  cases started : input.cmdStart with
  | true =>
      rw [if_pos rfl]
      constructor
      · rintro ⟨at_j, _, none⟩
        have notBefore : ¬j < inputs.length := fun before => by
          simpa [started] using none inputs.length input before (by simp)
        have inside := (List.getElem?_eq_some_iff.mp at_j).1
        rw [List.length_append, List.length_singleton] at inside
        obtain rfl : j = inputs.length := by omega
        exact ⟨rfl, by simpa using at_j.symm⟩
      · rintro ⟨rfl, rfl⟩
        refine ⟨by simp, started, fun k later after at_k => ?_⟩
        have inside := (List.getElem?_eq_some_iff.mp at_k).1
        rw [List.length_append, List.length_singleton] at inside
        omega
  | false =>
      rw [if_neg Bool.false_ne_true]
      constructor
      · rintro ⟨at_j, is, none⟩
        have inside : j < inputs.length := by
          by_contra outside
          have last := (List.getElem?_eq_some_iff.mp at_j).1
          rw [List.length_append, List.length_singleton] at last
          obtain rfl : j = inputs.length := by omega
          have same : input = start := by simpa using at_j
          exact absurd (same ▸ is) (by simp [started])
        refine ⟨List.getElem?_append_left inside ▸ at_j, is, fun k later after at_k => ?_⟩
        have before := (List.getElem?_eq_some_iff.mp at_k).1
        exact none k later after (by rw [List.getElem?_append_left before, at_k])
      · rintro ⟨at_j, is, none⟩
        have inside := (List.getElem?_eq_some_iff.mp at_j).1
        refine ⟨by rw [List.getElem?_append_left inside, at_j], is, fun k later after at_k => ?_⟩
        by_cases before : k < inputs.length
        · exact none k later after (List.getElem?_append_left before ▸ at_k)
        · have last := (List.getElem?_eq_some_iff.mp at_k).1
          rw [List.length_append, List.length_singleton] at last
          obtain rfl : k = inputs.length := by omega
          have same : input = later := by simpa using at_k
          exact same ▸ started

/-- There is a latest start, or there is none. -/
theorem latestStart_or_none (inputs : List SdioCmdInput) :
    (∃ j start, LatestStart inputs j start) ∨ ∀ input ∈ inputs, input.cmdStart = false := by
  induction inputs using List.reverseRecOn with
  | nil => exact .inr (by simp)
  | append_singleton inputs input inductionHypothesis =>
      cases start : input.cmdStart with
      | true => exact .inl ⟨inputs.length, input, by simp [latestStart_snoc, start]⟩
      | false =>
          rcases inductionHypothesis with ⟨j, latest, is⟩ | none
          · exact .inl ⟨j, latest, by simpa [latestStart_snoc, start] using is⟩
          · refine .inr fun member inside => ?_
            rcases List.mem_append.mp inside with before | last
            · exact none member before
            · rwa [List.mem_singleton.mp last]

/-- The word which the register holds while it shifts out bit `n` of a command. -/
def wordAt (command : BitVec 38) (first second : SdioCmdInput) (shifts : List SdioCmdInput) :
    BitVec 38 :=
  shifts.foldl shiftStep (keepStep (keepStep command first) second)

theorem wordAt_snoc (command : BitVec 38) (first second : SdioCmdInput)
    (shifts : List SdioCmdInput) (input : SdioCmdInput) :
    wordAt command first second (shifts ++ [input]) =
      shiftStep (wordAt command first second shifts) input :=
  List.foldl_append

theorem shiftStep_of_none {word : BitVec 38} {input : SdioCmdInput}
    (none : input.cmdStart = false) : shiftStep word input = word <<< 1 := by
  simp [shiftStep, none]

theorem wordAt_of_none {command : BitVec 38} {first second : SdioCmdInput}
    {shifts : List SdioCmdInput}
    (none : ∀ input ∈ first :: second :: shifts, input.cmdStart = false) :
    wordAt command first second shifts = command <<< shifts.length := by
  simp only [List.forall_mem_cons] at none
  obtain ⟨noFirst, noSecond, none⟩ := none
  induction shifts using List.reverseRecOn with
  | nil => simp [wordAt, keepStep, noFirst, noSecond]
  | append_singleton shifts input inductionHypothesis =>
      rw [List.forall_mem_append] at none
      rw [wordAt_snoc, inductionHypothesis none.1,
        shiftStep_of_none (none.2 input List.mem_cons_self), List.length_append,
        BitVec.shiftLeft_add]
      rfl

theorem wordAt_of_latest {command : BitVec 38} {first second : SdioCmdInput}
    {shifts : List SdioCmdInput} {j : Nat} {start : SdioCmdInput}
    (latest : LatestStart (first :: second :: shifts) j start) :
    wordAt command first second shifts = start.command <<< (shifts.length - (j - 1)) := by
  induction shifts using List.reverseRecOn with
  | nil =>
      rw [show [first, second] = [] ++ [first] ++ [second] from rfl, latestStart_snoc,
        latestStart_snoc] at latest
      split_ifs at latest with atSecond atFirst
      · obtain ⟨rfl, rfl⟩ := latest
        simp [wordAt, keepStep, atSecond]
      · obtain ⟨rfl, rfl⟩ := latest
        simp [wordAt, keepStep, atSecond, atFirst]
      · exact absurd latest.1 (by simp)
  | append_singleton shifts input inductionHypothesis =>
      rw [← List.cons_append, ← List.cons_append, latestStart_snoc] at latest
      rw [wordAt_snoc]
      split_ifs at latest with started
      · obtain ⟨rfl, rfl⟩ := latest
        simp [shiftStep, started]
      · rw [inductionHypothesis latest, shiftStep_of_none (by simpa using started),
          ← BitVec.shiftLeft_add, List.length_append, List.length_singleton]
        have inside := (List.getElem?_eq_some_iff.mp latest.1).1
        simp only [List.length_cons] at inside
        congr 1
        omega

/-! ## The phases -/

section Phases

variable {cmd : SdioCmd} {input : SdioCmdInput} {inputs : List SdioCmdInput}

/-- The counter has `n` clocks left after this one. -/
def Counts (cmd : SdioCmd) (n : Nat) : Prop := cmd.cnt = BitVec.ofNat 8 n ∧ cmd.cntRunning = true

theorem Counts.cntDone {n : Nat} (counts : Counts cmd n) (bound : n < 256) :
    cmd.cntDone = decide (n = 0) := by
  rw [SdioCmd.cntDone, counts.1, beq_eq_decide]
  simp only [decide_eq_decide]
  bv_omega

theorem Counts.next {n : Nat} (counts : Counts cmd (n + 1)) :
    cmd.cnt - 1#8 = BitVec.ofNat 8 n := by
  rw [counts.1]
  bv_omega

/-- A start leaves the command in the register. -/
theorem step_starts (starts : StartsCommand cmd input) :
    (cmd.step input).state = .txStart ∧ (cmd.step input).cmd = input.command := by
  obtain ⟨idle, start, noClear⟩ := starts
  simp [SdioCmd.step, SdioCmd.signals, SdioCmd.nextCmd, SdioCmd.defaults, SdioCmdInput.command,
    idle, start, noClear]

theorem step_txStart (state : cmd.state = .txStart) (noClear : input.clrStat = false) :
    (cmd.step input).sdcmd = false ∧ (cmd.step input).state = .txDir ∧
      (cmd.step input).cmd = keepStep cmd.cmd input ∧ (cmd.step input).crc = 0#7 := by
  simp [SdioCmd.step, SdioCmd.signals, SdioCmd.nextCmd, SdioCmd.crcInput, SdioCmd.defaults, crc7,
    crcStep, keepStep, SdioCmdInput.command, state, noClear]

theorem step_txDir (state : cmd.state = .txDir) (noClear : input.clrStat = false) :
    (cmd.step input).sdcmd = true ∧ (cmd.step input).state = .txShift ∧
      (cmd.step input).cmd = keepStep cmd.cmd input ∧
      (cmd.step input).crc = feed crc7Taps cmd.crc true ∧ Counts (cmd.step input) 37 := by
  simp [SdioCmd.step, SdioCmd.signals, SdioCmd.nextCmd, SdioCmd.crcInput, SdioCmd.nextCnt,
    SdioCmd.defaults, Counts, crc7, crcStep, crc7Sampled_eq_feed, keepStep, SdioCmdInput.command,
    state, noClear]

/-- One bit of the command is sent. -/
theorem step_txShift {n : Nat} (state : cmd.state = .txShift) (counts : Counts cmd (n + 1))
    (bound : n + 1 < 256) (noClear : input.clrStat = false) :
    (cmd.step input).sdcmd = cmd.cmd.getMsbD 0 ∧ (cmd.step input).state = .txShift ∧
      (cmd.step input).cmd = shiftStep cmd.cmd input ∧
      (cmd.step input).crc = feed crc7Taps cmd.crc (cmd.cmd.getMsbD 0) ∧
      Counts (cmd.step input) n := by
  have running : cmd.cntDone = false := by simp [counts.cntDone bound]
  simp [SdioCmd.step, SdioCmd.signals, SdioCmd.nextCmd, SdioCmd.crcInput, SdioCmd.nextCnt,
    SdioCmd.defaults, Counts, crc7, crcStep, crc7Sampled_eq_feed, shiftStep, SdioCmdInput.command,
    state, noClear, running, counts.2, counts.next, BitVec.getMsbD]

theorem step_txShift_last (state : cmd.state = .txShift) (counts : Counts cmd 0)
    (noClear : input.clrStat = false) :
    (cmd.step input).sdcmd = cmd.cmd.getMsbD 0 ∧ (cmd.step input).state = .txCrc ∧
      (cmd.step input).crc = feed crc7Taps cmd.crc (cmd.cmd.getMsbD 0) ∧
      Counts (cmd.step input) 6 := by
  have done : cmd.cntDone = true := by simp [counts.cntDone]
  simp [SdioCmd.step, SdioCmd.signals, SdioCmd.crcInput, SdioCmd.nextCnt, SdioCmd.defaults, Counts,
    crc7, crcStep, crc7Sampled_eq_feed, state, noClear, done, BitVec.getMsbD]

/-- Sampling the bit that leaves the register shifts it. -/
theorem feed_serial (crc : BitVec 7) : feed crc7Taps crc (crc7Serial crc) = crc <<< 1 := by
  simp [feed, crc7Serial]

theorem step_txCrc (state : cmd.state = .txCrc) (input : SdioCmdInput) :
    (cmd.step input).sdcmd = cmd.crc.getMsbD 0 ∧ (cmd.step input).crc = cmd.crc <<< 1 := by
  constructor
  · simp only [SdioCmd.step, SdioCmd.signals, state]
    split <;> simp [crc7Serial, BitVec.getMsbD]
  · rw [← feed_serial]
    simp only [SdioCmd.step, SdioCmd.crcInput, SdioCmd.signals, state]
    split <;> simp [crc7, crcStep, crc7Sampled_eq_feed]

theorem step_txCrc_more {n : Nat} (state : cmd.state = .txCrc) (counts : Counts cmd (n + 1))
    (bound : n + 1 < 256) (noClear : input.clrStat = false) :
    (cmd.step input).state = .txCrc ∧ Counts (cmd.step input) n := by
  have running : cmd.cntDone = false := by simp [counts.cntDone bound]
  simp [SdioCmd.step, SdioCmd.signals, SdioCmd.nextCnt, SdioCmd.defaults, Counts, state, noClear,
    running, counts.2, counts.next]

theorem step_txCrc_last (state : cmd.state = .txCrc) (counts : Counts cmd 0)
    (noClear : input.clrStat = false) : (cmd.step input).state = .txStop := by
  have done : cmd.cntDone = true := by simp [counts.cntDone]
  simp [SdioCmd.step, SdioCmd.signals, SdioCmd.defaults, state, noClear, done]

theorem step_txStop (state : cmd.state = .txStop) (input : SdioCmdInput) :
    (cmd.step input).sdcmd = true := by
  simp only [SdioCmd.step, SdioCmd.signals, state]
  split <;> rfl

/-! ## Runs of a phase -/

/-- The command is shifted out and taken into the check. -/
theorem runFrom_txShift {n : Nat} (state : cmd.state = .txShift) (counts : Counts cmd n)
    (bound : n < 256) (length : inputs.length = n + 1)
    (noClear : ∀ input ∈ inputs, input.clrStat = false) :
    sdioCmd.observedFrom sdcmdO cmd inputs = sentBits cmd.cmd inputs ∧
      (sdioCmd.runFrom cmd inputs).state = .txCrc ∧
      (sdioCmd.runFrom cmd inputs).crc = register crc7Taps cmd.crc (sentBits cmd.cmd inputs) ∧
      Counts (sdioCmd.runFrom cmd inputs) 6 := by
  induction inputs generalizing cmd n with
  | nil => exact absurd length (Nat.succ_ne_zero n).symm
  | cons input inputs inductionHypothesis =>
      rw [List.forall_mem_cons] at noClear
      rw [List.length_cons, Nat.add_right_cancel_iff] at length
      cases n with
      | zero =>
          obtain rfl := List.length_eq_zero_iff.mp length
          obtain ⟨line, next, crc, counts⟩ := step_txShift_last state counts noClear.1
          refine ⟨?_, next, crc, counts⟩
          exact congrArg (fun bit => [bit]) line
      | succ n =>
          obtain ⟨line, next, word, crc, counts⟩ := step_txShift state counts bound noClear.1
          obtain ⟨lines, after, crcAfter, countsAfter⟩ :=
            inductionHypothesis next counts (Nat.lt_of_succ_lt bound) length noClear.2
          refine ⟨?_, after, ?_, countsAfter⟩
          · rw [sentBits, ← word, ← lines, ← line]
            rfl
          · rw [sentBits, register_cons, ← crc, ← word, ← crcAfter]
            rfl

/-- The check is shifted out. -/
theorem runFrom_txCrc {n : Nat} (state : cmd.state = .txCrc) (counts : Counts cmd n)
    (bound : n < 256) (length : inputs.length = n + 1)
    (noClear : ∀ input ∈ inputs, input.clrStat = false) :
    sdioCmd.observedFrom sdcmdO cmd inputs = (List.range (n + 1)).map (fun i => cmd.crc.getMsbD i) ∧
      (sdioCmd.runFrom cmd inputs).state = .txStop := by
  induction inputs generalizing cmd n with
  | nil => exact absurd length (Nat.succ_ne_zero n).symm
  | cons input inputs inductionHypothesis =>
      rw [List.forall_mem_cons] at noClear
      rw [List.length_cons, Nat.add_right_cancel_iff] at length
      obtain ⟨line, crc⟩ := step_txCrc state input
      cases n with
      | zero =>
          obtain rfl := List.length_eq_zero_iff.mp length
          exact ⟨congrArg (fun bit => [bit]) line, step_txCrc_last state counts noClear.1⟩
      | succ n =>
          obtain ⟨next, counts⟩ := step_txCrc_more state counts bound noClear.1
          obtain ⟨lines, after⟩ :=
            inductionHypothesis next counts (Nat.lt_of_succ_lt bound) length noClear.2
          refine ⟨?_, after⟩
          rw [range_getMsbD_succ, ← crc, ← lines, ← line]
          rfl

/-- The line after a start, with the bits that leave the register. -/
theorem observedFrom_frame {first second stop : SdioCmdInput} {shifts checks : List SdioCmdInput}
    (state : cmd.state = .txStart) (shiftsLength : shifts.length = 38)
    (checksLength : checks.length = 7)
    (noClear : ∀ input ∈ first :: second :: (shifts ++ (checks ++ [stop])), input.clrStat = false) :
    sdioCmd.observedFrom sdcmdO cmd (first :: second :: (shifts ++ (checks ++ [stop]))) =
      (false :: true :: sentBits (keepStep (keepStep cmd.cmd first) second) shifts) ++
        (msbFirst (register crc7Taps 0#7
          (false :: true :: sentBits (keepStep (keepStep cmd.cmd first) second) shifts)) ++
          [true]) := by
  simp only [List.forall_mem_cons, List.forall_mem_append] at noClear
  obtain ⟨noFirst, noSecond, noShifts, noChecks, noStop⟩ := noClear
  obtain ⟨startBit, dirState, word, crc⟩ := step_txStart state noFirst
  obtain ⟨dirBit, shiftState, wordNext, crcNext, counts⟩ := step_txDir dirState noSecond
  obtain ⟨bits, crcState, crcAfter, countsAfter⟩ :=
    runFrom_txShift shiftState counts (by decide) shiftsLength noShifts
  obtain ⟨checkBits, stopState⟩ :=
    runFrom_txCrc crcState countsAfter (by decide) checksLength noChecks
  have stopBit := step_txStop stopState stop
  rw [wordNext, word] at bits crcAfter
  rw [crcNext, crc] at crcAfter
  rw [crcAfter, ← msbFirst_eq_getMsbD] at checkBits
  change [(cmd.step first).sdcmd] ++ ([((cmd.step first).step second).sdcmd] ++
    sdioCmd.observedFrom sdcmdO ((cmd.step first).step second) (shifts ++ (checks ++ [stop]))) = _
  rw [Machine.observedFrom_append, Machine.observedFrom_append, bits, checkBits, startBit, dirBit]
  change _ ++ (_ ++ (_ ++ (_ ++ [SdioCmd.sdcmd _]))) = _
  rw [stopBit]
  rfl

end Phases

/-- The bits that leave the register are those of the command exactly when no further start
changes one. -/
theorem sentBits_eq_iff {command : BitVec 38} {first second : SdioCmdInput}
    {shifts rest : List SdioCmdInput} (length : shifts.length = 38) :
    sentBits (keepStep (keepStep command first) second) shifts = msbFirst command ↔
      KeepsCommand command (first :: second :: (shifts ++ rest)) := by
  rw [sentBits_eq, msbFirst_eq_getMsbD, length, List.map_inj_left]
  refine forall_congr' fun n => ?_
  rw [List.mem_range]
  refine imp_congr_right fun inside => ?_
  change (wordAt command first second (shifts.take n)).getMsbD 0 = _ ↔ _
  have upTo : (first :: second :: (shifts ++ rest)).take (n + 2) =
      first :: second :: shifts.take n := by
    simp [List.take_append_of_le_length (show n ≤ shifts.length by omega)]
  have taken : (shifts.take n).length = n := by
    rw [List.length_take]
    omega
  rw [upTo]
  constructor
  · intro same j start latest
    rw [← same, wordAt_of_latest latest, taken, BitVec.getMsbD_shiftLeft, Nat.zero_add]
  · intro keeps
    rcases latestStart_or_none (first :: second :: shifts.take n) with ⟨j, start, latest⟩ | none
    · rw [wordAt_of_latest latest, taken, BitVec.getMsbD_shiftLeft, Nat.zero_add,
        keeps j start latest]
    · rw [wordAt_of_none none, taken, BitVec.getMsbD_shiftLeft, Nat.zero_add]

/-- The clocks of a frame by their phases. -/
theorem exists_phases {frame : List SdioCmdInput} (length : frame.length = 48) :
    ∃ first second shifts checks stop, frame = first :: second :: (shifts ++ (checks ++ [stop])) ∧
      shifts.length = 38 ∧ checks.length = 7 := by
  obtain ⟨first, rest, rfl⟩ := List.exists_cons_of_length_eq_add_one length
  obtain ⟨second, rest, rfl⟩ :=
    List.exists_cons_of_length_eq_add_one (Nat.add_right_cancel length)
  simp only [List.length_cons, Nat.reduceEqDiff] at length
  obtain ⟨stop, last⟩ := List.length_eq_one_iff.mp (show (rest.drop 45).length = 1 by simp [length])
  refine ⟨first, second, rest.take 38, (rest.drop 38).take 7, stop, ?_, by simp [length],
    by simp [length]⟩
  have dropped : (rest.drop 38).drop 7 = rest.drop 45 := List.drop_drop
  rw [← last, ← dropped, List.take_append_drop, List.take_append_drop]

theorem frameHead_eq (cmdOp : BitVec 6) (cmdArg : BitVec 32) :
    frameHead cmdOp cmdArg = false :: true :: msbFirst (cmdOp ++ cmdArg) := by
  rw [frameHead, msbFirst_append]

/-- The start that is accepted in idle sends its frame exactly when the starts that follow leave
its bits. -/
theorem observedFrom_eq_commandFrame_iff {earlier : List SdioCmdInput} {start : SdioCmdInput}
    {frame : List SdioCmdInput} (starts : StartsCommand (sdioCmd.run earlier) start)
    (length : frame.length = 48) (noClear : ∀ input ∈ frame, input.clrStat = false) :
    sdioCmd.observedFrom sdcmdO (sdioCmd.run (earlier ++ [start])) frame =
      commandFrame start.cmdOp start.cmdArg ↔ KeepsCommand start.command frame := by
  obtain ⟨state, word⟩ := step_starts starts
  obtain ⟨first, second, shifts, checks, stop, rfl, shiftsLength, checksLength⟩ :=
    exists_phases length
  rw [Machine.run_snoc]
  change sdioCmd.observedFrom sdcmdO ((sdioCmd.run earlier).step start) _ = _ ↔ _
  rw [observedFrom_frame state shiftsLength checksLength noClear, ← sentBits_eq_iff shiftsLength]
  change _ = frameHead _ _ ++ _ ++ [true] ↔ _
  rw [List.append_assoc, ← generator_crc7Taps, check_eq (by decide), frameHead_eq, word]
  constructor
  · intro same
    have heads := (List.append_inj same (by simp [sentBits_eq, msbFirst, shiftsLength])).1
    exact (List.cons_inj_right _).mp ((List.cons_inj_right _).mp heads)
  · intro same
    rw [same]
    rfl

open Polynomial in
/-- The frame of an accepted start, and the checks of both units. -/
theorem commandFrame_iff (earlier : List SdioCmdInput) (start : SdioCmdInput)
    (frame : List SdioCmdInput) (starts : StartsCommand (sdioCmd.run earlier) start)
    (length : frame.length = 48) (noClear : ∀ input ∈ frame, input.clrStat = false) :
    (sdioCmd.observedFrom sdcmdO (sdioCmd.run (earlier ++ [start])) frame =
        commandFrame start.cmdOp start.cmdArg ↔ KeepsCommand start.command frame) ∧
      HoldsRemainder (X ^ 7 + X ^ 3 + 1) crc7 crc7Serial ∧
      HoldsRemainder (X ^ 16 + X ^ 12 + X ^ 5 + 1) crc16 crc16Serial :=
  ⟨observedFrom_eq_commandFrame_iff starts length noClear, crc7_holdsRemainder,
    crc16_holdsRemainder⟩

/-- Nothing happens. -/
def quietCmd : SdioCmdInput where
  clrStat := false
  cmdStart := false
  cmdOp := 0
  cmdArg := 0
  cmdRspType := 0
  busy := false
  sdcmdI := true

/-- A command is started. -/
def startsCmd (cmdOp : BitVec 6) (cmdArg : BitVec 32) : SdioCmdInput where
  clrStat := false
  cmdStart := true
  cmdOp
  cmdArg
  cmdRspType := 1
  busy := false
  sdcmdI := true

theorem commandFrame_iff_quiet :
    sdioCmd.observedFrom sdcmdO (sdioCmd.run ([] ++ [startsCmd 17 0x200]))
        (List.replicate 48 quietCmd) = commandFrame 17 0x200 ↔
      KeepsCommand (startsCmd 17 0x200).command (List.replicate 48 quietCmd) :=
  (commandFrame_iff [] (startsCmd 17 0x200) (List.replicate 48 quietCmd)
    ⟨rfl, rfl, rfl⟩ rfl (by decide)).1

/-- The reset command, with a second start while its first bit leaves the register. -/
def startsAgain : List SdioCmdInput :=
  [quietCmd, quietCmd, startsCmd 17 0x200] ++ List.replicate 45 quietCmd

/-- The second start spoils the frame of the first. -/
theorem startsAgain_not_commandFrame :
    StartsCommand (sdioCmd.run []) (startsCmd 0 0) ∧ startsAgain.length = 48 ∧
      (∀ input ∈ startsAgain, input.clrStat = false) ∧
      sdioCmd.observedFrom sdcmdO (sdioCmd.run ([] ++ [startsCmd 0 0])) startsAgain ≠
        commandFrame 0 0 := by
  have starts : StartsCommand (sdioCmd.run []) (startsCmd 0 0) := ⟨rfl, rfl, rfl⟩
  have noClear : ∀ input ∈ startsAgain, input.clrStat = false := by decide
  refine ⟨starts, rfl, noClear, fun same => ?_⟩
  have keeps := (observedFrom_eq_commandFrame_iff starts rfl noClear).mp same
  have latest : LatestStart (startsAgain.take 4) 2 (startsCmd 17 0x200) := by
    refine ⟨rfl, rfl, fun k later after at_k => ?_⟩
    have inside := (List.getElem?_eq_some_iff.mp at_k).1
    obtain rfl : k = 3 := Nat.le_antisymm (Nat.le_of_lt_succ inside) after
    exact (Option.some.inj at_k) ▸ rfl
  exact absurd (keeps 2 (by decide) 2 _ latest) (by decide)

end CoreVMcu.Sdio
