import CoreVMcu.Sdio.DataBytes

/-!
# Shifting out a block

The bytes of a block leave the word bit by bit, the next word is consumed with the last bit of
the one before, and the check of each lane follows.
-/

namespace CoreVMcu.Sdio

open Clocked Clocked.Crc

/-- The lines are driven. -/
@[simp] def DataState.drives : DataState → Bool
  | .txShift | .txCrc | .txEnd => true
  | .idle | .wait | .txStart | .txStop | .txCrcstat | .txBusy | .rxStart | .rxStop | .rxShift
  | .rxCrc => false

/-- The lines are driven in some clocks. -/
def Drives (data : SdioData) (inputs : List SdioDataInput) : Prop :=
  ∀ n < inputs.length, (sdioData.runFrom data (inputs.take n)).state.drives = true

/-- The lines and the words of some clocks in which bits are shifted out, and what the CRC units
hold after them. -/
structure Shifts (quad : Bool) (data : SdioData) (inputs : List SdioDataInput)
    (shown : List (BitVec 4)) (taken : List (BitVec 32)) : Prop where
  lines : sdioData.observedFrom sddataLines data inputs = shown
  words : sdioData.observedFrom consumedWords data inputs = taken
  crc : ∀ lane, SdioData.laneUsed quad lane = true →
    (sdioData.runFrom data inputs).crc lane =
      register crc16Taps (data.crc lane) (laneBits lane shown)
  drives : Drives data inputs

section Shifting

variable {quad : Bool} {data : SdioData} {input : SdioDataInput} {inputs : List SdioDataInput}
  {j c n : Nat}

theorem Drives.one (drives : data.state.drives = true) : Drives data [input] := by
  intro n inside
  obtain rfl : n = 0 := Nat.lt_one_iff.mp inside
  exact drives

theorem Drives.append {later : List SdioDataInput} (now : Drives data inputs)
    (after : Drives (sdioData.runFrom data inputs) later) : Drives data (inputs ++ later) := by
  intro n inside
  by_cases before : n < inputs.length
  · rw [List.take_append_of_le_length before.le]
    exact now n before
  · obtain ⟨k, rfl⟩ := Nat.exists_eq_add_of_le (Nat.le_of_not_lt before)
    rw [List.take_length_add_append, Machine.runFrom_append]
    exact after k (by simpa using inside)

theorem Shifts.nil : Shifts quad data [] [] [] where
  lines := rfl
  words := rfl
  crc := fun _ _ => rfl
  drives := fun n inside => absurd inside (Nat.not_lt_zero n)

theorem Shifts.append {later : List SdioDataInput} {shown shownLater : List (BitVec 4)}
    {taken takenLater : List (BitVec 32)} (now : Shifts quad data inputs shown taken)
    (after : Shifts quad (sdioData.runFrom data inputs) later shownLater takenLater) :
    Shifts quad data (inputs ++ later) (shown ++ shownLater) (taken ++ takenLater) where
  lines := by rw [Machine.observedFrom_append, now.lines, after.lines]
  words := by rw [Machine.observedFrom_append, now.words, after.words]
  crc := by
    intro lane used
    rw [Machine.runFrom_append, after.crc lane used, now.crc lane used, laneBits_append,
      register_append]
  drives := now.drives.append after.drives

theorem extractLsb'_byte (word : BitVec 32) (start : Nat) {offset len : Nat}
    (inside : offset + len ≤ 8) :
    (word.extractLsb' start 8).extractLsb' offset len = word.extractLsb' (start + offset) len := by
  apply BitVec.eq_of_getLsbD_eq
  intro i below
  simp only [BitVec.getLsbD_extractLsb', below, decide_true, Bool.true_and, Nat.add_assoc]
  simp [show offset + i < 8 by omega]

/-- The bits that are on the lines in a clock. -/
theorem AtBit.dataout (at_bit : AtBit data j c n) (lines : input.dataQuad = quad)
    (inside : c < byteClocks quad) (byte : j < 4) :
    data.dataout input = byteLine quad (wordByte data.data j) c := by
  rw [SdioData.dataout, at_bit.bitPlace lines inside byte, lines, byteLine, wordByte]
  cases quad with
  | true =>
      rw [if_pos rfl, if_pos rfl, extractLsb'_byte _ _ (by omega)]
      rfl
  | false =>
      rw [if_neg Bool.false_ne_true, if_neg Bool.false_ne_true,
        extractLsb'_byte _ _ (by omega)]
      rfl

theorem signals_txShift_sddata (state : data.state = .txShift) (input : SdioDataInput) :
    (data.signals input).sddata = data.dataout input ∧ (data.signals input).crcEn = true ∧
      (data.signals input).crcIntx = false := by
  simp only [SdioData.signals, state]
  split <;> exact ⟨rfl, rfl, rfl⟩

/-- The CRC unit of a used lane takes what the lane shows. -/
theorem step_crc_of_sent (lines : input.dataQuad = quad) {lane : Fin 4}
    (used : SdioData.laneUsed quad lane = true) (en : (data.signals input).crcEn = true)
    (out : (data.signals input).crcIntx = false) :
    (data.step input).crc lane =
      feed crc16Taps (data.crc lane) ((data.signals input).sddata.getLsbD lane) := by
  rw [← crc16Sampled_eq_feed]
  simp only [SdioData.step, SdioData.crcInput, crc16, crcStep, lines, used, en, out]
  rfl

/-- One clock of the data. -/
theorem shifts_one (state : data.state = .txShift) (lines : input.dataQuad = quad) :
    Shifts quad data [input] [data.dataout input] (consumedWords data input) where
  lines := congrArg (fun line => [line]) (signals_txShift_sddata state input).1
  words := List.append_nil _
  crc := by
    intro lane used
    obtain ⟨line, en, out⟩ := signals_txShift_sddata state input
    rw [← line]
    exact step_crc_of_sent lines used en out
  drives := .one (congrArg DataState.drives state)

/-- A clock after which the data goes on. -/
theorem step_txShift_goesOn (state : data.state = .txShift) (noClear : input.clrStat = false)
    (running : data.cntDone input = false) :
    (data.step input).state = .txShift ∧ (data.signals input).cntStart = false ∧
      consumedWords data input = (if data.lastbitofword input then [input.inData] else []) ∧
      (data.step input).data =
        if data.lastbitofword input then input.inData else data.data := by
  have signals : data.signals input =
      { data.defaults with
        sddata := data.dataout input, sddataOen := false
        inDataReady := data.lastbitofword input } := by
    simp only [SdioData.signals, state, running]
    rfl
  simp [SdioData.step, SdioData.nextData, consumedWords, SdioData.inDataReadyO, signals, noClear,
    SdioData.defaults, state]

/-- The last clock of the data. -/
theorem step_txShift_over (state : data.state = .txShift) (noClear : input.clrStat = false)
    (done : data.cntDone input = true) :
    (data.step input).state = .txCrc ∧ consumedWords data input = [] ∧
      AtClock (data.step input) 15 := by
  have signals : data.signals input =
      { data.defaults with
        sddata := data.dataout input, sddataOen := false, state := .txCrc, cntStart := true
        cntTarget := 15 } := by
    simp only [SdioData.signals, state, done]
    rfl
  refine ⟨by simp [SdioData.step, signals, noClear], ?_, ?_⟩
  · simp [consumedWords, SdioData.inDataReadyO, signals, SdioData.defaults]
  · constructor <;> simp [SdioData.step, SdioData.nextCnt, signals, SdioData.defaults]

/-- The clocks of a byte but the last one. -/
theorem shifts_within (state : data.state = .txShift) (at_bit : AtBit data j c n) (left : n < 512)
    (byte : j < 4) (length : c + inputs.length < byteClocks quad) (steady : Steady quad inputs) :
    Shifts quad data inputs
        ((List.range' c inputs.length).map (byteLine quad (wordByte data.data j))) [] ∧
      (sdioData.runFrom data inputs).state = .txShift ∧
      AtBit (sdioData.runFrom data inputs) j (c + inputs.length) n ∧
      (sdioData.runFrom data inputs).data = data.data := by
  induction inputs generalizing data c with
  | nil => exact ⟨.nil, state, at_bit, rfl⟩
  | cons input inputs inductionHypothesis =>
      obtain ⟨⟨lines, noClear⟩, steady⟩ := List.forall_mem_cons.mp steady
      rw [List.length_cons, ← Nat.add_assoc, Nat.add_right_comm] at length
      have more : c + 1 < byteClocks quad := (Nat.le_add_right ..).trans_lt length
      have inside := Nat.lt_of_succ_lt more
      have running : data.cntDone input = false := by
        simp [at_bit.cntDone lines inside left, more.ne]
      have goesOn : data.lastbitofword input = false := by
        simp [at_bit.lastbitofword lines inside byte, more.ne]
      obtain ⟨next, quiet, nothing, same⟩ := step_txShift_goesOn state noClear running
      rw [goesOn, if_neg Bool.false_ne_true] at nothing same
      obtain ⟨shifts, after, at_end, kept⟩ :=
        inductionHypothesis next (at_bit.next lines quiet left more) length steady
      rw [same] at shifts kept
      have one := shifts_one state lines
      rw [nothing, at_bit.dataout lines inside byte] at one
      refine ⟨one.append shifts, after, ?_, kept⟩
      rwa [Nat.add_right_comm, Nat.add_assoc] at at_end

/-- A byte that is not the last one. -/
theorem shifts_byte {body : List SdioDataInput} {last : SdioDataInput}
    (state : data.state = .txShift) (at_bit : AtBit data j 0 (n + 1)) (left : n + 1 < 512)
    (byte : j < 4) (length : body.length + 1 = byteClocks quad)
    (steady : Steady quad (body ++ [last])) :
    Shifts quad data (body ++ [last]) (byteLines quad (wordByte data.data j))
        (if j = 3 then [last.inData] else []) ∧
      (sdioData.runFrom data (body ++ [last])).state = .txShift ∧
      AtBit (sdioData.runFrom data (body ++ [last])) (j + 1) 0 n ∧
      (sdioData.runFrom data (body ++ [last])).data =
        if j = 3 then last.inData else data.data := by
  obtain ⟨steadyBody, steadyLast⟩ := List.forall_mem_append.mp steady
  obtain ⟨lines, noClear⟩ := steadyLast last List.mem_cons_self
  have inside : body.length < byteClocks quad := length ▸ Nat.lt_succ_self _
  obtain ⟨shifts, next, at_end, same⟩ :=
    shifts_within state at_bit left byte (by rwa [Nat.zero_add]) steadyBody
  rw [Nat.zero_add] at at_end
  have running : (sdioData.runFrom data body).cntDone last = false := by
    simp [at_end.cntDone lines inside left]
  have ends : (sdioData.runFrom data body).lastbitofword last = decide (j = 3) := by
    simp [at_end.lastbitofword lines inside byte, length]
  obtain ⟨after, quiet, words, word⟩ := step_txShift_goesOn next noClear running
  simp only [ends, decide_eq_true_eq] at words word
  have one := shifts_one next lines
  rw [words, at_end.dataout lines inside byte, same] at one
  rw [same] at word
  rw [← byteLines_snoc _ length, ← List.nil_append (if j = 3 then _ else _), Machine.runFrom_append]
  exact ⟨shifts.append one, after, at_end.nextByte lines quiet left length, word⟩

/-- The last byte. -/
theorem shifts_lastByte {body : List SdioDataInput} {last : SdioDataInput}
    (state : data.state = .txShift) (at_bit : AtBit data j 0 0) (byte : j < 4)
    (length : body.length + 1 = byteClocks quad) (steady : Steady quad (body ++ [last])) :
    Shifts quad data (body ++ [last]) (byteLines quad (wordByte data.data j)) [] ∧
      (sdioData.runFrom data (body ++ [last])).state = .txCrc ∧
      AtClock (sdioData.runFrom data (body ++ [last])) 15 := by
  obtain ⟨steadyBody, steadyLast⟩ := List.forall_mem_append.mp steady
  obtain ⟨lines, noClear⟩ := steadyLast last List.mem_cons_self
  obtain ⟨shifts, next, at_end, same⟩ :=
    shifts_within state at_bit (by decide) byte (by omega) steadyBody
  rw [Nat.zero_add] at at_end
  obtain ⟨after, words, counters⟩ := step_txShift_over next noClear (at_end.done lines length)
  have one := shifts_one next lines
  rw [words, at_end.dataout lines (length ▸ Nat.lt_succ_self _) byte, same] at one
  rw [← byteLines_snoc _ length, ← List.nil_append ([] : List (BitVec 32)), Machine.runFrom_append]
  exact ⟨shifts.append one, after, counters⟩

/-- The bytes of a block, from byte `j` of the word on that the register holds. -/
theorem shifts_bytes (state : data.state = .txShift) (at_bit : AtBit data j 0 n) (left : n < 512)
    (byte : j < 4) (length : inputs.length = byteClocks quad * (n + 1))
    (steady : Steady quad inputs) :
    ∃ taken, Shifts quad data inputs
        (bytesLines quad (((wordBytes data.data).drop j ++ taken.flatMap wordBytes).take (n + 1)))
        taken ∧
      taken.length = (j + n) / 4 ∧
      (sdioData.runFrom data inputs).state = .txCrc ∧
        AtClock (sdioData.runFrom data inputs) 15 := by
  induction n generalizing data inputs j with
  | zero =>
      obtain ⟨body, last, rest, rfl, ofByte, none⟩ := exists_firstByte length
      obtain rfl := List.length_eq_zero_iff.mp none
      rw [List.append_nil] at steady ⊢
      obtain ⟨shifts, after⟩ := shifts_lastByte state at_bit byte ofByte steady
      refine ⟨[], ?_, by rw [List.length_nil]; omega, after⟩
      rw [wordBytes_drop _ byte, List.cons_append, List.take_succ_cons, List.take_zero,
        bytesLines_cons]
      exact (List.append_nil _).symm ▸ shifts
  | succ n inductionHypothesis =>
      obtain ⟨body, last, rest, rfl, ofByte, ofRest⟩ := exists_firstByte length
      obtain ⟨steadyByte, steadyRest⟩ := List.forall_mem_append.mp steady
      obtain ⟨shifts, next, at_next, word⟩ := shifts_byte state at_bit left byte ofByte steadyByte
      rw [Machine.runFrom_append]
      by_cases wraps : j = 3
      · subst wraps
        rw [if_pos rfl] at shifts word
        obtain ⟨taken, later, count, after⟩ :=
          inductionHypothesis next at_next.wrap (Nat.lt_of_succ_lt left) (by decide)
            ofRest steadyRest
        rw [word] at later
        refine ⟨last.inData :: taken, ?_, by rw [List.length_cons, count]; omega, after⟩
        rw [wordBytes_drop _ byte, List.cons_append, List.take_succ_cons, bytesLines_cons]
        exact shifts.append later
      · rw [if_neg wraps] at shifts word
        obtain ⟨taken, later, count, after⟩ :=
          inductionHypothesis next at_next (Nat.lt_of_succ_lt left) (by omega) ofRest steadyRest
        rw [word] at later
        refine ⟨taken, ?_, by rw [count]; omega, after⟩
        rw [wordBytes_drop _ byte, List.cons_append, List.take_succ_cons, bytesLines_cons]
        exact shifts.append later

/-! ## The check and the stop bit -/

theorem getLsbD_crcOut (data : SdioData) (lane : Fin 4) :
    data.crcOut.getLsbD lane = (data.crc lane).getMsbD 0 := by
  rw [SdioData.crcOut, BitVec.getLsbD_setWidth, BitVec.getLsbD_ofBoolListLE]
  fin_cases lane <;> rfl

/-- A clock of the check. -/
theorem step_blockCheck (state : data.state = .txCrc) (lines : input.dataQuad = quad) :
    (data.step input).sddata = data.crcOut ∧ consumedWords data input = [] ∧
      (data.signals input).cntStart = false ∧
      ∀ lane, SdioData.laneUsed quad lane = true →
        (data.step input).crc lane = data.crc lane <<< 1 := by
  have signals : (data.signals input).sddata = data.crcOut ∧
      (data.signals input).inDataReady = false ∧ (data.signals input).cntStart = false ∧
      (data.signals input).crcShift = true ∧ (data.signals input).crcEn = false ∧
      (data.signals input).crcClr = false := by
    simp only [SdioData.signals, state]
    split <;> exact ⟨rfl, rfl, rfl, rfl, rfl, rfl⟩
  obtain ⟨line, nothing, quiet, shift, en, clr⟩ := signals
  refine ⟨line, by simp [consumedWords, SdioData.inDataReadyO, nothing], quiet, fun lane used => ?_⟩
  simp [SdioData.step, SdioData.crcInput, crc16, crcStep, lines, used, shift, en, clr]

theorem step_blockCheck_state (state : data.state = .txCrc) (noClear : input.clrStat = false) :
    (data.step input).state = if data.cntDone input then .txEnd else .txCrc := by
  cases done : data.cntDone input with
  | true =>
      simp only [SdioData.step, SdioData.signals, state, noClear, done]
      rfl
  | false =>
      simp only [SdioData.step, SdioData.signals, state, noClear, done]
      exact state

/-- The check is shifted out. -/
theorem runFrom_blockCheck (state : data.state = .txCrc) (at_clock : AtClock data n)
    (left : n < 512)
    (length : inputs.length = n + 1) (steady : Steady quad inputs) :
    (∀ lane, SdioData.laneUsed quad lane = true →
        laneBits lane (sdioData.observedFrom sddataLines data inputs) =
          (List.range (n + 1)).map fun i => (data.crc lane).getMsbD i) ∧
      sdioData.observedFrom consumedWords data inputs = [] ∧
      (sdioData.runFrom data inputs).state = .txEnd ∧
      Drives data inputs := by
  induction inputs generalizing data n with
  | nil => exact absurd length (Nat.succ_ne_zero n).symm
  | cons input inputs inductionHypothesis =>
      obtain ⟨⟨lines, noClear⟩, steady⟩ := List.forall_mem_cons.mp steady
      rw [List.length_cons, Nat.add_right_cancel_iff] at length
      obtain ⟨line, nothing, quiet, crc⟩ := step_blockCheck state lines
      have next := step_blockCheck_state state noClear
      have here : Drives data [input] := .one (congrArg DataState.drives state)
      rw [at_clock.cntDone left] at next
      cases n with
      | zero =>
          obtain rfl := List.length_eq_zero_iff.mp length
          refine ⟨fun lane used => ?_, ?_, next, here⟩
          · change [(data.step input).sddata.getLsbD lane] = _
            rw [line, getLsbD_crcOut]
            rfl
          · exact (List.append_nil _).trans nothing
      | succ n =>
          obtain ⟨lanes, words, ended, drives⟩ := inductionHypothesis (by simpa using next)
            (at_clock.next left quiet) (Nat.lt_of_succ_lt left) length steady
          refine ⟨fun lane used => ?_, ?_, ended, here.append drives⟩
          · rw [range_getMsbD_succ, ← crc lane used, ← lanes lane used, ← getLsbD_crcOut, ← line]
            rfl
          · change consumedWords data input ++ _ = []
            rw [nothing, List.nil_append]
            exact words

end Shifting

end CoreVMcu.Sdio
