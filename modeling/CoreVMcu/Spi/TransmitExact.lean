import CoreVMcu.Spi.TransmitHistory

/-!
# What a command sends

A command is sent as after reset exactly when its words take whole clocks and the counter
of the words of a transfer, which no start clears, is at zero; or when all its words are in
the first data word and the counter does not come to their number before the last one.
-/

namespace CoreVMcu.Spi

open Clocked

namespace TransferSetup

/-- The words of a transfer are whole clocks, and it takes its data words as after reset
from the counter that it finds. -/
def StartsAfresh (setup : TransferSetup) (count : BitVec 2) : Prop :=
  setup.lanes ∣ setup.wordBits ∧
    (count = 0 ∨ setup.size.toNat ≤ setup.wordtransf.toNat ∧
      (count.toNat ≤ setup.wordtransf.toNat →
        count.toNat + setup.size.toNat ≤ setup.wordtransf.toNat))

variable {setup : TransferSetup}

/-- From a counter that is found in order the words have their data words. -/
theorem StartsAfresh.used {count : BitVec 2} (afresh : setup.StartsAfresh count)
    (packs : setup.Packs) {word : Nat} (inside : word ≤ setup.size.toNat) :
    setup.used count word = word / setup.perTransfer := by
  rcases afresh.2 with zero | ⟨few, room⟩
  · rw [zero, used_zero packs]
  · by_cases zero : count = 0
    · rw [zero, used_zero packs]
    · have none := (used_before packs zero).1 word (Nat.le_trans inside few) fun low =>
        Nat.le_trans (Nat.add_le_add_left inside _) (room low)
      rw [none]
      exact (Nat.div_eq_of_lt (Nat.lt_succ_of_le (Nat.le_trans inside few))).symm

/-- From another counter some word has the first data word and should not, or the other
way round. -/
theorem exists_misplaced (packs : setup.Packs) (whole : setup.lanes ∣ setup.wordBits)
    {count : BitVec 2} (stale : ¬setup.StartsAfresh count) :
    ∃ word ≤ setup.size.toNat, ¬(setup.used count word = 0 ↔ word / setup.perTransfer = 0) := by
  rw [StartsAfresh, not_and] at stale
  obtain ⟨notZero, late⟩ := not_or.mp (stale whole)
  obtain ⟨-, low, high⟩ := used_before packs notZero
  have positive : 0 < count.toNat := Nat.pos_of_ne_zero fun zero =>
    notZero (BitVec.eq_of_toNat_eq zero)
  rcases Nat.lt_or_ge setup.wordtransf.toNat count.toNat with above | below
  · refine ⟨setup.wordtransf.toNat + 1, ?_, ?_⟩
    · apply Nat.lt_of_not_le
      intro few
      exact late ⟨few, fun within => absurd above (Nat.not_lt_of_le within)⟩
    · rw [high above]
      change ¬(0 = 0 ↔ setup.perTransfer / setup.perTransfer = 0)
      rw [Nat.div_self (perTransfer_pos setup)]
      decide
  · refine ⟨setup.wordtransf.toNat - count.toNat + 1, ?_, ?_⟩
    · apply Nat.lt_of_not_le
      intro few
      exact late ⟨by omega, fun _ => by omega⟩
    · rw [low below, Nat.div_eq_of_lt]
      · decide
      · change _ < setup.wordtransf.toNat + 1
        omega

end TransferSetup

/-! ## Runs of a command -/

/-- The data words of a command and the bits that it sends are those that its fields and the
data words say. -/
structure SentAs (setup : TransferSetup) (words : List (BitVec 32)) (bits : List (List Bool))
    (ended : Prop) : Prop where
  begins : bits <+: setup.transferBits words
  takes : words.length ≤ setup.dataWords
  complete : ended → bits = setup.transferBits words ∧ words.length = setup.dataWords

section Runs

variable {setup : TransferSetup} {count : BitVec 2} {words : List (BitVec 32)}
  {bits : List (List Bool)} {txRx : TxRx}

/-- The first clocks of a transfer begin with words of it. -/
theorem word_le_size {word n : Nat} (begun : word * setup.wordClocks < n)
    (before : n ≤ setup.clocks) : word ≤ setup.size.toNat := by
  have inside := Nat.lt_of_lt_of_le begun before
  exact Nat.le_of_lt_succ (Nat.lt_of_mul_lt_mul_right inside)

/-- From a counter that is found in order a transfer is sent as its data words say. -/
theorem TransmitStage.sentAs (packs : setup.Packs) (afresh : setup.StartsAfresh count)
    (stage : TransmitStage setup count words bits txRx) :
    SentAs setup words bits (txRx.txState = .idle) := by
  have same : ∀ n ≤ setup.clocks, setup.firstBits (setup.dataOf count words) n =
      setup.firstBits (fun word => words.getD (word / setup.perTransfer) 0) n := by
    intro n before
    apply TransferSetup.firstBits_congr
    intro word begun
    rw [TransferSetup.dataOf, afresh.used packs (word_le_size begun before)]
  have bound : ∀ {word : Nat}, word < setup.wordCount →
      setup.used count word < setup.dataWords := by
    intro word inside
    rw [afresh.used packs (Nat.le_of_lt_succ inside)]
    exact Nat.lt_succ_of_le (Nat.div_le_div_right (Nat.le_of_lt_succ inside))
  cases stage with
  | waiting word position state length taken sent =>
      have before : word * setup.wordClocks ≤ setup.clocks :=
        Nat.mul_le_mul_right _ (Nat.le_of_lt position.inside)
      refine ⟨?_, ?_, ?_⟩
      · rw [sent, same _ before]
        exact TransferSetup.firstBits_prefix _ before
      · rw [length]
        exact Nat.le_of_lt (bound position.inside)
      · intro idle
        rw [state] at idle
        cases idle
  | sending word clock position state length data sent =>
      have before : word * setup.wordClocks + clock ≤ setup.clocks := by
        have room : (word + 1) * setup.wordClocks ≤ setup.clocks :=
          Nat.mul_le_mul_right _ position.inside
        have inWord := position.inWord
        rw [Nat.succ_mul] at room
        omega
      refine ⟨?_, ?_, ?_⟩
      · rw [sent, same _ before]
        exact TransferSetup.firstBits_prefix _ before
      · rw [length]
        exact bound position.inside
      · intro idle
        rw [state] at idle
        cases idle
  | ended state follows length sent =>
      have whole : bits = setup.transferBits words := by
        rw [sent, same _ (Nat.le_refl _)]
        rfl
      have all : words.length = setup.dataWords := by
        rw [length, afresh.used packs (Nat.le_refl _)]
        rfl
      exact ⟨whole ▸ List.prefix_refl _, Nat.le_of_eq all, fun _ => ⟨whole, all⟩⟩

variable {master : SpiMaster}

/-- The interpreter waits while the transmitter is busy. -/
theorem CommandStage.busy (stage : CommandStage master) (active : master.txRx.txState ≠ .idle) :
    master.ctrl.state = .waitDone := by
  cases stage with
  | sends state | both state => exact state
  | rests _ _ idle | receives _ _ idle | checks _ _ idle | stands _ _ _ _ _ idle =>
      exact absurd idle active

/-- A transmitter that has data goes on sending until it is done. -/
theorem step_valid {input : TxRxInput} (goes : Goes setup input) (state : txRx.txState = .send)
    (valid : input.txDataValid = true) :
    ((txRx.step input).txState = .idle ∨ (txRx.step input).txState = .send) ∧
      (txRx.bitsDriven input).length = 1 := by
  have tx := txSignals_sending state goes.txStart
  constructor
  · change (txRx.txSignals input).stateNext = .idle ∨ (txRx.txSignals input).stateNext = .send
    rw [tx, valid, Bool.not_true, Bool.and_false]
    cases txRx.txEndsCount && txRx.txIsLast with
    | true => exact .inl rfl
    | false => exact .inr rfl
  · have clocked : txRx.clken input = true := by
      rw [TxRx.clken, tx]
      exact ite_self _
    rw [TxRx.bitsDriven, clocked]
    rfl

/-- A transmitter that is done stays so. -/
theorem idle_runFrom (idle : master.txRx.txState = .idle) {rest : List MasterInput}
    (busy : spimMachine.AlwaysFrom SpiMaster.Busy master rest) :
    (spimMachine.runFrom master rest).txRx.txState = .idle := by
  induction rest generalizing master with
  | nil => exact idle
  | cons input rest inductionHypothesis =>
      exact inductionHypothesis (step_txState_resting idle (quiet_waitDone busy.1 input).1) busy.2

/-- With data always there the line is clocked in every cycle until the transmitter is done. -/
theorem sends_on (stage : CommandStage master) (state : master.txRx.txState = .send)
    (qpi : master.ctrl.qpi = setup.qpi) {rest : List MasterInput}
    (valid : ∀ input ∈ rest, input.udmaTxDataValid = true) :
    (∃ earlier, earlier <+: rest ∧ spimMachine.AlwaysFrom SpiMaster.Busy master earlier ∧
        (spimMachine.runFrom master earlier).txRx.txState = .idle) ∨
      spimMachine.AlwaysFrom SpiMaster.Busy master rest ∧
        (spimMachine.runFrom master rest).txRx.txState = .send ∧
          (spimMachine.observedFrom SpiMaster.bitsDriven master rest).length = rest.length := by
  induction rest generalizing master with
  | nil => exact .inr ⟨trivial, state, rfl⟩
  | cons input rest inductionHypothesis =>
      have busy := stage.busy (by rw [state]; intro same; cases same)
      have goes := goes_busy busy qpi input
      have given : (master.txRxInput input).txDataValid = true := by
        rw [txRxInput_waitDone busy]
        exact valid input (List.mem_cons_self ..)
      obtain ⟨next, clocked⟩ := step_valid goes state given
      rcases next with idle | sends
      · exact .inl ⟨[input], List.prefix_append [input] rest, ⟨busy, trivial⟩, idle⟩
      · have later := inductionHypothesis (stage.step input) sends
          ((step_waitDone_qpi input busy).trans qpi)
          fun input member => valid input (List.mem_cons_of_mem _ member)
        rcases later with ⟨earlier, before, goesOn, idle⟩ | ⟨goesOn, state, length⟩
        · exact .inl
            ⟨input :: earlier, List.cons_prefix_cons.mpr ⟨rfl, before⟩, ⟨busy, goesOn⟩, idle⟩
        · refine .inr ⟨⟨busy, goesOn⟩, state, ?_⟩
          rw [Machine.observedFrom, List.length_append, List.length_cons, Nat.add_comm]
          exact congrArg₂ (· + ·) length clocked

/-- A transfer that is sent has clocks left. -/
theorem TransmitStage.clocks_left (stage : TransmitStage setup count words bits txRx)
    (state : txRx.txState = .send) : bits.length < setup.clocks := by
  cases stage with
  | waiting _ _ waits =>
      rw [waits] at state
      cases state
  | ended idle =>
      rw [idle] at state
      cases state
  | sending word clock position _ _ _ sent =>
      have room : (word + 1) * setup.wordClocks ≤ setup.clocks :=
        Nat.mul_le_mul_right _ position.inside
      have inWord := position.inWord
      rw [Nat.succ_mul] at room
      rw [sent, TransferSetup.firstBits_length]
      omega

/-- With data always there a transfer is over after its clocks. -/
theorem TransmitStage.ends (packs : setup.Packs) (whole : setup.lanes ∣ setup.wordBits)
    (command : CommandStage master) (qpi : master.ctrl.qpi = setup.qpi)
    (stage : TransmitStage setup count words bits master.txRx)
    (state : master.txRx.txState = .send) {rest : List MasterInput}
    (valid : ∀ input ∈ rest, input.udmaTxDataValid = true) (long : setup.clocks ≤ rest.length) :
    ∃ earlier, earlier <+: rest ∧ spimMachine.AlwaysFrom SpiMaster.Busy master earlier ∧
      (spimMachine.runFrom master earlier).txRx.txState = .idle := by
  rcases sends_on command state qpi valid with ended | ⟨busy, sends, length⟩
  · exact ended
  · have left := (stage.runFrom packs whole qpi busy).clocks_left sends
    rw [List.length_append, length] at left
    omega

end Runs

/-- The data words of a command over some cycles from its start: the one that it has in
itself, and those that the uDMA hands over. -/
def commandWords (master : SpiMaster) (command : BitVec 32) (inputs : List MasterInput) :
    List (BitVec 32) :=
  ownData command ++ spimMachine.observedFrom SpiMaster.wordTransmitted master inputs

/-- The bits that are driven over some cycles from the start of a command. -/
def commandBits (master : SpiMaster) (inputs : List MasterInput) : List (List Bool) :=
  spimMachine.observedFrom SpiMaster.bitsDriven master inputs

/-- A command that starts sends what its fields and its data words say: at any time a
beginning of it, all of it when the transmitter is done, and it is done in time when data is
always there. -/
structure SendsExactly (master : SpiMaster) (first : MasterInput) (command : BitVec 32) : Prop where
  sent : ∀ rest, spimMachine.AlwaysFrom SpiMaster.Busy (master.step first) rest →
    SentAs (transmission command) (commandWords master command (first :: rest))
      (commandBits master (first :: rest))
      ((spimMachine.runFrom master (first :: rest)).txRx.txState = .idle)
  ends : ∀ rest, spimMachine.AlwaysFrom SpiMaster.Busy (master.step first) rest →
    (∀ input ∈ rest, input.udmaTxDataValid = true) →
    (transmission command).clocks + 1 ≤ rest.length →
    (spimMachine.runFrom master (first :: rest)).txRx.txState = .idle

section Commands

variable {master : SpiMaster} {first : MasterInput} {command : BitVec 32}

/-- The stage of a command after some cycles of it. -/
theorem SendStart.runFrom (start : SendStart master first command) (rests : Rests master)
    (whole : (transmission command).lanes ∣ (transmission command).wordBits)
    {rest : List MasterInput}
    (busy : spimMachine.AlwaysFrom SpiMaster.Busy (master.step first) rest) :
    TransmitStage (transmission command) master.txRx.counterTransf
      (commandWords master command (first :: rest)) (commandBits master (first :: rest))
      (spimMachine.runFrom master (first :: rest)).txRx := by
  have stage := (start.stage rests whole).runFrom (transmission_packs command) whole start.qpi busy
  rw [commandWords, commandBits, Machine.observedFrom, Machine.observedFrom, start.noWord,
    start.silent rests]
  exact stage

/-- With data always there a command that sends is over in time. -/
theorem SendStart.ends (start : SendStart master first command) (rests : Rests master)
    (next : CommandStage (master.step first))
    (whole : (transmission command).lanes ∣ (transmission command).wordBits)
    {rest : List MasterInput} (valid : ∀ input ∈ rest, input.udmaTxDataValid = true)
    (long : (transmission command).clocks + 1 ≤ rest.length) :
    ∃ earlier, earlier <+: rest ∧
      spimMachine.AlwaysFrom SpiMaster.Busy (master.step first) earlier ∧
        (spimMachine.runFrom (master.step first) earlier).txRx.txState = .idle := by
  have stage := start.stage rests whole
  cases state : (master.step first).txRx.txState with
  | idle => exact ⟨[], List.nil_prefix, trivial, state⟩
  | send =>
      exact stage.ends (transmission_packs command) whole next start.qpi state valid
        (Nat.le_of_succ_le long)
  | waitData =>
      cases rest with
      | nil => exact absurd long (Nat.not_succ_le_zero _)
      | cons input rest =>
          have goes := goes_busy start.state start.qpi input
          have given : ((master.step first).txRxInput input).txDataValid = true := by
            rw [txRxInput_waitDone start.state]
            exact valid input (List.mem_cons_self ..)
          have sends : ((master.step first).step input).txRx.txState = .send := by
            change ((master.step first).txRx.txSignals _).stateNext = .send
            rw [txSignals_waiting _ state, given]
            rfl
          have later := stage.step (transmission_packs command) whole goes
          obtain ⟨earlier, before, busy, idle⟩ := later.ends (transmission_packs command) whole
            (next.step input) ((step_waitDone_qpi input start.state).trans start.qpi) sends
            (fun other member => valid other (List.mem_cons_of_mem _ member))
            (Nat.le_of_succ_le_succ long)
          exact ⟨input :: earlier, List.cons_prefix_cons.mpr ⟨rfl, before⟩,
            ⟨start.state, busy⟩, idle⟩

/-- A command that finds the counter in order sends exactly what it should. -/
theorem SendStart.sendsExactly (start : SendStart master first command) (rests : Rests master)
    (next : CommandStage (master.step first))
    (afresh : (transmission command).StartsAfresh master.txRx.counterTransf) :
    SendsExactly master first command where
  sent := fun _ busy =>
    (start.runFrom rests afresh.1 busy).sentAs (transmission_packs command) afresh
  ends := by
    intro rest busy valid long
    obtain ⟨earlier, ⟨later, split⟩, -, idle⟩ := start.ends rests next afresh.1 valid long
    rw [← split, Machine.alwaysFrom_append] at busy
    rw [← split, Machine.runFrom_cons, Machine.runFrom_append]
    exact idle_runFrom idle busy.2

end Commands

/-! ## Commands that are not sent exactly -/

/-- A transfer on four lanes whose words are not whole clocks does not find the end of one. -/
structure Endless (setup : TransferSetup) (txRx : TxRx) : Prop where
  state : txRx.txState ≠ .idle
  follows : txRx.Follows
  bitsword : txRx.bitsword = setup.bitsword
  counterBits : txRx.counterBits.toNat % 4 = 3

section Endless

variable {setup : TransferSetup} {txRx : TxRx} {input : TxRxInput}

/-- Only on four lanes can words be other than whole clocks. -/
theorem quad_of_not_whole (broken : ¬setup.lanes ∣ setup.wordBits) :
    setup.qpi = true ∧ setup.bitsword.toNat % 4 ≠ 3 := by
  rw [TransferSetup.lanes, TransferSetup.wordBits] at broken
  cases quad : setup.qpi with
  | false =>
      rw [quad, if_neg Bool.false_ne_true] at broken
      exact absurd (Nat.one_dvd _) broken
  | true =>
      rw [quad, if_pos rfl] at broken
      exact ⟨rfl, by omega⟩

theorem Endless.bitsDone (endless : Endless setup txRx) (broken : ¬setup.lanes ∣ setup.wordBits) :
    txRx.bitsDone = false := by
  rw [TxRx.bitsDone, endless.bitsword, beq_eq_false_iff_ne]
  intro same
  exact (quad_of_not_whole broken).2 (same ▸ endless.counterBits)

theorem Endless.step (endless : Endless setup txRx) (broken : ¬setup.lanes ∣ setup.wordBits)
    (goes : Goes setup input) : Endless setup (txRx.step input) := by
  have inside := endless.bitsDone broken
  have follows := step_follows endless.follows goes
  have active : (txRx.step input).txState ≠ .idle := by
    intro idle
    have done := (txSignals_done_iff endless.state goes.txStart).mpr idle
    rw [(txSignals_ends input endless.state goes.txStart).1, TxRx.txEndsCount, inside,
      Bool.false_and, Bool.and_false] at done
    cases done
  cases state : txRx.txState with
  | idle => exact absurd state endless.state
  | send =>
      have counts := (step_sending endless.follows goes state).1 inside
      refine ⟨active, follows, counts.bitsword.trans endless.bitsword, ?_⟩
      rw [counts.counterBits, TxRx.nextBits, inside, if_neg Bool.false_ne_true,
        (quad_of_not_whole broken).1, BitVec.toNat_add]
      have before := endless.counterBits
      change (_ + 4) % 32 % 4 = 3
      omega
  | waitData =>
      obtain ⟨kept, -, counterBits, -⟩ := Spi.step_waiting endless.follows goes state
      refine ⟨active, follows, kept.bitsword.trans endless.bitsword, ?_⟩
      rw [counterBits]
      exact endless.counterBits

/-- Such a command is never over. -/
theorem Endless.runFrom {master : SpiMaster} (stage : CommandStage master)
    (endless : Endless setup master.txRx) (broken : ¬setup.lanes ∣ setup.wordBits)
    (qpi : master.ctrl.qpi = setup.qpi) (rest : List MasterInput) :
    spimMachine.AlwaysFrom SpiMaster.Busy master rest ∧
      Endless setup (spimMachine.runFrom master rest).txRx := by
  induction rest generalizing master with
  | nil => exact ⟨trivial, endless⟩
  | cons input rest inductionHypothesis =>
      have busy := stage.busy endless.state
      obtain ⟨later, ended⟩ := inductionHypothesis (stage.step input)
        (endless.step broken (goes_busy busy qpi input)) ((step_waitDone_qpi input busy).trans qpi)
      exact ⟨⟨busy, later⟩, ended⟩

end Endless

/-- A cycle in which a data word is there. -/
def dataCycle (data : BitVec 32) : MasterInput :=
  { event := 0, udmaCmd := 0, udmaCmdValid := false, udmaTxData := data, udmaTxDataValid := true
    udmaRxDataReady := true, sdi := ⟨false, false, false, false⟩ }

section Converse

variable {master : SpiMaster} {first : MasterInput} {command : BitVec 32}

/-- The first state of a command whose words are not whole clocks. -/
theorem SendStart.endless (start : SendStart master first command) (rests : Rests master)
    (broken : ¬(transmission command).lanes ∣ (transmission command).wordBits) :
    Endless (transmission command) (master.step first).txRx := by
  have txStart : (master.txRxInput first).tx.start = true := by
    rw [start.tx, transmission_start]
  have starts := step_startsAt rests.txState rests.rxState start.tx (transmission_start command)
  refine ⟨step_txStart rests.txState txStart, step_starts_follows rests.rxState txStart,
    starts.bitsword, ?_⟩
  change (master.txRx.step (master.txRxInput first)).counterBits.toNat % 4 = 3
  rw [starts.counterBits, (quad_of_not_whole broken).1]
  rfl

theorem sendsExactly_whole (start : SendStart master first command) (rests : Rests master)
    (next : CommandStage (master.step first)) (exactly : SendsExactly master first command) :
    (transmission command).lanes ∣ (transmission command).wordBits := by
  by_contra broken
  have runs := (start.endless rests broken).runFrom next broken start.qpi
  obtain ⟨busy, ended⟩ := runs (List.replicate ((transmission command).clocks + 1) (dataCycle 0))
  refine ended.state (exactly.ends _ busy ?_ ?_)
  · intro input member
    rw [List.eq_of_mem_replicate member]
    rfl
  · exact Nat.le_of_eq List.length_replicate.symm

/-- Transfers with the same bits have the same bit in the first lane of every word. -/
theorem getLsbD_of_firstBits {setup : TransferSetup} (whole : setup.lanes ∣ setup.wordBits)
    {source other : Nat → BitVec 32}
    (same : setup.firstBits source setup.clocks = setup.firstBits other setup.clocks)
    {word : Nat} (inside : word < setup.wordCount) :
    (source word).getLsbD (setup.place word 0 0) = (other word).getLsbD (setup.place word 0 0) := by
  have positive := TransferSetup.wordClocks_pos whole
  have begun : word * setup.wordClocks < setup.clocks :=
    Nat.mul_lt_mul_of_pos_right inside positive
  have clock := List.map_inj_left.mp same _ (List.mem_range.mpr begun)
  rw [Nat.mul_div_cancel _ positive, Nat.mul_mod_left] at clock
  exact List.map_inj_left.mp clock 0 (List.mem_range.mpr (TransferSetup.lanes_pos setup))

/-- A word that is taken is the one that is there. -/
theorem wordTransmitted_mem {input : MasterInput} {data : BitVec 32}
    (taken : data ∈ master.wordTransmitted input) : data = input.udmaTxData := by
  rw [SpiMaster.wordTransmitted] at taken
  split at taken
  · exact List.mem_singleton.mp taken
  · cases taken

theorem words_of_replicate (master : SpiMaster) {data : BitVec 32} {later : List MasterInput}
    (constant : ∀ input ∈ later, input = dataCycle data) :
    ∀ word ∈ spimMachine.observedFrom SpiMaster.wordTransmitted master later, word = data := by
  induction later generalizing master with
  | nil =>
      intro word member
      cases member
  | cons input later inductionHypothesis =>
      intro word member
      rw [Machine.observedFrom, List.mem_append] at member
      rcases member with now | after
      · rw [wordTransmitted_mem now, constant input (List.mem_cons_self ..)]
        rfl
      · exact inductionHypothesis _
          (fun other member => constant other (List.mem_cons_of_mem _ member)) word after

/-- A data word of zeros is followed by data words of ones. -/
theorem getLsbD_zero_ones {later : List (BitVec 32)}
    (ones : ∀ word ∈ later, word = BitVec.allOnes 32)
    {index place : Nat} (inside : index < (0 :: later).length) (bit : place < 32) :
    ((0#32 :: later).getD index 0).getLsbD place = decide (index ≠ 0) := by
  cases index with
  | zero => simp
  | succ index =>
      have there : index < later.length := Nat.lt_of_succ_lt_succ inside
      rw [List.getD_cons_succ, List.getD_eq_getElem _ _ there, ones _ (List.getElem_mem there),
        BitVec.getLsbD_allOnes]
      simp [bit]

/-- A command with a single word finds every counter in order. -/
theorem afresh_sendCmd (cmd : spiCmd command = some .sendCmd) (count : BitVec 2)
    (whole : (transmission command).lanes ∣ (transmission command).wordBits) :
    (transmission command).StartsAfresh count := by
  refine ⟨whole, .inr ?_⟩
  rw [transmission, cmd]
  exact ⟨Nat.le_refl _, id⟩

/-- A command that finds another counter goes wrong with a data word of zeros that data words
of ones follow. -/
theorem sendsExactly_counter (start : SendStart master first command) (rests : Rests master)
    (next : CommandStage (master.step first)) (exactly : SendsExactly master first command)
    (whole : (transmission command).lanes ∣ (transmission command).wordBits) :
    (transmission command).StartsAfresh master.txRx.counterTransf := by
  by_contra stale
  obtain ⟨word, inside, misplaced⟩ :=
    TransferSetup.exists_misplaced (transmission_packs command) whole stale
  have noOwn : (spiCmd command == some .sendCmd) = false := by
    rw [beq_eq_false_iff_ne]
    intro cmd
    exact stale (afresh_sendCmd cmd _ whole)
  have noData := start.valid.trans noOwn
  have own := start.data
  rw [noData, if_neg Bool.false_ne_true] at own
  have waits : (master.step first).txRx.txState = .waitData := by
    change (master.txRx.txSignals (master.txRxInput first)).stateNext = _
    rw [txSignals_starting rests.txState (by rw [start.tx, transmission_start]), noData]
    rfl
  -- The data words come as fast as they are taken.
  have valid : ∀ input ∈ dataCycle 0 ::
      List.replicate (transmission command).clocks (dataCycle (BitVec.allOnes 32)),
      input.udmaTxDataValid = true := by
    intro input member
    rcases List.mem_cons.mp member with same | later
    · rw [same]
      rfl
    · rw [List.eq_of_mem_replicate later]
      rfl
  obtain ⟨earlier, before, busy, idle⟩ := start.ends rests next whole valid
    (by rw [List.length_cons, List.length_replicate])
  cases earlier with
  | nil =>
      rw [Machine.runFrom] at idle
      exact absurd (waits.symm.trans idle) (by decide)
  | cons input later =>
      obtain ⟨same, within⟩ := List.cons_prefix_cons.mp before
      have ones := words_of_replicate ((master.step first).step input)
        fun other member => List.eq_of_mem_replicate (within.subset member)
      have taken : (master.step first).wordTransmitted input = [0#32] := by
        rw [wordTransmitted_busy start.state start.qpi, TxRx.wordTaken, txSignals_waiting _ waits,
          txRxInput_waitDone start.state, same]
        rfl
      have words : commandWords master command (first :: input :: later) =
          0#32 :: spimMachine.observedFrom SpiMaster.wordTransmitted
            ((master.step first).step input) later := by
        rw [commandWords, own, Machine.observedFrom, Machine.observedFrom, start.noWord]
        change _ ++ ((master.step first).wordTransmitted input ++ _) = _
        rw [taken]
        rfl
      obtain ⟨bits, length⟩ := (exactly.sent _ busy).complete idle
      cases start.runFrom rests whole busy with
      | waiting _ _ state =>
          exact absurd (state.symm.trans idle) (by decide)
      | sending _ _ _ state =>
          exact absurd (state.symm.trans idle) (by decide)
      | ended _ _ used sent =>
          have bit := getLsbD_of_firstBits whole (sent.symm.trans bits) (Nat.lt_succ_of_le inside)
          have placed : (transmission command).place word 0 0 < 32 := Nat.mod_lt _ (by decide)
          have there := Nat.lt_succ_of_le
            ((transmission command).used_mono master.txRx.counterTransf inside)
          have begun : word / (transmission command).perTransfer <
              (transmission command).dataWords :=
            Nat.lt_succ_of_le (Nat.div_le_div_right inside)
          rw [← length] at begun
          rw [Nat.succ_eq_add_one, ← used] at there
          rw [TransferSetup.dataOf] at bit
          rw [words] at bit begun there
          rw [getLsbD_zero_ones ones there placed, getLsbD_zero_ones ones begun placed,
            decide_eq_decide] at bit
          exact misplaced (not_iff_not.mp bit)

end Converse

/-- The commands that send in every run: which of them send what they should. -/
theorem sendsExactly_iff (inputs : List MasterInput) (first : MasterInput) (command : BitVec 32)
    (accepts : Accepts (spimMachine.run inputs) first command) (sends : Sends (spiCmd command)) :
    SendsExactly (spimMachine.run inputs) first command ↔
      (transmission command).StartsAfresh (spimMachine.run inputs).txRx.counterTransf := by
  have rests := run_rests accepts.idle
  have start := accepts.sendStart rests sends
  have next := (run_stage inputs).step first
  constructor
  · intro exactly
    exact sendsExactly_counter start rests next exactly
      (sendsExactly_whole start rests next exactly)
  · exact start.sendsExactly rests next

/-- A cycle with a command. -/
def commandCycle (command : BitVec 32) : MasterInput :=
  { dataCycle 0 with udmaCmd := command, udmaCmdValid := true, udmaTxDataValid := false }

/-- After reset two words of one bit are sent as they should. -/
theorem sendsExactly_iff_reset :
    SendsExactly (spimMachine.run []) (commandCycle 0x60200001) 0x60200001 ↔
      (transmission 0x60200001).StartsAfresh (spimMachine.run []).txRx.counterTransf :=
  sendsExactly_iff [] (commandCycle 0x60200001) 0x60200001 ⟨rfl, rfl, rfl⟩ (.inr (.inl rfl))

/-- One word of one bit, where two are packed into a data word. -/
def halfTransfer : List MasterInput := [commandCycle 0x60200000, dataCycle 0, dataCycle 0]

/-- After it the second of two words is taken from another data word. -/
theorem halfTransfer_not_sendsExactly :
    Accepts (spimMachine.run halfTransfer) (commandCycle 0x60200001) 0x60200001 ∧
      ¬SendsExactly (spimMachine.run halfTransfer) (commandCycle 0x60200001) 0x60200001 := by
  refine ⟨⟨by decide +kernel, by decide +kernel, by decide +kernel⟩, ?_⟩
  intro exactly
  have sent := exactly.sent [dataCycle 0, dataCycle (BitVec.allOnes 32), dataCycle 0]
    (by decide +kernel)
  exact absurd (sent.complete (by decide +kernel)).1 (by decide +kernel)

end CoreVMcu.Spi
