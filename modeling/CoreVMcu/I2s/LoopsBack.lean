import CoreVMcu.I2s.RxStream

/-!
# The loopback of the I2S channels

The words that come back are, in each configuration, a definite function of the words
that are taken.  They are the same words only for special words, and with two channels
only if a word has two bits.
-/

namespace CoreVMcu.I2s

open Clocked

variable {cfg : I2sCfg} {words : Nat → BitVec 32} {delay n j : Nat} {loopback : Loopback}

theorem loopbackAt_succ : loopbackAt cfg words delay (n + 1) =
    (loopbackAt cfg words delay n).step cfg words (enabledFrom delay n) := by
  rw [loopbackAt, inputsUpTo_succ, Machine.run_snoc]
  rfl

theorem wordsHandedOver_succ : wordsHandedOver cfg words delay (n + 1) =
    wordsHandedOver cfg words delay n ++ (loopbackAt cfg words delay n).wordHandedOver := by
  rw [wordsHandedOver, inputsUpTo_succ, Machine.observed_snoc]
  rfl

theorem wordsTaken_succ : wordsTaken cfg words delay (n + 1) =
    wordsTaken cfg words delay n ++ (loopbackAt cfg words delay n).wordTaken cfg words := by
  rw [wordsTaken, inputsUpTo_succ, Machine.observed_snoc]
  rfl

/-- The transmitter takes the words of the stream one after the other. -/
theorem wordsTaken_eq : wordsTaken cfg words delay n =
    (List.range (loopbackAt cfg words delay n).position).map words := by
  induction n with
  | zero => rfl
  | succ n inductionHypothesis =>
      rw [wordsTaken_succ, inductionHypothesis, loopbackAt_succ, Loopback.wordTaken]
      change _ = (List.range (if _ then _ else _)).map words
      cases (loopbackAt cfg words delay n).tx.fifoDataReady cfg true with
      | false => exact List.append_nil _
      | true => rw [if_pos rfl, if_pos rfl, List.range_succ, List.map_append, List.map_singleton]

/-! ## The first clocks -/

/-- The transmitter takes its first two words. -/
def TxWaits (words : Nat → BitVec 32) : Nat → TxChannel → Nat → Prop
  | 0, tx, position => tx.rState = .start ∧ position = 0
  | 1, tx, position => tx.rState = .sample ∧ tx.rShiftregCh0 = words 0 ∧ position = 1
  | _ + 2, tx, position =>
      tx.rState = .wait ∧ tx.rShiftregCh0 = words 0 ∧ tx.rShiftregCh1 = words 1 ∧ position = 2

theorem TxWaits.step {tx : TxChannel} {position : Nat} {ws : Bool}
    (waits : TxWaits words n tx position) (quiet : tx.wsEdge ws = false) :
    TxWaits words (n + 1) ((tx.posedge cfg ws true (words position)).negedge cfg)
        (if tx.fifoDataReady cfg true then position + 1 else position) ∧
      (tx.posedge cfg ws true (words position)).rCountBit = tx.rCountBit := by
  match n with
  | 0 =>
      obtain ⟨state, first⟩ := waits
      rw [TxChannel.posedge, TxChannel.machineStep, TxChannel.fifoDataReady, state, first]
      exact ⟨⟨rfl, rfl, rfl⟩, rfl⟩
  | 1 =>
      obtain ⟨state, ch0, second⟩ := waits
      rw [TxChannel.posedge, TxChannel.machineStep, TxChannel.fifoDataReady, state, second]
      exact ⟨⟨rfl, ch0, rfl, rfl⟩, rfl⟩
  | n + 2 =>
      obtain ⟨state, ch0, ch1, third⟩ := waits
      rw [TxChannel.posedge, TxChannel.machineStep, TxChannel.fifoDataReady, state, quiet, third]
      exact ⟨⟨state, ch0, ch1, rfl⟩, rfl⟩

/-- The channels up to the first edge of the word select. -/
structure Waits (cfg : I2sCfg) (words : Nat → BitVec 32) (delay n : Nat) (loopback : Loopback) :
    Prop where
  sync : loopback.sync.rReg = (decide (delay < n), decide (delay + 1 < n))
  counter : loopback.wsGen.rCounter.toNat = n - (delay + 2)
  wordCounter : loopback.wsGen.rWordCounter = 0
  ws : loopback.wsGen.ws = decide (n = delay + 2 + cfg.wlen.toNat)
  wsSync : loopback.tx.rWsSync.1 = false
  count : loopback.tx.rCountBit = 0
  taken : TxWaits words n loopback.tx loopback.position
  rx : loopback.rx = .reset

theorem WsGen.posedge_counter {wsGen : WsGen} {wsEn : Bool} {dataSize : BitVec 5}
    (before : wsGen.rCounter ≠ dataSize) :
    wsGen.posedge wsEn dataSize 0 =
      { wsGen with rCounter := if wsEn then wsGen.rCounter + 1 else wsGen.rCounter } := by
  rw [WsGen.posedge, if_neg before]
  cases wsEn <;> rfl

namespace Waits

/-- The word select before it has toggled. -/
theorem wsGen_step (waits : Waits cfg words delay n loopback) (long : 0 < cfg.wlen.toNat)
    (before : n < delay + 2 + cfg.wlen.toNat) :
    let wsGen := (loopback.step cfg words (enabledFrom delay n)).wsGen
    wsGen.rCounter.toNat = n + 1 - (delay + 2) ∧ wsGen.rWordCounter = 0 ∧
      wsGen.ws = decide (n + 1 = delay + 2 + cfg.wlen.toNat) := by
  have short := cfg.wlen_lt
  have value := waits.counter
  have notLast : loopback.wsGen.rCounter ≠ cfg.wlen := by
    intro last
    rw [last] at value
    omega
  have enabled : loopback.sync.serialOut = decide (delay + 1 < n) := by
    rw [PulpSync.serialOut, waits.sync]
  have enabledNext : (loopback.sync.step (enabledFrom delay n)).serialOut = decide (delay < n) := by
    rw [PulpSync.step, PulpSync.serialOut, waits.sync]
  have counter : (if loopback.sync.serialOut then loopback.wsGen.rCounter + 1
      else loopback.wsGen.rCounter).toNat = n + 1 - (delay + 2) := by
    rw [enabled]
    cases Nat.lt_or_ge (delay + 1) n with
    | inl on =>
        rw [decide_eq_true on, if_pos rfl, BitVec.toNat_add, value]
        exact (Nat.mod_eq_of_lt (show n - (delay + 2) + 1 < 2 ^ 5 by omega)).trans (by omega)
    | inr off =>
        rw [decide_eq_false (Nat.not_lt.mpr off), if_neg Bool.false_ne_true, value]
        omega
  have atEnd : ((if loopback.sync.serialOut then loopback.wsGen.rCounter + 1
      else loopback.wsGen.rCounter) == cfg.wlen) =
        decide (n + 1 - (delay + 2) = cfg.wlen.toNat) := by
    rw [Bool.eq_iff_iff, beq_iff_eq, decide_eq_true_iff, ← BitVec.toNat_inj, counter]
  intro wsGen
  have same : wsGen = (WsGen.negedge
      { loopback.wsGen with
        rCounter := if loopback.sync.serialOut then loopback.wsGen.rCounter + 1
          else loopback.wsGen.rCounter }
      (decide (delay < n)) cfg.wlen 0) := by
    rw [← enabledNext, ← WsGen.posedge_counter notLast]
    rfl
  have low : loopback.wsGen.ws = false := by
    rw [waits.ws]
    exact decide_eq_false (Nat.ne_of_lt before)
  rw [same, WsGen.negedge, atEnd, waits.wordCounter, beq_self_eq_true, Bool.and_true]
  split
  · next toggles =>
      rw [Bool.and_eq_true, decide_eq_true_iff, decide_eq_true_iff] at toggles
      refine ⟨counter, rfl, ?_⟩
      rw [low]
      exact (decide_eq_true (by omega)).symm
  · next quiet =>
      refine ⟨counter, waits.wordCounter, ?_⟩
      rw [low]
      refine (decide_eq_false fun last => quiet ?_).symm
      rw [Bool.and_eq_true, decide_eq_true_iff, decide_eq_true_iff]
      omega

/-- Before the first edge the transmitter takes its first two words. -/
theorem step (waits : Waits cfg words delay n loopback) (long : 0 < cfg.wlen.toNat)
    (before : n < delay + 2 + cfg.wlen.toNat) :
    Waits cfg words delay (n + 1) (loopback.step cfg words (enabledFrom delay n)) := by
  have wsGen := waits.wsGen_step long before
  have low : loopback.wsGen.ws = false := by
    rw [waits.ws]
    exact decide_eq_false (Nat.ne_of_lt before)
  have quiet : loopback.tx.wsEdge loopback.wsGen.ws = false := by
    rw [TxChannel.wsEdge, waits.wsSync, low]
    rfl
  have taken := @TxWaits.step cfg _ _ _ _ _ waits.taken quiet
  refine ⟨?_, wsGen.1, wsGen.2.1, wsGen.2.2, low, ?_, taken.1, ?_⟩
  · change (enabledFrom delay n, loopback.sync.rReg.1) = _
    rw [waits.sync, enabledFrom]
    refine Prod.ext (decide_eq_decide.mpr ?_) (decide_eq_decide.mpr ?_) <;> omega
  · exact taken.2.trans waits.count
  · change loopback.rx.posedge cfg true _ _ loopback.wsGen.ws true = _
    rw [waits.rx, low]
    rfl

end Waits

/-- The channels with the `j`-th bit. -/
structure Runs (cfg : I2sCfg) (words : Nat → BitVec 32) (j : Nat) (loopback : Loopback) :
    Prop where
  tx : TxRuns cfg words (j + 1) loopback.tx loopback.position
  rx : RxRuns cfg words j loopback.rx

theorem Runs.step (runs : Runs cfg words j loopback) (long : 0 < cfg.wlen.toNat) (wsEn : Bool) :
    Runs cfg words (j + 1) (loopback.step cfg words wsEn) := by
  refine ⟨runs.tx.step long _, ?_⟩
  have rx := runs.rx.step long loopback.wsGen.ws loopback.tx.i2sCh1 runs.tx.lineCh1
  rw [← runs.tx.lineCh0] at rx
  exact rx

/-- The receiver has seen an edge of the word select. -/
def RxStarts (rx : RxChannel) : Prop :=
  rx = { RxChannel.reset with rWsOld := true, rStarted := true }

/-- The first edge of the word select starts both channels. -/
theorem Waits.edge (waits : Waits cfg words delay (delay + 2 + cfg.wlen.toNat) loopback)
    (long : 0 < cfg.wlen.toNat) (wsEn : Bool) :
    TxRuns cfg words 0 (loopback.step cfg words wsEn).tx
        (loopback.step cfg words wsEn).position ∧
      RxStarts (loopback.step cfg words wsEn).rx := by
  have high : loopback.wsGen.ws = true := by
    rw [waits.ws]
    exact decide_eq_true rfl
  have edge : loopback.tx.wsEdge loopback.wsGen.ws = true := by
    rw [TxChannel.wsEdge, waits.wsSync, high]
    rfl
  have taken := waits.taken
  rw [Nat.add_right_comm delay 2] at taken
  obtain ⟨state, ch0, ch1, position⟩ := taken
  have word : 0 / cfg.bits = 0 := Nat.zero_div _
  have bit : 0 % cfg.bits = 0 := Nat.zero_mod _
  have holdsCh0 : Holds cfg loopback.tx.rShiftregCh0
      (sentCh0 cfg words (0 / cfg.bits)) (0 % cfg.bits) := by
    have first : sentCh0 cfg words 0 = words 0 := by
      rw [sentCh0]
      split <;> rfl
    rw [word, bit, first, ch0]
    exact .load
  have holdsCh1 : Holds cfg loopback.tx.rShiftregCh1
      (sentCh1 words (0 / cfg.bits)) (0 % cfg.bits) := by
    rw [word, bit, ch1]
    exact .load
  constructor
  · rw [Loopback.step, TxChannel.posedge, TxChannel.machineStep, TxChannel.fifoDataReady, state,
      edge]
    refine ⟨rfl, ?_, holdsCh0, fun _ => holdsCh1, ?_, ?_, holdsCh0.line, fun _ => holdsCh1.line⟩
    · change loopback.tx.rCountBit.toNat = _
      rw [waits.count, bit]
      rfl
    · intro _ last
      rw [bit] at last
      exact absurd last (Nat.ne_of_lt long)
    · change loopback.position = _
      rw [position, word, bit, if_neg (Nat.ne_of_lt long)]
      split <;> rfl
  · change loopback.rx.posedge cfg true _ _ loopback.wsGen.ws true = _
    rw [waits.rx, high]
    rfl

/-- The clock after the first edge. -/
theorem Runs.start (long : 0 < cfg.wlen.toNat) (wsEn : Bool)
    (tx : TxRuns cfg words 0 loopback.tx loopback.position) (rx : RxStarts loopback.rx) :
    Runs cfg words 0 (loopback.step cfg words wsEn) := by
  refine ⟨tx.step long _, ?_⟩
  change RxRuns cfg words 0 (loopback.rx.posedge cfg true _ _ loopback.wsGen.ws true)
  rw [rx]
  have none : ¬cfg.bits ≤ 0 := Nat.not_le.mpr cfg.bits_pos
  refine ⟨?_, rfl, (Nat.zero_mod _).symm, .zero, fun _ => .zero, fun room => absurd room none,
    fun _ room => absurd room none, (decide_eq_false fun both => none both.1).symm, ?_⟩
  · cases loopback.wsGen.ws <;> rfl
  · rw [decide_eq_false none, Bool.and_false]
    rfl

/-- Nothing is handed over before the channels run. -/
theorem waits_at (long : 0 < cfg.wlen.toNat) (before : n ≤ delay + 2 + cfg.wlen.toNat) :
    Waits cfg words delay n (loopbackAt cfg words delay n) ∧
      wordsHandedOver cfg words delay n = [] := by
  induction n with
  | zero =>
      refine ⟨⟨rfl, (Nat.zero_sub _).symm, rfl, ?_, rfl, rfl, ⟨rfl, rfl⟩, rfl⟩, rfl⟩
      exact (decide_eq_false (by omega)).symm
  | succ n inductionHypothesis =>
      obtain ⟨waits, none⟩ := inductionHypothesis (Nat.le_of_succ_le before)
      refine ⟨?_, ?_⟩
      · rw [loopbackAt_succ]
        exact waits.step long before
      · rw [wordsHandedOver_succ, none, Loopback.wordHandedOver, waits.rx]
        rfl

/-- The number of clocks before the first bit is heard. -/
def warmUp (cfg : I2sCfg) (delay : Nat) : Nat := delay + 2 + cfg.wlen.toNat + 2

/-- The words that have been handed over are a function of the words that are taken. -/
theorem runs_at (long : 0 < cfg.wlen.toNat) (j : Nat) :
    Runs cfg words j (loopbackAt cfg words delay (warmUp cfg delay + j)) ∧
      (wordsHandedOver cfg words delay (warmUp cfg delay + j)).map cfg.low =
        handedWords cfg words j := by
  induction j with
  | zero =>
      obtain ⟨waits, none⟩ := @waits_at cfg words delay _ long
        (Nat.le_refl (delay + 2 + cfg.wlen.toNat))
      have edge := waits.edge long (enabledFrom delay (delay + 2 + cfg.wlen.toNat))
      rw [← loopbackAt_succ] at edge
      have start := Runs.start long (enabledFrom delay (delay + 2 + cfg.wlen.toNat + 1))
        edge.1 edge.2
      rw [← loopbackAt_succ] at start
      refine ⟨start, ?_⟩
      have nothing : handedCount cfg 0 = 0 := by
        rw [handedCount]
        split
        · exact Nat.zero_sub _
        · exact Nat.zero_div _
      have quiet : (loopbackAt cfg words delay
          (delay + 2 + cfg.wlen.toNat + 1)).wordHandedOver = [] := by
        rw [Loopback.wordHandedOver, edge.2]
        rfl
      have empty : wordsHandedOver cfg words delay (warmUp cfg delay) = [] := by
        rw [warmUp, wordsHandedOver_succ, wordsHandedOver_succ, none, quiet,
          Loopback.wordHandedOver, waits.rx]
        rfl
      rw [handedWords, nothing]
      exact congrArg (List.map cfg.low) empty
  | succ j inductionHypothesis =>
      obtain ⟨runs, handed⟩ := inductionHypothesis
      refine ⟨?_, ?_⟩
      · rw [← Nat.add_assoc, loopbackAt_succ]
        exact runs.step long _
      · rw [← Nat.add_assoc, wordsHandedOver_succ, List.map_append, handed]
        cases channels : cfg.twoCh with
        | true => exact (handed_twoCh runs.rx channels).symm
        | false => exact (handed_oneCh runs.rx channels).symm

theorem handedOver_early (long : 0 < cfg.wlen.toNat) (early : n ≤ warmUp cfg delay) :
    wordsHandedOver cfg words delay n = [] := by
  have none : handedCount cfg 0 = 0 := by
    rw [handedCount]
    split
    · exact Nat.zero_sub _
    · exact Nat.zero_div _
  have lengths := congrArg List.length (@runs_at cfg words delay long 0).2
  rw [handedWords, none, List.length_map] at lengths
  have empty : wordsHandedOver cfg words delay (warmUp cfg delay) = [] :=
    List.eq_nil_of_length_eq_zero lengths
  have before : wordsHandedOver cfg words delay n <+:
      wordsHandedOver cfg words delay (warmUp cfg delay) :=
    (loopbackMachine cfg words).observed_inputsUpTo_mono _ _ early
  rw [empty, List.prefix_nil] at before
  exact before

/-! ## The words that come back -/

/-- What the words have to be like to come back: the bit that the receiver misses is zero;
with one channel, where the second word is not sent, all words from it on are the same; with
two channels, where words are repeated, a word has two bits. -/
def ComesBack (cfg : I2sCfg) (words : Nat → BitVec 32) : Prop :=
  cfg.firstBit (words 0) = false ∧
    if cfg.twoCh then cfg.wlen.toNat = 1 ∧ cfg.firstBit (words 1) = false
    else ∀ k, cfg.low (words (k + 2)) = cfg.low (words 1)

theorem map_range_prefix_iff {Word : Type} {left right : Nat → Word} {n m : Nat} :
    (List.range n).map left <+: (List.range m).map right ↔
      n ≤ m ∧ ∀ t < n, left t = right t := by
  rw [List.prefix_iff_eq_take, ← List.map_take, List.take_range, List.length_map,
    List.length_range]
  constructor
  · intro same
    have lengths := congrArg List.length same
    rw [List.length_map, List.length_map, List.length_range, List.length_range] at lengths
    rw [← lengths, List.map_inj_left] at same
    exact ⟨lengths ▸ Nat.min_le_right n m, fun t inside => same t (List.mem_range.mpr inside)⟩
  · rintro ⟨short, same⟩
    rw [Nat.min_eq_left short, List.map_inj_left]
    exact fun t inside => same t (List.mem_range.mp inside)

theorem handedWord_oneCh (one : cfg.twoCh = false) :
    (∀ t, cfg.low (handedWord cfg words t) = cfg.low (words t)) ↔
      cfg.firstBit (words 0) = false ∧ ∀ k, cfg.low (words (k + 2)) = cfg.low (words 1) := by
  have first : handedWord cfg words 0 = cfg.withoutFirst (words 0) := by
    rw [handedWord, one]
    simp only [Bool.false_eq_true, if_false, received, sentCh0, one, if_true]
  have later : ∀ k, handedWord cfg words (k + 1) = words (k + 2) := by
    intro k
    rw [handedWord, one]
    simp only [Bool.false_eq_true, if_false, received, sentCh0, one, Nat.add_one_ne_zero]
  constructor
  · intro same
    refine ⟨?_, fun k => ?_⟩
    · rw [← I2sCfg.low_withoutFirst_iff, ← first]
      exact same 0
    · induction k with
      | zero =>
          rw [← later 0]
          exact same 1
      | succ k inductionHypothesis =>
          rw [← inductionHypothesis, ← later (k + 1)]
          exact same (k + 2)
  · rintro ⟨zero, constant⟩ t
    cases t with
    | zero => rw [first, I2sCfg.low_withoutFirst_iff, zero]
    | succ t =>
        cases t with
        | zero => rw [later 0, constant 0]
        | succ k => rw [later (k + 1), constant (k + 1), constant k]

theorem handedWord_twoCh (two : cfg.twoCh = true) (short : cfg.wlen.toNat = 1) :
    (∀ t, cfg.low (handedWord cfg words t) = cfg.low (words t)) ↔
      cfg.firstBit (words 0) = false ∧ cfg.firstBit (words 1) = false := by
  have bits : cfg.bits = 2 := congrArg (· + 1) short
  have word : ∀ t, handedWord cfg words t =
      if t < 2 then cfg.withoutFirst (words t) else words t := by
    intro t
    have whole := Nat.mod_add_div t 2
    rw [handedWord, if_pos two, bits]
    cases Nat.mod_two_eq_zero_or_one t with
    | inl even =>
        rw [even, Nat.zero_add] at whole
        rw [if_pos even, received]
        simp only [sentCh0, two, if_true, whole, Nat.mul_zero]
        cases Nat.eq_zero_or_pos (t / 2) with
        | inl none =>
            rw [none] at whole
            rw [if_pos none, if_pos (by omega), ← whole]
        | inr some => rw [if_neg (Nat.ne_of_gt some), if_neg (by omega)]
    | inr odd =>
        rw [odd, Nat.add_comm] at whole
        rw [if_neg (by omega), received]
        simp only [sentCh1, whole, Nat.mul_zero, Nat.zero_add]
        cases Nat.eq_zero_or_pos (t / 2) with
        | inl none =>
            rw [none] at whole
            rw [if_pos none, if_pos (by omega), ← whole]
        | inr some => rw [if_neg (Nat.ne_of_gt some), if_neg (by omega)]
  rw [← I2sCfg.low_withoutFirst_iff, ← I2sCfg.low_withoutFirst_iff]
  constructor
  · intro same
    have zero := same 0
    have one := same 1
    rw [word, if_pos Nat.two_pos] at zero
    rw [word, if_pos Nat.one_lt_two] at one
    exact ⟨zero, one⟩
  · rintro ⟨zero, one⟩ t
    cases Nat.lt_or_ge t 2 with
    | inr later => rw [word, if_neg (Nat.not_lt.mpr later)]
    | inl early =>
        cases Nat.le_one_iff_eq_zero_or_eq_one.mp (Nat.le_of_lt_succ early) with
        | inl first => rw [first, word, if_pos Nat.two_pos, zero]
        | inr second => rw [second, word, if_pos Nat.one_lt_two, one]

/-- No more words are handed over than are taken, unless a word of channel 1 is repeated. -/
theorem handedCount_le (runs : Runs cfg words j loopback)
    (short : cfg.twoCh = true → cfg.wlen.toNat = 1) : handedCount cfg j ≤ loopback.position := by
  rw [handedCount, runs.tx.position]
  cases two : cfg.twoCh with
  | false =>
      have fewer : (j - 1) / cfg.bits ≤ (j + 1) / cfg.bits := Nat.div_le_div_right (by omega)
      simp only [Bool.false_eq_true, if_false]
      omega
  | true =>
      have bits : cfg.bits = 2 := congrArg (· + 1) (short two)
      simp only [if_true, bits]
      omega

/-- With two channels and more than two bits, more words are handed over than are
taken. -/
theorem exists_lt_handedCount (two : cfg.twoCh = true) (long : 1 < cfg.wlen.toNat) :
    ∃ j, ∀ loopback, Runs cfg words j loopback → loopback.position < handedCount cfg j := by
  refine ⟨cfg.bits * (cfg.bits + 6), fun loopback runs => ?_⟩
  have width : cfg.bits = cfg.wlen.toNat + 1 := rfl
  have last : (cfg.bits * (cfg.bits + 6) + 1) / cfg.bits = cfg.bits + 6 := by
    rw [Nat.mul_add_div cfg.bits_pos, Nat.div_eq_of_lt (by omega), Nat.add_zero]
  have many : 3 * (cfg.bits + 6) ≤ cfg.bits * (cfg.bits + 6) :=
    Nat.mul_le_mul_right _ (by omega)
  rw [handedCount, runs.tx.position, if_pos two, if_pos two, last]
  split <;> omega

theorem exists_lt_count (cfg : I2sCfg) (i : Nat) : ∃ j, i < handedCount cfg j := by
  refine ⟨cfg.bits * (i + 2), ?_⟩
  have room : i + 2 ≤ cfg.bits * (i + 2) := Nat.le_mul_of_pos_left _ cfg.bits_pos
  rw [handedCount]
  split
  · rw [Nat.mul_add, Nat.mul_two]
    have more : i ≤ cfg.bits * i := Nat.le_mul_of_pos_left _ cfg.bits_pos
    have := cfg.bits_pos
    omega
  · have whole : cfg.bits * (i + 2) - 1 = cfg.bits * (i + 1) + (cfg.bits - 1) := by
      have := cfg.bits_pos
      rw [Nat.mul_add, Nat.mul_add]
      omega
    rw [whole, Nat.mul_add_div cfg.bits_pos,
      Nat.div_eq_of_lt (Nat.sub_lt cfg.bits_pos Nat.one_pos)]
    omega

/-- The channels loop back exactly the words that come back. -/
theorem i2s_loopsBack_iff (cfg : I2sCfg) (words : Nat → BitVec 32) (delay : Nat)
    (long : 1 ≤ cfg.wlen.toNat) : LoopsBack cfg words delay ↔ ComesBack cfg words := by
  have at_ := @runs_at cfg words delay long
  have inOrder : ∀ j, (wordsHandedOver cfg words delay (warmUp cfg delay + j)).map cfg.low <+:
      (wordsTaken cfg words delay (warmUp cfg delay + j)).map cfg.low ↔
      handedCount cfg j ≤ (loopbackAt cfg words delay (warmUp cfg delay + j)).position ∧
        ∀ t < handedCount cfg j, cfg.low (handedWord cfg words t) = cfg.low (words t) := by
    intro j
    rw [(at_ j).2, wordsTaken_eq, List.map_map, handedWords, map_range_prefix_iff]
    rfl
  constructor
  · intro loops
    have same : ∀ t, cfg.low (handedWord cfg words t) = cfg.low (words t) := by
      intro t
      obtain ⟨j, inside⟩ := exists_lt_count cfg t
      exact ((inOrder j).mp (loops.inOrder _)).2 t inside
    rw [ComesBack]
    cases two : cfg.twoCh with
    | false => exact (handedWord_oneCh two).mp same
    | true =>
        have short : cfg.wlen.toNat = 1 := by
          cases Nat.eq_or_lt_of_le long with
          | inl short => exact short.symm
          | inr longer =>
              obtain ⟨j, more⟩ := @exists_lt_handedCount cfg words two longer
              have fewer := ((inOrder j).mp (loops.inOrder _)).1
              exact absurd fewer (Nat.not_le.mpr (more _ (at_ j).1))
        have first := (handedWord_twoCh two short).mp same
        exact ⟨first.1, short, first.2⟩
  · intro comesBack
    have short : cfg.twoCh = true → cfg.wlen.toNat = 1 := by
      intro two
      rw [ComesBack, if_pos two] at comesBack
      exact comesBack.2.1
    have same : ∀ t, cfg.low (handedWord cfg words t) = cfg.low (words t) := by
      cases two : cfg.twoCh with
      | false =>
          rw [ComesBack, if_neg (Bool.eq_false_iff.mp two)] at comesBack
          exact (handedWord_oneCh two).mpr comesBack
      | true =>
          rw [ComesBack, if_pos two] at comesBack
          exact (handedWord_twoCh two (short two)).mpr ⟨comesBack.1, comesBack.2.2⟩
    refine ⟨fun n => ?_, fun i => ?_⟩
    · cases Nat.lt_or_ge n (warmUp cfg delay) with
      | inl early =>
          have none : wordsHandedOver cfg words delay n = [] :=
            handedOver_early long (Nat.le_of_lt early)
          rw [none]
          exact List.nil_prefix
      | inr late =>
          obtain ⟨j, rfl⟩ := Nat.exists_eq_add_of_le late
          exact (inOrder j).mpr ⟨handedCount_le (at_ j).1 short, fun t _ => same t⟩
    · obtain ⟨j, inside⟩ := exists_lt_count cfg i
      refine ⟨warmUp cfg delay + j, ?_⟩
      have lengths := congrArg List.length (at_ j).2
      rw [handedWords, List.length_map, List.length_map, List.length_range] at lengths
      rw [lengths]
      exact inside

/-- One channel with words of eight bits, the first bit first. -/
def byteCfg : I2sCfg := ⟨false, 7, false⟩

/-- Two channels with words of eight bits. -/
def twoByteCfg : I2sCfg := ⟨true, 7, false⟩

/-- The same byte comes back for ever. -/
theorem sameByte_loopsBack : LoopsBack byteCfg (fun _ => 0x55) 0 :=
  (i2s_loopsBack_iff byteCfg (fun _ => 0x55) 0 (by decide)).mpr ⟨by decide, fun _ => rfl⟩

/-- The words 1, 2, 3, … do not come back: with one channel 2 is lost, with two channels it
is handed over again and again. -/
theorem counting_not_loopsBack :
    ¬LoopsBack byteCfg (fun n => BitVec.ofNat 32 (n + 1)) 0 ∧
      ¬LoopsBack twoByteCfg (fun n => BitVec.ofNat 32 (n + 1)) 0 ∧
      wordsHandedOver byteCfg (fun n => BitVec.ofNat 32 (n + 1)) 0 29 = [1, 0x103] ∧
      wordsHandedOver twoByteCfg (fun n => BitVec.ofNat 32 (n + 1)) 0 23 = [1, 2, 2, 2] := by
  have one : ¬(wordsHandedOver byteCfg (fun n => BitVec.ofNat 32 (n + 1)) 0 29).map byteCfg.low <+:
      (wordsTaken byteCfg (fun n => BitVec.ofNat 32 (n + 1)) 0 29).map byteCfg.low := by
    decide +kernel
  have two : ¬(wordsHandedOver twoByteCfg (fun n => BitVec.ofNat 32 (n + 1)) 0 23).map
      twoByteCfg.low <+:
      (wordsTaken twoByteCfg (fun n => BitVec.ofNat 32 (n + 1)) 0 23).map twoByteCfg.low := by
    decide +kernel
  exact ⟨fun loops => one (loops.inOrder 29), fun loops => two (loops.inOrder 23),
    by decide +kernel, by decide +kernel⟩

end CoreVMcu.I2s
