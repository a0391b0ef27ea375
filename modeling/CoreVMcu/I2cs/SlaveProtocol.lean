import CoreVMcu.I2cs.ByteTransfer

/-!
# The transactions that the slave serves

A transaction finds the slave listening or deaf.  What it writes and what the master samples
are right exactly when the slave listens and at most one byte is read.
-/

namespace CoreVMcu.I2cs

open Clocked Fsm

variable {cfg : SlaveCfg} {watched later : Watched} {fsm : Fsm} {isDeaf : Bool}

/-! ## The slave between and in transactions -/

/-- The state machine before a start. -/
inductive Ready : Bool → Fsm → Prop
  | resting (outByte : BitVec 8) (rdWrn : Bool) (regAddr : BitVec 8) :
      Ready false (resting outByte rdWrn regAddr)
  | repeated (inByte outByte : BitVec 8) (rdWrn : Bool) (regAddr : BitVec 8) :
      Ready false (receiving .regWData 1 inByte outByte rdWrn regAddr)
  | deaf (outByte : BitVec 8) (rdWrn : Bool) (regAddr : BitVec 8) :
      Ready true (deaf outByte rdWrn regAddr)

/-- The state machine after a start. -/
inductive Started : Bool → Fsm → Prop
  | devAddr (inByte outByte : BitVec 8) (rdWrn : Bool) (regAddr : BitVec 8) :
      Started false (receiving .devAddr 0 inByte outByte rdWrn regAddr)
  | deaf (outByte : BitVec 8) (rdWrn : Bool) (regAddr : BitVec 8) :
      Started true (deaf outByte rdWrn regAddr)

/-- The state machine after the bytes of a transaction. -/
inductive Served : Bool → Fsm → Prop
  | regWData (inByte outByte : BitVec 8) (rdWrn : Bool) (regAddr : BitVec 8) :
      Served false (receiving .regWData 0 inByte outByte rdWrn regAddr)
  | deaf (outByte : BitVec 8) (rdWrn : Bool) (regAddr : BitVec 8) :
      Served true (deaf outByte rdWrn regAddr)

theorem Ready.released (ready : Ready isDeaf fsm) : fsm.sdaOut = true := by
  cases ready <;> rfl

/-- What the state machine does about a start. -/
theorem Ready.answers (plain : cfg.Plain) (ready : Ready isDeaf fsm) :
    ∃ last, Started isDeaf last ∧
      (∀ rddata, Answers cfg fsm startEdge rddata last [] []) ∧
      ∀ rddata, Answers cfg last fallEdge rddata last [] [] := by
  cases ready with
  | resting outByte rdWrn regAddr =>
      exact ⟨_, .devAddr _ outByte rdWrn regAddr, fun _ => resting_start plain.enabled,
        fun _ => receiving_fall (.inl rfl) (by decide)⟩
  | repeated inByte outByte rdWrn regAddr =>
      exact ⟨_, .devAddr inByte outByte rdWrn regAddr, fun _ => regWData_start,
        fun _ => receiving_fall (.inl rfl) (by decide)⟩
  | deaf outByte rdWrn regAddr =>
      exact ⟨_, .deaf outByte rdWrn regAddr, fun _ => deaf_other rfl, fun _ => deaf_other rfl⟩

/-- A start condition. -/
theorem Ready.start (plain : cfg.Plain) (ready : Ready isDeaf fsm)
    (settled : At cfg watched ⟨true, true⟩ fsm) {samples : List Bool}
    (plays : Plays cfg watched startCondition samples later) :
    ∃ last, Started isDeaf last ∧ Reacts cfg watched ⟨false, false⟩ last [] [] later ∧
      samples = [] := by
  obtain ⟨last, started, start, fall⟩ := ready.answers plain
  obtain ⟨_, _, longStart, heldStart, plays, samplesStart⟩ := plays.of_cons
  have reacts := settled.start plain ready.released longStart heldStart start
  obtain ⟨_, _, longFall, heldFall, plays, samplesFall⟩ := plays.of_cons
  obtain ⟨_, fallen⟩ := reacts.settled.fall plain longFall heldFall fall
  obtain ⟨rfl, samplesNil⟩ := plays.of_nil
  refine ⟨last, started, reacts.trans fallen, ?_⟩
  rw [samplesStart, samplesFall, samplesNil]
  rfl

/-- What the state machine does about a bit that is not part of a byte. -/
theorem Served.answers (served : Served isDeaf fsm) (bit : Bool) :
    ∃ last, Ready isDeaf last ∧ (∀ rddata, Answers cfg fsm (bitEdge bit) rddata last [] []) ∧
      KeepsLine cfg fsm (bitEdge bit) bit := by
  cases served with
  | regWData inByte outByte rdWrn regAddr =>
      exact ⟨_, .repeated _ outByte rdWrn regAddr, fun _ => receiving_bit (.inr (.inr rfl)) bit,
        keepsLine_of_step (fun _ => receiving_step_bit (.inr (.inr rfl)) bit)
          (fun _ => receiving_steady (.inr (.inr rfl))) fun _ => rfl⟩
  | deaf outByte rdWrn regAddr =>
      exact ⟨_, .deaf outByte rdWrn regAddr, fun _ => deaf_other rfl,
        keepsLine_of_step (fun _ => deaf_step_other rfl) (fun _ => deaf_steady) fun _ => rfl⟩

theorem Served.released (served : Served isDeaf fsm) : fsm.sdaOut = true := by
  cases served <;> rfl

/-- What the state machine does about a stop. -/
theorem Ready.stops (ready : Ready isDeaf fsm) :
    (∃ last, Ready false last ∧ ∀ rddata, Answers cfg fsm stopEdge rddata last [] []) ∧
      KeepsLine cfg fsm stopEdge true := by
  cases ready with
  | resting outByte rdWrn regAddr =>
      exact ⟨⟨_, .resting outByte rdWrn regAddr, fun _ => resting_stop⟩,
        fun _ => ⟨rfl, rfl, rfl⟩⟩
  | repeated inByte outByte rdWrn regAddr =>
      exact ⟨⟨_, .resting outByte rdWrn regAddr, fun _ => regWData_stop⟩,
        fun _ => ⟨rfl, rfl, rfl⟩⟩
  | deaf outByte rdWrn regAddr =>
      exact ⟨⟨_, .resting outByte rdWrn regAddr, fun _ => deaf_stop⟩, fun _ => ⟨rfl, rfl, rfl⟩⟩

/-- A stop condition. -/
theorem Served.stopCondition (plain : cfg.Plain) (served : Served isDeaf fsm) {sda : Bool}
    (settled : At cfg watched ⟨false, sda⟩ fsm) {samples : List Bool}
    (plays : Plays cfg watched stopCondition samples later) :
    ∃ last, Ready false last ∧ Reacts cfg watched ⟨true, true⟩ last [] [] later ∧
      samples = [] := by
  obtain ⟨mid, ready, rise, keeps⟩ := @Served.answers cfg _ _ served false
  obtain ⟨⟨last, readyLast, stop⟩, keepsStop⟩ := @Ready.stops cfg _ _ ready
  obtain ⟨_, _, longLow, heldLow, plays, samplesLow⟩ := plays.of_cons
  have low := settled.low plain longLow heldLow
  obtain ⟨_, _, longRise, heldRise, plays, samplesRise⟩ := plays.of_cons
  obtain ⟨_, risen⟩ := low.settled.rise plain longRise heldRise rfl rise keeps
  obtain ⟨_, _, longStop, heldStop, plays, samplesStop⟩ := plays.of_cons
  have stopped := risen.settled.stop plain ready.released longStop heldStop stop keepsStop
  obtain ⟨rfl, samplesNil⟩ := plays.of_nil
  refine ⟨last, readyLast, (low.trans risen).trans stopped, ?_⟩
  rw [samplesLow, samplesRise, samplesStop, samplesNil]
  rfl

/-- The lines are released for a repeated start. -/
theorem Served.releaseLines (plain : cfg.Plain) (served : Served isDeaf fsm) {sda : Bool}
    (settled : At cfg watched ⟨false, sda⟩ fsm) {samples : List Bool}
    (plays : Plays cfg watched releaseLines samples later) :
    ∃ last, Ready isDeaf last ∧ Reacts cfg watched ⟨true, true⟩ last [] [] later ∧
      samples = [] := by
  obtain ⟨last, ready, rise, keeps⟩ := @Served.answers cfg _ _ served true
  obtain ⟨_, _, longLow, heldLow, plays, samplesLow⟩ := plays.of_cons
  have low := settled.low plain longLow heldLow
  obtain ⟨_, _, longRise, heldRise, plays, samplesRise⟩ := plays.of_cons
  obtain ⟨_, risen⟩ := low.settled.rise plain longRise heldRise served.released rise keeps
  obtain ⟨rfl, samplesNil⟩ := plays.of_nil
  refine ⟨last, ready, low.trans risen, ?_⟩
  rw [samplesLow, samplesRise, samplesNil]
  rfl

/-- The end of a transaction. -/
theorem Served.ends (plain : cfg.Plain) (served : Served isDeaf fsm) {sda : Bool}
    (settled : At cfg watched ⟨false, sda⟩ fsm) {stop : Bool} {samples : List Bool}
    (plays : Plays cfg watched (if stop then I2cs.stopCondition else I2cs.releaseLines) samples
      later) :
    ∃ last, Ready (!stop && isDeaf) last ∧ Reacts cfg watched ⟨true, true⟩ last [] [] later ∧
      samples = [] := by
  cases stop with
  | true => exact served.stopCondition plain settled plays
  | false => exact served.releaseLines plain settled plays

/-- Where actions leave the slave and what they are worth to a transfer. -/
def Serves (cfg : SlaveCfg) (fsm : Fsm) (isDeaf deafAfter : Bool) (transfer : Transfer) : Prop :=
  Leads cfg fsm (transfer.actions cfg.i2cDevAddr) fun reached =>
    Served deafAfter reached.fsm ∧
      (transfer.Correct ⟨reached.written, reached.loaded, reached.samples⟩ ↔
        transfer.Works isDeaf ⟨reached.written, reached.loaded, reached.samples⟩)

/-- A deaf slave writes nothing. -/
theorem deaf_write (plain : cfg.Plain) (outByte : BitVec 8) (rdWrn : Bool)
    (regAddr regAddrSent : BitVec 8) (data : List (BitVec 8)) :
    Serves cfg (deaf outByte rdWrn regAddr) true true (.write regAddrSent data) := by
  have ignores : Ignores cfg ((Transfer.write regAddrSent data).actions cfg.i2cDevAddr) [] :=
    (Ignores.sendByte plain _).append
      ((Ignores.sendByte plain _).append (.flatMap (Ignores.sendByte plain) data))
  refine (ignores outByte rdWrn regAddr).mono fun reached same => ?_
  rw [same]
  refine ⟨.deaf outByte rdWrn regAddr, ?_⟩
  change [] = data.map _ ↔ true = false ∨ data = []
  rw [eq_comm, List.map_eq_nil_iff]
  exact ⟨.inr, fun works => works.resolve_left nofun⟩

/-- A deaf slave loads nothing. -/
theorem deaf_read (plain : cfg.Plain) (outByte : BitVec 8) (rdWrn : Bool) (regAddr : BitVec 8)
    (acked : Nat) : Serves cfg (deaf outByte rdWrn regAddr) true true (.read acked) := by
  have ignores : Ignores cfg ((Transfer.read acked).actions cfg.i2cDevAddr)
      (List.replicate (8 * (acked + 1)) true) :=
    (Ignores.sendByte plain _).append (Ignores.readBytes plain acked)
  refine (ignores outByte rdWrn regAddr).mono fun reached same => ?_
  rw [same]
  refine ⟨.deaf outByte rdWrn regAddr, fun correct => ?_, fun works => ?_⟩
  · have lengths := congrArg List.length correct.2
    rw [List.length_replicate] at lengths
    exact absurd lengths (Nat.succ_ne_zero _)
  · exact absurd works.1 Bool.noConfusion

/-- Every byte is written. -/
theorem devAddr_write (plain : cfg.Plain) (inByte outByte : BitVec 8) (rdWrn : Bool)
    (regAddr regAddrSent : BitVec 8) (data : List (BitVec 8)) :
    Serves cfg (receiving .devAddr 0 inByte outByte rdWrn regAddr) false false
      (.write regAddrSent data) := by
  refine (devAddr_sendByte_write plain).append fun reached same => ?_
  rw [same]
  refine (regAddr_sendByte plain regAddrSent).append fun reached same => ?_
  rw [same]
  refine (regWData_sendBytes plain data).mono fun reached ⟨inByteLast, same⟩ => ?_
  rw [same]
  exact ⟨.regWData inByteLast outByte false regAddrSent, fun _ => .inl rfl, fun _ => rfl⟩

/-- A late byte is right when it is the last one and shows no difference. -/
theorem lateSamples_iff (first next : BitVec 8) (more : Nat) :
    bitsOf first ++ (bitsOf (shiftIn next true) ++ List.replicate (8 * more) true) =
        [first, next].flatMap bitsOf ↔ more = 0 ∧ next = 255#8 := by
  have bytes : [first, next].flatMap bitsOf = bitsOf first ++ bitsOf next := rfl
  rw [bytes, List.append_cancel_left_eq]
  constructor
  · intro same
    have lengths := congrArg List.length same
    rw [List.length_append, List.length_replicate] at lengths
    obtain rfl : more = 0 := by
      change 8 + 8 * more = 8 at lengths
      omega
    rw [List.replicate_zero, List.append_nil] at same
    exact ⟨rfl, (late_eq_iff next).mp same⟩
  · rintro ⟨rfl, ones⟩
    rw [List.replicate_zero, List.append_nil]
    exact (late_eq_iff next).mpr ones

/-- The first byte is sent right, and at best a second one. -/
theorem devAddr_read (plain : cfg.Plain) (inByte outByte : BitVec 8) (rdWrn : Bool)
    (regAddr : BitVec 8) (acked : Nat) :
    Serves cfg (receiving .devAddr 0 inByte outByte rdWrn regAddr) false true (.read acked) := by
  refine (devAddr_sendByte_read plain).append fun reached ⟨first, same⟩ => ?_
  rw [same]
  cases acked with
  | zero =>
      refine (sending_readBytes_zero plain).mono fun reached same => ?_
      rw [same]
      exact ⟨.deaf _ true regAddr, fun _ => ⟨rfl, .inl rfl⟩,
        fun _ => ⟨rfl, (List.append_nil _).symm⟩⟩
  | succ more =>
      refine (sending_readBytes_succ plain more).mono fun reached ⟨next, same⟩ => ?_
      rw [same]
      refine ⟨.deaf _ true regAddr, fun correct => ?_, fun works => ⟨rfl, ?_⟩⟩
      · obtain ⟨rfl, rfl⟩ := (lateSamples_iff first next more).mp correct.2
        exact ⟨rfl, .inr ⟨rfl, rfl⟩⟩
      · obtain ⟨one, ones⟩ := works.2.resolve_left (Nat.succ_ne_zero more)
        exact (lateSamples_iff first next more).mpr ⟨Nat.succ.inj one, Option.some.inj ones⟩

/-- A transfer after a start. -/
theorem Started.serves (plain : cfg.Plain) (started : Started isDeaf fsm) (transfer : Transfer) :
    Serves cfg fsm isDeaf ((⟨transfer, false⟩ : Transaction).deafAfter isDeaf) transfer := by
  cases started with
  | devAddr inByte outByte rdWrn regAddr =>
      cases transfer with
      | write regAddrSent data => exact devAddr_write plain inByte outByte rdWrn regAddr _ data
      | read acked => exact devAddr_read plain inByte outByte rdWrn regAddr acked
  | deaf outByte rdWrn regAddr =>
      cases transfer with
      | write regAddrSent data => exact deaf_write plain outByte rdWrn regAddr _ data
      | read acked => exact deaf_read plain outByte rdWrn regAddr acked

/-! ## Transactions -/

/-- A transaction, from one pair of released lines to the next. -/
theorem Ready.serves (plain : cfg.Plain) (ready : Ready isDeaf fsm)
    (settled : At cfg watched ⟨true, true⟩ fsm) (written : watched.written = [])
    (loaded : watched.loaded = []) {transaction : Transaction} {samples : List Bool}
    (plays : Plays cfg watched (transaction.actions cfg.i2cDevAddr) samples later) :
    (∃ last, Ready (transaction.deafAfter isDeaf) last ∧ At cfg later ⟨true, true⟩ last) ∧
      (transaction.transfer.Correct ⟨later.written, later.loaded, samples⟩ ↔
        transaction.transfer.Works isDeaf ⟨later.written, later.loaded, samples⟩) := by
  obtain ⟨afterStart, _, _, playsStart, playsRest, rfl⟩ := plays.of_append
  obtain ⟨begun, started, reactsStart, rfl⟩ := ready.start plain settled playsStart
  obtain ⟨afterBytes, samplesBytes, _, playsBytes, playsEnd, rfl⟩ := playsRest.of_append
  obtain ⟨sda, reached, ⟨served, worth⟩, rfl, reactsBytes⟩ :=
    started.serves plain transaction.transfer _ _ _ _ reactsStart.settled playsBytes
  obtain ⟨last, readyLast, reactsEnd, rfl⟩ := served.ends plain reactsBytes.settled playsEnd
  have whole := (reactsStart.trans reactsBytes).trans reactsEnd
  have writtenAll := whole.written
  have loadedAll := whole.loaded
  rw [written, List.append_nil] at writtenAll
  rw [loaded, List.append_nil] at loadedAll
  rw [writtenAll, loadedAll, List.append_nil]
  exact ⟨⟨last, readyLast, whole.settled⟩, worth⟩

/-- Transactions one after the other. -/
theorem Ready.session (plain : cfg.Plain) {slave : Slave} {transactions : List Transaction}
    {reports : List Report} (ready : Ready isDeaf fsm)
    (settled : At cfg ⟨slave, [], []⟩ ⟨true, true⟩ fsm)
    (session : Session cfg slave transactions reports) :
    AllCorrect transactions reports ↔ AllWork isDeaf transactions reports := by
  induction session generalizing isDeaf fsm with
  | nil slave => exact ⟨fun _ => trivial, fun _ => trivial⟩
  | next plays rest inductionHypothesis =>
      obtain ⟨⟨last, readyLast, settledLast⟩, worth⟩ := ready.serves plain settled rfl rfl plays
      exact and_congr worth (inductionHypothesis readyLast
        ⟨settledLast.lines, settledLast.machine, settledLast.steady⟩)

/-- From reset, the bytes written and the bits sampled are right exactly when the slave is not
deaf where it is needed and every read is of one byte, or of two of which the second one is
all ones. -/
theorem slave_allCorrect_iff (plain : cfg.Plain) {transactions : List Transaction}
    {reports : List Report} (session : Session cfg .reset transactions reports) :
    AllCorrect transactions reports ↔ AllWork false transactions reports := by
  have settled : At cfg ⟨.reset, [], []⟩ ⟨true, true⟩ (resting 0 false 0) :=
    ⟨⟨false, rfl⟩, rfl, resting_steady⟩
  exact (Ready.resting 0 false 0).session plain settled session

/-- Levels that are held as long as the lines need, with data of the registers that stay. -/
def holdLevel (rddata : BitVec 8) (level : Level) : List BusInput :=
  List.replicate settleClocks ⟨level.scl, level.sda, rddata⟩

theorem holdLevel_length (rddata : BitVec 8) (level : Level) :
    (holdLevel rddata level).length = settleClocks := List.length_replicate

theorem holdLevel_holds (rddata : BitVec 8) (level : Level) :
    HoldsLevel level (holdLevel rddata level) := by
  intro input member
  rw [List.eq_of_mem_replicate member]
  exact ⟨rfl, rfl⟩

def playFast (cfg : SlaveCfg) (rddata : BitVec 8) (watched : Watched) :
    List Action → List Bool × Watched
  | [] => ([], watched)
  | action :: actions =>
      let held := (slaveMachine cfg).runFrom watched (holdLevel rddata action.level)
      let rest := playFast cfg rddata held actions
      ((if action.sampled then [action.level.sda && held.slave.fsm.sdaOut] else []) ++ rest.1,
        rest.2)

theorem playFast_plays (rddata : BitVec 8) (watched : Watched) (actions : List Action) :
    Plays cfg watched actions (playFast cfg rddata watched actions).1
      (playFast cfg rddata watched actions).2 := by
  induction actions generalizing watched with
  | nil => exact .nil watched
  | cons action actions inductionHypothesis =>
      rw [playFast]
      exact .hold (Nat.le_of_eq (holdLevel_length rddata _).symm) (holdLevel_holds rddata _)
        (inductionHypothesis _)

def sessionFast (cfg : SlaveCfg) (rddata : BitVec 8) (slave : Slave) :
    List Transaction → List Report
  | [] => []
  | transaction :: transactions =>
      let played := playFast cfg rddata ⟨slave, [], []⟩ (transaction.actions cfg.i2cDevAddr)
      ⟨played.2.written, played.2.loaded, played.1⟩ ::
        sessionFast cfg rddata played.2.slave transactions

theorem sessionFast_session (rddata : BitVec 8) (slave : Slave)
    (transactions : List Transaction) :
    Session cfg slave transactions (sessionFast cfg rddata slave transactions) := by
  induction transactions generalizing slave with
  | nil => exact .nil slave
  | cons transaction transactions inductionHypothesis =>
      rw [sessionFast]
      exact .next (playFast_plays rddata _ _) (inductionHypothesis _)

/-- A slave without delays. -/
def plainCfg : SlaveCfg := ⟨0x5a, true, 0, 0⟩

theorem plainCfg_plain : plainCfg.Plain := ⟨rfl, rfl, rfl⟩

/-- Two bytes are written, then one is read after a repeated start. -/
theorem writeThenRead_allCorrect :
    AllCorrect [⟨.write 3 [0x12, 0x34], false⟩, ⟨.read 0, true⟩]
      (sessionFast plainCfg 0xa5 .reset [⟨.write 3 [0x12, 0x34], false⟩, ⟨.read 0, true⟩]) :=
  (slave_allCorrect_iff plainCfg_plain (sessionFast_session 0xa5 .reset _)).mpr
    ⟨.inl rfl, ⟨rfl, .inl rfl⟩, trivial⟩

/-- Two bytes are read: the second one is supplied as zero and sampled as one. -/
theorem twoByteRead_not_allCorrect :
    Session plainCfg .reset [⟨.read 1, true⟩]
        (sessionFast plainCfg 0 .reset [⟨.read 1, true⟩]) ∧
      ¬ AllCorrect [⟨.read 1, true⟩] (sessionFast plainCfg 0 .reset [⟨.read 1, true⟩]) := by
  refine ⟨sessionFast_session 0 .reset _, ?_⟩
  rw [sessionFast, AllCorrect, Transfer.Correct]
  have wrong : ((playFast plainCfg 0 ⟨.reset, [], []⟩
      ((⟨.read 1, true⟩ : Transaction).actions plainCfg.i2cDevAddr)).1 =
      (playFast plainCfg 0 ⟨.reset, [], []⟩
        ((⟨.read 1, true⟩ : Transaction).actions plainCfg.i2cDevAddr)).2.loaded.flatMap bitsOf) →
      False := by
    decide +kernel
  exact fun correct => wrong correct.1.2

end CoreVMcu.I2cs
