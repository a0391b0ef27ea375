import CoreVMcu.Clocked.Pipeline

/-!
# The arithmetic unit of the filter

`udma_filter_au` decodes its mode into selections for one multiplier and one adder.  It stages
the operands, computes into the accumulator and shows the accumulator, shifted, at its output.
It rests while the output is not ready.  The decoder also selects the inversion of the summand
for the modes that subtract, but the adder does not look at that selection.
-/

namespace CoreVMcu.Filter

open Clocked

/-- Sign extension of a word of the given size, or zero extension of an unsigned one. -/
def extendSample (useSigned : Bool) (datasize : BitVec 2) (data : BitVec 32) : BitVec 32 :=
  match datasize.toNat with
  | 0 => (BitVec.ofBool (data.getLsbD 7 && useSigned) ++ data.extractLsb' 0 8).signExtend 32
  | 1 => (BitVec.ofBool (data.getLsbD 15 && useSigned) ++ data.extractLsb' 0 16).signExtend 32
  | _ => data

/-- The configuration of the arithmetic unit. -/
structure AuCfg where
  useSigned : Bool
  bypass : Bool
  mode : BitVec 4
  shift : BitVec 5
  reg0 : BitVec 32
  reg1 : BitVec 32

/-- The selections of the decoder. -/
structure AuSelect where
  enOpb : Bool := true
  mulbOpa : Bool := false
  mulbOpb : Bool := false
  mulbReg : Bool := false
  sumAcc : Bool := false
  sumReg : Bool := false
  sumOpb : Bool := false
  sumInv : Bool := false

/-- The decoder. -/
def auSelect (mode : BitVec 4) : AuSelect :=
  match mode.toNat with
  | 0 => { mulbOpb := true }
  | 1 => { mulbOpb := true, sumReg := true }
  | 2 => { mulbOpb := true, sumAcc := true }
  | 3 => { enOpb := false, mulbOpa := true }
  | 4 => { mulbOpa := true, sumOpb := true }
  | 5 => { mulbOpa := true, sumOpb := true, sumInv := true }
  | 6 => { enOpb := false, mulbOpa := true, sumAcc := true }
  | 7 => { enOpb := false, mulbOpa := true, sumReg := true }
  | 8 => { enOpb := false, mulbReg := true }
  | 9 => { mulbReg := true, sumOpb := true }
  | 10 => { mulbReg := true, sumOpb := true, sumInv := true }
  | 11 => { enOpb := false, mulbReg := true, sumReg := true }
  | 12 => { enOpb := false, mulbReg := true, sumAcc := true }
  | 13 => { sumOpb := true }
  | 14 => { sumOpb := true, sumInv := true }
  | _ => { enOpb := false, sumReg := true }

/-- The inputs of the arithmetic unit in a cycle. -/
structure AuInput where
  operandaData : BitVec 32
  operandaDatasize : BitVec 2
  operandaValid : Bool
  operandaSof : Bool
  operandaEof : Bool
  operandbData : BitVec 32
  operandbDatasize : BitVec 2
  operandbValid : Bool
  outputReady : Bool

/-- The registers of the arithmetic unit. -/
structure Au where
  rAccumulator : BitVec 32
  rOperanda : BitVec 32
  rOperandb : BitVec 32
  rSampleDly : Bool
  rSampleOut : Bool
  rSof : Bool
  rEof : Bool
  rAccoutvalid : Bool

namespace AuCfg

variable (cfg : AuCfg) (input : AuInput)

/-- `s_in_opa`. -/
def inOpa : BitVec 32 := extendSample cfg.useSigned input.operandaDatasize input.operandaData

/-- `s_in_opb`. -/
def inOpb : BitVec 32 := extendSample cfg.useSigned input.operandbDatasize input.operandbData

/-- `s_sample_opa` and `operanda_ready_o`. -/
def sampleOpa : Bool :=
  let enOpb := (auSelect cfg.mode).enOpb
  input.outputReady && (input.operandaValid &&
    (cfg.bypass || !enOpb || (enOpb && input.operandbValid)))

/-- `s_sample_opb` and `operandb_ready_o`. -/
def sampleOpb : Bool :=
  input.outputReady && (input.operandaValid &&
    ((auSelect cfg.mode).enOpb && input.operandbValid))

end AuCfg

namespace Au

variable (au : Au) (cfg : AuCfg) (cmdStart : Bool) (input : AuInput)

def reset : Au := ⟨0, 0, 0, false, false, false, false, false⟩

/-- `s_opb`. -/
def opb : BitVec 32 :=
  let select := auSelect cfg.mode
  if cfg.bypass then 1
  else if select.mulbOpb then au.rOperandb
  else if select.mulbReg then cfg.reg1
  else if select.mulbOpa then au.rOperanda
  else 1

/-- `s_sum`. -/
def sum : BitVec 32 :=
  let select := auSelect cfg.mode
  if cfg.bypass then 0
  else if select.sumOpb then au.rOperandb
  else if select.sumReg then cfg.reg0
  else if select.sumAcc && !au.rSof then au.rAccumulator
  else 0

/-- `s_mac`. -/
def mac : BitVec 66 :=
  au.rOperanda.signExtend 66 * (au.opb cfg).signExtend 66 +
    (BitVec.ofBool ((au.sum cfg).msb && cfg.useSigned) ++ au.sum cfg).signExtend 66

/-- `output_data_o`. -/
def outputData : BitVec 32 := au.rAccumulator.sshiftRight cfg.shift.toNat

/-- `output_valid_o`. -/
def outputValid : Bool :=
  if (auSelect cfg.mode).sumAcc then au.rAccoutvalid else au.rSampleOut

/-- One clock edge. -/
def step : Au :=
  if cmdStart then
    { au with rSampleDly := false, rSampleOut := false, rAccoutvalid := false, rSof := false
              rEof := false }
  else if input.outputReady then
    let sampleOpa := cfg.sampleOpa input
    { rSampleDly := sampleOpa
      rSampleOut := au.rSampleDly
      rAccoutvalid := au.rEof
      rSof := input.operandaSof && sampleOpa
      rEof := input.operandaEof && sampleOpa
      rAccumulator := if au.rSampleDly then (au.mac cfg).setWidth 32 else au.rAccumulator
      rOperanda := if sampleOpa then cfg.inOpa input else au.rOperanda
      rOperandb := if cfg.sampleOpb input then cfg.inOpb input else au.rOperandb }
  else au

end Au

/-! ## The table in the header -/

/-- An accepted pair of operands. -/
structure OperandPair where
  a : BitVec 32
  b : BitVec 32
  sof : Bool
  eof : Bool

/-- The modes that accumulate. -/
def accumulates (mode : BitVec 4) : Bool := mode == 2 || mode == 6 || mode == 12

/-- The function of a mode on a pair of operands, where the sum of the frame so far is given. -/
def headerFunction (cfg : AuCfg) (acc : BitVec 32) (pair : OperandPair) : BitVec 32 :=
  match cfg.mode.toNat with
  | 0 => pair.a * pair.b
  | 1 => pair.a * pair.b + cfg.reg0
  | 2 => acc + pair.a * pair.b
  | 3 => pair.a * pair.a
  | 4 => pair.a * pair.a + pair.b
  | 5 => pair.a * pair.a - pair.b
  | 6 => acc + pair.a * pair.a
  | 7 => pair.a * pair.a + cfg.reg0
  | 8 => pair.a * cfg.reg1
  | 9 => pair.a * cfg.reg1 + pair.b
  | 10 => pair.a * cfg.reg1 - pair.b
  | 11 => pair.a * cfg.reg1 + cfg.reg0
  | 12 => acc + pair.a * cfg.reg1
  | 13 => pair.a + pair.b
  | 14 => pair.a - pair.b
  | _ => pair.a + cfg.reg0

/-- The sum restarts at the start of a frame. -/
def headerResult (cfg : AuCfg) (acc : BitVec 32) (pair : OperandPair) : BitVec 32 :=
  headerFunction cfg (if pair.sof then 0 else acc) pair

/-- The output for a pair: one for each pair, or one for each frame in the modes that
accumulate. -/
def output (cfg : AuCfg) (result : OperandPair × BitVec 32) : Option (BitVec 32) :=
  if accumulates cfg.mode && !result.1.eof then none
  else some (result.2.sshiftRight cfg.shift.toNat)

/-- The outputs of the header for some pairs of operands. -/
def headerOutputs (cfg : AuCfg) (acc : BitVec 32) (pairs : List OperandPair) :
    List (BitVec 32) :=
  (foldTrace (headerResult cfg) acc pairs).filterMap (output cfg)

section Runs

variable (cfg : AuCfg) (au : Au)

/-- The arithmetic unit after a start in any state. -/
def auMachine (first : AuInput) : Machine Au AuInput where
  init := au.step cfg true first
  step := fun au => au.step cfg false

/-- The pair that is accepted in a cycle. -/
def acceptsPair (input : AuInput) : Option OperandPair :=
  if cfg.sampleOpa input then
    some ⟨cfg.inOpa input, cfg.inOpb input, input.operandaSof, input.operandaEof⟩
  else none

/-- The pairs that are accepted in some cycles. -/
def acceptedPairs (inputs : List AuInput) : List OperandPair := inputs.filterMap (acceptsPair cfg)

/-- The output that is transferred in a cycle. -/
def transfersOutput (au : Au) (input : AuInput) : List (BitVec 32) :=
  if au.outputValid cfg && input.outputReady then [au.outputData cfg] else []

/-- The outputs that are transferred in some cycles after a start. -/
def transferredOutputs (first : AuInput) (inputs : List AuInput) : List (BitVec 32) :=
  (auMachine cfg au first).observed (transfersOutput cfg) inputs

/-- The cycles before the last two in which the output was ready. -/
def beforeDrain (inputs : List AuInput) : List AuInput :=
  beforeLast AuInput.outputReady (beforeLast AuInput.outputReady inputs)

/-- The outputs are, in order, those of the header for the accepted pairs, and those for the
pairs accepted before the last two cycles with a ready output have been transferred. -/
def FollowsHeader (first : AuInput) (inputs : List AuInput) : Prop :=
  transferredOutputs cfg au first inputs <+:
      headerOutputs cfg au.rAccumulator (acceptedPairs cfg inputs) ∧
    headerOutputs cfg au.rAccumulator (acceptedPairs cfg (beforeDrain inputs)) <+:
      transferredOutputs cfg au first inputs

/-- The modes that subtract operand B. -/
def subtracts (mode : BitVec 4) : Bool := mode == 5 || mode == 10 || mode == 14

/-- What a mode subtracts from. -/
def minuend (pair : OperandPair) : Option (BitVec 32) :=
  match cfg.mode.toNat with
  | 5 => some (pair.a * pair.a)
  | 10 => some (pair.a * cfg.reg1)
  | 14 => some pair.a
  | _ => none

/-- If the mode subtracts operand B, adding it gives the same shifted result. -/
def AddsAlike (pair : OperandPair) : Prop :=
  ∀ base ∈ minuend cfg pair, (base + pair.b).sshiftRight cfg.shift.toNat =
    (base - pair.b).sshiftRight cfg.shift.toNat

instance (pair : OperandPair) : Decidable (AddsAlike cfg pair) :=
  Option.decidableForallMem (minuend cfg pair)

instance (first : AuInput) (inputs : List AuInput) :
    Decidable (FollowsHeader cfg au first inputs) :=
  inferInstanceAs (Decidable (_ ∧ _))

end Runs

/-- The registers when a pair has been staged. -/
def Au.staged (acc : BitVec 32) (pair : OperandPair) : Au where
  rAccumulator := acc
  rOperanda := pair.a
  rOperandb := pair.b
  rSampleDly := true
  rSampleOut := false
  rSof := pair.sof
  rEof := pair.eof
  rAccoutvalid := false

/-- What is computed for a staged pair. -/
def auResult (cfg : AuCfg) (acc : BitVec 32) (pair : OperandPair) : BitVec 32 :=
  ((Au.staged acc pair).mac cfg).setWidth 32

theorem accumulates_eq (mode : BitVec 4) : (auSelect mode).sumAcc = accumulates mode := by
  revert mode
  decide

theorem setWidth_signExtend {width wide narrow : Nat} (word : BitVec width)
    (extends' : width ≤ wide)
    (narrows : narrow ≤ width) : (word.signExtend wide).setWidth narrow = word.setWidth narrow := by
  ext position inside
  rw [BitVec.getElem_setWidth, BitVec.getElem_setWidth, BitVec.getLsbD_signExtend,
    if_pos (inside.trans_le narrows),
    decide_eq_true (inside.trans_le (narrows.trans extends')), Bool.true_and]

theorem Au.setWidth_mac (au : Au) (cfg : AuCfg) :
    (au.mac cfg).setWidth 32 = au.rOperanda * au.opb cfg + au.sum cfg := by
  rw [mac, BitVec.setWidth_add _ _ (by decide), BitVec.setWidth_mul _ _ (by decide),
    setWidth_signExtend _ (by decide) (by decide), setWidth_signExtend _ (by decide) (by decide),
    setWidth_signExtend _ (by decide) (by decide), BitVec.setWidth_append_eq_right,
    BitVec.setWidth_eq, BitVec.setWidth_eq]

/-- The sixteen modes. -/
theorem mode_cases (mode : BitVec 4) :
    mode = 0 ∨ mode = 1 ∨ mode = 2 ∨ mode = 3 ∨ mode = 4 ∨ mode = 5 ∨ mode = 6 ∨ mode = 7 ∨
      mode = 8 ∨ mode = 9 ∨ mode = 10 ∨ mode = 11 ∨ mode = 12 ∨ mode = 13 ∨ mode = 14 ∨
      mode = 15 := by
  revert mode
  decide

/-- The selections compute the function of the mode, except that operand B is always added. -/
theorem auResult_eq {cfg : AuCfg} (bypassOff : cfg.bypass = false) (acc : BitVec 32)
    (pair : OperandPair) :
    auResult cfg acc pair =
      match minuend cfg pair with
      | some base => base + pair.b
      | none => headerResult cfg acc pair := by
  rw [auResult, Au.setWidth_mac]
  -- the start of a frame matters only where the accumulator is added
  cases sof : pair.sof <;>
  rcases mode_cases cfg.mode with mode | mode | mode | mode | mode | mode | mode | mode | mode |
      mode | mode | mode | mode | mode | mode | mode <;>
    simp [Au.opb, Au.sum, Au.staged, auSelect, minuend, headerResult, headerFunction, mode,
      sof, bypassOff, BitVec.add_comm]

/-- In a mode that subtracts, the result is the subtraction. -/
theorem headerResult_of_minuend {cfg : AuCfg} {pair : OperandPair} {base : BitVec 32}
    (subtracted : minuend cfg pair = some base) (acc : BitVec 32) :
    headerResult cfg acc pair = base - pair.b := by
  rw [minuend] at subtracted
  rw [headerResult, headerFunction]
  split at subtracted <;> rename_i mode <;> cases subtracted <;> simp only [mode]

/-- Whether a mode subtracts does not depend on the operands. -/
theorem minuend_isSome (cfg : AuCfg) (pair : OperandPair) :
    (minuend cfg pair).isSome = subtracts cfg.mode := by
  rcases mode_cases cfg.mode with mode | mode | mode | mode | mode | mode | mode | mode | mode |
      mode | mode | mode | mode | mode | mode | mode <;>
    rw [minuend, subtracts, mode] <;> rfl

/-! ## The unit as a pipeline -/

/-- What the pipeline sees of the inputs. -/
def pipeInput (cfg : AuCfg) (input : AuInput) : PipeInput OperandPair :=
  ⟨input.outputReady, acceptsPair cfg input⟩

/-- The registers hold the pairs of the pipeline. -/
structure Pipes (cfg : AuCfg) (au : Au) (pipe : FoldPipe OperandPair (BitVec 32)) : Prop where
  accumulator : au.rAccumulator = pipe.value
  sampleDly : au.rSampleDly = pipe.staged.isSome
  sampleOut : au.rSampleOut = pipe.last.isSome
  sof : au.rSof = pipe.staged.any OperandPair.sof
  eof : au.rEof = pipe.staged.any OperandPair.eof
  accoutvalid : au.rAccoutvalid = pipe.last.any OperandPair.eof
  operanda : ∀ pair ∈ pipe.staged, au.rOperanda = pair.a
  operandb : ∀ pair ∈ pipe.staged, (auSelect cfg.mode).enOpb = true → au.rOperandb = pair.b

section Pipeline

variable {cfg : AuCfg} {au : Au} {pipe : FoldPipe OperandPair (BitVec 32)}

theorem Pipes.start (cfg : AuCfg) (au : Au) (first : AuInput) :
    Pipes cfg (au.step cfg true first) ⟨none, au.rAccumulator, none⟩ where
  accumulator := rfl
  sampleDly := rfl
  sampleOut := rfl
  sof := rfl
  eof := rfl
  accoutvalid := rfl
  operanda _ absent := nomatch absent
  operandb _ absent := nomatch absent

theorem select_of_off {mode : BitVec 4} (off : (auSelect mode).enOpb = false) :
    (auSelect mode).mulbOpb = false ∧ (auSelect mode).sumOpb = false := by
  revert mode
  decide

/-- Operand B is looked at only if it is sampled. -/
theorem Au.mac_congr {au other : Au} (cfg : AuCfg)
    (accumulator : au.rAccumulator = other.rAccumulator)
    (operanda : au.rOperanda = other.rOperanda) (sof : au.rSof = other.rSof)
    (operandb : (auSelect cfg.mode).enOpb = true → au.rOperandb = other.rOperandb) :
    au.mac cfg = other.mac cfg := by
  have sameOpb : au.opb cfg = other.opb cfg := by
    rw [opb, opb, operanda]
    cases enabled : (auSelect cfg.mode).enOpb with
    | true => rw [operandb enabled]
    | false => rw [(select_of_off enabled).1]; rfl
  have sameSum : au.sum cfg = other.sum cfg := by
    rw [sum, sum, accumulator, sof]
    cases enabled : (auSelect cfg.mode).enOpb with
    | true => rw [operandb enabled]
    | false => rw [(select_of_off enabled).2]; rfl
  rw [mac, mac, operanda, sameOpb, sameSum]

/-- A mark comes in only with a pair. -/
theorem any_acceptsPair (cfg : AuCfg) (input : AuInput) (mark : OperandPair → Bool) :
    (acceptsPair cfg input).any mark =
      (mark ⟨cfg.inOpa input, cfg.inOpb input, input.operandaSof, input.operandaEof⟩ &&
        cfg.sampleOpa input) := by
  rw [acceptsPair]
  cases cfg.sampleOpa input with
  | false => exact (Bool.and_false _).symm
  | true => exact (Bool.and_true _).symm

theorem Pipes.step (pipes : Pipes cfg au pipe) (bypassOff : cfg.bypass = false) (input : AuInput) :
    Pipes cfg (au.step cfg false input) (pipe.step (auResult cfg) (pipeInput cfg input)) := by
  cases ready : input.outputReady with
  | false =>
      have rests : au.step cfg false input = au := by rw [Au.step, ready]; rfl
      have pipeRests : pipe.step (auResult cfg) (pipeInput cfg input) = pipe := by
        rw [FoldPipe.step, pipeInput, ready]; rfl
      rw [rests, pipeRests]
      exact pipes
  | true =>
      have moves : pipe.step (auResult cfg) (pipeInput cfg input) =
          ⟨acceptsPair cfg input, pipe.staged.elim pipe.value (auResult cfg pipe.value),
            pipe.staged⟩ := if_pos ready
      rw [moves, Au.step, ready]
      have sampled : (acceptsPair cfg input).isSome = cfg.sampleOpa input := by
        rw [acceptsPair]
        cases cfg.sampleOpa input <;> rfl
      refine ⟨?_, sampled.symm, pipes.sampleDly, ?_, ?_, pipes.eof, ?_, ?_⟩
      · -- a staged pair goes into the accumulator
        change (if au.rSampleDly then (au.mac cfg).setWidth 32 else au.rAccumulator) = _
        rw [pipes.sampleDly, pipes.accumulator]
        cases staged : pipe.staged with
        | none => rfl
        | some pair =>
            have sof := pipes.sof
            rw [staged] at sof
            exact congrArg (BitVec.setWidth 32) (Au.mac_congr cfg pipes.accumulator
              (pipes.operanda pair staged) sof (pipes.operandb pair staged))
      · exact (any_acceptsPair cfg input OperandPair.sof).symm
      · exact (any_acceptsPair cfg input OperandPair.eof).symm
      · intro pair accepts
        change (if cfg.sampleOpa input then cfg.inOpa input else au.rOperanda) = _
        rw [acceptsPair] at accepts
        cases samples : cfg.sampleOpa input with
        | false => rw [samples] at accepts; cases accepts
        | true => rw [samples] at accepts; cases accepts; rfl
      · intro pair accepts enabled
        change (if cfg.sampleOpb input then cfg.inOpb input else au.rOperandb) = _
        rw [acceptsPair] at accepts
        cases samples : cfg.sampleOpa input with
        | false => rw [samples] at accepts; cases accepts
        | true =>
            have both : cfg.sampleOpb input = true := by
              rw [AuCfg.sampleOpa, bypassOff, enabled] at samples
              rw [AuCfg.sampleOpb, enabled]
              exact samples
            rw [samples] at accepts
            cases accepts
            exact if_pos both

/-- The output that is transferred is the one for the pair that the pipeline delivers. -/
theorem Pipes.transfersOutput (pipes : Pipes cfg au pipe) (input : AuInput) :
    transfersOutput cfg au input =
      (pipe.delivers (pipeInput cfg input)).filterMap (output cfg) := by
  rw [Filter.transfersOutput, FoldPipe.delivers, Au.outputValid, Au.outputData, pipes.accumulator,
    pipes.sampleOut, pipes.accoutvalid, accumulates_eq, pipeInput]
  cases input.outputReady with
  | false => rw [Bool.and_false]; rfl
  | true =>
      rw [Bool.and_true]
      cases pipe.last with
      | none => cases accumulates cfg.mode <;> rfl
      | some pair =>
          change _ = [(pair, pipe.value)].filterMap (output cfg)
          have anyEof : (some pair).any OperandPair.eof = pair.eof := Option.any_some
          rw [List.filterMap_cons, output, anyEof]
          cases accumulates cfg.mode <;> cases pair.eof <;> rfl

end Pipeline

section Runs

variable {cfg : AuCfg} {au : Au} {first : AuInput}

theorem pipes_run (bypassOff : cfg.bypass = false) (inputs : List AuInput) :
    Pipes cfg ((auMachine cfg au first).run inputs)
      ((FoldPipe.machine (auResult cfg) au.rAccumulator).run (inputs.map (pipeInput cfg))) := by
  induction inputs using List.reverseRecOn with
  | nil => exact Pipes.start cfg au first
  | append_singleton inputs input ih =>
      rw [Machine.run_snoc, List.map_append, List.map_singleton, Machine.run_snoc]
      exact ih.step bypassOff input

theorem accepted_pipeInput (inputs : List AuInput) :
    PipeInput.accepted (inputs.map (pipeInput cfg)) = acceptedPairs cfg inputs := by
  induction inputs with
  | nil => rfl
  | cons input inputs ih =>
      have accepts : (pipeInput cfg input).accepts = (acceptsPair cfg input).toList := by
        rw [PipeInput.accepts, pipeInput, acceptsPair, AuCfg.sampleOpa]
        cases input.outputReady <;> rfl
      rw [acceptedPairs, List.filterMap_cons, List.map_cons, PipeInput.accepted, List.flatMap_cons,
        accepts]
      cases acceptsPair cfg input
      · exact ih
      · exact congrArg (_ :: ·) ih

/-- The unit transfers what it computes for the pairs accepted before the last two cycles with
a ready output. -/
theorem transferredOutputs_eq (bypassOff : cfg.bypass = false) (inputs : List AuInput) :
    transferredOutputs cfg au first inputs =
      (foldTrace (auResult cfg) au.rAccumulator
        (acceptedPairs cfg (beforeDrain inputs))).filterMap (output cfg) := by
  have observed : transferredOutputs cfg au first inputs =
      ((FoldPipe.machine (auResult cfg) au.rAccumulator).observed FoldPipe.delivers
        (inputs.map (pipeInput cfg))).filterMap (output cfg) := by
    induction inputs using List.reverseRecOn with
    | nil => rfl
    | append_singleton inputs input ih =>
        rw [transferredOutputs, Machine.observed_snoc, List.map_append, List.map_singleton,
          Machine.observed_snoc, List.filterMap_append, ← ih,
          (pipes_run bypassOff inputs).transfersOutput input]
        rfl
  rw [observed, FoldPipe.observed_delivers, beforeLast_map, beforeLast_map, accepted_pipeInput]
  rfl

theorem beforeDrain_isPrefix (inputs : List AuInput) : beforeDrain inputs <+: inputs :=
  (beforeLast_isPrefix _ _).trans (beforeLast_isPrefix _ _)

/-- In a mode that does not accumulate there is one output for each pair. -/
theorem outputs_of_const {fold : BitVec 32 → OperandPair → BitVec 32}
    {result : OperandPair → BitVec 32} (const : ∀ acc pair, fold acc pair = result pair)
    (single : accumulates cfg.mode = false) (acc : BitVec 32) (pairs : List OperandPair) :
    (foldTrace fold acc pairs).filterMap (output cfg) =
      pairs.map fun pair => (result pair).sshiftRight cfg.shift.toNat := by
  rw [foldTrace_of_const const]
  induction pairs with
  | nil => rfl
  | cons pair pairs ih =>
      rw [List.map_cons, List.filterMap_cons, output, single, ih]
      rfl

theorem headerOutputs_isPrefix (cfg : AuCfg) (acc : BitVec 32) {pairs later : List OperandPair}
    (starts : pairs <+: later) : headerOutputs cfg acc pairs <+: headerOutputs cfg acc later :=
  (foldTrace_isPrefix _ _ starts).filterMap _

theorem followsHeader_of_eq {inputs : List AuInput}
    (same : transferredOutputs cfg au first inputs =
      headerOutputs cfg au.rAccumulator (acceptedPairs cfg (beforeDrain inputs))) :
    FollowsHeader cfg au first inputs := by
  have earlier : acceptedPairs cfg (beforeDrain inputs) <+: acceptedPairs cfg inputs :=
    (beforeDrain_isPrefix inputs).filterMap _
  rw [FollowsHeader, same]
  exact ⟨headerOutputs_isPrefix cfg _ earlier, List.prefix_rfl⟩

/-- A mode that does not subtract gives what the header says. -/
theorem transferred_of_not_subtracts (bypassOff : cfg.bypass = false)
    (subtracting : subtracts cfg.mode = false) (inputs : List AuInput) :
    transferredOutputs cfg au first inputs =
      headerOutputs cfg au.rAccumulator (acceptedPairs cfg (beforeDrain inputs)) := by
  have noMinuend : ∀ pair, minuend cfg pair = none := fun pair =>
    Option.isNone_iff_eq_none.1 (by rw [← Option.not_isSome, minuend_isSome, subtracting]; rfl)
  have same : ∀ acc pair, auResult cfg acc pair = headerResult cfg acc pair := by
    intro acc pair
    rw [auResult_eq bypassOff, noMinuend]
  rw [transferredOutputs_eq bypassOff, foldTrace_congr (fun pair _ acc => same acc pair)]
  rfl

/-- In a mode that subtracts, the number of outputs is right, and an output is right if adding
operand B gives the same result. -/
theorem transferred_of_subtracts (bypassOff : cfg.bypass = false)
    (subtracting : subtracts cfg.mode = true) (inputs : List AuInput) :
    (transferredOutputs cfg au first inputs).length =
        (headerOutputs cfg au.rAccumulator (acceptedPairs cfg (beforeDrain inputs))).length ∧
      ((∀ pair ∈ acceptedPairs cfg (beforeDrain inputs), AddsAlike cfg pair) ↔
        transferredOutputs cfg au first inputs =
          headerOutputs cfg au.rAccumulator (acceptedPairs cfg (beforeDrain inputs))) := by
  have single : accumulates cfg.mode = false := by
    revert subtracting
    generalize cfg.mode = mode
    revert mode
    decide
  have hasMinuend : ∀ pair, ∃ base, minuend cfg pair = some base := fun pair =>
    Option.isSome_iff_exists.1 ((minuend_isSome cfg pair).trans subtracting)
  choose base isMinuend using hasMinuend
  have added : ∀ acc pair, auResult cfg acc pair = base pair + pair.b := by
    intro acc pair
    rw [auResult_eq bypassOff, isMinuend]
  have subtracted : ∀ acc pair, headerResult cfg acc pair = base pair - pair.b :=
    fun acc pair => headerResult_of_minuend (isMinuend pair) acc
  have transferred : transferredOutputs cfg au first inputs = _ :=
    transferredOutputs_eq bypassOff inputs
  rw [outputs_of_const added single] at transferred
  have header : ∀ pairs, headerOutputs cfg au.rAccumulator pairs =
      pairs.map fun pair => (base pair - pair.b).sshiftRight cfg.shift.toNat :=
    fun pairs => outputs_of_const subtracted single _ pairs
  rw [transferred, header]
  refine ⟨by rw [List.length_map, List.length_map], ?_⟩
  rw [List.map_inj_left]
  refine forall₂_congr fun pair _ => ⟨fun alike => alike _ (isMinuend pair), ?_⟩
  intro same other member
  rw [isMinuend] at member
  cases member
  exact same

/-- The outputs are those of the header if and only if, where the mode subtracts operand B,
adding it would give the same result for every pair accepted before the last two cycles with a
ready output. -/
theorem followsHeader_iff (bypassOff : cfg.bypass = false) (inputs : List AuInput) :
    FollowsHeader cfg au first inputs ↔
      ∀ pair ∈ acceptedPairs cfg (beforeDrain inputs), AddsAlike cfg pair := by
  cases subtracting : subtracts cfg.mode with
  | false =>
      have follows : FollowsHeader cfg au first inputs :=
        followsHeader_of_eq (transferred_of_not_subtracts bypassOff subtracting inputs)
      refine ⟨fun _ pair _ base member => ?_, fun _ => follows⟩
      have none : (minuend cfg pair).isSome = false := (minuend_isSome cfg pair).trans subtracting
      rw [member] at none
      cases none
  | true =>
      obtain ⟨asMany, agree⟩ := @transferred_of_subtracts cfg au first bypassOff subtracting inputs
      rw [agree]
      constructor
      · rintro ⟨-, drained⟩
        exact (drained.eq_of_length asMany.symm).symm
      · intro same
        exact followsHeader_of_eq same

end Runs

/-- Five and a number as signed operands, both valid. -/
def fiveAnd (b : BitVec 32) : AuInput where
  operandaData := 5
  operandaDatasize := 2
  operandaValid := true
  operandaSof := true
  operandaEof := true
  operandbData := b
  operandbDatasize := 2
  operandbValid := true
  outputReady := true

/-- The mode `A-B`. -/
def differenceCfg : AuCfg := ⟨true, false, 14, 0, 0, 0⟩

/-- Nothing is lost where nothing is subtracted. -/
theorem fiveMinusZero_followsHeader :
    FollowsHeader differenceCfg .reset (fiveAnd 0) [fiveAnd 0, fiveAnd 0, fiveAnd 0] :=
  (followsHeader_iff rfl [fiveAnd 0, fiveAnd 0, fiveAnd 0]).2 (by decide)

/-- Five minus three is computed as eight. -/
theorem fiveMinusThree_not_followsHeader :
    ¬FollowsHeader differenceCfg .reset (fiveAnd 3) [fiveAnd 3, fiveAnd 3, fiveAnd 3] := by
  decide

end CoreVMcu.Filter
