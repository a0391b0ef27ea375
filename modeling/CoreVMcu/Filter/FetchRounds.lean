import CoreVMcu.Filter.Datafetch

/-!
# The rounds of a fetch

The registers of `udma_filter_tx_datafetch` are those of a round of the nested loops of the
mode, and the channel knows whether the next element is the first one of a window.
-/

namespace CoreVMcu.Filter

open Clocked Udma

variable {aWidth transSize dataWidth : Nat}

namespace ChannelCfg

variable {cfg : ChannelCfg aWidth transSize}

theorem fetchLoops_innerLast (cfg : ChannelCfg aWidth transSize) :
    cfg.fetchLoops.innerLast = cfg.len0.toNat := by
  rw [fetchLoops]
  split
  · rfl
  · split
    · rfl
    · split <;> rfl

theorem fetchLoops_start (cfg : ChannelCfg aWidth transSize) :
    cfg.fetchLoops.start = cfg.startAddr := by
  rw [fetchLoops]
  split
  · rfl
  · split
    · rfl
    · split <;> rfl

theorem fetchLoops_outerLast (nested : cfg.mode ≠ 0) :
    cfg.fetchLoops.outerLast = cfg.len1.toNat := by
  rw [fetchLoops, if_neg nested]
  split
  · rfl
  · split <;> rfl

theorem fetchLoops_single (linear : cfg.mode = 0) : cfg.fetchLoops.outerLast = 0 := by
  rw [fetchLoops, if_pos linear]
  rfl

theorem fetchLoops_inner (cfg : ChannelCfg aWidth transSize) (k : Nat) :
    cfg.fetchLoops.inner k = k % (cfg.len0.toNat + 1) := by
  rw [NestedLoops.inner, fetchLoops_innerLast]

theorem fetchLoops_total (cfg : ChannelCfg aWidth transSize) :
    cfg.fetchLoops.total = cfg.fetchCount := by
  rw [NestedLoops.total, fetchLoops_innerLast, fetchCount]
  cases (inferInstance : Decidable (cfg.mode = 0)) with
  | isTrue linear => rw [fetchLoops_single linear, if_pos linear, Nat.mul_one]
  | isFalse nested => rw [fetchLoops_outerLast nested, if_neg nested]

theorem fetchLoops_address {k : Nat} (inside : k < cfg.fetchLoops.total) :
    cfg.fetchLoops.address k = cfg.fetchAddress k := by
  rw [NestedLoops.address, NestedLoops.base, NestedLoops.outer, fetchLoops_inner,
    fetchLoops_innerLast, fetchLoops_start, fetchAddress]
  cases (inferInstance : Decidable (cfg.mode = 0)) with
  | isTrue linear =>
      rw [fetchLoops_total, fetchCount, if_pos linear] at inside
      have row : cfg.fetchLoops = cfg.wordLoops 0 0 := if_pos linear
      rw [Nat.div_eq_of_lt inside, Nat.mod_eq_of_lt inside, row, if_pos linear]
      change cfg.startAddr + BitVec.ofNat aWidth 0 * 0 + _ = _
      rw [mul_zero, add_zero]
      rfl
  | isFalse nested =>
      have rows : cfg.fetchLoops = if cfg.mode = 1 then cfg.wordLoops cfg.wordStep cfg.len1.toNat
          else if cfg.mode = 2 then cfg.wordLoops 0 cfg.len1.toNat
          else cfg.wordLoops cfg.rowStep cfg.len1.toNat := if_neg nested
      rw [rows, if_neg nested]
      split
      · change cfg.startAddr + _ * cfg.wordStep + _ * cfg.wordStep = _
        rw [BitVec.ofNat_add, add_mul, add_assoc]
      · split
        · change cfg.startAddr + _ * 0 + _ * cfg.wordStep = _
          rw [mul_zero, add_zero]
        · rfl

theorem length_fetchElements (cfg : ChannelCfg aWidth transSize) :
    cfg.fetchElements.length = cfg.fetchLoops.total := by
  rw [fetchElements, List.length_map, List.length_range, fetchLoops_total]

theorem getElem_fetchElements {k : Nat} (inside : k < cfg.fetchLoops.total) :
    cfg.fetchElements[k]? = some (cfg.fetchElement k) := by
  rw [fetchLoops_total] at inside
  rw [fetchElements, List.getElem?_map, List.getElem?_range inside]
  rfl

/-- The element after another one is the first of a window exactly if that one is the last of
a window and there is another window. -/
theorem fetchSof_succ (cfg : ChannelCfg aWidth transSize) (k : Nat) :
    cfg.fetchSof (k + 1) =
      (cfg.windowed && decide (cfg.fetchLoops.inner k = cfg.fetchLoops.innerLast)) := by
  rw [fetchSof]
  cases cfg.windowed with
  | false => rfl
  | true =>
      rw [if_pos rfl, Bool.true_and, ← fetchLoops_inner]
      cases (inferInstance : Decidable (cfg.fetchLoops.inner k = cfg.fetchLoops.innerLast)) with
      | isTrue ends => rw [NestedLoops.inner_next ends, decide_eq_true ends]; rfl
      | isFalse inside => rw [NestedLoops.inner_succ inside, decide_eq_false inside]; rfl

end ChannelCfg

/-! ## One round -/

namespace MarkedFetch

variable {marked : MarkedFetch aWidth transSize dataWidth} {cfg : ChannelCfg aWidth transSize}
variable {round : Nat} {input : FetchInput dataWidth}

/-- The channel runs and is in a round of the transfer. -/
structure InRound (cfg : ChannelCfg aWidth transSize) (round : Nat)
    (marked : MarkedFetch aWidth transSize dataWidth) : Prop where
  running : marked.fetch.running = true
  rMode : marked.fetch.rMode = cfg.mode
  walk : marked.fetch.walk = .wordsInside cfg.fetchLoops round
  rIssof : marked.rIssof = cfg.fetchSof round
  inside : round < cfg.fetchLoops.total

theorem lastWord_eq (cfg : ChannelCfg aWidth transSize) (round : Nat) :
    ((Walk.wordsInside cfg.fetchLoops round : Walk aWidth transSize).rPtnBufferW == cfg.len0) =
      decide (cfg.fetchLoops.inner round = cfg.fetchLoops.innerLast) :=
  Walk.lastWord cfg.fetchLoops_innerLast

theorem isLast_eq (nested : cfg.mode ≠ 0) (inside : round < cfg.fetchLoops.total) :
    (Walk.wordsInside cfg.fetchLoops round : Walk aWidth transSize).isLast cfg =
      decide (round + 1 = cfg.fetchLoops.total) :=
  Walk.isLast_wordsInside cfg.fetchLoops_innerLast (ChannelCfg.fetchLoops_outerLast nested) inside

theorem InRound.done (inRound : InRound cfg round marked) (granted : marked.granted input = true) :
    marked.done cfg input = decide (round + 1 = cfg.fetchLoops.total) := by
  rw [MarkedFetch.granted] at granted
  rw [MarkedFetch.done, TxDatafetch.done, granted, Bool.true_and, inRound.rMode, inRound.walk]
  cases (inferInstance : Decidable (cfg.mode = 0)) with
  | isTrue linear =>
      rw [if_pos linear]
      exact Walk.lastWord_of_single cfg.fetchLoops_innerLast
        (ChannelCfg.fetchLoops_single linear) inRound.inside
  | isFalse nested =>
      rw [if_neg nested]
      exact isLast_eq nested inRound.inside

theorem fetchMode_cases (mode : BitVec 2) : mode = 0 ∨ mode = 1 ∨ mode = 2 ∨ mode = 3 := by
  revert mode
  decide

theorem lastWord_linear (linear : cfg.mode = 0) (inside : round < cfg.fetchLoops.total) :
    ((Walk.wordsInside cfg.fetchLoops round : Walk aWidth transSize).rPtnBufferW == cfg.len0) =
      decide (round + 1 = cfg.fetchLoops.total) :=
  Walk.lastWord_of_single cfg.fetchLoops_innerLast (ChannelCfg.fetchLoops_single linear) inside

/-- What is marked as the last word of a window is one. -/
theorem InRound.isEof (inRound : InRound cfg round marked) (granted : marked.granted input = true) :
    marked.isEof cfg input = cfg.fetchEof round := by
  have inside := inRound.inside
  rw [MarkedFetch.isEof, granted, Bool.true_and, inRound.rMode, inRound.walk, ChannelCfg.fetchEof,
    ← ChannelCfg.fetchLoops_total, ← ChannelCfg.fetchLoops_inner, ← cfg.fetchLoops_innerLast,
    ChannelCfg.windowed]
  rcases fetchMode_cases cfg.mode with linear | sliding | circular | twoDim
  · rw [linear, lastWord_linear linear inside]
    rfl
  · rw [sliding, lastWord_eq]
    rfl
  · rw [circular, lastWord_eq]
    rfl
  · rw [twoDim, isLast_eq (by rw [twoDim]; decide) inside]
    rfl

/-- The channel knows whether another window follows. -/
theorem InRound.isSofNext (inRound : InRound cfg round marked)
    (granted : marked.granted input = true) (goesOn : round + 1 ≠ cfg.fetchLoops.total) :
    marked.isSofNext cfg input = cfg.fetchSof (round + 1) := by
  rw [MarkedFetch.isSofNext, granted, Bool.true_and, inRound.rMode, inRound.walk,
    ChannelCfg.fetchSof_succ, lastWord_eq, ChannelCfg.windowed]
  cases (inferInstance : Decidable (cfg.mode = 0)) with
  | isTrue linear => rw [linear]; rfl
  | isFalse nested =>
      rw [isLast_eq nested inRound.inside, decide_eq_false goesOn, Bool.not_false, Bool.and_true]

/-- Before the last round the loops go on to the next one. -/
theorem InRound.walkNext (inRound : InRound cfg round marked)
    (goesOn : round + 1 ≠ cfg.fetchLoops.total) :
    marked.fetch.walkNext cfg = .wordsInside cfg.fetchLoops (round + 1) := by
  have inside := inRound.inside
  rw [TxDatafetch.walkNext, inRound.rMode, inRound.walk]
  cases (inferInstance : Decidable (cfg.mode = 0)) with
  | isTrue linear =>
      have notLast := lastWord_linear linear inside
      rw [decide_eq_false goesOn] at notLast
      have inner := lastWord_eq cfg round
      rw [notLast] at inner
      have row : cfg.fetchLoops = cfg.wordLoops 0 0 := if_pos linear
      simp only [if_pos linear, notLast, if_neg Bool.false_ne_true]
      rw [row] at inner ⊢
      exact Walk.inner_wordsInside (of_decide_eq_false inner.symm)
  | isFalse nested =>
      have notLast := isLast_eq nested inside
      rw [decide_eq_false goesOn] at notLast
      have innerStep : cfg.fetchLoops.innerStep = cfg.wordStep := by
        rw [ChannelCfg.fetchLoops, if_neg nested]
        split
        · rfl
        · split <;> rfl
      simp only [if_neg nested, notLast, if_neg Bool.false_ne_true, lastWord_eq, decide_eq_true_eq]
      split
      · next ends =>
          rw [← Walk.outer_wordsInside ends]
          have outerStep : cfg.fetchLoops.outerStep = if cfg.mode = 1 then cfg.wordStep
              else if cfg.mode = 2 then 0 else cfg.rowStep := by
            rw [ChannelCfg.fetchLoops, if_neg nested]
            split
            · rfl
            · split <;> rfl
          rw [outerStep]
          split
          · rfl
          · split
            · rw [add_zero]
              rfl
            · rfl
      · next inner =>
          have next := @Walk.inner_wordsInside _ transSize _ _ inner
          rw [innerStep] at next
          exact next

/-- A start begins with the first round. -/
theorem inRound_start (cmdStart : Bool) (starts : marked.fetch.starts cmdStart = true) :
    InRound cfg 0 (marked.step cfg cmdStart input) where
  running := by
    rw [TxDatafetch.starts, Bool.and_eq_true, Bool.not_eq_true'] at starts
    rw [step, TxDatafetch.step, starts.1, starts.2]
    rfl
  rMode := if_pos starts
  walk := by
    rw [Walk.wordsInside_zero cfg.fetchLoops_start]
    exact if_pos starts
  rIssof := by
    have first : cfg.fetchSof 0 = true := by
      rw [ChannelCfg.fetchSof, Nat.zero_mod]
      cases cfg.windowed <;> rfl
    rw [first, step, starts, Bool.true_or]
    rfl
  inside := NestedLoops.total_pos

theorem InRound.starts_eq (inRound : InRound cfg round marked) (cmdStart : Bool) :
    marked.fetch.starts cmdStart = false := by
  rw [TxDatafetch.starts, inRound.running]
  rfl

/-- Without a grant the transfer stays in its round. -/
theorem InRound.stays (inRound : InRound cfg round marked) (cmdStart : Bool)
    (rests : marked.granted input = false) :
    InRound cfg round (marked.step cfg cmdStart input) where
  running := by
    rw [granted] at rests
    rw [step, TxDatafetch.step, inRound.running, TxDatafetch.done, rests]
    rfl
  rMode := by
    rw [step, TxDatafetch.step, inRound.starts_eq]
    exact inRound.rMode
  walk := by
    rw [granted] at rests
    rw [step, TxDatafetch.step, inRound.starts_eq, rests]
    exact inRound.walk
  rIssof := by
    rw [step, inRound.starts_eq, MarkedFetch.isSofNext, rests, Bool.and_false]
    exact inRound.rIssof
  inside := inRound.inside

/-- With a grant that is not the last one the transfer goes on to the next round. -/
theorem InRound.goesOn (inRound : InRound cfg round marked) (cmdStart : Bool)
    (grants : marked.granted input = true) (notLast : round + 1 ≠ cfg.fetchLoops.total) :
    InRound cfg (round + 1) (marked.step cfg cmdStart input) where
  running := by
    have done := inRound.done grants
    rw [MarkedFetch.done, decide_eq_false notLast] at done
    rw [step, TxDatafetch.step, inRound.running, done]
    rfl
  rMode := by
    rw [step, TxDatafetch.step, inRound.starts_eq]
    exact inRound.rMode
  walk := by
    rw [granted] at grants
    rw [step, TxDatafetch.step, inRound.starts_eq, grants]
    exact inRound.walkNext notLast
  rIssof := by
    rw [step, inRound.starts_eq, inRound.isSofNext grants notLast, grants]
    cases cfg.fetchSof (round + 1) <;> cases marked.rIssof <;> rfl
  inside := Nat.lt_of_le_of_ne inRound.inside notLast

/-- With the last grant the transfer ends. -/
theorem InRound.ends (inRound : InRound cfg round marked) (cmdStart : Bool)
    (grants : marked.granted input = true) (last : round + 1 = cfg.fetchLoops.total) :
    (marked.step cfg cmdStart input).fetch.running = false := by
  have done := inRound.done grants
  rw [MarkedFetch.done, decide_eq_true last] at done
  rw [step, TxDatafetch.step, inRound.running, done]
  rfl

/-- The element that is requested in a round. -/
def requested (marked : MarkedFetch aWidth transSize dataWidth) (cfg : ChannelCfg aWidth transSize)
    (input : FetchInput dataWidth) : List (FetchElement aWidth) :=
  if marked.granted input then
    [⟨marked.fetch.walk.rLocPointer, marked.isSof input, marked.isEof cfg input⟩]
  else []

theorem InRound.requested (inRound : InRound cfg round marked)
    (grants : marked.granted input = true) :
    marked.requested cfg input = [cfg.fetchElement round] := by
  rw [MarkedFetch.requested, if_pos grants, inRound.isEof grants, isSof, grants, Bool.true_and,
    inRound.rIssof, inRound.walk, ChannelCfg.fetchElement,
    ← ChannelCfg.fetchLoops_address inRound.inside]
  rfl

end MarkedFetch

/-! ## The channel of a run -/

section Runs

variable {schedule : Nat → FetchCycle aWidth transSize dataWidth}

theorem fetchAt_succ (n : Nat) :
    fetchAt schedule (n + 1) =
      (fetchAt schedule n).step (schedule n).cfg (schedule n).cmdStart
        (schedule n).toFetchInput := by
  rw [fetchAt, inputsUpTo_succ, Machine.run_snoc]
  rfl

/-- The requests of a run. -/
def fetchChannel (schedule : Nat → FetchCycle aWidth transSize dataWidth) :
    Channel (FetchElement aWidth) where
  running n := (fetchAt schedule n).fetch.running
  starts := fetchStarts schedule
  program n := (schedule n).cfg.fetchElements
  moved n := (fetchAt schedule n).requested (schedule n).cfg (schedule n).toFetchInput

/-- The channel is in a round of the transfer with the configuration of the cycle. -/
def FetchRound (schedule : Nat → FetchCycle aWidth transSize dataWidth) (n : Nat)
    (elements : List (FetchElement aWidth)) (round : Nat) : Prop :=
  elements = (schedule n).cfg.fetchElements ∧
    (fetchAt schedule n).InRound (schedule n).cfg round

/-- The configuration is kept while the channel runs. -/
theorem Served.nextRound (served : Served schedule) {n round : Nat}
    {elements : List (FetchElement aWidth)}
    (inRound : (fetchAt schedule (n + 1)).InRound (schedule n).cfg round)
    (programmed : elements = (schedule n).cfg.fetchElements) :
    (fetchAt schedule (n + 1)).fetch.running = true ∧
      FetchRound schedule (n + 1) elements round := by
  rw [FetchRound, served.kept n inRound.running]
  exact ⟨inRound.running, programmed, inRound⟩

theorem fetchRounds (served : Served schedule) :
    (fetchChannel schedule).Rounds (FetchRound schedule) where
  reset := rfl
  inside n elements round inRound := by
    rw [inRound.1, ChannelCfg.length_fetchElements]
    exact inRound.2.inside
  starts n running := by
    change (fetchAt schedule n).fetch.running = true at running
    change (!(fetchAt schedule n).fetch.running && _) = false
    rw [running]
    rfl
  rests n idle rests := by
    change (fetchAt schedule (n + 1)).fetch.running = false
    change (fetchAt schedule n).fetch.running = false at idle
    change (!(fetchAt schedule n).fetch.running && (schedule n).cmdStart) = false at rests
    rw [idle] at rests
    rw [fetchAt_succ, MarkedFetch.step, TxDatafetch.step, idle]
    exact rests
  begins n idle starts := by
    have first : MarkedFetch.InRound (schedule n).cfg 0 (fetchAt schedule (n + 1)) := by
      rw [fetchAt_succ]
      exact MarkedFetch.inRound_start _ starts
    exact served.nextRound first rfl
  stays n elements round running inRound rests := by
    have notGranted : (fetchAt schedule n).granted (schedule n).toFetchInput = false := by
      cases grants : (fetchAt schedule n).granted (schedule n).toFetchInput with
      | false => rfl
      | true =>
          have some := inRound.2.requested grants
          exact absurd (some.symm.trans rests) (List.cons_ne_nil _ _)
    have same : MarkedFetch.InRound (schedule n).cfg round (fetchAt schedule (n + 1)) := by
      rw [fetchAt_succ]
      exact inRound.2.stays _ notGranted
    exact served.nextRound same inRound.1
  moves n elements round running inRound moves := by
    have grants : (fetchAt schedule n).granted (schedule n).toFetchInput = true := by
      cases grants : (fetchAt schedule n).granted (schedule n).toFetchInput with
      | true => rfl
      | false =>
          refine absurd ?_ moves
          change MarkedFetch.requested _ _ _ = []
          rw [MarkedFetch.requested, grants]
          rfl
    have element := ChannelCfg.getElem_fetchElements inRound.2.inside
    refine ⟨?_, ?_⟩
    · rw [inRound.1, element]
      exact (inRound.2.requested grants).symm
    · rw [inRound.1, ChannelCfg.length_fetchElements]
      split
      · next last =>
          change (fetchAt schedule (n + 1)).fetch.running = false
          rw [fetchAt_succ]
          exact inRound.2.ends _ grants last
      · next goesOn =>
          have next : MarkedFetch.InRound (schedule n).cfg (round + 1)
              (fetchAt schedule (n + 1)) := by
            rw [fetchAt_succ]
            exact inRound.2.goesOn _ grants goesOn
          exact served.nextRound next rfl

/-- A grant comes only to a request, so while the channel runs. -/
theorem granted_eq (served : Served schedule) (n : Nat) :
    (fetchAt schedule n).granted (schedule n).toFetchInput =
      ((fetchAt schedule n).fetch.req && (schedule n).gnt) := by
  rw [MarkedFetch.granted, TxDatafetch.granted, TxDatafetch.req, MarkedFetch.fetchInput]
  cases grants : (schedule n).gnt with
  | false => rw [Bool.and_false, Bool.and_false]
  | true =>
      have requests := served.granted n grants
      rw [TxDatafetch.req, Bool.and_eq_true] at requests
      rw [requests.1, requests.2]
      rfl

theorem fetchSilent (served : Served schedule) (n : Nat) : (fetchChannel schedule).Silent n := by
  intro idle
  change MarkedFetch.requested _ _ _ = []
  change (fetchAt schedule n).fetch.running = false at idle
  rw [MarkedFetch.requested, granted_eq served, TxDatafetch.req, idle, Bool.and_false]
  rfl

theorem fetchProgress (served : Served schedule) (n : Nat) :
    (fetchChannel schedule).Progress (FetchRound schedule) n :=
  (fetchRounds served).progress fun m _ => fetchSilent served m

theorem programmedBefore_fetchChannel (n : Nat) :
    (fetchChannel schedule).programmedBefore n = elementsBefore schedule n := by
  induction n with
  | zero => rfl
  | succ n ih => rw [Channel.programmedBefore, elementsBefore, ih]; rfl

theorem grantedBefore_eq (served : Served schedule) (n : Nat) :
    grantedBefore schedule n =
      ((fetchChannel schedule).movedBefore n).map FetchElement.address := by
  induction n with
  | zero => rfl
  | succ n ih =>
      rw [grantedBefore, Channel.movedBefore, ih, List.map_append, ← granted_eq served]
      congr 1
      change _ = (MarkedFetch.requested _ _ _).map FetchElement.address
      rw [MarkedFetch.requested]
      cases (fetchAt schedule n).granted (schedule n).toFetchInput <;> rfl

end Runs

end CoreVMcu.Filter
