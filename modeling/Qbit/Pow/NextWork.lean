import Qbit.Chain.Index

/-!
# The next block's difficulty

`GetNextWorkRequired`, which reads the difficulty of the next block off the block index, and
`PermittedDifficultyTransition`, which checks a difficulty with only the header before it at hand.
Both cover the periodic retargeting of the source as well as ASERT, before and after the Cadence
rules split the chain into two lanes.
-/

open Checked

namespace Qbit

/-! ## Periodic retargeting -/

/-- Division of `arith_uint256`, which throws on a zero divisor. -/
def div256 (a b : Uint256) : Result Uint256 := if b = 0 then .error .exception else .ok (a / b)

/-- A signed 64-bit value, cast to `uint64_t` and widened. -/
def arithOfInt64 (x : Int) : Uint256 := BitVec.ofNat 256 (x % 2 ^ 64).toNat

/-- `CalculateRetargetedTarget` -/
def calculateRetargetedTarget (old_target : Uint256) (actual_timespan target_timespan : Int)
    (pow_limit : Uint256) : Result Uint256 := do
  let actual := arithOfInt64 actual_timespan
  let target := arithOfInt64 target_timespan
  if actual = 0 then return 0
  let quotient ← div256 old_target target
  let remainder := old_target - quotient * target
  if (← div256 pow_limit actual) < quotient then return pow_limit
  let retarget := quotient * actual
  let remainder_term ← div256 (remainder * actual) target
  if pow_limit - remainder_term < retarget then return pow_limit
  return retarget + remainder_term

/-- `CalculateNextWorkRequiredLegacy` -/
def calculateNextWorkRequiredLegacy (pindexLast : CBlockIndex) (nFirstBlockTime : Int)
    (params : Params) : Result UInt32 := do
  let nActualTimespan ← sub64 pindexLast.getBlockTime nFirstBlockTime
  let nActualTimespan :=
    if nActualTimespan < params.nPowTargetTimespan.tdiv 4 then params.nPowTargetTimespan.tdiv 4
    else nActualTimespan
  let nLargest ← mul64 params.nPowTargetTimespan 4
  let nActualTimespan := if nLargest < nActualTimespan then nLargest else nActualTimespan
  let nHeightFirst := pindexLast.nHeight - (params.difficultyAdjustmentInterval - 1)
  let nBits ← (if params.enforce_BIP94 then do
      match ← pindexLast.getAncestor nHeightFirst with
      | some pindexFirst => return pindexFirst.nBits
      | none => .error .nullPointer
    else .ok pindexLast.nBits)
  let bnNew ← calculateRetargetedTarget (setCompact nBits).target nActualTimespan
    params.nPowTargetTimespan params.powLimit
  getCompact bnNew

/-- The last block that was not mined under the minimum-difficulty rule, looking back to the start
of the period. -/
def lastNonMinDifficulty (interval : Int) (nProofOfWorkLimit : UInt32) :
    Nat → CBlockIndex → CBlockIndex
  | 0, pindex => pindex
  | fuel + 1, pindex =>
    match pindex.pprev with
    | none => pindex
    | some q =>
      if pindex.nHeight.tmod interval ≠ 0 ∧ pindex.nBits = nProofOfWorkLimit then
        lastNonMinDifficulty interval nProofOfWorkLimit fuel q
      else pindex

/-- `IsCadenceActiveAfter` -/
def isCadenceActiveAfter (pindexPrev : CBlockIndex) (params : Params) : Bool :=
  params.cadenceActiveAtHeight (pindexPrev.nHeight + 1)

/-- `GetNextBlockIsAuxpow`: without a header to look at, the parent's lane stands in. -/
def getNextBlockIsAuxpow (pindexLast : CBlockIndex) (pblock : Option CBlockHeader) : Bool :=
  match pblock with
  | some block => block.signalsAuxpow
  | none => pindexLast.signalsAuxpow

/-- Is the next block more than two spacings late, so that the test networks' minimum-difficulty
rule applies to it? -/
def isMinDifficultyTime (lastTime newTime target_spacing : Int) : Result Bool := do
  let latest ← add64 lastTime (← mul64 target_spacing 2)
  return decide (latest < newTime)

/-- The minimum-difficulty test, on the networks that have that rule. -/
def minDifficultyDue (params : Params) (lastTime newTime target_spacing : Int) : Result Bool :=
  if params.fPowAllowMinDifficultyBlocks then isMinDifficultyTime lastTime newTime target_spacing
  else .ok false

/-- `GetNextWorkRequiredLegacy` -/
def getNextWorkRequiredLegacy (pindexLast : CBlockIndex) (pblock : Option CBlockHeader)
    (params : Params) : Result UInt32 := do
  let nProofOfWorkLimit ← getCompact params.powLimit
  let cadence_active := isCadenceActiveAfter pindexLast params
  let interval := params.difficultyAdjustmentInterval
  if (pindexLast.nHeight + 1).tmod interval ≠ 0 then
    if params.fPowAllowMinDifficultyBlocks then
      let next_block_is_auxpow := cadence_active && getNextBlockIsAuxpow pindexLast pblock
      let target_spacing :=
        if cadence_active then getCadenceTargetSpacing params next_block_is_auxpow
        else params.nPowTargetSpacing
      let minDifficulty ← (match pblock with
        | some block =>
          isMinDifficultyTime pindexLast.getBlockTime block.getBlockTime target_spacing
        | none => .ok false)
      if minDifficulty then return nProofOfWorkLimit
      return (lastNonMinDifficulty interval nProofOfWorkLimit pindexLast.nHeight.toNat
        pindexLast).nBits
    return pindexLast.nBits
  let nHeightFirst := pindexLast.nHeight - (interval - 1)
  require (0 ≤ nHeightFirst)
  match ← pindexLast.getAncestor nHeightFirst with
  | none => .error .assertion
  | some pindexFirst => calculateNextWorkRequiredLegacy pindexLast pindexFirst.getBlockTime params

/-! ## ASERT -/

/-- `GetASERTHeaderState` -/
def getASERTHeaderState (pindex : CBlockIndex) : ASERTHeaderState :=
  { nHeight := pindex.nHeight, nTime := pindex.getBlockTime, nAuxPow := pindex.nAuxPow }

/-- `GetNextASERTWorkRequired` before the Cadence rules, when there is one lane. -/
def getNextASERTWorkRequired (pindexPrev : CBlockIndex) (params : Params) : Result UInt32 := do
  let anchor := params.asertAnchorParams
  require (0 < anchor.nBits)
  require (0 < params.nASERTHalfLife)
  if pindexPrev.nHeight < anchor.nHeight then return anchor.nBits
  let refTarget := (setCompact anchor.nBits).target
  let nTimeDiff ← sub64 pindexPrev.getBlockTime anchor.nBlockTime
  let nHeightDiff ← sub64 pindexPrev.nHeight anchor.nHeight
  getCompact (← calculateASERT refTarget params.nPowTargetSpacing nTimeDiff nHeightDiff
    params.powLimit params.nASERTHalfLife)

/-- `GetNextWorkRequired` -/
def getNextWorkRequired (pindexLast : CBlockIndex) (pblock : Option CBlockHeader)
    (params : Params) : Result UInt32 := do
  if params.fPowNoRetargeting then return pindexLast.nBits
  let cadence_active := isCadenceActiveAfter pindexLast params
  let next_block_is_auxpow := cadence_active && getNextBlockIsAuxpow pindexLast pblock
  let target_spacing :=
    if cadence_active then getCadenceTargetSpacing params next_block_is_auxpow
    else params.nPowTargetSpacing
  let nProofOfWorkLimit ← getCompact params.powLimit
  let minDifficulty ← (match params.fPowUseASERT, pblock with
    | true, some block =>
      minDifficultyDue params pindexLast.getBlockTime block.getBlockTime target_spacing
    | _, _ => .ok false)
  if minDifficulty then return nProofOfWorkLimit
  if !params.fPowUseASERT then getNextWorkRequiredLegacy pindexLast pblock params
  else if !cadence_active then getNextASERTWorkRequired pindexLast params
  else
    let pindexPrevSameType := pindexLast.getPreviousBlockForLane next_block_is_auxpow
      params.asertAnchorParams.nHeight
    getNextASERTWorkRequiredLane (pindexPrevSameType.map getASERTHeaderState) next_block_is_auxpow
      params

/-! ## What `GetNextWorkRequired` asks for -/

section ASERT

variable {params : Params} {p : CBlockIndex} {hdr : CBlockHeader}

/-- The anchor targets decode, and the half-life is one that ASERT can use. -/
structure ValidAnchor (params : Params) : Prop where
  bits : (deriveTarget params.asertAnchorParams.nBits params.powLimit).isSome
  laneBits : ∀ auxpow, (deriveTarget (getASERTAnchorBits params auxpow) params.powLimit).isSome
  halfLife : 0 < params.nASERTHalfLife

theorem getNextASERTWorkRequiredLane_getPreviousBlockForLane (params : Params) (p : CBlockIndex)
    (auxpow : Bool) :
    getNextASERTWorkRequiredLane
        ((p.getPreviousBlockForLane auxpow params.asertAnchorParams.nHeight).map
          getASERTHeaderState) auxpow params =
      getNextASERTWorkRequiredLane ((p.lastInLane auxpow).map getASERTHeaderState) auxpow
        params := by
  rw [CBlockIndex.getPreviousBlockForLane_eq]
  split_ifs
  · rfl
  · rw [← getNextASERTWorkRequiredLane_filter ((p.lastInLane auxpow).map getASERTHeaderState),
      Option.filter_map]
    rfl

/-- The difficulty of the next block in the order of the tests: is there a minimum-difficulty block
due, and if there is not, what does ASERT say? -/
def asertWork (params : Params) (lastTime newTime target_spacing : Int) (asert : Result UInt32) :
    Result UInt32 := do
  let nProofOfWorkLimit ← getCompact params.powLimit
  let minDifficulty ← minDifficultyDue params lastTime newTime target_spacing
  if minDifficulty then return nProofOfWorkLimit
  asert

/-- **With Cadence active** the difficulty of the next block comes from its lane alone. -/
theorem getNextWorkRequired_lane (hretarget : params.fPowNoRetargeting = false)
    (hasert : params.fPowUseASERT = true) (hcadence : isCadenceActiveAfter p params = true) :
    getNextWorkRequired p (some hdr) params =
      asertWork params p.getBlockTime hdr.getBlockTime
        (getCadenceTargetSpacing params hdr.signalsAuxpow)
        (getNextASERTWorkRequiredLane ((p.lastInLane hdr.signalsAuxpow).map getASERTHeaderState)
          hdr.signalsAuxpow params) := by
  simp [getNextWorkRequired, asertWork, hretarget, hasert, hcadence, getNextBlockIsAuxpow,
    getNextASERTWorkRequiredLane_getPreviousBlockForLane]

/-- **Before Cadence** there is one lane, and its last block is the parent. -/
theorem getNextWorkRequired_single (hretarget : params.fPowNoRetargeting = false)
    (hasert : params.fPowUseASERT = true) (hcadence : isCadenceActiveAfter p params = false) :
    getNextWorkRequired p (some hdr) params =
      asertWork params p.getBlockTime hdr.getBlockTime params.nPowTargetSpacing
        (getNextASERTWorkRequired p params) := by
  simp [getNextWorkRequired, asertWork, hretarget, hasert, hcadence]

theorem ValidAnchor.powLimit_ne_zero (h : ValidAnchor params) : params.powLimit ≠ 0 := by
  obtain ⟨t, ht⟩ := Option.isSome_iff_exists.mp h.bits
  obtain ⟨-, -, -, hne, hle⟩ := deriveTarget_eq_some_iff.mp ht
  intro h0
  rw [h0] at hle
  exact hne (BitVec.eq_of_toNat_eq (Nat.le_zero.mp (BitVec.le_def.mp hle)))

theorem ValidAnchor.nBits_pos (h : ValidAnchor params) : 0 < params.asertAnchorParams.nBits :=
  UInt32.pos_iff_ne_zero.mpr (ne_zero_of_isSome_deriveTarget h.bits)

theorem isSome_deriveTarget_single (h : ValidAnchor params) {nBits : UInt32}
    (hwork : getNextASERTWorkRequired p params = .ok nBits) :
    (deriveTarget nBits params.powLimit).isSome := by
  simp only [getNextASERTWorkRequired, bind_eq_ok_iff] at hwork
  obtain ⟨-, -, -, -, hwork⟩ := hwork
  split_ifs at hwork
  · cases hwork
    exact h.bits
  · simp only [bind_eq_ok_iff] at hwork
    obtain ⟨t, -, d, -, next, hnext, hbits⟩ := hwork
    exact isSome_deriveTarget_calculateASERT hnext hbits

theorem isSome_deriveTarget_asertWork (h : ValidAnchor params) {lastTime newTime spacing : Int}
    {asert : Result UInt32}
    (hasert : ∀ nBits, asert = .ok nBits → (deriveTarget nBits params.powLimit).isSome)
    {nBits : UInt32} (hwork : asertWork params lastTime newTime spacing asert = .ok nBits) :
    (deriveTarget nBits params.powLimit).isSome := by
  simp only [asertWork, bind_eq_ok_iff] at hwork
  obtain ⟨limit, hlimit, minDifficulty, -, hwork⟩ := hwork
  cases minDifficulty with
  | true =>
    cases hwork
    obtain ⟨c, y, hc, hy, -⟩ := deriveTarget_getCompact h.powLimit_ne_zero (BitVec.le_refl _)
    rw [hc] at hlimit
    cases hlimit
    rw [hy]
    rfl
  | false => exact hasert nBits hwork

/-- **What is asked for is a target.** -/
theorem isSome_deriveTarget_getNextWorkRequired (hretarget : params.fPowNoRetargeting = false)
    (hasert : params.fPowUseASERT = true) (h : ValidAnchor params) {nBits : UInt32}
    (hwork : getNextWorkRequired p (some hdr) params = .ok nBits) :
    (deriveTarget nBits params.powLimit).isSome := by
  cases hcadence : isCadenceActiveAfter p params with
  | true =>
    rw [getNextWorkRequired_lane hretarget hasert hcadence] at hwork
    exact isSome_deriveTarget_asertWork h (fun _ => isSome_deriveTarget_lane (h.laneBits _)) hwork
  | false =>
    rw [getNextWorkRequired_single hretarget hasert hcadence] at hwork
    exact isSome_deriveTarget_asertWork h (fun _ => isSome_deriveTarget_single h) hwork

end ASERT

/-! ## Checking a difficulty against the header before it -/

variable (params : Params) (height : Int)

/-- The exact check of `PermittedDifficultyTransition`, for one lane and known times. -/
def permittedASERTTransition (new_nbits : UInt32) (old_block_time new_block_time : Int) :
    Result Bool := do
  let prev_height := height - 1
  let pow_limit_nbits ← getCompact params.powLimit
  let minDifficulty ← minDifficultyDue params old_block_time new_block_time params.nPowTargetSpacing
  if minDifficulty then return new_nbits == pow_limit_nbits
  let anchor := params.asertAnchorParams
  let expected_nbits ← (if anchor.nHeight ≤ prev_height then do
      let ref_target := (setCompact anchor.nBits).target
      let n_time_diff ← sub64 old_block_time anchor.nBlockTime
      let n_height_diff ← sub64 prev_height anchor.nHeight
      getCompact (← calculateASERT ref_target params.nPowTargetSpacing n_time_diff n_height_diff
        params.powLimit params.nASERTHalfLife)
    else .ok anchor.nBits)
  return new_nbits == expected_nbits

/-- The check of `PermittedDifficultyTransition` under periodic retargeting: at the end of a period
a step of at most a factor of four either way, and no change in between. -/
def permittedPeriodTransition (old_nbits new_nbits : UInt32) :
    Result Bool := do
  if height.tmod params.difficultyAdjustmentInterval = 0 then
    let smallest_timespan := params.nPowTargetTimespan.tdiv 4
    let largest_timespan ← mul64 params.nPowTargetTimespan 4
    let observed_new_target := (setCompact new_nbits).target
    let largest_difficulty_target ← calculateRetargetedTarget (setCompact old_nbits).target
      largest_timespan params.nPowTargetTimespan params.powLimit
    let maximum_new_target := (setCompact (← getCompact largest_difficulty_target)).target
    if maximum_new_target < observed_new_target then return false
    let smallest_difficulty_target ← calculateRetargetedTarget (setCompact old_nbits).target
      smallest_timespan params.nPowTargetTimespan params.powLimit
    let minimum_new_target := (setCompact (← getCompact smallest_difficulty_target)).target
    return !decide (observed_new_target < minimum_new_target)
  else return old_nbits == new_nbits

/-- `PermittedDifficultyTransition` -/
def permittedDifficultyTransition (old_nbits new_nbits : UInt32)
    (old_block_time new_block_time : Option Int) : Result Bool := do
  if params.fPowNoRetargeting then return true
  if params.fPowUseASERT then
    let cadence_active := params.cadenceActiveAtHeight height
    match deriveTarget old_nbits params.powLimit, deriveTarget new_nbits params.powLimit with
    | some old_target, some new_target =>
      match old_block_time, new_block_time, !cadence_active && decide (0 < height) with
      | some oldTime, some newTime, true =>
        permittedASERTTransition params height new_nbits oldTime newTime
      | _, _, _ =>
        -- The two lanes cannot be told apart here; the caller checks the exact transition.
        if cadence_active then return true
        let pow_limit_nbits ← getCompact params.powLimit
        if params.fPowAllowMinDifficultyBlocks && old_nbits == pow_limit_nbits then return true
        return decide (old_target >>> 1 ≤ new_target)
    | _, _ => return false
  else if params.fPowAllowMinDifficultyBlocks then return true
  else permittedPeriodTransition params height old_nbits new_nbits

/-- With one lane, a transition is permitted when it is the one that the block index asks for. -/
theorem permittedASERTTransition_eq {params : Params} (h : ValidAnchor params) (p : CBlockIndex)
    (new_nbits : UInt32) (newTime : Int) :
    permittedASERTTransition params (p.nHeight + 1) new_nbits p.getBlockTime newTime =
      (do let expected ← asertWork params p.getBlockTime newTime params.nPowTargetSpacing
            (getNextASERTWorkRequired p params)
          return new_nbits == expected) := by
  simp only [permittedASERTTransition, asertWork, getNextASERTWorkRequired,
    require_pos h.nBits_pos, require_pos h.halfLife, ok_bind, Int.add_sub_cancel, bind_assoc]
  refine bind_congr fun limit => bind_congr fun minDifficulty => ?_
  cases minDifficulty with
  | true => rfl
  | false =>
    by_cases hanchor : params.asertAnchorParams.nHeight ≤ p.nHeight
    · simp only [Bool.false_eq_true, if_false, if_pos hanchor, if_neg (Int.not_lt.mpr hanchor)]
    · simp only [if_neg hanchor, if_pos (Int.not_le.mp hanchor)]
      rfl

section Permitted

variable {params : Params} {height : Int} {old_nbits new_nbits : UInt32}
  {old_block_time new_block_time : Int}

/-- With Cadence active, only the two targets are looked at. -/
theorem permittedDifficultyTransition_lane (hretarget : params.fPowNoRetargeting = false)
    (hasert : params.fPowUseASERT = true) (hcadence : params.cadenceActiveAtHeight height = true)
    (hold : (deriveTarget old_nbits params.powLimit).isSome) :
    permittedDifficultyTransition params height old_nbits new_nbits (some old_block_time)
        (some new_block_time) = .ok (deriveTarget new_nbits params.powLimit).isSome := by
  obtain ⟨old, hold⟩ := Option.isSome_iff_exists.mp hold
  simp only [permittedDifficultyTransition, hretarget, hasert, hcadence, hold]
  cases deriveTarget new_nbits params.powLimit <;> rfl

/-- Before Cadence, a transition between two targets is checked exactly. -/
theorem permittedDifficultyTransition_single (hretarget : params.fPowNoRetargeting = false)
    (hasert : params.fPowUseASERT = true) (hcadence : params.cadenceActiveAtHeight height = false)
    (hheight : 0 < height) (hold : (deriveTarget old_nbits params.powLimit).isSome) :
    permittedDifficultyTransition params height old_nbits new_nbits (some old_block_time)
        (some new_block_time) =
      if (deriveTarget new_nbits params.powLimit).isSome then
        permittedASERTTransition params height new_nbits old_block_time new_block_time
      else .ok false := by
  obtain ⟨old, hold⟩ := Option.isSome_iff_exists.mp hold
  simp only [permittedDifficultyTransition, hretarget, hasert, hcadence, hold, hheight]
  cases deriveTarget new_nbits params.powLimit <;> rfl

end Permitted

end Qbit
