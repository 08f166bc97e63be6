import Qbit.Pow.Compact

/-!
# ASERT

`CalculateASERT` and the functions of `pow.cpp` that prepare its arguments for one lane.  Signed
64-bit operations and assertions are those of `Checked`: a result `.ok t` says that none of them
failed on the way.

The product of the anchor target and the 17-bit factor has nine 32-bit limbs, which the source keeps
in a `WideTarget` and shifts by hand.

`calculateASERT_spec` says what the arguments must satisfy for the asserts and the signed arithmetic
to go through, and that what comes out is then a target, from 1 to the limit.
-/

open Checked

namespace Qbit

/-! ## Wide targets -/

def wideTargetBits : Nat := 288

/-- `WideTarget`: nine 32-bit limbs, the least significant first. -/
abbrev WideTarget := Vector UInt32 9

def WideTarget.zero : WideTarget := Vector.replicate 9 0

/-- `ShiftRightWideTarget` -/
def shiftRightWideTarget (value : WideTarget) (shift : Nat) : WideTarget :=
  if wideTargetBits ≤ shift then WideTarget.zero
  else
    let k := shift / 32
    let r := shift % 32
    Vector.ofFn fun i : Fin 9 =>
      let n : UInt64 :=
        if i + k < 9 then
          let lo := (value.toArray.getD (i + k) 0).toUInt64 >>> UInt64.ofNat r
          if r ≠ 0 ∧ i + k + 1 < 9 then
            lo ||| (value.toArray.getD (i + k + 1) 0).toUInt64 <<< UInt64.ofNat (32 - r)
          else lo
        else 0
      n.toUInt32

/-- `ShiftLeftWideTarget` -/
def shiftLeftWideTarget (value : WideTarget) (shift : Nat) : WideTarget :=
  if wideTargetBits ≤ shift then WideTarget.zero
  else
    let k := shift / 32
    let r := shift % 32
    Vector.ofFn fun i : Fin 9 =>
      let n : UInt64 :=
        if k ≤ i then
          let hi := (value.toArray.getD (i - k) 0).toUInt64 <<< UInt64.ofNat r
          if r ≠ 0 ∧ k < i then
            hi ||| (value.toArray.getD (i - k - 1) 0).toUInt64 >>> UInt64.ofNat (32 - r)
          else hi
        else 0
      n.toUInt32

/-- `LeftShiftWideTargetOverflows` -/
def leftShiftWideTargetOverflows (original shifted : WideTarget) (shift : Nat) : Bool :=
  if wideTargetBits ≤ shift then original != WideTarget.zero
  else shiftRightWideTarget shifted shift != original

variable (value : Uint256) (factor : UInt32)

/-- `MultiplyToWideTarget`: eight limbs with a carry, which becomes the ninth. -/
def multiplyToWideTarget : WideTarget :=
  let s := (List.finRange 8).foldl (fun (s : WideTarget × UInt64) (i : Fin 8) =>
    let limb := UInt32.ofNat (value.toNat >>> (32 * i.val))
    let n := s.2 + limb.toUInt64 * factor.toUInt64
    (s.1.set i n.toUInt32, n >>> 32)) (WideTarget.zero, 0)
  s.1.set 8 s.2.toUInt32

/-- One turn of the loop of `MultiplyToWideTarget`. -/
def multiplyLimb (s : WideTarget × UInt64) (i : Fin 8) : WideTarget × UInt64 :=
  let limb := UInt32.ofNat (value.toNat >>> (32 * i.val))
  let n := s.2 + limb.toUInt64 * factor.toUInt64
  (s.1.set i n.toUInt32, n >>> 32)

theorem multiplyToWideTarget_eq :
    multiplyToWideTarget value factor =
      let s := (List.finRange 8).foldl (multiplyLimb value factor) (WideTarget.zero, 0)
      s.1.set 8 s.2.toUInt32 := rfl

/-- `WideTargetToArith`: the eight low limbs. -/
def wideTargetToArith (value : WideTarget) : Uint256 :=
  BitVec.ofNat 256 ((List.range 8).foldl
    (fun n i => n + (value.toArray.getD i 0).toNat <<< (32 * i)) 0)

/-! ## The next target -/

/-- The cubic approximation of `2 ^ (frac / 65536)`, with 16 fractional bits. -/
def asertFactor (frac : UInt64) : UInt32 :=
  let sum : UInt64 :=
    195766423245049 * frac + 971821376 * frac * frac + 5127 * frac * frac * frac + 0x800000000000
  let whole : UInt64 := sum >>> 48
  (65536 + whole).toUInt32

/-- The anchor target times the factor, shifted, and whether it left the 256 bits. -/
def asertTarget (refTarget : Uint256) (factor : UInt32) (shifts : Int) (powLimit : Uint256) :
    Uint256 :=
  let initial_target := multiplyToWideTarget refTarget factor
  let shifted_target :=
    if shifts ≤ 0 then shiftRightWideTarget initial_target (-shifts).toNat
    else shiftLeftWideTarget initial_target shifts.toNat
  let overflow :=
    decide (0 < shifts) && leftShiftWideTargetOverflows initial_target shifted_target shifts.toNat
  if overflow || shifted_target.toArray.getD 8 0 != 0 then powLimit
  else wideTargetToArith shifted_target

/-- The last lines of `CalculateASERT`: a target is neither zero nor above the limit. -/
def clampTarget (nextTarget powLimit : Uint256) : Uint256 :=
  if nextTarget = 0 then 1 else if powLimit < nextTarget then powLimit else nextTarget

/-- The exponent of `CalculateASERT`: how far the chain is from its schedule, in half-lives, with 16
fractional bits. -/
def asertExponent (nPowTargetSpacing nTimeDiff nHeightDiff nHalfLife : Int) : Result Int := do
  require (0 ≤ nHeightDiff)
  require (0 < nHalfLife)
  let drift ← sub64 nTimeDiff (← mul64 nPowTargetSpacing nHeightDiff)
  require ((← int64 drift.natAbs) < 2 ^ 47)
  return (← mul64 drift 65536).tdiv nHalfLife

/-- `CalculateASERT` -/
def calculateASERT (refTarget : Uint256) (nPowTargetSpacing nTimeDiff nHeightDiff : Int)
    (powLimit : Uint256) (nHalfLife : Int) : Result Uint256 := do
  require (0 < refTarget ∧ refTarget ≤ powLimit)
  let exponent ← asertExponent nPowTargetSpacing nTimeDiff nHeightDiff nHalfLife
  let shifts := exponent >>> (16 : Nat)
  let frac := (exponent % 65536).toNat
  require (exponent = (← add64 (← mul64 shifts 65536) frac))
  let shifts ← sub64 shifts 16
  return clampTarget (asertTarget refTarget (asertFactor (UInt64.ofNat frac)) shifts powLimit)
    powLimit

variable {powLimit refTarget next : Uint256}
  {nPowTargetSpacing nTimeDiff nHeightDiff nHalfLife : Int} {nBits : UInt32}

theorem clampTarget_spec {nextTarget : Uint256} (h : powLimit ≠ 0) :
    clampTarget nextTarget powLimit ≠ 0 ∧ clampTarget nextTarget powLimit ≤ powLimit := by
  unfold clampTarget
  split_ifs with h0 hlt
  · refine ⟨by decide, BitVec.le_def.mpr ?_⟩
    exact Nat.pos_of_ne_zero fun h' => h (BitVec.eq_of_toNat_eq h')
  · exact ⟨h, BitVec.le_refl _⟩
  · exact ⟨h0, BitVec.not_lt.mp hlt⟩

/-- **Whatever comes out is a target**: not zero, and not above the limit. -/
theorem calculateASERT_bounds
    (h : calculateASERT refTarget nPowTargetSpacing nTimeDiff nHeightDiff powLimit nHalfLife =
      .ok next) : next ≠ 0 ∧ next ≤ powLimit := by
  simp only [calculateASERT, bind_eq_ok_iff, require_eq_ok_iff] at h
  obtain ⟨-, ⟨hpos, hle⟩, exponent, -, a, -, b, -, -, -, shifts, -, hret⟩ := h
  cases hret
  have hlimit : powLimit ≠ 0 := by
    rintro rfl
    exact absurd hpos (BitVec.not_lt.mpr hle)
  exact clampTarget_spec hlimit

/-- Less than `2 ^ 47` seconds off schedule is what the asserts allow, and the exponent then leaves
room for the arithmetic that follows. -/
theorem asertExponent_ok (hheight : 0 ≤ nHeightDiff) (hhalf : 0 < nHalfLife)
    (hmul : InRange64 (nPowTargetSpacing * nHeightDiff))
    (hlo : -2 ^ 47 < nTimeDiff - nPowTargetSpacing * nHeightDiff)
    (hhi : nTimeDiff - nPowTargetSpacing * nHeightDiff < 2 ^ 47) :
    ∃ e, asertExponent nPowTargetSpacing nTimeDiff nHeightDiff nHalfLife = .ok e ∧
      -(2 ^ 63 - 2 ^ 16) ≤ e ∧ e ≤ 2 ^ 63 - 2 ^ 16 := by
  obtain ⟨drift, hdrift⟩ : ∃ d, nTimeDiff - nPowTargetSpacing * nHeightDiff = d := ⟨_, rfl⟩
  have hexp := Int.natAbs_tdiv_le_natAbs (drift * 65536) nHalfLife
  refine ⟨(drift * 65536).tdiv nHalfLife, ?_, by omega, by omega⟩
  simp only [asertExponent, mul64, sub64, bind_eq_ok_iff, require_eq_ok_iff, int64_eq_ok_iff]
  exact ⟨(), hheight, (), hhalf, _, ⟨hmul, rfl⟩, drift, ⟨⟨by omega, by omega⟩, hdrift⟩,
    _, ⟨⟨by omega, by omega⟩, rfl⟩, (), by omega, _, ⟨⟨by omega, by omega⟩, rfl⟩, rfl⟩

/-- **When the asserts hold.**  With a valid anchor target and a half-life, all that is needed is
that the chain is less than `2 ^ 47` seconds ahead of its schedule or behind it. -/
theorem calculateASERT_ok (href : 0 < refTarget ∧ refTarget ≤ powLimit) (hheight : 0 ≤ nHeightDiff)
    (hhalf : 0 < nHalfLife) (hmul : InRange64 (nPowTargetSpacing * nHeightDiff))
    (hlo : -2 ^ 47 < nTimeDiff - nPowTargetSpacing * nHeightDiff)
    (hhi : nTimeDiff - nPowTargetSpacing * nHeightDiff < 2 ^ 47) :
    ∃ next,
      calculateASERT refTarget nPowTargetSpacing nTimeDiff nHeightDiff powLimit nHalfLife =
        .ok next := by
  obtain ⟨e, he, helo, hehi⟩ := asertExponent_ok hheight hhalf hmul hlo hhi
  have hshift : e >>> (16 : Nat) = e / 65536 := Int.shiftRight_eq_div_pow e 16
  have hsplit : e / 65536 * 65536 + ((e % 65536).toNat : Int) = e := by omega
  refine ⟨clampTarget (asertTarget refTarget (asertFactor (UInt64.ofNat (e % 65536).toNat))
    (e / 65536 - 16) powLimit) powLimit, ?_⟩
  simp only [calculateASERT, mul64, sub64, add64, bind_eq_ok_iff, require_eq_ok_iff,
    int64_eq_ok_iff]
  refine ⟨(), href, e, he, ?_⟩
  rw [hshift]
  exact ⟨_, ⟨⟨by omega, by omega⟩, rfl⟩, e, ⟨⟨by omega, by omega⟩, hsplit⟩, (), rfl,
    _, ⟨⟨by omega, by omega⟩, rfl⟩, rfl⟩

/-! ## One lane -/

/-- `ASERTHeaderState`: what the difficulty of a lane depends on. -/
structure ASERTHeaderState where
  nHeight : Int := 0
  nTime : Int := 0
  nAuxPow : Nat := 0
  deriving DecidableEq

/-- `GetASERTAnchorBits` -/
def getASERTAnchorBits (params : Params) (auxpow : Bool) : UInt32 :=
  let anchor := params.asertAnchorParams
  if auxpow ∧ anchor.nBitsAuxPow ≠ 0 then anchor.nBitsAuxPow
  else if ¬ auxpow ∧ anchor.nBitsLegacy ≠ 0 then anchor.nBitsLegacy
  else anchor.nBits

/-- `GetCadenceTargetSpacing` -/
def getCadenceTargetSpacing (params : Params) (auxpow : Bool) : Int :=
  if auxpow ∧ 0 < params.nPowTargetSpacingAuxPow then params.nPowTargetSpacingAuxPow
  else if ¬ auxpow ∧ 0 < params.nPowTargetSpacingLegacy then params.nPowTargetSpacingLegacy
  else params.nPowTargetSpacing

/-- `GetASERTHeightDiff`: how many blocks of its lane lie between the anchor and the block. -/
def getASERTHeightDiff (pindexPrev : ASERTHeaderState) (auxpow : Bool) (params : Params) :
    Result Int := do
  let anchor := params.asertAnchorParams
  require (anchor.nHeight ≤ pindexPrev.nHeight)
  require (anchor.nAuxPow ≤ pindexPrev.nAuxPow)
  let nAuxPowDiff := pindexPrev.nAuxPow - anchor.nAuxPow
  require (nAuxPowDiff ≤ 2 ^ 63 - 1)
  if auxpow then return nAuxPowDiff
  sub64 (← sub64 pindexPrev.nHeight anchor.nHeight) nAuxPowDiff

/-- `GetNextASERTWorkRequired` for the lane `next_block_is_auxpow`, whose last block is
`pindexPrev`. -/
def getNextASERTWorkRequiredLane (pindexPrev : Option ASERTHeaderState)
    (next_block_is_auxpow : Bool) (params : Params) : Result UInt32 := do
  let anchor := params.asertAnchorParams
  let anchor_bits := getASERTAnchorBits params next_block_is_auxpow
  let target_spacing := getCadenceTargetSpacing params next_block_is_auxpow
  require (0 < anchor_bits)
  require (0 < target_spacing)
  require (0 < params.nASERTHalfLife)
  match pindexPrev with
  | none => return anchor_bits
  | some prev =>
    if prev.nHeight < anchor.nHeight then return anchor_bits
    let refTarget := (setCompact anchor_bits).target
    let nTimeDiff ← sub64 prev.nTime anchor.nBlockTime
    let nHeightDiff ← getASERTHeightDiff prev next_block_is_auxpow params
    getCompact (← calculateASERT refTarget target_spacing nTimeDiff nHeightDiff params.powLimit
      params.nASERTHalfLife)

theorem isSome_deriveTarget_calculateASERT
    (hnext : calculateASERT refTarget nPowTargetSpacing nTimeDiff nHeightDiff powLimit nHalfLife =
      .ok next) (hbits : getCompact next = .ok nBits) :
    (deriveTarget nBits powLimit).isSome := by
  obtain ⟨hne, hle⟩ := calculateASERT_bounds hnext
  obtain ⟨c, y, hc, hy, -⟩ := deriveTarget_getCompact hne hle
  rw [hc] at hbits
  cases hbits
  rw [hy]
  rfl

theorem getNextASERTWorkRequiredLane_filter (prev : Option ASERTHeaderState) (auxpow : Bool)
    (params : Params) :
    getNextASERTWorkRequiredLane
        (prev.filter fun s => decide (params.asertAnchorParams.nHeight ≤ s.nHeight)) auxpow params =
      getNextASERTWorkRequiredLane prev auxpow params := by
  rcases prev with _ | s
  · rfl
  by_cases h : params.asertAnchorParams.nHeight ≤ s.nHeight
  · rw [Option.filter_some_pos (by simpa using h)]
  · rw [Option.filter_some_neg (by simpa using h)]
    have hlt : s.nHeight < params.asertAnchorParams.nHeight := by omega
    simp [getNextASERTWorkRequiredLane, hlt]

/-- **A lane's difficulty decodes to a target** when its anchor does. -/
theorem isSome_deriveTarget_lane {prev : Option ASERTHeaderState} {auxpow : Bool} {params : Params}
    (hanchor : (deriveTarget (getASERTAnchorBits params auxpow) params.powLimit).isSome)
    (h : getNextASERTWorkRequiredLane prev auxpow params = .ok nBits) :
    (deriveTarget nBits params.powLimit).isSome := by
  simp only [getNextASERTWorkRequiredLane, bind_eq_ok_iff] at h
  obtain ⟨-, -, -, -, -, -, h⟩ := h
  rcases prev with _ | s
  · cases h
    exact hanchor
  simp only at h
  split_ifs at h
  · cases h
    exact hanchor
  · simp only [bind_eq_ok_iff] at h
    obtain ⟨t, -, d, -, next, hnext, hbits⟩ := h
    exact isSome_deriveTarget_calculateASERT hnext hbits

/-- `CalculateASERT` followed by `GetCompact`, for a chain that is not too far off its schedule. -/
theorem getCompact_calculateASERT_ok {refBits : UInt32}
    (href : (deriveTarget refBits powLimit).isSome) (hhalf : 0 < nHalfLife)
    (hspacing : 1 ≤ nPowTargetSpacing ∧ nPowTargetSpacing ≤ 2 ^ 15)
    (htime : -2 ^ 32 < nTimeDiff ∧ nTimeDiff < 2 ^ 32)
    (hheight : 0 ≤ nHeightDiff ∧ nHeightDiff ≤ 2 ^ 31) :
    ∃ next nBits, calculateASERT (setCompact refBits).target nPowTargetSpacing nTimeDiff nHeightDiff
        powLimit nHalfLife = .ok next ∧ getCompact next = .ok nBits := by
  obtain ⟨ref, href⟩ := Option.isSome_iff_exists.mp href
  obtain ⟨-, -, hrefTarget, hrefne, hrefle⟩ := deriveTarget_eq_some_iff.mp href
  have hscheduleLo : 0 ≤ nPowTargetSpacing * nHeightDiff := Int.mul_nonneg (by omega) hheight.1
  have hscheduleHi : nPowTargetSpacing * nHeightDiff ≤ 2 ^ 15 * 2 ^ 31 :=
    Int.mul_le_mul hspacing.2 hheight.2 hheight.1 (by decide)
  obtain ⟨next, hnext⟩ : ∃ next, calculateASERT (setCompact refBits).target nPowTargetSpacing
      nTimeDiff nHeightDiff powLimit nHalfLife = .ok next := by
    rw [hrefTarget]
    exact calculateASERT_ok ⟨Uint256.pos_of_ne_zero hrefne, hrefle⟩ hheight.1 hhalf
      ⟨by omega, by omega⟩ (by omega) (by omega)
  obtain ⟨hne, hle⟩ := calculateASERT_bounds hnext
  obtain ⟨c, -, hc, -, -⟩ := deriveTarget_getCompact hne hle
  exact ⟨next, c, hnext, hc⟩

end Qbit
