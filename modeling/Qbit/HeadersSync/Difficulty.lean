import Qbit.Pow.NextWork

/-!
# Difficulty checks during header sync

`HeadersSyncState` follows a peer's headers without putting them into the block index, so it keeps
what the difficulty of the next header depends on in a small running state.  A header is accepted
exactly when its `nBits` is what `GetNextWorkRequired` asks for on top of the headers before it
(`validateAndAdvance_iff`).

The two sides disagree about a lane's last block in one place.  The running state always has it, and
the block index drops a strict ancestor below the ASERT anchor.  `Tracks` therefore compares the two
only from the anchor on, which is enough by `getNextASERTWorkRequiredLane_filter`.
-/

open Checked

namespace Qbit

/-! ## The running state -/

/-- `HeadersSyncState::HeaderDifficultyState` -/
structure HeaderDifficultyState where
  last_header : CBlockHeader
  height : Int
  auxpow_count : Nat
  previous_permissionless : Option ASERTHeaderState
  previous_auxpow : Option ASERTHeaderState
  deriving DecidableEq

/-- `HeadersSyncState::MakeHeaderDifficultyState` -/
def makeHeaderDifficultyState (params : Params) (chain_start : CBlockIndex) :
    HeaderDifficultyState :=
  let anchor_height := params.asertAnchorParams.nHeight
  { last_header := chain_start.getBlockHeader
    height := chain_start.nHeight
    auxpow_count := chain_start.nAuxPow
    previous_permissionless :=
      (chain_start.getPreviousBlockForLane false anchor_height).map getASERTHeaderState
    previous_auxpow :=
      (chain_start.getPreviousBlockForLane true anchor_height).map getASERTHeaderState }

namespace HeaderDifficultyState

/-- The last block of a lane. -/
def previous (state : HeaderDifficultyState) (auxpow : Bool) : Option ASERTHeaderState :=
  if auxpow then state.previous_auxpow else state.previous_permissionless

/-- The state after a header that was accepted. -/
def advance (state : HeaderDifficultyState) (current : CBlockHeader) : HeaderDifficultyState :=
  let auxpow_count := state.auxpow_count + (if current.signalsAuxpow then 1 else 0)
  let current_state : ASERTHeaderState :=
    { nHeight := state.height + 1, nTime := current.getBlockTime, nAuxPow := auxpow_count }
  { last_header := current
    height := state.height + 1
    auxpow_count := auxpow_count
    previous_permissionless :=
      if current.signalsAuxpow then state.previous_permissionless else some current_state
    previous_auxpow :=
      if current.signalsAuxpow then some current_state else state.previous_auxpow }

end HeaderDifficultyState

/-- `HeadersSyncState::ValidateAndAdvanceHeaderDifficulty`: the next state, or `none` for a header
that is rejected. -/
def validateAndAdvanceHeaderDifficulty (params : Params) (state : HeaderDifficultyState)
    (current : CBlockHeader) : Result (Option HeaderDifficultyState) := do
  let next_height := state.height + 1
  let permitted ← permittedDifficultyTransition params next_height state.last_header.nBits
    current.nBits (some state.last_header.getBlockTime) (some current.getBlockTime)
  if !permitted then return none
  if !params.fPowNoRetargeting && params.fPowUseASERT &&
      params.cadenceActiveAtHeight next_height then
    let current_is_auxpow := current.signalsAuxpow
    let target_spacing := getCadenceTargetSpacing params current_is_auxpow
    let pow_limit_nbits ← getCompact params.powLimit
    let minDifficulty ← minDifficultyDue params state.last_header.getBlockTime
      current.getBlockTime target_spacing
    let expected_nbits ← (if minDifficulty then .ok pow_limit_nbits
      else getNextASERTWorkRequiredLane (state.previous current_is_auxpow) current_is_auxpow params)
    if current.nBits ≠ expected_nbits then return none
  return some (state.advance current)

/-- The check over a run of headers, up to the first one that is rejected. -/
def validateHeaderRun (params : Params) (state : HeaderDifficultyState) :
    List CBlockHeader → Result (Option HeaderDifficultyState)
  | [] => return some state
  | h :: hs => do
    match ← validateAndAdvanceHeaderDifficulty params state h with
    | some state' => validateHeaderRun params state' hs
    | none => return none

/-! ## The running state and the block index -/

section Equivalence

variable (hash256 : HashFn) {params : Params}

/-- The part of a lane that its difficulty depends on. -/
def fromAnchor (params : Params) (prev : Option ASERTHeaderState) : Option ASERTHeaderState :=
  prev.filter fun s => decide (params.asertAnchorParams.nHeight ≤ s.nHeight)

/-- The running state `state` describes the chain of `p`. -/
structure Tracks (params : Params) (state : HeaderDifficultyState) (p : CBlockIndex) : Prop where
  height : state.height = p.nHeight
  height_nonneg : 0 ≤ p.nHeight
  auxpow_count : state.auxpow_count = p.nAuxPow
  nBits : state.last_header.nBits = p.nBits
  time : state.last_header.getBlockTime = p.getBlockTime
  validBits : (deriveTarget p.nBits params.powLimit).isSome
  lanes : ∀ auxpow, fromAnchor params (state.previous auxpow) =
    fromAnchor params ((p.lastInLane auxpow).map getASERTHeaderState)

variable {p : CBlockIndex} {state state' : HeaderDifficultyState}

theorem tracks_makeHeaderDifficultyState (hheight : 0 ≤ p.nHeight)
    (hbits : (deriveTarget p.nBits params.powLimit).isSome) :
    Tracks params (makeHeaderDifficultyState params p) p where
  height := rfl
  height_nonneg := hheight
  auxpow_count := rfl
  nBits := rfl
  time := rfl
  validBits := hbits
  lanes auxpow := by
    have hprev : (makeHeaderDifficultyState params p).previous auxpow =
        (p.getPreviousBlockForLane auxpow params.asertAnchorParams.nHeight).map
          getASERTHeaderState := by
      cases auxpow <;> rfl
    rw [hprev, CBlockIndex.getPreviousBlockForLane_eq]
    split_ifs
    · rfl
    simp only [fromAnchor, Option.filter_map, Option.filter_filter]
    congr 2
    funext c
    exact Bool.and_self _

/-- A header that is accepted is followed by both sides in the same way. -/
theorem Tracks.advance (ht : Tracks params state p) {hdr : CBlockHeader}
    (hbits : (deriveTarget hdr.nBits params.powLimit).isSome) :
    Tracks params (state.advance hdr) (addToBlockIndex hash256 (some p) hdr) where
  height := congrArg (· + 1) ht.height
  height_nonneg := Int.le_trans ht.height_nonneg (Int.le_add_of_nonneg_right (by decide))
  auxpow_count := by
    rw [nAuxPow_addToBlockIndex, ← ht.auxpow_count]
    rfl
  nBits := rfl
  time := rfl
  validBits := hbits
  lanes auxpow := by
    rw [CBlockIndex.lastInLane_addToBlockIndex]
    by_cases hlane : hdr.signalsAuxpow = auxpow
    · have hprev : (state.advance hdr).previous auxpow =
          some { nHeight := state.height + 1
                 nTime := hdr.getBlockTime
                 nAuxPow := state.auxpow_count + (if hdr.signalsAuxpow then 1 else 0) } := by
        cases auxpow <;> simp [HeaderDifficultyState.previous, HeaderDifficultyState.advance, hlane]
      rw [hprev, if_pos hlane, ht.height, ht.auxpow_count]
      rfl
    · have hprev : (state.advance hdr).previous auxpow = state.previous auxpow := by
        cases auxpow <;>
          simp_all [HeaderDifficultyState.previous, HeaderDifficultyState.advance]
      rw [hprev, if_neg hlane, ht.lanes]

theorem Tracks.lane (ht : Tracks params state p) (auxpow : Bool) :
    getNextASERTWorkRequiredLane (state.previous auxpow) auxpow params =
      getNextASERTWorkRequiredLane ((p.lastInLane auxpow).map getASERTHeaderState) auxpow params := by
  rw [← getNextASERTWorkRequiredLane_filter (state.previous auxpow),
    ← getNextASERTWorkRequiredLane_filter ((p.lastInLane auxpow).map getASERTHeaderState)]
  exact congrArg (getNextASERTWorkRequiredLane · auxpow params) (ht.lanes auxpow)

section Tracks

variable (hretarget : params.fPowNoRetargeting = false) (hasert : params.fPowUseASERT = true)
  (hanchor : ValidAnchor params) (ht : Tracks params state p)

include hretarget hasert hanchor ht

/-- **One header.**  A header whose target decodes is accepted if its `nBits` is the one that the
block index asks for, and a header whose target does not decode is rejected. -/
theorem validateAndAdvance_eq (hdr : CBlockHeader) :
    validateAndAdvanceHeaderDifficulty params state hdr =
      if (deriveTarget hdr.nBits params.powLimit).isSome then do
        let expected ← getNextWorkRequired p (some hdr) params
        return if hdr.nBits = expected then some (state.advance hdr) else none
      else .ok none := by
  have hpos : 0 < p.nHeight + 1 := Int.lt_add_one_of_le ht.height_nonneg
  simp only [validateAndAdvanceHeaderDifficulty, ht.height, ht.nBits, ht.time]
  cases hcadence : params.cadenceActiveAtHeight (p.nHeight + 1) with
  | true =>
    rw [permittedDifficultyTransition_lane hretarget hasert hcadence ht.validBits,
      getNextWorkRequired_lane hretarget hasert hcadence]
    rcases (deriveTarget hdr.nBits params.powLimit).isSome with _ | _
    · rfl
    simp only [asertWork, ht.lane, bind_assoc, hretarget, hasert, ok_bind]
    refine bind_congr fun limit => bind_congr fun minDifficulty => bind_congr fun expected => ?_
    by_cases h : hdr.nBits = expected <;> simp [h]
  | false =>
    rw [permittedDifficultyTransition_single hretarget hasert hcadence hpos ht.validBits,
      getNextWorkRequired_single hretarget hasert hcadence, permittedASERTTransition_eq hanchor]
    rcases (deriveTarget hdr.nBits params.powLimit).isSome with _ | _
    · rfl
    simp only [bind_assoc, if_true]
    refine bind_congr fun expected => ?_
    by_cases h : hdr.nBits = expected <;> simp [h]

theorem validateAndAdvance_eq_some_iff (hdr : CBlockHeader) :
    validateAndAdvanceHeaderDifficulty params state hdr = .ok (some state') ↔
      getNextWorkRequired p (some hdr) params = .ok hdr.nBits ∧ state' = state.advance hdr := by
  rw [validateAndAdvance_eq hretarget hasert hanchor ht]
  constructor
  · intro h
    split_ifs at h with hsome
    · obtain ⟨expected, hwork, hret⟩ := bind_eq_ok_iff.mp h
      split_ifs at hret with heq
      · cases hret
        exact ⟨heq ▸ hwork, rfl⟩
      · cases hret
    · cases h
  · rintro ⟨hwork, rfl⟩
    rw [if_pos (isSome_deriveTarget_getNextWorkRequired hretarget hasert hanchor hwork), hwork,
      ok_bind, if_pos rfl]
    rfl

/-- **A run of headers.**  After a run that was accepted, the running state describes the chain that
the block index would hold. -/
theorem Tracks.of_validateHeaderRun {hs : List CBlockHeader}
    (hrun : validateHeaderRun params state hs = .ok (some state')) :
    Tracks params state' (appendHeaders hash256 p hs) := by
  induction hs generalizing state p with
  | nil =>
    cases hrun
    exact ht
  | cons h hs ih =>
    obtain ⟨next, hnext, hrest⟩ := bind_eq_ok_iff.mp hrun
    rcases next with _ | next
    · cases hrest
    obtain ⟨hwork, rfl⟩ := (validateAndAdvance_eq_some_iff hretarget hasert hanchor ht h).mp hnext
    exact ih (ht.advance hash256
      (isSome_deriveTarget_getNextWorkRequired hretarget hasert hanchor hwork)) hrest

end Tracks

/-- **Header sync and the block index ask for the same difficulty.**  Take a chain start in the
block index and headers that header sync has accepted on top of it.  The next header is accepted if
and only if its `nBits` is what `GetNextWorkRequired` computes from the block index of all of
them. -/
theorem validateAndAdvance_iff_getNextWorkRequired (hretarget : params.fPowNoRetargeting = false)
    (hasert : params.fPowUseASERT = true) (hanchor : ValidAnchor params)
    (genesis : CBlockHeader) (headers : List CBlockHeader)
    (hbits : (deriveTarget (chainIndex hash256 genesis headers).nBits params.powLimit).isSome)
    (accepted : List CBlockHeader) (state : HeaderDifficultyState)
    (hrun : validateHeaderRun params
      (makeHeaderDifficultyState params (chainIndex hash256 genesis headers)) accepted =
        .ok (some state)) (hdr : CBlockHeader) :
    (∃ state', validateAndAdvanceHeaderDifficulty params state hdr = .ok (some state')) ↔
      getNextWorkRequired (appendHeaders hash256 (chainIndex hash256 genesis headers) accepted)
        (some hdr) params = .ok hdr.nBits := by
  have hstart : Tracks params
      (makeHeaderDifficultyState params (chainIndex hash256 genesis headers))
      (chainIndex hash256 genesis headers) :=
    tracks_makeHeaderDifficultyState (CBlockIndex.linked_chainIndex ..).nHeight_nonneg hbits
  have ht := hstart.of_validateHeaderRun hash256 hretarget hasert hanchor hrun
  simp only [validateAndAdvance_eq_some_iff hretarget hasert hanchor ht]
  exact ⟨fun ⟨_, hwork, _⟩ => hwork, fun hwork => ⟨_, hwork, rfl⟩⟩

/-- The hashes of the two headers. -/
def mainChainHash : HashFn :=
  tableHash [(mainGenesis.serializePure, mainGenesisHash),
    (mainHeader1.serializePure, mainHeader1Hash)]

/-- On the main network, one header after the genesis block, the next header of the AuxPoW lane is
accepted with the lane's anchor target. -/
theorem validateAndAdvance_iff_getNextWorkRequired_main :
    ∃ state, validateHeaderRun mainParams
        (makeHeaderDifficultyState mainParams (chainIndex mainChainHash mainGenesis []))
        [mainHeader1] = .ok (some state) ∧
      ∃ state', validateAndAdvanceHeaderDifficulty mainParams state
        { nVersion := 0x2005e100, nTime := 1784131200, nBits := 0x1801ca70 } =
          .ok (some state') := by
  refine ⟨(makeHeaderDifficultyState mainParams
    (chainIndex mainChainHash mainGenesis [])).advance mainHeader1, by decide +kernel, ?_⟩
  refine (validateAndAdvance_iff_getNextWorkRequired mainChainHash (by decide) (by decide)
    ⟨by decide, by decide, by decide⟩ mainGenesis [] (by decide) [mainHeader1] _
    (by decide +kernel) _).mpr ?_
  decide +kernel

end Equivalence

end Qbit
