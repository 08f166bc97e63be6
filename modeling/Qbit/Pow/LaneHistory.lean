import Qbit.Pow.NextWork

/-!
# A lane's history

With the Cadence rules, the difficulty of a block is computed from the last block of its lane: its
time, and the number of blocks of the lane that lie between it and the anchor.  The source counts
those indirectly, from the height and the number of AuxPoW blocks in the whole chain.  `laneHeaders`
is the lane, cut out of the chain, and `lastInLane_chainIndex` says what the block index knows about
it.

Two results follow for a chain whose anchor is its genesis block.  The difficulty of a lane is a
function of the times of the lane's own blocks (`getNextWorkRequired_of_laneTimes_eq`), and no chain
of headers can make the computation fail (`getNextWorkRequired_total`).
-/

open Checked

namespace Qbit

/-! ## Cutting a lane out of a chain -/

variable (auxpow : Bool) (chain : List CBlockHeader)

/-- The headers of one lane. -/
def laneHeaders : List CBlockHeader :=
  chain.filter fun h => h.signalsAuxpow == auxpow

/-- The timestamps of one lane's headers. -/
def laneTimes : List UInt32 :=
  (laneHeaders auxpow chain).map fun h => h.nTime

theorem laneHeaders_append_singleton (h : CBlockHeader) :
    laneHeaders auxpow (chain ++ [h]) =
      if h.signalsAuxpow = auxpow then laneHeaders auxpow chain ++ [h]
      else laneHeaders auxpow chain := by
  unfold laneHeaders
  rw [List.filter_append]
  split_ifs with hlane
  · rw [List.filter_cons_of_pos (by simpa using hlane), List.filter_nil]
  · rw [List.filter_cons_of_neg (by simpa using hlane), List.filter_nil, List.append_nil]

/-- How many blocks of a lane there are up to `p`, as the block index counts them. -/
def CBlockIndex.laneLength (auxpow : Bool) (p : CBlockIndex) : Int :=
  if auxpow then p.nAuxPow else p.nHeight + 1 - p.nAuxPow

section Lanes

variable (hash256 : HashFn) (auxpow : Bool)

theorem laneLength_addToBlockIndex (p : CBlockIndex) (h : CBlockHeader) :
    (addToBlockIndex hash256 (some p) h).laneLength auxpow =
      p.laneLength auxpow + (if h.signalsAuxpow = auxpow then 1 else 0) := by
  simp only [CBlockIndex.laneLength, nHeight_addToBlockIndex, nAuxPow_addToBlockIndex]
  cases auxpow <;> cases h.signalsAuxpow <;> grind

theorem laneLength_chainIndex (genesis : CBlockHeader) (hs : List CBlockHeader) :
    (chainIndex hash256 genesis hs).laneLength auxpow =
      (laneHeaders auxpow (genesis :: hs)).length := by
  induction hs using List.reverseRecOn with
  | nil =>
    cases auxpow <;> cases hg : genesis.signalsAuxpow <;>
      simp [CBlockIndex.laneLength, chainIndex, addToBlockIndex, laneHeaders, hg]
  | append_singleton hs h ih =>
    rw [chainIndex_append_singleton, laneLength_addToBlockIndex, ih, ← List.cons_append,
      laneHeaders_append_singleton]
    split_ifs <;> simp

/-- What the block index knows about the last block `b` of a lane of `chain`. -/
structure LaneEnd (auxpow : Bool) (chain : List CBlockHeader) (b : CBlockIndex) : Prop where
  length : b.laneLength auxpow = (laneHeaders auxpow chain).length
  time : (laneTimes auxpow chain).getLast? = some b.nTime
  height_nonneg : 0 ≤ b.nHeight
  height_lt : b.nHeight < chain.length

/-- **The last block of a lane.**  Either the lane is empty, or its last block is there with its
time and its number. -/
theorem lastInLane_chainIndex (genesis : CBlockHeader) (hs : List CBlockHeader) :
    ((chainIndex hash256 genesis hs).lastInLane auxpow = none ∧
        laneTimes auxpow (genesis :: hs) = []) ∨
      ∃ b, (chainIndex hash256 genesis hs).lastInLane auxpow = some b ∧
        LaneEnd auxpow (genesis :: hs) b := by
  induction hs using List.reverseRecOn with
  | nil =>
    rw [chainIndex, appendHeaders_nil, CBlockIndex.lastInLane_genesis]
    by_cases hlane : genesis.signalsAuxpow = auxpow
    · refine .inr ⟨_, if_pos hlane, laneLength_chainIndex hash256 auxpow genesis [], ?_, le_rfl, ?_⟩
      · simp [laneTimes, laneHeaders, hlane, addToBlockIndex]
      · exact Int.one_pos
    simp [laneTimes, laneHeaders, hlane]
  | append_singleton hs h ih =>
    have hlen := laneLength_chainIndex hash256 auxpow genesis (hs ++ [h])
    have hheight := nHeight_chainIndex hash256 genesis hs
    rw [chainIndex_append_singleton] at hlen ⊢
    rw [CBlockIndex.lastInLane_addToBlockIndex]
    by_cases hlane : h.signalsAuxpow = auxpow
    · -- The new block is the lane's last one.
      refine .inr ⟨_, if_pos hlane, hlen, ?_, ?_, ?_⟩
      · rw [laneTimes, ← List.cons_append, laneHeaders_append_singleton, if_pos hlane,
          List.map_append, List.map_singleton, List.getLast?_concat]
        rfl
      · rw [nHeight_addToBlockIndex]
        omega
      · rw [nHeight_addToBlockIndex, List.length_cons, List.length_append, List.length_singleton]
        omega
    · -- The new block is in the other lane, so this one is as it was.
      have hsame : laneHeaders auxpow (genesis :: (hs ++ [h])) =
          laneHeaders auxpow (genesis :: hs) := by
        rw [← List.cons_append, laneHeaders_append_singleton, if_neg hlane]
      rw [if_neg hlane]
      rcases ih with ⟨hnone, hempty⟩ | ⟨b, hb, hend⟩
      · exact .inl ⟨hnone, by rw [laneTimes, hsame]; exact hempty⟩
      refine .inr ⟨b, hb, by rw [hsame]; exact hend.length, ?_, hend.height_nonneg, ?_⟩
      · rw [laneTimes, hsame]
        exact hend.time
      · refine hend.height_lt.trans ?_
        simp

end Lanes

/-! ## The lane's difficulty -/

section Lane

variable {params : Params} {auxpow : Bool} {chain : List CBlockHeader} {b : CBlockIndex}

/-- The number of blocks of a lane between a genesis anchor and the lane's last block: the anchor is
itself in the permissionless lane. -/
def blocksSinceAnchor (auxpow : Bool) (chain : List CBlockHeader) : Int :=
  (laneHeaders auxpow chain).length - (if auxpow then 0 else 1)

/-- **`GetASERTHeightDiff` counts the lane.**  Heights are 32-bit integers, so the chain is shorter
than `2 ^ 31`. -/
theorem LaneEnd.getASERTHeightDiff (hend : LaneEnd auxpow chain b)
    (hheight : params.asertAnchorParams.nHeight = 0) (haux : params.asertAnchorParams.nAuxPow = 0)
    (hlen : chain.length ≤ 2 ^ 31) :
    getASERTHeightDiff (getASERTHeaderState b) auxpow params =
        .ok (blocksSinceAnchor auxpow chain) ∧
      0 ≤ blocksSinceAnchor auxpow chain ∧ blocksSinceAnchor auxpow chain ≤ 2 ^ 31 := by
  have hpos : 0 < (laneHeaders auxpow chain).length := by
    refine List.length_pos_iff.mpr fun hnil => ?_
    have := hend.time
    rw [laneTimes, hnil] at this
    cases this
  have hle : (laneHeaders auxpow chain).length ≤ chain.length := List.length_filter_le _ _
  have h0 := hend.height_nonneg
  have h1 := hend.height_lt
  have hlength := hend.length
  have hcount : b.nAuxPow ≤ 2 ^ 31 := by
    cases auxpow <;> simp [CBlockIndex.laneLength] at hlength <;> omega
  refine ⟨?_, ?_, ?_⟩
  · simp only [Qbit.getASERTHeightDiff, hheight, haux, getASERTHeaderState, bind_eq_ok_iff,
      require_eq_ok_iff]
    refine ⟨(), h0, (), Nat.zero_le _, (), by omega, ?_⟩
    cases auxpow with
    | true =>
      refine congrArg Except.ok ?_
      simpa [blocksSinceAnchor, CBlockIndex.laneLength] using hlength
    | false =>
      simp only [Bool.false_eq_true, if_false, bind_eq_ok_iff, sub64, int64_eq_ok_iff]
      simp only [CBlockIndex.laneLength, Bool.false_eq_true, if_false] at hlength
      refine ⟨b.nHeight, ⟨⟨by omega, by omega⟩, by omega⟩, ⟨by omega, by omega⟩, ?_⟩
      simp only [blocksSinceAnchor, Bool.false_eq_true, if_false]
      omega
  · unfold blocksSinceAnchor
    split_ifs <;> omega
  · unfold blocksSinceAnchor
    split_ifs <;> omega

/-- From the anchor on, a lane's difficulty is a function of its last block's time and number. -/
theorem getNextASERTWorkRequiredLane_congr {s s' : ASERTHeaderState}
    (hs : params.asertAnchorParams.nHeight ≤ s.nHeight)
    (hs' : params.asertAnchorParams.nHeight ≤ s'.nHeight) (htime : s.nTime = s'.nTime)
    (hdiff : getASERTHeightDiff s auxpow params = getASERTHeightDiff s' auxpow params) :
    getNextASERTWorkRequiredLane (some s) auxpow params =
      getNextASERTWorkRequiredLane (some s') auxpow params := by
  simp only [getNextASERTWorkRequiredLane, if_neg (Int.not_lt.mpr hs), if_neg (Int.not_lt.mpr hs'),
    htime, hdiff]

end Lane

/-- **Lanes do not interfere.**  With the rules active from the genesis block on and the genesis
block as the anchor, the difficulty of the next block of a lane is determined by the timestamps of
that lane's blocks.  It does not matter how many blocks of the other lane there are, where they
stand, or what their timestamps are. -/
theorem getNextWorkRequired_of_laneTimes_eq (hash256 : HashFn) {params : Params}
    (hasert : params.fPowUseASERT = true) (hretarget : params.fPowNoRetargeting = false)
    (hmin : params.fPowAllowMinDifficultyBlocks = false)
    (hcadence : params.nCadenceActivationHeight ≤ 0)
    (hheight : params.asertAnchorParams.nHeight = 0) (haux : params.asertAnchorParams.nAuxPow = 0)
    (auxpow : Bool) (genesis₁ genesis₂ : CBlockHeader) (hs₁ hs₂ : List CBlockHeader)
    (hlen₁ : hs₁.length < 2 ^ 31) (hlen₂ : hs₂.length < 2 ^ 31)
    (htimes : laneTimes auxpow (genesis₁ :: hs₁) = laneTimes auxpow (genesis₂ :: hs₂))
    (hdr₁ hdr₂ : CBlockHeader) (hlane₁ : hdr₁.signalsAuxpow = auxpow)
    (hlane₂ : hdr₂.signalsAuxpow = auxpow) :
    getNextWorkRequired (chainIndex hash256 genesis₁ hs₁) (some hdr₁) params =
      getNextWorkRequired (chainIndex hash256 genesis₂ hs₂) (some hdr₂) params := by
  have hactive : ∀ genesis hs, isCadenceActiveAfter (chainIndex hash256 genesis hs) params = true :=
    fun genesis hs => decide_eq_true (by rw [nHeight_chainIndex]; omega)
  have hcount : blocksSinceAnchor auxpow (genesis₁ :: hs₁) =
      blocksSinceAnchor auxpow (genesis₂ :: hs₂) := by
    have := congrArg List.length htimes
    simp only [laneTimes, List.length_map] at this
    rw [blocksSinceAnchor, blocksSinceAnchor, this]
  have hlane : getNextASERTWorkRequiredLane
        (((chainIndex hash256 genesis₁ hs₁).lastInLane auxpow).map getASERTHeaderState) auxpow
        params =
      getNextASERTWorkRequiredLane
        (((chainIndex hash256 genesis₂ hs₂).lastInLane auxpow).map getASERTHeaderState) auxpow
        params := by
    rcases lastInLane_chainIndex hash256 auxpow genesis₁ hs₁ with ⟨h₁, e₁⟩ | ⟨b₁, h₁, e₁⟩ <;>
      rcases lastInLane_chainIndex hash256 auxpow genesis₂ hs₂ with ⟨h₂, e₂⟩ | ⟨b₂, h₂, e₂⟩
    · rw [h₁, h₂]
    · have := e₂.time
      rw [← htimes, e₁] at this
      cases this
    · have := e₁.time
      rw [htimes, e₂] at this
      cases this
    · rw [h₁, h₂]
      have ht : b₁.nTime = b₂.nTime := Option.some.inj (e₁.time.symm.trans (htimes ▸ e₂.time))
      refine getNextASERTWorkRequiredLane_congr (hheight ▸ e₁.height_nonneg)
        (hheight ▸ e₂.height_nonneg) (congrArg (fun t : UInt32 => (t.toNat : Int)) ht) ?_
      rw [(e₁.getASERTHeightDiff hheight haux (by simp; omega)).1,
        (e₂.getASERTHeightDiff hheight haux (by simp; omega)).1, hcount]
  rw [getNextWorkRequired_lane hretarget hasert (hactive genesis₁ hs₁),
    getNextWorkRequired_lane hretarget hasert (hactive genesis₂ hs₂), hlane₁, hlane₂, hlane]
  simp only [asertWork, minDifficultyDue, hmin]
  rfl

/-- An AuxPoW header on the main network's genesis block. -/
def mainAux1 : CBlockHeader where
  nVersion := 0x2005e100
  hashPrevBlock := mainGenesisHash
  nTime := 1784131100
  nBits := 0x1801ca70

/-- A permissionless header on top of it. -/
def mainAux2 : CBlockHeader where
  nVersion := 0x20000000
  hashPrevBlock := 0x5a6761b91e90af913072483dffa232f4773c496992555c0c895f68ac24cdfae7
  nTime := 1784131158
  nBits := 0x18109c29

/-- The hashes of the headers on the two branches. -/
def mainForkHash : HashFn :=
  tableHash [(mainGenesis.serializePure, mainGenesisHash),
    (mainHeader1.serializePure, mainHeader1Hash),
    (mainAux1.serializePure, 0x5a6761b91e90af913072483dffa232f4773c496992555c0c895f68ac24cdfae7),
    (mainAux2.serializePure, 0x18d94ba9513ff45598bd75e1c8b4979b7aab55e1f74e127231f794f18d77a3c2)]

/-- Two branches of the main network, one with an AuxPoW block in between. -/
theorem getNextWorkRequired_of_laneTimes_eq_main :
    getNextWorkRequired (chainIndex mainForkHash mainGenesis [mainHeader1])
        (some { nVersion := 0x20000000 }) mainParams =
      getNextWorkRequired (chainIndex mainForkHash mainGenesis [mainAux1, mainAux2])
        (some { nVersion := 0x20000000 }) mainParams :=
  getNextWorkRequired_of_laneTimes_eq mainForkHash (by decide) (by decide) (by decide) (by decide)
    (by decide) (by decide) false mainGenesis mainGenesis [mainHeader1] [mainAux1, mainAux2]
    (by decide) (by decide) (by decide) _ _ (by decide) (by decide)

/-! ## No header can make the computation fail -/

/-- The genesis block is the anchor, and the spacings are between a second and nine hours. -/
structure GenesisAnchor (params : Params) (genesis : CBlockHeader) : Prop
    extends ValidAnchor params where
  height : params.asertAnchorParams.nHeight = 0
  auxpow : params.asertAnchorParams.nAuxPow = 0
  time : params.asertAnchorParams.nBlockTime = genesis.getBlockTime
  spacing : 1 ≤ params.nPowTargetSpacing ∧ params.nPowTargetSpacing ≤ 2 ^ 15
  laneSpacing : ∀ auxpow, 1 ≤ getCadenceTargetSpacing params auxpow ∧
    getCadenceTargetSpacing params auxpow ≤ 2 ^ 15

section Total

variable (hash256 : HashFn) {params : Params} {genesis : CBlockHeader}

/-- Two 32-bit times are less than `2 ^ 32` seconds apart. -/
theorem GenesisAnchor.timeDiff (h : GenesisAnchor params genesis) (t : UInt32) :
    sub64 t.toNat params.asertAnchorParams.nBlockTime = .ok (t.toNat - genesis.getBlockTime) ∧
      -2 ^ 32 < (t.toNat : Int) - genesis.getBlockTime ∧
      (t.toNat : Int) - genesis.getBlockTime < 2 ^ 32 := by
  have ht := t.toNat_lt
  have hg := genesis.nTime.toNat_lt
  have hgt : genesis.getBlockTime = genesis.nTime.toNat := rfl
  refine ⟨?_, by omega, by omega⟩
  rw [h.time]
  exact int64_of_inRange ⟨by omega, by omega⟩

theorem getNextASERTWorkRequiredLane_total (h : GenesisAnchor params genesis)
    (hs : List CBlockHeader) (hlen : hs.length < 2 ^ 31) (auxpow : Bool) :
    ∃ nBits, getNextASERTWorkRequiredLane
      (((chainIndex hash256 genesis hs).lastInLane auxpow).map getASERTHeaderState) auxpow params =
        .ok nBits := by
  have hbits : 0 < getASERTAnchorBits params auxpow :=
    UInt32.pos_iff_ne_zero.mpr (ne_zero_of_isSome_deriveTarget (h.laneBits auxpow))
  have hspacing : 0 < getCadenceTargetSpacing params auxpow := (h.laneSpacing auxpow).1
  rcases lastInLane_chainIndex hash256 auxpow genesis hs with ⟨hnone, -⟩ | ⟨b, hb, hend⟩
  · refine ⟨getASERTAnchorBits params auxpow, ?_⟩
    simp only [hnone, getNextASERTWorkRequiredLane, bind_eq_ok_iff, require_eq_ok_iff]
    exact ⟨(), hbits, (), hspacing, (), h.halfLife, rfl⟩
  obtain ⟨hdiff, hdiffRange⟩ := hend.getASERTHeightDiff h.height h.auxpow (by simp; omega)
  obtain ⟨htime, htimeRange⟩ := h.timeDiff b.nTime
  obtain ⟨next, nBits, hnext, hcompact⟩ := getCompact_calculateASERT_ok (h.laneBits auxpow)
    h.halfLife (h.laneSpacing auxpow) htimeRange hdiffRange
  have hanchor : ¬ (getASERTHeaderState b).nHeight < params.asertAnchorParams.nHeight :=
    Int.not_lt.mpr (h.height ▸ hend.height_nonneg)
  refine ⟨nBits, ?_⟩
  simp only [hb, Option.map_some, getNextASERTWorkRequiredLane, bind_eq_ok_iff, require_eq_ok_iff]
  refine ⟨(), hbits, (), hspacing, (), h.halfLife, ?_⟩
  rw [if_neg hanchor]
  simp only [bind_eq_ok_iff]
  exact ⟨_, htime, _, hdiff, next, hnext, hcompact⟩

theorem getNextASERTWorkRequired_total (h : GenesisAnchor params genesis)
    (hs : List CBlockHeader) (hlen : hs.length < 2 ^ 31) :
    ∃ nBits, getNextASERTWorkRequired (chainIndex hash256 genesis hs) params = .ok nBits := by
  have hheight := nHeight_chainIndex hash256 genesis hs
  obtain ⟨htime, htimeRange⟩ := h.timeDiff (chainIndex hash256 genesis hs).nTime
  have hheightRange : 0 ≤ (chainIndex hash256 genesis hs).nHeight ∧
      (chainIndex hash256 genesis hs).nHeight ≤ 2 ^ 31 := ⟨by omega, by omega⟩
  obtain ⟨next, nBits, hnext, hcompact⟩ :=
    getCompact_calculateASERT_ok h.bits h.halfLife h.spacing htimeRange hheightRange
  refine ⟨nBits, ?_⟩
  simp only [getNextASERTWorkRequired, bind_eq_ok_iff, require_eq_ok_iff]
  refine ⟨(), h.nBits_pos, (), h.halfLife, ?_⟩
  rw [if_neg (by rw [h.height]; omega)]
  simp only [bind_eq_ok_iff]
  refine ⟨_, htime, _, ?_, next, hnext, hcompact⟩
  rw [h.height]
  exact int64_eq_ok_iff.mpr ⟨⟨by omega, by omega⟩, Int.sub_zero _⟩

theorem minDifficultyDue_ok (params : Params) (lastTime : UInt32) (newTime : Int) {spacing : Int}
    (hspacing : 1 ≤ spacing ∧ spacing ≤ 2 ^ 15) :
    ∃ due, minDifficultyDue params lastTime.toNat newTime spacing = .ok due := by
  have := lastTime.toNat_lt
  unfold minDifficultyDue
  split_ifs
  · refine ⟨decide (lastTime.toNat + spacing * 2 < newTime), ?_⟩
    simp only [isMinDifficultyTime, add64, mul64, bind_eq_ok_iff, int64_eq_ok_iff]
    exact ⟨_, ⟨⟨by omega, by omega⟩, rfl⟩, _, ⟨⟨by omega, by omega⟩, rfl⟩, rfl⟩
  simp

/-- `nBits` decodes to a target between 1 and the limit. -/
def IsTarget (powLimit : Uint256) (nBits : UInt32) : Prop :=
  ∃ target, deriveTarget nBits powLimit = some target ∧ 1 ≤ target ∧ target ≤ powLimit

theorem isTarget_of_isSome {powLimit : Uint256} {nBits : UInt32}
    (h : (deriveTarget nBits powLimit).isSome) : IsTarget powLimit nBits := by
  obtain ⟨target, htarget⟩ := Option.isSome_iff_exists.mp h
  obtain ⟨-, -, -, hne, hle⟩ := deriveTarget_eq_some_iff.mp htarget
  exact ⟨target, htarget, BitVec.le_def.mpr (BitVec.lt_def.mp (Uint256.pos_of_ne_zero hne)), hle⟩

/-- **No reachable header can make the difficulty computation fail.**  For every chain of headers on
a genesis block that is the anchor, with any timestamps and versions and heights below `2 ^ 31`, the
computation runs without a failed assertion or a signed overflow, and what it asks for decodes to a
target.  This holds for the next block of either lane, for the single lane before Cadence, and for
`GetNextWorkRequired` as a whole. -/
theorem getNextWorkRequired_total (h : GenesisAnchor params genesis) (hs : List CBlockHeader)
    (hlen : hs.length < 2 ^ 31) :
    (∀ auxpow, ∃ nBits, getNextASERTWorkRequiredLane
        (((chainIndex hash256 genesis hs).getPreviousBlockForLane auxpow
          params.asertAnchorParams.nHeight).map getASERTHeaderState) auxpow params = .ok nBits ∧
        IsTarget params.powLimit nBits) ∧
      (∃ nBits, getNextASERTWorkRequired (chainIndex hash256 genesis hs) params = .ok nBits ∧
        IsTarget params.powLimit nBits) ∧
      (params.fPowUseASERT = true → params.fPowNoRetargeting = false → ∀ hdr, ∃ nBits,
        getNextWorkRequired (chainIndex hash256 genesis hs) (some hdr) params = .ok nBits ∧
          IsTarget params.powLimit nBits) := by
  refine ⟨fun auxpow => ?_, ?_, fun hasert hretarget hdr => ?_⟩
  · obtain ⟨nBits, hwork⟩ := getNextASERTWorkRequiredLane_total hash256 h hs hlen auxpow
    refine ⟨nBits, ?_, isTarget_of_isSome (isSome_deriveTarget_lane (h.laneBits auxpow) hwork)⟩
    rw [getNextASERTWorkRequiredLane_getPreviousBlockForLane, hwork]
  · obtain ⟨nBits, hwork⟩ := getNextASERTWorkRequired_total hash256 h hs hlen
    exact ⟨nBits, hwork, isTarget_of_isSome (isSome_deriveTarget_single h.toValidAnchor hwork)⟩
  · -- The test for a minimum-difficulty block comes first, and then ASERT.
    have htotal : ∀ {spacing : Int} {asert : Result UInt32},
        (1 ≤ spacing ∧ spacing ≤ 2 ^ 15) → (∃ nBits, asert = .ok nBits) →
        ∃ nBits, asertWork params (chainIndex hash256 genesis hs).getBlockTime hdr.getBlockTime
          spacing asert = .ok nBits := by
      rintro spacing asert hspacing ⟨asertBits, hasertBits⟩
      obtain ⟨limit, -, hlimit, -, -⟩ :=
        deriveTarget_getCompact h.powLimit_ne_zero (BitVec.le_refl _)
      obtain ⟨due, hdue⟩ := minDifficultyDue_ok params (chainIndex hash256 genesis hs).nTime
        hdr.getBlockTime hspacing
      refine ⟨if due then limit else asertBits, ?_⟩
      simp only [asertWork, bind_eq_ok_iff]
      refine ⟨limit, hlimit, due, hdue, ?_⟩
      cases due
      · exact hasertBits
      · rfl
    have hwork : ∃ nBits, getNextWorkRequired (chainIndex hash256 genesis hs) (some hdr) params =
        .ok nBits := by
      cases hcadence : isCadenceActiveAfter (chainIndex hash256 genesis hs) params with
      | true =>
        rw [getNextWorkRequired_lane hretarget hasert hcadence]
        exact htotal (h.laneSpacing _) (getNextASERTWorkRequiredLane_total hash256 h hs hlen _)
      | false =>
        rw [getNextWorkRequired_single hretarget hasert hcadence]
        exact htotal h.spacing (getNextASERTWorkRequired_total hash256 h hs hlen)
    obtain ⟨nBits, hwork⟩ := hwork
    exact ⟨nBits, hwork, isTarget_of_isSome
      (isSome_deriveTarget_getNextWorkRequired hretarget hasert h.toValidAnchor hwork)⟩

/-- The main network's genesis block is its anchor, so its next difficulty is always defined. -/
theorem getNextWorkRequired_total_main :
    ∃ nBits, getNextWorkRequired (chainIndex mainForkHash mainGenesis [mainAux1, mainAux2])
      (some mainAux1) mainParams = .ok nBits ∧ IsTarget mainParams.powLimit nBits := by
  have hanchor : GenesisAnchor mainParams mainGenesis :=
    ⟨⟨by decide, by decide, by decide⟩, by decide, by decide, by decide, by decide, by decide⟩
  exact (getNextWorkRequired_total mainForkHash hanchor [mainAux1, mainAux2] (by decide)).2.2
    (by decide) (by decide) mainAux1

end Total

end Qbit
