import Mathlib.Data.List.Induction
import Qbit.Pow.Asert

/-!
# The block index

`CBlockIndex` is a node of the header tree.  In the source it is a record with pointers to its
ancestors; here it holds the ancestors themselves, so an index is its whole chain.

`addToBlockIndex` makes the index of a header on top of a given parent, as
`BlockManager::AddToBlockIndex` does, and `appendHeaders` adds a run of headers one by one.
`lastInLane` reads the two lane links, and `lastInLane_addToBlockIndex` is the recurrence that they
satisfy.

The walk that `BuildSkip` makes asserts on its way that it does not run out of ancestors.
`getAncestor_linked` shows that it does not, for an index that was made this way.
-/

open Checked

namespace Qbit

/-- `CBlockIndex` -/
structure CBlockIndex where
  /-- The block's hash, which `phashBlock` points to. -/
  hashBlock : Uint256
  pprev : Option CBlockIndex
  /-- Some further predecessor. -/
  pskip : Option CBlockIndex
  /-- The nearest strict permissionless ancestor. -/
  pprev_permissionless : Option CBlockIndex
  /-- The nearest strict AuxPoW ancestor. -/
  pprev_auxpow : Option CBlockIndex
  nHeight : Int
  nChainWork : Uint256
  /-- The number of AuxPoW blocks in the chain up to and including this one. -/
  nAuxPow : Nat
  nTimeMax : UInt32
  nVersion : Int32
  hashMerkleRoot : Uint256
  nTime : UInt32
  nBits : UInt32
  nNonce : UInt32
  auxpow : Option CAuxPow

namespace CBlockIndex

def signalsAuxpow (p : CBlockIndex) : Bool := isAuxpowVersion p.nVersion

/-- `GetBlockTime` -/
def getBlockTime (p : CBlockIndex) : Int := p.nTime.toNat

/-- `CBlockIndex::GetBlockHeader` -/
def getBlockHeader (p : CBlockIndex) : CBlockHeader :=
  { nVersion := p.nVersion
    hashPrevBlock := match p.pprev with
      | some q => q.hashBlock
      | none => 0
    hashMerkleRoot := p.hashMerkleRoot
    nTime := p.nTime
    nBits := p.nBits
    nNonce := p.nNonce
    auxpow := p.auxpow }

/-- The times of the last `n` blocks, the block's own first. -/
def lastTimes : Nat → CBlockIndex → List Int
  | 0, _ => []
  | n + 1, p => p.getBlockTime :: match p.pprev with
    | some q => lastTimes n q
    | none => []

/-- `GetMedianTimePast`, over `nMedianTimeSpan` blocks. -/
def getMedianTimePast (p : CBlockIndex) : Int :=
  let times := (p.lastTimes 11).mergeSort (fun a b => decide (a ≤ b))
  times.getD (times.length / 2) 0

/-- `GetPreviousBlockForLane` -/
def getPreviousBlockForLane (p : CBlockIndex) (auxpow : Bool) (min_height : Int) :
    Option CBlockIndex :=
  if p.signalsAuxpow = auxpow then some p
  else
    match (if auxpow then p.pprev_auxpow else p.pprev_permissionless) with
    | some candidate => if min_height ≤ candidate.nHeight then some candidate else none
    | none => none

end CBlockIndex

/-! ## Ancestors -/

/-- `InvertLowestOne` -/
def invertLowestOne (n : Nat) : Nat := n &&& (n - 1)

/-- `GetSkipHeight` -/
def getSkipHeight (height : Int) : Int :=
  if height < 2 then 0
  else
    let n := height.toNat
    if n % 2 = 1 then invertLowestOne (invertLowestOne (n - 1)) + 1 else invertLowestOne n

namespace CBlockIndex

/-- The loop of `GetAncestor`.  Each turn lowers `heightWalk`, so as many turns as there are heights
above `height` are enough. -/
def ancestorWalk (height : Int) : Nat → CBlockIndex → Int → Result CBlockIndex
  | 0, pindexWalk, _ => .ok pindexWalk
  | fuel + 1, pindexWalk, heightWalk =>
    if heightWalk ≤ height then .ok pindexWalk
    else
      let heightSkip := getSkipHeight heightWalk
      let heightSkipPrev := getSkipHeight (heightWalk - 1)
      let follow := heightSkip = height ∨
        (height < heightSkip ∧ ¬ (heightSkipPrev < heightSkip - 2 ∧ height ≤ heightSkipPrev))
      match (if follow then pindexWalk.pskip else none) with
      | some s => ancestorWalk height fuel s heightSkip
      | none =>
        match pindexWalk.pprev with
        | some q => ancestorWalk height fuel q (heightWalk - 1)
        | none => .error .assertion

/-- `CBlockIndex::GetAncestor` -/
def getAncestor (p : CBlockIndex) (height : Int) : Result (Option CBlockIndex) :=
  if p.nHeight < height ∨ height < 0 then .ok none
  else some <$> ancestorWalk height (p.nHeight - height).toNat p p.nHeight

end CBlockIndex

/-! ## Adding headers -/

/-- `BlockManager::AddToBlockIndex`, for a header that is not in the index yet and whose parent is
`pprev`.  The skip pointer is left empty where its walk would assert, which never happens:
`CBlockIndex.getAncestor_linked`. -/
def addToBlockIndex (hash256 : HashFn) (pprev : Option CBlockIndex) (block : CBlockHeader) :
    CBlockIndex :=
  let nHeight := match pprev with
    | some q => q.nHeight + 1
    | none => 0
  { hashBlock := block.getHash hash256
    pprev := pprev
    -- BuildSkip
    pskip := match pprev with
      | some q => (q.getAncestor (getSkipHeight nHeight)).toOption.join
      | none => none
    -- BuildCadenceLaneLinks
    pprev_permissionless := match pprev with
      | some q => if q.signalsAuxpow then q.pprev_permissionless else some q
      | none => none
    pprev_auxpow := match pprev with
      | some q => if q.signalsAuxpow then some q else q.pprev_auxpow
      | none => none
    nHeight := nHeight
    nChainWork := (match pprev with
      | some q => q.nChainWork
      | none => 0) + getBlockProof block.nBits
    nAuxPow := (match pprev with
      | some q => q.nAuxPow
      | none => 0) + (if block.signalsAuxpow then 1 else 0)
    nTimeMax := match pprev with
      | some q => max q.nTimeMax block.nTime
      | none => block.nTime
    nVersion := block.nVersion
    hashMerkleRoot := block.hashMerkleRoot
    nTime := block.nTime
    nBits := block.nBits
    nNonce := block.nNonce
    auxpow := block.auxpow }

/-- The index of the last of some headers, added one by one on top of `start`. -/
def appendHeaders (hash256 : HashFn) (start : CBlockIndex) (headers : List CBlockHeader) :
    CBlockIndex :=
  headers.foldl (fun p h => addToBlockIndex hash256 (some p) h) start

/-- The index of the tip of the chain that starts with `genesis`. -/
def chainIndex (hash256 : HashFn) (genesis : CBlockHeader) (headers : List CBlockHeader) :
    CBlockIndex :=
  appendHeaders hash256 (addToBlockIndex hash256 none genesis) headers

section Append

variable (hash256 : HashFn) (p : CBlockIndex) (q : Option CBlockIndex) (h : CBlockHeader)

@[simp] theorem signalsAuxpow_addToBlockIndex :
    (addToBlockIndex hash256 q h).signalsAuxpow = h.signalsAuxpow := rfl

@[simp] theorem nHeight_addToBlockIndex :
    (addToBlockIndex hash256 (some p) h).nHeight = p.nHeight + 1 := rfl

@[simp] theorem nAuxPow_addToBlockIndex :
    (addToBlockIndex hash256 (some p) h).nAuxPow =
      p.nAuxPow + (if h.signalsAuxpow then 1 else 0) := rfl

@[simp] theorem appendHeaders_nil : appendHeaders hash256 p [] = p := rfl

variable (hs : List CBlockHeader)

@[simp] theorem appendHeaders_cons :
    appendHeaders hash256 p (h :: hs) =
      appendHeaders hash256 (addToBlockIndex hash256 (some p) h) hs := rfl

theorem appendHeaders_append (hs ks : List CBlockHeader) :
    appendHeaders hash256 p (hs ++ ks) = appendHeaders hash256 (appendHeaders hash256 p hs) ks :=
  List.foldl_append

theorem chainIndex_append_singleton (genesis : CBlockHeader) :
    chainIndex hash256 genesis (hs ++ [h]) =
      addToBlockIndex hash256 (some (chainIndex hash256 genesis hs)) h :=
  appendHeaders_append hash256 _ hs [h]

theorem nHeight_appendHeaders : (appendHeaders hash256 p hs).nHeight = p.nHeight + hs.length := by
  induction hs generalizing p with
  | nil => simp
  | cons h hs ih =>
    rw [appendHeaders_cons, ih, nHeight_addToBlockIndex, List.length_cons]
    omega

theorem nHeight_chainIndex (genesis : CBlockHeader) (hs : List CBlockHeader) :
    (chainIndex hash256 genesis hs).nHeight = hs.length := by
  rw [chainIndex, nHeight_appendHeaders]
  exact Int.zero_add _

end Append

/-! ## Lanes -/

namespace CBlockIndex

/-- The last block of a lane in the chain of `p`, `p` itself included. -/
def lastInLane (auxpow : Bool) (p : CBlockIndex) : Option CBlockIndex :=
  if p.signalsAuxpow = auxpow then some p
  else if auxpow then p.pprev_auxpow else p.pprev_permissionless

/-- **The lane links' recurrence.**  A block added to a chain is the last one of its own lane, and
changes nothing in the other. -/
theorem lastInLane_addToBlockIndex (hash256 : HashFn) (auxpow : Bool) (p : CBlockIndex)
    (h : CBlockHeader) :
    lastInLane auxpow (addToBlockIndex hash256 (some p) h) =
      if h.signalsAuxpow = auxpow then some (addToBlockIndex hash256 (some p) h)
      else lastInLane auxpow p := by
  unfold lastInLane
  refine if_congr Iff.rfl rfl ?_
  cases auxpow with
  | true => rfl
  | false => cases hp : p.signalsAuxpow <;> simp [addToBlockIndex, hp]

theorem lastInLane_genesis (hash256 : HashFn) (auxpow : Bool) (h : CBlockHeader) :
    lastInLane auxpow (addToBlockIndex hash256 none h) =
      if h.signalsAuxpow = auxpow then some (addToBlockIndex hash256 none h) else none := by
  unfold lastInLane
  rw [signalsAuxpow_addToBlockIndex]
  split_ifs <;> rfl

/-- `GetPreviousBlockForLane` is the last block of the lane, unless that is a strict ancestor below
`min_height`. -/
theorem getPreviousBlockForLane_eq (p : CBlockIndex) (auxpow : Bool) (min_height : Int) :
    p.getPreviousBlockForLane auxpow min_height =
      if p.signalsAuxpow = auxpow then lastInLane auxpow p
      else (lastInLane auxpow p).filter fun c => decide (min_height ≤ c.nHeight) := by
  unfold getPreviousBlockForLane lastInLane
  split_ifs with hp ha
  · rfl
  · cases p.pprev_auxpow <;> simp [Option.filter]
  · cases p.pprev_permissionless <;> simp [Option.filter]

end CBlockIndex

/-! ## The skip pointers -/

theorem invertLowestOne_lt {n : Nat} (h : 0 < n) : invertLowestOne n < n :=
  Nat.and_le_right.trans_lt (Nat.sub_lt h Nat.one_pos)

theorem getSkipHeight_nonneg (height : Int) : 0 ≤ getSkipHeight height := by
  simp only [getSkipHeight]
  split_ifs <;> omega

theorem getSkipHeight_lt {height : Int} (h : 0 < height) : getSkipHeight height < height := by
  simp only [getSkipHeight]
  split_ifs with h2 hodd
  · exact h
  · have h1 := invertLowestOne_lt (n := height.toNat - 1) (by omega)
    have h2 : invertLowestOne (invertLowestOne (height.toNat - 1)) ≤
        invertLowestOne (height.toNat - 1) := Nat.and_le_left
    omega
  · have h1 := invertLowestOne_lt (n := height.toNat) (by omega)
    omega

namespace CBlockIndex

/-- Heights count the ancestors down to a genesis block at height 0, and skip pointers lead to the
height that they are meant to lead to. -/
inductive Linked : CBlockIndex → Prop
  | genesis {p : CBlockIndex} (hskip : p.pskip = none) (hheight : p.nHeight = 0) : Linked p
  | step {p q s : CBlockIndex} (hprev : p.pprev = some q) (hq : Linked q)
      (hheight : p.nHeight = q.nHeight + 1) (hskip : p.pskip = some s) (hs : Linked s)
      (hskipHeight : s.nHeight = getSkipHeight p.nHeight) : Linked p

variable {height : Int} {p : CBlockIndex}

/-- The walk keeps `heightWalk` at the height of the block it stands on. -/
theorem ancestorWalk_linked (h0 : 0 ≤ height) {fuel : Nat} (hp : Linked p)
    (hle : height ≤ p.nHeight) (hfuel : (p.nHeight - height).toNat ≤ fuel) :
    ∃ a, ancestorWalk height fuel p p.nHeight = .ok a ∧ Linked a ∧ a.nHeight = height := by
  induction fuel generalizing p with
  | zero => exact ⟨p, rfl, hp, by omega⟩
  | succ fuel ih =>
    unfold ancestorWalk
    split_ifs with hdone
    · exact ⟨p, rfl, hp, by omega⟩
    cases hp with
    | genesis hskip hheight => omega
    | @step _ q s hprev hq hheight hskip hs hskipHeight =>
      have hlt : getSkipHeight p.nHeight < p.nHeight := getSkipHeight_lt (by omega)
      simp only [hskip, hprev]
      split
      · rename_i s' hs'
        split_ifs at hs' with hfollow
        cases hs'
        rw [← hskipHeight]
        exact ih hs (by omega) (by omega)
      · rw [show p.nHeight - 1 = q.nHeight by omega]
        exact ih hq (by omega) (by omega)

/-- **`GetAncestor` finds the ancestor**, and asserts nothing false on the way. -/
theorem getAncestor_linked (hp : Linked p) (h0 : 0 ≤ height) (hle : height ≤ p.nHeight) :
    ∃ a, p.getAncestor height = .ok (some a) ∧ Linked a ∧ a.nHeight = height := by
  obtain ⟨a, hwalk, ha⟩ := ancestorWalk_linked h0 hp hle le_rfl
  refine ⟨a, ?_, ha⟩
  rw [getAncestor, if_neg (by omega), hwalk]
  rfl

theorem Linked.nHeight_nonneg (hp : Linked p) : 0 ≤ p.nHeight := by
  induction hp with
  | genesis _ hheight => omega
  | step _ _ hheight _ _ _ ih _ => omega

theorem Linked.addToBlockIndex (hash256 : HashFn) (hp : Linked p) (h : CBlockHeader) :
    Linked (addToBlockIndex hash256 (some p) h) := by
  have hpos := hp.nHeight_nonneg
  have hlt : getSkipHeight (p.nHeight + 1) < p.nHeight + 1 := getSkipHeight_lt (by omega)
  obtain ⟨s, hs, hlinked, hheight⟩ :=
    getAncestor_linked hp (getSkipHeight_nonneg (p.nHeight + 1)) (by omega)
  have hskip : (Qbit.addToBlockIndex hash256 (some p) h).pskip = some s := by
    simp only [Qbit.addToBlockIndex, hs]
    rfl
  exact .step rfl hp rfl hskip hlinked hheight

theorem linked_chainIndex (hash256 : HashFn) (genesis : CBlockHeader)
    (headers : List CBlockHeader) : Linked (chainIndex hash256 genesis headers) := by
  induction headers using List.reverseRecOn with
  | nil => exact .genesis rfl rfl
  | append_singleton hs h ih =>
    rw [chainIndex_append_singleton]
    exact ih.addToBlockIndex hash256 h

end CBlockIndex

end Qbit
