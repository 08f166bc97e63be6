import Mathlib.Data.List.AList
import Mathlib.Logic.Relation
import Qbit.Chain.Ancestors

/-!
# The map of block indices

`m_block_index` maps hashes to index entries whose links are pointers to other entries of the map.
Here a pointer is the hash of the entry that it points to, `IndexHeap` is what dereferences it, and
following a pointer that leads nowhere is a fault.

In the other picture of a block tree, `CBlockIndex`, an index holds its ancestors;
`CBlockIndex.entry` forgets them, and `IndexHeap.Represents` says that a heap holds the entry of a
block and of all its ancestors.

* `Represents.ancestorTurn` is what one turn of the loop of `GetAncestor` does, and
  `Represents.getAncestor` is the whole function.
* `BlockMap.addToBlockIndex_eq` says that `AddToBlockIndex` on the map is `addToBlockIndex` on the
  blocks that it represents.
-/

open Checked

namespace Qbit

open CBlockIndex

/-! ## Entries and pointers -/

/-- An entry of `m_block_index`, with the hash of an entry for a pointer to it. -/
structure IndexEntry where
  pprev : Option Uint256 := none
  pskip : Option Uint256 := none
  pprev_permissionless : Option Uint256 := none
  pprev_auxpow : Option Uint256 := none
  nHeight : Int := 0
  nChainWork : Uint256 := 0
  nAuxPow : Nat := 0
  nTimeMax : UInt32 := 0
  nVersion : Int32 := 0
  hashMerkleRoot : Uint256 := 0
  nTime : UInt32 := 0
  nBits : UInt32 := 0
  nNonce : UInt32 := 0
  auxpow : Option CAuxPow := none

namespace IndexEntry

/-- The constructor of `CBlockIndex` from a header. -/
def ofHeader (block : CBlockHeader) : IndexEntry :=
  { nVersion := block.nVersion
    hashMerkleRoot := block.hashMerkleRoot
    nTime := block.nTime
    nBits := block.nBits
    nNonce := block.nNonce
    auxpow := block.auxpow }

def signalsAuxpow (e : IndexEntry) : Bool := isAuxpowVersion e.nVersion

/-- `CBlockIndex::GetBlockHeader` -/
def getBlockHeader (e : IndexEntry) : CBlockHeader :=
  { nVersion := e.nVersion
    hashPrevBlock := e.pprev.getD 0
    hashMerkleRoot := e.hashMerkleRoot
    nTime := e.nTime
    nBits := e.nBits
    nNonce := e.nNonce
    auxpow := e.auxpow }

end IndexEntry

/-- What a pointer to an entry leads to. -/
abbrev IndexHeap := Uint256 → Option IndexEntry

namespace IndexHeap

def deref (heap : IndexHeap) (p : Uint256) : Result IndexEntry :=
  match heap p with
  | some e => .ok e
  | none => .error .nullPointer

/-- The body of the loop of `GetAncestor`, from `pindexWalk` and `heightWalk`. -/
def ancestorTurn (heap : IndexHeap) (height : Int) (s : Uint256 × Int) :
    Result (Uint256 × Int) := do
  let pindexWalk ← heap.deref s.1
  let heightWalk := s.2
  let heightSkip := getSkipHeight heightWalk
  let heightSkipPrev := getSkipHeight (heightWalk - 1)
  match (if heightSkip = height ∨
      (height < heightSkip ∧ ¬ (heightSkipPrev < heightSkip - 2 ∧ height ≤ heightSkipPrev))
    then pindexWalk.pskip else none) with
  | some skip => return (skip, heightSkip)
  | none =>
    match pindexWalk.pprev with
    | some prev => return (prev, heightWalk - 1)
    | none => .error .assertion

/-- Whatever the pointers are, a turn lowers `heightWalk`. -/
theorem ancestorTurn_lt {heap : IndexHeap} {height : Int} {s s' : Uint256 × Int}
    (h0 : 0 ≤ height) (hlt : height < s.2) (h : heap.ancestorTurn height s = .ok s') :
    s'.2 < s.2 := by
  simp only [ancestorTurn, bind_eq_ok_iff] at h
  obtain ⟨e, -, h⟩ := h
  split at h
  · cases h
    exact getSkipHeight_lt (by omega)
  split at h
  · cases h
    omega
  · cases h

/-- The loop of `GetAncestor`. -/
def ancestorLoop (heap : IndexHeap) (height : Nat) (s : Uint256 × Int) : Result Uint256 :=
  if hlt : (height : Int) < s.2 then
    match hturn : heap.ancestorTurn height s with
    | .ok s' => heap.ancestorLoop height s'
    | .error f => .error f
  else .ok s.1
termination_by (s.2 - height).toNat
decreasing_by
  have := ancestorTurn_lt (Int.natCast_nonneg height) hlt hturn
  omega

variable (heap : IndexHeap)

/-- `CBlockIndex::GetAncestor` -/
def getAncestor (p : Uint256) (height : Int) : Result (Option Uint256) := do
  let e ← heap.deref p
  if e.nHeight < height ∨ height < 0 then return none
  let a ← heap.ancestorLoop height.toNat (p, e.nHeight)
  return some a

/-- `CBlockIndex::GetPreviousBlockForLane` -/
def getPreviousBlockForLane (p : Uint256) (auxpow : Bool) (min_height : Int) :
    Result (Option Uint256) := do
  let e ← heap.deref p
  if e.signalsAuxpow = auxpow then return some p
  match (if auxpow then e.pprev_auxpow else e.pprev_permissionless) with
  | some candidate => do
    let c ← heap.deref candidate
    return if min_height ≤ c.nHeight then some candidate else none
  | none => return none

/-- `CBlockIndex::BuildSkip` -/
def buildSkip (e : IndexEntry) : Result IndexEntry := do
  match e.pprev with
  | some pprev =>
    let pskip ← heap.getAncestor pprev (getSkipHeight e.nHeight)
    return { e with pskip := pskip }
  | none => return e

/-- `CBlockIndex::BuildCadenceLaneLinks` -/
def buildCadenceLaneLinks (e : IndexEntry) : Result IndexEntry := do
  match e.pprev with
  | some pprev =>
    let q ← heap.deref pprev
    if q.signalsAuxpow then
      return { e with pprev_auxpow := some pprev, pprev_permissionless := q.pprev_permissionless }
    else
      return { e with pprev_permissionless := some pprev, pprev_auxpow := q.pprev_auxpow }
  | none => return { e with pprev_permissionless := none, pprev_auxpow := none }

/-- The lines of `AddToBlockIndex` and of `LoadBlockIndex` that add an entry to the totals of its
parent. -/
def addTotals (e : IndexEntry) : Result IndexEntry := do
  match e.pprev with
  | some pprev =>
    let q ← heap.deref pprev
    return { e with
      nTimeMax := max q.nTimeMax e.nTime
      nAuxPow := q.nAuxPow + (if e.signalsAuxpow then 1 else 0)
      nChainWork := q.nChainWork + getBlockProof e.nBits }
  | none =>
    return { e with
      nTimeMax := e.nTime
      nAuxPow := 0 + (if e.signalsAuxpow then 1 else 0)
      nChainWork := 0 + getBlockProof e.nBits }

/-! ## Ancestors over pointers -/

/-- `a` is what the `pprev` of `b` points to. -/
def Parent (a b : Uint256) : Prop := ∃ e, heap b = some e ∧ e.pprev = some a

/-- `b` and its ancestors. -/
def AncestorOrSelf : Uint256 → Uint256 → Prop :=
  Relation.ReflTransGen heap.Parent

def StrictAncestor : Uint256 → Uint256 → Prop :=
  Relation.TransGen heap.Parent

def HasHeight (a : Uint256) (height : Int) : Prop :=
  ∃ e, heap a = some e ∧ e.nHeight = height

def InLane (auxpow : Bool) (a : Uint256) : Prop :=
  ∃ e, heap a = some e ∧ e.signalsAuxpow = auxpow

end IndexHeap

/-! ## The map -/

abbrev BlockMap := AList fun _ : Uint256 => IndexEntry

namespace BlockMap

def heap (m : BlockMap) : IndexHeap := fun p => m.lookup p

/-- `BlockManager::AddToBlockIndex` -/
def addToBlockIndex (hash256 : HashFn) (m : BlockMap) (block : CBlockHeader) :
    Result BlockMap := do
  let hash := block.getHash hash256
  if (m.lookup hash).isSome then return m
  let m : BlockMap := m.insert hash (.ofHeader block)
  let pindexNew := match m.lookup block.hashPrevBlock with
    | some prev => { IndexEntry.ofHeader block with
        pprev := some block.hashPrevBlock
        nHeight := prev.nHeight + 1 }
    | none => .ofHeader block
  let pindexNew ← m.heap.buildSkip pindexNew
  let pindexNew ← m.heap.buildCadenceLaneLinks pindexNew
  let pindexNew ← m.heap.addTotals pindexNew
  return m.insert hash pindexNew

/-- The map after `AddToBlockIndex` was called for some headers, in this order. -/
def ofHeaders (hash256 : HashFn) (headers : List CBlockHeader) : Result BlockMap :=
  headers.foldlM (addToBlockIndex hash256) ∅

theorem heap_insert_self (m : BlockMap) (k : Uint256) (e : IndexEntry) :
    heap (m.insert k e) k = some e := AList.lookup_insert m

theorem heap_insert_of_ne (m : BlockMap) {k k' : Uint256} (e : IndexEntry) (h : k' ≠ k) :
    heap (m.insert k e) k' = m.heap k' := AList.lookup_insert_ne h

end BlockMap

/-! ## The two pictures -/

/-- What the map holds of a block: its ancestors are pointers. -/
def CBlockIndex.entry (p : CBlockIndex) : IndexEntry :=
  { pprev := p.pprev.map hashBlock
    pskip := p.pskip.map hashBlock
    pprev_permissionless := p.pprev_permissionless.map hashBlock
    pprev_auxpow := p.pprev_auxpow.map hashBlock
    nHeight := p.nHeight
    nChainWork := p.nChainWork
    nAuxPow := p.nAuxPow
    nTimeMax := p.nTimeMax
    nVersion := p.nVersion
    hashMerkleRoot := p.hashMerkleRoot
    nTime := p.nTime
    nBits := p.nBits
    nNonce := p.nNonce
    auxpow := p.auxpow }

@[simp] theorem CBlockIndex.nHeight_entry (p : CBlockIndex) : p.entry.nHeight = p.nHeight := rfl

@[simp] theorem CBlockIndex.signalsAuxpow_entry (p : CBlockIndex) :
    p.entry.signalsAuxpow = p.signalsAuxpow := rfl

variable {hash256 : HashFn} {p : CBlockIndex} {s : Uint256 × Int}

namespace IndexHeap

/-- The heap holds the block and its ancestors. -/
def Represents (heap : IndexHeap) (p : CBlockIndex) : Prop :=
  ∀ a, Ancestor a p → heap a.hashBlock = some a.entry

section Represents

variable {heap : IndexHeap}

theorem Represents.deref (h : heap.Represents p) : heap.deref p.hashBlock = .ok p.entry := by
  rw [IndexHeap.deref, h p (.refl p)]

theorem Represents.ancestor (h : heap.Represents p) {a : CBlockIndex} (ha : Ancestor a p) :
    heap.Represents a :=
  fun b hb => h b (hb.trans ha)

/-- A state of the walk from `p` to `height`: it stands on an ancestor that is not below `height`,
and `heightWalk` is the height of that ancestor. -/
def Walking (p : CBlockIndex) (height : Int) (s : Uint256 × Int) : Prop :=
  ∃ x, Ancestor x p ∧ s = (x.hashBlock, x.nHeight) ∧ height ≤ x.nHeight

section Ancestors

variable (h : heap.Represents p) (hp : Built hash256 p)

include h hp

/-- **One turn of the walk** goes on to a lower ancestor; the assertion does not fail. -/
theorem Represents.ancestorTurn {height : Int} (h0 : 0 ≤ height) (hs : Walking p height s)
    (hlt : height < s.2) :
    ∃ s', heap.ancestorTurn height s = .ok s' ∧ Walking p height s' := by
  obtain ⟨x, hx, rfl, -⟩ := hs
  have hskip := hp.skip_ancestor x
  simp only [IndexHeap.ancestorTurn, (h.ancestor hx).deref, ok_bind]
  cases (hp.ancestor hx).linked with
  | genesis _ hheight => omega
  | @step _ q s hprev hq hheight hpskip hs hskipHeight =>
    simp only [entry, hpskip, hprev]
    split
    · rename_i k hk
      split_ifs at hk with hfollow
      cases hk
      refine ⟨_, rfl, s, (hskip s hx hpskip).trans hx, by rw [hskipHeight], ?_⟩
      omega
    · refine ⟨_, rfl, q, .trans (.step hprev (.refl q)) hx, ?_, by omega⟩
      rw [show x.nHeight - 1 = q.nHeight by omega]

omit h hp in
theorem ancestorLoop_eq {height : Nat} (hlt : height < s.2) :
    heap.ancestorLoop height s = heap.ancestorTurn height s >>= heap.ancestorLoop height := by
  rw [IndexHeap.ancestorLoop, dif_pos hlt]
  split
  next hturn => rw [hturn, ok_bind]
  next hturn => rw [hturn, error_bind]

/-- **The whole walk** ends at the ancestor of the height that is asked for. -/
theorem Represents.ancestorLoop (height : Nat) (hs : Walking p height s) :
    ∃ a, heap.ancestorLoop height s = .ok a.hashBlock ∧ Ancestor a p ∧ a.nHeight = height := by
  -- The measure is the loop's own: how far `heightWalk` is above `height`.
  induction hn : (s.2 - height).toNat using Nat.strong_induction_on generalizing s with
  | h n ih =>
    by_cases hlt : height < s.2
    · obtain ⟨s', hturn, hs'⟩ := h.ancestorTurn hp (Int.natCast_nonneg height) hs hlt
      have hdown := ancestorTurn_lt (Int.natCast_nonneg height) hlt hturn
      rw [ancestorLoop_eq hlt, hturn]
      exact ih _ (by omega) hs' rfl
    · obtain ⟨x, hx, rfl, hle⟩ := hs
      rw [IndexHeap.ancestorLoop, dif_neg hlt]
      exact ⟨x, rfl, hx, le_antisymm (Int.not_lt.mp hlt) hle⟩

/-- **`GetAncestor` over pointers** is `GetAncestor` on the blocks that they represent. -/
theorem Represents.getAncestor (height : Int) :
    heap.getAncestor p.hashBlock height =
      (p.getAncestor height).map (Option.map hashBlock) := by
  rw [IndexHeap.getAncestor, h.deref, ok_bind]
  by_cases hrange : p.nHeight < height ∨ height < 0
  · rw [nHeight_entry, if_pos hrange, CBlockIndex.getAncestor, if_pos hrange]
    rfl
  have h0 : 0 ≤ height := by omega
  have hle : height ≤ p.nHeight := by omega
  obtain ⟨a, ha, hap, haheight⟩ := hp.getAncestor h0 hle
  obtain ⟨b, hb, hbp, hbheight⟩ := h.ancestorLoop hp height.toNat (s := (p.hashBlock, p.nHeight))
    ⟨p, .refl p, rfl, by omega⟩
  have hab : a = b := hp.ancestor_unique hap hbp (by omega)
  rw [nHeight_entry, if_neg hrange, ha, hb, hab]
  rfl

end Ancestors

/-! ## The links of a new entry

For an entry whose `pprev` points to the parent, if there is one, the three functions that fill in
the rest compute what `addToBlockIndex` computes. -/

variable {q : Option CBlockIndex} {e : IndexEntry}

theorem buildSkip_eq (hq : ∀ p, q = some p → heap.Represents p ∧ Built hash256 p)
    (block : CBlockHeader) (hprev : e.pprev = q.map hashBlock)
    (hheight : e.nHeight = (addToBlockIndex hash256 q block).nHeight) (hskip : e.pskip = none) :
    heap.buildSkip e = .ok { e with
      pskip := (addToBlockIndex hash256 q block).pskip.map hashBlock } := by
  cases q with
  | none =>
    cases e
    cases hskip
    cases hprev
    rfl
  | some p =>
    obtain ⟨hrep, hbuilt⟩ := hq p rfl
    have hpos := hbuilt.linked.nHeight_nonneg
    have hlt : getSkipHeight (p.nHeight + 1) < p.nHeight + 1 := getSkipHeight_lt (by omega)
    obtain ⟨a, ha, -⟩ := hbuilt.getAncestor (getSkipHeight_nonneg (p.nHeight + 1)) (by omega)
    rw [buildSkip, hprev, hheight]
    simp only [Option.map_some]
    rw [hrep.getAncestor hbuilt]
    simp only [addToBlockIndex, ha]
    rfl

theorem buildCadenceLaneLinks_eq (hash256 : HashFn) (hq : ∀ p, q = some p → heap.Represents p)
    (block : CBlockHeader) (hprev : e.pprev = q.map hashBlock) :
    heap.buildCadenceLaneLinks e = .ok { e with
      pprev_permissionless :=
        (addToBlockIndex hash256 q block).pprev_permissionless.map hashBlock
      pprev_auxpow :=
        (addToBlockIndex hash256 q block).pprev_auxpow.map hashBlock } := by
  rcases q with _ | p
  · rw [buildCadenceLaneLinks, hprev]
    rfl
  rw [buildCadenceLaneLinks, hprev]
  simp only [Option.map_some, (hq p rfl).deref, ok_bind, addToBlockIndex]
  by_cases hlane : p.signalsAuxpow = true
  · rw [if_pos (p.signalsAuxpow_entry.trans hlane)]
    simp only [if_pos hlane]
    rfl
  · rw [if_neg (p.signalsAuxpow_entry.trans_ne hlane)]
    simp only [if_neg hlane]
    rfl

theorem addTotals_eq (hash256 : HashFn) (hq : ∀ p, q = some p → heap.Represents p)
    (block : CBlockHeader) (hprev : e.pprev = q.map hashBlock)
    (hversion : e.nVersion = block.nVersion)
    (htime : e.nTime = block.nTime) (hbits : e.nBits = block.nBits) :
    heap.addTotals e = .ok { e with
      nTimeMax := (addToBlockIndex hash256 q block).nTimeMax
      nAuxPow := (addToBlockIndex hash256 q block).nAuxPow
      nChainWork := (addToBlockIndex hash256 q block).nChainWork } := by
  have hlane : e.signalsAuxpow = block.signalsAuxpow := by
    rw [IndexEntry.signalsAuxpow, hversion]
    rfl
  rcases q with _ | p
  · rw [addTotals, hprev]
    simp only [hlane, htime, hbits]
    rfl
  rw [addTotals, hprev]
  simp only [Option.map_some, (hq p rfl).deref, hlane, htime, hbits]
  rfl

end Represents

end IndexHeap

/-! ## Adding to the map -/

namespace BlockMap

open IndexHeap

variable {m : BlockMap}

theorem represents_insert (h : m.heap.Represents p) {k : Uint256} (hk : m.heap k = none)
    (e : IndexEntry) : Represents (heap (m.insert k e)) p := by
  intro a ha
  rw [heap_insert_of_ne m e, h a ha]
  rintro rfl
  rw [h a ha] at hk
  cases hk

/-- **`AddToBlockIndex` on the map** stores the entry of the index that `addToBlockIndex` makes. -/
theorem addToBlockIndex_eq {block : CBlockHeader} {q : Option CBlockIndex}
    (hnew : m.heap (block.getHash hash256) = none)
    (hself : block.hashPrevBlock ≠ block.getHash hash256)
    (hlookup : m.heap block.hashPrevBlock = q.map entry)
    (hq : ∀ p, q = some p →
      p.hashBlock = block.hashPrevBlock ∧ m.heap.Represents p ∧ Built hash256 p) :
    m.addToBlockIndex hash256 block =
      .ok ((m.insert (block.getHash hash256) (.ofHeader block)).insert (block.getHash hash256)
        (Qbit.addToBlockIndex hash256 q block).entry) := by
  have hrep : ∀ p, q = some p →
      Represents (heap (m.insert (block.getHash hash256) (.ofHeader block))) p :=
    fun p hp => represents_insert (hq p hp).2.1 hnew _
  have hparent : AList.lookup block.hashPrevBlock
      (m.insert (block.getHash hash256) (.ofHeader block)) = q.map entry := by
    rw [← hlookup]
    exact heap_insert_of_ne m _ hself
  rw [addToBlockIndex]
  simp only [hparent]
  rw [if_neg (by rw [show m.lookup _ = none from hnew]; decide)]
  set e : IndexEntry := match q.map entry with
    | some prev => { IndexEntry.ofHeader block with
        pprev := some block.hashPrevBlock
        nHeight := prev.nHeight + 1 }
    | none => .ofHeader block with he
  have hprev : e.pprev = q.map hashBlock := by
    cases q with
    | none => rfl
    | some p => exact congrArg some (hq p rfl).1.symm
  have hheight : e.nHeight = (Qbit.addToBlockIndex hash256 q block).nHeight := by cases q <;> rfl
  have hrest : e = { IndexEntry.ofHeader block with pprev := e.pprev, nHeight := e.nHeight } := by
    cases q <;> rfl
  have hskip : e.pskip = none := by rw [hrest]; rfl
  have hversion : e.nVersion = block.nVersion := by rw [hrest]; rfl
  have htime : e.nTime = block.nTime := by rw [hrest]; rfl
  have hbits : e.nBits = block.nBits := by rw [hrest]; rfl
  refine bind_eq_ok_iff.mpr ⟨_, buildSkip_eq (fun p hp => ⟨hrep p hp, (hq p hp).2.2⟩) block hprev
    hheight hskip, bind_eq_ok_iff.mpr ⟨_, buildCadenceLaneLinks_eq hash256 hrep block hprev,
    bind_eq_ok_iff.mpr ⟨_, addTotals_eq hash256 hrep block hprev hversion htime hbits, ?_⟩⟩⟩
  rw [hrest, hprev, hheight]
  rfl

end BlockMap

/-! ## Trees -/

/-- A tree of blocks under their hashes, closed under parents.  The null hash stands for no block. -/
structure IndexTree (hash256 : HashFn) where
  find : Uint256 → Option CBlockIndex
  keyed : ∀ {k p}, find k = some p → p.hashBlock = k
  hashed : ∀ {k p}, find k = some p → p.getBlockHeader.getHash hash256 = k
  built : ∀ {k p}, find k = some p → Built hash256 p
  closed : ∀ {k p q}, find k = some p → p.pprev = some q → find q.hashBlock = some q
  nonnull : find 0 = none

namespace IndexTree

def empty (hash256 : HashFn) : IndexTree hash256 where
  find _ := none
  keyed := nofun
  hashed := nofun
  built := nofun
  closed := nofun
  nonnull := rfl

theorem find_ancestor (t : IndexTree hash256) {k : Uint256} {a : CBlockIndex}
    (hp : t.find k = some p) (ha : Ancestor a p) : t.find a.hashBlock = some a := by
  induction ha generalizing k with
  | refl => rwa [t.keyed hp]
  | step hprev _ ih => exact ih (t.closed hp hprev)

/-- The tree with one more block, whose parent is in the tree unless it is a root. -/
def insert (t : IndexTree hash256) (block : CBlockHeader)
    (hnull : block.getHash hash256 ≠ 0) (hnew : t.find (block.getHash hash256) = none)
    (hroot : t.find block.hashPrevBlock = none → block.hashPrevBlock = 0) :
    IndexTree hash256 where
  find k := if k = block.getHash hash256 then
      some (addToBlockIndex hash256 (t.find block.hashPrevBlock) block)
    else t.find k
  keyed := by
    intro k p h
    split_ifs at h with hk
    · cases h
      exact hk.symm
    · exact t.keyed h
  hashed := by
    intro k p h
    split_ifs at h with hk
    · cases h
      rw [hk]
      cases hprev : t.find block.hashPrevBlock with
      | none =>
        simp only [getBlockHeader, addToBlockIndex, CPureBlockHeader.getHash,
          CPureBlockHeader.serializePure, hroot hprev]
      | some q =>
        simp only [getBlockHeader, addToBlockIndex, CPureBlockHeader.getHash,
          CPureBlockHeader.serializePure, t.keyed hprev]
    · exact t.hashed h
  built := by
    intro k p h
    split_ifs at h with hk
    · cases h
      cases hprev : t.find block.hashPrevBlock with
      | none => exact .root block
      | some q => exact .child (t.built hprev) block
    · exact t.built h
  closed := by
    intro k p q h hprev
    have hold : t.find q.hashBlock = some q := by
      split_ifs at h with hk
      · cases h
        rw [t.keyed hprev]
        exact hprev
      · exact t.closed h hprev
    rw [if_neg, hold]
    rintro heq
    rw [heq, hnew] at hold
    cases hold
  nonnull := by rw [if_neg hnull.symm, t.nonnull]

/-- The heap holds the blocks of the tree and nothing else. -/
def Refines (heap : IndexHeap) (t : IndexTree hash256) : Prop :=
  ∀ k, heap k = (t.find k).map entry

section Refines

variable {heap : IndexHeap} {t : IndexTree hash256} {b : Uint256}

theorem Refines.represents (h : Refines heap t) (hp : t.find b = some p) : heap.Represents p := by
  intro a ha
  rw [h, t.find_ancestor hp ha]
  rfl

theorem Refines.exists_block (h : Refines heap t) {e : IndexEntry} (he : heap b = some e) :
    ∃ p, t.find b = some p ∧ p.hashBlock = b ∧ e = p.entry := by
  rw [h] at he
  obtain ⟨p, hp, rfl⟩ := Option.map_eq_some_iff.mp he
  exact ⟨p, hp, t.keyed hp, rfl⟩

variable {a : Uint256}

variable (h : Refines heap t) (hp : t.find b = some p)

include h hp

theorem Refines.parent_iff : heap.Parent a b ↔ ∃ q, p.pprev = some q ∧ q.hashBlock = a := by
  constructor
  · rintro ⟨e, he, hprev⟩
    rw [h, hp] at he
    cases he
    exact Option.map_eq_some_iff.mp hprev
  · rintro ⟨q, hq, rfl⟩
    exact ⟨p.entry, by rw [h, hp]; rfl, by rw [entry, hq]; rfl⟩

/-- **Ancestors over pointers** are the ancestors of the blocks. -/
theorem Refines.ancestorOrSelf_iff :
    heap.AncestorOrSelf a b ↔ ∃ x, Ancestor x p ∧ x.hashBlock = a := by
  constructor
  · intro ha
    -- From `b` down to `a`, with the block that each hash stands for.
    induction ha using Relation.ReflTransGen.head_induction_on with
    | refl => exact ⟨p, .refl p, t.keyed hp⟩
    | head hparent _ ih =>
      obtain ⟨x, hx, rfl⟩ := ih
      obtain ⟨q, hq, rfl⟩ := (h.parent_iff (t.find_ancestor hp hx)).mp hparent
      exact ⟨q, .trans (.step hq (.refl q)) hx, rfl⟩
  · rintro ⟨x, hx, rfl⟩
    induction hx generalizing b with
    | refl =>
      rw [t.keyed hp]
      exact .refl
    | step hprev _ ih =>
      exact .tail (ih (t.closed hp hprev)) ((h.parent_iff hp).mpr ⟨_, hprev, rfl⟩)

theorem Refines.strictAncestor_iff :
    heap.StrictAncestor a b ↔ ∃ q x, p.pprev = some q ∧ Ancestor x q ∧ x.hashBlock = a := by
  rw [IndexHeap.StrictAncestor, Relation.TransGen.tail'_iff]
  constructor
  · rintro ⟨c, hac, hparent⟩
    obtain ⟨q, hq, rfl⟩ := (h.parent_iff hp).mp hparent
    obtain ⟨x, hx, rfl⟩ := (h.ancestorOrSelf_iff (t.closed hp hq)).mp hac
    exact ⟨q, x, hq, hx, rfl⟩
  · rintro ⟨q, x, hq, hx, rfl⟩
    exact ⟨q.hashBlock, (h.ancestorOrSelf_iff (t.closed hp hq)).mpr ⟨x, hx, rfl⟩,
      (h.parent_iff hp).mpr ⟨q, hq, rfl⟩⟩

end Refines

end IndexTree

/-- Headers in an order in which they can be added: each one is a root, which names no parent, or
comes after its parent.  No block has the null hash, which the index keeps for that. -/
structure TreeOrder (hash256 : HashFn) (headers : List CBlockHeader) : Prop where
  parents : ∀ pre h post, headers = pre ++ h :: post →
    h.hashPrevBlock = 0 ∨ ∃ g ∈ pre, g.getHash hash256 = h.hashPrevBlock
  nonnull : ∀ h ∈ headers, h.getHash hash256 ≠ 0

variable {headers : List CBlockHeader} {h : CBlockHeader}

theorem TreeOrder.of_append (ho : TreeOrder hash256 (headers ++ [h])) :
    TreeOrder hash256 headers where
  parents pre g post heq := ho.parents pre g (post ++ [h]) (by rw [heq]; simp)
  nonnull g hg := ho.nonnull g (List.mem_append_left _ hg)

theorem TreeOrder.nil (hash256 : HashFn) : TreeOrder hash256 [] where
  parents pre h post heq := by simp at heq
  nonnull := nofun

theorem TreeOrder.append (ho : TreeOrder hash256 headers)
    (hparent : h.hashPrevBlock = 0 ∨ ∃ g ∈ headers, g.getHash hash256 = h.hashPrevBlock)
    (hnull : h.getHash hash256 ≠ 0) : TreeOrder hash256 (headers ++ [h]) where
  parents pre g post heq := by
    rcases List.eq_nil_or_concat post with rfl | ⟨post', x, rfl⟩
    · obtain ⟨rfl, hh⟩ := List.append_inj' heq rfl
      cases hh
      exact hparent
    · rw [List.concat_eq_append, ← List.cons_append, ← List.append_assoc] at heq
      exact ho.parents pre g post' (List.append_inj' heq rfl).1
  nonnull g hg := by
    rcases List.mem_append.mp hg with hg | hg
    · exact ho.nonnull g hg
    · rwa [List.mem_singleton.mp hg]

/-- **The map is a tree**, whatever the order of the headers, and no step of `AddToBlockIndex`
fails. -/
theorem TreeOrder.exists_tree (ho : TreeOrder hash256 headers) :
    ∃ m, ∃ t : IndexTree hash256, BlockMap.ofHeaders hash256 headers = .ok m ∧
      IndexTree.Refines m.heap t ∧ ∀ g ∈ headers, (t.find (g.getHash hash256)).isSome := by
  induction headers using List.reverseRecOn with
  | nil => exact ⟨∅, .empty hash256, rfl, fun _ => rfl, nofun⟩
  | append_singleton headers h ih =>
    obtain ⟨m, t, hm, ht, hall⟩ := ih ho.of_append
    have hnull := ho.nonnull h (by simp)
    have hroot : t.find h.hashPrevBlock = none → h.hashPrevBlock = 0 := by
      intro hnone
      rcases ho.parents headers h [] rfl with h0 | ⟨g, hg, hgh⟩
      · exact h0
      · have := hall g hg
        rw [hgh, hnone] at this
        cases this
    have hfold : BlockMap.ofHeaders hash256 (headers ++ [h]) = m.addToBlockIndex hash256 h := by
      rw [BlockMap.ofHeaders] at hm ⊢
      rw [List.foldlM_append, hm, ok_bind, List.foldlM_cons]
      exact bind_pure _
    rw [hfold]
    cases hfind : t.find (h.getHash hash256) with
    | some p =>
      -- A header that is there already changes nothing.
      refine ⟨m, t, ?_, ht, ?_⟩
      · have hlookup : (m.lookup (h.getHash hash256)).isSome := by
          rw [show m.lookup _ = _ from ht (h.getHash hash256), hfind]
          rfl
        simp [BlockMap.addToBlockIndex, hlookup]
      · intro g hg
        rcases List.mem_append.mp hg with hg | hg
        · exact hall g hg
        · simp [List.mem_singleton.mp hg, hfind]
    | none =>
      have hself : h.hashPrevBlock ≠ h.getHash hash256 := by
        intro heq
        exact hnull (heq.symm.trans (hroot (heq ▸ hfind)))
      refine ⟨_, t.insert h hnull hfind hroot,
        BlockMap.addToBlockIndex_eq (by rw [ht, hfind]; rfl) hself (ht h.hashPrevBlock)
          fun p hp => ⟨t.keyed hp, ht.represents hp, t.built hp⟩, fun k => ?_, fun g hg => ?_⟩
      · by_cases hk : k = h.getHash hash256
        · simp [hk, BlockMap.heap_insert_self, IndexTree.insert]
        · rw [BlockMap.heap_insert_of_ne _ _ hk, BlockMap.heap_insert_of_ne _ _ hk, ht]
          simp [IndexTree.insert, hk]
      · simp only [IndexTree.insert]
        split_ifs with hk
        · rfl
        rcases List.mem_append.mp hg with hg | hg
        · exact hall g hg
        · rw [List.mem_singleton.mp hg] at hk
          exact absurd rfl hk

/-! ## `GetAncestor` -/

/-- One turn of the loop of `GetAncestor` leads from one state to the next. -/
def IndexHeap.Turns (heap : IndexHeap) (height : Int) (s s' : Uint256 × Int) : Prop :=
  height < s.2 ∧ heap.ancestorTurn height s = .ok s'

section GetAncestor

variable {heap : IndexHeap} {height : Int}

theorem IndexHeap.Represents.walking (h : heap.Represents p) (hp : Built hash256 p)
    (h0 : 0 ≤ height) (hle : height ≤ p.nHeight)
    (hs : Relation.ReflTransGen (heap.Turns height) (p.hashBlock, p.nHeight) s) :
    Walking p height s := by
  induction hs with
  | refl => exact ⟨p, .refl p, rfl, hle⟩
  | tail _ hturn ih =>
    obtain ⟨s', hs', hwalking⟩ := h.ancestorTurn hp h0 ih hturn.1
    rw [hturn.2] at hs'
    cases hs'
    exact hwalking

theorem IndexHeap.turns_of_ancestorLoop {height : Nat} {a : Uint256}
    (h : heap.ancestorLoop height s = .ok a) :
    ∃ n : Int, Relation.ReflTransGen (heap.Turns height) s (a, n) ∧ n ≤ height := by
  induction s using IndexHeap.ancestorLoop.induct heap height with
  | case1 s hlt s' hturn ih =>
    rw [ancestorLoop_eq hlt, hturn] at h
    obtain ⟨n, hrun, hn⟩ := ih h
    exact ⟨n, .head ⟨hlt, hturn⟩ hrun, hn⟩
  | case2 s hlt f hturn =>
    rw [ancestorLoop_eq hlt, hturn] at h
    cases h
  | case3 s hge =>
    rw [IndexHeap.ancestorLoop, dif_neg hge] at h
    cases h
    exact ⟨s.2, .refl, Int.not_lt.mp hge⟩

end GetAncestor

open IndexHeap in
/-- **`GetAncestor` is the parent walk.**  In the map that `AddToBlockIndex` has built from headers
in any order that puts parents first, for every block `b` and every integer:

* below zero and above the block's height the answer is null;
* otherwise it is the one block of that height among `b` and its ancestors;
* in every state that the loop reaches, `heightWalk` is the height of `pindexWalk`, and as long as
  it is above the height that is asked for, the assertion holds and the next turn lowers it;
* the turns lead to the answer. -/
theorem getAncestor_exact {hash256 : HashFn} {headers : List CBlockHeader}
    (ho : TreeOrder hash256 headers) :
    ∃ m, BlockMap.ofHeaders hash256 headers = .ok m ∧
      ∀ b e, m.heap b = some e → ∀ height : Int,
        (height < 0 ∨ e.nHeight < height → m.heap.getAncestor b height = .ok none) ∧
        (0 ≤ height → height ≤ e.nHeight →
          ∃ a, m.heap.getAncestor b height = .ok (some a) ∧
            m.heap.AncestorOrSelf a b ∧ m.heap.HasHeight a height ∧
            (∀ a', m.heap.AncestorOrSelf a' b → m.heap.HasHeight a' height → a' = a) ∧
            (∀ s, Relation.ReflTransGen (m.heap.Turns height) (b, e.nHeight) s →
              m.heap.HasHeight s.1 s.2 ∧ height ≤ s.2 ∧
                (height < s.2 → ∃ s', m.heap.ancestorTurn height s = .ok s' ∧ s'.2 < s.2)) ∧
            Relation.ReflTransGen (m.heap.Turns height) (b, e.nHeight) (a, height)) := by
  obtain ⟨m, t, hm, ht, -⟩ := ho.exists_tree
  refine ⟨m, hm, fun b e he height => ?_⟩
  obtain ⟨p, hp, rfl, rfl⟩ := ht.exists_block he
  have hrep := ht.represents hp
  have hbuilt := t.built hp
  have hheight {x : CBlockIndex} (hx : Ancestor x p) : m.heap.HasHeight x.hashBlock x.nHeight :=
    ⟨x.entry, hrep x hx, rfl⟩
  rw [nHeight_entry]
  constructor
  · intro hrange
    rw [hrep.getAncestor hbuilt, CBlockIndex.getAncestor, if_pos hrange.symm]
    rfl
  · intro h0 hle
    obtain ⟨a, hloop, ha, haheight⟩ := hrep.ancestorLoop hbuilt height.toNat
      (s := (p.hashBlock, p.nHeight)) ⟨p, .refl p, rfl, by omega⟩
    have hnat : (height.toNat : Int) = height := Int.toNat_of_nonneg h0
    refine ⟨a.hashBlock, ?_, (ht.ancestorOrSelf_iff hp).mpr ⟨a, ha, rfl⟩, ?_, ?_, ?_, ?_⟩
    · rw [IndexHeap.getAncestor, hrep.deref, ok_bind, nHeight_entry, if_neg (by omega), hloop]
      rfl
    · rw [← hnat, ← haheight]
      exact hheight ha
    · rintro a' ha' ⟨e', he', heq⟩
      obtain ⟨x, hx, rfl⟩ := (ht.ancestorOrSelf_iff hp).mp ha'
      rw [hrep x hx] at he'
      cases he'
      rw [hbuilt.ancestor_unique hx ha (by rw [← nHeight_entry, heq]; omega)]
    · intro s hs
      have hwalking := hrep.walking hbuilt h0 hle hs
      refine ⟨?_, ?_, fun hlt => ?_⟩
      · obtain ⟨x, hx, rfl, -⟩ := hwalking
        exact hheight hx
      · obtain ⟨x, -, rfl, hx⟩ := hwalking
        exact hx
      · obtain ⟨s', hturn, -⟩ := hrep.ancestorTurn hbuilt h0 hwalking hlt
        exact ⟨s', hturn, ancestorTurn_lt h0 hlt hturn⟩
    · obtain ⟨n, hrun, hn⟩ := turns_of_ancestorLoop hloop
      rw [hnat] at hrun hn
      obtain ⟨x, -, heq, hx⟩ := hrep.walking hbuilt h0 hle hrun
      have hxn : n = x.nHeight := congrArg Prod.snd heq
      rwa [show n = height by omega] at hrun

/-- A stand-in for the hash of a header: one more than the low byte of its nonce. -/
def nonceHash : HashFn := fun bytes => BitVec.ofNat 256 (1 + (bytes.getD 76 0).toNat)

/-- A root with two children, an AuxPoW block and a permissionless one, and a block on each. -/
def forkHeaders : List CBlockHeader :=
  [{ nBits := 0x18109c29 },
    { hashPrevBlock := 1, nNonce := 1, nVersion := 0x20000100, nBits := 0x18109c29 },
    { hashPrevBlock := 1, nNonce := 2, nBits := 0x18109c29 },
    { hashPrevBlock := 2, nNonce := 3, nBits := 0x18109c29 },
    { hashPrevBlock := 3, nNonce := 4, nVersion := 0x20000100, nBits := 0x18109c29 }]

theorem treeOrder_forkHeaders : TreeOrder nonceHash forkHeaders :=
  (((((TreeOrder.nil nonceHash).append (.inl rfl) (by decide)).append
    (.inr ⟨_, List.mem_cons_self, by decide⟩) (by decide)).append
    (.inr ⟨_, List.mem_cons_self, by decide⟩) (by decide)).append
    (.inr ⟨_, List.mem_cons_of_mem _ List.mem_cons_self, by decide⟩) (by decide)).append
    (.inr ⟨_, List.mem_cons_of_mem _ (List.mem_cons_of_mem _ List.mem_cons_self), by decide⟩)
    (by decide)

theorem getAncestor_exact_fork :
    TreeOrder nonceHash forkHeaders ∧ ∃ m, BlockMap.ofHeaders nonceHash forkHeaders = .ok m ∧
      ∀ b e, m.heap b = some e → m.heap.getAncestor b (-1) = .ok none := by
  refine ⟨treeOrder_forkHeaders, ?_⟩
  obtain ⟨m, hm, hexact⟩ := getAncestor_exact treeOrder_forkHeaders
  exact ⟨m, hm, fun b e he => (hexact b e he (-1)).1 (.inl (by decide))⟩

end Qbit
