import Qbit.Chain.BlockMap
import Qbit.Validation.Connect

/-!
# Assumed valid blocks and stripped witnesses

A node may have stripped the witnesses of old blocks.  Before it validates its chain again it asks,
in `CheckAssumeValidCoversWitnessPrunedHistory`, whether it will do without them, which is so where
scripts need not be checked: below the assumed valid block.

The check looks at the highest stripped block of the best header's chain only.
`checkAssumeValid_eq_none_iff` says what it finds out by that: all stripped blocks of the chain are
ancestors of the assumed valid block.  So none of them needs its witness (`checkAssumeValid_covers`).
-/

open Checked

namespace Qbit

open CBlockIndex

/-! ## The check -/

/-- What the check reads of `ChainstateManager`. -/
structure WitnessPrunedNode (hash256 : HashFn) where
  m_block_index : IndexTree hash256
  /-- `IsWitnessPruned` -/
  isWitnessPruned : Uint256 → Bool
  m_best_header : Option CBlockIndex
  best_header_indexed : ∀ p, m_best_header = some p → m_block_index.find p.hashBlock = some p
  /-- `AssumedValidBlock()` -/
  assumedValidBlock : Uint256
  /-- `MinimumChainWork()` -/
  minimumChainWork : Uint256
  params : Params

/-- The errors of `CheckAssumeValidCoversWitnessPrunedHistory`. -/
inductive CoverageError where
  | noAssumedValidBlock
  | noBestHeader
  | lowWork
  | unknownBlock
  | notOnBestChain
  | notCovered (hash : Uint256) (height : Int)
  deriving DecidableEq

/-- The texts of the errors. -/
def CoverageError.message (assumed_valid_block : Uint256) : CoverageError → String
  | noAssumedValidBlock =>
    "Cannot use -reindex-chainstate on a witness-pruned node without " ++
      "-assumevalid=<hash>. Without an assumed-valid checkpoint, historical " ++
      "script validation requires witness data that has been stripped. Pass " ++
      "-assumevalid=<block hash> to skip historical script validation, or " ++
      "delete the data directory and perform a fresh sync."
  | noBestHeader =>
    "Cannot use -reindex-chainstate on a witness-pruned node with " ++
      "-assumevalid=" ++ assumed_valid_block.toHex ++ " because no best header is loaded."
  | lowWork =>
    "Cannot use -reindex-chainstate on a witness-pruned node with " ++
      "-assumevalid=" ++ assumed_valid_block.toHex ++ " because the best header does not satisfy " ++
      "nMinimumChainWork."
  | unknownBlock =>
    "Cannot use -reindex-chainstate on a witness-pruned node with " ++
      "unknown -assumevalid block " ++ assumed_valid_block.toHex ++ ". Pass a block hash from the " ++
      "best-header chain that covers the witness-pruned range, or " ++
      "delete the data directory and perform a fresh sync."
  | notOnBestChain =>
    "Cannot use -reindex-chainstate on a witness-pruned node with " ++
      "-assumevalid=" ++ assumed_valid_block.toHex ++ " because that block is not on the best-header " ++
      "chain. Pass a block hash from the best-header chain that covers " ++
      "the witness-pruned range, or delete the data directory and " ++
      "perform a fresh sync."
  | notCovered hash height =>
    "Cannot use -reindex-chainstate on a witness-pruned node with " ++
      "-assumevalid=" ++ assumed_valid_block.toHex ++ " because it does not cover witness-pruned block " ++
      hash.toHex ++ " at height " ++ toString height ++ ". Pass an assumed-valid block on the " ++
      "best-header chain at or above height " ++ toString height ++ ", or delete the data directory " ++
      "and perform a fresh sync."

theorem sizeOf_pprev {p q : CBlockIndex} (h : p.pprev = some q) : sizeOf q < sizeOf p := by
  cases p
  cases h
  simp
  omega

/-- `p.GetAncestor(a.nHeight) == &a` -/
def CBlockIndex.leadsTo (p a : CBlockIndex) : Result Bool := do
  let r ← p.getAncestor a.nHeight
  return r.map hashBlock == some a.hashBlock

namespace WitnessPrunedNode

variable {hash256 : HashFn} (node : WitnessPrunedNode hash256)

/-- A block that has to be validated with its witness, which is gone. -/
def isStripped (index : CBlockIndex) : Bool :=
  node.isWitnessPruned index.hashBlock && requiresWitnessForPeerBlock node.params index

/-- The loop for `highest_witness_pruned`, from `index` down. -/
def highestWitnessPruned (index : CBlockIndex) : Option CBlockIndex :=
  if node.isStripped index then some index
  else match _h : index.pprev with
    | some pprev => highestWitnessPruned pprev
    | none => none
termination_by sizeOf index
decreasing_by exact sizeOf_pprev _h

/-- `CheckAssumeValidCoversWitnessPrunedHistory`: the error, if there is one. -/
def checkAssumeValid : Result (Option CoverageError) :=
  if node.assumedValidBlock = 0 then .ok (some .noAssumedValidBlock)
  else match node.m_best_header with
  | none => .ok (some .noBestHeader)
  | some best_header =>
    if best_header.nChainWork < node.minimumChainWork then .ok (some .lowWork)
    else match node.m_block_index.find node.assumedValidBlock with
    | none => .ok (some .unknownBlock)
    | some assumed_index => do
      let on_best_chain ← best_header.leadsTo assumed_index
      if !on_best_chain then return some .notOnBestChain
      match node.highestWitnessPruned best_header with
      | none => return none
      | some highest =>
        let covered ← assumed_index.leadsTo highest
        return if !covered then some (.notCovered highest.hashBlock highest.nHeight) else none

/-- What the node knows about its assumed valid block. -/
def assumeValid : AssumeValid where
  assumed := node.m_block_index.find node.assumedValidBlock
  m_best_header := node.m_best_header
  minimumChainWork := node.minimumChainWork

/-- `NeedsWitnessForValidation` -/
def needsWitnessForValidation (block_index : CBlockIndex) : Result Bool :=
  if !requiresWitnessForPeerBlock node.params block_index then .ok false
  else do
    let skip ← canSkipScriptChecks node.assumeValid block_index true
    return !skip

/-! ## The highest stripped block -/

variable {node} {p a b : CBlockIndex}

theorem highestWitnessPruned_eq (p : CBlockIndex) : node.highestWitnessPruned p =
    if node.isStripped p then some p else p.pprev.bind node.highestWitnessPruned := by
  rw [highestWitnessPruned]
  refine if_congr Iff.rfl rfl ?_
  split
  next h => rw [h]; rfl
  next h => rw [h]; rfl

/-- **The walk** stops at a stripped block, and every stripped block is that block or an ancestor of
it. -/
theorem highestWitnessPruned_spec (node : WitnessPrunedNode hash256) (hp : Built hash256 p) :
    (∀ a, node.highestWitnessPruned p = some a → Ancestor a p ∧ node.isStripped a = true) ∧
      ∀ b, Ancestor b p → node.isStripped b = true →
        ∃ a, node.highestWitnessPruned p = some a ∧ Ancestor b a := by
  induction hp with
  | root h =>
    rw [highestWitnessPruned_eq]
    split
    next hself =>
      refine ⟨?_, fun b hb _ => ⟨_, rfl, hb⟩⟩
      rintro _ ⟨⟩
      exact ⟨.refl _, hself⟩
    next hself =>
      refine ⟨fun a ha => (by cases ha), fun b hb hstripped => ?_⟩
      rw [ancestor_root.mp hb] at hstripped
      exact absurd hstripped hself
  | @child q hq h ih =>
    rw [highestWitnessPruned_eq]
    split
    next hself =>
      refine ⟨?_, fun b hb _ => ⟨_, rfl, hb⟩⟩
      rintro _ ⟨⟩
      exact ⟨.refl _, hself⟩
    next hself =>
    refine ⟨fun a ha => ?_, fun b hb hstripped => ?_⟩
    · obtain ⟨hanc, hstripped⟩ := ih.1 a ha
      exact ⟨.step rfl hanc, hstripped⟩
    · rcases ancestor_child.mp hb with rfl | hb
      · exact absurd hstripped hself
      · exact ih.2 b hb hstripped

/-! ## Ancestors -/

/-- **`GetAncestor` leads to a block** of the index if and only if that is an ancestor. -/
theorem leadsTo_spec {t : IndexTree hash256} (ha : t.find a.hashBlock = some a)
    (hp : t.find p.hashBlock = some p) :
    ∃ r, p.leadsTo a = .ok r ∧ (r = true ↔ Ancestor a p) := by
  have hbuilt := t.built hp
  have hnonneg := (t.built ha).linked.nHeight_nonneg
  by_cases hle : a.nHeight ≤ p.nHeight
  · obtain ⟨x, hx, hxp, hheight⟩ := hbuilt.getAncestor hnonneg hle
    refine ⟨x.hashBlock == a.hashBlock, by rw [leadsTo, hx]; rfl, ?_⟩
    rw [beq_iff_eq]
    constructor
    · intro hhash
      have hfind := t.find_ancestor hp hxp
      rw [hhash, ha] at hfind
      cases hfind
      exact hxp
    · intro hap
      rw [hbuilt.ancestor_unique hxp hap hheight]
  · refine ⟨false, ?_, fun h => (by cases h), fun hap => absurd (hbuilt.nHeight_le hap) hle⟩
    rw [leadsTo, CBlockIndex.getAncestor, if_pos (Or.inl (not_le.mp hle))]
    rfl

theorem leadsTo_of_ancestor {t : IndexTree hash256} (hp : t.find p.hashBlock = some p)
    (hap : Ancestor a p) : p.leadsTo a = .ok true := by
  obtain ⟨r, hr, htrue⟩ := leadsTo_spec (t.find_ancestor hp hap) hp
  rw [hr, htrue.mpr hap]

/-! ## What the check means -/

variable {assumed best_header : CBlockIndex}

/-- The assumed valid block covers the stripped blocks of the best header's chain. -/
structure Covers (node : WitnessPrunedNode hash256) (best_header assumed : CBlockIndex) : Prop where
  best_header_eq : node.m_best_header = some best_header
  work : ¬ best_header.nChainWork < node.minimumChainWork
  assumed_eq : node.m_block_index.find node.assumedValidBlock = some assumed
  on_best_chain : Ancestor assumed best_header
  covered : ∀ b, Ancestor b best_header → node.isStripped b = true → Ancestor b assumed

/-- **The check succeeds exactly if all stripped blocks of the chain are covered.** -/
theorem checkAssumeValid_eq_none_iff :
    node.checkAssumeValid = .ok none ↔
      node.assumedValidBlock ≠ 0 ∧ ∃ best_header assumed, node.Covers best_header assumed := by
  constructor
  · intro h
    rw [checkAssumeValid] at h
    split at h
    · cases h
    next hnull =>
    split at h
    · cases h
    next best_header hbest =>
    split at h
    · cases h
    next hwork =>
    split at h
    · cases h
    next assumed hassumed =>
    have hfound := node.best_header_indexed best_header hbest
    have hkeyed := node.m_block_index.keyed hassumed
    have hassumed' : node.m_block_index.find assumed.hashBlock = some assumed := by
      rw [hkeyed, hassumed]
    obtain ⟨hpruned, hlower⟩ := highestWitnessPruned_spec node (node.m_block_index.built hfound)
    obtain ⟨on_best_chain, hon, htrue⟩ := leadsTo_spec hassumed' hfound
    rw [hon, ok_bind] at h
    split at h
    · cases h
    next hon' =>
    have hancestor : Ancestor assumed best_header := htrue.mp (by simpa using hon')
    refine ⟨hnull, best_header, assumed, hbest, hwork, hassumed, hancestor, fun b hb hstripped => ?_⟩
    obtain ⟨highest, hhighest, hbelow⟩ := hlower b hb hstripped
    have hhighest' := node.m_block_index.find_ancestor hfound (hpruned highest hhighest).1
    obtain ⟨covered, hcovered, htrue⟩ := leadsTo_spec hhighest' hassumed'
    rw [hhighest] at h
    dsimp only at h
    rw [hcovered, ok_bind] at h
    cases covered with
    | false => cases h
    | true => exact hbelow.trans (htrue.mp rfl)
  · rintro ⟨hnull, best_header, assumed, hbest, hwork, hassumed, hancestor, hcovered⟩
    have hfound := node.best_header_indexed best_header hbest
    have hassumed' := node.m_block_index.find_ancestor hfound hancestor
    obtain ⟨hpruned, -⟩ := highestWitnessPruned_spec node (node.m_block_index.built hfound)
    rw [checkAssumeValid, if_neg hnull, hbest]
    dsimp only
    rw [if_neg hwork, hassumed]
    dsimp only
    rw [leadsTo_of_ancestor hfound hancestor, ok_bind, if_neg (by decide)]
    split
    · rfl
    next highest hhighest =>
      obtain ⟨hbelow, hstripped⟩ := hpruned highest hhighest
      rw [leadsTo_of_ancestor hassumed' (hcovered highest hbelow hstripped), ok_bind]
      rfl

theorem Covers.isAssumedValidAncestor {block : CBlockIndex} (h : node.Covers best_header assumed)
    (hblock : Ancestor block assumed) :
    Qbit.isAssumedValidAncestor node.assumeValid block = .ok true := by
  have hfound := node.best_header_indexed best_header h.best_header_eq
  have hassumed := leadsTo_of_ancestor (node.m_block_index.find_ancestor hfound h.on_best_chain)
    hblock
  have hbest := leadsTo_of_ancestor hfound (hblock.trans h.on_best_chain)
  obtain ⟨a, ha, hatrue⟩ := bind_eq_ok_iff.mp hassumed
  obtain ⟨b, hb, hbtrue⟩ := bind_eq_ok_iff.mp hbest
  rw [Qbit.isAssumedValidAncestor, assumeValid]
  rw [h.assumed_eq, h.best_header_eq]
  simp [h.work, ha, hb, Except.ok.inj hatrue, Except.ok.inj hbtrue]

/-- **No stripped witness is needed.**  If the check succeeds, then each block of the best header's
chain whose witness was stripped is assumed to be valid where it would have to be validated with its
witness, and none of them needs it. -/
theorem checkAssumeValid_covers (h : node.checkAssumeValid = .ok none)
    (hbest : node.m_best_header = some best_header) {block : CBlockIndex}
    (hblock : Ancestor block best_header) (hpruned : node.isWitnessPruned block.hashBlock = true) :
    (requiresWitnessForPeerBlock node.params block = true →
      Qbit.isAssumedValidAncestor node.assumeValid block = .ok true) ∧
      node.needsWitnessForValidation block = .ok false := by
  obtain ⟨-, best_header', assumed, hcovers⟩ := checkAssumeValid_eq_none_iff.mp h
  cases hbest.symm.trans hcovers.best_header_eq
  have hassumed (hrequires : requiresWitnessForPeerBlock node.params block = true) :
      Qbit.isAssumedValidAncestor node.assumeValid block = .ok true := by
    have hstripped : node.isStripped block = true := by
      rw [isStripped, hpruned, hrequires]
      rfl
    exact hcovers.isAssumedValidAncestor (hcovers.covered block hblock hstripped)
  refine ⟨hassumed, ?_⟩
  rw [needsWitnessForValidation]
  split
  · rfl
  next hrequires =>
    rw [canSkipScriptChecks, hassumed (by simpa using hrequires)]
    rfl

end WitnessPrunedNode

/-! ## Three blocks -/

/-- The headers of a chain of three blocks. -/
def chainHeader (nonce : UInt32) : CBlockHeader where
  hashPrevBlock := BitVec.ofNat 256 nonce.toNat
  nNonce := nonce
  nBits := 0x18109c29

def chainTree : IndexTree nonceHash :=
  let root := (IndexTree.empty nonceHash).insert (chainHeader 0) (by decide) rfl fun _ => rfl
  let child := root.insert (chainHeader 1) (by decide) rfl fun h => nomatch h
  child.insert (chainHeader 2) (by decide) rfl fun h => nomatch h

/-- A node that has stripped the first two of three blocks, and assumes the second to be valid. -/
def strippedNode : WitnessPrunedNode nonceHash where
  m_block_index := chainTree
  isWitnessPruned hash := hash == 1 || hash == 2
  m_best_header := chainTree.find 3
  best_header_indexed p h := by rw [chainTree.keyed h, h]
  assumedValidBlock := 2
  minimumChainWork := 0
  params := mainParams

/-- The check succeeds, and the first block does not need its witness. -/
theorem checkAssumeValid_covers_root :
    ∃ best_header root, strippedNode.m_best_header = some best_header ∧ Ancestor root best_header ∧
      strippedNode.isWitnessPruned root.hashBlock = true ∧
      isAssumedValidAncestor strippedNode.assumeValid root = .ok true ∧
      strippedNode.needsWitnessForValidation root = .ok false := by
  let root := addToBlockIndex nonceHash none (chainHeader 0)
  let child := addToBlockIndex nonceHash (some root) (chainHeader 1)
  let best_header := addToBlockIndex nonceHash (some child) (chainHeader 2)
  have hroot : Ancestor root child := .step rfl (.refl root)
  have hcovers : strippedNode.Covers best_header child := by
    refine ⟨rfl, by decide +kernel, rfl, .step rfl (.refl child), fun b hb hstripped => ?_⟩
    rcases ancestor_child.mp hb with rfl | hb
    · exact absurd hstripped (by decide +kernel)
    · exact hb
  have hcheck : strippedNode.checkAssumeValid = .ok none :=
    WitnessPrunedNode.checkAssumeValid_eq_none_iff.mpr ⟨by decide, best_header, child, hcovers⟩
  obtain ⟨hassumed, hneeds⟩ := WitnessPrunedNode.checkAssumeValid_covers hcheck rfl
    (hroot.trans hcovers.on_best_chain) (by decide +kernel)
  exact ⟨best_header, root, rfl, hroot.trans hcovers.on_best_chain, by decide +kernel,
    hassumed (by decide +kernel), hneeds⟩

end Qbit
