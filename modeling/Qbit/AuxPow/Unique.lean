import Qbit.AuxPow.Validate
import Qbit.Lib.Merkle

/-!
# One parent proof of work, one block

A miner who finds a parent block has done its work once.  Two payloads with the same parent header
that are both accepted, by the rules of one commitment mode and for one chain id, must then be for
the same block (`validate_unique`): otherwise the work would count twice.

The parent's Merkle root binds the coinbase, also between branches of different lengths since a
coinbase is not 64 bytes long.  The script in it fixes where the commitment stands and the length
and the slot of the chain branch, which binds the block's hash.
-/

open Bytes

namespace Qbit

open Merkle

namespace Auxpow

/-! ## Branches as paths -/

/-- The bytes of two hashes in a row. -/
def hashPair (x y : Uint256) : List UInt8 := serUint256 x ++ serUint256 y

/-- A branch with its index: each sibling and whether it stands on the left. -/
def branchPath : List Uint256 → UInt32 → List (Uint256 × Bool)
  | [], _ => []
  | sibling :: branch, index => (sibling, decide (index &&& 1 ≠ 0)) :: branchPath branch (index >>> 1)

theorem length_hashPair (x y : Uint256) : (hashPair x y).length = 64 := by
  simp [hashPair]

theorem pairInjective_hashPair : Merkle.PairInjective hashPair := by
  intro a b c d h
  obtain ⟨hac, hbd⟩ := List.append_inj h (by simp)
  exact ⟨serUint256_injective hac, serUint256_injective hbd⟩

/-- `CheckMerkleBranch` walks along the path. -/
theorem checkMerkleBranch_eq (hash256 : HashFn) (leaf : Uint256) (branch : List Uint256)
    (index : UInt32) :
    checkMerkleBranch hash256 leaf branch index =
      root hash256 hashPair leaf (branchPath branch index) := by
  induction branch generalizing leaf index with
  | nil => rfl
  | cons sibling branch ih =>
    rw [checkMerkleBranch, branchPath, root, ih, join]
    simp [apply_ite hash256, hashPair]

theorem length_of_mem_inputs {hash256 : HashFn} {leaf : Uint256} {path : List (Uint256 × Bool)}
    {x : List UInt8} (h : x ∈ inputs hash256 hashPair leaf path) : x.length = 64 := by
  induction path generalizing leaf with
  | nil => simp [inputs] at h
  | cons step path ih =>
    rcases List.mem_cons.mp h with rfl | h
    · rw [join]
      split_ifs <;> exact length_hashPair _ _
    · exact ih h

theorem map_snd_branchPath {branch branch' : List Uint256} (h : branch.length = branch'.length)
    (index : UInt32) :
    (branchPath branch index).map Prod.snd = (branchPath branch' index).map Prod.snd := by
  induction branch generalizing branch' index with
  | nil => rw [List.eq_nil_of_length_eq_zero h.symm]
  | cons s branch ih =>
    cases branch' with
    | nil => simp at h
    | cons s' branch' => simp [branchPath, ih (Nat.succ.inj h)]

/-- At index zero every sibling stands on the right, so a branch can be cut anywhere. -/
theorem branchPath_zero (branch : List Uint256) :
    branchPath branch 0 = branch.map fun s => (s, false) := by
  induction branch with
  | nil => rfl
  | cons s branch ih => exact congrArg _ ih

end Auxpow

/-! ## The coinbase -/

theorem CTransaction.exists_vin_of_isCoinBase {tx : CTransaction} (h : tx.isCoinBase = true) :
    ∃ i, tx.vin = [i] := by
  unfold isCoinBase at h
  split at h
  · exact ⟨_, by assumption⟩
  · cases h

theorem CTransaction.serialize_coinbase {tx : CTransaction} {i : CTxIn} (h : tx.vin = [i]) :
    ∃ rest, tx.serialize false =
      (serUint32 tx.version ++ [1] ++ i.prevout.serialize) ++ (i.scriptSig.serialize ++ rest) := by
  refine ⟨serUint32 i.nSequence ++ serVector CTxOut.serialize tx.vout ++ serUint32 tx.nLockTime, ?_⟩
  have hone : writeCompactSize 1 = [1] := by decide
  simp [serialize, h, serVector, hone, CTxIn.serialize]

/-- **The id of a coinbase binds its script.** -/
theorem CTransaction.coinbaseScript_eq {tx tx' : CTransaction} (h : tx.isCoinBase = true)
    (h' : tx'.isCoinBase = true) (hser : tx.serialize false = tx'.serialize false) :
    CAuxPow.coinbaseScript tx = CAuxPow.coinbaseScript tx' := by
  obtain ⟨i, hi⟩ := exists_vin_of_isCoinBase h
  obtain ⟨i', hi'⟩ := exists_vin_of_isCoinBase h'
  obtain ⟨rest, hrest⟩ := serialize_coinbase hi
  obtain ⟨rest', hrest'⟩ := serialize_coinbase hi'
  rw [hrest, hrest'] at hser
  obtain ⟨-, hscript⟩ := List.append_inj hser (by simp [COutPoint.length_serialize])
  rw [CAuxPow.coinbaseScript, CAuxPow.coinbaseScript, hi, hi']
  exact congrArg CScript.bytes (CScript.serialize_selfDelimiting hscript).1

/-! ## What acceptance means -/

namespace CAuxPow

open Auxpow

variable {hash256 : HashFn} {consensus : Params} {a b : CAuxPow} {aux_block_hash : Uint256}
  {target_bits : UInt32} {expected_chain_id : UInt16} {check_pow : Bool}
  {mode : CommitmentValidation} {script c : List UInt8}

theorem checkShape_eq_none (h : a.checkShape = none) :
    a.coinbase_branch_index = 0 ∧ a.chain_merkle_branch.length ≤ 30 := by
  unfold checkShape at h
  split_ifs at h with _ hzero _ hlength
  exact ⟨not_not.mp hzero, Nat.not_lt.mp hlength⟩

theorem checkCommitments_eq_none {check : List UInt8 → CommitmentVerdict}
    {commitments : List (List UInt8)} {error : Option ValidationError}
    (h : checkCommitments check commitments error = none) :
    ∃ c ∈ commitments, check c = .valid := by
  induction commitments generalizing error with
  | nil => cases error <;> cases h
  | cons c commitments ih =>
    rw [checkCommitments] at h
    cases hcheck : check c with
    | absent =>
      rw [hcheck] at h
      obtain ⟨d, hd, hvalid⟩ := ih h
      exact ⟨d, List.mem_cons_of_mem _ hd, hvalid⟩
    | invalid e =>
      rw [hcheck] at h
      obtain ⟨d, hd, hvalid⟩ := ih h
      exact ⟨d, List.mem_cons_of_mem _ hd, hvalid⟩
    | valid => exact ⟨c, List.mem_cons_self, hcheck⟩

theorem validate_eq_none
    (h : a.validate hash256 aux_block_hash consensus target_bits expected_chain_id check_pow mode =
      none) :
    ∃ tx, a.coinbase_tx = some tx ∧ tx.isCoinBase = true ∧ a.checkShape = none ∧
      checkMerkleBranch hash256 (tx.getHash hash256) a.coinbase_merkle_branch
        a.coinbase_branch_index.toUInt32 = a.parent_block.hashMerkleRoot ∧
      ∃ c ∈ commitmentsFor (checkMerkleBranch hash256 aux_block_hash a.chain_merkle_branch
          a.chain_index.toUInt32) mode,
        a.checkCommitment (coinbaseScript tx) expected_chain_id c = .valid := by
  unfold validate at h
  rcases htx : a.coinbase_tx with _ | tx
  · rw [htx] at h
    cases h
  cases hshape : a.checkShape with
  | some error =>
    simp only [htx, hshape] at h
    split_ifs at h
  | none =>
    simp only [htx, hshape] at h
    split_ifs at h with hcoinbase hroot hpow
    exact ⟨tx, rfl, by simpa using hcoinbase, rfl, not_not.mp hroot, checkCommitments_eq_none h⟩

/-- A commitment in a script with a merged mining header stands right behind it, and the size and
the nonce of the tree behind the commitment are right for the payload. -/
theorem checkCommitment_eq_valid (hheader : mergedMiningHeader <:+: script)
    (h : a.checkCommitment script expected_chain_id c = .valid) :
    ∃ header_it, search mergedMiningHeader script = some header_it ∧
      c <+: script.drop (header_it + mergedMiningHeader.length) ∧
      a.checkFooter expected_chain_id
        (script.drop (header_it + mergedMiningHeader.length + c.length)) = .valid := by
  obtain ⟨header_it, hheader_it⟩ := Option.isSome_iff_exists.mp (isSome_search hheader)
  unfold checkCommitment at h
  rcases hroot : search c script with _ | root_it
  · rw [hroot] at h
    cases h
  simp only [hroot, checkPosition, hheader_it] at h
  split_ifs at h with hsecond hbehind
  obtain rfl := not_not.mp hbehind
  exact ⟨header_it, hheader_it, search_eq_some hroot, h⟩

theorem checkFooter_eq_valid {footer : List UInt8}
    (h : a.checkFooter expected_chain_id footer = .valid) :
    readLE32 footer = 1 <<< UInt32.ofNat a.chain_merkle_branch.length ∧
    a.chain_index = getExpectedIndex (readLE32 (footer.drop 4)) expected_chain_id.toUInt32.toInt32
      a.chain_merkle_branch.length := by
  unfold checkFooter at h
  split_ifs at h with hroom
  simp only at h
  split_ifs at h with hsize hindex
  exact ⟨not_not.mp hsize, not_not.mp hindex⟩

/-! ## Uniqueness -/

/-- The payloads that the result is about: the coinbase is not 64 bytes long, so that it cannot be
taken for an inner node of a tree, and its script has a merged mining header. -/
def HasMergedMiningHeader (a : CAuxPow) : Prop :=
  ∀ tx, a.coinbase_tx = some tx →
    (tx.serialize false).length ≠ 64 ∧ mergedMiningHeader <:+: coinbaseScript tx

/-- The byte strings that are hashed when a payload is validated, the parent header apart. -/
def hashInputs (hash256 : HashFn) (a : CAuxPow) (aux_block_hash : Uint256) : List (List UInt8) :=
  match a.coinbase_tx with
  | none => []
  | some tx => tx.serialize false ::
      (inputs hash256 hashPair (tx.getHash hash256)
          (branchPath a.coinbase_merkle_branch a.coinbase_branch_index.toUInt32) ++
        inputs hash256 hashPair aux_block_hash
          (branchPath a.chain_merkle_branch a.chain_index.toUInt32))

theorem length_eq_of_mem_commitmentsFor {chain_root : Uint256}
    (h : c ∈ commitmentsFor chain_root mode) : c.length = 32 := by
  have hlen : (serUint256 chain_root).length = 32 := length_serUint256 _
  have hc : c = serUint256 chain_root ∨ c = (serUint256 chain_root).reverse := by
    cases mode with
    | EITHER =>
      rw [commitmentsFor] at h
      split_ifs at h
      · exact .inr (List.mem_singleton.mp h)
      · rcases List.mem_cons.mp h with h | h
        · exact .inr h
        · exact .inl (List.mem_singleton.mp h)
    | INTERNAL => exact .inl (List.mem_singleton.mp h)
    | DISPLAY => exact .inr (List.mem_singleton.mp h)
  rcases hc with rfl | rfl
  · exact hlen
  rfl

/-- In a single mode the commitment is a one-to-one function of the root. -/
theorem chainRoot_eq_of_mem_commitmentsFor (hmode : mode ≠ .EITHER) {root root' : Uint256}
    (h : c ∈ commitmentsFor root mode) (h' : c ∈ commitmentsFor root' mode) : root = root' := by
  cases mode with
  | EITHER => exact absurd rfl hmode
  | INTERNAL =>
    rw [commitmentsFor, List.mem_singleton] at h h'
    exact serUint256_injective (h.symm.trans h')
  | DISPLAY =>
    rw [commitmentsFor, List.mem_singleton] at h h'
    exact serUint256_injective (List.reverse_injective (h.symm.trans h'))

theorem one_shiftLeft_inj {m n : Nat} (hm : m ≤ 30) (hn : n ≤ 30)
    (h : (1 : UInt32) <<< UInt32.ofNat m = 1 <<< UInt32.ofNat n) : m = n := by
  have htoNat : ∀ k ≤ 30, ((1 : UInt32) <<< UInt32.ofNat k).toNat = 2 ^ k := by
    decide
  have hpow := congrArg UInt32.toNat h
  rw [htoNat m hm, htoNat n hn] at hpow
  exact Nat.pow_right_injective (le_refl 2) hpow

section Coinbase

variable {tx tx' : CTransaction} {branch branch' : List Uint256}

/-- The strings hashed for the coinbase and its branch. -/
def coinbaseInputs (hash256 : HashFn) (tx : CTransaction) (branch : List Uint256) :
    List (List UInt8) :=
  tx.serialize false ::
    inputs hash256 hashPair (tx.getHash hash256) (branchPath branch 0)

/-- A branch to the same root cannot be longer: the shorter one would start inside it. -/
theorem length_le_of_root_eq (htx : (tx.serialize false).length ≠ 64)
    (hfree : Merkle.NoCollision hash256 (coinbaseInputs hash256 tx branch)
      (coinbaseInputs hash256 tx' branch'))
    (hroot : checkMerkleBranch hash256 (tx.getHash hash256) branch 0 =
      checkMerkleBranch hash256 (tx'.getHash hash256) branch' 0) :
    branch'.length ≤ branch.length := by
  by_contra hlt
  have hsplit : branchPath branch' 0 =
      branchPath (branch'.take (branch'.length - branch.length)) 0 ++
        branchPath (branch'.drop (branch'.length - branch.length)) 0 := by simp [branchPath_zero]
  have hlower : branchPath (branch'.take (branch'.length - branch.length)) 0 ≠ [] := by
    intro hnil
    have hzero := congrArg List.length hnil
    rw [branchPath_zero, List.length_map, List.length_take, List.length_nil] at hzero
    omega
  have hupper : branch.length = (branch'.drop (branch'.length - branch.length)).length := by
    rw [List.length_drop]
    omega
  rw [checkMerkleBranch_eq, checkMerkleBranch_eq, hsplit] at hroot
  have hfree' : Merkle.NoCollision hash256
      (inputs hash256 hashPair (tx.getHash hash256) (branchPath branch 0))
      (inputs hash256 hashPair (tx'.getHash hash256) (branchPath branch' 0)) :=
    hfree.mono (fun _ => List.mem_cons_of_mem _) fun _ => List.mem_cons_of_mem _
  rw [hsplit] at hfree'
  obtain ⟨x, hx, hleaf⟩ := exists_input_of_suffix pairInjective_hashPair
    (map_snd_branchPath hupper 0) hlower hfree' hroot
  -- So the coinbase would be one of the pairs that are hashed along the longer branch.
  rw [← hsplit] at hx
  have hpair := hfree _ List.mem_cons_self x (List.mem_cons_of_mem _ hx) hleaf
  exact htx (hpair ▸ length_of_mem_inputs hx)

/-- **The parent's Merkle root binds the coinbase.** -/
theorem coinbase_eq_of_root_eq (htx : (tx.serialize false).length ≠ 64)
    (htx' : (tx'.serialize false).length ≠ 64)
    (hfree : Merkle.NoCollision hash256 (coinbaseInputs hash256 tx branch)
      (coinbaseInputs hash256 tx' branch'))
    (hroot : checkMerkleBranch hash256 (tx.getHash hash256) branch 0 =
      checkMerkleBranch hash256 (tx'.getHash hash256) branch' 0) :
    tx.serialize false = tx'.serialize false := by
  have hlength : branch.length = branch'.length :=
    Nat.le_antisymm (length_le_of_root_eq htx' hfree.symm hroot.symm)
      (length_le_of_root_eq htx hfree hroot)
  rw [checkMerkleBranch_eq, checkMerkleBranch_eq] at hroot
  have hleaf := leaf_eq_of_root_eq pairInjective_hashPair (map_snd_branchPath hlength 0)
    (hfree.mono (fun _ => List.mem_cons_of_mem _) fun _ => List.mem_cons_of_mem _) hroot
  exact hfree _ List.mem_cons_self _ List.mem_cons_self hleaf

end Coinbase

/-- **The script binds the commitment and the slot.**  Two payloads whose coinbases have the same
script, with a merged mining header, commit to the same root in the same place of trees of the same
height. -/
theorem commitment_eq (hmode : mode ≠ .EITHER) (hheader : mergedMiningHeader <:+: script)
    (ha : a.checkShape = none) (hb : b.checkShape = none) {root root' : Uint256} {c' : List UInt8}
    (hc : c ∈ commitmentsFor root mode) (hc' : c' ∈ commitmentsFor root' mode)
    (h : a.checkCommitment script expected_chain_id c = .valid)
    (h' : b.checkCommitment script expected_chain_id c' = .valid) :
    root = root' ∧ a.chain_merkle_branch.length = b.chain_merkle_branch.length ∧
      a.chain_index = b.chain_index := by
  obtain ⟨header_it, hit, hprefix, hfooter⟩ := checkCommitment_eq_valid hheader h
  obtain ⟨header_it', hit', hprefix', hfooter'⟩ := checkCommitment_eq_valid hheader h'
  obtain rfl : header_it = header_it' := Option.some.inj (hit.symm.trans hit')
  have hlen : c.length = c'.length := by
    rw [length_eq_of_mem_commitmentsFor hc, length_eq_of_mem_commitmentsFor hc']
  obtain rfl : c = c' :=
    (List.prefix_of_prefix_length_le hprefix hprefix' hlen.le).eq_of_length hlen
  obtain ⟨hsize, hindex⟩ := checkFooter_eq_valid hfooter
  obtain ⟨hsize', hindex'⟩ := checkFooter_eq_valid hfooter'
  have hheight : a.chain_merkle_branch.length = b.chain_merkle_branch.length :=
    one_shiftLeft_inj (checkShape_eq_none ha).2 (checkShape_eq_none hb).2 (hsize.symm.trans hsize')
  refine ⟨chainRoot_eq_of_mem_commitmentsFor hmode hc hc', hheight, ?_⟩
  rw [hindex, hindex', hheight]

/-- **One parent proof of work secures at most one block.**  Two payloads with the same parent header
that are accepted in the same mode for the same chain id are for the same block, if no two of the
strings hashed in the two validations collide. -/
theorem validate_unique (hmode : mode ≠ .EITHER) {auxA auxB : Uint256} {bitsA bitsB : UInt32}
    {powA powB : Bool} (hparent : a.parent_block = b.parent_block)
    (ha : a.HasMergedMiningHeader) (hb : b.HasMergedMiningHeader)
    (hfree : Merkle.NoCollision hash256 (a.hashInputs hash256 auxA) (b.hashInputs hash256 auxB))
    (hA : a.validate hash256 auxA consensus bitsA expected_chain_id powA mode = none)
    (hB : b.validate hash256 auxB consensus bitsB expected_chain_id powB mode = none) :
    auxA = auxB := by
  obtain ⟨tx, htx, hcoinbase, hshape, hroot, c, hc, hvalid⟩ := validate_eq_none hA
  obtain ⟨tx', htx', hcoinbase', hshape', hroot', c', hc', hvalid'⟩ := validate_eq_none hB
  have hzero := (checkShape_eq_none hshape).1
  have hzero' := (checkShape_eq_none hshape').1
  rw [hashInputs, hashInputs, htx, htx', hzero, hzero'] at hfree
  rw [hzero] at hroot
  rw [hzero'] at hroot'
  -- The coinbases have the same bytes, so they have the same script.
  have hser : tx.serialize false = tx'.serialize false := by
    refine coinbase_eq_of_root_eq (ha tx htx).1 (hb tx' htx').1 (hfree.mono ?_ ?_)
      (hroot.trans (hparent ▸ hroot'.symm)) <;>
    · intro x hx
      rcases List.mem_cons.mp hx with rfl | hx
      · exact List.mem_cons_self
      · exact List.mem_cons_of_mem _ (List.mem_append_left _ hx)
  have hscript := CTransaction.coinbaseScript_eq hcoinbase hcoinbase' hser
  rw [← hscript] at hvalid'
  obtain ⟨hchain, hheight, hindex⟩ :=
    commitment_eq hmode (ha tx htx).2 hshape hshape' hc hc' hvalid hvalid'
  rw [checkMerkleBranch_eq, checkMerkleBranch_eq, ← hindex] at hchain
  rw [← hindex] at hfree
  exact leaf_eq_of_root_eq pairInjective_hashPair (map_snd_branchPath hheight _)
    (hfree.mono (fun _ hx => List.mem_cons_of_mem _ (List.mem_append_right _ hx))
      fun _ hx => List.mem_cons_of_mem _ (List.mem_append_right _ hx)) hchain

/-- A parent coinbase that commits to a tree of two blocks, and may carry a witness. -/
def sampleCoinbase (witness : List (List UInt8)) : CTransaction where
  vin := [{
    prevout := {}
    scriptSig := {
      bytes := mergedMiningHeader ++
        serUint256 0xdcc4de863e5556d92fe0bf3869e66702529bd2053602481bb304b9abdd217562 ++
        serUint32 2 ++ serUint32 7 }
    scriptWitness := witness }]
  vout := [{ nValue := 0 }]

/-- A payload with this coinbase. -/
def samplePayload (witness : List (List UInt8)) : CAuxPow where
  coinbase_tx := some (sampleCoinbase witness)
  coinbase_merkle_branch := [2]
  chain_merkle_branch := [1]
  parent_block := {
    nVersion := 0x20000000
    hashMerkleRoot := 0xce742dea8abc34467a5411dc418cea75e37666ca0ea9c482e1f9ba7b0da50362
    nTime := 1784131200
    nBits := 0x207fffff
    nNonce := 1 }

/-- The strings that are hashed for the block and the payload, with their hashes. -/
def samplePayloadHash : HashFn :=
  tableHash [
    (mainHeader1.serializePure, mainHeader1Hash),
    ((sampleCoinbase []).serialize false,
      0xed2ceaeb5cdc2697e8251b59abe107ee5618bb07b4593fa17480e05e2ae8241e),
    (hashPair 0xed2ceaeb5cdc2697e8251b59abe107ee5618bb07b4593fa17480e05e2ae8241e 2,
      0xce742dea8abc34467a5411dc418cea75e37666ca0ea9c482e1f9ba7b0da50362),
    (hashPair mainHeader1Hash 1,
      0xdcc4de863e5556d92fe0bf3869e66702529bd2053602481bb304b9abdd217562),
    ((samplePayload []).parent_block.serializePure,
      0x3dfdebbc1b948fd4307e43df7c1cbc3019ae8a65f53906a367841a9e6df49760)]

/-- Parameters with the lowest difficulty. -/
def easyParams : Params :=
  { mainParams with powLimit := BitVec.ofNat 256 (2 ^ 255 - 1) }

/-- The witness of the coinbase is not committed to, so another witness makes another payload, and
it is one for the same block. -/
theorem validate_unique_witness :
    (samplePayload []).validate samplePayloadHash mainHeader1Hash easyParams 0x207fffff 47 true
      .INTERNAL = none ∧
    (samplePayload [[1]]).validate samplePayloadHash (mainHeader1.getHash samplePayloadHash)
      easyParams 0x207fffff 47 true .INTERNAL = none ∧
    samplePayload [] ≠ samplePayload [[1]] ∧
    mainHeader1Hash = mainHeader1.getHash samplePayloadHash := by
  have hA : (samplePayload []).validate samplePayloadHash mainHeader1Hash easyParams 0x207fffff
      47 true .INTERNAL = none := by decide +kernel
  have hB : (samplePayload [[1]]).validate samplePayloadHash (mainHeader1.getHash samplePayloadHash)
      easyParams 0x207fffff 47 true .INTERNAL = none := by decide +kernel
  refine ⟨hA, hB, by decide +kernel, ?_⟩
  refine validate_unique (by decide) rfl ?_ ?_ ?_ hA hB
  · rintro tx ⟨⟩
    exact ⟨by decide +kernel, by decide +kernel⟩
  · rintro tx ⟨⟩
    exact ⟨by decide +kernel, by decide +kernel⟩
  · unfold Merkle.NoCollision
    decide +kernel

end CAuxPow

end Qbit
