import Qbit.Pow.Compact

/-!
# Validation of AuxPoW payloads

`auxpow.cpp` and `auxpow_validation.cpp`: a block of the AuxPoW lane carries a parent header whose
work counts for it, the parent's coinbase with the branch to the parent's Merkle root, and a branch
from the block's hash to a root that the coinbase script commits to.

A function that returns an optional error returns `none` here when it accepts.
-/

open Bytes

namespace Qbit

namespace Auxpow

/-- `MAX_CHAIN_MERKLE_BRANCH_LENGTH` -/
def maxChainMerkleBranchLength : Nat := 30

/-- `LEGACY_COMMITMENT_START_LIMIT` -/
def legacyCommitmentStartLimit : Nat := 20

/-- `MERGED_MINING_HEADER` -/
def mergedMiningHeader : List UInt8 := [0xfa, 0xbe, 0x6d, 0x6d]

/-- `auxpow::ValidationError` -/
structure ValidationError where
  reject_reason : String
  debug_message : String
  deriving DecidableEq

/-- `auxpow::CommitmentValidation` -/
inductive CommitmentValidation where
  | EITHER
  | INTERNAL
  | DISPLAY
  deriving DecidableEq

/-- `CommitmentValidationForHeight` -/
def commitmentValidationForHeight (consensus : Params) (height : Int) : CommitmentValidation :=
  if consensus.auxpowDisplayCommitmentActiveAtHeight height then .DISPLAY else .INTERNAL

/-! ## Slots and branches -/

/-- `AdvanceSlotLcg` -/
def advanceSlotLcg (value : UInt32) : UInt32 :=
  ((value.toUInt64 * 1103515245 + 12345) &&& 0xffffffff).toUInt32

/-- `GetExpectedIndex` -/
def getExpectedIndex (nonce : UInt32) (chain_id : Int32) (merkle_height : Nat) : Int32 :=
  let rand := advanceSlotLcg nonce
  let rand := ((rand.toUInt64 + chain_id.toUInt32.toUInt64) &&& 0xffffffff).toUInt32
  let rand := advanceSlotLcg rand
  if 32 ≤ merkle_height then rand.toInt32
  else (rand &&& ((1 <<< UInt32.ofNat merkle_height) - 1)).toInt32

/-- `CheckMerkleBranch` -/
def checkMerkleBranch (hash256 : HashFn) : Uint256 → List Uint256 → UInt32 → Uint256
  | hash, [], _ => hash
  | hash, sibling :: branch, index =>
    checkMerkleBranch hash256
      (if index &&& 1 ≠ 0 then hash256 (serUint256 sibling ++ serUint256 hash)
        else hash256 (serUint256 hash ++ serUint256 sibling))
      branch (index >>> 1)

/-! ## Commitments in the coinbase script -/

/-- `ReadLE32` -/
def readLE32 (bs : List UInt8) : UInt32 := UInt32.ofNat (ofLE (bs.take 4))

/-- What one round of the loop over the possible commitments ends with. -/
inductive CommitmentVerdict where
  /-- The commitment is not in the script. -/
  | absent
  | invalid (error : ValidationError)
  | valid

/-- Where the commitment may stand: right after the only merged mining header, or near the start
if there is none. -/
def checkPosition (script_sig : List UInt8) (root_it : Nat) : Option ValidationError :=
  match search mergedMiningHeader script_sig with
  | some header_it =>
    if (search mergedMiningHeader (script_sig.drop (header_it + 1))).isSome then
      some ⟨"bad-auxpow-commitment",
        "auxpow parent coinbase contains multiple merged mining headers"⟩
    else if header_it + mergedMiningHeader.length ≠ root_it then
      some ⟨"bad-auxpow-commitment", "auxpow merged mining header must be immediately " ++
        "followed by the committed chain merkle root"⟩
    else none
  | none =>
    if legacyCommitmentStartLimit < root_it then
      some ⟨"bad-auxpow-commitment",
        "auxpow chain merkle root appears too deep in the parent coinbase scriptSig"⟩
    else none

end Auxpow

namespace CAuxPow

open Auxpow

/-- The tree size and the nonce behind the commitment. -/
def checkFooter (a : CAuxPow) (expected_chain_id : UInt16) (footer : List UInt8) :
    CommitmentVerdict :=
  if footer.length < 8 then
    .invalid ⟨"bad-auxpow-commitment",
      "auxpow commitment is missing merkle size or nonce footer"⟩
  else
    let merkle_size := readLE32 footer
    let nonce := readLE32 (footer.drop 4)
    let expected_size : UInt32 := 1 <<< UInt32.ofNat a.chain_merkle_branch.length
    if merkle_size ≠ expected_size then
      .invalid ⟨"bad-auxpow-merkle-size",
        "auxpow merkle size=" ++ toString merkle_size ++ " expected=" ++ toString expected_size⟩
    else
      let expected_index := getExpectedIndex nonce expected_chain_id.toUInt32.toInt32
        a.chain_merkle_branch.length
      if a.chain_index ≠ expected_index then
        .invalid ⟨"bad-auxpow-chain-index",
          "auxpow chain index=" ++ toString a.chain_index ++ " expected=" ++
            toString expected_index ++ " for chainid=" ++ toString expected_chain_id ++
            " nonce=" ++ toString nonce⟩
      else .valid

/-- One round of the loop over the possible commitments. -/
def checkCommitment (a : CAuxPow) (script_sig : List UInt8) (expected_chain_id : UInt16)
    (chain_root_commitment : List UInt8) : CommitmentVerdict :=
  match search chain_root_commitment script_sig with
  | none => .absent
  | some root_it =>
    match checkPosition script_sig root_it with
    | some error => .invalid error
    | none => a.checkFooter expected_chain_id
        (script_sig.drop (root_it + chain_root_commitment.length))

/-- The loop.  A later error replaces an earlier one. -/
def checkCommitments (check : List UInt8 → CommitmentVerdict) :
    List (List UInt8) → Option ValidationError → Option ValidationError
  | [], some commitment_error => some commitment_error
  | [], none => some ⟨"bad-auxpow-commitment",
      "auxpow chain merkle root missing from parent coinbase scriptSig"⟩
  | c :: commitments, commitment_error =>
    match check c with
    | .absent => checkCommitments check commitments commitment_error
    | .invalid error => checkCommitments check commitments (some error)
    | .valid => none

/-- The commitments that are looked for, in this order. -/
def commitmentsFor (chain_root : Uint256) : CommitmentValidation → List (List UInt8)
  | .INTERNAL => [serUint256 chain_root]
  | .DISPLAY => [(serUint256 chain_root).reverse]
  | .EITHER =>
    if serUint256 chain_root = (serUint256 chain_root).reverse then
      [(serUint256 chain_root).reverse]
    else [(serUint256 chain_root).reverse, serUint256 chain_root]

/-- The script that the commitment is looked for in; a coinbase has exactly one input. -/
def coinbaseScript (tx : CTransaction) : List UInt8 :=
  match tx.vin with
  | [] => []
  | i :: _ => i.scriptSig.bytes

/-- The checks on the shape of a payload. -/
def checkShape (a : CAuxPow) : Option ValidationError :=
  if a.coinbase_branch_index < 0 then
    some ⟨"bad-auxpow-coinbase-index", "auxpow coinbase merkle branch index is negative"⟩
  else if a.coinbase_branch_index ≠ 0 then
    some ⟨"bad-auxpow-coinbase-index", "auxpow coinbase merkle branch index=" ++
      toString a.coinbase_branch_index ++ " expected=0"⟩
  else if a.chain_index < 0 then
    some ⟨"bad-auxpow-chain-index", "auxpow chain merkle branch index is negative"⟩
  else if maxChainMerkleBranchLength < a.chain_merkle_branch.length then
    some ⟨"bad-auxpow-chain-branch-size", "auxpow chain merkle branch height=" ++
      toString a.chain_merkle_branch.length ++ " exceeds limit=" ++
      toString maxChainMerkleBranchLength⟩
  else if 32 ≤ a.coinbase_merkle_branch.length then
    some ⟨"bad-auxpow-coinbase-branch-size",
      "auxpow coinbase merkle branch height overflows index range"⟩
  else if a.coinbase_branch_index.toUInt32 >>> UInt32.ofNat a.coinbase_merkle_branch.length ≠ 0 then
    some ⟨"bad-auxpow-coinbase-index", "auxpow coinbase merkle branch index exceeds tree width"⟩
  else if a.chain_index.toUInt32 >>> UInt32.ofNat a.chain_merkle_branch.length ≠ 0 then
    some ⟨"bad-auxpow-chain-index", "auxpow chain merkle branch index exceeds tree width"⟩
  else none

/-- `CAuxPow::Validate` -/
def validate (hash256 : HashFn) (a : CAuxPow) (aux_block_hash : Uint256) (consensus : Params)
    (target_bits : UInt32) (expected_chain_id : UInt16) (check_pow : Bool)
    (commitment_validation : CommitmentValidation) : Option ValidationError :=
  match a.coinbase_tx with
  | none =>
    some ⟨"bad-auxpow-coinbase", "auxpow payload coinbase transaction missing or invalid"⟩
  | some coinbase_tx =>
    if !coinbase_tx.isCoinBase then
      some ⟨"bad-auxpow-coinbase", "auxpow payload coinbase transaction missing or invalid"⟩
    else match a.checkShape with
    | some error => some error
    | none =>
      let coinbase_root := checkMerkleBranch hash256 (coinbase_tx.getHash hash256)
        a.coinbase_merkle_branch a.coinbase_branch_index.toUInt32
      if coinbase_root ≠ a.parent_block.hashMerkleRoot then
        some ⟨"bad-auxpow-coinbase-branch",
          "auxpow coinbase merkle branch does not match parent block merkle root"⟩
      else if check_pow &&
          !checkProofOfWork (a.getParentBlockHash hash256) target_bits consensus then
        some ⟨"bad-auxpow-parent-hash", "auxpow parent header does not satisfy the qbit target"⟩
      else
        let chain_root := checkMerkleBranch hash256 aux_block_hash a.chain_merkle_branch
          a.chain_index.toUInt32
        checkCommitments (a.checkCommitment (coinbaseScript coinbase_tx) expected_chain_id)
          (commitmentsFor chain_root commitment_validation) none

end CAuxPow

/-- `auxpow::Validate` -/
def Auxpow.validate (hash256 : HashFn) (block : CBlockHeader) (consensus : Params)
    (check_pow : Bool) (commitment_validation : CommitmentValidation) :
    Option ValidationError :=
  if !block.signalsAuxpow then
    if block.hasAuxpow then
      some ⟨"bad-auxpow-unexpected-payload",
        "permissionless block includes an unexpected auxpow payload"⟩
    else if check_pow && !checkProofOfWork (block.getHash hash256) block.nBits consensus then
      some ⟨"high-hash", "proof of work failed"⟩
    else none
  else
    let expected_chain_id := UInt16.ofInt consensus.nAuxpowChainId
    if block.getChainId ≠ expected_chain_id then
      some ⟨"bad-auxpow-chainid", "rejected auxpow chainid=" ++ toString block.getChainId ++
        " expected=" ++ toString expected_chain_id⟩
    else match block.auxpow with
    | none =>
      some ⟨"bad-auxpow-missing-payload", "auxpow version is missing the auxpow payload"⟩
    | some a => a.validate hash256 (block.getHash hash256) consensus block.nBits expected_chain_id
        check_pow commitment_validation

end Qbit
