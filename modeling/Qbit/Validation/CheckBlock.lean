import Qbit.AuxPow.Validate
import Qbit.Consensus.TxVerify
import Qbit.Pow.NextWork
import Qbit.Validation.Signet

/-!
# Checks of a block

The checks of `validation.cpp` that need no coins: `CheckBlock`, which needs no context at all, and
`ContextualCheckBlockHeader` and `ContextualCheckBlock`, which look at the block's ancestors.

A block remembers in the source that it has passed `CheckBlock`, that its Merkle root was right and
that its witness commitment was.  These marks only save a second look at the same data, and are left
out.
-/

open Bytes Checked

namespace Qbit

/-! ## Activation heights -/

/-- The height of the block after `pindexPrev`. -/
def heightAfter (pindexPrev : Option CBlockIndex) : Int :=
  match pindexPrev with
  | none => 0
  | some pprev => pprev.nHeight + 1

/-- `DeploymentActiveAfter`, on the height of the deployment. -/
def deploymentActiveAfter (pindexPrev : Option CBlockIndex) (deploymentHeight : Int) : Bool :=
  decide (deploymentHeight ≤ heightAfter pindexPrev)

/-- `DeploymentActiveAt`, on the height of the deployment. -/
def deploymentActiveAt (index : CBlockIndex) (deploymentHeight : Int) : Bool :=
  decide (deploymentHeight ≤ index.nHeight)

/-! ## Without context -/

/-- `CheckBlockHeader` -/
def checkBlockHeader (C : Crypto) (block : CBlockHeader) (params : Params) (fCheckPOW : Bool) :
    BlockCheck Unit :=
  match Auxpow.validate C.hash256 block params fCheckPOW .EITHER with
  | some error => invalid .invalidHeader error.reject_reason
  | none => .ok ()

/-- `CheckMerkleRoot` -/
def checkMerkleRoot (C : Crypto) (block : CBlock) : BlockCheck Unit := do
  let (merkle_root, mutated) := blockMerkleRoot C.hash256 block
  rejectIf (block.hashMerkleRoot != merkle_root) .mutated "bad-txnmrklroot"
  rejectIf mutated .mutated "bad-txns-duplicate"

/-- `CheckBlockWeight` -/
def checkBlockWeight (block : CBlock) : BlockCheck Unit := do
  let weight ← liftFault (getBlockWeight block)
  rejectIf (decide (maxBlockWeight < weight)) .consensus "bad-blk-weight"

/-- A transaction's failure, as a failure of the block that it is in. -/
def liftTx {α : Type} : TxCheck α → BlockCheck α
  | .ok a => .ok a
  | .error (.invalid _ reject_reason) => invalid .consensus reject_reason
  | .error (.error reject_reason) => .error (.error reject_reason)
  | .error (.fault f) => .error (.fault f)
  | .error (.scriptFault f) => .error (.scriptFault f)

/-- The loop of `CheckBlock` over the transactions. -/
def checkTransactions : List CTransaction → BlockCheck Unit
  | [] => .ok ()
  | tx :: vtx => do
    liftTx (checkTransaction tx)
    checkTransactions vtx

/-- `CheckBlock` -/
def checkBlock (C : Crypto) (params : Params) (block : CBlock) (fCheckPOW fCheckMerkleRoot : Bool) :
    BlockCheck Unit := do
  checkBlockHeader C block.toCBlockHeader params fCheckPOW
  let solved ← (if params.signet_blocks && fCheckPOW then checkSignetBlockSolution C block params
    else return true)
  rejectIf (!solved) .consensus "bad-signet-blksig"
  (if fCheckMerkleRoot then checkMerkleRoot C block else return ())
  rejectIf (block.vtx.isEmpty || decide (maxBlockWeight < block.vtx.length * witnessScaleFactor))
    .consensus "bad-blk-length"
  let stripped ← liftFault (block.getSerializeSize false)
  rejectIf (decide (maxBlockWeight < stripped * witnessScaleFactor)) .consensus "bad-blk-length"
  rejectIf (!(block.vtx.head?.any CTransaction.isCoinBase)) .consensus "bad-cb-missing"
  rejectIf (block.vtx.tail.any CTransaction.isCoinBase) .consensus "bad-cb-multiple"
  checkTransactions block.vtx
  let nSigOps := (block.vtx.map getLegacySigOpCount).sum
  rejectIf (decide (maxBlockSigopsCost < nSigOps * witnessScaleFactor)) .consensus "bad-blk-sigops"

/-! ## With the ancestors -/

/-- `MAX_TIMEWARP` -/
def maxTimewarp : Int := 60

/-- `GetMaxFutureBlockTime` -/
def getMaxFutureBlockTime (params : Params) (height : Int) : Int :=
  if params.futureBlockTimeV2ActiveAtHeight height then 10 * 60 else 2 * 60 * 60

/-- `%08x` -/
def hex8 (n : UInt32) : String :=
  let digits := Nat.toDigits 16 n.toNat
  String.ofList (List.replicate (8 - digits.length) '0' ++ digits)

/-- `ContextualCheckBlockHeader`; `now` is the node's clock, in seconds. -/
def contextualCheckBlockHeader (C : Crypto) (params : Params) (now : Int) (block : CBlockHeader)
    (pindexPrev : CBlockIndex) : BlockCheck Unit := do
  let nHeight := pindexPrev.nHeight + 1
  let version := hex8 block.nVersion.toUInt32
  let required ← liftFault (getNextWorkRequired pindexPrev (some block) params)
  rejectIf (block.nBits != required) .invalidHeader "bad-diffbits"
  rejectIf (decide (block.getBlockTime ≤ pindexPrev.getMedianTimePast)) .invalidHeader "time-too-old"
  rejectIf (params.enforce_BIP94 && !params.fPowUseASERT &&
      nHeight.tmod params.difficultyAdjustmentInterval == 0 &&
      decide (block.getBlockTime < pindexPrev.getBlockTime - maxTimewarp))
    .invalidHeader "time-timewarp-attack"
  rejectIf (decide (now + getMaxFutureBlockTime params nHeight < block.getBlockTime)) .timeFuture
    "time-too-new"
  rejectIf (decide (block.nVersion < 2) && deploymentActiveAfter pindexPrev params.BIP34Height ||
      decide (block.nVersion < 3) && deploymentActiveAfter pindexPrev params.BIP66Height ||
      decide (block.nVersion < 4) && deploymentActiveAfter pindexPrev params.BIP65Height)
    .invalidHeader ("bad-version(0x" ++ version ++ ")")
  let cadence_active := params.cadenceActiveAtHeight nHeight
  rejectIf (!cadence_active && block.signalsAuxpow) .invalidHeader "bad-cadence-inactive"
  rejectIf (cadence_active && !hasCanonicalVersionLayout block.nVersion) .invalidHeader
    ("bad-version-topbits(0x" ++ version ++ ")")
  rejectIf (cadence_active && hasBIP9TopBitsShape block.nVersion && block.hasReservedVersionBits)
    .invalidHeader ("bad-version-reserved(0x" ++ version ++ ")")
  if block.signalsAuxpow then
    match Auxpow.validate C.hash256 block params false
        (Auxpow.commitmentValidationForHeight params nHeight) with
    | some error => invalid .invalidHeader error.reject_reason
    | none => .ok ()
  else .ok ()

/-- `CheckWitnessMalleation` -/
def checkWitnessMalleation (C : Crypto) (block : CBlock)
    (expect_witness_commitment allow_stripped : Bool) : BlockCheck Unit :=
  match (if expect_witness_commitment then getWitnessCommitmentIndex block else none) with
  | some commitpos =>
    if allow_stripped && !hasAnyWitnessData block then .ok ()
    else match block.vtx with
    | { vin := txin :: _, vout, .. } :: _ =>
      match txin.scriptWitness with
      | [nonce] => do
        rejectIf (nonce.length != 32) .mutated "bad-witness-nonce-size"
        let hash_witness :=
          C.hash256 (serUint256 (blockWitnessMerkleRoot C.hash256 block) ++ nonce)
        let committed := ((vout[commitpos]?).map fun out =>
          (out.scriptPubKey.bytes.drop 6).take 32).getD []
        rejectIf (serUint256 hash_witness != committed) .mutated "bad-witness-merkle-match"
      | _ => invalid .mutated "bad-witness-nonce-size"
    | _ => .error (.fault .assertion)
  | none => rejectIf (hasAnyWitnessData block) .mutated "unexpected-witness"

/-- `RequiresWitnessForPeerBlock` -/
def requiresWitnessForPeerBlock (params : Params) (block_index : CBlockIndex) : Bool :=
  deploymentActiveAt block_index params.SegwitHeight

/-- `ContextualCheckBlock` -/
def contextualCheckBlock (C : Crypto) (params : Params) (block : CBlock)
    (pindexPrev : Option CBlockIndex) (pindex : Option CBlockIndex) (requested_stripped : Bool) :
    BlockCheck Unit := do
  let nHeight := heightAfter pindexPrev
  let nLockTimeCutoff ← (if deploymentActiveAfter pindexPrev params.CSVHeight then
      match pindexPrev with
      | none => .error (.fault .assertion)
      | some pprev => .ok pprev.getMedianTimePast
    else .ok block.getBlockTime)
  rejectIf (block.vtx.any fun tx => !isFinalTx tx nHeight nLockTimeCutoff) .consensus
    "bad-txns-nonfinal"
  let expect := pushInt64 nHeight
  let scriptSig := ((block.vtx.head?.bind fun tx => tx.vin.head?).map fun txin =>
    txin.scriptSig.bytes).getD []
  rejectIf (deploymentActiveAfter pindexPrev params.BIP34Height && !expect.isPrefixOf scriptSig)
    .consensus "bad-cb-height"
  let requires := pindex.map (requiresWitnessForPeerBlock params)
  rejectIf (requested_stripped && requires == some true && !hasAnyWitnessData block) .mutated
    "bad-blk-missing-witness"
  checkWitnessMalleation C block (deploymentActiveAfter pindexPrev params.SegwitHeight)
    (requested_stripped && requires == some false)
  checkBlockWeight block

end Qbit
