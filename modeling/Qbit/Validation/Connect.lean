import Qbit.Script.BlockBudget
import Qbit.Validation.CheckBlock

/-!
# Connecting a block

`Chainstate::ConnectBlock` and what it rests on: the script checks of a transaction, the flags that a
block's scripts are checked with, the rule for skipping these checks below an assumed valid block, and
`UpdateCoins`.

The scripts are checked one after another, as in a node without script check threads.
-/

open Checked

namespace Qbit

/-! ## Scripts -/

/-- `GetBlockScriptFlags`.  No network of the source has `script_flag_exceptions`. -/
def getBlockScriptFlags (params : Params) (block_index : CBlockIndex) : VerifyFlags :=
  let active (flag : VerifyFlag) (height : Int) : VerifyFlags :=
    if deploymentActiveAt block_index height then {flag} else ∅
  {.p2sh, .witness, .taproot} ∪ active .p2mrRules params.P2MRHeight ∪
    (if params.P2MRHeight ≤ block_index.nHeight ∧
        !params.p2mrValidationWeightV2ActiveAtHeight block_index.nHeight then
      {.p2mrLegacyValidationWeight} else ∅) ∪
    active .dersig params.BIP66Height ∪ active .checklocktimeverify params.BIP65Height ∪
    active .checksequenceverify params.CSVHeight ∪ active .nulldummy params.SegwitHeight

/-- The outputs that the inputs of a transaction spend, which are asserted to be there. -/
def spentOutputs (inputs : CCoinsView) : List CTxIn → Result (List CTxOut)
  | [] => .ok []
  | txin :: vin => do
    let coin := inputs.accessCoin txin.prevout
    require (coin.isSpent = false)
    let rest ← spentOutputs inputs vin
    return coin.out :: rest

/-- The loop of `CheckInputScripts`. -/
def checkScripts (C : Crypto) (flags : VerifyFlags) : List SpendingInput → BlockCheck Unit
  | [] => .ok ()
  | i :: rest =>
    match i.check C flags with
    | .ok _ => checkScripts C flags rest
    | .error (.invalid serror) =>
      invalid .consensus ("block-script-verify-flag-failed (" ++ scriptErrorString serror ++ ")")
    | .error (.fault f) => .error (.scriptFault f)

/-- `CheckInputScripts`, with the flags of a block. -/
def checkInputScripts (C : Crypto) (tx : CTransaction) (inputs : CCoinsView) (flags : VerifyFlags) :
    BlockCheck Unit :=
  if tx.isCoinBase then .ok ()
  else do
    let spent_outputs ← liftFault (spentOutputs inputs tx.vin)
    checkScripts C flags (spendingInputs tx spent_outputs)

/-! ## Assumed valid blocks -/

/-- `ASSUMEVALID_WORK_RATE_WINDOW` -/
def assumevalidWorkRateWindow : Nat := 120

/-- `ASSUMEVALID_BURIAL_SECONDS` -/
def assumevalidBurialSeconds : Nat := 60 * 60 * 24 * 7 * 2

/-- `WorkDurationExceeds` -/
def workDurationExceeds (work reference_work : Uint256) (elapsed_seconds seconds : Nat) : Bool :=
  if work = 0 ∨ reference_work = 0 ∨ elapsed_seconds = 0 then false
  else
    let work_quotient := work / reference_work
    let seconds_quotient := BitVec.ofNat 256 (seconds / elapsed_seconds)
    if work_quotient ≠ seconds_quotient then decide (seconds_quotient < work_quotient)
    else
      let work_remainder := work - work_quotient * reference_work
      let seconds_remainder := seconds % elapsed_seconds
      let elapsed := BitVec.ofNat 256 elapsed_seconds
      let reference_quotient := reference_work / elapsed
      let reference_remainder := reference_work - reference_quotient * elapsed
      let remainder_threshold := reference_quotient * BitVec.ofNat 256 seconds_remainder +
        BitVec.ofNat 256
          (reference_remainder.toNat % 2 ^ 64 * seconds_remainder % 2 ^ 64 / elapsed_seconds)
      decide (remainder_threshold < work_remainder)

/-- The ancestor a number of blocks back. -/
def ancestorBack : Nat → CBlockIndex → Option CBlockIndex
  | 0, p => some p
  | n + 1, p => p.pprev.bind (ancestorBack n)

/-- `HasAssumeValidBurial` -/
def hasAssumeValidBurial (tip block_index : CBlockIndex) : Bool :=
  match ancestorBack assumevalidWorkRateWindow tip with
  | none => false
  | some window_start =>
    let elapsed := tip.getMedianTimePast - window_start.getMedianTimePast
    if tip.nChainWork ≤ window_start.nChainWork ∨ tip.nChainWork ≤ block_index.nChainWork then false
    else if elapsed ≤ 0 ∨ 2 ^ 32 - 1 < elapsed then false
    else workDurationExceeds (tip.nChainWork - block_index.nChainWork)
      (tip.nChainWork - window_start.nChainWork) elapsed.toNat assumevalidBurialSeconds

/-- What a node knows about its assumed valid block. -/
structure AssumeValid where
  /-- The index of `AssumedValidBlock()`, if there is such a block and it is in the block index. -/
  assumed : Option CBlockIndex := none
  m_best_header : Option CBlockIndex := none
  minimumChainWork : Uint256 := 0

/-- `IsAssumedValidAncestor` -/
def isAssumedValidAncestor (av : AssumeValid) (block_index : CBlockIndex) : Result Bool :=
  match av.assumed, av.m_best_header with
  | some assumed, some best_header =>
    if best_header.nChainWork < av.minimumChainWork then .ok false
    else do
      let a ← assumed.getAncestor block_index.nHeight
      let b ← best_header.getAncestor block_index.nHeight
      return a.map CBlockIndex.hashBlock == some block_index.hashBlock &&
        b.map CBlockIndex.hashBlock == some block_index.hashBlock
  | _, _ => .ok false

/-- `CanSkipScriptChecks` -/
def canSkipScriptChecks (av : AssumeValid) (block_index : CBlockIndex) (witness_unavailable : Bool) :
    Result Bool := do
  let assumed ← isAssumedValidAncestor av block_index
  return assumed && (witness_unavailable ||
    av.m_best_header.any fun best_header => hasAssumeValidBurial best_header block_index)

/-! ## Outputs -/

variable (script : List UInt8)

/-- `IsRestrictedOutputModeP2MROutput` -/
def isRestrictedOutputModeP2MROutput : Bool :=
  (isWitnessProgram script).any fun w => w.1 == 2 && w.2.length == witnessV2P2MRSize

/-- `IsReservedFutureWitnessOutput` -/
def isReservedFutureWitnessOutput : Bool :=
  (isWitnessProgram script).any fun w => decide (3 ≤ w.1) && decide (w.1 ≤ 16)

/-- `IsRestrictedOutputModeExemptOutput`; the second kind is `IsPayToAnchor`. -/
def isRestrictedOutputModeExemptOutput : Bool :=
  script.head? == some opReturn || script == [op1, 0x02, 0x4e, 0x73]

/-- `IsRestrictedOutputModeConsensusOutput` -/
def isRestrictedOutputModeConsensusOutput (consensus : Params) (height : Int) : Bool :=
  isRestrictedOutputModeP2MROutput script ||
    (consensus.outerReservedWitnessActiveAtHeight height && isReservedFutureWitnessOutput script) ||
    isRestrictedOutputModeExemptOutput script

/-- `HasOnlyRestrictedOutputModeOutputs` -/
def hasOnlyRestrictedOutputModeOutputs (tx : CTransaction) (consensus : Params) (height : Int) :
    Bool :=
  tx.vout.all fun txout =>
    isRestrictedOutputModeConsensusOutput txout.scriptPubKey.bytes consensus height

/-! ## Updating the coins -/

/-- The loop of `UpdateCoins` over the inputs, with the coins that they spend. -/
def spendInputs (base : CCoinsView) : CCoinsViewCache → List CTxIn →
    Result (CCoinsViewCache × List Coin)
  | view, [] => .ok (view, [])
  | view, txin :: vin =>
    match view.spendCoin base txin.prevout with
    | none => .error .assertion
    | some (coin, view) => do
      let (view, undo) ← spendInputs base view vin
      return (view, coin :: undo)

/-- `UpdateCoins`, with the undo data of the transaction. -/
def updateCoins (hash256 : HashFn) (base : CCoinsView) (tx : CTransaction) (view : CCoinsViewCache)
    (nHeight : Int) : Result (CCoinsViewCache × List Coin) := do
  let (view, undo) ← (if tx.isCoinBase then return (view, []) else spendInputs base view tx.vin)
  let view ← view.addCoins hash256 base tx nHeight false
  return (view, undo)

/-! ## Connecting -/

/-- `BIP34_IMPLIES_BIP30_LIMIT` -/
def bip34ImpliesBip30Limit : Int := 1983702

/-- `IsBIP30Repeat` -/
def isBIP30Repeat (block_index : CBlockIndex) : Bool :=
  (block_index.nHeight == 91842 && block_index.hashBlock ==
    0x00000000000a4d0a398161ffc163c503763b1f4360639393e0e4c8e300e0caec) ||
  (block_index.nHeight == 91880 && block_index.hashBlock ==
    0x00000000000743f190a18c5577a3c2d2a1f610ae9601ac046a38084ccb7cd721)

/-- What `ConnectBlock` carries from one transaction to the next. -/
structure ConnectState where
  view : CCoinsViewCache
  nFees : Int := 0
  nSigOpsCost : Int := 0
  /-- The undo data, of all transactions so far. -/
  vtxundo : List (List Coin) := []

/-- How the loop of `ConnectBlock` goes on after a transaction. -/
inductive TxOutcome where
  | next (s : ConnectState)
  /-- The loop is left with an invalid state, at these fees. -/
  | left (nFees : Int) (result : BlockValidationResult) (reject_reason : String)

/-- The fees so far. -/
def TxOutcome.nFees : TxOutcome → Int
  | next s => s.nFees
  | left nFees _ _ => nFees

/-- Leave the loop if a check fails. -/
def orLeave {α : Type} (nFees : Int) (x : BlockCheck α) (go : α → BlockCheck TxOutcome) :
    BlockCheck TxOutcome :=
  match x with
  | .ok a => go a
  | .error (.invalid result reject_reason) => .ok (.left nFees result reject_reason)
  | .error stop => .error stop

section Connect

variable (C : Crypto) (params : Params) (base : CCoinsView) (pindex : CBlockIndex)
  (flags : VerifyFlags) (fScriptChecks : Bool)

/-- The fee of a transaction; the coinbase has none. -/
def txFee (view : CCoinsViewCache) (tx : CTransaction) : BlockCheck Int :=
  if tx.isCoinBase then .ok 0
  else liftTx (checkTxInputs tx (view.toView base) pindex.nHeight)

/-- The checks of a transaction once its fee is counted: the cost of the signature operations up to
it. -/
def checkCountedTx (s : ConnectState) (nFees : Int) (tx : CTransaction) : BlockCheck Int := do
  let inputs := s.view.toView base
  (if tx.isCoinBase then return ()
    else do
      rejectIf (!moneyRange nFees) .consensus "bad-txns-accumulated-fee-outofrange"
      let prevheights := tx.vin.map fun txin => (inputs.accessCoin txin.prevout).nHeight
      let final ← liftFault
        (sequenceLocks tx (deploymentActiveAt pindex params.CSVHeight) prevheights pindex)
      rejectIf (!final) .consensus "bad-txns-nonfinal")
  let cost ← liftFault (getTransactionSigOpCost tx inputs flags)
  let nSigOpsCost := s.nSigOpsCost + cost
  rejectIf (decide (maxBlockSigopsCost < nSigOpsCost)) .consensus "bad-blk-sigops"
  (if !tx.isCoinBase && fScriptChecks then checkInputScripts C tx inputs flags else return ())
  return nSigOpsCost

/-- One turn of the loop of `ConnectBlock`. -/
def connectTx (s : ConnectState) (tx : CTransaction) : BlockCheck TxOutcome :=
  orLeave s.nFees
    (rejectIf (params.fRestrictedOutputMode &&
        !hasOnlyRestrictedOutputModeOutputs tx params pindex.nHeight)
      .consensus "bad-txns-output-not-p2mr") fun _ =>
  orLeave s.nFees (txFee base pindex s.view tx) fun txfee => do
    let nFees ← liftFault (add64 s.nFees txfee)
    orLeave nFees (checkCountedTx C params base pindex flags fScriptChecks s nFees tx)
      fun nSigOpsCost => do
        let (view, undo) ← liftFault (updateCoins C.hash256 base tx s.view pindex.nHeight)
        return .next { view, nFees, nSigOpsCost, vtxundo := s.vtxundo ++ [undo] }

/-- The loop of `ConnectBlock`. -/
def connectLoop : ConnectState → List CTransaction → BlockCheck TxOutcome
  | s, [] => .ok (.next s)
  | s, tx :: vtx => do
    match ← connectTx C params base pindex flags fScriptChecks s tx with
    | .next s => connectLoop s vtx
    | outcome => return outcome

end Connect

/-- A block that creates a coin which is there already. -/
def overwritesCoins (C : Crypto) (view : CCoinsView) (block : CBlock) : Bool :=
  block.vtx.any fun tx => (List.range tx.vout.length).any fun o =>
    view.haveCoin { hash := tx.getHash C.hash256, n := UInt32.ofNat o }

/-- Whether `ConnectBlock` looks for coins that are overwritten; the block has a parent. -/
def enforceBIP30 (params : Params) (pindex pprev : CBlockIndex) : Result Bool := do
  let pindexBIP34height ← pprev.getAncestor params.BIP34Height
  let known := pindexBIP34height.any fun p => p.hashBlock == params.BIP34Hash
  return !isBIP30Repeat pindex && !known || decide (bip34ImpliesBip30Limit ≤ pindex.nHeight)

variable (C : Crypto) (params : Params)

/-- The part of `ConnectBlock` from the coins on, for a block with a parent. -/
def connectTransactions (base : CCoinsView) (view : CCoinsViewCache) (block : CBlock)
    (pindex pprev : CBlockIndex) (fScriptChecks : Bool) :
    BlockCheck ConnectState := do
  let bip30 ← liftFault (enforceBIP30 params pindex pprev)
  let outcome ← (if bip30 && overwritesCoins C (view.toView base) block then
      return .left 0 .consensus "bad-txns-BIP30"
    else connectLoop C params base pindex (getBlockScriptFlags params pindex) fScriptChecks
      { view } block.vtx)
  let subsidy ← liftFault (getBlockSubsidy pindex.nHeight params)
  let blockReward ← liftFault (add64 outcome.nFees subsidy)
  let paid ← (match block.vtx with
    | [] => .error (.fault .nullPointer)
    | coinbase :: _ => liftFault coinbase.getValueOut)
  match outcome with
  | .left _ result reject_reason => invalid result reject_reason
  | .next s => do
    rejectIf (decide (blockReward < paid)) .consensus "bad-cb-amount"
    return s

/-- `Chainstate::ConnectBlock`: the view with the block's changes, and the undo data.
`witness_pruned` is the status `BLOCK_OPT_WITNESS_PRUNED` of the index. -/
def connectBlock (av : AssumeValid) (base : CCoinsView) (view : CCoinsViewCache) (block : CBlock)
    (pindex : CBlockIndex) (witness_pruned fJustCheck : Bool) :
    BlockCheck (CCoinsViewCache × List (List Coin)) := do
  let block_hash := block.getHash C.hash256
  liftFault (require (pindex.hashBlock = block_hash))
  (match checkBlock C params block (!fJustCheck) (!fJustCheck) with
    | .error (.invalid .mutated _) =>
      .error (.error "Corrupt block found indicating potential hardware failure.")
    | checked => checked)
  let hashPrevBlock := (pindex.pprev.map CBlockIndex.hashBlock).getD 0
  liftFault (require (hashPrevBlock = view.getBestBlock base))
  if block_hash = params.hashGenesisBlock then
    return (if fJustCheck then view else view.setBestBlock pindex.hashBlock, [])
  else
    let block_has_witness := hasAnyWitnessData block
    let block_missing_witness := deploymentActiveAfter pindex.pprev params.SegwitHeight &&
      (getWitnessCommitmentIndex block).isSome && !block_has_witness
    let witness_unavailable := block_missing_witness || witness_pruned && !block_has_witness
    (if block_missing_witness then return () else checkBlockWeight block)
    let skip ← liftFault (canSkipScriptChecks av pindex witness_unavailable)
    match pindex.pprev with
    | none => .error (.fault .assertion)
    | some pprev => do
      let s ← connectTransactions C params base view block pindex pprev (!skip)
      return (if fJustCheck then s.view else s.view.setBestBlock pindex.hashBlock, s.vtxundo.tail)

/-- The part of `Chainstate::ConnectTip` that changes the coins, with the undo data.  The block is
connected to an empty cache over `CoinsTip()`, which is then flushed into it. -/
def connectToTip (av : AssumeValid) (views : CoinsViews) (block : CBlock) (pindex : CBlockIndex)
    (witness_pruned : Bool) :
    BlockCheck (CoinsViews × List (List Coin)) := do
  let (view, undo) ← connectBlock C params av views.coinsTip {} block pindex witness_pruned false
  let views ← liftFault (views.flushView view)
  return (views, undo)

end Qbit
