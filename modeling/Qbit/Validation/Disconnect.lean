import Qbit.Validation.Connect

/-!
# Disconnecting a block

`Chainstate::DisconnectBlock` and `ApplyTxInUndo`: the transactions of a block are taken back in
reverse order, each by spending its outputs and putting the coins of its inputs back from the undo
data.
-/

open Checked

namespace Qbit

/-- `DisconnectResult` -/
inductive DisconnectResult where
  | ok
  /-- The block was rolled back, but the coins were not what they should have been. -/
  | unclean
  | failed
  deriving DecidableEq

/-- `MAX_OUTPUTS_PER_BLOCK`; the smallest output is the one with an empty script. -/
def maxOutputsPerBlock : Nat :=
  maxBlockWeight / (witnessScaleFactor * (CTxOut.serialize { nValue := -1 }).length)

/-- The loop of `AccessByTxid`, with the number of outputs left to look at. -/
def accessByTxidFrom (view : CCoinsView) (txid : Uint256) : Nat → UInt32 → Coin
  | 0, _ => Coin.empty
  | left + 1, n =>
    let alternate := view.accessCoin { hash := txid, n }
    if alternate.isSpent then accessByTxidFrom view txid left (n + 1) else alternate

/-- `AccessByTxid` -/
def accessByTxid (view : CCoinsView) (txid : Uint256) : Coin :=
  accessByTxidFrom view txid maxOutputsPerBlock 0

section Disconnect

variable (base : CCoinsView)

/-- `ApplyTxInUndo` -/
def applyTxInUndo (undo : Coin) (view : CCoinsViewCache) (out : COutPoint) :
    Result (DisconnectResult × CCoinsViewCache) :=
  let fClean := !(view.toView base).haveCoin out
  let alternate := accessByTxid (view.toView base) out.hash
  if undo.nHeight = 0 ∧ alternate.isSpent then .ok (.failed, view)
  else do
    let coin := if undo.nHeight = 0 then
        { undo with nHeight := alternate.nHeight, fCoinBase := alternate.fCoinBase }
      else undo
    let view ← view.addCoin out coin (!fClean)
    return (if fClean then .ok else .unclean, view)

/-- The loop that spends the outputs of a transaction again, from the output with index `n` on, and
says whether they were the ones that the transaction had made. -/
def spendOutputs (txid : Uint256) (nHeight : Int) (is_coinbase : Bool) :
    CCoinsViewCache → Nat → List CTxOut → Bool × CCoinsViewCache
  | view, _, [] => (true, view)
  | view, n, out :: vout =>
    if isUnspendable out.scriptPubKey.bytes then
      spendOutputs txid nHeight is_coinbase view (n + 1) vout
    else
      let spent := view.spendCoin base { hash := txid, n := UInt32.ofNat n }
      let matching := spent.any fun s => out == s.1.out && nHeight == s.1.nHeight &&
        is_coinbase == s.1.fCoinBase
      let rest := spendOutputs txid nHeight is_coinbase ((spent.map Prod.snd).getD view) (n + 1) vout
      (matching && rest.1, rest.2)

/-- The loop that restores inputs, of which the last comes first. -/
def restoreInputs : CCoinsViewCache → List (CTxIn × Coin) →
    Result (DisconnectResult × CCoinsViewCache)
  | view, [] => .ok (.ok, view)
  | view, (txin, undo) :: inputs => do
    let (res, view) ← applyTxInUndo base undo view txin.prevout
    if res = .failed then return (.failed, view)
    else do
      let (rest, view) ← restoreInputs view inputs
      return (if rest = .ok then res else rest, view)

/-- One turn of the loop of `DisconnectBlock`; the coinbase has no undo data. -/
def disconnectTx (hash256 : HashFn) (pindex : CBlockIndex) (fEnforceBIP30 : Bool)
    (view : CCoinsViewCache) (tx : CTransaction) (txundo : Option (List Coin)) :
    Result (DisconnectResult × CCoinsViewCache) := do
  let is_coinbase := tx.isCoinBase
  let (matching, view) := spendOutputs base (tx.getHash hash256) pindex.nHeight is_coinbase view 0
    tx.vout
  let clean := matching || is_coinbase && !fEnforceBIP30
  match txundo with
  | none => return (if clean then .ok else .unclean, view)
  | some vprevout =>
    if vprevout.length ≠ tx.vin.length then return (.failed, view)
    else do
      let (res, view) ← restoreInputs base view (tx.vin.zip vprevout).reverse
      return (if res = .ok && !clean then .unclean else res, view)

/-- The loop of `DisconnectBlock`, over the transactions from the last one on. -/
def disconnectTxs (hash256 : HashFn) (pindex : CBlockIndex) (fEnforceBIP30 : Bool) :
    CCoinsViewCache → List (CTransaction × Option (List Coin)) →
    Result (DisconnectResult × CCoinsViewCache)
  | view, [] => .ok (.ok, view)
  | view, (tx, txundo) :: txs => do
    let (res, view) ← disconnectTx base hash256 pindex fEnforceBIP30 view tx txundo
    if res = .failed then return (.failed, view)
    else do
      let (rest, view) ← disconnectTxs hash256 pindex fEnforceBIP30 view txs
      return (if rest = .ok then res else rest, view)

/-- The two blocks whose coinbases were made again by later blocks. -/
def isBIP30Unspendable (pindex : CBlockIndex) : Bool :=
  (pindex.nHeight == 91722 && pindex.hashBlock ==
    0x00000000000271a2dc26e7667f8419f2e15416dc6955e5a6c6cdf3f2574dd08e) ||
  (pindex.nHeight == 91812 && pindex.hashBlock ==
    0x00000000000af0aed4792b1acee3d966af36cf5def14935db8de83d6f9306f2f)

/-- `Chainstate::DisconnectBlock`, with the undo data if it can be read. -/
def disconnectBlock (hash256 : HashFn) (block : CBlock) (pindex : CBlockIndex)
    (blockUndo : Option (List (List Coin))) (view : CCoinsViewCache) :
    Result (DisconnectResult × CCoinsViewCache) :=
  match blockUndo with
  | none => .ok (.failed, view)
  | some vtxundo =>
    if vtxundo.length + 1 ≠ block.vtx.length then .ok (.failed, view)
    else do
      let (res, view) ← disconnectTxs base hash256 pindex (!isBIP30Unspendable pindex) view
        (block.vtx.zip (none :: vtxundo.map some)).reverse
      if res = .failed then return (.failed, view)
      else match pindex.pprev with
      | none => .error .nullPointer
      | some pprev => return (res, view.setBestBlock pprev.hashBlock)

end Disconnect

/-- The part of `Chainstate::DisconnectTip` that changes the coins, if the block can be disconnected.
-/
def disconnectFromTip (hash256 : HashFn) (views : CoinsViews) (block : CBlock) (pindex : CBlockIndex)
    (blockUndo : Option (List (List Coin))) : Result (Option CoinsViews) := do
  let view : CCoinsViewCache := {}
  require (view.getBestBlock views.coinsTip = pindex.hashBlock)
  let (res, view) ← disconnectBlock views.coinsTip hash256 block pindex blockUndo view
  if res = .ok then return some (← views.flushView view) else return none

end Qbit
