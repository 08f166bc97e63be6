import Qbit.Validation.Conservation
import Qbit.Validation.Disconnect

/-!
# Disconnecting undoes connecting

`ConnectBlock` keeps the coins that the inputs of a block spend as undo data, and `DisconnectBlock`
goes back from it: over the transactions from the last one on, it spends the outputs and puts the
coins of the inputs back.

One transaction is undone in two parts.  What `AddCoins` wrote is dropped again by `spendOutputs`,
since none of it was there before; and what `spendInputs` dropped is written again by
`restoreInputs`, since the undo data are the coins that were there.  The first part needs to know
that nothing was overwritten: the outpoints of the block's transactions have no coins in the view,
and the cache decides about them from then on.  The second needs coins that `AddCoin` takes
(`Coin.Restorable`).
-/

open Checked PartialMap

namespace Qbit

open CCoinsViewCache

/-- `ApplyTxInUndo` can restore the coin from undo data. -/
structure Coin.Restorable (coin : Coin) : Prop where
  height : coin.nHeight ≠ 0
  spendable : isUnspendable coin.out.scriptPubKey.bytes = false

/-- The block has an input that spends the outpoint. -/
def CBlock.Spends (block : CBlock) (o : COutPoint) : Prop :=
  ∃ tx ∈ block.vtx, tx.isCoinBase = false ∧ o ∈ tx.vin.map CTxIn.prevout

variable {base : CCoinsView} {view view' : CCoinsViewCache}

/-! ## Outputs -/

/-- **Spending the outputs again** drops their coins, which are the ones that it expects. -/
theorem spendOutputs_drops {txid : Uint256} {nHeight : Int} {is_coinbase : Bool} {n : Nat}
    {vout : List CTxOut} (hfresh : view.FreshSound base) (hlen : n + vout.length ≤ 2 ^ 32)
    (hcoins : ∀ p ∈ outputCoins txid is_coinbase nHeight n vout, view.getCoin base p.1 = some p.2) :
    ∃ view', spendOutputs base txid nHeight is_coinbase view n vout = (true, view') ∧
      Drops (view.getCoin base) (view'.getCoin base)
        ((outputCoins txid is_coinbase nHeight n vout).map Prod.fst) ∧
      view'.FreshSound base := by
  induction vout generalizing view n with
  | nil => exact ⟨view, rfl, .nil _, hfresh⟩
  | cons out vout ih =>
    rw [List.length_cons] at hlen
    cases hspendable : isUnspendable out.scriptPubKey.bytes with
    | true =>
      simp only [spendOutputs, outputCoins, hspendable, if_true] at hcoins ⊢
      exact ih hfresh (by omega) hcoins
    | false =>
      simp only [outputCoins, hspendable, Bool.false_eq_true, if_false, List.forall_mem_cons]
        at hcoins ⊢
      obtain ⟨hcoin, hcoins⟩ := hcoins
      obtain ⟨mid, hspend, hupdate, hmid, -⟩ := spendCoin_update hfresh hcoin
      have hlen' : n + 1 + vout.length ≤ 2 ^ 32 := by omega
      obtain ⟨last, hrest, hdrops, hlast⟩ := ih hmid hlen' fun p hp => by
        rw [hupdate, update_of_notMem (notMem_outputCoins hlen') hp, hcoins p hp]
      rw [hupdate] at hdrops
      refine ⟨last, ?_, hdrops.cons, hlast⟩
      simp [spendOutputs, hspendable, hspend, hrest]

/-! ## Inputs -/

/-- **Spending the inputs** drops their coins, and keeps them as undo data. -/
theorem spendInputs_drops {vin : List CTxIn} {undo : List Coin} (hfresh : view.FreshSound base)
    (hnodup : (vin.map CTxIn.prevout).Nodup)
    (hcoins : ∀ txin ∈ vin, (view.getCoin base txin.prevout).isSome = true)
    (hspend : spendInputs base view vin = .ok (view', undo)) :
    Drops (view.getCoin base) (view'.getCoin base) (vin.map CTxIn.prevout) ∧
      undo.length = vin.length ∧
      (∀ p ∈ vin.zip undo, view.getCoin base p.1.prevout = some p.2) ∧
      view'.FreshSound base ∧ ∀ o, view.Decides base o → view'.Decides base o := by
  induction vin generalizing view undo with
  | nil =>
    cases hspend
    exact ⟨.nil _, rfl, by simp, hfresh, fun _ => id⟩
  | cons txin vin ih =>
    obtain ⟨hcoin, hcoins⟩ := List.forall_mem_cons.mp hcoins
    obtain ⟨hnew, hnodup⟩ := List.nodup_cons.mp hnodup
    obtain ⟨coin, hcoin⟩ := Option.isSome_iff_exists.mp hcoin
    obtain ⟨mid, hfirst, hupdate, hmid, hkeeps⟩ := spendCoin_update hfresh hcoin
    simp [spendInputs, hfirst] at hspend
    obtain ⟨rest, hrest, rfl⟩ := hspend
    -- The other inputs spend other coins.
    have hothers : ∀ txin' ∈ vin,
        mid.getCoin base txin'.prevout = view.getCoin base txin'.prevout := by
      intro txin' hmem
      rw [hupdate, update_of_notMem hnew hmem]
    obtain ⟨hdrops, hlen, hundo, hlast, hkeeps'⟩ := ih hmid hnodup
      (fun txin' hmem => by rw [hothers txin' hmem, hcoins txin' hmem]) hrest
    rw [hupdate] at hdrops
    refine ⟨hdrops.cons, congrArg (· + 1) hlen, List.forall_mem_cons.mpr ⟨hcoin, fun p hp => ?_⟩,
      hlast, fun o h => hkeeps' o (hkeeps o h)⟩
    rw [← hothers p.1 (List.of_mem_zip hp).1, hundo p hp]

theorem applyTxInUndo_restorable {undo : Coin} {out : COutPoint} (hfresh : view.FreshSound base)
    (hnone : view.getCoin base out = none) (hunspent : undo.isSpent = false)
    (hrestorable : undo.Restorable) :
    ∃ view', applyTxInUndo base undo view out = .ok (.ok, view') ∧
      view'.getCoin base = Function.update (view.getCoin base) out (some undo) ∧
      view'.FreshSound base := by
  obtain ⟨view', hadd⟩ := exists_addCoin hunspent hnone false
  obtain ⟨hupdate, hview', -⟩ :=
    addCoin_update hfresh hadd hrestorable.spendable hnone
  refine ⟨view', ?_, hupdate, hview'⟩
  simp [applyTxInUndo, CCoinsView.haveCoin, toView, hnone, hrestorable.height, hadd]

/-- **Restoring inputs** writes their coins. -/
theorem restoreInputs_puts {inputs : List (CTxIn × Coin)} (hfresh : view.FreshSound base)
    (hnodup : (inputs.map fun p => p.1.prevout).Nodup)
    (hnone : ∀ p ∈ inputs, view.getCoin base p.1.prevout = none)
    (hunspent : ∀ p ∈ inputs, p.2.isSpent = false) (hrestorable : ∀ p ∈ inputs, p.2.Restorable) :
    ∃ view', restoreInputs base view inputs = .ok (.ok, view') ∧
      Puts (view.getCoin base) (view'.getCoin base) (inputs.map fun p => (p.1.prevout, p.2)) ∧
      view'.FreshSound base := by
  induction inputs generalizing view with
  | nil => exact ⟨view, rfl, .nil _, hfresh⟩
  | cons p inputs ih =>
    obtain ⟨txin, undo⟩ := p
    obtain ⟨hnew, hnodup⟩ := List.nodup_cons.mp hnodup
    rw [List.forall_mem_cons] at hnone hunspent hrestorable
    obtain ⟨mid, hfirst, hupdate, hmid⟩ :=
      applyTxInUndo_restorable hfresh hnone.1 hunspent.1 hrestorable.1
    obtain ⟨last, hrest, hputs, hlast⟩ := ih hmid hnodup
      (fun p hp => by rw [hupdate, update_of_notMem hnew hp, hnone.2 p hp])
      hunspent.2 hrestorable.2
    rw [hupdate] at hputs
    refine ⟨last, ?_, hputs.cons ?_, hlast⟩
    · simp [restoreInputs, hfirst, hrest]
    · rw [List.map_map]
      exact hnew

/-! ## One transaction -/

/-- Coins of a cache that disconnecting takes back: from a view with the coins of `view'` it goes
without a complaint to one with the coins of `view`. -/
def Reverts (base : CCoinsView)
    (disconnect : CCoinsViewCache → Result (DisconnectResult × CCoinsViewCache))
    (view' view : CCoinsViewCache) : Prop :=
  ∀ w : CCoinsViewCache, w.FreshSound base → w.getCoin base = view'.getCoin base →
    ∃ w', disconnect w = .ok (.ok, w') ∧ w'.FreshSound base ∧ w'.getCoin base = view.getCoin base

/-- What has to be known of a view so that what a block does to it can be undone. -/
structure Undoable (base : CCoinsView) (hash256 : HashFn) (block : CBlock)
    (view : CCoinsViewCache) : Prop where
  fresh : view.FreshSound base
  decides : ∀ tx ∈ block.vtx, ∀ o : COutPoint, o.hash = tx.getHash hash256 → view.Decides base o
  restorable : ∀ o, block.Spends o → ∀ coin, view.getCoin base o = some coin → coin.Restorable

section Transaction

variable {hash256 : HashFn} {block : CBlock} {tx : CTransaction}

variable {undo : List Coin} {pindex : CBlockIndex}

/-- Spending inputs keeps a view undoable, and can be undone. -/
theorem Undoable.spendInputs (hview : Undoable base hash256 block view) (htx : tx ∈ block.vtx)
    (hcoinbase : tx.isCoinBase = false) (hnodup : (tx.vin.map CTxIn.prevout).Nodup)
    (hcoins : ∀ txin ∈ tx.vin, (view.getCoin base txin.prevout).isSome = true)
    (hspend : spendInputs base view tx.vin = .ok (view', undo)) :
    Undoable base hash256 block view' ∧ undo.length = tx.vin.length ∧
      Reverts base (fun w => restoreInputs base w (tx.vin.zip undo).reverse) view' view := by
  obtain ⟨hdrops, hlen, hundo, hfresh, hkeeps⟩ := spendInputs_drops hview.fresh hnodup hcoins hspend
  refine ⟨⟨hfresh, fun tx htx o ho => hkeeps o (hview.decides tx htx o ho),
    fun o ho coin hcoin => hview.restorable o ho coin (hdrops.of_some hcoin)⟩, hlen, ?_⟩
  intro w hw hsame
  -- The inputs are restored from the last one on, which makes no difference.
  have hkeys : (tx.vin.zip undo).map (fun p => p.1.prevout) = tx.vin.map CTxIn.prevout := by
    conv_rhs => rw [← List.map_fst_zip hlen.ge, List.map_map]
    rfl
  have hnodup' : ((tx.vin.zip undo).reverse.map fun p => p.1.prevout).Nodup := by
    rwa [List.map_reverse, List.nodup_reverse, hkeys]
  have hspent : ∀ p ∈ (tx.vin.zip undo).reverse, p.1.prevout ∈ tx.vin.map CTxIn.prevout := by
    intro p hp
    exact List.mem_map_of_mem (List.of_mem_zip (List.mem_reverse.mp hp)).1
  obtain ⟨w', hrestore, hputs, hw'⟩ := restoreInputs_puts hw hnodup'
    (fun p hp => by rw [hsame, hdrops.at_key _ (hspent p hp)])
    (fun p hp => isSpent_of_getCoin (hundo p (List.mem_reverse.mp hp)))
    (fun p hp => hview.restorable p.1.prevout ⟨tx, htx, hcoinbase, hspent p hp⟩ p.2
      (hundo p (List.mem_reverse.mp hp)))
  refine ⟨w', hrestore, hw', ?_⟩
  rw [hsame] at hputs
  have hsplit : (tx.vin.zip undo).map (fun p => p.1.prevout) =
      ((tx.vin.zip undo).map fun p => (p.1.prevout, p.2)).map Prod.fst := by simp
  rw [← hkeys, hsplit] at hdrops
  refine hdrops.undo ?_ hputs fun p => ?_
  · intro p hp
    obtain ⟨q, hq, rfl⟩ := List.mem_map.mp hp
    exact hundo q hq
  simp

/-- Adding outputs keeps a view undoable, and can be undone. -/
theorem Undoable.addCoins {nHeight : Int} (hview : Undoable base hash256 block view)
    (htx : tx ∈ block.vtx) (hheight : nHeight ≠ 0) (hlen : tx.vout.length ≤ 2 ^ 32)
    (hnew : tx.isCoinBase = true → ∀ o : COutPoint, o.hash = tx.getHash hash256 →
      view.getCoin base o = none)
    (hadd : view.addCoins hash256 base tx nHeight false = .ok view') :
    Undoable base hash256 block view' ∧ ∀ w : CCoinsViewCache, w.FreshSound base →
      w.getCoin base = view'.getCoin base →
      ∃ w', spendOutputs base (tx.getHash hash256) nHeight tx.isCoinBase w 0 tx.vout = (true, w') ∧
        w'.FreshSound base ∧ w'.getCoin base = view.getCoin base := by
  have hzero : 0 + tx.vout.length ≤ 2 ^ 32 := by omega
  obtain ⟨hputs, hnone, hfresh, hkeeps⟩ := addOutputs_puts hview.fresh hzero
    (hview.decides tx htx)
    (fun hcoinbase p hp => hnew hcoinbase p.1 (by
      obtain ⟨⟨m, -, -, hm⟩, -⟩ := of_mem_outputCoins hp
      rw [hm])) hadd
  refine ⟨⟨hfresh, fun tx htx o ho => hkeeps o (hview.decides tx htx o ho), ?_⟩, ?_⟩
  · intro o ho coin hcoin
    rcases hputs.mem_or hcoin with hmade | hbefore
    · obtain ⟨-, hmade, hspendable⟩ := of_mem_outputCoins hmade
      exact ⟨hmade ▸ hheight, hspendable⟩
    · exact hview.restorable o ho coin hbefore
  · intro w hw hsame
    rw [← hsame] at hputs
    obtain ⟨w', hspend, hdrops, hw'⟩ := spendOutputs_drops hw hzero hputs.at_entry
    exact ⟨w', hspend, hw', hputs.undo hnone hdrops⟩

/-- The undo data of a transaction as `DisconnectBlock` takes it: the coinbase has none. -/
def txUndo (p : CTransaction × List Coin) : CTransaction × Option (List Coin) :=
  (p.1, if p.1.isCoinBase then none else some p.2)

/-- What `UpdateCoins` does to an undoable view. -/
structure CanUpdate (base : CCoinsView) (hash256 : HashFn) (view : CCoinsViewCache)
    (tx : CTransaction) : Prop where
  outputs : tx.vout.length ≤ 2 ^ 32
  inputs : (tx.vin.map CTxIn.prevout).Nodup
  coins : tx.isCoinBase = false → ∀ txin ∈ tx.vin,
    (view.getCoin base txin.prevout).isSome = true
  new : tx.isCoinBase = true → ∀ o : COutPoint, o.hash = tx.getHash hash256 →
    view.getCoin base o = none

/-- **Disconnecting a transaction undoes `UpdateCoins`.** -/
theorem Undoable.updateCoins (fEnforceBIP30 : Bool) (hview : Undoable base hash256 block view)
    (htx : tx ∈ block.vtx) (hheight : pindex.nHeight ≠ 0) (hcan : CanUpdate base hash256 view tx)
    (hupdate : updateCoins hash256 base tx view pindex.nHeight = .ok (view', undo)) :
    Undoable base hash256 block view' ∧
      Reverts base (fun w => disconnectTx base hash256 pindex fEnforceBIP30 w tx
        (txUndo (tx, undo)).2) view' view := by
  simp [Qbit.updateCoins] at hupdate
  obtain ⟨mid, hspend, hadd⟩ := hupdate
  cases hcoinbase : tx.isCoinBase with
  | true =>
    simp [hcoinbase] at hspend
    obtain ⟨rfl, rfl⟩ := hspend
    obtain ⟨hlast, hback⟩ := hview.addCoins htx hheight hcan.outputs hcan.new hadd
    refine ⟨hlast, fun w hw hsame => ?_⟩
    obtain ⟨w', houtputs, hw', hbefore⟩ := hback w hw hsame
    rw [hcoinbase] at houtputs
    exact ⟨w', by simp [disconnectTx, txUndo, hcoinbase, houtputs], hw', hbefore⟩
  | false =>
    simp only [hcoinbase, Bool.false_eq_true, if_false] at hspend
    obtain ⟨hmid, hlen, hrestores⟩ :=
      hview.spendInputs htx hcoinbase hcan.inputs (hcan.coins hcoinbase) hspend
    obtain ⟨hlast, hback⟩ := hmid.addCoins htx hheight hcan.outputs (by simp [hcoinbase]) hadd
    refine ⟨hlast, fun w hw hsame => ?_⟩
    obtain ⟨w₁, houtputs, hw₁, hbefore⟩ := hback w hw hsame
    obtain ⟨w₂, hinputs, hw₂, hstart⟩ := hrestores w₁ hw₁ hbefore
    rw [hcoinbase] at houtputs
    dsimp only at hinputs
    exact ⟨w₂, by simp [disconnectTx, txUndo, hcoinbase, houtputs, hlen, hinputs], hw₂, hstart⟩

/-! ## The whole block -/

theorem disconnectTxs_append {fEnforceBIP30 : Bool}
    {txs txs' : List (CTransaction × Option (List Coin))} {w w' : CCoinsViewCache}
    (h : disconnectTxs base hash256 pindex fEnforceBIP30 w txs = .ok (.ok, w')) :
    disconnectTxs base hash256 pindex fEnforceBIP30 w (txs ++ txs') =
      disconnectTxs base hash256 pindex fEnforceBIP30 w' txs' := by
  induction txs generalizing w with
  | nil =>
    cases h
    rfl
  | cons p txs ih =>
    obtain ⟨⟨res, mid⟩, hfirst, h⟩ := bind_eq_ok_iff.mp h
    rw [List.cons_append, disconnectTxs, hfirst]
    dsimp only [ok_bind] at h ⊢
    split at h
    · cases h
    obtain ⟨⟨rest, last⟩, hrest, h⟩ := bind_eq_ok_iff.mp h
    rw [pure_eq_ok, Except.ok.injEq, Prod.mk.injEq] at h
    obtain ⟨hres, rfl⟩ := h
    obtain ⟨rfl, rfl⟩ : rest = .ok ∧ res = .ok := by
      cases rest <;> simp_all
    rw [if_neg (by decide), ih hrest]
    rcases disconnectTxs base hash256 pindex fEnforceBIP30 last txs' with _ | ⟨_ | _ | _, view⟩ <;>
      rfl

end Transaction

section Block

variable {C : Crypto} {params : Params} {pindex : CBlockIndex} {flags : VerifyFlags}
  {fScriptChecks : Bool} {block : CBlock} {s s' : ConnectState}

variable {vtx : List CTransaction}

/-- **Disconnecting transactions undoes the loop of `ConnectBlock`.** -/
theorem reverts_connectLoop (fEnforceBIP30 : Bool) (hheight : pindex.nHeight ≠ 0)
    (hsubset : ∀ tx ∈ vtx, tx ∈ block.vtx) (hchecked : ∀ tx ∈ vtx, checkTransaction tx = .ok ())
    (hhead : ∀ tx ∈ vtx.head?, tx.isCoinBase = true → ∀ o : COutPoint,
      o.hash = tx.getHash C.hash256 → s.view.getCoin base o = none)
    (htail : ∀ tx ∈ vtx.tail, tx.isCoinBase = false) (hview : Undoable base C.hash256 block s.view)
    (hconnect : connectLoop C params base pindex flags fScriptChecks s vtx = .ok (.next s')) :
    ∃ undos, s'.vtxundo = s.vtxundo ++ undos ∧ undos.length = vtx.length ∧
      Undoable base C.hash256 block s'.view ∧
      Reverts base (fun w => disconnectTxs base C.hash256 pindex fEnforceBIP30 w
        ((vtx.zip undos).map txUndo).reverse) s'.view s.view := by
  induction vtx generalizing s with
  | nil =>
    cases hconnect
    exact ⟨[], by simp, rfl, hview, fun w hw hsame => ⟨w, rfl, hw, hsame⟩⟩
  | cons tx vtx ih =>
    rw [List.forall_mem_cons] at hsubset hchecked
    obtain ⟨outcome, hfirst, hrest⟩ := bind_eq_ok_iff.mp hconnect
    cases outcome with
    | left _ _ _ => cases hrest
    | next mid =>
      obtain ⟨txfee, _, undo, hfee, -, -, hupdate, hundo⟩ := connectTx_eq_next hfirst
      have hcan : CanUpdate base C.hash256 s.view tx :=
        { outputs := (checkTransaction_length_vout hchecked.1).trans (by decide)
          inputs := (checkTransaction_amounts hchecked.1).2
          coins := fun hcoinbase txin htxin => by
            simp [txFee, hcoinbase] at hfee
            exact Option.isSome_of_eq_some ((checkTxInputs_spec hfee).2.2 txin htxin)
          new := hhead tx rfl }
      obtain ⟨hmid, hreverts⟩ := hview.updateCoins fEnforceBIP30 hsubset.1 hheight hcan hupdate
      obtain ⟨undos, hundos, hlen, hlast, hback⟩ := ih hsubset.2 hchecked.2
        (fun tx htx hcoinbase => by simp [htail tx (List.mem_of_mem_head? htx)] at hcoinbase)
        (fun tx htx => htail tx (List.mem_of_mem_tail htx)) hmid hrest
      refine ⟨undo :: undos, by rw [hundos, hundo, List.append_assoc]; rfl, congrArg (· + 1) hlen,
        hlast, fun w hw hsame => ?_⟩
      -- The last transactions are disconnected first.
      obtain ⟨w₁, htxs, hw₁, hsame₁⟩ := hback w hw hsame
      obtain ⟨w₂, htx, hw₂, hsame₂⟩ := hreverts w₁ hw₁ hsame₁
      refine ⟨w₂, ?_, hw₂, hsame₂⟩
      dsimp only at htxs htx ⊢
      rw [List.zip_cons_cons, List.map_cons, List.reverse_cons, disconnectTxs_append htxs]
      have hhead : (txUndo (tx, undo)).1 = tx := rfl
      simp [disconnectTxs, hhead, htx]

/-- The undo data of a block whose first transaction is its only coinbase. -/
theorem zip_vtxundo (undo : List Coin) {undos : List (List Coin)}
    (hhead : vtx.head?.any CTransaction.isCoinBase = true)
    (htail : ∀ tx ∈ vtx.tail, tx.isCoinBase = false) :
    vtx.zip (none :: undos.map some) = (vtx.zip (undo :: undos)).map txUndo := by
  rcases vtx with _ | ⟨coinbase, vtx⟩
  · rfl
  have hcoinbase : coinbase.isCoinBase = true := by simpa using hhead
  rw [List.zip_cons_cons, List.zip_cons_cons, List.map_cons, txUndo, if_pos hcoinbase,
    List.zip_map_right]
  refine congrArg _ (List.map_congr_left fun p hp => ?_)
  simp [txUndo, Prod.map, htail p.1 (List.of_mem_zip hp).1]

theorem CCoinsViewCache.getBestBlock_setBestBlock {hash : Uint256}
    (h : hash = view.getBestBlock base) (w : CCoinsViewCache) :
    (w.setBestBlock hash).getBestBlock base = view.getBestBlock base := by
  rw [h]
  simp only [getBestBlock, setBestBlock]
  split_ifs <;> simp_all

/-- **Disconnecting undoes connecting.**  If `ConnectBlock` accepts a block on a view, then
`DisconnectBlock`, given the undo data, returns `DISCONNECT_OK` on the view that results, and every
outpoint has the coin again that it had, or none.  This needs that the block's transaction ids have
no coins in the view, that the block is not the genesis block, whose transactions are not connected
but would be disconnected, and that the coins of the view that the block spends can be restored. -/
theorem disconnectBlock_connectBlock {av : AssumeValid} {witness_pruned fJustCheck : Bool}
    {undo : List (List Coin)} (hfresh : view.FreshSound base)
    (hconnect : connectBlock C params av base view block pindex witness_pruned fJustCheck =
      .ok (view', undo))
    (hgenesis : block.getHash C.hash256 ≠ params.hashGenesisBlock) (hheight : pindex.nHeight ≠ 0)
    (hnew : ∀ tx ∈ block.vtx, ∀ o : COutPoint, o.hash = tx.getHash C.hash256 →
      (view.toView base).getCoin o = none)
    (hcoins : ∀ o, block.Spends o → ∀ coin, (view.toView base).getCoin o = some coin →
      coin.Restorable) :
    ∃ view'', disconnectBlock base C.hash256 block pindex (some undo) view' = .ok (.ok, view'') ∧
      view''.toView base = view.toView base := by
  obtain ⟨hcheck, hbest, ⟨hhash, -⟩ | ⟨pprev, fScriptChecks, s, hprev, hs, rfl, rfl⟩⟩ :=
    connectBlock_eq_ok hconnect
  · exact absurd hhash hgenesis
  obtain ⟨hhead, htail, htxs⟩ := transactions_of_checkBlock hcheck
  have hview : Undoable base C.hash256 block view :=
    { fresh := hfresh
      decides := fun tx htx o ho => decides_of_getCoin (hnew tx htx o ho)
      restorable := hcoins }
  obtain ⟨undos, hundos, hlen, hlast, hback⟩ := reverts_connectLoop (!isBIP30Unspendable pindex)
    hheight (fun _ h => h) htxs (fun tx htx _ => hnew tx (List.mem_of_mem_head? htx)) htail hview
    (connectTransactions_eq_ok hs).1
  -- The undo data of the coinbase are not kept.
  obtain ⟨undo, undos, rfl⟩ : ∃ undo undos', undos = undo :: undos' := by
    refine List.exists_cons_of_length_pos ?_
    rw [hlen, List.length_pos_iff]
    rintro hnil
    rw [hnil] at hhead
    cases hhead
  rw [List.nil_append] at hundos
  obtain ⟨w, hdisconnect, -, hsame⟩ : ∃ w, disconnectTxs base C.hash256 pindex
      (!isBIP30Unspendable pindex) (if fJustCheck then s.view else s.view.setBestBlock
        pindex.hashBlock) ((block.vtx.zip (undo :: undos)).map txUndo).reverse = .ok (.ok, w) ∧
      w.FreshSound base ∧ w.getCoin base = view.getCoin base := by
    refine hback _ ?_ ?_
    · split <;> exact hlast.fresh
    · split <;> rfl
  refine ⟨w.setBestBlock pprev.hashBlock, ?_, ?_⟩
  · rw [List.length_cons] at hlen
    rw [disconnectBlock, hundos, List.tail_cons]
    dsimp only
    rw [if_neg (not_not.mpr hlen), zip_vtxundo undo hhead htail, hdisconnect, hprev]
    rfl
  · rw [hprev] at hbest
    rw [CCoinsViewCache.toView, CCoinsViewCache.toView, CCoinsView.mk.injEq]
    exact ⟨hsame, CCoinsViewCache.getBestBlock_setBestBlock hbest w⟩

end Block

/-! ### A block with one spend

A block of the main network that spends the first output of transaction 1, on a view that shows only
this coin. -/

/-- A transaction that spends the coin. -/
def spendingTx : CTransaction where
  vin := [{ prevout := { hash := 1, n := 0 } }]
  vout := [{ nValue := 1000, scriptPubKey := .ofBytes ([0x52, 0x20] ++ serUint256 1) }]

/-- A block with this transaction, mined at the easiest difficulty. -/
def spendingBlock : CBlock where
  nVersion := 0x20000000
  hashPrevBlock := mainGenesisHash
  hashMerkleRoot := 0xd1147d2df9c143ae2512c7eb400726276b5751409676fce2224bddcc5404925
  nTime := 1784131158
  nBits := 0x1f00ffff
  nNonce := 19253
  vtx := [mainCoinbase1, spendingTx]

/-- SHA-256 on the transactions and the header of the block, and on these hashes. -/
def spendingSha256 : HashFn :=
  let coinbase : Uint256 := 0x66f484c07be677cbbefafc3678be1696c991491831887ea0fbdee536f2f61ada
  let tx : Uint256 := 0x6ddd4bab056c4d87f0ef221fef2cc96edf4dec192ceb672fc69acee1a52d30c
  let root : Uint256 := 0x7d1ef811d3149cda964fc11f254d09515929eb1ba6fc6593de77ec5f019f14e
  let block : Uint256 := 0xe03fd094849f3332dc925e2cca3ac41306e3973326c696eebfc7b032b97f117
  let txid : Uint256 := 0xc8aa703d9bb28fc074afe2525acd157bca63593f90b022bb4d76efc2a3545052
  tableHash [
    (mainCoinbase1.serialize false, coinbase),
    (serUint256 coinbase, mainBlock1.hashMerkleRoot),
    (spendingTx.serialize false, tx),
    (serUint256 tx, txid),
    (serUint256 mainBlock1.hashMerkleRoot ++ serUint256 txid, root),
    (serUint256 root, spendingBlock.hashMerkleRoot),
    (spendingBlock.serializePure, block),
    (serUint256 block, 0x73b526b604ceb0d0ffa6fbb173cf75fc85208fd22099bf9bcfb704ed5ff2)]

def spendingCrypto : Crypto := { vectorCrypto with sha256 := spendingSha256 }

def spendingIndex : CBlockIndex :=
  addToBlockIndex spendingCrypto.hash256 (some mainIndex0) spendingBlock.toCBlockHeader

/-- The view with the outputs of one transaction. -/
def outputsView (coins : List Coin) : CCoinsView where
  getCoin o := if o.hash = 1 then coins[o.n.toNat]? else none
  getBestBlock := mainGenesisHash

/-- A coin of 2000 with a script. -/
def coinWith (script : List UInt8) (nHeight : Int) : Coin where
  out := { nValue := 2000, scriptPubKey := .ofBytes script }
  nHeight := nHeight

theorem of_getCoin_outputsView {coins : List Coin} {o : COutPoint} {coin : Coin}
    (h : (({} : CCoinsViewCache).toView (outputsView coins)).getCoin o = some coin) :
    o.hash = 1 ∧ coin ∈ coins := by
  change ({} : CCoinsViewCache).getCoin (outputsView coins) o = some coin at h
  rw [getCoin_of_lookup_none rfl, Option.filter_eq_some_iff] at h
  obtain ⟨hcoin, -⟩ := h
  simp only [outputsView] at hcoin
  split at hcoin
  · exact ⟨‹_›, List.mem_of_getElem? hcoin⟩
  · cases hcoin

theorem new_outputsView (coins : List Coin) : ∀ tx ∈ spendingBlock.vtx, ∀ o : COutPoint,
    o.hash = tx.getHash spendingCrypto.hash256 →
      (({} : CCoinsViewCache).toView (outputsView coins)).getCoin o = none := by
  intro tx htx o ho
  have hid : ∀ tx ∈ spendingBlock.vtx, tx.getHash spendingCrypto.hash256 ≠ 1 := by
    decide +kernel
  rw [Option.eq_none_iff_forall_ne_some]
  intro coin hcoin
  exact hid tx htx (ho ▸ (of_getCoin_outputsView hcoin).1)

/-- The block is connected to a view with a coin that anyone can spend, and then disconnected. -/
theorem disconnectBlock_connectBlock_spending : ∃ view' undo view'',
    connectBlock spendingCrypto mainParams {} (outputsView [coinWith [0x51] 1]) {} spendingBlock
        spendingIndex false false = .ok (view', undo) ∧
      undo = [[coinWith [0x51] 1]] ∧
      disconnectBlock (outputsView [coinWith [0x51] 1]) spendingCrypto.hash256 spendingBlock
        spendingIndex (some undo) view' = .ok (.ok, view'') ∧
      view''.toView (outputsView [coinWith [0x51] 1]) =
        ({} : CCoinsViewCache).toView (outputsView [coinWith [0x51] 1]) := by
  have hrun : (connectBlock spendingCrypto mainParams {} (outputsView [coinWith [0x51] 1]) {}
      spendingBlock spendingIndex false false).toOption.map Prod.snd =
        some [[coinWith [0x51] 1]] := by
    decide +kernel
  obtain ⟨⟨view', undo⟩, hconnect, hundo⟩ := exists_ok_of_toOption_map hrun
  have hcoins : ∀ o coin, (({} : CCoinsViewCache).toView
      (outputsView [coinWith [0x51] 1])).getCoin o = some coin → coin.Restorable := by
    intro o coin hcoin
    obtain rfl := List.mem_singleton.mp (of_getCoin_outputsView hcoin).2
    exact ⟨by decide, by decide⟩
  obtain ⟨view'', hdisconnect, hsame⟩ := disconnectBlock_connectBlock
    (freshSound_empty _ 0) hconnect (by decide +kernel) (by decide +kernel)
    (new_outputsView _) fun o _ => hcoins o
  exact ⟨view', undo, view'', hconnect, hundo, hdisconnect, hsame⟩

/-- A block of the main network with new transaction ids is accepted on a view and not undone. -/
def NotUndone (C : Crypto) (av : AssumeValid) (base : CCoinsView) (block : CBlock)
    (pindex : CBlockIndex) (witness_pruned : Bool) : Prop :=
  (∀ tx ∈ block.vtx, ∀ o : COutPoint, o.hash = tx.getHash C.hash256 →
    (({} : CCoinsViewCache).toView base).getCoin o = none) ∧
  ∃ view' undo,
    connectBlock C mainParams av base {} block pindex witness_pruned false = .ok (view', undo) ∧
    ¬∃ view'', disconnectBlock base C.hash256 block pindex (some undo) view' = .ok (.ok, view'') ∧
      view''.toView base = ({} : CCoinsViewCache).toView base

/-- A run after which an outpoint does not have the coin that it had. -/
theorem notUndone_of_run {C : Crypto} {av : AssumeValid} {block : CBlock} {pindex : CBlockIndex}
    {witness_pruned : Bool} (hnew : ∀ tx ∈ block.vtx, ∀ o : COutPoint,
      o.hash = tx.getHash C.hash256 → (({} : CCoinsViewCache).toView base).getCoin o = none)
    (o : COutPoint) (outcome : Option (DisconnectResult × Option Coin))
    (hrun : (connectBlock C mainParams av base {} block pindex witness_pruned false).toOption.map
      (fun r => (disconnectBlock base C.hash256 block pindex (some r.2) r.1).toOption.map
        fun d => (d.1, d.2.getCoin base o)) = some outcome)
    (hne : outcome ≠ some (.ok, ({} : CCoinsViewCache).getCoin base o)) :
    NotUndone C av base block pindex witness_pruned := by
  obtain ⟨⟨view', undo⟩, hconnect, hback⟩ := exists_ok_of_toOption_map hrun
  refine ⟨hnew, view', undo, hconnect, ?_⟩
  rintro ⟨view'', hdisconnect, hsame⟩
  have hcoin : view''.getCoin base o = ({} : CCoinsViewCache).getCoin base o :=
    congrFun (congrArg CCoinsView.getCoin hsame) o
  rw [hdisconnect] at hback
  exact hne (hback ▸ hcoin ▸ rfl)

/-- **Where disconnecting does not undo connecting**: the genesis block, a block that spends a coin
whose height is 0, and a block that spends, while scripts are not checked, a coin that can never be
spent. -/
theorem disconnectBlock_connectBlock_fails :
    NotUndone mainCrypto {} (CCoinsViewDB.toView {}) mainGenesisBlock mainIndex0 false ∧
    NotUndone spendingCrypto {} (outputsView [coinWith [0x51] 0, coinWith [0x51] 7]) spendingBlock
      spendingIndex false ∧
    NotUndone spendingCrypto { assumed := some spendingIndex, m_best_header := some spendingIndex }
      (outputsView [coinWith [0x6a] 1]) spendingBlock spendingIndex true := by
  refine ⟨?_, ?_, ?_⟩
  · exact notUndone_of_run (fun _ _ _ _ => rfl) {} none (by decide +kernel) (by decide)
  · -- The coin comes back with the height of the other output.
    exact notUndone_of_run (new_outputsView _) { hash := 1, n := 0 }
      (some (.ok, some (coinWith [0x51] 7))) (by decide +kernel) (by decide +kernel)
  · exact notUndone_of_run (new_outputsView _) { hash := 1, n := 0 } (some (.ok, none))
      (by decide +kernel) (by decide +kernel)

end Qbit
