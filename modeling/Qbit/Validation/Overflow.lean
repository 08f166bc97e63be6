import Qbit.Validation.Supply

/-!
# No amount overflows

The amounts that `ConnectBlock` adds are in the money range, so that no sum of two of them
overflows: `avoids_connectBlock` says so for every block and every index, over every view whose
coins are in the money range.
-/

open Checked

namespace Qbit

@[simp] theorem avoids_liftTx {α : Type} {x : TxCheck α} {f : Fault} :
    Avoids (.fault f) (liftTx x) ↔ Avoids (.fault f) x := by
  rcases x with (_ | _ | _ | _) | a <;> simp [liftTx]

/-! ## The checks of a block -/

@[simp] theorem CAuxPow.avoids_serialize (a : CAuxPow) : Avoids .overflow a.serialize := by
  unfold CAuxPow.serialize
  split <;> simp

@[simp] theorem CBlockHeader.avoids_serialize (header : CBlockHeader) :
    Avoids .overflow header.serialize := by
  cases h : header.auxpow <;> simp [CBlockHeader.serialize, CBlockHeader.serializeAuxpow, h]

@[simp] theorem CBlock.avoids_getSerializeSize (allow_witness : Bool) (block : CBlock) :
    Avoids .overflow (block.getSerializeSize allow_witness) := by
  simp [getSerializeSize, CBlock.serialize]

@[simp] theorem avoids_checkBlockWeight (block : CBlock) :
    Avoids (.fault .overflow) (checkBlockWeight block) := by
  simp [checkBlockWeight, getBlockWeight]

@[simp] theorem avoids_checkTransactions (vtx : List CTransaction) :
    Avoids (.fault .overflow) (checkTransactions vtx) := by
  induction vtx with
  | nil => simp [checkTransactions]
  | cons tx vtx ih => simp [checkTransactions, ih]

@[simp] theorem avoids_checkSignetBlockSolution (C : Crypto) (block : CBlock) (params : Params) :
    Avoids (.fault .overflow) (checkSignetBlockSolution C block params) := by
  unfold checkSignetBlockSolution
  refine avoids_ite.mpr ⟨fun _ => avoids_ok, fun _ => ?_⟩
  split
  · exact avoids_ok
  refine avoids_bind.mpr ⟨by simp [PrecomputedTransactionData.init], fun _ _ => ?_⟩
  split
  · exact avoids_ok
  split <;> simp

@[simp] theorem avoids_checkBlockHeader (C : Crypto) (block : CBlockHeader) (params : Params)
    (fCheckPOW : Bool) : Avoids (.fault .overflow) (checkBlockHeader C block params fCheckPOW) := by
  unfold checkBlockHeader
  split <;> simp

@[simp] theorem avoids_checkBlock (C : Crypto) (params : Params) (block : CBlock)
    (fCheckPOW fCheckMerkleRoot : Bool) :
    Avoids (.fault .overflow) (checkBlock C params block fCheckPOW fCheckMerkleRoot) := by
  simp [checkBlock, checkMerkleRoot]

/-! ## The walks back through the chain -/

@[simp] theorem CBlockIndex.avoids_ancestorWalk (height : Int) (fuel : Nat) (p : CBlockIndex)
    (heightWalk : Int) : Avoids .overflow (ancestorWalk height fuel p heightWalk) := by
  induction fuel generalizing p heightWalk with
  | zero => simp [ancestorWalk]
  | succ fuel ih =>
    unfold ancestorWalk
    refine avoids_ite.mpr ⟨fun _ => avoids_ok, fun _ => ?_⟩
    dsimp only
    split
    · exact ih _ _
    · split
      · exact ih _ _
      · simp

@[simp] theorem CBlockIndex.avoids_getAncestor (p : CBlockIndex) (height : Int) :
    Avoids .overflow (p.getAncestor height) := by
  unfold getAncestor
  refine avoids_ite.mpr ⟨fun _ => avoids_ok, fun _ => ?_⟩
  have hwalk := avoids_ancestorWalk height (p.nHeight - height).toNat p p.nHeight
  exact avoids_bind.mpr ⟨hwalk, fun _ _ => avoids_ok⟩

@[simp] theorem avoids_canSkipScriptChecks (av : AssumeValid) (pindex : CBlockIndex)
    (witness_unavailable : Bool) :
    Avoids .overflow (canSkipScriptChecks av pindex witness_unavailable) := by
  refine avoids_bind.mpr ⟨?_, fun _ _ => avoids_ok⟩
  unfold isAssumedValidAncestor
  split <;> simp

@[simp] theorem avoids_enforceBIP30 (params : Params) (pindex pprev : CBlockIndex) :
    Avoids .overflow (enforceBIP30 params pindex pprev) := by
  simp [enforceBIP30]

@[simp] theorem avoids_sequenceLockLoop (block : CBlockIndex) (inputs : List (CTxIn × Int))
    (lock : Int × Int) : Avoids .overflow (sequenceLockLoop block lock inputs) := by
  induction inputs generalizing lock with
  | nil => simp [sequenceLockLoop]
  | cons input inputs ih =>
    simp [sequenceLockLoop, inputSequenceLock, ih]
    intro _ _ ancestor _
    cases ancestor <;> simp

@[simp] theorem avoids_sequenceLocks (tx : CTransaction) (enforce : Bool) (prevHeights : List Int)
    (block : CBlockIndex) : Avoids .overflow (sequenceLocks tx enforce prevHeights block) := by
  cases h : block.pprev <;> simp [sequenceLocks, calculateSequenceLocks, evaluateSequenceLocks, h]

/-! ## The coins and scripts of a transaction -/

@[simp] theorem avoids_countWitnessSigOps (scriptSig scriptPubKey : List UInt8)
    (witness : List Valtype) (flags : VerifyFlags) :
    Avoids .overflow (countWitnessSigOps scriptSig scriptPubKey witness flags) := by
  simp only [countWitnessSigOps, avoids_ite, avoids_bind, avoids_require]
  refine ⟨fun _ => avoids_ok, fun _ => ⟨trivial, fun _ _ => ?_⟩⟩
  split
  · exact avoids_ok
  · refine avoids_ite.mpr ⟨fun _ => ?_, fun _ => avoids_ok⟩
    split <;> exact avoids_ok

@[simp] theorem avoids_inputsSigOpCost (inputs : CCoinsView) (flags : VerifyFlags)
    (vin : List CTxIn) : Avoids .overflow (inputsSigOpCost inputs flags vin) := by
  induction vin with
  | nil => simp [inputsSigOpCost]
  | cons txin vin ih => simp [inputsSigOpCost, inputSigOpCost, ih]

@[simp] theorem avoids_spentOutputs (inputs : CCoinsView) (vin : List CTxIn) :
    Avoids .overflow (spentOutputs inputs vin) := by
  induction vin with
  | nil => simp [spentOutputs]
  | cons txin vin ih => simp [spentOutputs, ih]

@[simp] theorem avoids_checkScripts (C : Crypto) (flags : VerifyFlags) (is : List SpendingInput) :
    Avoids (.fault .overflow) (checkScripts C flags is) := by
  induction is with
  | nil => simp [checkScripts]
  | cons i is ih =>
    unfold checkScripts
    split <;> simp [ih]

@[simp] theorem CCoinsViewCache.avoids_addCoin (view : CCoinsViewCache) (o : COutPoint)
    (coin : Coin) (possible_overwrite : Bool) :
    Avoids .overflow (view.addCoin o coin possible_overwrite) := by
  cases h : view.cacheCoins.lookup o <;> simp [addCoin, h]

@[simp] theorem avoids_spendInputs (base : CCoinsView) (view : CCoinsViewCache)
    (vin : List CTxIn) : Avoids .overflow (spendInputs base view vin) := by
  induction vin generalizing view with
  | nil => simp [spendInputs]
  | cons txin vin ih => cases h : view.spendCoin base txin.prevout <;> simp [spendInputs, h, ih]

@[simp] theorem CCoinsViewCache.avoids_addOutputs (base : CCoinsView) (txid : Uint256)
    (fCoinbase check_for_overwrite : Bool) (nHeight : Int) (view : CCoinsViewCache) (n : Nat)
    (vout : List CTxOut) :
    Avoids .overflow (addOutputs base txid fCoinbase nHeight check_for_overwrite view n vout) := by
  induction vout generalizing view n with
  | nil => simp [addOutputs]
  | cons out vout ih => simp [addOutputs, ih]

@[simp] theorem avoids_updateCoins (hash256 : HashFn) (base : CCoinsView) (tx : CTransaction)
    (view : CCoinsViewCache) (nHeight : Int) :
    Avoids .overflow (updateCoins hash256 base tx view nHeight) := by
  simp [updateCoins, CCoinsViewCache.addCoins]

/-! ## The amounts -/

@[simp] theorem avoids_orLeave {α : Type} {nFees : Int} {x : BlockCheck α}
    {go : α → BlockCheck TxOutcome} {f : Fault} :
    Avoids (.fault f) (orLeave nFees x go) ↔
      Avoids (.fault f) x ∧ ∀ a, x = .ok a → Avoids (.fault f) (go a) := by
  rcases x with (_ | _ | _ | _) | a <;> simp [orLeave]

section Amounts

variable {C : Crypto} {params : Params} {base : CCoinsView} {pindex : CBlockIndex}
  {flags : VerifyFlags} {fScriptChecks : Bool} {s : ConnectState}

theorem avoids_checkCountedTx (s : ConnectState) (nFees : Int) (tx : CTransaction) :
    Avoids (.fault .overflow)
      (checkCountedTx C params base pindex flags fScriptChecks s nFees tx) := by
  simp [checkCountedTx, getTransactionSigOpCost, checkInputScripts]

theorem avoids_connectTx (hcoins : CoinsInRange (s.view.toView base))
    (hfees : moneyRange s.nFees = true) (tx : CTransaction) :
    Avoids (.fault .overflow) (connectTx C params base pindex flags fScriptChecks s tx) := by
  simp only [connectTx, avoids_orLeave, avoids_rejectIf, true_and]
  refine fun _ _ => ⟨?_, fun txfee hfee => ?_⟩
  · simp [txFee, avoids_checkTxInputs hcoins]
  · simp [add64_of_moneyRange hfees (moneyRange_txFee hfee), avoids_checkCountedTx]

theorem avoids_connectLoop (hbase : CoinsInRange base) {vtx : List CTransaction}
    (hvout : ∀ tx ∈ vtx, ∀ out ∈ tx.vout, moneyRange out.nValue.toInt = true)
    (hview : s.view.InRange) (hfees : moneyRange s.nFees = true) :
    Avoids (.fault .overflow) (connectLoop C params base pindex flags fScriptChecks s vtx) := by
  induction vtx generalizing s with
  | nil => simp [connectLoop]
  | cons tx vtx ih =>
    obtain ⟨htx, hvout⟩ := List.forall_mem_cons.mp hvout
    refine avoids_bind.mpr ⟨avoids_connectTx (hview.toView hbase) hfees tx, fun outcome hfirst => ?_⟩
    cases outcome with
    | left _ _ _ => exact avoids_ok
    | next mid =>
      obtain ⟨_, _, _, -, -, -, hupdate, -⟩ := connectTx_eq_next hfirst
      exact ih hvout (updateCoins_inRange hview htx hupdate) (connectTx_fees hfees hfirst)

/-- Fees that were counted once more than they were checked. -/
def FeesFit (outcome : TxOutcome) : Prop :=
  0 ≤ outcome.nFees ∧ outcome.nFees ≤ maxMoney + maxMoney

theorem ensures_orLeave {α : Type} {nFees : Int} {x : BlockCheck α} {go : α → BlockCheck TxOutcome}
    {Q : TxOutcome → Prop} (hleft : ∀ result reason, Q (.left nFees result reason))
    (hgo : ∀ a, x = .ok a → Ensures (go a) Q) : Ensures (orLeave nFees x go) Q := by
  rcases x with (_ | _ | _ | _) | a <;> simp_all [orLeave]

theorem connectTx_feesFit (hfees : moneyRange s.nFees = true) (tx : CTransaction) :
    Ensures (connectTx C params base pindex flags fScriptChecks s tx) FeesFit := by
  have hstart := moneyRange_iff.mp hfees
  have hleft : ∀ result reason, FeesFit (.left s.nFees result reason) := by
    intro result reason
    refine ⟨hstart.1, ?_⟩
    rw [TxOutcome.nFees]
    omega
  refine ensures_orLeave hleft fun _ _ => ensures_orLeave hleft fun txfee hfee => ?_
  have hrange := moneyRange_iff.mp (moneyRange_txFee hfee)
  rw [add64_of_moneyRange hfees (moneyRange_txFee hfee)]
  have hsum : 0 ≤ s.nFees + txfee ∧ s.nFees + txfee ≤ maxMoney + maxMoney := by omega
  exact .bind (P := fun nFees => nFees = s.nFees + txfee) (.ok rfl) fun nFees heq =>
    ensures_orLeave (fun _ _ => heq ▸ hsum) fun _ _ => .bind_any fun _ => .ok (heq ▸ hsum)

theorem connectLoop_feesFit {vtx : List CTransaction} (hfees : moneyRange s.nFees = true) :
    Ensures (connectLoop C params base pindex flags fScriptChecks s vtx) FeesFit := by
  induction vtx generalizing s with
  | nil =>
    have hstart := moneyRange_iff.mp hfees
    refine .ok ⟨hstart.1, ?_⟩
    rw [TxOutcome.nFees]
    omega
  | cons tx vtx ih =>
    intro outcome hloop
    obtain ⟨first, hfirst, hrest⟩ := bind_eq_ok_iff.mp hloop
    cases first with
    | left nFees result reason =>
      cases hrest
      exact connectTx_feesFit hfees tx _ hfirst
    | next mid => exact ih (connectTx_fees hfees hfirst) outcome hrest

/-- **The fees and the reward.** -/
theorem avoids_connectTransactions (hschedule : SubsidySchedule params) (hbase : CoinsInRange base)
    {view : CCoinsViewCache} (hview : view.InRange) {block : CBlock}
    (htxs : CheckedTransactions block.vtx) (pprev : CBlockIndex) (fScriptChecks : Bool) :
    Avoids (.fault .overflow)
      (connectTransactions C params base view block pindex pprev fScriptChecks) := by
  obtain ⟨subsidy, hsubsidy, hrange⟩ := exists_getBlockSubsidy hschedule pindex.nHeight
  simp only [connectTransactions, avoids_bind, avoids_liftFault, avoids_enforceBIP30, true_and]
  refine fun bip30 _ => ⟨?_, fun outcome houtcome => ?_⟩
  · simp only [avoids_ite, pure_eq_ok, avoids_ok, implies_true, true_and]
    exact fun _ => avoids_connectLoop hbase htxs.outputs hview moneyRange_zero
  · have hfit : FeesFit outcome := by
      split at houtcome
      · cases houtcome
        exact ⟨le_refl _, by decide⟩
      · exact connectLoop_feesFit moneyRange_zero _ houtcome
    have hreward : add64 outcome.nFees subsidy = .ok (outcome.nFees + subsidy) := by
      have hmoney : maxMoney = 21000000000000000 := rfl
      have := moneyRange_iff.mp hrange
      obtain ⟨hlow, hhigh⟩ := hfit
      exact int64_of_inRange ⟨by omega, by omega⟩
    cases block.vtx <;> cases outcome <;> simp [hsubsidy, hreward]

end Amounts

/-- **Nothing in `ConnectBlock` overflows**, whatever the block. -/
theorem avoids_connectBlock {C : Crypto} {params : Params} (hschedule : SubsidySchedule params)
    {base : CCoinsView} (hbase : CoinsInRange base) {view : CCoinsViewCache} (hview : view.InRange)
    (av : AssumeValid) (block : CBlock) (pindex : CBlockIndex) (witness_pruned fJustCheck : Bool) :
    Avoids (.fault .overflow)
      (connectBlock C params av base view block pindex witness_pruned fJustCheck) := by
  simp only [connectBlock, avoids_bind, avoids_liftFault, avoids_require, true_and]
  refine fun _ _ => ⟨?_, fun _ hcheck _ _ => ?_⟩
  · have hchecked := avoids_checkBlock C params block (!fJustCheck) (!fJustCheck)
    split
    · simp
    · exact hchecked
  · have htxs : CheckedTransactions block.vtx := by
      split at hcheck
      · cases hcheck
      · exact checkedTransactions_of_checkBlock hcheck
    cases h : pindex.pprev <;> simp [avoids_connectTransactions hschedule hbase hview htxs]

end Qbit
