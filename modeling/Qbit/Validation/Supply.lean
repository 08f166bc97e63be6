import Qbit.Coins.Range
import Qbit.Validation.Connect

/-!
# The money supply

`ConnectBlock` lets a block create as much money as its subsidy.  A transaction spends what its
inputs are worth and creates what its outputs are worth, and the difference is its fee; the coinbase
may create the fees and the subsidy.  So the stock of the coins grows by at most the subsidy with
every block (`connectBlock_total`), and after a chain of blocks it is at most the sum of their
subsidies.
-/

open Checked

namespace Qbit

open CCoinsViewCache

/-! ## One transaction -/

variable {h : Holding COutPoint} {base : CCoinsView} {view view' : CCoinsViewCache}
  {tx : CTransaction}

section Totals

variable {vin : List CTxIn} {undo : List Coin} {hash256 : HashFn} {nHeight : Int}

/-- **Spending inputs** lowers the stock by what they are worth. -/
theorem spendInputs_total (hfin : h.Finite) (hbase : Shows h base) {coinOf : COutPoint → Coin}
    (hnodup : (vin.map CTxIn.prevout).Nodup)
    (hcoins : ∀ txin ∈ vin, view.getCoin base txin.prevout = some (coinOf txin.prevout))
    (hspend : spendInputs base view vin = .ok (view', undo)) :
    (h.under view'.layer).total + (vin.map fun txin => (coinOf txin.prevout).amount).sum ≤
      (h.under view.layer).total := by
  induction vin generalizing view undo with
  | nil =>
    cases hspend
    exact le_refl _
  | cons txin vin ih =>
    obtain ⟨hcoin, hcoins⟩ := List.forall_mem_cons.mp hcoins
    obtain ⟨hnew, hnodup⟩ := List.nodup_cons.mp hnodup
    obtain ⟨mid, hfirst, hoff, htotal⟩ := spendCoin_total hfin hbase hcoin
    simp [spendInputs, hfirst] at hspend
    obtain ⟨rest, hrest, -⟩ := hspend
    -- The other inputs spend other coins.
    have hcoins' : ∀ txin' ∈ vin, mid.getCoin base txin'.prevout = some (coinOf txin'.prevout) := by
      intro txin' hmem
      have hne : txin'.prevout ≠ txin.prevout := by
        intro heq
        exact hnew (heq ▸ List.mem_map_of_mem hmem)
      rw [getCoin_congr (hoff _ hne)]
      exact hcoins txin' hmem
    have := ih hnodup hcoins' hrest
    rw [List.map_cons, List.sum_cons]
    omega

theorem spendInputs_inRange (hview : view.InRange)
    (hspend : spendInputs base view vin = .ok (view', undo)) : view'.InRange := by
  induction vin generalizing view undo with
  | nil =>
    cases hspend
    exact hview
  | cons txin vin ih =>
    cases hfirst : view.spendCoin base txin.prevout with
    | none => simp [spendInputs, hfirst] at hspend
    | some spent =>
      simp [spendInputs, hfirst] at hspend
      obtain ⟨rest, hrest, -⟩ := hspend
      exact ih (hview.spendCoin hfirst) hrest

theorem updateCoins_total (hfin : h.Finite) (hbase : Shows h base)
    (hnodup : (tx.vin.map CTxIn.prevout).Nodup)
    (hcoins : tx.isCoinBase = false → ∀ txin ∈ tx.vin,
      (view.toView base).getCoin txin.prevout = some ((view.toView base).accessCoin txin.prevout))
    (hupdate : updateCoins hash256 base tx view nHeight = .ok (view', undo)) :
    (h.under view'.layer).total +
        (if tx.isCoinBase then 0 else inputsAmount (view.toView base) tx.vin) ≤
      (h.under view.layer).total + outputsAmount tx.vout := by
  simp [updateCoins] at hupdate
  obtain ⟨mid, hspend, hadd⟩ := hupdate
  have hadded := addOutputs_total hfin hadd
  rw [← outputsAmount] at hadded
  cases hcoinbase : tx.isCoinBase with
  | true =>
    simp [hcoinbase] at hspend
    simpa [hspend] using hadded
  | false =>
    simp only [hcoinbase, Bool.false_eq_true, if_false, inputsAmount] at hspend ⊢
    have htaken := spendInputs_total hfin hbase hnodup (hcoins hcoinbase) hspend
    omega

theorem updateCoins_inRange (hview : view.InRange)
    (hvout : ∀ out ∈ tx.vout, moneyRange out.nValue.toInt = true)
    (hupdate : updateCoins hash256 base tx view nHeight = .ok (view', undo)) : view'.InRange := by
  simp [updateCoins] at hupdate
  obtain ⟨mid, hspend, hadd⟩ := hupdate
  refine CCoinsViewCache.InRange.addOutputs ?_ hvout hadd
  split at hspend
  · cases hspend
    exact hview
  · exact spendInputs_inRange hview hspend

end Totals

/-! ## The loop over the transactions -/

@[simp] theorem liftTx_eq_ok_iff {α : Type} {x : TxCheck α} {a : α} : liftTx x = .ok a ↔ x = .ok a := by
  rcases x with (_ | _ | _ | _) | b <;> simp [liftTx, invalid]

@[simp] theorem orLeave_eq_next_iff {α : Type} {nFees : Int} {x : BlockCheck α}
    {go : α → BlockCheck TxOutcome} {s : ConnectState} :
    orLeave nFees x go = .ok (.next s) ↔ ∃ a, x = .ok a ∧ go a = .ok (.next s) := by
  rcases x with (_ | _ | _ | _) | a <;> simp [orLeave]

variable {C : Crypto} {params : Params} {pindex : CBlockIndex} {fScriptChecks : Bool}
  {s : ConnectState} {vtx : List CTransaction}

section Loop

variable {flags : VerifyFlags} {s' : ConnectState}

theorem connectTx_eq_next (hconnect :
    connectTx C params base pindex flags fScriptChecks s tx = .ok (.next s')) :
    ∃ txfee cost undo, txFee base pindex s.view tx = .ok txfee ∧
      add64 s.nFees txfee = .ok s'.nFees ∧
      checkCountedTx C params base pindex flags fScriptChecks s s'.nFees tx = .ok cost ∧
      updateCoins C.hash256 base tx s.view pindex.nHeight = .ok (s'.view, undo) ∧
      s'.vtxundo = s.vtxundo ++ [undo] := by
  simp [connectTx] at hconnect
  obtain ⟨-, txfee, hfee, nFees, hadd, cost, hcounted, view, undo, hupdate, rfl⟩ := hconnect
  exact ⟨txfee, cost, undo, hfee, hadd, hcounted, hupdate, rfl⟩

theorem moneyRange_txFee {txfee : Int} (hfee : txFee base pindex view tx = .ok txfee) :
    moneyRange txfee = true := by
  unfold txFee at hfee
  split at hfee
  · cases hfee
    rfl
  · exact (checkTxInputs_spec (by simpa using hfee)).2.1

theorem connectTx_fees (hfees : moneyRange s.nFees = true) (hconnect :
    connectTx C params base pindex flags fScriptChecks s tx = .ok (.next s')) :
    moneyRange s'.nFees = true := by
  obtain ⟨txfee, cost, undo, hfee, hadd, hcounted, -⟩ := connectTx_eq_next hconnect
  rw [add64_of_moneyRange hfees (moneyRange_txFee hfee)] at hadd
  cases hcoinbase : tx.isCoinBase with
  | true =>
    simp [txFee, hcoinbase] at hfee
    rwa [← Except.ok.inj hadd, ← hfee, Int.add_zero]
  | false =>
    simp [checkCountedTx, hcoinbase] at hcounted
    exact hcounted.1

/-- What a transaction that creates money without inputs creates. -/
def coinbaseAmount (tx : CTransaction) : Nat := if tx.isCoinBase then outputsAmount tx.vout else 0

/-- **One transaction**: what it adds to the stock and to the fees is what a coinbase creates. -/
theorem connectTx_total (hfin : h.Finite) (hbase : Shows h base)
    (hnodup : (tx.vin.map CTxIn.prevout).Nodup) (hfees : moneyRange s.nFees = true)
    (hconnect : connectTx C params base pindex flags fScriptChecks s tx = .ok (.next s')) :
    (h.under s'.view.layer).total + s'.nFees ≤
      (h.under s.view.layer).total + s.nFees + coinbaseAmount tx := by
  obtain ⟨txfee, cost, undo, hfee, hadd, -, hupdate, -⟩ := connectTx_eq_next hconnect
  rw [add64_of_moneyRange hfees (moneyRange_txFee hfee)] at hadd
  have hsum : s.nFees + txfee = s'.nFees := Except.ok.inj hadd
  cases hcoinbase : tx.isCoinBase with
  | true =>
    have htotal := updateCoins_total hfin hbase hnodup (by simp [hcoinbase]) hupdate
    simp [txFee, coinbaseAmount, hcoinbase] at hfee htotal ⊢
    omega
  | false =>
    simp [txFee, hcoinbase] at hfee
    obtain ⟨hpaid, -, hcoins⟩ := checkTxInputs_spec hfee
    have htotal := updateCoins_total hfin hbase hnodup (fun _ => hcoins) hupdate
    simp [coinbaseAmount, hcoinbase] at htotal ⊢
    omega

/-- **The whole loop.** -/
theorem connectLoop_total (hfin : h.Finite) (hbase : Shows h base)
    (hnodup : ∀ tx ∈ vtx, (tx.vin.map CTxIn.prevout).Nodup) (hfees : moneyRange s.nFees = true)
    (hconnect : connectLoop C params base pindex flags fScriptChecks s vtx = .ok (.next s')) :
    (h.under s'.view.layer).total + s'.nFees ≤
      (h.under s.view.layer).total + s.nFees + ((vtx.map coinbaseAmount).sum : Nat) := by
  induction vtx generalizing s with
  | nil =>
    cases hconnect
    simp
  | cons tx vtx ih =>
    obtain ⟨htx, hnodup⟩ := List.forall_mem_cons.mp hnodup
    obtain ⟨outcome, hfirst, hrest⟩ := bind_eq_ok_iff.mp hconnect
    cases outcome with
    | left _ _ _ => cases hrest
    | next mid =>
      have hstep := connectTx_total hfin hbase htx hfees hfirst
      have hloop := ih hnodup (connectTx_fees hfees hfirst) hrest
      rw [List.map_cons, List.sum_cons, Nat.cast_add]
      omega

theorem connectLoop_inRange
    (hvout : ∀ tx ∈ vtx, ∀ out ∈ tx.vout, moneyRange out.nValue.toInt = true)
    (hview : s.view.InRange)
    (hconnect : connectLoop C params base pindex flags fScriptChecks s vtx = .ok (.next s')) :
    s'.view.InRange := by
  induction vtx generalizing s with
  | nil =>
    cases hconnect
    exact hview
  | cons tx vtx ih =>
    obtain ⟨htx, hvout⟩ := List.forall_mem_cons.mp hvout
    obtain ⟨outcome, hfirst, hrest⟩ := bind_eq_ok_iff.mp hconnect
    cases outcome with
    | left _ _ _ => cases hrest
    | next mid =>
      obtain ⟨_, _, _, -, -, -, hupdate, -⟩ := connectTx_eq_next hfirst
      exact ih hvout (updateCoins_inRange hview htx hupdate) hrest

end Loop

/-! ## One block -/

/-- What `CheckBlock` says about the transactions of a block: the first is the only coinbase, the
outputs are in the money range, and no transaction spends a coin twice. -/
structure CheckedTransactions (vtx : List CTransaction) : Prop where
  head : vtx.head?.any CTransaction.isCoinBase = true
  tail : ∀ tx ∈ vtx.tail, tx.isCoinBase = false
  outputs : ∀ tx ∈ vtx, ∀ out ∈ tx.vout, moneyRange out.nValue.toInt = true
  inputs : ∀ tx ∈ vtx, (tx.vin.map CTxIn.prevout).Nodup

variable {u : Unit} {block : CBlock} {fCheckPOW fCheckMerkleRoot : Bool}

theorem checkTransaction_of_mem (h : checkTransactions vtx = .ok u) :
    ∀ tx ∈ vtx, checkTransaction tx = .ok () := by
  induction vtx with
  | nil => simp
  | cons tx vtx ih =>
    simp [checkTransactions] at h
    obtain ⟨⟨_, hfirst⟩, hrest⟩ := h
    exact List.forall_mem_cons.mpr ⟨hfirst, ih hrest⟩

theorem transactions_of_checkBlock
    (h : checkBlock C params block fCheckPOW fCheckMerkleRoot = .ok u) :
    block.vtx.head?.any CTransaction.isCoinBase = true ∧
      (∀ tx ∈ block.vtx.tail, tx.isCoinBase = false) ∧
      ∀ tx ∈ block.vtx, checkTransaction tx = .ok () := by
  simp [checkBlock] at h
  obtain ⟨-, -, -, -, _, -, -, hhead, htail, ⟨_, htxs⟩, -⟩ := h
  exact ⟨hhead, htail, checkTransaction_of_mem htxs⟩

theorem checkedTransactions_of_checkBlock
    (h : checkBlock C params block fCheckPOW fCheckMerkleRoot = .ok u) :
    CheckedTransactions block.vtx := by
  obtain ⟨hhead, htail, htxs⟩ := transactions_of_checkBlock h
  exact
    { head := hhead
      tail := htail
      outputs := fun tx htx => (checkTransaction_amounts (htxs tx htx)).1
      inputs := fun tx htx => (checkTransaction_amounts (htxs tx htx)).2 }

/-- Only the first transaction of a block creates money without inputs. -/
theorem CheckedTransactions.sum_coinbaseAmount {coinbase : CTransaction}
    (h : CheckedTransactions (coinbase :: vtx)) :
    ((coinbase :: vtx).map coinbaseAmount).sum = outputsAmount coinbase.vout := by
  have hhead : coinbase.isCoinBase = true := by simpa using h.head
  have htail : vtx.map coinbaseAmount = vtx.map fun _ => 0 := by
    refine List.map_congr_left fun tx htx => ?_
    simp [coinbaseAmount, h.tail tx htx]
  rw [List.map_cons, List.sum_cons, htail, coinbaseAmount, hhead, if_pos rfl]
  simp

section Block

variable {pprev : CBlockIndex} {witness_pruned fJustCheck : Bool} {subsidy : Int} {av : AssumeValid}
  {undo : List (List Coin)}

/-- What has been done when the transactions are connected: the loop has gone through all of them, and
the coinbase claims at most the fees and the subsidy. -/
theorem connectTransactions_eq_ok
    (hconnect : connectTransactions C params base view block pindex pprev fScriptChecks = .ok s) :
    connectLoop C params base pindex (getBlockScriptFlags params pindex) fScriptChecks { view }
        block.vtx = .ok (.next s) ∧
      ∃ subsidy coinbase vtx paid, getBlockSubsidy pindex.nHeight params = .ok subsidy ∧
        block.vtx = coinbase :: vtx ∧ coinbase.getValueOut = .ok paid ∧ paid ≤ s.nFees + subsidy := by
  simp only [connectTransactions, bind_eq_ok_iff, liftFault_eq_ok_iff] at hconnect
  obtain ⟨bip30, -, outcome, hloop, subsidy, hsubsidy, reward, hreward, paid, hpaid, hconnect⟩ :=
    hconnect
  cases outcome with
  | left _ _ _ => cases hconnect
  | next last =>
    simp [add64, int64_eq_ok_iff, TxOutcome.nFees] at hconnect hreward
    obtain ⟨hcap, rfl⟩ := hconnect
    obtain ⟨-, rfl⟩ := hreward
    split at hloop
    · cases hloop
    split at hpaid
    · cases hpaid
    · exact ⟨hloop, subsidy, _, _, paid, hsubsidy, by assumption, by simpa using hpaid, hcap⟩

/-- **A block creates at most its subsidy.** -/
theorem connectTransactions_total (hfin : h.Finite) (hbase : Shows h base)
    (htxs : CheckedTransactions block.vtx)
    (hsubsidy : getBlockSubsidy pindex.nHeight params = .ok subsidy)
    (hconnect : connectTransactions C params base view block pindex pprev fScriptChecks = .ok s) :
    ((h.under s.view.layer).total : Int) ≤ (h.under view.layer).total + subsidy := by
  obtain ⟨hloop, granted, coinbase, vtx, paid, hgranted, hvtx, hpaid, hcap⟩ :=
    connectTransactions_eq_ok hconnect
  cases hsubsidy.symm.trans hgranted
  have htotal := connectLoop_total hfin hbase htxs.inputs moneyRange_zero hloop
  rw [hvtx] at htxs htotal
  obtain ⟨hvalue, -⟩ := CTransaction.getValueOut_eq hpaid
  rw [htxs.sum_coinbaseAmount] at htotal
  dsimp only at htotal
  omega

theorem connectTransactions_inRange (htxs : CheckedTransactions block.vtx) (hview : view.InRange)
    (hconnect : connectTransactions C params base view block pindex pprev fScriptChecks = .ok s) :
    s.view.InRange :=
  connectLoop_inRange htxs.outputs hview (connectTransactions_eq_ok hconnect).1

/-- What `ConnectBlock` has done when it succeeds: nothing but to set the best block for the genesis
block, and else what the transactions do. -/
theorem connectBlock_eq_ok
    (hconnect : connectBlock C params av base view
      block pindex witness_pruned fJustCheck = .ok (view', undo)) :
    checkBlock C params block (!fJustCheck) (!fJustCheck) = .ok () ∧
      (pindex.pprev.map CBlockIndex.hashBlock).getD 0 = view.getBestBlock base ∧
      ((block.getHash C.hash256 = params.hashGenesisBlock ∧
          view' = (if fJustCheck then view else view.setBestBlock pindex.hashBlock) ∧ undo = []) ∨
        ∃ pprev fScriptChecks s, pindex.pprev = some pprev ∧
          connectTransactions C params base view block pindex pprev fScriptChecks = .ok s ∧
          view' = (if fJustCheck then s.view else s.view.setBestBlock pindex.hashBlock) ∧
          undo = s.vtxundo.tail) := by
  simp [connectBlock] at hconnect
  obtain ⟨-, ⟨_, hcheck⟩, hbest, hconnect⟩ := hconnect
  refine ⟨?_, hbest, ?_⟩
  · split at hcheck
    · cases hcheck
    · exact hcheck
  · split at hconnect
    · rename_i hgenesis
      cases hconnect
      exact Or.inl ⟨hgenesis, rfl, rfl⟩
    cases hprev : pindex.pprev with
    | none => simp [hprev] at hconnect
    | some pprev =>
      simp only [hprev, bind_eq_ok_iff] at hconnect
      obtain ⟨-, -, skip, -, s, hs, hview'⟩ := hconnect
      cases hview'
      exact Or.inr ⟨pprev, !skip, s, rfl, hs, rfl, rfl⟩

theorem connectBlock_cases
    (hconnect : connectBlock C params av base view
      block pindex witness_pruned fJustCheck = .ok (view', undo)) :
    CheckedTransactions block.vtx ∧
      (view'.cacheCoins = view.cacheCoins ∨
        ∃ pprev fScriptChecks s, pindex.pprev = some pprev ∧ view'.cacheCoins = s.view.cacheCoins ∧
          connectTransactions C params base view block pindex pprev fScriptChecks = .ok s) := by
  obtain ⟨hcheck, -, ⟨-, rfl, -⟩ | ⟨pprev, fScriptChecks, s, hprev, hs, rfl, -⟩⟩ :=
    connectBlock_eq_ok hconnect
  · refine ⟨checkedTransactions_of_checkBlock hcheck, Or.inl ?_⟩
    split <;> rfl
  · refine ⟨checkedTransactions_of_checkBlock hcheck,
      Or.inr ⟨pprev, fScriptChecks, s, hprev, ?_, hs⟩⟩
    split <;> rfl

theorem CCoinsViewCache.layer_congr (h : view'.cacheCoins = view.cacheCoins) :
    view'.layer = view.layer := by
  funext o
  rw [layer, layer, h]

theorem CCoinsViewCache.inRange_congr (h : view'.cacheCoins = view.cacheCoins)
    (hview : view.InRange) : view'.InRange := by
  intro o entry hlookup
  rw [h] at hlookup
  exact hview o entry hlookup

/-- **A block creates at most its subsidy**, and none if it has no parent. -/
theorem connectBlock_total (hfin : h.Finite) (hbase : Shows h base)
    (hsubsidy : getBlockSubsidy pindex.nHeight params = .ok subsidy) (hnonneg : 0 ≤ subsidy)
    (hconnect : connectBlock C params av base view block pindex witness_pruned fJustCheck =
      .ok (view', undo)) :
    ((h.under view'.layer).total : Int) ≤
      (h.under view.layer).total + if pindex.pprev.isSome then subsidy else 0 := by
  obtain ⟨htxs, hsame | ⟨pprev, fScriptChecks, s, hprev, hsame, hs⟩⟩ := connectBlock_cases hconnect
  · rw [layer_congr hsame]
    split <;> omega
  · rw [layer_congr hsame, hprev]
    exact connectTransactions_total hfin hbase htxs hsubsidy hs

theorem connectBlock_inRange (hview : view.InRange)
    (hconnect : connectBlock C params av base view block pindex witness_pruned fJustCheck =
      .ok (view', undo)) : view'.InRange := by
  obtain ⟨htxs, hsame | ⟨pprev, fScriptChecks, s, -, hsame, hs⟩⟩ := connectBlock_cases hconnect
  · exact inRange_congr hsame hview
  · exact inRange_congr hsame (connectTransactions_inRange htxs hview hs)

end Block

end Qbit
