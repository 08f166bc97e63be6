import Qbit.Coins.Stock
import Qbit.Consensus.TxVerify

/-!
# Coins in the money range

Every coin of a view comes from an output that passed `CheckTransaction`, so its value is in the money
range.  This is an invariant of the entries of a cache, and of the database; it is kept by every
operation on them.
-/

open Checked

namespace Qbit

/-- A coin that is spent, or whose value is in the money range. -/
def Coin.InRange (coin : Coin) : Prop := coin.isSpent = true ∨ moneyRange coin.out.nValue.toInt = true

namespace CCoinsViewCache

/-- Every entry of a cache is in the money range. -/
def InRange (view : CCoinsViewCache) : Prop :=
  ∀ o entry, view.cacheCoins.lookup o = some entry → entry.coin.InRange

variable {base : CCoinsView} {view view' : CCoinsViewCache}

theorem inRange_empty (hashBlock : Uint256) : InRange { hashBlock } := by
  intro o entry h
  cases h

variable {o : COutPoint} {entry : CCoinsCacheEntry}

variable (h : view.InRange)

include h

theorem InRange.set (hcoin : entry.coin.InRange) :
    (view.set o entry).InRange := forall_lookup_set hcoin h

theorem InRange.erase (o : COutPoint) : (view.erase o).InRange :=
  forall_lookup_erase o h

theorem InRange.toView (hbase : CoinsInRange base) : CoinsInRange (view.toView base) := by
  intro o coin hcoin
  obtain ⟨hunspent, fresh, -, hlookup | ⟨-, -, hshown⟩⟩ := getCoin_cases hcoin
  · exact (h o _ hlookup).resolve_left (by simp [hunspent])
  · exact hbase o _ hshown

theorem InRange.addCoin {coin : Coin} {possible_overwrite : Bool} (hcoin : coin.InRange)
    (hadd : view.addCoin o coin possible_overwrite = .ok view') :
    view'.InRange := by
  obtain ⟨-, ⟨-, rfl⟩ | ⟨-, ⟨-, rfl⟩ | ⟨entry, -, -, rfl⟩⟩⟩ := addCoin_cases hadd
  · exact h
  · exact h.set hcoin
  · exact h.set hcoin

theorem InRange.addOutputs {txid : Uint256}
    {fCoinbase check_for_overwrite : Bool} {nHeight : Int} {n : Nat} {vout : List CTxOut}
    (hvout : ∀ out ∈ vout, moneyRange out.nValue.toInt = true)
    (hadd : CCoinsViewCache.addOutputs base txid fCoinbase nHeight check_for_overwrite view n vout =
      .ok view') : view'.InRange := by
  induction vout generalizing view n with
  | nil =>
    cases hadd
    exact h
  | cons out vout ih =>
    obtain ⟨hout, hvout⟩ := List.forall_mem_cons.mp hvout
    obtain ⟨mid, hfirst, hrest⟩ := bind_eq_ok_iff.mp hadd
    exact ih (h.addCoin (.inr hout) hfirst) hvout hrest

theorem InRange.spendCoin {coin : Coin} (hspend : view.spendCoin base o = some (coin, view')) :
    view'.InRange := by
  unfold CCoinsViewCache.spendCoin at hspend
  split at hspend <;> cases hspend
  split
  · exact h.erase o
  · exact h.set (.inl rfl)

theorem InRange.writeEntry (hcoin : entry.coin.InRange)
    (hwrite : view.writeEntry o entry = .ok view') :
    view'.InRange := by
  unfold CCoinsViewCache.writeEntry at hwrite
  split at hwrite <;> split_ifs at hwrite <;> cases hwrite
  · exact h
  · exact h.set hcoin
  · exact h.erase o
  · exact h.set hcoin

theorem InRange.writeEntries {entries : List (Sigma fun _ : COutPoint => CCoinsCacheEntry)}
    (hentries : ∀ e ∈ entries, e.2.coin.InRange) (hwrite : view.writeEntries entries = .ok view') :
    view'.InRange := by
  induction entries generalizing view with
  | nil =>
    cases hwrite
    exact h
  | cons e entries ih =>
    obtain ⟨he, hentries⟩ := List.forall_mem_cons.mp hentries
    obtain ⟨mid, hfirst, hrest⟩ := bind_eq_ok_iff.mp hwrite
    exact ih (h.writeEntry he hfirst) hentries hrest

theorem InRange.entries :
    ∀ e ∈ view.cacheCoins.entries, e.2.coin.InRange := fun e he =>
  h e.1 e.2 (AList.mem_lookup_iff.mpr he)

theorem InRange.batchWrite {child : CCoinsViewCache} (hchild : child.InRange)
    (hwrite : view.batchWrite child = .ok view') : view'.InRange := by
  simp [CCoinsViewCache.batchWrite] at hwrite
  obtain ⟨written, hentries, rfl⟩ := hwrite
  have hwritten : written.InRange := h.writeEntries hchild.entries hentries
  exact hwritten

end CCoinsViewCache

/-! ## The database and the cache over it -/

variable {db : CCoinsViewDB}

theorem CCoinsViewDB.inRange_writeEntry (h : CoinsInRange db.toView) {o : COutPoint}
    {entry : CCoinsCacheEntry} (hcoin : entry.coin.InRange) :
    CoinsInRange (db.writeEntry o entry).toView := by
  intro o' coin' hcoin'
  unfold CCoinsViewDB.writeEntry at hcoin'
  by_cases ho : o' = o
  · split at hcoin' <;> simp [CCoinsViewDB.toView, ho] at hcoin'
    rename_i hunspent
    exact hcoin' ▸ hcoin.resolve_left hunspent
  · refine h o' coin' ?_
    split at hcoin' <;> simpa [CCoinsViewDB.toView, ho] using hcoin'

theorem CCoinsViewDB.inRange_writeEntries (h : CoinsInRange db.toView)
    {entries : List (Sigma fun _ : COutPoint => CCoinsCacheEntry)}
    (hentries : ∀ e ∈ entries, e.2.coin.InRange) :
    CoinsInRange (db.writeEntries entries).toView := by
  induction entries generalizing db with
  | nil => exact h
  | cons e entries ih =>
    obtain ⟨he, hentries⟩ := List.forall_mem_cons.mp hentries
    exact ih (inRange_writeEntry h he) hentries

/-- Every coin of the database and of the cache is in the money range. -/
structure CoinsViews.InRange (views : CoinsViews) : Prop where
  db : CoinsInRange views.m_dbview.toView
  cache : views.m_cacheview.InRange

namespace CoinsViews.InRange

variable {views views' : CoinsViews}

theorem empty : CoinsViews.InRange {} where
  db := by
    intro o coin h
    cases h
  cache := CCoinsViewCache.inRange_empty 0

theorem coinsTip (h : views.InRange) : CoinsInRange views.coinsTip := h.cache.toView h.db

theorem flushView (h : views.InRange) {view : CCoinsViewCache} (hview : view.InRange)
    (hflush : views.flushView view = .ok views') : views'.InRange := by
  simp [CoinsViews.flushView] at hflush
  obtain ⟨cache, hwrite, rfl⟩ := hflush
  exact { db := h.db, cache := h.cache.batchWrite hview hwrite }

theorem flushTip (h : views.InRange) (hflush : views.flushTip = .ok views') : views'.InRange := by
  simp [CoinsViews.flushTip, CCoinsViewDB.batchWrite] at hflush
  obtain ⟨-, rfl⟩ := hflush
  exact
    { db := CCoinsViewDB.inRange_writeEntries h.db h.cache.entries
      cache := CCoinsViewCache.inRange_empty _ }

end CoinsViews.InRange

end Qbit
