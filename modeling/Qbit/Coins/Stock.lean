import Qbit.Coins.Contents
import Qbit.Consensus.Subsidy

/-!
# What the views of the coins are worth

The amounts in a stack of views are a `Holding`: the database at the bottom, and each cache a layer
over it.  A coin that is added raises the stock by at most its value (`addCoin_total`), a coin that is
spent lowers it by its value (`spendCoin_total`), and handing the entries of a cache down to the one
below keeps it (`batchWrite_stock`), as does writing them to the database, up to what the database
loses for good (`flushTip_total`).

None of this needs the FRESH flags to be right.  They can be wrong: below the height from which
duplicate transactions are looked for, a transaction can be added whose coins the base still shows.
-/

open Checked

namespace Qbit

open Holding CCoinsViewCache

/-- `h` is what there is to see in `view`. -/
def Shows (h : Holding COutPoint) (view : CCoinsView) : Prop :=
  ∀ outpoint, h.visible outpoint = ((view.getCoin outpoint).map Coin.amount).getD 0

variable {view : CCoinsViewCache} {o o' : COutPoint} {entry : CCoinsCacheEntry}
  {possible_overwrite : Bool} {entries : List (Sigma fun _ : COutPoint => CCoinsCacheEntry)}

namespace CCoinsViewCache

/-! ## A cache as a layer -/

/-- The amounts of the entries. -/
def layer (view : CCoinsViewCache) (outpoint : COutPoint) : Option (ℕ × Bool) :=
  (view.cacheCoins.lookup outpoint).map fun entry => (entry.coin.amount, entry.fresh)

theorem layer_of_lookup (h : view.cacheCoins.lookup o = some entry) :
    view.layer o = some (entry.coin.amount, entry.fresh) := by simp [layer, h]

theorem layer_of_lookup_none (h : view.cacheCoins.lookup o = none) : view.layer o = none := by
  simp [layer, h]

@[simp] theorem layer_set (view : CCoinsViewCache) (o : COutPoint) (entry : CCoinsCacheEntry) :
    (view.set o entry).layer o = some (entry.coin.amount, entry.fresh) :=
  layer_of_lookup (AList.lookup_insert _)

theorem layer_set_of_ne (h : o' ≠ o) : (view.set o entry).layer o' = view.layer o' := by
  rw [layer, layer, set, AList.lookup_insert_ne h]

@[simp] theorem layer_erase (view : CCoinsViewCache) (o : COutPoint) :
    (view.erase o).layer o = none :=
  layer_of_lookup_none (AList.lookup_erase _ _)

theorem layer_erase_of_ne (h : o' ≠ o) : (view.erase o).layer o' = view.layer o' := by
  rw [layer, layer, erase, AList.lookup_erase_ne h]

theorem finite_layer (view : CCoinsViewCache) : {o | view.layer o ≠ none}.Finite := by
  refine (view.cacheCoins.keys.finite_toSet).subset fun o ho => ?_
  by_contra hmem
  exact ho (layer_of_lookup_none (AList.lookup_eq_none.mpr hmem))

theorem shows_toView {h : Holding COutPoint} {base : CCoinsView} (hbase : Shows h base)
    (view : CCoinsViewCache) : Shows (h.under view.layer) (view.toView base) := by
  intro o
  -- A coin that is spent is worth nothing.
  have hshown (coin : Coin) :
      ((if coin.isSpent then none else some coin).map Coin.amount).getD 0 = coin.amount := by
    by_cases hspent : coin.isSpent
    · simp [hspent, Coin.amount_eq_zero_of_isSpent hspent]
    · simp [hspent]
  simp only [under, toView, getCoin, fetchCoin]
  cases hlookup : view.cacheCoins.lookup o with
  | some entry => simp [layer_of_lookup hlookup, hshown]
  | none =>
    cases hcoin : base.getCoin o with
    | none => simp [layer_of_lookup_none hlookup, hbase o, hcoin]
    | some coin => simp [layer_of_lookup_none hlookup, hbase o, hcoin, hshown]

/-! ## Adding and spending -/

theorem addCoin_layer {view' : CCoinsViewCache} {coin : Coin}
    (hadd : view.addCoin o coin possible_overwrite = .ok view') :
    (∀ o', o' ≠ o → view'.layer o' = view.layer o') ∧
      ∀ h : Holding COutPoint,
        (h.under view'.layer).stock o ≤ (h.under view.layer).stock o + coin.amount := by
  obtain ⟨-, ⟨-, rfl⟩ | ⟨-, ⟨hlookup, rfl⟩ | ⟨entry, hlookup, -, rfl⟩⟩⟩ := addCoin_cases hadd
  · simp
  · exact ⟨fun _ ho' => layer_set_of_ne ho',
      fun h => h.stock_under_new_le (layer_of_lookup_none hlookup) (layer_set _ _ _)⟩
  · refine ⟨fun _ ho' => layer_set_of_ne ho', fun h => ?_⟩
    have := h.stock_under_replace (layer_of_lookup hlookup) (layer_set view o { entry with coin })
    dsimp only at this
    omega

section Totals

variable {h : Holding COutPoint} {base : CCoinsView} {view' : CCoinsViewCache} {coin : Coin}

/-- **A coin that is added** raises the stock by at most its value. -/
theorem addCoin_total (hfin : h.Finite) (hadd : view.addCoin o coin possible_overwrite = .ok view')
    :
    (h.under view'.layer).total ≤ (h.under view.layer).total + coin.amount := by
  obtain ⟨hoff, hat⟩ := addCoin_layer hadd
  refine total_le_of_change (a := 0) (hfin.under view.finite_layer)
    (hfin.under view'.finite_layer) (fun o' ho' => ?_) (hat h)
  exact (stock_under_congr rfl rfl (hoff o' ho')).le

theorem addOutputs_total (hfin : h.Finite) {txid : Uint256} {fCoinbase check_for_overwrite : Bool}
    {nHeight : Int} {n : Nat} {vout : List CTxOut}
    (hadd : addOutputs base txid fCoinbase nHeight check_for_overwrite view n vout = .ok view') :
    (h.under view'.layer).total ≤
      (h.under view.layer).total + (vout.map CTxOut.amount).sum := by
  induction vout generalizing view n with
  | nil =>
    cases hadd
    rfl
  | cons out vout ih =>
    obtain ⟨mid, hfirst, hrest⟩ := bind_eq_ok_iff.mp hadd
    have hstep := addCoin_total hfin hfirst
    have hloop := ih hrest
    dsimp only [Coin.amount] at hstep
    rw [List.map_cons, List.sum_cons]
    omega

theorem spendCoin_layer (hbase : Shows h base) (hcoin : view.getCoin base o = some coin) :
    ∃ view', view.spendCoin base o = some (coin, view') ∧
      (∀ o', o' ≠ o → view'.cacheCoins.lookup o' = view.cacheCoins.lookup o') ∧
      (h.under view'.layer).stock o + coin.amount = (h.under view.layer).stock o := by
  have hcleared : (view.set o { coin := Coin.empty, fresh := false }).layer o = some (0, false) :=
    layer_set _ _ _
  obtain ⟨-, fresh, hfetch, hlookup | ⟨rfl, hlookup, hshown⟩⟩ := getCoin_cases hcoin <;>
    refine ⟨_, by rw [spendCoin, hfetch], ?_⟩
  · cases fresh with
    | true =>
      refine ⟨fun _ ho' => AList.lookup_erase_ne ho', ?_⟩
      simp [stock_under_some (layer_of_lookup hlookup),
        stock_under_none (layer_erase view o), Nat.add_comm]
    | false =>
      refine ⟨fun _ ho' => AList.lookup_insert_ne ho', ?_⟩
      simp [stock_under_some (layer_of_lookup hlookup), stock_under_some hcleared,
        Nat.add_comm]
  · -- The coin is still the base's, and gets an entry of its own.
    refine ⟨fun _ ho' => AList.lookup_insert_ne ho', ?_⟩
    have hstock : h.stock o = coin.amount + h.hidden o := by simp [stock, hbase o, hshown]
    simp [stock_under_none (layer_of_lookup_none hlookup), hstock,
      stock_under_some hcleared, Nat.add_comm]

/-- **A coin that is spent** lowers the stock by its value. -/
theorem spendCoin_total (hfin : h.Finite) (hbase : Shows h base)
    (hcoin : view.getCoin base o = some coin) :
    ∃ view', view.spendCoin base o = some (coin, view') ∧
      (∀ o', o' ≠ o → view'.cacheCoins.lookup o' = view.cacheCoins.lookup o') ∧
      (h.under view'.layer).total + coin.amount ≤ (h.under view.layer).total := by
  obtain ⟨view', hspend, hoff, hat⟩ := spendCoin_layer hbase hcoin
  refine ⟨view', hspend, hoff, ?_⟩
  refine total_le_of_change (b := 0) (hfin.under view.finite_layer)
    (hfin.under view'.finite_layer) (fun o' ho' => ?_) hat.le
  refine (stock_under_congr rfl rfl ?_).le
  rw [layer, layer, hoff o' ho']

end Totals

/-! ## Handing entries down -/

/-- The amounts of a list of entries. -/
def entriesLayer (entries : List (Sigma fun _ : COutPoint => CCoinsCacheEntry)) (o : COutPoint) :
    Option (ℕ × Bool) :=
  (entries.dlookup o).map fun entry => (entry.coin.amount, entry.fresh)

section Entries

theorem entriesLayer_cons_self : entriesLayer (⟨o, entry⟩ :: entries) o =
    some (entry.coin.amount, entry.fresh) := by simp [entriesLayer]

theorem entriesLayer_cons_of_ne (h : o' ≠ o) :
    entriesLayer (⟨o, entry⟩ :: entries) o' = entriesLayer entries o' := by
  simp [entriesLayer, List.dlookup_cons_ne (β := fun _ => CCoinsCacheEntry) entries ⟨o, entry⟩ h]

theorem entriesLayer_of_notMem (h : o ∉ entries.keys) : entriesLayer entries o = none := by
  simp [entriesLayer, List.dlookup_eq_none.mpr h]

variable {us us' : CCoinsViewCache}

/-- An entry that comes down brings its amount, and keeps what the cache hides. -/
theorem writeEntry_layer (hwrite : us.writeEntry o entry = .ok us') :
    (∀ o', o' ≠ o → us'.layer o' = us.layer o') ∧
      ∀ h : Holding COutPoint, (h.under us'.layer).stock o = entry.coin.amount +
        if entry.fresh then (h.under us.layer).stock o else (h.under us.layer).hidden o := by
  cases hlookup : us.cacheCoins.lookup o with
  | none =>
    have hnone := layer_of_lookup_none hlookup
    simp only [writeEntry, hlookup, Bool.and_eq_true] at hwrite
    split_ifs at hwrite with hdropped <;> cases hwrite
    · refine ⟨fun _ _ => rfl, fun h => ?_⟩
      simp [hdropped.1, Coin.amount_eq_zero_of_isSpent hdropped.2]
    · refine ⟨fun _ ho' => layer_set_of_ne ho', fun h => ?_⟩
      rw [stock_under_some (layer_set _ _ _), stock_under_none hnone,
        hidden_under_none hnone]
  | some mine =>
    have hmine := layer_of_lookup hlookup
    simp only [writeEntry, hlookup, ite_error_eq_ok_iff, Bool.and_eq_true] at hwrite
    obtain ⟨hmisapplied, hwrite⟩ := hwrite
    have hspent (hfresh : entry.fresh = true) : mine.coin.amount = 0 :=
      Coin.amount_eq_zero_of_isSpent (by simpa [hfresh] using hmisapplied)
    split_ifs at hwrite with herased <;> cases hwrite
    · -- The coin below was fresh itself, and goes.
      refine ⟨fun _ ho' => layer_erase_of_ne ho', fun h => ?_⟩
      rw [stock_under_none (layer_erase _ _), Coin.amount_eq_zero_of_isSpent herased.2,
        stock_under_some hmine, hidden_under_some hmine, herased.1]
      by_cases hfresh : entry.fresh <;> simp [hfresh, hspent]
    · refine ⟨fun _ ho' => layer_set_of_ne ho', fun h => ?_⟩
      rw [stock_under_some (layer_set _ _ _), stock_under_some hmine,
        hidden_under_some hmine]
      by_cases hfresh : entry.fresh <;> simp [hfresh, hspent]

theorem writeEntries_stock (hnodup : entries.NodupKeys)
    (hwrite : us.writeEntries entries = .ok us') (h : Holding COutPoint) (o : COutPoint) :
    (h.under us'.layer).stock o = ((h.under us.layer).under (entriesLayer entries)).stock o := by
  induction entries generalizing us with
  | nil =>
    cases hwrite
    rfl
  | cons head entries ih =>
    obtain ⟨o₁, entry⟩ := head
    obtain ⟨hnew, hnodup⟩ := List.nodupKeys_cons.mp hnodup
    obtain ⟨mid, hfirst, hrest⟩ := bind_eq_ok_iff.mp hwrite
    obtain ⟨hoff, hat⟩ := writeEntry_layer hfirst
    rw [ih hnodup hrest]
    by_cases ho : o = o₁
    · subst ho
      rw [stock_under_none (entriesLayer_of_notMem hnew), hat h,
        stock_under_some entriesLayer_cons_self]
    · obtain ⟨hvisible, hhidden⟩ := under_congr (h := h) rfl rfl (hoff o ho)
      exact stock_under_congr hvisible hhidden (entriesLayer_cons_of_ne ho).symm

/-- **Handing the entries of a cache down** to the one below it keeps the stock. -/
theorem batchWrite_stock {child : CCoinsViewCache} (hwrite : us.batchWrite child = .ok us')
    (h : Holding COutPoint) (o : COutPoint) :
    (h.under us'.layer).stock o = ((h.under us.layer).under child.layer).stock o := by
  obtain ⟨written, hentries, hus'⟩ := bind_eq_ok_iff.mp hwrite
  cases hus'
  exact writeEntries_stock child.cacheCoins.nodupKeys hentries h o

end Entries

end CCoinsViewCache

/-! ## The database and the cache over it -/

namespace CCoinsViewDB

variable (db : CCoinsViewDB)

/-- The amounts of the database's coins. -/
def holding : Holding COutPoint :=
  .ground fun o => ((db.coins.lookup o).map Coin.amount).getD 0

theorem shows_holding : Shows db.holding db.toView := fun _ => rfl

theorem finite_holding : db.holding.Finite := by
  refine (db.coins.keys.finite_toSet).subset fun o ho => ?_
  by_contra hmem
  refine ho ?_
  simp [holding, AList.lookup_eq_none.mpr hmem]

theorem writeEntry_stock (o : COutPoint) (entry : CCoinsCacheEntry) :
    (∀ o', o' ≠ o → (db.writeEntry o entry).holding.visible o' = db.holding.visible o') ∧
      (db.writeEntry o entry).holding.stock o = entry.coin.amount := by
  unfold writeEntry
  split
  · rename_i hspent
    simp +contextual [holding, ground, stock,
      Coin.amount_eq_zero_of_isSpent hspent]
  · simp +contextual [holding, ground, stock]

/-- Writing entries down loses what the database had under them, and nothing else. -/
theorem writeEntries_stock_le (hnodup : entries.NodupKeys) (db : CCoinsViewDB) (o : COutPoint) :
    (db.writeEntries entries).holding.stock o ≤
      (db.holding.under (entriesLayer entries)).stock o := by
  induction entries generalizing db with
  | nil => exact (stock_under_none rfl).ge
  | cons head entries ih =>
    obtain ⟨o₁, entry⟩ := head
    obtain ⟨hnew, hnodup⟩ := List.nodupKeys_cons.mp hnodup
    obtain ⟨hoff, hat⟩ := writeEntry_stock db o₁ entry
    refine (ih hnodup (db.writeEntry o₁ entry)).trans ?_
    by_cases ho : o = o₁
    · subst ho
      rw [stock_under_none (entriesLayer_of_notMem hnew), hat,
        stock_under_some entriesLayer_cons_self]
      omega
    · exact (stock_under_congr (hoff o ho) rfl
        (entriesLayer_cons_of_ne ho).symm).le

end CCoinsViewDB

namespace CoinsViews

variable {views views' : CoinsViews}

section Views

variable (views : CoinsViews)

/-- The amounts of the coins of `CoinsTip()`. -/
def holding : Holding COutPoint :=
  views.m_dbview.holding.under views.m_cacheview.layer

theorem shows_holding : Shows views.holding views.coinsTip :=
  shows_toView views.m_dbview.shows_holding _

theorem finite_holding : views.holding.Finite :=
  views.m_dbview.finite_holding.under views.m_cacheview.finite_layer

/-- The outpoints that the database or the cache has something about. -/
def outpoints : Finset COutPoint :=
  views.m_cacheview.cacheCoins.keys.toFinset ∪ views.m_dbview.coins.keys.toFinset

/-- The sum of the values of all unspent coins. -/
def supply : Int :=
  ∑ o ∈ views.outpoints, ((views.coinsTip.getCoin o).map fun c => c.out.nValue.toInt).getD 0

end Views

/-- **Flushing a view** into `CoinsTip()` keeps the stock. -/
theorem flushView_total (hflush : views.flushView view = .ok views') :
    views'.holding.total = (views.holding.under view.layer).total := by
  simp [flushView] at hflush
  obtain ⟨cache, hwrite, rfl⟩ := hflush
  exact finsum_congr fun o => batchWrite_stock hwrite views.m_dbview.holding o

/-- **Flushing `CoinsTip()`** into the database does not raise the stock. -/
theorem flushTip_total (hflush : views.flushTip = .ok views') :
    views'.holding.total ≤ views.holding.total := by
  simp [flushTip, CCoinsViewDB.batchWrite] at hflush
  obtain ⟨-, rfl⟩ := hflush
  refine total_mono views.finite_holding (finite_holding _) fun o => ?_
  exact CCoinsViewDB.writeEntries_stock_le views.m_cacheview.cacheCoins.nodupKeys _ o

/-- **The unspent coins are worth no more than the stock.** -/
theorem supply_le_total (views : CoinsViews) : views.supply ≤ views.holding.total := by
  have hvisible := sum_visible_le views.finite_holding views.outpoints
  refine le_trans ?_ (Int.ofNat_le.mpr hvisible)
  rw [Nat.cast_sum]
  refine Finset.sum_le_sum fun o _ => ?_
  rw [views.shows_holding o]
  cases views.coinsTip.getCoin o with
  | none => exact le_refl _
  | some c => exact Int.self_le_toNat _

end CoinsViews

end Qbit
