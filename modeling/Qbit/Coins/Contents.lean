import Qbit.Coins.View
import Qbit.Lib.PartialMap

/-!
# What a cache of coins shows

A cache over its base shows a partial map from outpoints to coins.  As long as the FRESH flags are
right (`FreshSound`), `AddCoin` and `SpendCoin` do to this map what their names say: they write one
coin (`addCoin_update`), and they take one away (`spendCoin_update`).  A spent coin that was not FRESH
stays in the cache as an empty entry, and `AddCoin` does not look below the cache; so what it
overwrites is only known where the cache decides (`Decides`), that is, where no entry means no coin.

A flush hands the entries of a cache down.  What is shown does not change by it, from one cache to
the next (`flushView_shows`) and down to the database (`flushTip_shows`).
-/

open Checked PartialMap

namespace Qbit

namespace CCoinsViewCache

variable {base : CCoinsView} {view view' : CCoinsViewCache} {o o' : COutPoint} {coin : Coin}
  {entry : CCoinsCacheEntry} {P : COutPoint → CCoinsCacheEntry → Prop} {possible_overwrite : Bool}

/-- A cache shows the same coin as long as nothing is written there. -/
theorem getCoin_congr (hlookup : view'.cacheCoins.lookup o = view.cacheCoins.lookup o) :
    view'.getCoin base o = view.getCoin base o := by simp [getCoin, fetchCoin, hlookup]

theorem getCoin_eq_some_iff :
    view.getCoin base o = some coin ↔
      ∃ fresh, view.fetchCoin base o = some { coin, fresh } ∧ coin.isSpent = false := by
  rcases hentry : view.fetchCoin base o with _ | ⟨coin', fresh⟩
  · simp [getCoin, hentry]
  · simp only [getCoin, hentry]
    cases hspent : coin'.isSpent <;> aesop

/-- Where it comes from: an entry of the cache, or the base. -/
theorem getCoin_cases (h : view.getCoin base o = some coin) :
    coin.isSpent = false ∧ ∃ fresh, view.fetchCoin base o = some { coin, fresh } ∧
      (view.cacheCoins.lookup o = some { coin, fresh } ∨
        fresh = false ∧ view.cacheCoins.lookup o = none ∧ base.getCoin o = some coin) := by
  obtain ⟨fresh, hfetch, hunspent⟩ := getCoin_eq_some_iff.mp h
  refine ⟨hunspent, fresh, hfetch, ?_⟩
  cases hlookup : view.cacheCoins.lookup o <;> simp_all [fetchCoin]

theorem isSpent_of_getCoin (h : view.getCoin base o = some coin) : coin.isSpent = false := by
  obtain ⟨_, -, hunspent⟩ := getCoin_eq_some_iff.mp h
  exact hunspent

theorem getCoin_of_lookup (h : view.cacheCoins.lookup o = some entry) :
    view.getCoin base o = if entry.coin.isSpent then none else some entry.coin := by
  rw [getCoin, fetchCoin, h]

theorem getCoin_of_lookup_none (h : view.cacheCoins.lookup o = none) :
    view.getCoin base o = (base.getCoin o).filter fun coin => !coin.isSpent := by
  rw [getCoin, fetchCoin, h]
  cases base.getCoin o with
  | none => rfl
  | some coin =>
    simp only [Option.map_some, Option.filter_some]
    cases coin.isSpent <;> rfl

/-- An entry that is written is shown, unless its coin is spent. -/
theorem getCoin_set (view : CCoinsViewCache) (o : COutPoint) (entry : CCoinsCacheEntry) :
    (view.set o entry).getCoin base = Function.update (view.getCoin base) o
      (if entry.coin.isSpent then none else some entry.coin) := by
  funext o'
  by_cases ho : o' = o <;> simp [getCoin, fetchCoin, set, ho]

/-! ## The FRESH flags -/

/-- The FRESH flags are right: the base shows no coin under an entry that has one. -/
def FreshSound (base : CCoinsView) (view : CCoinsViewCache) : Prop :=
  ∀ o entry, view.cacheCoins.lookup o = some entry → entry.fresh = true →
    (base.getCoin o).filter (fun coin => !coin.isSpent) = none

/-- The cache decides about an outpoint: no entry means no coin. -/
def Decides (base : CCoinsView) (view : CCoinsViewCache) (o : COutPoint) : Prop :=
  view.cacheCoins.lookup o = none → view.getCoin base o = none

theorem decides_of_getCoin (h : view.getCoin base o = none) : view.Decides base o := fun _ => h

theorem freshSound_empty (base : CCoinsView) (hashBlock : Uint256) :
    FreshSound base { hashBlock } := by
  rintro o entry ⟨⟩

theorem forall_lookup_set (hentry : P o entry)
    (h : ∀ o entry, view.cacheCoins.lookup o = some entry → P o entry) :
    ∀ o' entry', (view.set o entry).cacheCoins.lookup o' = some entry' → P o' entry' := by
  intro o' entry' hlookup
  by_cases ho : o' = o
  · simp_all [set]
  · exact h o' entry' (by simpa [set, ho] using hlookup)

theorem forall_lookup_erase (o : COutPoint)
    (h : ∀ o entry, view.cacheCoins.lookup o = some entry → P o entry) :
    ∀ o' entry', (view.erase o).cacheCoins.lookup o' = some entry' → P o' entry' := by
  intro o' entry' hlookup
  simp [erase] at hlookup
  exact h o' entry' hlookup.2

theorem FreshSound.set (h : view.FreshSound base) (hentry : entry.fresh = true →
    (base.getCoin o).filter (fun coin => !coin.isSpent) = none) :
    (view.set o entry).FreshSound base := forall_lookup_set hentry h

theorem FreshSound.erase (h : view.FreshSound base) (o : COutPoint) :
    (view.erase o).FreshSound base := forall_lookup_erase o h

/-- Dropping a FRESH entry drops its coin. -/
theorem FreshSound.getCoin_erase (h : view.FreshSound base)
    (hlookup : view.cacheCoins.lookup o = some entry) (hfresh : entry.fresh = true) :
    (view.erase o).getCoin base = Function.update (view.getCoin base) o none := by
  funext o'
  by_cases ho : o' = o
  · subst ho
    rw [Function.update_self, getCoin_of_lookup_none (AList.lookup_erase _ _)]
    exact h o' entry hlookup hfresh
  · simp [getCoin, fetchCoin, CCoinsViewCache.erase, ho]

theorem Decides.set (h : view.Decides base o') (o : COutPoint) (entry : CCoinsCacheEntry) :
    (view.set o entry).Decides base o' := by
  intro hlookup
  rw [CCoinsViewCache.set, AList.lookup_insert_eq_none] at hlookup
  rw [getCoin_set, Function.update_of_ne hlookup.1, h hlookup.2]

/-! ## Adding and spending -/

/-- What `AddCoin` does: nothing to a coin that can never be spent, and else it writes an entry. -/
theorem addCoin_cases (hadd : view.addCoin o coin possible_overwrite = .ok view') :
    coin.isSpent = false ∧
      ((isUnspendable coin.out.scriptPubKey.bytes = true ∧ view' = view) ∨
        isUnspendable coin.out.scriptPubKey.bytes = false ∧
          ((view.cacheCoins.lookup o = none ∧
              view' = view.set o { coin, fresh := !possible_overwrite }) ∨
            ∃ entry, view.cacheCoins.lookup o = some entry ∧
              (possible_overwrite = true ∨ entry.coin.isSpent = true) ∧
              view' = view.set o { entry with coin })) := by
  simp [addCoin] at hadd
  obtain ⟨hunspent, hadd⟩ := hadd
  refine ⟨hunspent, ?_⟩
  cases hspendable : isUnspendable coin.out.scriptPubKey.bytes <;>
    cases hlookup : view.cacheCoins.lookup o <;> grind

/-- **`AddCoin` writes a coin**, where there was none. -/
theorem addCoin_update (hfresh : view.FreshSound base)
    (hadd : view.addCoin o coin possible_overwrite = .ok view')
    (hspendable : isUnspendable coin.out.scriptPubKey.bytes = false)
    (hnone : view.getCoin base o = none) :
    view'.getCoin base = Function.update (view.getCoin base) o (some coin) ∧
      view'.FreshSound base ∧ ∀ o', view.Decides base o' → view'.Decides base o' := by
  have hcases := addCoin_cases hadd
  simp only [hspendable, Bool.false_eq_true, false_and, false_or, true_and] at hcases
  obtain ⟨hunspent, ⟨hlookup, rfl⟩ | ⟨entry, hlookup, -, rfl⟩⟩ := hcases
  · refine ⟨?_, hfresh.set fun _ => ?_, fun o' h => h.set _ _⟩
    · simp [getCoin_set, hunspent]
    · rwa [getCoin_of_lookup_none hlookup] at hnone
  · refine ⟨?_, hfresh.set (hfresh o entry hlookup), fun o' h => h.set _ _⟩
    simp [getCoin_set, hunspent]

/-- Where the cache decides, `AddCoin` finds out that a coin is there. -/
theorem getCoin_of_addCoin (hdecides : view.Decides base o)
    (hadd : view.addCoin o coin false = .ok view')
    (hspendable : isUnspendable coin.out.scriptPubKey.bytes = false) :
    view.getCoin base o = none := by
  have hcases := addCoin_cases hadd
  simp only [hspendable, Bool.false_eq_true, false_and, false_or, true_and] at hcases
  obtain ⟨-, ⟨hlookup, -⟩ | ⟨entry, hlookup, hspent, -⟩⟩ := hcases
  · exact hdecides hlookup
  · rw [getCoin_of_lookup hlookup, hspent, if_pos rfl]

theorem exists_addCoin (hunspent : coin.isSpent = false) (hnone : view.getCoin base o = none)
    (possible_overwrite : Bool) : ∃ view', view.addCoin o coin possible_overwrite = .ok view' := by
  cases hspendable : isUnspendable coin.out.scriptPubKey.bytes with
  | true => simp [addCoin, require_pos hunspent, hspendable]
  | false =>
    cases hlookup : view.cacheCoins.lookup o with
    | none => simp [addCoin, require_pos hunspent, hspendable, hlookup]
    | some entry =>
      have hspent : entry.coin.isSpent = true := by
        simpa [getCoin_of_lookup hlookup] using hnone
      simp [addCoin, require_pos hunspent, hspendable, hlookup, hspent]

/-- **`SpendCoin` takes a coin away.** -/
theorem spendCoin_update (hfresh : view.FreshSound base) (hcoin : view.getCoin base o = some coin) :
    ∃ view', view.spendCoin base o = some (coin, view') ∧
      view'.getCoin base = Function.update (view.getCoin base) o none ∧
      view'.FreshSound base ∧ ∀ o', view.Decides base o' → view'.Decides base o' := by
  obtain ⟨hunspent, fresh, hfetch, hfrom⟩ := getCoin_cases hcoin
  refine ⟨_, by rw [spendCoin, hfetch], ?_⟩
  have hcleared : (view.set o { coin := Coin.empty, fresh := false }).getCoin base =
      Function.update (view.getCoin base) o none :=
    getCoin_set view o _
  rcases fresh with _ | _
  · refine ⟨hcleared, hfresh.set ?_, fun o' h => h.set _ _⟩
    rintro ⟨⟩
  -- A coin that is FRESH has an entry, since the base's coin is not spent.
  have hlookup : view.cacheCoins.lookup o = some { coin, fresh := true } := by simpa using hfrom
  have herased := hfresh.getCoin_erase hlookup rfl
  rw [if_pos rfl]
  refine ⟨herased, hfresh.erase o, fun o' h hlookup' => ?_⟩
  rw [herased]
  by_cases ho : o' = o
  · simp [ho]
  · rw [Function.update_of_ne ho]
    exact h (by simpa [erase, ho] using hlookup')

/-! ## The outputs of a transaction -/

/-- The coins that a transaction makes of its outputs from index `n` on.  An output that can never be
spent makes none. -/
def outputCoins (txid : Uint256) (fCoinBase : Bool) (nHeight : Int) :
    Nat → List CTxOut → List (COutPoint × Coin)
  | _, [] => []
  | n, out :: vout =>
    if isUnspendable out.scriptPubKey.bytes then outputCoins txid fCoinBase nHeight (n + 1) vout
    else ({ hash := txid, n := UInt32.ofNat n }, { out, fCoinBase, nHeight }) ::
      outputCoins txid fCoinBase nHeight (n + 1) vout

section Outputs

variable {txid : Uint256} {fCoinBase : Bool} {nHeight : Int} {n : Nat} {vout : List CTxOut}

theorem of_mem_outputCoins {p : COutPoint × Coin}
    (h : p ∈ outputCoins txid fCoinBase nHeight n vout) :
    (∃ m, n ≤ m ∧ m < n + vout.length ∧ p.1 = { hash := txid, n := UInt32.ofNat m }) ∧
      p.2.nHeight = nHeight ∧ isUnspendable p.2.out.scriptPubKey.bytes = false := by
  induction vout generalizing n with
  | nil => cases h
  | cons out vout ih =>
    rw [List.length_cons]
    rw [outputCoins] at h
    split at h
    · obtain ⟨⟨m, hle, hlt, hp⟩, hcoin⟩ := ih h
      exact ⟨⟨m, by omega, by omega, hp⟩, hcoin⟩
    rename_i hspendable
    rcases List.mem_cons.mp h with rfl | h
    · exact ⟨⟨n, le_refl n, by omega, rfl⟩, rfl, by simpa using hspendable⟩
    · obtain ⟨⟨m, hle, hlt, hp⟩, hcoin⟩ := ih h
      exact ⟨⟨m, by omega, by omega, hp⟩, hcoin⟩

/-- Indices below 2³² are all different as outpoints. -/
theorem notMem_outputCoins (hlen : n + 1 + vout.length ≤ 2 ^ 32) :
    { hash := txid, n := UInt32.ofNat n } ∉
      (outputCoins txid fCoinBase nHeight (n + 1) vout).map Prod.fst := by
  intro hmem
  obtain ⟨p, hp, heq⟩ := List.mem_map.mp hmem
  obtain ⟨⟨m, hle, hlt, hm⟩, -⟩ := of_mem_outputCoins hp
  rw [hm, COutPoint.mk.injEq] at heq
  have hn := congrArg UInt32.toNat heq.2
  rw [UInt32.toNat_ofNat', UInt32.toNat_ofNat', Nat.mod_eq_of_lt (by omega),
    Nat.mod_eq_of_lt (by omega)] at hn
  omega

/-- **`AddCoins` writes the coins of the outputs**, and none of them was there before.  For a coinbase
this has to be known, since it may overwrite coins. -/
theorem addOutputs_puts (hfresh : view.FreshSound base) (hlen : n + vout.length ≤ 2 ^ 32)
    (hdecides : ∀ o, o.hash = txid → view.Decides base o)
    (hcoinbase : fCoinBase = true →
      ∀ p ∈ outputCoins txid fCoinBase nHeight n vout, view.getCoin base p.1 = none)
    (hadd : addOutputs base txid fCoinBase nHeight false view n vout = .ok view') :
    Puts (view.getCoin base) (view'.getCoin base)
        (outputCoins txid fCoinBase nHeight n vout) ∧
      (∀ p ∈ outputCoins txid fCoinBase nHeight n vout, view.getCoin base p.1 = none) ∧
      view'.FreshSound base ∧ ∀ o, view.Decides base o → view'.Decides base o := by
  induction vout generalizing view n with
  | nil =>
    cases hadd
    exact ⟨.nil _, by simp [outputCoins], hfresh, fun _ => id⟩
  | cons out vout ih =>
    rw [List.length_cons] at hlen
    obtain ⟨mid, hfirst, hrest⟩ := bind_eq_ok_iff.mp hadd
    rw [outputCoins] at hcoinbase ⊢
    cases hspendable : isUnspendable out.scriptPubKey.bytes with
    | true =>
      obtain rfl : mid = view := by simpa [hspendable] using (addCoin_cases hfirst).2
      rw [hspendable, if_pos rfl] at hcoinbase
      exact ih hfresh (by omega) hdecides hcoinbase hrest
    | false =>
      rw [hspendable, if_neg Bool.false_ne_true] at hcoinbase
      have hnone : view.getCoin base { hash := txid, n := UInt32.ofNat n } = none := by
        cases fCoinBase with
        | true => exact hcoinbase rfl _ List.mem_cons_self
        | false => exact getCoin_of_addCoin (hdecides _ rfl) hfirst hspendable
      obtain ⟨hupdate, hmid, hkeeps⟩ := addCoin_update hfresh hfirst hspendable hnone
      have hnew : { hash := txid, n := UInt32.ofNat n } ∉
          (outputCoins txid fCoinBase nHeight (n + 1) vout).map Prod.fst :=
        notMem_outputCoins (by omega)
      -- The other outputs have other outpoints.
      have hothers : ∀ p ∈ outputCoins txid fCoinBase nHeight (n + 1) vout,
          mid.getCoin base p.1 = view.getCoin base p.1 := by
        intro p hp
        rw [hupdate, update_of_notMem hnew hp]
      obtain ⟨hputs, habsent, hview', hkeeps'⟩ := ih hmid (by omega)
        (fun o ho => hkeeps o (hdecides o ho))
        (fun hcb p hp => (hothers p hp).trans (hcoinbase hcb p (List.mem_cons_of_mem _ hp))) hrest
      rw [hupdate] at hputs
      refine ⟨hputs.cons hnew, List.forall_mem_cons.mpr ⟨hnone, fun p hp => ?_⟩, hview',
        fun o h => hkeeps' o (hkeeps o h)⟩
      rw [← hothers p hp]
      exact habsent p hp

end Outputs

/-! ## Flushing -/

/-- What an entry shows. -/
def shown (entry : CCoinsCacheEntry) : Option Coin :=
  if entry.coin.isSpent then none else some entry.coin

/-- The coins of a map that are not spent. -/
def unspent (f : COutPoint → Option Coin) (o : COutPoint) : Option Coin :=
  (f o).filter fun coin => !coin.isSpent

/-- A map with some entries over it. -/
def overlay (entries : List (Sigma fun _ : COutPoint => CCoinsCacheEntry))
    (f : COutPoint → Option Coin) (o : COutPoint) : Option Coin :=
  ((entries.dlookup o).map shown).getD (f o)

theorem getCoin_eq_overlay (base : CCoinsView) (view : CCoinsViewCache) :
    view.getCoin base = overlay view.cacheCoins.entries (unspent base.getCoin) := by
  funext o
  have hlookup : view.cacheCoins.entries.dlookup o = view.cacheCoins.lookup o := rfl
  rw [overlay, hlookup]
  cases h : view.cacheCoins.lookup o with
  | none => exact getCoin_of_lookup_none h
  | some entry => exact getCoin_of_lookup h

section Entries

variable {entries : List (Sigma fun _ : COutPoint => CCoinsCacheEntry)}

theorem overlay_cons (h : o ∉ entries.keys) (f : COutPoint → Option Coin) :
    overlay (⟨o, entry⟩ :: entries) f = overlay entries (Function.update f o (shown entry)) := by
  funext o'
  by_cases ho : o' = o
  · subst ho
    simp [overlay, List.dlookup_eq_none.mpr h]
  · have hne := List.dlookup_cons_ne (β := fun _ => CCoinsCacheEntry) entries ⟨o, entry⟩ ho
    simp [overlay, ho, hne]

/-- An entry that comes down is shown from then on. -/
theorem writeEntry_update (h : view.FreshSound base)
    (hfresh : entry.fresh = true → view.getCoin base o = none) :
    ∃ view', view.writeEntry o entry = .ok view' ∧ view'.FreshSound base ∧
      view'.getCoin base = Function.update (view.getCoin base) o (shown entry) := by
  cases hlookup : view.cacheCoins.lookup o with
  | none =>
    by_cases hdropped : entry.fresh = true ∧ entry.coin.isSpent = true
    · refine ⟨view, by simp [writeEntry, hlookup, hdropped], h, ?_⟩
      rw [shown, if_pos hdropped.2, ← hfresh hdropped.1, Function.update_eq_self]
    · refine ⟨_, by simp [writeEntry, hlookup, hdropped], h.set fun hentry => ?_,
        getCoin_set _ _ _⟩
      rw [← getCoin_of_lookup_none hlookup, hfresh hentry]
  | some mine =>
    -- The flag of the entry is right, so it is not found to be misapplied.
    have happlied : ¬(entry.fresh = true ∧ mine.coin.isSpent = false) := by
      rintro ⟨hentry, hunspent⟩
      simpa [getCoin_of_lookup hlookup, hunspent] using hfresh hentry
    by_cases herased : mine.fresh = true ∧ entry.coin.isSpent = true
    · refine ⟨_, by simp [writeEntry, hlookup, happlied, herased], h.erase o, ?_⟩
      rw [h.getCoin_erase hlookup herased.1, shown, if_pos herased.2]
    · exact ⟨view.set o { mine with coin := entry.coin },
        by simp [writeEntry, hlookup, happlied, herased], h.set (h o mine hlookup),
        getCoin_set _ _ _⟩

theorem writeEntries_overlay (hnodup : entries.NodupKeys) (h : view.FreshSound base)
    (hfresh : ∀ e ∈ entries, e.2.fresh = true → view.getCoin base e.1 = none) :
    ∃ view', view.writeEntries entries = .ok view' ∧ view'.FreshSound base ∧
      view'.getCoin base = overlay entries (view.getCoin base) := by
  induction entries generalizing view with
  | nil => exact ⟨view, rfl, h, rfl⟩
  | cons head entries ih =>
    obtain ⟨hnew, hnodup⟩ := List.nodupKeys_cons.mp hnodup
    obtain ⟨mid, hwrite, hmid, hupdate⟩ := writeEntry_update h (hfresh head List.mem_cons_self)
    obtain ⟨view', hrest, hsound, hshown⟩ := ih hnodup hmid fun e he hentry => by
      have hne : e.1 ≠ head.1 := fun heq => hnew (heq ▸ List.mem_keys_of_mem he)
      rw [hupdate, Function.update_of_ne hne]
      exact hfresh e (List.mem_cons_of_mem _ he) hentry
    refine ⟨view', by rw [writeEntries, hwrite]; exact hrest, hsound, ?_⟩
    rw [hshown, hupdate, overlay_cons hnew]

theorem writeEntries_db_overlay (hnodup : entries.NodupKeys) (db : CCoinsViewDB) :
    unspent (db.writeEntries entries).toView.getCoin =
      overlay entries (unspent db.toView.getCoin) := by
  induction entries generalizing db with
  | nil => rfl
  | cons head entries ih =>
    obtain ⟨hnew, hnodup⟩ := List.nodupKeys_cons.mp hnodup
    rw [CCoinsViewDB.writeEntries, ih hnodup, overlay_cons hnew]
    congr 1
    funext o
    by_cases ho : o = head.1 <;> cases hspent : head.2.coin.isSpent <;>
      simp [unspent, shown, CCoinsViewDB.writeEntry, CCoinsViewDB.toView, hspent, ho]

end Entries

end CCoinsViewCache

namespace CoinsViews

open CCoinsViewCache

variable {views views' : CoinsViews} {view : CCoinsViewCache}

/-- **A flush into `CoinsTip()`** finds no FRESH flag misapplied, and makes it show the coins of the
cache that was over it. -/
theorem flushView_shows (htip : views.m_cacheview.FreshSound views.m_dbview.toView)
    (hview : view.FreshSound views.coinsTip) :
    ∃ views', views.flushView view = .ok views' ∧
      views'.m_cacheview.FreshSound views'.m_dbview.toView ∧
      views'.coinsTip.getCoin = view.getCoin views.coinsTip := by
  have hunspent : unspent views.coinsTip.getCoin = views.coinsTip.getCoin := by
    funext o
    cases hcoin : views.coinsTip.getCoin o with
    | none => simp [unspent, hcoin]
    | some coin => simp [unspent, hcoin, isSpent_of_getCoin hcoin]
  obtain ⟨cache, hwrite, hsound, hshown⟩ := writeEntries_overlay view.cacheCoins.nodupKeys htip
    fun e he hfresh => (congrFun hunspent e.1).symm.trans
      (hview e.1 e.2 (AList.mem_lookup_iff.mpr he) hfresh)
  refine ⟨_, by simp [flushView, batchWrite, hwrite]; rfl, hsound, ?_⟩
  rw [getCoin_eq_overlay, hunspent]
  exact hshown

/-- A cache with a new coin. -/
def newCoinView : CCoinsViewCache :=
  { set {} {} { coin := { out := { nValue := 1 } }, fresh := true } with hashBlock := 1 }

theorem flushView_shows_new : ∃ views', ({} : CoinsViews).flushView newCoinView = .ok views' ∧
    views'.coinsTip.getCoin {} = some { out := { nValue := 1 } } := by
  obtain ⟨views', hflush, -, hshows⟩ := @flushView_shows {} newCoinView (freshSound_empty _ 0)
    ((freshSound_empty _ 1).set fun _ => rfl)
  exact ⟨views', hflush, by rw [hshows]; rfl⟩

/-- **A flush of `CoinsTip()` into the database changes no coin.** -/
theorem flushTip_shows (hflush : views.flushTip = .ok views') :
    views'.coinsTip.getCoin = views.coinsTip.getCoin := by
  simp [flushTip, CCoinsViewDB.batchWrite] at hflush
  obtain ⟨-, rfl⟩ := hflush
  calc
    _ = unspent (CCoinsViewDB.toView _).getCoin := getCoin_eq_overlay _ _
    _ = _ := writeEntries_db_overlay views.m_cacheview.cacheCoins.nodupKeys _
    _ = _ := (getCoin_eq_overlay _ _).symm

theorem flushTip_shows_new : ∃ views', CoinsViews.flushTip ⟨{}, newCoinView⟩ = .ok views' ∧
    views'.coinsTip.getCoin {} = some { out := { nValue := 1 } } := by
  have hshows := @flushTip_shows ⟨{}, newCoinView⟩ _ rfl
  exact ⟨_, rfl, (congrFun hshows {}).trans rfl⟩

end CoinsViews

end Qbit
