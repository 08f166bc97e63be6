import Mathlib.Data.List.AList
import Qbit.Lib.Checked
import Qbit.Lib.Holding
import Qbit.Script.Script

/-!
# Coins and the views of them

`coins.cpp` and the coins database of `txdb.cpp`.  A `CCoinsViewCache` lies over a base and keeps
the entries that differ from it; its `BatchWrite` takes over the entries of a cache above it, and
the database's writes them down.

Every entry here is DIRTY.  In the source a cache also keeps clean copies of the coins it has read.
A copy equals what the base shows, so the only thing it changes is that `AddCoin` and `BatchWrite`
throw where, without the copy, they would go on.

FRESH is kept as it is: it claims that the base does not show the coin, and nothing checks the
claim.
-/

open Checked

namespace Qbit

/-! ## Coins -/

/-- An output's value as a natural number. -/
def CTxOut.amount (out : CTxOut) : Nat := out.nValue.toInt.toNat

/-- `Coin` -/
structure Coin where
  out : CTxOut
  fCoinBase : Bool := false
  nHeight : Int := 0
  deriving DecidableEq

namespace Coin

/-- A coin whose output is null never existed or has been spent. -/
def isSpent (coin : Coin) : Bool := coin.out.nValue == -1

/-- What `Clear` leaves. -/
def empty : Coin := { out := { nValue := -1 } }

/-- The coin's value as a natural number; a spent coin is worth nothing. -/
def amount (coin : Coin) : Nat := coin.out.amount

theorem amount_eq_zero_of_isSpent {coin : Coin} (h : coin.isSpent = true) : coin.amount = 0 := by
  rw [isSpent, beq_iff_eq] at h
  rw [amount, CTxOut.amount, h]
  rfl

end Coin

/-! ## Views -/

/-- `CCoinsView`: what can be asked of a view. -/
structure CCoinsView where
  getCoin : COutPoint → Option Coin
  getBestBlock : Uint256

namespace CCoinsView

variable (view : CCoinsView)

def haveCoin (outpoint : COutPoint) : Bool := (view.getCoin outpoint).isSome

/-- `AccessCoin`, which answers with an empty coin where there is none. -/
def accessCoin (outpoint : COutPoint) : Coin :=
  (view.getCoin outpoint).getD Coin.empty

/-- `HaveInputs` -/
def haveInputs (tx : CTransaction) : Bool :=
  tx.isCoinBase || tx.vin.all fun txin => view.haveCoin txin.prevout

end CCoinsView

/-- `CCoinsCacheEntry`, whose DIRTY flag is set. -/
structure CCoinsCacheEntry where
  coin : Coin
  fresh : Bool
  deriving DecidableEq

/-- `CCoinsViewCache`, without its base. -/
structure CCoinsViewCache where
  cacheCoins : AList fun _ : COutPoint => CCoinsCacheEntry := ∅
  hashBlock : Uint256 := 0

namespace CCoinsViewCache

/-- Write an entry. -/
def set (view : CCoinsViewCache) (outpoint : COutPoint) (entry : CCoinsCacheEntry) :
    CCoinsViewCache :=
  { view with cacheCoins := view.cacheCoins.insert outpoint entry }

/-- Drop an entry. -/
def erase (view : CCoinsViewCache) (outpoint : COutPoint) : CCoinsViewCache :=
  { view with cacheCoins := view.cacheCoins.erase outpoint }

variable (base : CCoinsView) (view : CCoinsViewCache)

/-- `FetchCoin` -/
def fetchCoin (outpoint : COutPoint) : Option CCoinsCacheEntry :=
  match view.cacheCoins.lookup outpoint with
  | some entry => some entry
  | none => (base.getCoin outpoint).map fun coin => { coin, fresh := coin.isSpent }

/-- `GetCoin` -/
def getCoin (outpoint : COutPoint) : Option Coin :=
  match view.fetchCoin base outpoint with
  | some entry => if entry.coin.isSpent then none else some entry.coin
  | none => none

/-- `GetBestBlock` -/
def getBestBlock : Uint256 :=
  if view.hashBlock = 0 then base.getBestBlock else view.hashBlock

/-- A cache over its base, as a view. -/
def toView : CCoinsView where
  getCoin := view.getCoin base
  getBestBlock := view.getBestBlock base

/-- `SetBestBlock` -/
def setBestBlock (view : CCoinsViewCache) (hashBlockIn : Uint256) : CCoinsViewCache :=
  { view with hashBlock := hashBlockIn }

/-- `AddCoin`.  A coin that is new to the cache is FRESH unless it may overwrite one of the base. -/
def addCoin (view : CCoinsViewCache) (outpoint : COutPoint) (coin : Coin)
    (possible_overwrite : Bool) : Result CCoinsViewCache := do
  require (coin.isSpent = false)
  if isUnspendable coin.out.scriptPubKey.bytes then .ok view
  else
    match view.cacheCoins.lookup outpoint with
    | none => .ok (view.set outpoint { coin, fresh := !possible_overwrite })
    | some entry =>
      if !possible_overwrite && !entry.coin.isSpent then .error .exception
      else .ok (view.set outpoint { entry with coin })

/-- `SpendCoin`, with the coin that it moves out. -/
def spendCoin (outpoint : COutPoint) : Option (Coin × CCoinsViewCache) :=
  match view.fetchCoin base outpoint with
  | none => none
  | some entry =>
    some (entry.coin,
      if entry.fresh then view.erase outpoint
      else view.set outpoint { coin := Coin.empty, fresh := false })

/-- The loop of `AddCoins`, from the output with index `n` on. -/
def addOutputs (base : CCoinsView) (txid : Uint256) (fCoinbase : Bool) (nHeight : Int)
    (check_for_overwrite : Bool) : CCoinsViewCache → Nat → List CTxOut → Result CCoinsViewCache
  | view, _, [] => .ok view
  | view, n, out :: vout => do
    let outpoint : COutPoint := { hash := txid, n := UInt32.ofNat n }
    let overwrite :=
      if check_for_overwrite then (view.getCoin base outpoint).isSome else fCoinbase
    let view ← view.addCoin outpoint { out, fCoinBase := fCoinbase, nHeight } overwrite
    addOutputs base txid fCoinbase nHeight check_for_overwrite view (n + 1) vout

/-- `AddCoins` -/
def addCoins (hash256 : HashFn) (base : CCoinsView) (view : CCoinsViewCache) (tx : CTransaction)
    (nHeight : Int) (check_for_overwrite : Bool) : Result CCoinsViewCache :=
  addOutputs base (tx.getHash hash256) tx.isCoinBase nHeight check_for_overwrite view 0 tx.vout

/-- One turn of the loop of `BatchWrite`: an entry of the cache above comes in. -/
def writeEntry (us : CCoinsViewCache) (outpoint : COutPoint) (entry : CCoinsCacheEntry) :
    Result CCoinsViewCache :=
  match us.cacheCoins.lookup outpoint with
  | none =>
    if entry.fresh && entry.coin.isSpent then .ok us else .ok (us.set outpoint entry)
  | some mine =>
    if entry.fresh && !mine.coin.isSpent then .error .exception
    else if mine.fresh && entry.coin.isSpent then .ok (us.erase outpoint)
    else .ok (us.set outpoint { mine with coin := entry.coin })

/-- The loop of `BatchWrite`. -/
def writeEntries : CCoinsViewCache → List (Sigma fun _ : COutPoint => CCoinsCacheEntry) →
    Result CCoinsViewCache
  | us, [] => .ok us
  | us, ⟨outpoint, entry⟩ :: entries => us.writeEntry outpoint entry >>= fun us' =>
      writeEntries us' entries

/-- `BatchWrite`, of all entries of the cache `child` and its best block: its `Flush`. -/
def batchWrite (us child : CCoinsViewCache) : Result CCoinsViewCache := do
  let us ← us.writeEntries child.cacheCoins.entries
  return us.setBestBlock child.hashBlock

end CCoinsViewCache

/-! ## The database -/

/-- `CCoinsViewDB` -/
structure CCoinsViewDB where
  coins : AList fun _ : COutPoint => Coin := ∅
  hashBestBlock : Uint256 := 0

namespace CCoinsViewDB

def toView (db : CCoinsViewDB) : CCoinsView where
  getCoin outpoint := db.coins.lookup outpoint
  getBestBlock := db.hashBestBlock

/-- One turn of the loop of the database's `BatchWrite`. -/
def writeEntry (db : CCoinsViewDB) (outpoint : COutPoint) (entry : CCoinsCacheEntry) :
    CCoinsViewDB :=
  if entry.coin.isSpent then { db with coins := db.coins.erase outpoint }
  else { db with coins := db.coins.insert outpoint entry.coin }

/-- The loop of the database's `BatchWrite`. -/
def writeEntries : CCoinsViewDB → List (Sigma fun _ : COutPoint => CCoinsCacheEntry) → CCoinsViewDB
  | db, [] => db
  | db, ⟨outpoint, entry⟩ :: entries => writeEntries (db.writeEntry outpoint entry) entries

/-- The database's `BatchWrite` of all entries of the cache `child` and its best block. -/
def batchWrite (db : CCoinsViewDB) (child : CCoinsViewCache) : Result CCoinsViewDB := do
  require (child.hashBlock ≠ 0)
  return { db.writeEntries child.cacheCoins.entries with hashBestBlock := child.hashBlock }

end CCoinsViewDB

/-- `CoinsViews`: the database and the cache over it, which is `CoinsTip()`. -/
structure CoinsViews where
  m_dbview : CCoinsViewDB := {}
  m_cacheview : CCoinsViewCache := {}

namespace CoinsViews

variable (views : CoinsViews)

/-- `CoinsTip()`, as a view. -/
def coinsTip : CCoinsView := views.m_cacheview.toView views.m_dbview.toView

/-- `Flush` of a cache over `CoinsTip()`. -/
def flushView (view : CCoinsViewCache) : Result CoinsViews := do
  let cache ← views.m_cacheview.batchWrite view
  return { views with m_cacheview := cache }

/-- `Flush` of `CoinsTip()`. -/
def flushTip : Result CoinsViews := do
  let db ← views.m_dbview.batchWrite views.m_cacheview
  return { m_dbview := db, m_cacheview := { hashBlock := views.m_cacheview.hashBlock } }

end CoinsViews

end Qbit
