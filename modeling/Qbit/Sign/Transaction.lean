import Qbit.Sign.Parallel

/-!
# Signing a transaction

`SignTransaction` of `script/sign.cpp`: signing in parallel is tried first, and otherwise the inputs
are signed one after the other.
-/

open Bytes Checked

namespace Qbit

/-- `coins.find`, with a spent coin as good as none. -/
def findCoin (coins : COutPoint → Option Coin) (prevout : COutPoint) : Option CTxOut :=
  match coins prevout with
  | none => none
  | some coin => if coin.isSpent then none else some coin.out

/-- The outputs that the inputs spend, if all of them are known. -/
def signedOutputs (coins : COutPoint → Option Coin) (vin : List CTxIn) : Option (List CTxOut) :=
  vin.mapM fun txin => findCoin coins txin.prevout

/-- The precomputed data of `SignTransaction`. -/
def signingTxdata (C : Crypto) (mtx : CTransaction) (coins : COutPoint → Option Coin) :
    PrecomputedTransactionData :=
  .initForced C mtx ((signedOutputs coins mtx.vin).getD [])

section Serial

variable (C : Crypto) {W : Type} (other : OtherSigner W) (provider : SigningProvider W)
  (txConst : CTransaction) (coins : COutPoint → Option Coin) (nHashType : Int)
  (txdata : PrecomputedTransactionData) (progress_callback : SigningProgressCallback)

end Serial

end Qbit
