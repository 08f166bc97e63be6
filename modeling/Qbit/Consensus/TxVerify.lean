import Qbit.Chain.Index
import Qbit.Coins.View
import Qbit.Consensus.Subsidy
import Qbit.Consensus.Validation
import Qbit.Consensus.Weight
import Qbit.Script.Verify

/-!
# Checks of a transaction

`CheckTransaction` of `consensus/tx_check.cpp`, which needs no context, and the checks of
`consensus/tx_verify.cpp`: whether the inputs are there and pay for the outputs (`CheckTxInputs`),
whether the locks of a transaction are over, and what its signature operations cost.

Amounts are signed 64-bit integers.  `checkTransaction_amounts` and `checkTxInputs_spec` say what a
transaction that passes is worth, and `avoids_checkTxInputs` that no sum on the way overflows, whatever
the transaction, as long as the coins are in the money range.
-/

open Checked

namespace Qbit

def coinbaseMaturity : Int := 1000

def maxBlockSigopsCost : Int := 80000

/-! ## Without context -/

/-- The loop of `CTransaction::GetValueOut`, which throws on a sum out of range. -/
def valueOutLoop : Int → List CTxOut → Result Int
  | nValueOut, [] => .ok nValueOut
  | nValueOut, out :: vout =>
    if !moneyRange out.nValue.toInt then .error .exception
    else do
      let sum ← add64 nValueOut out.nValue.toInt
      if !moneyRange sum then .error .exception else valueOutLoop sum vout

variable (tx : CTransaction) {inputs : CCoinsView}

/-- `CTransaction::GetValueOut` -/
def CTransaction.getValueOut : Result Int := do
  let nValueOut ← valueOutLoop 0 tx.vout
  require (moneyRange nValueOut = true)
  return nValueOut

/-- The loop of `CheckTransaction` over the outputs. -/
def checkOutputValues : Int → List CTxOut → TxCheck Unit
  | _, [] => .ok ()
  | nValueOut, out :: vout => do
    rejectIf (decide (out.nValue.toInt < 0)) .consensus "bad-txns-vout-negative"
    rejectIf (decide (maxMoney < out.nValue.toInt)) .consensus "bad-txns-vout-toolarge"
    let nValueOut ← liftFault (add64 nValueOut out.nValue.toInt)
    rejectIf (!moneyRange nValueOut) .consensus "bad-txns-txouttotal-toolarge"
    checkOutputValues nValueOut vout

/-- `CheckTransaction` -/
def checkTransaction : TxCheck Unit := do
  rejectIf tx.vin.isEmpty .consensus "bad-txns-vin-empty"
  rejectIf tx.vout.isEmpty .consensus "bad-txns-vout-empty"
  rejectIf (decide (maxBlockWeight < (tx.serialize false).length * witnessScaleFactor)) .consensus
    "bad-txns-oversize"
  checkOutputValues 0 tx.vout
  rejectIf (decide (¬ (tx.vin.map CTxIn.prevout).Nodup)) .consensus "bad-txns-inputs-duplicate"
  if tx.isCoinBase then
    let size := (tx.vin.headD { prevout := {} }).scriptSig.bytes.length
    rejectIf (decide (size < 2 ∨ 100 < size)) .consensus "bad-cb-length"
  else
    rejectIf (tx.vin.any fun txin => txin.prevout.isNull) .consensus "bad-txns-prevout-null"

/-! ## Locks -/

/-- `IsFinalTx` -/
def isFinalTx (nBlockHeight nBlockTime : Int) : Bool :=
  let lockTime := tx.nLockTime.toNat
  if tx.nLockTime = 0 then true
  else if lockTime < (if lockTime < locktimeThreshold then nBlockHeight else nBlockTime) then true
  else tx.vin.all fun txin => txin.nSequence == 0xffffffff

/-- One input of `CalculateSequenceLocks`: the last height and the last time at which it is not
valid yet. -/
def inputSequenceLock (block : CBlockIndex) (lock : Int × Int) (txin : CTxIn) (nCoinHeight : Int) :
    Result (Int × Int) :=
  let offset := txin.nSequence.toNat &&& sequenceLocktimeMask
  if txin.nSequence.toNat &&& sequenceLocktimeDisableFlag ≠ 0 then .ok lock
  else if txin.nSequence.toNat &&& sequenceLocktimeTypeFlag ≠ 0 then do
    match ← block.getAncestor (max (nCoinHeight - 1) 0) with
    | none => .error .assertion
    | some ancestor => return (lock.1, max lock.2 (ancestor.getMedianTimePast + offset * 2 ^ 9 - 1))
  else .ok (max lock.1 (nCoinHeight + offset - 1), lock.2)

/-- The loop of `CalculateSequenceLocks`. -/
def sequenceLockLoop (block : CBlockIndex) : Int × Int → List (CTxIn × Int) → Result (Int × Int)
  | lock, [] => .ok lock
  | lock, (txin, nCoinHeight) :: rest => do
    let lock ← inputSequenceLock block lock txin nCoinHeight
    sequenceLockLoop block lock rest

/-- `CalculateSequenceLocks`; `enforce` is the flag `LOCKTIME_VERIFY_SEQUENCE`. -/
def calculateSequenceLocks (enforce : Bool) (prevHeights : List Int) (block : CBlockIndex) :
    Result (Int × Int) := do
  require (prevHeights.length = tx.vin.length)
  if decide (2 ≤ tx.version) && enforce then sequenceLockLoop block (-1, -1) (tx.vin.zip prevHeights)
  else return (-1, -1)

/-- `EvaluateSequenceLocks` -/
def evaluateSequenceLocks (block : CBlockIndex) (lockPair : Int × Int) : Result Bool :=
  match block.pprev with
  | none => .error .assertion
  | some pprev =>
    .ok !(decide (block.nHeight ≤ lockPair.1) || decide (pprev.getMedianTimePast ≤ lockPair.2))

/-- `SequenceLocks` -/
def sequenceLocks (enforce : Bool) (prevHeights : List Int) (block : CBlockIndex) :
    Result Bool := do
  let lockPair ← calculateSequenceLocks tx enforce prevHeights block
  evaluateSequenceLocks block lockPair

/-! ## Signature operations -/

/-- `CScript::GetSigOpCount`, over the instructions of a script, the last opcode before them given. -/
def sigOpsOf (fAccurate : Bool) : UInt8 → List (UInt8 × Valtype) → Nat
  | _, [] => 0
  | lastOpcode, (opcode, _) :: rest =>
    (if opcode = opChecksig ∨ opcode = opChecksigverify then 1
    else if opcode = opCheckmultisig ∨ opcode = opCheckmultisigverify then
      if fAccurate && decide (op1 ≤ lastOpcode) && decide (lastOpcode ≤ op16) then
        lastOpcode.toNat - (op1.toNat - 1)
      else maxPubkeysPerMultisig
    else 0) + sigOpsOf fAccurate opcode rest

/-- `CScript::GetSigOpCount(bool)`; no opcode is `OP_INVALIDOPCODE`, 0xff, in front. -/
def getSigOpCount (script : List UInt8) (fAccurate : Bool) : Nat :=
  sigOpsOf fAccurate 0xff (instructions script.length script).1

/-- What the last instruction of a script pushes. -/
def lastData (script : List UInt8) : Valtype :=
  match (instructions script.length script).1.getLast? with
  | some (_, data) => data
  | none => []

/-- `CScript::GetSigOpCount(const CScript&)`, on a script that pays to a script hash. -/
def getP2SHScriptSigOpCount (scriptSig : List UInt8) : Nat :=
  if isPushOnly scriptSig then getSigOpCount (lastData scriptSig) true else 0

/-- `GetLegacySigOpCount` -/
def getLegacySigOpCount (tx : CTransaction) : Nat :=
  (tx.vin.map fun txin => getSigOpCount txin.scriptSig.bytes false).sum +
    (tx.vout.map fun txout => getSigOpCount txout.scriptPubKey.bytes false).sum

/-- `WitnessSigOps` -/
def witnessSigOps (witversion : Nat) (witprogram : Valtype) (witness : List Valtype) : Nat :=
  if witversion = 0 then
    if witprogram.length = witnessV0KeyhashSize then 1
    else if witprogram.length = witnessV0ScripthashSize then
      match witness.getLast? with
      | some subscript => getSigOpCount subscript true
      | none => 0
    else 0
  else 0

/-- `CountWitnessSigOps` -/
def countWitnessSigOps (scriptSig scriptPubKey : List UInt8) (witness : List Valtype)
    (flags : VerifyFlags) : Result Nat :=
  if .witness ∉ flags then .ok 0
  else do
    require (.p2sh ∈ flags)
    match isWitnessProgram scriptPubKey with
    | some (version, program) => return witnessSigOps version program witness
    | none =>
      if isPayToScriptHash scriptPubKey && isPushOnly scriptSig then
        match isWitnessProgram (lastData scriptSig) with
        | some (version, program) => return witnessSigOps version program witness
        | none => return 0
      else return 0

/-- What one input adds in `GetTransactionSigOpCost`. -/
def inputSigOpCost (inputs : CCoinsView) (flags : VerifyFlags) (txin : CTxIn) : Result Int := do
  let coin := inputs.accessCoin txin.prevout
  require (coin.isSpent = false)
  let scriptPubKey := coin.out.scriptPubKey.bytes
  let p2sh := if .p2sh ∈ flags ∧ isPayToScriptHash scriptPubKey then
    getP2SHScriptSigOpCount txin.scriptSig.bytes else 0
  let witness ← countWitnessSigOps txin.scriptSig.bytes scriptPubKey txin.scriptWitness flags
  return p2sh * witnessScaleFactor + witness

/-- The sum of what the inputs add. -/
def inputsSigOpCost (inputs : CCoinsView) (flags : VerifyFlags) : List CTxIn → Result Int
  | [] => .ok 0
  | txin :: vin => do
    let cost ← inputSigOpCost inputs flags txin
    let rest ← inputsSigOpCost inputs flags vin
    return cost + rest

/-- `GetTransactionSigOpCost` -/
def getTransactionSigOpCost (tx : CTransaction) (inputs : CCoinsView) (flags : VerifyFlags) :
    Result Int :=
  let legacy : Int := getLegacySigOpCount tx * witnessScaleFactor
  if tx.isCoinBase then .ok legacy
  else do
    let cost ← inputsSigOpCost inputs flags tx.vin
    return legacy + cost

/-! ## With the coins it spends -/

/-- The loop of `CheckTxInputs`: the value of the inputs. -/
def valueInLoop (inputs : CCoinsView) (nSpendHeight : Int) : Int → List CTxIn → TxCheck Int
  | nValueIn, [] => .ok nValueIn
  | nValueIn, txin :: vin => do
    let coin := inputs.accessCoin txin.prevout
    liftFault (require (coin.isSpent = false))
    rejectIf (coin.fCoinBase && decide (nSpendHeight - coin.nHeight < coinbaseMaturity))
      .prematureSpend "bad-txns-premature-spend-of-coinbase"
    let nValueIn ← liftFault (add64 nValueIn coin.out.nValue.toInt)
    rejectIf (!moneyRange coin.out.nValue.toInt || !moneyRange nValueIn) .consensus
      "bad-txns-inputvalues-outofrange"
    valueInLoop inputs nSpendHeight nValueIn vin

/-- `Consensus::CheckTxInputs`: the fee. -/
def checkTxInputs (tx : CTransaction) (inputs : CCoinsView) (nSpendHeight : Int) : TxCheck Int := do
  rejectIf (!inputs.haveInputs tx) .missingInputs "bad-txns-inputs-missingorspent"
  let nValueIn ← valueInLoop inputs nSpendHeight 0 tx.vin
  let value_out ← liftFault tx.getValueOut
  rejectIf (decide (nValueIn < value_out)) .consensus "bad-txns-in-belowout"
  let txfee ← liftFault (sub64 nValueIn value_out)
  rejectIf (!moneyRange txfee) .consensus "bad-txns-fee-outofrange"
  return txfee

/-! ## What a transaction is worth -/

/-- The sum of the values of a list of outputs. -/
def outputsAmount (vout : List CTxOut) : Nat := (vout.map CTxOut.amount).sum

/-- Every coin that the view shows has a value in the money range. -/
def CoinsInRange (view : CCoinsView) : Prop :=
  ∀ outpoint coin, view.getCoin outpoint = some coin → moneyRange coin.out.nValue.toInt = true

theorem CTxOut.natCast_amount {out : CTxOut} (h : moneyRange out.nValue.toInt = true) :
    (out.amount : Int) = out.nValue.toInt :=
  Int.toNat_of_nonneg (moneyRange_iff.mp h).1

theorem add64_of_moneyRange {a b : Int} (ha : moneyRange a = true) (hb : moneyRange b = true) :
    add64 a b = .ok (a + b) := by
  rw [moneyRange_iff] at ha hb
  have hmoney : maxMoney = 21000000000000000 := rfl
  exact int64_of_inRange ⟨by omega, by omega⟩

theorem sub64_of_moneyRange {a b : Int} (ha : moneyRange a = true) (hb : moneyRange b = true) :
    sub64 a b = .ok (a - b) := by
  rw [moneyRange_iff] at ha hb
  have hmoney : maxMoney = 21000000000000000 := rfl
  exact int64_of_inRange ⟨by omega, by omega⟩

theorem moneyRange_zero : moneyRange 0 = true := rfl

section Outputs

variable {nValueOut : Int} {vout : List CTxOut}

theorem moneyRange_of_checkOutputValues {u : Unit} (h : checkOutputValues nValueOut vout = .ok u) :
    ∀ out ∈ vout, moneyRange out.nValue.toInt = true := by
  induction vout generalizing nValueOut with
  | nil => simp
  | cons out vout ih =>
    simp [checkOutputValues] at h
    obtain ⟨hneg, hlarge, sum, -, -, hrest⟩ := h
    exact List.forall_mem_cons.mpr ⟨moneyRange_iff.mpr ⟨hneg, hlarge⟩, ih hrest⟩

/-- A sum that `GetValueOut` does not throw on is the sum. -/
theorem valueOutLoop_eq {sum : Int} (hstart : moneyRange nValueOut = true)
    (h : valueOutLoop nValueOut vout = .ok sum) :
    sum = nValueOut + outputsAmount vout ∧ moneyRange sum = true := by
  induction vout generalizing nValueOut with
  | nil =>
    cases h
    exact ⟨(Int.add_zero _).symm, hstart⟩
  | cons out vout ih =>
    cases hout : moneyRange out.nValue.toInt with
    | false => simp [valueOutLoop, hout] at h
    | true =>
      simp [valueOutLoop, hout, add64_of_moneyRange hstart hout] at h
      obtain ⟨heq, hrange⟩ := ih h.1 h.2
      refine ⟨?_, hrange⟩
      simp [heq, outputsAmount, CTxOut.natCast_amount hout, Int.add_assoc]

/-- **`GetValueOut` answers with the sum of the outputs**, or throws. -/
theorem CTransaction.getValueOut_eq {tx : CTransaction} {sum : Int} (h : tx.getValueOut = .ok sum) :
    sum = outputsAmount tx.vout ∧ moneyRange sum = true := by
  simp [getValueOut] at h
  simpa using valueOutLoop_eq moneyRange_zero h.1

theorem avoids_valueOutLoop (hstart : moneyRange nValueOut = true) :
    Avoids .overflow (valueOutLoop nValueOut vout) := by
  induction vout generalizing nValueOut with
  | nil => simp [valueOutLoop]
  | cons out vout ih =>
    cases hout : moneyRange out.nValue.toInt with
    | false => simp [valueOutLoop, hout]
    | true => simpa [valueOutLoop, hout, add64_of_moneyRange hstart hout] using ih

@[simp] theorem avoids_require {p : Prop} [Decidable p] : Avoids .overflow (require p) := by
  simp [require]

@[simp] theorem CTransaction.avoids_getValueOut (tx : CTransaction) :
    Avoids .overflow tx.getValueOut := by
  simp [getValueOut, avoids_valueOutLoop moneyRange_zero]

theorem avoids_checkOutputValues (hstart : moneyRange nValueOut = true) :
    Avoids (.fault .overflow) (checkOutputValues nValueOut vout) := by
  induction vout generalizing nValueOut with
  | nil => simp [checkOutputValues]
  | cons out vout ih =>
    simp only [checkOutputValues, avoids_bind, avoids_rejectIf, true_and]
    intro _ hneg _ hlarge
    simp at hneg hlarge
    simpa [add64_of_moneyRange hstart (moneyRange_iff.mpr ⟨hneg, hlarge⟩)] using ih

end Outputs

@[simp] theorem avoids_checkTransaction (tx : CTransaction) :
    Avoids (.fault .overflow) (checkTransaction tx) := by
  simp [checkTransaction, avoids_checkOutputValues moneyRange_zero]

/-- What `CheckTransaction` says about the amounts and the inputs of a transaction. -/
theorem checkTransaction_amounts {tx : CTransaction} {u : Unit} (h : checkTransaction tx = .ok u) :
    (∀ out ∈ tx.vout, moneyRange out.nValue.toInt = true) ∧ (tx.vin.map CTxIn.prevout).Nodup := by
  simp [checkTransaction] at h
  obtain ⟨-, -, -, ⟨_, houtputs⟩, hnodup, -⟩ := h
  exact ⟨moneyRange_of_checkOutputValues houtputs, hnodup⟩

theorem checkTransaction_length_vout {tx : CTransaction} {u : Unit}
    (h : checkTransaction tx = .ok u) : tx.vout.length ≤ maxBlockWeight := by
  simp [checkTransaction, witnessScaleFactor] at h
  exact tx.length_vout_le.trans h.2.2.1

/-! ## What its inputs are worth -/

/-- The sum of the values of the coins that inputs spend. -/
def inputsAmount (view : CCoinsView) (vin : List CTxIn) : Nat :=
  (vin.map fun txin => (view.accessCoin txin.prevout).amount).sum

theorem CCoinsView.getCoin_of_accessCoin {view : CCoinsView} {outpoint : COutPoint}
    (h : (view.accessCoin outpoint).isSpent = false) :
    view.getCoin outpoint = some (view.accessCoin outpoint) := by
  unfold accessCoin at h ⊢
  cases hcoin : view.getCoin outpoint with
  | none => cases hcoin ▸ h
  | some coin => rfl

section Inputs

variable {nSpendHeight nValueIn : Int} {vin : List CTxIn}

theorem valueInLoop_eq {sum : Int} (hstart : moneyRange nValueIn = true)
    (h : valueInLoop inputs nSpendHeight nValueIn vin = .ok sum) :
    sum = nValueIn + inputsAmount inputs vin ∧ moneyRange sum = true ∧
      ∀ txin ∈ vin, inputs.getCoin txin.prevout = some (inputs.accessCoin txin.prevout) := by
  induction vin generalizing nValueIn with
  | nil =>
    cases h
    exact ⟨(Int.add_zero _).symm, hstart, by simp⟩
  | cons txin vin ih =>
    simp [valueInLoop] at h
    obtain ⟨hunspent, -, next, hadd, ⟨hcoin, hnext⟩, h⟩ := h
    rw [add64_of_moneyRange hstart hcoin] at hadd
    cases hadd
    obtain ⟨heq, hsum, hrest⟩ := ih hnext h
    refine ⟨?_, hsum, List.forall_mem_cons.mpr ⟨CCoinsView.getCoin_of_accessCoin hunspent, hrest⟩⟩
    simp [heq, inputsAmount, Coin.amount, CTxOut.natCast_amount hcoin, Int.add_assoc]

theorem avoids_valueInLoop (hcoins : CoinsInRange inputs) (hstart : moneyRange nValueIn = true) :
    Avoids (.fault .overflow) (valueInLoop inputs nSpendHeight nValueIn vin) := by
  induction vin generalizing nValueIn with
  | nil => simp [valueInLoop]
  | cons txin vin ih =>
    simp only [valueInLoop, avoids_bind, avoids_liftFault, avoids_require, avoids_rejectIf, true_and]
    intro _ hunspent _ _
    simp at hunspent
    have hcoin := hcoins _ _ (CCoinsView.getCoin_of_accessCoin hunspent)
    simpa [add64_of_moneyRange hstart hcoin, hcoin] using ih

end Inputs

/-- **The inputs pay for the outputs and the fee**, and all of them are there. -/
theorem checkTxInputs_spec {tx : CTransaction} {nSpendHeight txfee : Int}
    (h : checkTxInputs tx inputs nSpendHeight = .ok txfee) :
    (inputsAmount inputs tx.vin : Int) = txfee + outputsAmount tx.vout ∧ moneyRange txfee = true ∧
      ∀ txin ∈ tx.vin, inputs.getCoin txin.prevout = some (inputs.accessCoin txin.prevout) := by
  simp [checkTxInputs] at h
  obtain ⟨-, nValueIn, hin, value_out, hout, -, hfee, hrange⟩ := h
  obtain ⟨hvalueIn, hinRange, hcoins⟩ := valueInLoop_eq moneyRange_zero hin
  obtain ⟨hvalueOut, houtRange⟩ := CTransaction.getValueOut_eq hout
  rw [sub64_of_moneyRange hinRange houtRange] at hfee
  cases hfee
  exact ⟨by omega, hrange, hcoins⟩

/-- **No sum in `CheckTxInputs` overflows** on coins in the money range. -/
theorem avoids_checkTxInputs (hcoins : CoinsInRange inputs) (tx : CTransaction) (nSpendHeight : Int)
    :
    Avoids (.fault .overflow) (checkTxInputs tx inputs nSpendHeight) := by
  simp [checkTxInputs, avoids_valueInLoop hcoins moneyRange_zero]
  intro _ nValueIn hin value_out hout _
  obtain ⟨-, hinRange, -⟩ := valueInLoop_eq moneyRange_zero hin
  obtain ⟨-, houtRange⟩ := CTransaction.getValueOut_eq hout
  simp [sub64_of_moneyRange hinRange houtRange]

end Qbit
