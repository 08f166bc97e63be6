import Qbit.Script.TwoCheckers
import Qbit.Sign.Provider
import Qbit.Sign.Template

/-!
# Checkers and creators of signatures

What signing code asks about a transaction: the checker of `script/interpreter.cpp` that fails when
data is missing, instead of asserting that it is there, and `MutableTransactionSignatureCreator` of
`script/sign.cpp`, as far as it makes PQC signatures.

`transactionSignatureChecker_extends` is what the rest rests on.  While a transaction is signed, its
inputs get new scripts and witnesses.  Signatures do not depend on these, so what was accepted in
the middle of signing is accepted at the end.
-/

open Bytes Checked

namespace Qbit

open TransactionSignatureChecker

/-! ## A checker that fails on missing data -/

namespace SigningChecker

variable (C : Crypto) (txTo : CTransaction) (nIn : Nat) (txdata : Option PrecomputedTransactionData)

/-- The data that Taproot and P2MR signatures commit to is there. -/
def ready : Bool := txdata.any fun data => data.m_bip341_taproot_ready && data.m_spent_outputs_ready

/-- The error when it is not: `HandleMissingData` sets none, but if only a part is missing, then the
caller does. -/
def missing (badHashtype : ScriptError) : ScriptError :=
  if txdata.isNone then .unknownError else badHashtype

/-- `CheckSchnorrSignature` with `MissingDataBehavior::FAIL`. -/
def checkSchnorrSignature (sig pubkey : Valtype) (sigversion : SigVersion)
    (execdata : ScriptExecutionData) : Eval ScriptExecutionData :=
  if ready txdata then
    TransactionSignatureChecker.checkSchnorrSignature C txTo nIn (txdata.getD {}) sig pubkey
      sigversion execdata
  else do
    Eval.require (sigversion = .taproot ∨ sigversion = .tapscript)
    Eval.require (pubkey.length = 32)
    if sig.length ≠ 64 ∧ sig.length ≠ 65 then setError .schnorrSigSize
    else
      let _ ← splitHashtype sig 64 .schnorrSigHashtype
      setError (missing txdata .schnorrSigHashtype)

/-- `CheckPQCSignature` with `MissingDataBehavior::FAIL`. -/
def checkPQCSignature (sig pubkey : Valtype) (sigversion : SigVersion)
    (execdata : ScriptExecutionData) : Eval (ScriptExecutionData × List PQCVerification) :=
  if ready txdata then
    TransactionSignatureChecker.checkPQCSignature C txTo nIn (txdata.getD {}) sig pubkey sigversion
      execdata
  else do
    Eval.require (sigversion = .p2mr)
    Eval.require (pubkey.length = pqcPubkeySize)
    if sig.length ≠ pqcSigSize ∧ sig.length ≠ pqcSigSize + 1 then setError .p2mrSigSize
    else
      let _ ← splitHashtype sig pqcSigSize .p2mrSigHashtype
      setError (missing txdata .p2mrSigHashtype)

/-- `CheckTemplateVerifyHash` with `MissingDataBehavior::FAIL`. -/
def checkTemplateVerifyHash (expected : Valtype) : Eval Unit :=
  if (txdata.any fun data => data.m_ctv_ready) && nIn < txTo.vin.length then
    TransactionSignatureChecker.checkTemplateVerifyHash C txTo nIn (txdata.getD {}) expected
  else do
    Eval.require (expected.length = 32)
    setError .unknownError

end SigningChecker

open SigningChecker in
/-- `GenericTransactionSignatureChecker` with `MissingDataBehavior::FAIL`. -/
def signingChecker (C : Crypto) (txTo : CTransaction) (nIn : Nat) (amount : CAmount)
    (txdata : Option PrecomputedTransactionData) : BaseSignatureChecker where
  checkECDSASignature := C.checkECDSASignature txTo nIn amount
  checkSchnorrSignature := checkSchnorrSignature C txTo nIn txdata
  checkPQCSignature := checkPQCSignature C txTo nIn txdata
  checkTemplateVerifyHash := checkTemplateVerifyHash C txTo nIn txdata
  checkLockTime := TransactionSignatureChecker.checkLockTime txTo nIn
  checkSequence := checkSequence txTo nIn

/-! ## Transactions with other scripts -/

/-- An input without its script and its witness. -/
def CTxIn.bare (txin : CTxIn) : CTxIn := { txin with scriptSig := .empty, scriptWitness := [] }

/-- Two transactions that differ in the scripts and the witnesses of their inputs at most. -/
structure SameSpends (tx tx' : CTransaction) : Prop where
  vin : tx'.vin.map CTxIn.bare = tx.vin.map CTxIn.bare
  vout : tx'.vout = tx.vout
  version : tx'.version = tx.version
  nLockTime : tx'.nLockTime = tx.nLockTime

/-- ECDSA signatures do not depend on the scripts and the witnesses of the inputs. -/
def Crypto.ECDSAIgnoresScripts (C : Crypto) : Prop :=
  ∀ tx tx', SameSpends tx tx' → C.checkECDSASignature tx' = C.checkECDSASignature tx

namespace SameSpends

theorem refl (tx : CTransaction) : SameSpends tx tx := ⟨rfl, rfl, rfl, rfl⟩

variable {tx tx' tx'' : CTransaction}

theorem trans (h : SameSpends tx tx') (h' : SameSpends tx' tx'') : SameSpends tx tx'' :=
  ⟨h'.vin.trans h.vin, h'.vout.trans h.vout, h'.version.trans h.version,
    h'.nLockTime.trans h.nLockTime⟩

theorem symm (h : SameSpends tx tx') : SameSpends tx' tx :=
  ⟨h.vin.symm, h.vout.symm, h.version.symm, h.nLockTime.symm⟩

variable (h : SameSpends tx tx')

include h

theorem length_vin : tx'.vin.length = tx.vin.length := by
  simpa using congrArg List.length h.vin

theorem map_vin {α : Type} (f : CTxIn → α) (hf : ∀ txin, f txin.bare = f txin) :
    tx'.vin.map f = tx.vin.map f := by
  have hbare : ∀ vin : List CTxIn, (vin.map CTxIn.bare).map f = vin.map f := fun vin => by
    rw [List.map_map]
    exact List.map_congr_left fun txin _ => hf txin
  rw [← hbare tx'.vin, ← hbare tx.vin, h.vin]

theorem input_cases (i : Nat) :
    (tx.vin[i]? = none ∧ tx'.vin[i]? = none) ∨ ∃ txin txin', tx.vin[i]? = some txin ∧
      tx'.vin[i]? = some txin' ∧ txin'.prevout = txin.prevout ∧
        txin'.nSequence = txin.nSequence := by
  have hbare := congrArg (·[i]?) h.vin
  simp only [List.getElem?_map] at hbare
  rcases htx : tx.vin[i]? with _ | txin
  · rw [htx, Option.map_none, Option.map_eq_none_iff] at hbare
    exact Or.inl ⟨rfl, hbare⟩
  rw [htx, Option.map_some, Option.map_eq_some_iff] at hbare
  obtain ⟨txin', htx', hbare⟩ := hbare
  exact Or.inr ⟨txin, txin', rfl, htx', congrArg (fun i => i.prevout) hbare,
    congrArg (fun i => i.nSequence) hbare⟩

end SameSpends

/-- Precomputed data that agrees on what signatures commit to. -/
structure SameSighashData (data data' : PrecomputedTransactionData) : Prop where
  prevouts : data'.m_prevouts_single_hash = data.m_prevouts_single_hash
  sequences : data'.m_sequences_single_hash = data.m_sequences_single_hash
  outputs : data'.m_outputs_single_hash = data.m_outputs_single_hash
  spent_amounts : data'.m_spent_amounts_single_hash = data.m_spent_amounts_single_hash
  spent_scripts : data'.m_spent_scripts_single_hash = data.m_spent_scripts_single_hash
  taproot_ready : data'.m_bip341_taproot_ready = data.m_bip341_taproot_ready
  spent_outputs : data'.m_spent_outputs = data.m_spent_outputs
  spent_ready : data'.m_spent_outputs_ready = data.m_spent_outputs_ready

theorem getD_of_ready {txdata : Option PrecomputedTransactionData}
    {data : PrecomputedTransactionData} (hready : SigningChecker.ready txdata = true)
    (htxdata : ∀ d, txdata = some d → d = data) : txdata.getD {} = data := by
  cases txdata with
  | none => cases hready
  | some d => exact htxdata d rfl

section Extends

variable {C : Crypto} {tx tx' : CTransaction} (h : SameSpends tx tx')
  {data data' : PrecomputedTransactionData}

include h

theorem SameSpends.sameSighashData (spent_outputs : List CTxOut) :
    SameSighashData (.initForced C tx spent_outputs) (.initForced C tx' spent_outputs) := by
  have hprevouts : tx'.vin.map (fun i => i.prevout.serialize) =
      tx.vin.map fun i => i.prevout.serialize := h.map_vin _ fun _ => rfl
  have hsequences : tx'.vin.map (fun i => serUint32 i.nSequence) =
      tx.vin.map fun i => serUint32 i.nSequence := h.map_vin _ fun _ => rfl
  refine ⟨?_, ?_, ?_, rfl, rfl, rfl, rfl, rfl⟩
  · simp only [PrecomputedTransactionData.initForced, List.flatMap, hprevouts]
  · simp only [PrecomputedTransactionData.initForced, List.flatMap, hsequences]
  · simp only [PrecomputedTransactionData.initForced, h.vout]

variable (hdata : SameSighashData data data')

include hdata

theorem signedInput_same (in_pos : Nat) (input_type : UInt8) :
    signedInput tx' in_pos input_type data' = signedInput tx in_pos input_type data := by
  rw [signedInput, signedInput, hdata.spent_outputs]
  refine if_congr Iff.rfl ?_ rfl
  obtain ⟨htx, htx'⟩ | ⟨txin, txin', htx, htx', hprevout, hsequence⟩ := h.input_cases in_pos
  · rw [htx, htx']
  simp [htx, htx', Eval.init, hprevout, hsequence]

/-- **The message of a signature does not depend on scripts and witnesses.** -/
theorem signatureHashSchnorrCommon_same (execdata : ScriptExecutionData) (in_pos : Nat)
    (hash_type : UInt8) (sigversion : SigVersion) (tag : String) :
    signatureHashSchnorrCommon C execdata tx' in_pos hash_type sigversion data' tag =
      signatureHashSchnorrCommon C execdata tx in_pos hash_type sigversion data tag := by
  have htransaction (input_type output_type : UInt8) :
      signedTransaction tx' input_type output_type data' =
        signedTransaction tx input_type output_type data := by
    rw [signedTransaction, signedTransaction, hdata.prevouts, hdata.sequences, hdata.outputs,
      hdata.spent_amounts, hdata.spent_scripts, h.version, h.nLockTime]
  have houtput (execdata : ScriptExecutionData) (output_type : UInt8) :
      signedOutput C execdata tx' in_pos output_type =
        signedOutput C execdata tx in_pos output_type := by simp [signedOutput, h.vout]
  rw [signatureHashSchnorrCommon, signatureHashSchnorrCommon]
  simp only [h.length_vin, hdata.taproot_ready, hdata.spent_ready, signedInput_same h hdata,
    houtput, htransaction]

theorem checkSchnorrSignature_same (nIn : Nat) :
    checkSchnorrSignature C tx' nIn data' =
      checkSchnorrSignature C tx nIn data := by
  funext sig pubkey sigversion execdata
  simp only [checkSchnorrSignature,
    signatureHashSchnorrCommon_same h hdata]

theorem checkPQCSignature_same (nIn : Nat) :
    checkPQCSignature C tx' nIn data' =
      checkPQCSignature C tx nIn data := by
  funext sig pubkey sigversion execdata
  simp only [checkPQCSignature, signatureHashSchnorrCommon_same h hdata]

/-- **The checker of a transaction extends the checker of an earlier version of it**, in which the
scripts and the witnesses were others, and data may have been missing. -/
theorem transactionSignatureChecker_extends (hecdsa : C.ECDSAIgnoresScripts) (nIn : Nat)
    (amount : CAmount) {txdata : Option PrecomputedTransactionData}
    (htxdata : ∀ d, txdata = some d → d = data) :
    (transactionSignatureChecker C tx' nIn amount data').Extends
      (signingChecker C tx nIn amount txdata) := by
  have hlock : checkLockTime tx' nIn =
      checkLockTime tx nIn := by
    funext nLockTime
    rw [checkLockTime, checkLockTime,
      h.nLockTime]
    obtain ⟨htx, htx'⟩ | ⟨txin, txin', htx, htx', -, hsequence⟩ := h.input_cases nIn
    · rw [htx, htx']
    · simp only [htx, htx', Option.all_some, hsequence]
  have hsequence : checkSequence tx' nIn =
      checkSequence tx nIn := by
    funext nSequence
    rw [checkSequence, checkSequence,
      h.version]
    obtain ⟨htx, htx'⟩ | ⟨txin, txin', htx, htx', -, hsequence⟩ := h.input_cases nIn
    · rw [htx, htx']
    · rw [htx, htx']
      dsimp only
      rw [hsequence]
  rw [transactionSignatureChecker, signingChecker, hlock, hsequence]
  refine ⟨congrFun (congrFun (hecdsa tx tx' h) nIn) amount, fun sig pubkey sigversion execdata => ?_,
    fun sig pubkey sigversion execdata => ?_, rfl, rfl⟩
  · refine .ite_left (fun hready => ?_) fun _ => ?_
    · rw [getD_of_ready hready htxdata]
      exact .of_eq (congrFun (congrFun (congrFun (congrFun
        (checkSchnorrSignature_same h hdata nIn) sig) pubkey) sigversion) execdata).symm
    · exact .of_ensures (.bind_any fun _ => .bind_any fun _ =>
        .guard fun _ => .bind_any fun _ => .error)
  · refine .ite_left (fun hready => ?_) fun _ => ?_
    · rw [getD_of_ready hready htxdata]
      exact .of_eq (congrFun (congrFun (congrFun (congrFun
        (checkPQCSignature_same h hdata nIn) sig) pubkey) sigversion) execdata).symm
    · exact .of_ensures (.bind_any fun _ => .bind_any fun _ =>
        .guard fun _ => .bind_any fun _ => .error)

omit hdata in
/-- If the scripts of the inputs are the same too, then template hashes are accepted again. -/
theorem transactionSignatureChecker_extendsTemplates (nIn : Nat) (amount : CAmount)
    {txdata : Option PrecomputedTransactionData} (htxdata : ∀ d, txdata = some d → d = data) :
    (transactionSignatureChecker C tx' nIn amount data).ExtendsTemplates
      (signingChecker C tx nIn amount txdata) := by
  intro expected
  refine .ite_left (fun hready => ?_) fun _ =>
    .of_ensures (.bind_any fun _ => .error)
  have hgetD : txdata.getD {} = data := by
    cases txdata with
    | none => cases hready
    | some d => exact htxdata d rfl
  have hhash : getDefaultCheckTemplateVerifyHash C tx' nIn data =
      getDefaultCheckTemplateVerifyHash C tx nIn data := by
    simp [getDefaultCheckTemplateVerifyHash, h.length_vin, h.vout, h.version, h.nLockTime]
  have hsame : checkTemplateVerifyHash C tx' nIn data expected =
      checkTemplateVerifyHash C tx nIn data expected := by
    simp [checkTemplateVerifyHash, hhash, h.length_vin]
  rw [hgetD]
  exact .of_eq hsame.symm

end Extends

/-! ## Providers -/

/-- `SigningProvider`, as far as it deals with P2MR outputs.  Making a signature changes the state
`W` of the provider and of what is behind it: counters, a wallet, a source of randomness. -/
structure SigningProvider (W : Type) where
  getP2MRSpendData : Uint256 → Option P2MRSpendData
  /-- The spending data that the builder computes. -/
  getP2MRBuilder : Uint256 → Option P2MRSpendData
  canSignPQC : CPQCPubKey → W → Bool
  signPQC : CPQCPubKey → Uint256 → W → Option Valtype × W

/-- `NoPQCSigningProvider` -/
def SigningProvider.noPQC {W : Type} (provider : SigningProvider W) : SigningProvider W :=
  { provider with canSignPQC := fun _ _ => false, signPQC := fun _ _ w => (none, w) }

/-! ## Creators -/

/-- `MutableTransactionSignatureCreator` -/
structure MutableTransactionSignatureCreator where
  m_txto : CTransaction
  nIn : Nat
  amount : CAmount
  m_txdata : Option PrecomputedTransactionData
  nHashType : Int

/-- The execution data that is signed: no annex, and no code separator. -/
def signedExecdata (leaf_hash : Uint256) : ScriptExecutionData where
  m_annex := some none
  m_codeseparator_pos := some 0xffffffff
  m_tapleaf_hash := some leaf_hash

/-- `GetP2MRSignatureHashType` -/
def getP2MRSignatureHashType (sig : Valtype) : Option UInt8 :=
  if sig.length ≠ pqcSigSize ∧ sig.length ≠ pqcSigSize + 1 then none
  else if sig.length = pqcSigSize then some sighashDefault
  else match sig.getLast? with
    | none => none
    | some hashtype => if hashtype = sighashDefault then none else some hashtype

namespace MutableTransactionSignatureCreator

variable (C : Crypto) (creator : MutableTransactionSignatureCreator) {W : Type}

/-- `Checker` -/
def checker : BaseSignatureChecker :=
  signingChecker C creator.m_txto creator.nIn creator.amount creator.m_txdata

/-- `CreatePQCSignatureHash` -/
def createPQCSignatureHash (leaf_hash : Uint256) : Option Uint256 :=
  if SigningChecker.ready creator.m_txdata then
    match signatureHashSchnorrCommon C (signedExecdata leaf_hash) creator.m_txto creator.nIn
      (UInt8.ofInt creator.nHashType) .p2mr (creator.m_txdata.getD {}) "P2MRSighash" with
    | .ok (some (hash, _)) => some hash
    | _ => none
  else none

/-- The signature with the hash type behind it, unless that is the default. -/
def withHashType (sig : Valtype) : Valtype :=
  if creator.nHashType ≠ 0 then sig ++ [UInt8.ofInt creator.nHashType] else sig

/-- `CreatePQCSignature` -/
def createPQCSignature (provider : SigningProvider W) (pubkey : CPQCPubKey) (leaf_hash : Uint256)
    (w : W) : Option Valtype × W :=
  match creator.createPQCSignatureHash C leaf_hash with
  | none => (none, w)
  | some hash =>
    let (raw_sig, w) := provider.signPQC pubkey hash w
    (raw_sig.map creator.withHashType, w)

/-- `VerifyP2MRScriptSignature` -/
def verifyP2MRScriptSignature (sig : Valtype) (pubkey : CPQCPubKey) (leaf_hash : Uint256) : Bool :=
  if SigningChecker.ready creator.m_txdata then
    ((creator.checker C).checkPQCSignature sig (serUint256 pubkey) .p2mr
      (signedExecdata leaf_hash)).isOk
  else true

/-- `P2MRSignatureSize` -/
def p2mrSignatureSize : Nat := pqcSigSize + if creator.nHashType ≠ 0 then 1 else 0

end MutableTransactionSignatureCreator

end Qbit
