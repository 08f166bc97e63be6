import Mathlib.Data.Finset.Basic
import Qbit.Lib.Checked
import Qbit.Script.Script

/-!
# Signature checkers

What the interpreter of `script/interpreter.cpp` shares with the signature checkers it calls: error
codes, verification flags, signature versions and the execution data.  Then the signature messages
of Taproot and P2MR, the template hash, and `GenericTransactionSignatureChecker`, the checker of
consensus code.

The cryptographic primitives are parameters, collected in `Crypto`: the hash functions, the curve
operations and the PQC verification.  So is the check of an ECDSA signature as a whole, with its
older signature messages; no script of a native Taproot or P2MR output can reach it.

A checker that verifies a PQC signature reports the verification, with its arguments.  The reports
are not part of the source.
-/

open Bytes Checked

namespace Qbit

/-! ## Errors and flags -/

/-- `ScriptError_t`, without `SCRIPT_ERR_OK`. -/
inductive ScriptError where
  | unknownError | evalFalse | opReturn
  | scriptSize | pushSize | opCount | stackSize | sigCount | pubkeyCount
  | verify | equalverify | checkmultisigverify | checksigverify | numequalverify
  | badOpcode | disabledOpcode | invalidStackOperation | invalidAltstackOperation
  | unbalancedConditional
  | negativeLocktime | unsatisfiedLocktime
  | sigHashtype | sigDer | minimaldata | sigPushonly | sigHighS | sigNulldummy | pubkeytype
  | cleanstack | minimalif | sigNullfail
  | discourageUpgradableNops | discourageUpgradableWitnessProgram
  | discourageUpgradableTaprootVersion | discourageOpSuccess | discourageUpgradablePubkeytype
  | witnessProgramWrongLength | witnessProgramWitnessEmpty | witnessProgramMismatch
  | witnessMalleated | witnessMalleatedP2SH | witnessUnexpected | witnessPubkeytype
  | schnorrSigSize | schnorrSigHashtype | schnorrSig | taprootWrongControlSize
  | tapscriptValidationWeight | tapscriptCheckmultisig | tapscriptMinimalif
  | p2mrWrongControlSize | p2mrControlBit0 | p2mrValidationWeight | p2mrSigSize | p2mrSig
  | p2mrSigHashtype | p2mrChecksig | templateMismatch
  | opCodeseparator | sigFindanddelete
  deriving DecidableEq, Repr

/-- `ScriptErrorString` -/
def scriptErrorString : ScriptError → String
  | .evalFalse =>
    "Script evaluated without error but finished with a false/empty top stack element"
  | .verify => "Script failed an OP_VERIFY operation"
  | .equalverify => "Script failed an OP_EQUALVERIFY operation"
  | .checkmultisigverify => "Script failed an OP_CHECKMULTISIGVERIFY operation"
  | .checksigverify => "Script failed an OP_CHECKSIGVERIFY operation"
  | .numequalverify => "Script failed an OP_NUMEQUALVERIFY operation"
  | .scriptSize => "Script is too big"
  | .pushSize => "Push value size limit exceeded"
  | .opCount => "Operation limit exceeded"
  | .stackSize => "Stack size limit exceeded"
  | .sigCount => "Signature count negative or greater than pubkey count"
  | .pubkeyCount => "Pubkey count negative or limit exceeded"
  | .badOpcode => "Opcode missing or not understood"
  | .disabledOpcode => "Attempted to use a disabled opcode"
  | .invalidStackOperation => "Operation not valid with the current stack size"
  | .invalidAltstackOperation => "Operation not valid with the current altstack size"
  | .opReturn => "OP_RETURN was encountered"
  | .unbalancedConditional => "Invalid OP_IF construction"
  | .negativeLocktime => "Negative locktime"
  | .unsatisfiedLocktime => "Locktime requirement not satisfied"
  | .sigHashtype => "Signature hash type missing or not understood"
  | .sigDer => "Non-canonical DER signature"
  | .minimaldata => "Data push larger than necessary"
  | .sigPushonly => "Only push operators allowed in signatures"
  | .sigHighS => "Non-canonical signature: S value is unnecessarily high"
  | .sigNulldummy => "Dummy CHECKMULTISIG argument must be zero"
  | .minimalif => "OP_IF/NOTIF argument must be minimal"
  | .sigNullfail => "Signature must be zero for failed CHECK(MULTI)SIG operation"
  | .discourageUpgradableNops => "NOPx reserved for soft-fork upgrades"
  | .discourageUpgradableWitnessProgram => "Witness version reserved for soft-fork upgrades"
  | .discourageUpgradableTaprootVersion => "Taproot version reserved for soft-fork upgrades"
  | .discourageOpSuccess => "OP_SUCCESSx reserved for soft-fork upgrades"
  | .discourageUpgradablePubkeytype => "Public key version reserved for soft-fork upgrades"
  | .pubkeytype => "Public key is neither compressed or uncompressed"
  | .cleanstack => "Stack size must be exactly one after execution"
  | .witnessProgramWrongLength => "Witness program has incorrect length"
  | .witnessProgramWitnessEmpty => "Witness program was passed an empty witness"
  | .witnessProgramMismatch => "Witness program hash mismatch"
  | .witnessMalleated => "Witness requires empty scriptSig"
  | .witnessMalleatedP2SH => "Witness requires only-redeemscript scriptSig"
  | .witnessUnexpected => "Witness provided for non-witness script"
  | .witnessPubkeytype => "Using non-compressed keys in segwit"
  | .schnorrSigSize => "Invalid Schnorr signature size"
  | .schnorrSigHashtype => "Invalid Schnorr signature hash type"
  | .schnorrSig => "Invalid Schnorr signature"
  | .taprootWrongControlSize => "Invalid Taproot control block size"
  | .tapscriptValidationWeight => "Too much signature validation relative to witness weight"
  | .tapscriptCheckmultisig => "OP_CHECKMULTISIG(VERIFY) is not available in tapscript"
  | .tapscriptMinimalif => "OP_IF/NOTIF argument must be minimal in tapscript"
  | .p2mrWrongControlSize => "Invalid P2MR control block size"
  | .p2mrControlBit0 => "P2MR control byte bit 0 must be set"
  | .p2mrValidationWeight => "Too much signature validation relative to witness weight"
  | .p2mrSigSize => "Invalid PQC signature size"
  | .p2mrSig => "PQC signature verification failed"
  | .p2mrSigHashtype => "Invalid PQC signature hash type"
  | .p2mrChecksig => "OP_CHECKSIG(VERIFY) is not available in P2MR"
  | .templateMismatch => "Transaction template hash does not match"
  | .opCodeseparator => "Using OP_CODESEPARATOR in non-witness script"
  | .sigFindanddelete => "Signature is found in scriptCode"
  | .unknownError => "unknown error"

/-- Why a script did not succeed: it is invalid, or the program stopped. -/
inductive ScriptFailure where
  | invalid (serror : ScriptError)
  | fault (f : Fault)
  deriving DecidableEq, Repr

/-- The result of a script check. -/
abbrev Eval (α : Type) := Except ScriptFailure α

/-- `set_error` -/
def setError {α : Type} (serror : ScriptError) : Eval α := .error (.invalid serror)

/-- `assert(p)` in a script check. -/
def Eval.require (p : Prop) [Decidable p] : Eval Unit := (Checked.require p).mapError .fault

/-- The value of a field that is asserted to be initialized. -/
def Eval.init {α : Type} : Option α → Eval α
  | none => .error (.fault .assertion)
  | some a => .ok a

theorem Eval.require_eq_ok_iff {p : Prop} [Decidable p] {u : Unit} :
    Eval.require p = .ok u ↔ p := by
  unfold Eval.require Checked.require
  split <;> simp_all [Except.mapError]

theorem Eval.init_eq_ok_iff {α : Type} {x : Option α} {a : α} : Eval.init x = .ok a ↔ x = some a := by
  cases x <;> simp [Eval.init]

theorem ite_setError_eq_ok_iff {serror : ScriptError} {α : Type} {p : Prop} [Decidable p] {x : Eval α}
    {a : α} : (if p then setError serror else x) = .ok a ↔ ¬ p ∧ x = .ok a := by
  split <;> simp_all [setError]

/-- `SCRIPT_VERIFY_*`.  The source keeps a set of flags as the bits of a word and tests them one by
one; a set of flags here is a finite set. -/
inductive VerifyFlag where
  | p2sh | strictenc | dersig | lowS | nulldummy | sigpushonly | minimaldata
  | discourageUpgradableNops | cleanstack | checklocktimeverify | checksequenceverify | witness
  | discourageUpgradableWitnessProgram | minimalif | nullfail | witnessPubkeytype
  | constScriptcode | taproot | discourageUpgradableTaprootVersion | discourageOpSuccess
  | discourageUpgradablePubkeytype | p2mrRules | p2mrLegacyValidationWeight
  deriving DecidableEq, Repr

abbrev VerifyFlags := Finset VerifyFlag

/-- `SigVersion` -/
inductive SigVersion where
  | base | witnessV0 | taproot | tapscript | p2mr
  deriving DecidableEq, Repr

/-- `ScriptExecutionData`.  A field with a flag that says whether it is initialized is an
`Option`. -/
structure ScriptExecutionData where
  m_tapleaf_hash : Option Uint256 := none
  m_codeseparator_pos : Option UInt32 := none
  /-- The inner option is `m_annex_present` with `m_annex_hash`. -/
  m_annex : Option (Option Uint256) := none
  m_validation_weight_left : Option Int := none
  m_output_hash : Option Uint256 := none
  deriving DecidableEq

/-! ## Cryptography -/

def pqcPubkeySize : Nat := 32

def pqcSigSize : Nat := 3680

/-- A call of the PQC verification: `CPQCPubKey::Verify` with a key, a hash and a signature. -/
structure PQCVerification where
  pubkey : Valtype
  hash : Uint256
  sig : Valtype
  deriving DecidableEq

/-- The primitives that scripts rest on. -/
structure Crypto where
  sha256 : List UInt8 → Uint256
  sha1 : List UInt8 → BitVec 160
  ripemd160 : List UInt8 → BitVec 160
  /-- `CPubKey::CheckLowS` -/
  checkLowS : Valtype → Bool
  /-- `GenericTransactionSignatureChecker::CheckECDSASignature`, on the transaction, the index of
  the input and the amount it spends. -/
  checkECDSASignature : CTransaction → Nat → CAmount → Valtype → Valtype → List UInt8 →
    SigVersion → Bool
  /-- `XOnlyPubKey::VerifySchnorr` -/
  verifySchnorr : Valtype → Uint256 → Valtype → Bool
  /-- `XOnlyPubKey::CheckTapTweak` -/
  checkTapTweak : Valtype → Valtype → Uint256 → Bool → Bool
  /-- `CPQCPubKey::Verify` -/
  verifyPQC : PQCVerification → Bool

namespace Crypto

variable (C : Crypto)

/-- `CHash160` -/
def hash160 (bs : List UInt8) : BitVec 160 := C.ripemd160 (serUint256 (C.sha256 bs))

/-- `CHash256` -/
def hash256 (bs : List UInt8) : Uint256 := C.sha256 (serUint256 (C.sha256 bs))

/-- `TaggedHash(tag)` fed with `bs`, and `GetSHA256`. -/
def taggedHash (tag : String) (bs : List UInt8) : Uint256 :=
  let taghash := serUint256 (C.sha256 (tag.toList.map fun c => UInt8.ofNat c.toNat))
  C.sha256 (taghash ++ taghash ++ bs)

/-- `ComputeTapleafHash` and `ComputeP2MRLeafHash`, which differ in the tag. -/
def leafHash (tag : String) (leaf_version : UInt8) (script : Valtype) : Uint256 :=
  C.taggedHash tag (leaf_version :: serBytes script)

/-- `ComputeTapbranchHash` and `ComputeP2MRBranchHash`: the two children in their order as byte
strings. -/
def branchHash (tag : String) (a b : List UInt8) : Uint256 :=
  C.taggedHash tag (if a < b then a ++ b else b ++ a)

/-- `ComputeTaprootMerkleRoot` and `ComputeP2MRMerkleRoot`: climb the path of 32-byte nodes, of
which there are `path_len`. -/
def merkleRoot (tag : String) : Nat → List UInt8 → Uint256 → Uint256
  | 0, _, k => k
  | path_len + 1, path, k =>
    merkleRoot tag path_len (path.drop 32) (C.branchHash tag (serUint256 k) (path.take 32))

def computeP2MRLeafHash (leaf_version : UInt8) (script : Valtype) : Uint256 :=
  C.leafHash "P2MRLeaf" leaf_version script

def computeTapleafHash (leaf_version : UInt8) (script : Valtype) : Uint256 :=
  C.leafHash "TapLeaf" leaf_version script

/-- `ComputeQbitDataSigPQCHash` -/
def computeQbitDataSigPQCHash (msg_hash : Valtype) : Uint256 :=
  C.taggedHash "QbitDataSigPQC" msg_hash

end Crypto

/-! ## Precomputed data -/

/-- `PrecomputedTransactionData`, without the hashes that only ECDSA signatures use. -/
structure PrecomputedTransactionData where
  m_prevouts_single_hash : Uint256 := 0
  m_sequences_single_hash : Uint256 := 0
  m_outputs_single_hash : Uint256 := 0
  m_spent_amounts_single_hash : Uint256 := 0
  m_spent_scripts_single_hash : Uint256 := 0
  m_bip341_taproot_ready : Bool := false
  m_ctv_script_sigs_single_hash : Uint256 := 0
  m_ctv_has_nonempty_script_sigs : Bool := false
  m_ctv_ready : Bool := false
  m_spent_outputs : List CTxOut := []
  m_spent_outputs_ready : Bool := false

namespace PrecomputedTransactionData

/-- What input `inpos` with a witness uses: the native version 1 or 2 program it spends, if the
spent outputs are known. -/
def nativeVersion (spent_outputs : List CTxOut) (inpos : Nat) : Option Nat :=
  match spent_outputs[inpos]? with
  | none => none
  | some out =>
    match isWitnessProgram out.scriptPubKey.bytes with
    | some (version, program) =>
      if (version = 1 ∨ version = 2) ∧ program.length = 32 then some version else none
    | none => none

/-- The versions, for the inputs that have a witness. -/
def witnessUses (tx : CTransaction) (spent_outputs : List CTxOut) : List (Option Nat) :=
  (tx.vin.zipIdx.filter fun i => !i.1.scriptWitness.isEmpty).map fun i =>
    nativeVersion spent_outputs i.2

/-- `PrecomputedTransactionData::Init` with `force` false, on fresh data. -/
def init (C : Crypto) (tx : CTransaction) (spent_outputs : List CTxOut) :
    Result PrecomputedTransactionData := do
  require (spent_outputs = [] ∨ spent_outputs.length = tx.vin.length)
  let uses := witnessUses tx spent_outputs
  let spent_ready := !spent_outputs.isEmpty
  let uses_bip143_segwit := uses.any (· == none)
  let uses_bip341_taproot := uses.any (· != none)
  let uses_ctv := uses.any (· == some 2)
  let shared := uses_bip143_segwit || uses_bip341_taproot || uses_ctv
  let taproot := uses_bip341_taproot && spent_ready
  let nonempty_script_sigs := tx.vin.any fun i => !i.scriptSig.bytes.isEmpty
  let hashIf (b : Bool) (bs : List UInt8) : Uint256 := if b then C.sha256 bs else 0
  return {
    m_spent_outputs := spent_outputs
    m_spent_outputs_ready := spent_ready
    m_prevouts_single_hash := hashIf shared (tx.vin.flatMap fun i => i.prevout.serialize)
    m_sequences_single_hash := hashIf shared (tx.vin.flatMap fun i => serUint32 i.nSequence)
    m_outputs_single_hash := hashIf shared (tx.vout.flatMap CTxOut.serialize)
    m_spent_amounts_single_hash :=
      hashIf taproot (spent_outputs.flatMap fun o => serInt64 o.nValue)
    m_spent_scripts_single_hash :=
      hashIf taproot (spent_outputs.flatMap fun o => o.scriptPubKey.serialize)
    m_bip341_taproot_ready := taproot
    m_ctv_has_nonempty_script_sigs := uses_ctv && nonempty_script_sigs
    m_ctv_script_sigs_single_hash := hashIf (uses_ctv && nonempty_script_sigs)
      (tx.vin.flatMap fun i => i.scriptSig.serialize)
    m_ctv_ready := uses_ctv }

/-- `PrecomputedTransactionData::Init` with `force` true, on fresh data. -/
def initForced (C : Crypto) (tx : CTransaction)
    (spent_outputs : List CTxOut) : PrecomputedTransactionData :=
  let spent_ready := !spent_outputs.isEmpty
  let nonempty_script_sigs := tx.vin.any fun i => !i.scriptSig.bytes.isEmpty
  let hashIf (b : Bool) (bs : List UInt8) : Uint256 := if b then C.sha256 bs else 0
  { m_spent_outputs := spent_outputs
    m_spent_outputs_ready := spent_ready
    m_prevouts_single_hash := C.sha256 (tx.vin.flatMap fun i => i.prevout.serialize)
    m_sequences_single_hash := C.sha256 (tx.vin.flatMap fun i => serUint32 i.nSequence)
    m_outputs_single_hash := C.sha256 (tx.vout.flatMap CTxOut.serialize)
    m_spent_amounts_single_hash :=
      hashIf spent_ready (spent_outputs.flatMap fun o => serInt64 o.nValue)
    m_spent_scripts_single_hash :=
      hashIf spent_ready (spent_outputs.flatMap fun o => o.scriptPubKey.serialize)
    m_bip341_taproot_ready := spent_ready
    m_ctv_has_nonempty_script_sigs := nonempty_script_sigs
    m_ctv_script_sigs_single_hash := hashIf nonempty_script_sigs
      (tx.vin.flatMap fun i => i.scriptSig.serialize)
    m_ctv_ready := true }

end PrecomputedTransactionData

/-! ## Signature messages -/

def sighashDefault : UInt8 := 0
def sighashAll : UInt8 := 1
def sighashSingle : UInt8 := 3
def sighashAnyonecanpay : UInt8 := 0x80
def sighashOutputMask : UInt8 := 3
def sighashInputMask : UInt8 := 0x80

/-- The data about the signed input: itself with the output it spends, or only its position. -/
def signedInput (tx_to : CTransaction) (in_pos : Nat) (input_type : UInt8)
    (cache : PrecomputedTransactionData) : Eval (List UInt8) :=
  if input_type = sighashAnyonecanpay then do
    let txin ← Eval.init tx_to.vin[in_pos]?
    let spent ← Eval.init cache.m_spent_outputs[in_pos]?
    return txin.prevout.serialize ++ spent.serialize ++ serUint32 txin.nSequence
  else return leBytes 4 in_pos

/-- The data about the signed output, if only one is signed; its hash is kept in the execution
data.  `none` is the answer false: there is no such output. -/
def signedOutput (C : Crypto) (execdata : ScriptExecutionData) (tx_to : CTransaction)
    (in_pos : Nat) (output_type : UInt8) : Option (ScriptExecutionData × List UInt8) :=
  if output_type = sighashSingle then
    match tx_to.vout[in_pos]? with
    | none => none
    | some txout =>
      let output_hash := execdata.m_output_hash.getD (C.sha256 txout.serialize)
      some ({ execdata with m_output_hash := some output_hash }, serUint256 output_hash)
  else some (execdata, [])

/-- The leaf, the key version and the position of the last code separator, which only scripts
have. -/
def signedLeaf (sigversion : SigVersion) (execdata : ScriptExecutionData) : Eval (List UInt8) :=
  if sigversion = .tapscript ∨ sigversion = .p2mr then do
    let tapleaf_hash ← Eval.init execdata.m_tapleaf_hash
    let codeseparator_pos ← Eval.init execdata.m_codeseparator_pos
    return serUint256 tapleaf_hash ++ [0] ++ serUint32 codeseparator_pos
  else return []

/-- The transaction-level data. -/
def signedTransaction (tx_to : CTransaction) (input_type output_type : UInt8)
    (cache : PrecomputedTransactionData) : List UInt8 :=
  serUint32 tx_to.version ++ serUint32 tx_to.nLockTime ++
    (if input_type ≠ sighashAnyonecanpay then
      serUint256 cache.m_prevouts_single_hash ++ serUint256 cache.m_spent_amounts_single_hash ++
        serUint256 cache.m_spent_scripts_single_hash ++ serUint256 cache.m_sequences_single_hash
    else []) ++
    (if output_type = sighashAll then serUint256 cache.m_outputs_single_hash else [])

/-- `SignatureHashSchnorrCommon` with missing data asserted to be there: the hash and the execution
data.  `none` is the answer false. -/
def signatureHashSchnorrCommon (C : Crypto) (execdata : ScriptExecutionData) (tx_to : CTransaction)
    (in_pos : Nat) (hash_type : UInt8) (sigversion : SigVersion)
    (cache : PrecomputedTransactionData) (tag : String) :
    Eval (Option (Uint256 × ScriptExecutionData)) := do
  Eval.require (sigversion ≠ .base ∧ sigversion ≠ .witnessV0)
  Eval.require (in_pos < tx_to.vin.length)
  Eval.require (cache.m_bip341_taproot_ready ∧ cache.m_spent_outputs_ready)
  let ext_flag : UInt8 := if sigversion = .taproot then 0 else 1
  let output_type := if hash_type = sighashDefault then sighashAll
    else hash_type &&& sighashOutputMask
  let input_type := hash_type &&& sighashInputMask
  if ¬ (hash_type ≤ 0x03 ∨ (0x81 ≤ hash_type ∧ hash_type ≤ 0x83)) then return none
  else
    let annex ← Eval.init execdata.m_annex
    let spend_type := ext_flag * 2 + (if annex.isSome then 1 else 0)
    let input ← signedInput tx_to in_pos input_type cache
    match signedOutput C execdata tx_to in_pos output_type with
    | none => return none
    | some (execdata, output) =>
      let leaf ← signedLeaf sigversion execdata
      return some (C.taggedHash tag ([0, hash_type] ++
        signedTransaction tx_to input_type output_type cache ++ [spend_type] ++ input ++
        (annex.map serUint256).getD [] ++ output ++ leaf), execdata)

/-- `GetDefaultCheckTemplateVerifyHash` -/
def getDefaultCheckTemplateVerifyHash (C : Crypto) (tx_to : CTransaction) (input_index : Nat)
    (cache : PrecomputedTransactionData) : Uint256 :=
  C.sha256 (serUint32 tx_to.version ++ serUint32 tx_to.nLockTime ++
    (if cache.m_ctv_has_nonempty_script_sigs then serUint256 cache.m_ctv_script_sigs_single_hash
      else []) ++
    leBytes 4 tx_to.vin.length ++ serUint256 cache.m_sequences_single_hash ++
    leBytes 4 tx_to.vout.length ++ serUint256 cache.m_outputs_single_hash ++
    leBytes 4 input_index)

/-! ## Checkers -/

/-- `BaseSignatureChecker`: the questions that the interpreter asks about the transaction.  A check
that fails the script is an error; the signature checks that may change the execution data return
it. -/
structure BaseSignatureChecker where
  checkECDSASignature : Valtype → Valtype → List UInt8 → SigVersion → Bool
  checkSchnorrSignature : Valtype → Valtype → SigVersion → ScriptExecutionData →
    Eval ScriptExecutionData
  /-- The execution data, and the PQC verifications that were made. -/
  checkPQCSignature : Valtype → Valtype → SigVersion → ScriptExecutionData →
    Eval (ScriptExecutionData × List PQCVerification)
  checkTemplateVerifyHash : Valtype → Eval Unit
  checkLockTime : Int → Bool
  checkSequence : Int → Bool

/-- A signature is followed by its hash type, unless it has the default one. -/
def splitHashtype (sig : Valtype) (size : Nat) (badHashtype : ScriptError) :
    Eval (Valtype × UInt8) :=
  match sig.drop size with
  | [] => .ok (sig, sighashDefault)
  | hashtype :: _ =>
    if hashtype = sighashDefault then setError badHashtype else .ok (sig.take size, hashtype)

namespace TransactionSignatureChecker

variable (C : Crypto) (txTo : CTransaction) (nIn : Nat) (txdata : PrecomputedTransactionData)

/-- `GenericTransactionSignatureChecker::CheckSchnorrSignature` -/
def checkSchnorrSignature (sig pubkey : Valtype) (sigversion : SigVersion)
    (execdata : ScriptExecutionData) : Eval ScriptExecutionData := do
  Eval.require (sigversion = .taproot ∨ sigversion = .tapscript)
  Eval.require (pubkey.length = 32)
  if sig.length ≠ 64 ∧ sig.length ≠ 65 then setError .schnorrSigSize
  else
    let (sig, hashtype) ← splitHashtype sig 64 .schnorrSigHashtype
    match ← signatureHashSchnorrCommon C execdata txTo nIn hashtype sigversion txdata
      "TapSighash" with
    | none => setError .schnorrSigHashtype
    | some (sighash, execdata) =>
      if C.verifySchnorr pubkey sighash sig then return execdata else setError .schnorrSig

/-- `GenericTransactionSignatureChecker::CheckPQCSignature`, with the one verification it makes. -/
def checkPQCSignature (sig pubkey : Valtype) (sigversion : SigVersion)
    (execdata : ScriptExecutionData) : Eval (ScriptExecutionData × List PQCVerification) := do
  Eval.require (sigversion = .p2mr)
  Eval.require (pubkey.length = pqcPubkeySize)
  if sig.length ≠ pqcSigSize ∧ sig.length ≠ pqcSigSize + 1 then setError .p2mrSigSize
  else
    let (sig, hashtype) ← splitHashtype sig pqcSigSize .p2mrSigHashtype
    match ← signatureHashSchnorrCommon C execdata txTo nIn hashtype .p2mr txdata
      "P2MRSighash" with
    | none => setError .p2mrSigHashtype
    | some (sighash, execdata) =>
      let call : PQCVerification := { pubkey, hash := sighash, sig }
      if C.verifyPQC call then return (execdata, [call]) else setError .p2mrSig

/-- `GenericTransactionSignatureChecker::CheckTemplateVerifyHash` -/
def checkTemplateVerifyHash (expected : Valtype) : Eval Unit := do
  Eval.require (expected.length = 32)
  Eval.require (txdata.m_ctv_ready ∧ nIn < txTo.vin.length)
  if expected = serUint256 (getDefaultCheckTemplateVerifyHash C txTo nIn txdata) then return ()
  else setError .templateMismatch

/-- `GenericTransactionSignatureChecker::CheckLockTime` -/
def checkLockTime (nLockTime : Int) : Bool :=
  let txLockTime : Int := txTo.nLockTime.toNat
  ((txLockTime < locktimeThreshold && nLockTime < locktimeThreshold) ||
    (txLockTime ≥ locktimeThreshold && nLockTime ≥ locktimeThreshold)) &&
    nLockTime ≤ txLockTime &&
    (txTo.vin[nIn]?).all (·.nSequence != 0xffffffff)

/-- `GenericTransactionSignatureChecker::CheckSequence`; the operand is not negative. -/
def checkSequence (nSequence : Int) : Bool :=
  match txTo.vin[nIn]? with
  | none => false
  | some txin =>
    let nLockTimeMask := sequenceLocktimeTypeFlag ||| sequenceLocktimeMask
    let txToSequenceMasked := txin.nSequence.toNat &&& nLockTimeMask
    let nSequenceMasked := nSequence.toNat &&& nLockTimeMask
    txTo.version.toNat ≥ 2 && txin.nSequence.toNat &&& sequenceLocktimeDisableFlag == 0 &&
      ((txToSequenceMasked < sequenceLocktimeTypeFlag &&
          nSequenceMasked < sequenceLocktimeTypeFlag) ||
        (txToSequenceMasked ≥ sequenceLocktimeTypeFlag &&
          nSequenceMasked ≥ sequenceLocktimeTypeFlag)) &&
      nSequenceMasked ≤ txToSequenceMasked

end TransactionSignatureChecker

open TransactionSignatureChecker in
/-- `GenericTransactionSignatureChecker` on input `nIn` of `txTo`, which spends `amount`. -/
def transactionSignatureChecker (C : Crypto) (txTo : CTransaction) (nIn : Nat) (amount : CAmount)
    (txdata : PrecomputedTransactionData) : BaseSignatureChecker where
  checkECDSASignature := C.checkECDSASignature txTo nIn amount
  checkSchnorrSignature := checkSchnorrSignature C txTo nIn txdata
  checkPQCSignature := checkPQCSignature C txTo nIn txdata
  checkTemplateVerifyHash := checkTemplateVerifyHash C txTo nIn txdata
  checkLockTime := checkLockTime txTo nIn
  checkSequence := checkSequence txTo nIn

end Qbit
