import Qbit.Sign.Produce

/-!
# Partially signed transactions

An input of a PSBT, as `psbt.cpp` signs, merges and finalizes it.  The fields for outputs other than
P2MR outputs are left out, and so is what no function reads, such as the root of the output's tree.
The data that signatures commit to are precomputed by the caller.
-/

open Bytes

namespace Qbit

/-- `PSBTError`, as far as `SignPSBTInput` returns it. -/
inductive PSBTError where
  | MISSING_INPUTS
  | SIGHASH_MISMATCH
  | INCOMPLETE
  | INVALID_P2MR_SIGNATURE
  | OK
  deriving DecidableEq

/-- `PSBTInput` -/
structure PSBTInput where
  non_witness_utxo : Option CTransaction := none
  witness_utxo : CTxOut := { nValue := -1 }
  final_script_sig : CScript := .empty
  final_script_witness : List Valtype := []
  m_qbit_p2mr_script_sigs : AList fun _ : CPQCPubKey × Uint256 => Valtype := ∅
  /-- The scripts of the output's leaves with their control blocks. -/
  m_qbit_p2mr_scripts : P2MRSpendData := {}
  sighash_type : Option Int := none

namespace PSBTInput

/-- `FillSignatureData`, on fresh data. -/
def fillSignatureData (input : PSBTInput) : SignatureData :=
  if !input.final_script_sig.bytes.isEmpty || !input.final_script_witness.isEmpty then
    { scriptSig := input.final_script_sig
      scriptWitness := input.final_script_witness
      complete := true }
  else
    { p2mr_script_sigs := input.m_qbit_p2mr_script_sigs
      p2mr_spenddata := input.m_qbit_p2mr_scripts }

/-- `FromSignatureData` -/
def fromSignatureData (input : PSBTInput) (sigdata : SignatureData) : PSBTInput :=
  if sigdata.complete then
    { input with
      final_script_sig :=
        if sigdata.scriptSig.bytes.isEmpty then input.final_script_sig else sigdata.scriptSig
      final_script_witness :=
        if sigdata.scriptWitness.isEmpty then input.final_script_witness
        else sigdata.scriptWitness }
  else
    let spenddata := match sigdata.p2mr_builder with
      | none => sigdata.p2mr_spenddata
      | some builder => sigdata.p2mr_spenddata.merge builder
    { input with
      m_qbit_p2mr_script_sigs := input.m_qbit_p2mr_script_sigs ∪ sigdata.p2mr_script_sigs
      m_qbit_p2mr_scripts := input.m_qbit_p2mr_scripts.merge spenddata }

/-- `Merge` -/
def merge (a b : PSBTInput) : PSBTInput where
  non_witness_utxo := a.non_witness_utxo.or b.non_witness_utxo
  witness_utxo := if a.witness_utxo.nValue = -1 then b.witness_utxo else a.witness_utxo
  final_script_sig := if a.final_script_sig.bytes.isEmpty then b.final_script_sig
    else a.final_script_sig
  final_script_witness := if a.final_script_witness.isEmpty then b.final_script_witness
    else a.final_script_witness
  m_qbit_p2mr_script_sigs := a.m_qbit_p2mr_script_sigs ∪ b.m_qbit_p2mr_script_sigs
  m_qbit_p2mr_scripts := a.m_qbit_p2mr_scripts.merge b.m_qbit_p2mr_scripts
  sighash_type := a.sighash_type

end PSBTInput

section SignInput

variable (C : Crypto) {W : Type} (other : OtherSigner W) (provider : SigningProvider W)
  (tx : CTransaction) (index : Nat) (txdata : PrecomputedTransactionData)

/-- The output that the input spends, and whether only the witness UTXO says so.  A transaction that is
given for it has to be the one that the input names. -/
def PSBTInput.utxo (input : PSBTInput) : Option (CTxOut × Bool) :=
  match input.non_witness_utxo with
  | some prev =>
    match tx.vin[index]? with
    | none => none
    | some txin =>
      if prev.getHash C.hash256 = txin.prevout.hash then
        (prev.vout[txin.prevout.n.toNat]?).map fun txout => (txout, false)
      else none
  | none =>
    if input.witness_utxo.nValue = -1 then none else some (input.witness_utxo, true)

/-- `PSBTInputSignedAndVerified` -/
def psbtInputSignedAndVerified (input : PSBTInput) : Bool :=
  match input.utxo C tx index with
  | none => false
  | some (utxo, _) =>
    (verifyScript C standardScriptVerifyFlags (signingChecker C tx index utxo.nValue (some txdata))
      input.final_script_witness input.final_script_sig.bytes utxo.scriptPubKey.bytes).isOk

/-- An input that is signed with `SIGHASH_DEFAULT` unless something else is asked for. -/
def isDefaultSighashInput (scriptPubKey : List UInt8) : Bool :=
  match isWitnessProgram scriptPubKey with
  | some (version, program) => decide ((version = 1 ∨ version = 2) ∧ program.length = 32)
  | none => false

/-- The end of `SignPSBTInput`. -/
def finishPSBTInput (finalize : Bool) (input : PSBTInput) (utxo : CTxOut) (require_witness_sig : Bool)
    (sigdata : SignatureData) : PSBTError × PSBTInput :=
  if sigdata.invalid_p2mr_sigs ≠ [] then (.INVALID_P2MR_SIGNATURE, input)
  else if require_witness_sig && !sigdata.witness then (.INCOMPLETE, input)
  else
    let input := input.fromSignatureData
      { sigdata with complete := sigdata.complete && finalize }
    let input := if sigdata.witness then { input with witness_utxo := utxo } else input
    (if sigdata.complete then .OK else .INCOMPLETE, input)

/-- `SignPSBTInput`: the result, and the input. -/
def signPSBTInput (input : PSBTInput) (sighash : Option Int) (finalize : Bool) (w : W) :
    (PSBTError × PSBTInput) × W :=
  if psbtInputSignedAndVerified C tx index txdata input then ((.OK, input), w)
  else match input.utxo C tx index with
  | none => ((.MISSING_INPUTS, input), w)
  | some (utxo, require_witness_sig) =>
    let default_sighash_input := isDefaultSighashInput utxo.scriptPubKey.bytes
    let sighash := sighash.getD (if default_sighash_input then 0 else 1)
    if input.sighash_type.any (· != sighash) then ((.SIGHASH_MISMATCH, input), w)
    else
      let input := if sighash ≠ 0 ∧ (default_sighash_input = true ∨ sighash ≠ 1) then
          { input with sighash_type := some sighash }
        else input
      if input.m_qbit_p2mr_script_sigs.entries.any fun entry =>
          (getP2MRSignatureHashType entry.2).map (fun hashtype => (hashtype.toNat : Int)) !=
            some sighash then
        ((.SIGHASH_MISMATCH, input), w)
      else
        let (sigdata, w) := produceSignature C other provider
          ⟨tx, index, utxo.nValue, some txdata, sighash⟩ utxo.scriptPubKey.bytes
          { input.fillSignatureData with witness := false } w
        (finishPSBTInput finalize input utxo require_witness_sig sigdata, w)

end SignInput

end Qbit
