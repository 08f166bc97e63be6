import Qbit.Sign.Plan

/-!
# Producing the signature of an input

`ProduceSignature`, `DataFromTransaction` and `UpdateInput` of `script/sign.cpp`.  An input counts as
complete when `VerifyScript` accepts what was produced for it, and what `DataFromTransaction` finds
counts as complete when `VerifyScript` accepts it without knowing the spent outputs.

The signing of outputs other than P2MR outputs is not modelled.  It is a parameter, and nothing is
assumed about it.  A native witness program leaves the script of its input empty whatever the signer
does.
-/

open Bytes Checked

namespace Qbit

/-- The signing of other outputs, on the transaction, the position of the input and the output that
it spends: whether a solution was found, and the solution.  It may change the state of the provider
as signing a P2MR output does. -/
structure OtherSigner (W : Type) where
  /-- A native witness program: the witness. -/
  signWitness : MutableTransactionSignatureCreator → List UInt8 → W → (Bool × List Valtype) × W
  /-- Any other script: the script of the input and the witness. -/
  signScript : MutableTransactionSignatureCreator → List UInt8 → W →
    (Bool × CScript × List Valtype) × W

section Produce

variable (C : Crypto) {W : Type} (other : OtherSigner W) (provider : SigningProvider W)
  (creator : MutableTransactionSignatureCreator)

/-- `VerifyScript` on the signature data under the flags of policy. -/
def SignatureData.verifies (checker : BaseSignatureChecker) (scriptPubKey : List UInt8)
    (sigdata : SignatureData) : Bool :=
  (verifyScript C standardScriptVerifyFlags checker sigdata.scriptWitness sigdata.scriptSig.bytes
    scriptPubKey).isOk

/-- The end of `ProduceSignature`: test the solution. -/
def testSolution (solved : Bool) (fromPubKey : List UInt8) (sigdata : SignatureData) :
    SignatureData :=
  { sigdata with complete := solved && sigdata.verifies C (creator.checker C) fromPubKey }

/-- `ProduceSignature`: the signature data, which is complete if a valid signature was produced. -/
def produceSignature (fromPubKey : List UInt8) (sigdata : SignatureData) (w : W) :
    SignatureData × W :=
  if sigdata.complete then (sigdata, w)
  else match isWitnessProgram fromPubKey with
    | some (version, program) =>
      if version = 2 ∧ program.length = witnessV2P2MRSize then
        match signP2MR C provider creator (CPQCPubKey.ofBytes program) sigdata w with
        | (some result, sigdata, w) => (testSolution C creator true fromPubKey
            { sigdata with witness := true, scriptWitness := result, scriptSig := .empty }, w)
        | (none, sigdata, w) => (testSolution C creator false fromPubKey
            { sigdata with witness := true, scriptSig := .empty }, w)
      else
        let ((solved, scriptWitness), w) := other.signWitness creator fromPubKey w
        (testSolution C creator solved fromPubKey
          { sigdata with scriptWitness, scriptSig := .empty }, w)
    | none =>
      let ((solved, scriptSig, scriptWitness), w) := other.signScript creator fromPubKey w
      (testSolution C creator solved fromPubKey { sigdata with scriptWitness, scriptSig }, w)

/-- `DataFromTransaction`, as far as P2MR outputs need it. -/
def dataFromTransaction (tx : CTransaction) (nIn : Nat) (txin : CTxIn) (txout : CTxOut) :
    SignatureData :=
  let data : SignatureData :=
    { scriptSig := txin.scriptSig, scriptWitness := txin.scriptWitness }
  { data with complete :=
      data.verifies C (signingChecker C tx nIn txout.nValue none) txout.scriptPubKey.bytes }

/-- `UpdateInput` -/
def updateInput (txin : CTxIn) (data : SignatureData) : CTxIn :=
  { txin with scriptSig := data.scriptSig, scriptWitness := data.scriptWitness }

end Produce

end Qbit
