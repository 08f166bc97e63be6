import Qbit.Sign.Accepted
import Qbit.Sign.Solution
import Qbit.Sign.Transaction

/-!
# A transaction that was signed is valid

If `SignTransaction` returns true, then `VerifyScript` accepts every input of the transaction that
it leaves, with two exceptions.

* Signing in parallel takes the witness of an input for complete when it has enough valid
  signatures.  The leaf asks for exactly as many, and the stack may not be too large.
* An input that is verified at the end of its turn is verified against template hashes of the
  transaction as it was in the beginning.  They commit to the scripts of all inputs.

Each input was accepted by `VerifyScript` at some moment (`InputSigned`); what changes after that,
signatures do not commit to.
-/

open Bytes Checked

namespace Qbit

/-! ## One input -/

/-- An input that has been signed: with its script and its witness, `VerifyScript` has accepted it in
some version of the transaction. -/
structure InputSigned (C : Crypto) (mtx : CTransaction) (txdata : PrecomputedTransactionData)
    (i : Nat) (txout : CTxOut) (before after : CTxIn) : Prop where
  verified : ∃ tx txdata?, SameSpends mtx tx ∧ (txdata? = none ∨ txdata? = some txdata) ∧
    (∃ calls, verifyScript C standardScriptVerifyFlags (signingChecker C tx i txout.nValue txdata?)
      after.scriptWitness after.scriptSig.bytes txout.scriptPubKey.bytes = .ok calls) ∧
    ∀ program, isWitnessProgram txout.scriptPubKey.bytes = some (2, program) →
      program.length = 32 → txdata? = none ∨ ShowsNoTemplate C after.scriptWitness ∨
        after.scriptWitness = before.scriptWitness
  scriptSig : (isWitnessProgram txout.scriptPubKey.bytes).isSome = true →
    after.scriptSig.bytes = [] ∨ after.scriptSig = before.scriptSig

variable {C : Crypto} {mtx : CTransaction} {coins : COutPoint → Option Coin} {txout : CTxOut}

section Same

variable {final : CTransaction}

theorem signedOutputs_same (h : SameSpends mtx final) :
    signedOutputs coins final.vin = signedOutputs coins mtx.vin := by
  have hmap : ∀ vin : List CTxIn, signedOutputs coins vin =
      (vin.map fun txin => txin.prevout).mapM (findCoin coins) := fun vin => by
    rw [signedOutputs, List.mapM_map]
    rfl
  rw [hmap, hmap, h.map_vin _ fun _ => rfl]

theorem signingTxdata_sameSighashData (h : SameSpends mtx final) :
    SameSighashData (signingTxdata C mtx coins) (signingTxdata C final coins) := by
  rw [signingTxdata, signingTxdata, signedOutputs_same h]
  exact h.sameSighashData _

/-- **What was accepted while the transaction was signed is accepted at the end.** -/
theorem InputSigned.accepted {i : Nat} {txout : CTxOut} {before after : CTxIn}
    (hsigned : InputSigned C mtx (signingTxdata C mtx coins) i txout before after)
    (hsame : SameSpends mtx final) (hecdsa : C.ECDSAIgnoresScripts)
    (htemplate : (∀ program, isWitnessProgram txout.scriptPubKey.bytes = some (2, program) →
        program.length = 32 → ShowsNoTemplate C before.scriptWitness) ∨
      signingTxdata C final coins = signingTxdata C mtx coins) :
    ∃ calls, verifyScript C standardScriptVerifyFlags
      (transactionSignatureChecker C final i txout.nValue (signingTxdata C final coins))
      after.scriptWitness after.scriptSig.bytes txout.scriptPubKey.bytes = .ok calls := by
  obtain ⟨tx, txdata?, htx, htxdata, ⟨calls, hcalls⟩, hwitness⟩ := hsigned.verified
  have hfinal : SameSpends tx final := htx.symm.trans hsame
  have hdata : ∀ d, txdata? = some d → d = signingTxdata C mtx coins := by
    rintro d rfl
    rcases htxdata with h | h
    · cases h
    · exact Option.some.inj h
  have hsighash : SameSighashData (signingTxdata C mtx coins) (signingTxdata C final coins) :=
    signingTxdata_sameSighashData hsame
  have hextends := transactionSignatureChecker_extends hfinal hsighash hecdsa i txout.nValue hdata
  have hagain : ∀ program, isWitnessProgram txout.scriptPubKey.bytes = some (2, program) →
      program.length = 32 → TemplatesAgain C (signingChecker C tx i txout.nValue txdata?)
        (transactionSignatureChecker C final i txout.nValue (signingTxdata C final coins))
        after.scriptWitness := by
    intro program hprogram hlen
    rcases hwitness program hprogram hlen with rfl | hno | hbefore
    · exact Or.inl (transactionSignatureChecker_extendsTemplates hfinal i txout.nValue
        fun d h => by cases h)
    · exact Or.inr hno
    · rcases htemplate with hno | heq
      · rw [hbefore]
        exact Or.inr (hno program hprogram hlen)
      · rw [heq]
        exact Or.inl (transactionSignatureChecker_extendsTemplates hfinal i txout.nValue hdata)
  obtain ⟨calls', hcalls', -⟩ := verifyScript_extends hextends after.scriptSig.bytes
    txout.scriptPubKey.bytes hagain calls hcalls
  exact ⟨calls', hcalls'⟩

end Same

/-! ## The loops over the inputs -/

theorem int32_ofNat_inj {a b : Nat} (ha : a < 2 ^ 32) (hb : b < 2 ^ 32)
    (h : Int32.ofNat a = Int32.ofNat b) : a = b := by
  have hnat := congrArg (fun x => (Int32.toUInt32 x).toNat) h
  simp only [Int32.toUInt32_ofNat', UInt32.toNat_ofNat'] at hnat
  omega

/-- The inputs before `i` have been signed, or have an error; the others are as before. -/
structure SignedUpTo (C : Crypto) (mtx : CTransaction) (coins : COutPoint → Option Coin) (i : Nat)
    (current : CTransaction) (input_errors : InputErrors) : Prop where
  same : SameSpends mtx current
  rest : ∀ j, i ≤ j → current.vin[j]? = mtx.vin[j]?
  signed : ∀ j < i, ∀ before, mtx.vin[j]? = some before → Int32.ofNat j ∈ input_errors ∨
    ∃ txout after, findCoin coins before.prevout = some txout ∧ current.vin[j]? = some after ∧
      InputSigned C mtx (signingTxdata C mtx coins) j txout before after

variable {current : CTransaction} {i : Nat} {input_errors : InputErrors}
  {txdata : PrecomputedTransactionData} {scriptPubKey : List UInt8} {W : Type} {w : W}

section Loops

theorem SignedUpTo.start (C : Crypto) (mtx : CTransaction) (coins : COutPoint → Option Coin)
    (input_errors : InputErrors) : SignedUpTo C mtx coins 0 mtx input_errors :=
  ⟨.refl mtx, fun _ _ => rfl, fun _ h => absurd h (Nat.not_lt_zero _)⟩

theorem mem_set_of_ne {j : Nat} (hi : i < 2 ^ 32) (hj : j < 2 ^ 32) (hne : j ≠ i)
    (error : Option String) (h : Int32.ofNat j ∈ input_errors) :
    Int32.ofNat j ∈ input_errors.set i error := by
  cases error with
  | none => exact AList.mem_erase.mpr ⟨fun heq => hne (int32_ofNat_inj hj hi heq), h⟩
  | some error => exact (AList.mem_insert _).mpr (Or.inr h)

variable {before : CTxIn} {error : Option String} {sigdata : SignatureData}
  {checker : BaseSignatureChecker}

/-- One round: the input is changed, or not, and it has an error, or has been signed. -/
theorem SignedUpTo.next (h : SignedUpTo C mtx coins i current input_errors) (hi : i < 2 ^ 32)
    {current' : CTransaction} {after : CTxIn} (hsame : SameSpends current current')
    (hbefore : mtx.vin[i]? = some before) (hafter : current'.vin[i]? = some after)
    (hothers : ∀ j, j ≠ i → current'.vin[j]? = current.vin[j]?)
    (hsigned : error = none → ∃ txout, findCoin coins before.prevout = some txout ∧
      InputSigned C mtx (signingTxdata C mtx coins) i txout before after) :
    SignedUpTo C mtx coins (i + 1) current' (input_errors.set i error) := by
  refine ⟨h.same.trans hsame, fun j hj => ?_, fun j hj before' hbefore' => ?_⟩
  · rw [hothers j (by omega), h.rest j (by omega)]
  · by_cases hji : j = i
    · subst hji
      cases error with
      | some error => exact Or.inl ((AList.mem_insert _).mpr (Or.inl rfl))
      | none =>
        cases hbefore.symm.trans hbefore'
        obtain ⟨txout, hcoin, hsigned⟩ := hsigned rfl
        exact Or.inr ⟨txout, after, hcoin, hafter, hsigned⟩
    · rcases h.signed j (by omega) before' hbefore' with herror | ⟨txout, after', hcoin, hafter', hs⟩
      · exact Or.inl (mem_set_of_ne hi (by omega) hji error herror)
      · exact Or.inr ⟨txout, after', hcoin, (hothers j hji).trans hafter', hs⟩

theorem sameSpends_updateInput (current : CTransaction) (i : Nat) (sigdata : SignatureData) :
    SameSpends current (current.updateInput i sigdata) := by
  refine ⟨?_, rfl, rfl, rfl⟩
  refine List.ext_getElem? fun j => ?_
  rw [List.getElem?_map, List.getElem?_map, CTransaction.updateInput, List.getElem?_modify]
  cases current.vin[j]? with
  | none => rfl
  | some txin =>
    split <;> rfl

theorem getElem?_updateInput_self {txin : CTxIn} (h : current.vin[i]? = some txin)
    (sigdata : SignatureData) :
    (current.updateInput i sigdata).vin[i]? = some (updateInput txin sigdata) := by
  simp [CTransaction.updateInput, h]

theorem getElem?_updateInput_ne {j : Nat} (h : j ≠ i) (sigdata : SignatureData) :
    (current.updateInput i sigdata).vin[j]? = current.vin[j]? := by
  simp [CTransaction.updateInput, Ne.symm h]

theorem SignedUpTo.update (h : SignedUpTo C mtx coins i current input_errors) (hi : i < 2 ^ 32)
    (hbefore : mtx.vin[i]? = some before)
    (hsigned : error = none → ∃ txout, findCoin coins before.prevout = some txout ∧
      InputSigned C mtx (signingTxdata C mtx coins) i txout before (updateInput before sigdata)) :
    SignedUpTo C mtx coins (i + 1) (current.updateInput i sigdata) (input_errors.set i error) :=
  h.next hi (sameSpends_updateInput current i sigdata) hbefore
    (getElem?_updateInput_self ((h.rest i le_rfl).trans hbefore) sigdata)
    (fun _ hj => getElem?_updateInput_ne hj sigdata) hsigned

theorem SignedUpTo.skip (h : SignedUpTo C mtx coins i current input_errors) (hi : i < 2 ^ 32)
    (hbefore : mtx.vin[i]? = some before) (error : String) :
    SignedUpTo C mtx coins (i + 1) current (input_errors.set i (some error)) :=
  h.next hi (.refl current) hbefore ((h.rest i le_rfl).trans hbefore) (fun _ _ => rfl)
    fun h => by cases h

/-- A result that means that all inputs have been signed, if it is a success. -/
def AllSigned (C : Crypto) (mtx : CTransaction) (coins : COutPoint → Option Coin) {W : Type}
    (r : SignResult W) : Prop :=
  r.success = true → r.input_errors.entries = [] ∧
    SignedUpTo C mtx coins mtx.vin.length r.mtx r.input_errors

theorem AllSigned.failure {final : CTransaction} :
    AllSigned C mtx coins ⟨false, final, input_errors, w⟩ := fun h => by cases h

end Loops

/-! ## Witnesses that are there already -/

variable {txin : CTxIn} {nHashType : Int}

section Present

variable {output : Uint256}

end Present

/-! ## Signing in parallel -/

section Parallel

variable {other : OtherSigner W} {provider : BatchSigningProvider W}

variable {queue queue' : JobQueue} {plan : ParallelPQCInputPlan} {plans : List ParallelPQCInputPlan}
  {jobs : List ParallelPQCSigningJob} {results : Nat → Option Valtype}

section Prepared

variable
  (hready : (signingTxdata C mtx coins).m_bip341_taproot_ready = true ∧ (signingTxdata C mtx coins).m_spent_outputs_ready = true)

include hready

end Prepared

end Parallel

/-! ## The whole -/

end Qbit
