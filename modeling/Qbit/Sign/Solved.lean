import Qbit.Sign.LeafSigning
import Qbit.Sign.Parallel

/-!
# A solution is valid

`SignP2MR` works on data that may come from anywhere: scripts, control blocks and signatures of a
PSBT.  It looks at all of it before it uses it, so if it returns a witness, then the witness is
accepted (`signP2MR_accepted`).

A signature that was there is checked when it is taken.  This needs the data that signatures commit
to; without it the check is skipped.  A leaf with repeated keys is signed once for each key, and the
signature is taken again at the other positions.
-/

open Bytes Checked

namespace Qbit

section Solved

variable {C : Crypto} {W : Type} {provider : SigningProvider W}
  {creator : MutableTransactionSignatureCreator} {data : PrecomputedTransactionData}

/-- What a creator of signatures has to know and a provider to do: the data that signatures commit to
is there, the hash type is a byte, and the signatures that are made are correct. -/
structure SignsValidly (C : Crypto) {W : Type} (provider : SigningProvider W)
    (creator : MutableTransactionSignatureCreator) (data : PrecomputedTransactionData) : Prop where
  data_eq : creator.m_txdata = some data
  ready : data.m_bip341_taproot_ready = true ∧ data.m_spent_outputs_ready = true
  hashType : creator.nHashType ≠ 0 → UInt8.ofInt creator.nHashType ≠ sighashDefault
  correct : provider.SignsCorrectly C

variable (h : SignsValidly C provider creator data)

include h

theorem SignsValidly.createP2MRScriptSig {sigdata sigdata' : SignatureData} {pubkey : CPQCPubKey}
    {leaf_hash : Uint256} {w w' : W} {sig : Valtype}
    (hsig : Qbit.createP2MRScriptSig C provider creator sigdata pubkey leaf_hash w =
      (some sig, sigdata', w')) :
    (getP2MRSignatureHashType sig).isSome = true ∧
      ValidP2MRSignature C creator.m_txto creator.nIn data leaf_hash sig (serUint256 pubkey) := by
  rw [Qbit.createP2MRScriptSig] at hsig
  split at hsig
  next cached_sig _ hlookup =>
    cases hsig
    rw [lookupValidP2MRScriptSig] at hlookup
    split at hlookup
    · cases hlookup
    split at hlookup
    next hvalid =>
      cases hlookup
      rw [Bool.and_eq_true] at hvalid
      exact ⟨hvalid.1, validP2MRSignature_of_verify h.data_eq h.ready hvalid.2⟩
    · cases hlookup
  · cases hsig
  · split at hsig
    next hcreate =>
      cases hsig
      exact (h.correct.createPQCSignature h.data_eq h.hashType hcreate).2
    · cases hsig

/-- **The elements that signing makes**: each is empty or a valid signature of its key, and there are
not more signatures than are asked for. -/
theorem SignsValidly.signP2MRKeys (leaf_hash : Uint256) (threshold : Nat)
    (keys : List (CPQCPubKey × Bool)) (num_signed : Nat) (hle : num_signed ≤ threshold)
    (sigdata : SignatureData) (w : W) :
    let r := (Qbit.signP2MRKeys C provider creator leaf_hash threshold keys num_signed sigdata w).1
    List.Forall₂ (SignedItem C creator.m_txto creator.nIn data leaf_hash) (keys.map Prod.fst) r.1 ∧
      r.2 = num_signed + signatureCount r.1 ∧ r.2 ≤ threshold := by
  induction keys generalizing num_signed sigdata w with
  | nil => exact ⟨.nil, rfl, hle⟩
  | cons key keys ih =>
    rw [Qbit.signP2MRKeys]
    split
    · obtain ⟨hitems, hcount, hmax⟩ := ih num_signed hle sigdata w
      refine ⟨.cons (Or.inl rfl) hitems, ?_, hmax⟩
      exact hcount
    next hsigns =>
    have hlt : num_signed < threshold := by
      by_contra hge
      exact hsigns (by simp [not_lt.mp hge])
    split
    next sig sigdata' w' hsig =>
      have hvalid := h.createP2MRScriptSig hsig
      have hne : sig ≠ [] := by
        rintro rfl
        cases hvalid.1
      obtain ⟨hitems, hcount, hmax⟩ := ih (num_signed + 1) hlt sigdata' w'
      refine ⟨.cons (Or.inr hvalid) hitems, ?_, hmax⟩
      rw [signatureCount_cons, if_neg hne, ← Nat.add_assoc]
      exact hcount
    next sigdata' w' hsig =>
      obtain ⟨hitems, hcount, hmax⟩ := ih num_signed hle sigdata' w'
      refine ⟨.cons (Or.inl rfl) hitems, ?_, hmax⟩
      exact hcount

/-- A plan that is carried out with enough signatures: the elements are in the reverse order of the
keys. -/
theorem SignsValidly.signP2MRScript {plan : P2MRScriptSigningPlan}
    (hcandidates : plan.candidate_pubkeys.length = plan.pubkeys.length) {sigdata : SignatureData}
    {w : W}
    (henough : plan.threshold ≤ (Qbit.signP2MRScript C provider creator plan sigdata w).1.2) :
    ∃ items, (Qbit.signP2MRScript C provider creator plan sigdata w).1.1 = items.reverse ∧
      List.Forall₂ (SignedItem C creator.m_txto creator.nIn data plan.leaf_hash) plan.pubkeys items ∧
      signatureCount items = plan.threshold := by
  obtain ⟨hitems, hcount, hmax⟩ :=
    h.signP2MRKeys plan.leaf_hash plan.threshold plan.signers 0 (Nat.zero_le _) sigdata w
  have hkeys : plan.signers.map Prod.fst = plan.pubkeys.reverse := by
    simp [P2MRScriptSigningPlan.signers, List.map_fst_zip hcandidates.ge]
  rw [hkeys] at hitems
  rw [Qbit.signP2MRScript] at henough ⊢
  refine ⟨_, (List.reverse_reverse _).symm, ?_, ?_⟩
  · have hreverse := List.forall₂_reverse_iff.mpr hitems
    rwa [List.reverse_reverse] at hreverse
  · rw [signatureCount, List.countP_reverse, ← signatureCount]
    omega

/-- **A solution is valid.**  If `SignP2MR` returns a witness, whatever the scripts, control blocks
and signatures it was given, then the output accepts the witness under the flags of policy.  So does
`VerifyScript`, unless the output's program reads as false. -/
theorem SignsValidly.signP2MR_accepted {output : Uint256} {sigdata : SignatureData} {w : W}
    {result : List Valtype}
    (hresult : (Qbit.signP2MR C provider creator output sigdata w).1 = some result) :
    (∃ calls, verifyWitnessProgram C standardScriptVerifyFlags (creator.checker C) result 2
      (serUint256 output) false = .ok calls) ∧
      (castToBool (serUint256 output) = true →
        ∃ calls, verifyScript C standardScriptVerifyFlags (creator.checker C) result []
          (p2mrScript (serUint256 output)) = .ok calls) := by
  obtain ⟨plan, ⟨leaves, sigdata₁, hmem⟩, sigdata₂, w₂, henough, rfl⟩ := of_signP2MR hresult
  obtain ⟨sigdata₀, hplan, hcontrol⟩ := of_mem_buildPlans hmem
  obtain ⟨-, -, -, -, hleaf, hcandidates, -⟩ := of_estimatePlan hplan.estimate
  have hlength : plan.candidate_pubkeys.length = plan.pubkeys.length := by
    rw [hcandidates, List.length_map]
  obtain ⟨items, hitems, hsigned, hcount⟩ := h.signP2MRScript hlength henough
  rw [hleaf] at hsigned
  rw [hitems, verifyWitnessProgram_p2mr _ _ _ _ (length_serUint256 output)]
  have hchecker := checkPQCSignature_of_ready (C := C) h.data_eq h.ready
  exact ⟨verifyP2MR_of_control hchecker hplan.parse hcontrol hsigned hcount hplan.standard,
    verifyScript_of_control hchecker hplan.parse hcontrol hsigned hcount hplan.standard⟩

end Solved

/-! ## One signature of two -/

theorem signsCorrectly_oneKeyProvider {key : UInt8} (hkey : key = 1 ∨ key = 2) :
    (oneKeyProvider key).SignsCorrectly oneOfTwoCrypto := by
  intro pubkey hash w sig w' h
  obtain ⟨hsig, -⟩ := Prod.mk.inj h
  split at hsig
  next hsigned =>
    obtain ⟨rfl, rfl⟩ := hsigned
    cases hsig
    obtain rfl | rfl := hkey <;> exact ⟨by decide +kernel, by decide +kernel⟩
  · cases hsig

/-- The second key signs, and the witness is accepted. -/
theorem signP2MR_accepted_oneKey :
    ∃ result, (signP2MR oneOfTwoCrypto (oneKeyProvider 2)
        (defaultCreator (oneOfTwoTx []) 0 1000 oneOfTwoTxdata) oneOfTwoLeafHash
        { p2mr_spenddata := leafSpendData oneOfTwoScript } ()).1 = some result ∧
      ∃ calls, verifyWitnessProgram oneOfTwoCrypto standardScriptVerifyFlags
        ((defaultCreator (oneOfTwoTx []) 0 1000 oneOfTwoTxdata).checker oneOfTwoCrypto) result 2
        (serUint256 oneOfTwoLeafHash) false = .ok calls := by
  have hsome : (signP2MR oneOfTwoCrypto (oneKeyProvider 2)
      (defaultCreator (oneOfTwoTx []) 0 1000 oneOfTwoTxdata) oneOfTwoLeafHash
      { p2mr_spenddata := leafSpendData oneOfTwoScript } ()).1.isSome = true := by decide +kernel
  obtain ⟨result, hresult⟩ := Option.isSome_iff_exists.mp hsome
  have hsigns : SignsValidly oneOfTwoCrypto (oneKeyProvider 2)
      (defaultCreator (oneOfTwoTx []) 0 1000 oneOfTwoTxdata) oneOfTwoTxdata :=
    ⟨rfl, by decide +kernel, fun h => absurd rfl h, signsCorrectly_oneKeyProvider (Or.inr rfl)⟩
  exact ⟨result, hresult, (hsigns.signP2MR_accepted hresult).1⟩

/-- Signature data with something as long as a signature of the first key. -/
def forgedSigdata : SignatureData where
  p2mr_spenddata := leafSpendData oneOfTwoScript
  p2mr_script_sigs := AList.singleton (1, oneOfTwoLeafHash) (oneOfTwoSignature 9)

/-- A creator without the data that signatures commit to takes it, and the witness is not
accepted. -/
theorem signP2MR_accepted_unchecked :
    (oneKeyProvider 2).SignsCorrectly oneOfTwoCrypto ∧
      ∃ result, (signP2MR oneOfTwoCrypto (oneKeyProvider 2)
          ⟨oneOfTwoTx [], 0, 1000, none, 0⟩ oneOfTwoLeafHash forgedSigdata ()).1 = some result ∧
        ∀ calls, verifyWitnessProgram oneOfTwoCrypto standardScriptVerifyFlags
          (MutableTransactionSignatureCreator.checker oneOfTwoCrypto
            ⟨oneOfTwoTx [], 0, 1000, none, 0⟩) result 2 (serUint256 oneOfTwoLeafHash) false ≠
              .ok calls := by
  refine ⟨signsCorrectly_oneKeyProvider (Or.inr rfl),
    [[], oneOfTwoSignature 9, oneOfTwoScript, [0xc1]], by decide +kernel, fun calls hcalls => ?_⟩
  have hrejected : (verifyWitnessProgram oneOfTwoCrypto standardScriptVerifyFlags
      (MutableTransactionSignatureCreator.checker oneOfTwoCrypto ⟨oneOfTwoTx [], 0, 1000, none, 0⟩)
      [[], oneOfTwoSignature 9, oneOfTwoScript, [0xc1]] 2 (serUint256 oneOfTwoLeafHash)
      false).toOption.isNone = true := by decide +kernel
  rw [hcalls] at hrejected
  cases hrejected

end Qbit
