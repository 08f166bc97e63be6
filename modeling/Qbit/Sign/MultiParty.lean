import Mathlib.Data.Finset.Card
import Qbit.Sign.Psbt
import Qbit.Sign.Solved

/-!
# Several parties sign one PSBT input

Any number of signers sign copies of an input without finalizing it, and the copies are merged in any
order and grouping.  Whoever finalizes the merged input needs no private keys, and succeeds exactly
if the merged input holds signatures of as many keys as the leaf asks for (`psbt_multiparty`).

A signer adds valid signatures and nothing else (`LeafInput.sign`).  Merging takes the union of the
keys that have signed (`PSBTInput.signedKeys_merge`).
-/

open Bytes Checked

namespace Qbit

/-! ## Inputs -/

/-- An input of the output that is not final, with its leaf and valid signatures for it. -/
structure LeafInput (C : Crypto) (tx : CTransaction) (index : Nat)
    (txdata : PrecomputedTransactionData) (pubkeys : List CPQCPubKey) (script : List UInt8)
    (leaf_hash : Uint256) (utxo : CTxOut) (input : PSBTInput) : Prop where
  utxo : ∃ require_witness_sig, input.utxo C tx index = some (utxo, require_witness_sig)
  final_script_sig : input.final_script_sig.bytes = []
  final_script_witness : input.final_script_witness = []
  scripts : input.m_qbit_p2mr_scripts = leafSpendData script
  sigs : ValidSigs C tx index txdata leaf_hash pubkeys input.m_qbit_p2mr_script_sigs
  sighash : ∀ sighash, input.sighash_type = some sighash → sighash = 0

/-- The keys that have signed. -/
def PSBTInput.signedKeys (input : PSBTInput) : Finset CPQCPubKey :=
  (input.m_qbit_p2mr_script_sigs.keys.map Prod.fst).toFinset

theorem PSBTInput.mem_signedKeys {input : PSBTInput} {pubkey : CPQCPubKey} :
    pubkey ∈ input.signedKeys ↔ ∃ leaf, (pubkey, leaf) ∈ input.m_qbit_p2mr_script_sigs := by
  rw [signedKeys, List.mem_toFinset, List.mem_map]
  constructor
  · rintro ⟨⟨pubkey, leaf⟩, hmem, rfl⟩
    exact ⟨leaf, AList.mem_keys.mp hmem⟩
  · rintro ⟨leaf, hmem⟩
    exact ⟨(pubkey, leaf), AList.mem_keys.mpr hmem, rfl⟩

/-- **Merging takes the union of the keys that have signed.** -/
theorem PSBTInput.signedKeys_merge (a b : PSBTInput) :
    (a.merge b).signedKeys = a.signedKeys ∪ b.signedKeys := by
  ext pubkey
  rw [Finset.mem_union, mem_signedKeys, mem_signedKeys, mem_signedKeys, ← exists_or]
  exact exists_congr fun leaf => AList.mem_union

variable {C : Crypto} {tx : CTransaction} {index : Nat} {txdata : PrecomputedTransactionData}
  {pubkeys : List CPQCPubKey} {threshold : Nat} {script : List UInt8} {leaf_hash : Uint256}
  {utxo : CTxOut} {W : Type} {provider : SigningProvider W} {input : PSBTInput}
  {sighash : Option Int}

/-- The data of either input lead to the same output. -/
theorem LeafInput.merge {a b : PSBTInput}
    (ha : LeafInput C tx index txdata pubkeys script leaf_hash utxo a)
    (hb : LeafInput C tx index txdata pubkeys script leaf_hash utxo b) :
    LeafInput C tx index txdata pubkeys script leaf_hash utxo (a.merge b) := by
  refine ⟨?_, ?_, ?_, ?_, ha.sigs.union hb.sigs, ha.sighash⟩
  · obtain ⟨ra, hua⟩ := ha.utxo
    obtain ⟨rb, hub⟩ := hb.utxo
    rw [PSBTInput.utxo] at hua hub ⊢
    cases hna : a.non_witness_utxo with
    | some prev =>
      rw [hna] at hua
      exact ⟨ra, by rw [PSBTInput.merge, hna]; exact hua⟩
    | none =>
      cases hnb : b.non_witness_utxo with
      | some prev =>
        rw [hnb] at hub
        exact ⟨rb, by rw [PSBTInput.merge, hna, hnb]; exact hub⟩
      | none =>
        rw [hna] at hua
        dsimp only at hua
        split at hua
        · cases hua
        next hvalue =>
          refine ⟨ra, ?_⟩
          simp [PSBTInput.merge, hna, hnb, hvalue, hua]
  · rw [PSBTInput.merge, ha.final_script_sig]
    exact hb.final_script_sig
  · rw [PSBTInput.merge, ha.final_script_witness]
    exact hb.final_script_witness
  · rw [PSBTInput.merge, ha.scripts, hb.scripts]
    exact merge_leafSpendData script

/-- Signing an input comes down to signing the leaf. -/
theorem LeafInput.signPSBTInput_eq
    (h : LeafInput C tx index txdata pubkeys script leaf_hash utxo input)
    (hleaf : MultisigLeaf C pubkeys threshold script leaf_hash) (provider : SigningProvider W)
    (hscript : utxo.scriptPubKey.bytes = p2mrScript (serUint256 leaf_hash)) (other : OtherSigner W)
    (hsighash : sighash.getD 0 = 0) (finalize : Bool) (w : W) :
    ∃ require_witness_sig, input.utxo C tx index = some (utxo, require_witness_sig) ∧
      signPSBTInput C other provider tx index txdata input sighash finalize w =
        let (sigdata, w) := produceSignature C other provider
          (defaultCreator tx index utxo.nValue txdata) utxo.scriptPubKey.bytes
          (leafSigdata script input.m_qbit_p2mr_script_sigs) w
        (finishPSBTInput finalize input utxo require_witness_sig sigdata, w) := by
  obtain ⟨require_witness_sig, hutxo⟩ := h.utxo
  have hlen : (serUint256 leaf_hash).length = 32 := length_serUint256 leaf_hash
  have hverify (checker : BaseSignatureChecker) : (verifyScript C standardScriptVerifyFlags checker []
      [] (p2mrScript (serUint256 leaf_hash))).isOk = false := by
    rw [verifyScript_native_nil C standardScriptVerifyFlags checker [] hlen (by decide) (by decide),
      if_pos hleaf.spendable, verifyP2MR, if_neg (by decide)]
    rfl
  have hsigned : psbtInputSignedAndVerified C tx index txdata input = false := by
    rw [psbtInputSignedAndVerified, hutxo]
    dsimp only
    rw [h.final_script_sig, h.final_script_witness, hscript]
    exact hverify _
  have hdefault : isDefaultSighashInput utxo.scriptPubKey.bytes = true := by
    rw [isDefaultSighashInput, hscript, isWitnessProgram_p2mrScript hlen]
    exact decide_eq_true ⟨Or.inr rfl, hlen⟩
  have hfield : (input.sighash_type.any fun s => s != 0) = false := by
    cases hs : input.sighash_type with
    | none => rfl
    | some s =>
      rw [h.sighash s hs]
      rfl
  have htypes : (input.m_qbit_p2mr_script_sigs.entries.any fun entry =>
      (getP2MRSignatureHashType entry.2).map (fun hashtype => (hashtype.toNat : Int)) !=
        some 0) = false := by
    rw [List.any_eq_false]
    rintro ⟨⟨pubkey, leaf⟩, sig⟩ hmem
    obtain ⟨-, -, hlength, -⟩ := h.sigs pubkey leaf sig (AList.mem_lookup_iff.mpr hmem)
    rw [hashType_of_length hlength]
    decide
  have hfill : input.fillSignatureData = leafSigdata script input.m_qbit_p2mr_script_sigs := by
    rw [PSBTInput.fillSignatureData, h.final_script_sig, h.final_script_witness, h.scripts]
    rfl
  have hinput : (if (0 : Int) ≠ 0 ∧ (true = true ∨ (0 : Int) ≠ 1) then
      { input with sighash_type := some 0 } else input) = input := if_neg fun h => h.1 rfl
  refine ⟨require_witness_sig, hutxo, ?_⟩
  rw [signPSBTInput, if_neg (by rw [hsigned]; exact Bool.false_ne_true), hutxo]
  dsimp only
  rw [hdefault, if_pos rfl, hsighash, hfield, if_neg Bool.false_ne_true, hinput, htypes,
    if_neg Bool.false_ne_true, hfill]
  rfl

theorem produceSignature_leaf (provider : SigningProvider W)
    (hscript : utxo.scriptPubKey.bytes = p2mrScript (serUint256 leaf_hash)) (other : OtherSigner W)
    (creator : MutableTransactionSignatureCreator)
    (sigs : AList fun _ : CPQCPubKey × Uint256 => Valtype) (w : W) :
    (produceSignature C other provider creator utxo.scriptPubKey.bytes (leafSigdata script sigs)
        w).1 =
      let (result, sigdata, _) := signP2MR C provider creator leaf_hash (leafSigdata script sigs) w
      testSolution C creator result.isSome utxo.scriptPubKey.bytes
        { sigdata with
          witness := true
          scriptWitness := result.getD sigdata.scriptWitness
          scriptSig := .empty } := by
  have hlen : (serUint256 leaf_hash).length = 32 := length_serUint256 leaf_hash
  have houtput : CPQCPubKey.ofBytes (serUint256 leaf_hash) = leaf_hash :=
    serUint256_injective (serUint256_ofLE hlen)
  have hcomplete : (leafSigdata script sigs).complete = false := rfl
  rw [produceSignature, hcomplete, if_neg Bool.false_ne_true, hscript,
    isWitnessProgram_p2mrScript hlen]
  dsimp only
  rw [if_pos ⟨rfl, hlen⟩, houtput]
  rcases signP2MR C provider creator leaf_hash (leafSigdata script sigs) w with
    ⟨_ | result, sigdata', w'⟩ <;> rfl

theorem LeafInput.finish (h : LeafInput C tx index txdata pubkeys script leaf_hash utxo input)
    {require_witness_sig : Bool} (hutxo : input.utxo C tx index = some (utxo, require_witness_sig))
    {sigdata : SignatureData}
    (hsigdata : LeafSigdata C tx index txdata pubkeys script leaf_hash sigdata)
    (hwitness : sigdata.witness = true) :
    LeafInput C tx index txdata pubkeys script leaf_hash utxo
      (finishPSBTInput false input utxo require_witness_sig sigdata).2 := by
  have hutxo' : ∃ r, PSBTInput.utxo C tx index { input with witness_utxo := utxo } =
      some (utxo, r) := by
    rw [PSBTInput.utxo] at hutxo ⊢
    cases hnon : input.non_witness_utxo with
    | some prev =>
      rw [hnon] at hutxo
      exact ⟨require_witness_sig, hutxo⟩
    | none =>
      rw [hnon] at hutxo
      dsimp only at hutxo
      split at hutxo
      · cases hutxo
      next hvalue =>
        cases hutxo
        exact ⟨true, if_neg hvalue⟩
  rw [finishPSBTInput, if_neg (not_not.mpr hsigdata.invalid), hwitness, Bool.not_true, Bool.and_false,
    if_neg Bool.false_ne_true, Bool.and_false]
  dsimp only
  rw [if_pos rfl, PSBTInput.fromSignatureData, if_neg Bool.false_ne_true]
  refine ⟨hutxo', h.final_script_sig, h.final_script_witness, ?_, h.sigs.union hsigdata.sigs,
    h.sighash⟩
  rw [h.scripts, hsigdata.spenddata]
  cases hbuilder : sigdata.p2mr_builder with
  | none => exact merge_leafSpendData script
  | some builder =>
    dsimp only
    rw [hsigdata.builder builder hbuilder, merge_leafSpendData, merge_leafSpendData]

/-- **A signer keeps the input as it has to be**, whatever keys it can sign for. -/
theorem LeafInput.sign (h : LeafInput C tx index txdata pubkeys script leaf_hash utxo input)
    (hleaf : MultisigLeaf C pubkeys threshold script leaf_hash)
    (hscript : utxo.scriptPubKey.bytes = p2mrScript (serUint256 leaf_hash)) (other : OtherSigner W)
    (hprovider : provider.SignsLeaf C leaf_hash script) (hsighash : sighash.getD 0 = 0) (w : W) :
    LeafInput C tx index txdata pubkeys script leaf_hash utxo
      (signPSBTInput C other provider tx index txdata input sighash false w).1.2 := by
  obtain ⟨require_witness_sig, hutxo, heq⟩ := h.signPSBTInput_eq hleaf provider hscript other hsighash
    false w
  have hsigned := h.sigs.leafSigdata.signP2MR hleaf hprovider utxo.nValue w
  rw [heq]
  dsimp only
  rw [produceSignature_leaf provider hscript]
  generalize signP2MR C provider (defaultCreator tx index utxo.nValue txdata) leaf_hash
    (leafSigdata script input.m_qbit_p2mr_script_sigs) w = r at hsigned ⊢
  exact h.finish hutxo ⟨hsigned.spenddata, hsigned.builder, hsigned.sigs, hsigned.invalid⟩ rfl

/-! ## All parties together -/

theorem ValidSigs.card_signedKeys
    (h : ValidSigs C tx index txdata leaf_hash pubkeys input.m_qbit_p2mr_script_sigs)
    (hdistinct : pubkeys.Nodup) :
    input.signedKeys.card = pubkeys.countP (hasSig input.m_qbit_p2mr_script_sigs leaf_hash) := by
  have hkeys : input.signedKeys =
      (pubkeys.filter (hasSig input.m_qbit_p2mr_script_sigs leaf_hash)).toFinset := by
    ext pubkey
    rw [PSBTInput.mem_signedKeys, List.mem_toFinset, List.mem_filter, hasSig, AList.lookup_isSome]
    constructor
    · rintro ⟨leaf, hmem⟩
      obtain ⟨sig, hsig⟩ := Option.isSome_iff_exists.mp (AList.lookup_isSome.mpr hmem)
      obtain ⟨rfl, hpubkey, -⟩ := h pubkey leaf sig hsig
      exact ⟨hpubkey, hmem⟩
    · rintro ⟨-, hmem⟩
      exact ⟨leaf_hash, hmem⟩
  rw [hkeys, List.toFinset_card_of_nodup (hdistinct.filter _), List.countP_eq_length_filter]

/-- What is asked of a finalized input: `VerifyScript` accepts it in the transaction, whatever the
scripts and the witnesses of the other inputs become. -/
def FinalInput (C : Crypto) (tx : CTransaction) (index : Nat) (txdata : PrecomputedTransactionData)
    (utxo : CTxOut) (input : PSBTInput) : Prop :=
  ∀ tx' txdata', SameSpends tx tx' → SameSighashData txdata txdata' →
    ∃ calls, verifyScript C standardScriptVerifyFlags
      (transactionSignatureChecker C tx' index utxo.nValue txdata') input.final_script_witness
      input.final_script_sig.bytes utxo.scriptPubKey.bytes = .ok calls

section Leaf

variable (hleaf : MultisigLeaf C pubkeys threshold script leaf_hash) {items : List Valtype}
  (hitems : List.Forall₂ (SignedItem C tx index txdata leaf_hash) pubkeys items)
  (hcount : signatureCount items = threshold)

include hleaf hitems hcount

/-- The signatures that the leaf asks for are accepted by every checker of the transaction. -/
theorem verifyScript_leaf {checker : BaseSignatureChecker}
    (hchecker : checker.checkPQCSignature =
      TransactionSignatureChecker.checkPQCSignature C tx index txdata) :
    ∃ calls, verifyScript C standardScriptVerifyFlags checker (items.reverse ++ [script, [0xc1]]) []
      (p2mrScript (serUint256 leaf_hash)) = .ok calls := by
  have hhash := hleaf.hash
  rw [hhash] at hitems
  exact verifyScript_of_control hchecker hleaf.parse (findValid_leaf hhash).1 hitems hcount
    hleaf.signatures hleaf.spendable

theorem checkPQCSignature_signingChecker (amount : CAmount) :
    (signingChecker C tx index amount (some txdata)).checkPQCSignature =
      TransactionSignatureChecker.checkPQCSignature C tx index txdata := by
  have hready : SigningChecker.ready (some txdata) = true := by
    have hpos : 0 < signatureCount items := by simp [hcount, hleaf.positive]
    obtain ⟨item, hmem, hne⟩ := List.countP_pos_iff.mp hpos
    have hitem := forall_mem_of_forall₂ (P := fun item => item = [] ∨
      SigningChecker.ready (some txdata) = true) hitems (fun _ item hitem =>
        hitem.imp id fun hsig => ready_of_validP2MRSignature hsig.2) item hmem
    rcases hitem with rfl | hready
    · cases hne
    · exact hready
  funext sig pubkey sigversion execdata
  exact if_pos hready

end Leaf

theorem finishPSBTInput_finalize (input : PSBTInput) (utxo : CTxOut) (require_witness_sig : Bool)
    (sigdata : SignatureData) (hinvalid : sigdata.invalid_p2mr_sigs = [])
    (hwitness : sigdata.witness = true) :
    let r := finishPSBTInput true input utxo require_witness_sig sigdata
    r.1 = (if sigdata.complete then .OK else .INCOMPLETE) ∧
      (sigdata.complete = true → sigdata.scriptSig.bytes = [] → sigdata.scriptWitness ≠ [] →
        r.2.final_script_sig = input.final_script_sig ∧
          r.2.final_script_witness = sigdata.scriptWitness) := by
  rw [finishPSBTInput, if_neg (not_not.mpr hinvalid), hwitness, Bool.not_true, Bool.and_false,
    if_neg Bool.false_ne_true]
  dsimp only
  refine ⟨rfl, fun hcomplete hscriptSig hscriptWitness => ?_⟩
  rw [if_pos rfl, PSBTInput.fromSignatureData, hcomplete, if_pos (by rfl)]
  rw [hscriptSig, if_pos (by rfl), if_neg (by rwa [List.isEmpty_iff])]
  exact ⟨rfl, rfl⟩

/-- **Finalizing an input needs signatures and no keys.** -/
theorem LeafInput.finalize (h : LeafInput C tx index txdata pubkeys script leaf_hash utxo input)
    (hleaf : MultisigLeaf C pubkeys threshold script leaf_hash)
    (hscript : utxo.scriptPubKey.bytes = p2mrScript (serUint256 leaf_hash)) (other : OtherSigner W)
    (hprovider : provider.KnowsLeaf leaf_hash script) (hkeyless : provider.Keyless)
    (hsighash : sighash.getD 0 = 0) (w : W) :
    let r := signPSBTInput C other provider tx index txdata input sighash true w
    (r.1.1 = .OK ↔ threshold ≤ input.signedKeys.card) ∧
      (r.1.1 = .OK → FinalInput C tx index txdata utxo r.1.2) := by
  obtain ⟨require_witness_sig, hutxo, heq⟩ := h.signPSBTInput_eq hleaf provider hscript other hsighash
    true w
  have hsigned := h.sigs.leafSigdata.signP2MR hleaf (hprovider.signsLeaf hkeyless) utxo.nValue w
  have hsolved := signP2MR_keyless h.sigs.leafSigdata hleaf hprovider hkeyless utxo.nValue w
  have hcard := h.sigs.card_signedKeys hleaf.distinct
  rw [heq]
  dsimp only
  rw [produceSignature_leaf provider hscript]
  generalize signP2MR C provider (defaultCreator tx index utxo.nValue txdata) leaf_hash
    (leafSigdata script input.m_qbit_p2mr_script_sigs) w = r at hsigned hsolved ⊢
  obtain ⟨result, sigdata, w'⟩ := r
  dsimp only at hsigned hsolved ⊢
  obtain ⟨herror, hfinal⟩ := finishPSBTInput_finalize input utxo require_witness_sig
    (testSolution C (defaultCreator tx index utxo.nValue txdata) result.isSome utxo.scriptPubKey.bytes
      { sigdata with
        witness := true
        scriptWitness := result.getD sigdata.scriptWitness
        scriptSig := .empty }) hsigned.invalid rfl
  rw [herror, hcard]
  split at hsolved
  next henough =>
    obtain ⟨items, hitems, hcount, rfl⟩ := hsolved
    have hcomplete : (testSolution C (defaultCreator tx index utxo.nValue txdata) true
        utxo.scriptPubKey.bytes
        { sigdata with
          witness := true
          scriptWitness := items.reverse ++ [script, [0xc1]]
          scriptSig := .empty }).complete = true := by
      obtain ⟨calls, hcalls⟩ := verifyScript_leaf hleaf hitems hcount
        (checkPQCSignature_signingChecker hleaf hitems hcount utxo.nValue)
      rw [testSolution, Bool.true_and, SignatureData.verifies, hscript]
      exact congrArg Except.isOk hcalls
    rw [Option.isSome_some, Option.getD_some] at hfinal ⊢
    obtain ⟨hscriptSig, hscriptWitness⟩ := hfinal hcomplete rfl (by simp [testSolution])
    rw [hcomplete]
    refine ⟨iff_of_true rfl henough, fun _ tx' txdata' hspends hdata => ?_⟩
    rw [hscriptSig, hscriptWitness, h.final_script_sig, hscript]
    exact verifyScript_leaf hleaf hitems hcount (checkPQCSignature_same hspends hdata index)
  next hfew =>
  subst hsolved
  have hcomplete : (testSolution C (defaultCreator tx index utxo.nValue txdata) false
      utxo.scriptPubKey.bytes
      { sigdata with
        witness := true
        scriptSig := .empty }).complete = false := rfl
  rw [Option.isSome_none, Option.getD_none, hcomplete]
  exact ⟨iff_of_false (by decide) hfew, fun h => by cases h⟩

/-- Copies of an input, and how they are combined. -/
inductive MergeTree where
  | copy (input : PSBTInput)
  | merge (a b : MergeTree)

namespace MergeTree

def copies : MergeTree → List PSBTInput
  | copy input => [input]
  | merge a b => a.copies ++ b.copies

def combine : MergeTree → PSBTInput
  | copy input => input
  | merge a b => a.combine.merge b.combine

theorem mem_signedKeys_combine {tree : MergeTree} {pubkey : CPQCPubKey} :
    pubkey ∈ tree.combine.signedKeys ↔ ∃ input ∈ tree.copies, pubkey ∈ input.signedKeys := by
  induction tree with
  | copy input => simp [combine, copies]
  | merge a b iha ihb =>
    rw [combine, PSBTInput.signedKeys_merge, Finset.mem_union, iha, ihb, copies]
    simp [or_and_right, exists_or]

/-- **The keys that have signed do not depend on how the copies are merged.** -/
theorem signedKeys_combine_perm {tree tree' : MergeTree} (h : tree'.copies.Perm tree.copies) :
    tree'.combine.signedKeys = tree.combine.signedKeys := by
  ext pubkey
  rw [mem_signedKeys_combine, mem_signedKeys_combine]
  exact exists_congr fun input => and_congr_left' h.mem_iff

end MergeTree

/-- A copy of the input that a signer has signed with `SIGHASH_DEFAULT`, without finalizing it. -/
def SignedCopy (C : Crypto) (tx : CTransaction) (index : Nat) (txdata : PrecomputedTransactionData)
    (script : List UInt8) (leaf_hash : Uint256) (input copy : PSBTInput) : Prop :=
  ∃ (W : Type) (other : OtherSigner W) (provider : SigningProvider W) (sighash : Option Int) (w : W),
    provider.SignsLeaf C leaf_hash script ∧ sighash.getD 0 = 0 ∧
      copy = (signPSBTInput C other provider tx index txdata input sighash false w).1.2

theorem LeafInput.combine (h : LeafInput C tx index txdata pubkeys script leaf_hash utxo input)
    (hleaf : MultisigLeaf C pubkeys threshold script leaf_hash)
    (hscript : utxo.scriptPubKey.bytes = p2mrScript (serUint256 leaf_hash)) (tree : MergeTree)
    (hcopies : ∀ copy ∈ tree.copies, SignedCopy C tx index txdata script leaf_hash input copy) :
    LeafInput C tx index txdata pubkeys script leaf_hash utxo tree.combine := by
  induction tree with
  | copy input' =>
    obtain ⟨W, other, provider, sighash, w, hprovider, hsighash, rfl⟩ :=
      hcopies input' (List.mem_singleton_self input')
    exact h.sign hleaf hscript other hprovider hsighash w
  | merge a b iha ihb =>
    exact (iha fun copy hcopy => hcopies copy (List.mem_append_left _ hcopy)).merge
      (ihb fun copy hcopy => hcopies copy (List.mem_append_right _ hcopy))

/-- **Signing by several parties is complete and does not depend on the order.**  Signers sign copies
of an input, and the copies are merged in any way.  A finalizer without private keys succeeds
exactly if as many keys have signed as the leaf asks for; then `VerifyScript` accepts the input,
also if more have signed.  Any other way to merge the copies gives the same keys. -/
theorem psbt_multiparty (hleaf : MultisigLeaf C pubkeys threshold script leaf_hash)
    (hscript : utxo.scriptPubKey.bytes = p2mrScript (serUint256 leaf_hash))
    (hinput : LeafInput C tx index txdata pubkeys script leaf_hash utxo input) (tree : MergeTree)
    (hcopies : ∀ copy ∈ tree.copies, SignedCopy C tx index txdata script leaf_hash input copy)
    (other : OtherSigner W) (provider : SigningProvider W)
    (hprovider : provider.KnowsLeaf leaf_hash script) (hkeyless : provider.Keyless)
    {sighash : Option Int} (hsighash : sighash.getD 0 = 0) (w : W) :
    let r := signPSBTInput C other provider tx index txdata tree.combine sighash true w
    (r.1.1 = .OK ↔ threshold ≤ tree.combine.signedKeys.card) ∧
      (r.1.1 = .OK → FinalInput C tx index txdata utxo r.1.2) ∧
      ∀ tree' : MergeTree, tree'.copies.Perm tree.copies →
        tree'.combine.signedKeys = tree.combine.signedKeys := by
  have hcombined := hinput.combine hleaf hscript tree hcopies
  obtain ⟨hok, hfinal⟩ := hcombined.finalize hleaf hscript other hprovider hkeyless hsighash w
  exact ⟨hok, hfinal, fun tree' hperm => MergeTree.signedKeys_combine_perm hperm⟩

def oneOfTwoInput : PSBTInput where
  witness_utxo := oneOfTwoCoin.out
  m_qbit_p2mr_scripts := leafSpendData oneOfTwoScript

def signedByOne (key : UInt8) : PSBTInput :=
  (signPSBTInput oneOfTwoCrypto idleSigner (oneKeyProvider key) (oneOfTwoTx []) 0 oneOfTwoTxdata
    oneOfTwoInput none false ()).1.2

/-- Both keys have signed where one is asked for. -/
def bothKeys : MergeTree := .merge (.copy (signedByOne 2)) (.copy (signedByOne 1))

theorem multisigLeaf_oneOfTwo :
    MultisigLeaf oneOfTwoCrypto oneOfTwoKeys 1 oneOfTwoScript oneOfTwoLeafHash where
  distinct := by decide
  positive := by decide
  enough := by decide
  keys := by decide
  signatures := by decide
  script_eq := rfl
  hash := by decide +kernel
  spendable := by decide +kernel

theorem signsLeaf_oneKeyProvider {key : UInt8} (hkey : key = 1 ∨ key = 2) :
    (oneKeyProvider key).SignsLeaf oneOfTwoCrypto oneOfTwoLeafHash oneOfTwoScript where
  spenddata := fun _ h => by cases h
  builder := fun _ h => by cases h
  signature := signsCorrectly_oneKeyProvider hkey

theorem psbt_multiparty_both_keys :
    bothKeys.combine.signedKeys.card = 2 ∧
      (signPSBTInput oneOfTwoCrypto idleSigner keylessProvider.toSigningProvider (oneOfTwoTx []) 0
        oneOfTwoTxdata bothKeys.combine none true ()).1.1 = .OK ∧
      FinalInput oneOfTwoCrypto (oneOfTwoTx []) 0 oneOfTwoTxdata oneOfTwoCoin.out
        (signPSBTInput oneOfTwoCrypto idleSigner keylessProvider.toSigningProvider (oneOfTwoTx []) 0
          oneOfTwoTxdata bothKeys.combine none true ()).1.2 := by
  have hcard : bothKeys.combine.signedKeys.card = 2 := by decide +kernel
  have hinput : LeafInput oneOfTwoCrypto (oneOfTwoTx []) 0 oneOfTwoTxdata oneOfTwoKeys oneOfTwoScript
      oneOfTwoLeafHash oneOfTwoCoin.out oneOfTwoInput :=
    ⟨⟨true, rfl⟩, rfl, rfl, rfl, (fun _ _ _ h => by cases h), (fun _ h => by cases h)⟩
  have hsigner (key : UInt8) (hkey : key = 1 ∨ key = 2) : SignedCopy oneOfTwoCrypto (oneOfTwoTx []) 0
      oneOfTwoTxdata oneOfTwoScript oneOfTwoLeafHash oneOfTwoInput (signedByOne key) :=
    ⟨Unit, idleSigner, oneKeyProvider key, none, (), signsLeaf_oneKeyProvider hkey, rfl, rfl⟩
  have hcopies : ∀ copy ∈ bothKeys.copies, SignedCopy oneOfTwoCrypto (oneOfTwoTx []) 0 oneOfTwoTxdata
      oneOfTwoScript oneOfTwoLeafHash oneOfTwoInput copy := fun copy hcopy => by
    have hlist : bothKeys.copies = [signedByOne 2, signedByOne 1] := rfl
    rw [hlist] at hcopy
    rcases List.mem_pair.mp hcopy with hcopy | hcopy
    · rw [hcopy]
      exact hsigner 2 (Or.inr rfl)
    · rw [hcopy]
      exact hsigner 1 (Or.inl rfl)
  obtain ⟨hok, hfinal, -⟩ := psbt_multiparty multisigLeaf_oneOfTwo rfl hinput bothKeys hcopies
    idleSigner keylessProvider.toSigningProvider
    ⟨(fun _ h => by cases h), (fun _ h => by cases h)⟩ ⟨fun _ _ => rfl, fun _ _ _ => rfl⟩
    (rfl : (none : Option Int).getD 0 = 0) ()
  have hsuccess := hok.mpr (by rw [hcard]; decide)
  exact ⟨hcard, hsuccess, hfinal hsuccess⟩

end Qbit
