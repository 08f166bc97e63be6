import Qbit.Sign.Accepted
import Qbit.Sign.Solution

/-!
# Signing a leaf of several keys

A P2MR output with a single leaf that asks for `k` signatures of `n` keys.  A signer adds valid
signatures to those that are there (`LeafSigdata.signP2MR`).  A signer without private keys solves
the leaf exactly if `k` keys have signed (`signP2MR_keyless`).

The leaf accepts exactly `k` signatures, so those of the last `k` keys that have one are taken, and
the others are left out.
-/

open Bytes Checked

namespace Qbit

/-! ## The leaf -/

/-- The spending data of an output with a single leaf: its control block has no path. -/
def leafSpendData (script : List UInt8) : P2MRSpendData where
  scripts := AList.singleton (script, 0xc0) [[0xc1]]

/-- The output's tree is the single leaf `multi_a(k, K1, ..., Kn)`.  A program that reads as false
cannot be spent; the hash of the leaf is not such a one. -/
structure MultisigLeaf (C : Crypto) (pubkeys : List CPQCPubKey) (threshold : Nat)
    (script : List UInt8) (leaf_hash : Uint256) : Prop where
  distinct : pubkeys.Nodup
  positive : 0 < threshold
  enough : threshold ≤ pubkeys.length
  keys : pubkeys.length ≤ maxPubkeysPerMultiA
  signatures : threshold ≤ 35
  script_eq : script = buildMultiAScript threshold (pubkeys.map serUint256)
  hash : leaf_hash = C.computeP2MRLeafHash 0xc0 script
  spendable : castToBool (serUint256 leaf_hash) = true

variable {C : Crypto} {script : List UInt8} {leaf_hash : Uint256}

theorem MultisigLeaf.parse {pubkeys : List CPQCPubKey} {threshold : Nat}
    (h : MultisigLeaf C pubkeys threshold script leaf_hash) :
    parseP2MRScript script = some (pubkeys, threshold) := by
  rw [h.script_eq]
  exact parseP2MRScript_multiA h.positive h.enough h.keys

/-- A provider that knows nothing about the output but its leaf. -/
structure SigningProvider.KnowsLeaf {W : Type} (provider : SigningProvider W) (output : Uint256)
    (script : List UInt8) : Prop where
  spenddata : ∀ data, provider.getP2MRSpendData output = some data → data = leafSpendData script
  builder : ∀ data, provider.getP2MRBuilder output = some data → data = leafSpendData script

/-- A provider whose signatures are correct. -/
structure SigningProvider.SignsLeaf (C : Crypto) {W : Type} (provider : SigningProvider W)
    (output : Uint256) (script : List UInt8) : Prop extends provider.KnowsLeaf output script where
  signature : ∀ pubkey hash w sig w', provider.signPQC pubkey hash w = (some sig, w') →
    sig.length = pqcSigSize ∧ C.verifyPQC { pubkey := serUint256 pubkey, hash, sig } = true

/-- A provider without private keys. -/
structure SigningProvider.Keyless {W : Type} (provider : SigningProvider W) : Prop where
  canSignPQC : ∀ pubkey w, provider.canSignPQC pubkey w = false
  signPQC : ∀ pubkey hash w, (provider.signPQC pubkey hash w).1 = none

theorem SigningProvider.KnowsLeaf.signsLeaf {W : Type} {provider : SigningProvider W}
    {output : Uint256} (h : provider.KnowsLeaf output script) (hkeyless : provider.Keyless) :
    provider.SignsLeaf C output script where
  toKnowsLeaf := h
  signature := fun pubkey hash w sig w' hsig => by
    have hnone := hkeyless.signPQC pubkey hash w
    rw [hsig] at hnone
    cases hnone

theorem merge_leafSpendData (script : List UInt8) :
    (leafSpendData script).merge (leafSpendData script) = leafSpendData script := by
  have hlookup : (leafSpendData script).scripts.lookup (script, 0xc0) = some [[0xc1]] :=
    List.dlookup_cons_eq _ _ _
  have hadd : ([[0xc1]] : ControlBlocks).foldl ControlBlocks.add [[0xc1]] = [[0xc1]] := by decide
  have hentries : (leafSpendData script).scripts.entries = [⟨(script, 0xc0), [[0xc1]]⟩] := rfl
  have hmerge : ((leafSpendData script).merge (leafSpendData script)).scripts =
      (leafSpendData script).scripts := by
    rw [P2MRSpendData.merge, hentries, List.foldl_cons, List.foldl_nil, hlookup, Option.getD_some,
      hadd]
    refine AList.ext ?_
    simp [hentries]
  exact congrArg P2MRSpendData.mk hmerge

theorem leaves_leafSpendData (script : List UInt8) :
    (leafSpendData script).leaves = [((script, 0xc0), [[0xc1]])] := rfl

theorem findValid_leaf (h : leaf_hash = C.computeP2MRLeafHash 0xc0 script) :
    isValidP2MRControlBlock C script 0xc0 leaf_hash [0xc1] = true ∧
      findValidP2MRControlBlock C [[0xc1]] script 0xc0 leaf_hash = some [0xc1] := by
  have hvalid : isValidP2MRControlBlock C script 0xc0 leaf_hash [0xc1] = true := by
    have hroot : C.computeP2MRMerkleRoot [0xc1] (C.computeP2MRLeafHash (UInt8.ofInt 0xc0) script) =
        leaf_hash := h.symm
    rw [isValidP2MRControlBlock, hroot, beq_self_eq_true, Bool.and_true]
    decide
  refine ⟨hvalid, ?_⟩
  simp [findValidP2MRControlBlock, List.find?_cons_of_pos hvalid]

/-! ## Valid signatures -/

/-- The signatures are valid, and they belong to keys of the leaf. -/
def ValidSigs (C : Crypto) (tx : CTransaction) (index : Nat) (txdata : PrecomputedTransactionData)
    (leaf_hash : Uint256) (pubkeys : List CPQCPubKey)
    (sigs : AList fun _ : CPQCPubKey × Uint256 => Valtype) : Prop :=
  ∀ pubkey leaf sig, sigs.lookup (pubkey, leaf) = some sig → leaf = leaf_hash ∧ pubkey ∈ pubkeys ∧
    sig.length = pqcSigSize ∧ ValidP2MRSignature C tx index txdata leaf_hash sig (serUint256 pubkey)

/-- The creator of signatures with `SIGHASH_DEFAULT`. -/
abbrev defaultCreator (tx : CTransaction) (index : Nat) (amount : CAmount)
    (txdata : PrecomputedTransactionData) : MutableTransactionSignatureCreator :=
  ⟨tx, index, amount, some txdata, 0⟩

variable {tx : CTransaction} {index : Nat} {txdata : PrecomputedTransactionData}
  {pubkeys : List CPQCPubKey} {amount : CAmount}
  {sigs : AList fun _ : CPQCPubKey × Uint256 => Valtype}

section Signatures

variable {sig : Valtype} {pubkey : CPQCPubKey}

theorem hashType_of_length (h : sig.length = pqcSigSize) :
    getP2MRSignatureHashType sig = some sighashDefault := by simp [getP2MRSignatureHashType, h]

/-- What a signature commits to is there. -/
theorem ready_of_validP2MRSignature {pubkey : Valtype}
    (h : ValidP2MRSignature C tx index txdata leaf_hash sig pubkey) :
    SigningChecker.ready (some txdata) = true := by
  obtain ⟨r, hr⟩ := h
  simp only [TransactionSignatureChecker.checkPQCSignature, bind_eq_ok_iff,
    ite_setError_eq_ok_iff] at hr
  obtain ⟨_, -, _, -, -, _, -, message, hmessage, -⟩ := hr
  simp only [signatureHashSchnorrCommon, bind_eq_ok_iff, Eval.require_eq_ok_iff] at hmessage
  obtain ⟨_, -, _, -, _, hready, -⟩ := hmessage
  simpa [SigningChecker.ready] using hready

theorem verify_of_validP2MRSignature
    (h : ValidP2MRSignature C tx index txdata leaf_hash sig (serUint256 pubkey)) :
    (defaultCreator tx index amount txdata).verifyP2MRScriptSignature C sig pubkey leaf_hash =
      true := by
  have hready := ready_of_validP2MRSignature h
  obtain ⟨r, hr⟩ := h
  have hcheck : SigningChecker.checkPQCSignature C tx index (some txdata) sig (serUint256 pubkey)
      .p2mr (signedExecdata leaf_hash) = .ok r := by
    simp [SigningChecker.checkPQCSignature, hready, hr]
  have hchecker : ((defaultCreator tx index amount txdata).checker C).checkPQCSignature sig
      (serUint256 pubkey) .p2mr (signedExecdata leaf_hash) = .ok r := hcheck
  rw [MutableTransactionSignatureCreator.verifyP2MRScriptSignature, if_pos hready, hchecker]
  rfl

/-- **A signature that is made is valid.** -/
theorem valid_of_createPQCSignature {W : Type} {provider : SigningProvider W} {script : List UInt8}
    (hprovider : provider.SignsLeaf C leaf_hash script) {w w' : W}
    (h : (defaultCreator tx index amount txdata).createPQCSignature C provider pubkey leaf_hash w =
      (some sig, w')) :
    sig.length = pqcSigSize ∧
      ValidP2MRSignature C tx index txdata leaf_hash sig (serUint256 pubkey) := by
  have hcorrect : provider.SignsCorrectly C := hprovider.signature
  obtain ⟨hlen, -, hvalid⟩ := hcorrect.createPQCSignature rfl (fun h => absurd rfl h) h
  exact ⟨hlen, hvalid⟩

namespace ValidSigs

variable (h : ValidSigs C tx index txdata leaf_hash pubkeys sigs)

include h

theorem lookupValid (sigdata : SignatureData) (hsigs : sigdata.p2mr_script_sigs = sigs)
    (pubkey : CPQCPubKey) :
    lookupValidP2MRScriptSig C (defaultCreator tx index amount txdata) sigdata pubkey leaf_hash =
      (sigs.lookup (pubkey, leaf_hash), false) := by
  rw [lookupValidP2MRScriptSig, hsigs]
  cases hlookup : sigs.lookup (pubkey, leaf_hash) with
  | none => rfl
  | some sig =>
    obtain ⟨-, -, hlen, hvalid⟩ := h pubkey leaf_hash sig hlookup
    simp [hashType_of_length hlen, verify_of_validP2MRSignature hvalid]

theorem insert (hmem : pubkey ∈ pubkeys) (hlen : sig.length = pqcSigSize)
    (hvalid : ValidP2MRSignature C tx index txdata leaf_hash sig (serUint256 pubkey)) :
    ValidSigs C tx index txdata leaf_hash pubkeys (sigs.insert (pubkey, leaf_hash) sig) := by
  intro pubkey' leaf sig' hlookup
  by_cases heq : (pubkey', leaf) = (pubkey, leaf_hash)
  · cases heq
    rw [AList.lookup_insert] at hlookup
    cases hlookup
    exact ⟨rfl, hmem, hlen, hvalid⟩
  · rw [AList.lookup_insert_ne heq] at hlookup
    exact h pubkey' leaf sig' hlookup

theorem union {sigs' : AList fun _ : CPQCPubKey × Uint256 => Valtype}
    (h' : ValidSigs C tx index txdata leaf_hash pubkeys sigs') :
    ValidSigs C tx index txdata leaf_hash pubkeys (sigs ∪ sigs') := by
  intro pubkey leaf sig hlookup
  rcases AList.mem_lookup_union.mp hlookup with hlookup | ⟨-, hlookup⟩
  · exact h pubkey leaf sig hlookup
  · exact h' pubkey leaf sig hlookup

end ValidSigs

end Signatures

/-! ## Signing -/

/-- The data that signing works on: the leaf, and valid signatures for it. -/
structure LeafSigdata (C : Crypto) (tx : CTransaction) (index : Nat)
    (txdata : PrecomputedTransactionData) (pubkeys : List CPQCPubKey) (script : List UInt8)
    (leaf_hash : Uint256) (sigdata : SignatureData) : Prop where
  spenddata : sigdata.p2mr_spenddata = leafSpendData script
  builder : ∀ data, sigdata.p2mr_builder = some data → data = leafSpendData script
  sigs : ValidSigs C tx index txdata leaf_hash pubkeys sigdata.p2mr_script_sigs
  invalid : sigdata.invalid_p2mr_sigs = []

/-- The data that signing begins with. -/
def leafSigdata (script : List UInt8) (sigs : AList fun _ : CPQCPubKey × Uint256 => Valtype) :
    SignatureData where
  p2mr_script_sigs := sigs
  p2mr_spenddata := leafSpendData script

variable {threshold : Nat} {W : Type} {provider : SigningProvider W} {sigdata : SignatureData}

section Signing

/-- The plan for the leaf, if a key has signed or can sign. -/
def leafPlan (C : Crypto) (provider : SigningProvider W)
    (creator : MutableTransactionSignatureCreator) (sigdata : SignatureData) (w : W)
    (script : List UInt8) (leaf_hash : Uint256) (pubkeys : List CPQCPubKey) (threshold : Nat) :
    Option P2MRScriptSigningPlan :=
  if pubkeys.countP (isCandidate C provider creator sigdata w leaf_hash) = 0 then none
  else estimatePlan C provider creator sigdata w script [0xc1] leaf_hash pubkeys threshold

variable {plan : P2MRScriptSigningPlan}

theorem of_leafPlan {creator : MutableTransactionSignatureCreator} {w : W}
    (h : leafPlan C provider creator sigdata w script leaf_hash pubkeys threshold = some plan) :
    estimatePlan C provider creator sigdata w script [0xc1] leaf_hash pubkeys threshold =
      some plan := by
  rw [leafPlan] at h
  split at h
  · cases h
  · exact h

theorem ValidSigs.leafSigdata (h : ValidSigs C tx index txdata leaf_hash pubkeys sigs) :
    LeafSigdata C tx index txdata pubkeys script leaf_hash (leafSigdata script sigs) where
  spenddata := rfl
  builder := fun _ h => by cases h
  sigs := h
  invalid := rfl

theorem exists_foldl_addMissing (l : List CPQCPubKey) (sigdata : SignatureData) :
    ∃ missing, l.foldl SignatureData.addMissingP2MRScriptSig sigdata =
      { sigdata with missing_p2mr_sigs := missing } := by
  induction l generalizing sigdata with
  | nil => exact ⟨sigdata.missing_p2mr_sigs, rfl⟩
  | cons pubkey l ih =>
    obtain ⟨missing, hmissing⟩ := ih (sigdata.addMissingP2MRScriptSig pubkey)
    exact ⟨missing, hmissing⟩

namespace LeafSigdata

variable (h : LeafSigdata C tx index txdata pubkeys script leaf_hash sigdata)

include h

theorem with_missing (missing : List CPQCPubKey) :
    LeafSigdata C tx index txdata pubkeys script leaf_hash
      { sigdata with missing_p2mr_sigs := missing } :=
  ⟨h.spenddata, h.builder, h.sigs, h.invalid⟩

theorem noteMissing (provider : SigningProvider W) (creator : MutableTransactionSignatureCreator)
    (threshold : Nat) (w : W) :
    LeafSigdata C tx index txdata pubkeys script leaf_hash
        (Qbit.noteMissing C provider creator sigdata w leaf_hash pubkeys threshold) ∧
      (Qbit.noteMissing C provider creator sigdata w leaf_hash pubkeys threshold).p2mr_script_sigs =
        sigdata.p2mr_script_sigs := by
  rw [Qbit.noteMissing]
  split
  · obtain ⟨missing, hmissing⟩ := exists_foldl_addMissing (pubkeys.filter fun pubkey =>
      !isCandidate C provider creator sigdata w leaf_hash pubkey) sigdata
    rw [hmissing]
    exact ⟨h.with_missing missing, rfl⟩
  · exact ⟨h, rfl⟩

theorem gather (hprovider : provider.KnowsLeaf leaf_hash script) :
    LeafSigdata C tx index txdata pubkeys script leaf_hash
        (gatherP2MRSpendData provider leaf_hash sigdata) ∧
      (gatherP2MRSpendData provider leaf_hash sigdata).p2mr_script_sigs =
        sigdata.p2mr_script_sigs := by
  have hbuilder : ∀ data, (provider.getP2MRBuilder leaf_hash).or sigdata.p2mr_builder = some data →
      data = leafSpendData script := fun data hdata => by
    rcases Option.or_eq_some_iff.mp hdata with hdata | ⟨-, hdata⟩
    · exact hprovider.builder data hdata
    · exact h.builder data hdata
  have hentries : (leafSpendData script).scripts.entries.isEmpty = false := rfl
  rw [gatherP2MRSpendData]
  cases hdata : provider.getP2MRSpendData leaf_hash with
  | none =>
    split
    · exact ⟨⟨h.spenddata, hbuilder, h.sigs, h.invalid⟩, rfl⟩
    · rw [if_neg (by rw [h.spenddata, hentries]; exact Bool.false_ne_true)]
      exact ⟨⟨h.spenddata, hbuilder, h.sigs, h.invalid⟩, rfl⟩
  | some data =>
    have hmerge : sigdata.p2mr_spenddata.merge data = leafSpendData script := by
      rw [hprovider.spenddata data hdata, h.spenddata, merge_leafSpendData]
    dsimp only
    split
    · exact ⟨⟨hmerge, hbuilder, h.sigs, h.invalid⟩, rfl⟩
    · rw [if_neg (by rw [hmerge, hentries]; exact Bool.false_ne_true)]
      exact ⟨⟨hmerge, hbuilder, h.sigs, h.invalid⟩, rfl⟩

theorem buildPlans (hleaf : MultisigLeaf C pubkeys threshold script leaf_hash)
    (provider : SigningProvider W) (amount : CAmount) (w : W) :
    Qbit.buildPlans C provider (defaultCreator tx index amount txdata) leaf_hash w
        (leafSpendData script).leaves sigdata =
      ((leafPlan C provider (defaultCreator tx index amount txdata) sigdata w script leaf_hash
          pubkeys threshold).toList,
        Qbit.noteMissing C provider (defaultCreator tx index amount txdata) sigdata w leaf_hash pubkeys
          threshold) := by
  have hmax : ¬ p2mrV1MaxStandardSignatures < threshold := by
    have hlimit : p2mrV1MaxStandardSignatures = 35 := by decide
    have hle := hleaf.signatures
    omega
  have hinvalid : (pubkeys.filter fun pubkey => (lookupValidP2MRScriptSig C
      (defaultCreator tx index amount txdata) sigdata pubkey leaf_hash).2) = [] := by
    rw [List.filter_eq_nil_iff]
    intro pubkey _
    rw [h.sigs.lookupValid sigdata rfl]
    exact Bool.false_ne_true
  have hhash : C.computeP2MRLeafHash (UInt8.ofInt 0xc0) script = leaf_hash := hleaf.hash.symm
  have hbuild : buildP2MRScriptSigningPlan C provider (defaultCreator tx index amount txdata) sigdata
      w 0xc0 script [0xc1] =
        (leafPlan C provider (defaultCreator tx index amount txdata) sigdata w script leaf_hash
            pubkeys threshold,
          Qbit.noteMissing C provider (defaultCreator tx index amount txdata) sigdata w leaf_hash
            pubkeys threshold) := by
    rw [buildP2MRScriptSigningPlan, if_neg (by decide), hleaf.parse]
    dsimp only
    rw [if_neg hmax, hhash, hinvalid, if_neg (not_not.mpr rfl)]
    refine congrArg₂ Prod.mk (if_congr ?_ rfl rfl) rfl
    have hpos := hleaf.positive
    omega
  rw [leaves_leafSpendData, Qbit.buildPlans, (findValid_leaf hleaf.hash).2]
  dsimp only
  rw [hbuild, Qbit.buildPlans, List.append_nil]

theorem createP2MRScriptSig (amount : CAmount) (hprovider : provider.SignsLeaf C leaf_hash script)
    {pubkey : CPQCPubKey} (hmem : pubkey ∈ pubkeys) (w : W) :
    LeafSigdata C tx index txdata pubkeys script leaf_hash
      (Qbit.createP2MRScriptSig C provider (defaultCreator tx index amount txdata) sigdata pubkey
        leaf_hash w).2.1 := by
  rw [Qbit.createP2MRScriptSig, h.sigs.lookupValid sigdata rfl]
  cases sigdata.p2mr_script_sigs.lookup (pubkey, leaf_hash) with
  | some sig => exact h
  | none =>
    dsimp only
    split
    next sig w' hsig =>
      obtain ⟨hlen, hvalid⟩ := valid_of_createPQCSignature hprovider hsig
      exact ⟨h.spenddata, h.builder, h.sigs.insert hmem hlen hvalid, h.invalid⟩
    · exact h.with_missing _

end LeafSigdata

theorem LeafSigdata.signP2MRKeys (hprovider : provider.SignsLeaf C leaf_hash script)
    (keys : List (CPQCPubKey × Bool)) (hkeys : ∀ key ∈ keys, key.1 ∈ pubkeys) (num_signed : Nat)
    (sigdata : SignatureData) (h : LeafSigdata C tx index txdata pubkeys script leaf_hash sigdata)
    (w : W) :
    LeafSigdata C tx index txdata pubkeys script leaf_hash
      (Qbit.signP2MRKeys C provider (defaultCreator tx index amount txdata) leaf_hash threshold keys
        num_signed sigdata w).2.1 := by
  induction keys generalizing num_signed sigdata w with
  | nil => exact h
  | cons key keys ih =>
    obtain ⟨pubkey, candidate⟩ := key
    have hrest : ∀ key ∈ keys, key.1 ∈ pubkeys := fun key hkey =>
      hkeys key (List.mem_cons_of_mem _ hkey)
    have hcreate := h.createP2MRScriptSig amount hprovider
      (hkeys (pubkey, candidate) List.mem_cons_self) w
    rw [Qbit.signP2MRKeys]
    split
    · exact ih hrest _ _ h _
    split
    next hsig =>
      rw [hsig] at hcreate
      exact ih hrest _ _ hcreate _
    next hsig =>
      rw [hsig] at hcreate
      exact ih hrest _ _ hcreate _

theorem LeafSigdata.signP2MRScript
    (h : LeafSigdata C tx index txdata pubkeys script leaf_hash sigdata) (amount : CAmount)
    (hprovider : provider.SignsLeaf C leaf_hash script)
    (hplan : plan.leaf_hash = leaf_hash ∧ plan.pubkeys = pubkeys) (w : W) :
    LeafSigdata C tx index txdata pubkeys script leaf_hash
      (Qbit.signP2MRScript C provider (defaultCreator tx index amount txdata) plan sigdata w).2.1 := by
  obtain ⟨rfl, rfl⟩ := hplan
  refine LeafSigdata.signP2MRKeys hprovider plan.signers (fun key hkey => ?_) 0 sigdata h w
  exact (List.of_mem_zip (List.mem_reverse.mp hkey)).1

theorem LeafSigdata.tryCompletePlans (amount : CAmount)
    (hprovider : provider.SignsLeaf C leaf_hash script) (plans : List P2MRScriptSigningPlan)
    (hplans : ∀ plan ∈ plans, plan.leaf_hash = leaf_hash ∧ plan.pubkeys = pubkeys)
    (sigdata : SignatureData) (h : LeafSigdata C tx index txdata pubkeys script leaf_hash sigdata)
    (w : W) :
    LeafSigdata C tx index txdata pubkeys script leaf_hash
      (Qbit.tryCompletePlans C provider (defaultCreator tx index amount txdata) plans sigdata
        w).2.1 := by
  induction plans generalizing sigdata w with
  | nil => exact h
  | cons plan plans ih =>
    have hsign := h.signP2MRScript amount hprovider (hplans plan List.mem_cons_self) w
    rw [Qbit.tryCompletePlans]
    dsimp only
    split
    · exact ih (fun plan hplan => hplans plan (List.mem_cons_of_mem _ hplan)) _ hsign _
    · exact hsign

/-- **A signer adds valid signatures.** -/
theorem LeafSigdata.signP2MR (h : LeafSigdata C tx index txdata pubkeys script leaf_hash sigdata)
    (hleaf : MultisigLeaf C pubkeys threshold script leaf_hash)
    (hprovider : provider.SignsLeaf C leaf_hash script) (amount : CAmount) (w : W) :
    LeafSigdata C tx index txdata pubkeys script leaf_hash
      (Qbit.signP2MR C provider (defaultCreator tx index amount txdata) leaf_hash sigdata w).2.1 := by
  obtain ⟨hgather, -⟩ := h.gather hprovider.toKnowsLeaf
  have hplans := hgather.buildPlans hleaf provider amount w
  rw [Qbit.signP2MR]
  generalize gatherP2MRSpendData provider leaf_hash sigdata = gathered at hgather hplans ⊢
  obtain ⟨hnoted, -⟩ := hgather.noteMissing provider (defaultCreator tx index amount txdata) threshold w
  rw [hgather.spenddata, hplans]
  dsimp only
  rw [if_neg (not_not.mpr hnoted.invalid)]
  have hall : ∀ plan ∈ (leafPlan C provider (defaultCreator tx index amount txdata) gathered w script
      leaf_hash pubkeys threshold).toList, plan.leaf_hash = leaf_hash ∧ plan.pubkeys = pubkeys :=
    fun plan hplan => by
      obtain ⟨-, -, hpubkeys, -, hhash, -⟩ := of_estimatePlan (of_leafPlan
        (Option.mem_toList.mp hplan))
      exact ⟨hhash, hpubkeys⟩
  generalize (leafPlan C provider (defaultCreator tx index amount txdata) gathered w script leaf_hash
    pubkeys threshold).toList = plans at hall ⊢
  have hcomplete : ∀ plan ∈ (plans.filter (·.complete)).insertionSort
      (fun a b => a.witness_size ≤ b.witness_size),
      plan.leaf_hash = leaf_hash ∧ plan.pubkeys = pubkeys := fun plan hplan =>
    hall plan (List.mem_of_mem_filter ((List.mem_insertionSort _).mp hplan))
  have htry := LeafSigdata.tryCompletePlans amount hprovider _ hcomplete _ hnoted w
  split
  next heq =>
    rw [heq] at htry
    exact htry
  next heq =>
  rw [heq] at htry
  split
  · exact htry
  next plan _ hbest =>
    have hplan := hall plan (List.mem_of_mem_filter ((List.mem_insertionSort _).mp
      (hbest.symm ▸ List.mem_cons_self)))
    exact htry.signP2MRScript amount hprovider hplan _

end Signing

/-! ## Finalizing -/

/-- The key has a signature for the leaf. -/
def hasSig (sigs : AList fun _ : CPQCPubKey × Uint256 => Valtype) (leaf_hash : Uint256)
    (pubkey : CPQCPubKey) : Bool :=
  (sigs.lookup (pubkey, leaf_hash)).isSome

/-- The keys in the order in which they sign. -/
def markedKeys (sigs : AList fun _ : CPQCPubKey × Uint256 => Valtype) (leaf_hash : Uint256)
    (pubkeys : List CPQCPubKey) : List (CPQCPubKey × Bool) :=
  pubkeys.map fun pubkey => (pubkey, hasSig sigs leaf_hash pubkey)

section Keyless

variable (h : ValidSigs C tx index txdata leaf_hash pubkeys sigdata.p2mr_script_sigs)

include h

/-- Without private keys, the candidates are the keys that have signed. -/
theorem isCandidate_keyless (hkeyless : provider.Keyless) (amount : CAmount) (w : W) :
    isCandidate C provider (defaultCreator tx index amount txdata) sigdata w leaf_hash =
      hasSig sigdata.p2mr_script_sigs leaf_hash := by
  funext pubkey
  rw [isCandidate, hkeyless.canSignPQC, Bool.or_false, isCached, h.lookupValid sigdata rfl]
  rfl

/-- The stack that is estimated for keys that have signed: it is made of their signatures, and there
are as many as the leaf asks for, or as there are. -/
theorem estimateStack_spec (amount : CAmount) (keys : List CPQCPubKey) {count : Nat}
    (hcount : count ≤ threshold) :
    let r := estimateStack C (defaultCreator tx index amount txdata) sigdata leaf_hash threshold
      (markedKeys sigdata.p2mr_script_sigs leaf_hash keys) count
    List.Forall₂ (SignedItem C tx index txdata leaf_hash) keys r.1 ∧
      r.2 = count + signatureCount r.1 ∧
      r.2 = min threshold (count + keys.countP (hasSig sigdata.p2mr_script_sigs leaf_hash)) := by
  induction keys generalizing count with
  | nil => exact ⟨.nil, rfl, (min_eq_right hcount).symm⟩
  | cons pubkey keys ih =>
    rw [markedKeys, List.map_cons, estimateStack, List.countP_cons]
    split
    next hskip =>
      obtain ⟨hitems, hsigs, hmin⟩ := ih hcount
      rw [Bool.or_eq_true, Bool.not_eq_true', decide_eq_true_iff] at hskip
      refine ⟨.cons (Or.inl rfl) hitems, ?_, ?_⟩
      · rw [signatureCount_cons, if_pos rfl, Nat.zero_add]
        exact hsigs
      · refine hmin.trans ?_
        rcases hskip with hskip | hskip
        · rw [if_neg (by rw [hskip]; exact Bool.false_ne_true), Nat.add_zero]
        · rw [min_eq_left (by omega), min_eq_left (by omega)]
    next htake =>
    rw [Bool.or_eq_true, Bool.not_eq_true', decide_eq_true_iff, not_or, Bool.not_eq_false] at htake
    obtain ⟨hsigned, hlt⟩ := htake
    obtain ⟨hitems, hsigs, hmin⟩ := ih (by omega : count + 1 ≤ threshold)
    obtain ⟨sig, hsig⟩ := Option.isSome_iff_exists.mp hsigned
    obtain ⟨-, -, hlen, hvalid⟩ := h pubkey leaf_hash sig hsig
    have hne : sig ≠ [] := fun hnil => by
      rw [hnil, List.length_nil, pqcSigSize] at hlen
      omega
    rw [h.lookupValid sigdata rfl, hsig, if_pos hsigned]
    refine ⟨.cons (Or.inr ⟨?_, hvalid⟩) hitems, ?_, ?_⟩
    · rw [Option.getD_some, hashType_of_length hlen]
      rfl
    · rw [Option.getD_some, signatureCount_cons, if_neg hne]
      exact hsigs.trans (Nat.add_assoc _ _ _)
    · exact hmin.trans (congrArg (min threshold) (by omega))

theorem signP2MRKeys_cached (keys : List CPQCPubKey) (count : Nat) (w : W) :
    signP2MRKeys C provider (defaultCreator tx index amount txdata) leaf_hash threshold
        (markedKeys sigdata.p2mr_script_sigs leaf_hash keys) count sigdata w =
      (estimateStack C (defaultCreator tx index amount txdata) sigdata leaf_hash threshold
        (markedKeys sigdata.p2mr_script_sigs leaf_hash keys) count, sigdata, w) := by
  induction keys generalizing count with
  | nil => rfl
  | cons pubkey keys ih =>
    rw [markedKeys, List.map_cons, ← markedKeys, signP2MRKeys, estimateStack]
    split
    · rw [ih count]
    next htake =>
    rw [Bool.or_eq_true, Bool.not_eq_true', decide_eq_true_iff, not_or, Bool.not_eq_false] at htake
    obtain ⟨sig, hsig⟩ := Option.isSome_iff_exists.mp htake.1
    rw [createP2MRScriptSig, h.lookupValid sigdata rfl, hsig]
    dsimp only
    rw [ih (count + 1)]
    rfl

end Keyless

theorem stackFits_of_signed (hleaf : MultisigLeaf C pubkeys threshold script leaf_hash)
    {stack : List Valtype}
    (hitems : List.Forall₂ (SignedItem C tx index txdata leaf_hash) pubkeys.reverse stack)
    (hcount : signatureCount stack ≤ threshold) :
    stackFits stack = true ∧
      signatureCount stack * p2mrValidationWeightPerSigopV2 ≤
        ((serWitness (stack ++ [script, [0xc1]])).length : Int) + validationWeightOffset := by
  have hkeys := hleaf.keys
  have hmax := hleaf.signatures
  rw [maxPubkeysPerMultiA] at hkeys
  have hlen : stack.reverse.length ≤ 1000 := by
    rw [List.length_reverse, ← hitems.length_eq, List.length_reverse]
    omega
  have hsized : ∀ item ∈ stack.reverse, SignatureSized item := fun item hitem =>
    forall_mem_of_forall₂ hitems (fun _ _ hitem => hitem.signatureSized) item
      (List.mem_reverse.mp hitem)
  have hreverse : signatureCount stack.reverse = signatureCount stack := List.countP_reverse
  have hlimits := p2mrLimits_of_signatures hsized hlen (by omega)
  have hflags : VerifyFlag.p2mrLegacyValidationWeight ∉ standardScriptVerifyFlags := by decide
  have hweight := signatureCost_le_weight hflags hsized script [0xc1]
  rw [List.reverse_reverse] at hlimits hweight
  constructor
  · rw [stackFits, Bool.and_eq_true, Bool.and_eq_true, decide_eq_true_iff, decide_eq_true_iff,
      List.all_eq_true]
    exact ⟨⟨hlimits.items, fun item hitem => decide_eq_true (hlimits.item item hitem)⟩,
      hlimits.total⟩
  · have hserialized := validationWeight_eq (stack ++ [script, [0xc1]])
    rw [validationWeight] at hserialized
    rw [signatureCost, hreverse] at hweight
    rw [hserialized]
    exact hweight

theorem zip_hasSig (sigs : AList fun _ : CPQCPubKey × Uint256 => Valtype) (leaf_hash : Uint256)
    (pubkeys : List CPQCPubKey) :
    (pubkeys.zip (pubkeys.map (hasSig sigs leaf_hash))).reverse =
      markedKeys sigs leaf_hash pubkeys.reverse := by simp [markedKeys, List.map_prod_left_eq_zip]

theorem isSome_leafPlan (hleaf : MultisigLeaf C pubkeys threshold script leaf_hash)
    (h : ValidSigs C tx index txdata leaf_hash pubkeys sigdata.p2mr_script_sigs)
    (hkeyless : provider.Keyless) (amount : CAmount) (w : W)
    (henough : threshold ≤ pubkeys.countP (hasSig sigdata.p2mr_script_sigs leaf_hash)) :
    ∃ plan, leafPlan C provider (defaultCreator tx index amount txdata) sigdata w script leaf_hash
        pubkeys threshold = some plan := by
  have hpos := hleaf.positive
  have hcandidate := isCandidate_keyless h hkeyless amount w
  obtain ⟨hitems, hcount, hmin⟩ := estimateStack_spec h amount pubkeys.reverse
    (Nat.zero_le threshold)
  obtain ⟨hfits, hweight⟩ := stackFits_of_signed hleaf hitems (by omega)
  rw [Nat.zero_add] at hcount
  rw [leafPlan, hcandidate, if_neg (by omega), estimatePlan, hcandidate, zip_hasSig]
  dsimp only
  rw [if_neg (by rw [hfits]; exact Bool.false_ne_true), hcount, if_neg (not_lt.mpr hweight)]
  exact ⟨_, rfl⟩

/-- **Without private keys, the leaf is solved exactly if enough keys have signed.**  The solution has
no more signatures than the leaf asks for. -/
theorem signP2MR_keyless (h : LeafSigdata C tx index txdata pubkeys script leaf_hash sigdata)
    (hleaf : MultisigLeaf C pubkeys threshold script leaf_hash)
    (hprovider : provider.KnowsLeaf leaf_hash script) (hkeyless : provider.Keyless)
    (amount : CAmount) (w : W) :
    if threshold ≤ pubkeys.countP (hasSig sigdata.p2mr_script_sigs leaf_hash) then
      ∃ items, List.Forall₂ (SignedItem C tx index txdata leaf_hash) pubkeys items ∧
        signatureCount items = threshold ∧
        (signP2MR C provider (defaultCreator tx index amount txdata) leaf_hash sigdata w).1 =
          some (items.reverse ++ [script, [0xc1]])
    else (signP2MR C provider (defaultCreator tx index amount txdata) leaf_hash sigdata w).1 =
      none := by
  obtain ⟨hgather, hsigs⟩ := h.gather hprovider
  have hplans := hgather.buildPlans hleaf provider amount w
  have hcandidate := isCandidate_keyless hgather.sigs hkeyless amount w
  obtain ⟨hnoted, hnotedSigs⟩ := hgather.noteMissing provider
    (defaultCreator tx index amount txdata) threshold w
  rw [signP2MR, ← hsigs]
  generalize gatherP2MRSpendData provider leaf_hash sigdata = gathered
    at hgather hplans hcandidate hnoted hnotedSigs ⊢
  generalize noteMissing C provider (defaultCreator tx index amount txdata) gathered w leaf_hash pubkeys
    threshold = noted at hplans hnoted hnotedSigs
  rw [hgather.spenddata, hplans]
  dsimp only
  rw [if_neg (not_not.mpr hnoted.invalid)]
  split
  next henough =>
    obtain ⟨plan, hplan⟩ := isSome_leafPlan hleaf hgather.sigs hkeyless amount w henough
    obtain ⟨hscript, hcontrol, hpubkeys, hthreshold, hhash, hmarks, hcomplete, -⟩ :=
      of_estimatePlan (of_leafPlan hplan)
    have hsigners : plan.signers = markedKeys noted.p2mr_script_sigs leaf_hash pubkeys.reverse := by
      rw [P2MRScriptSigningPlan.signers, hpubkeys, hmarks, hcandidate, hnotedSigs, zip_hasSig]
    have hcomplete : plan.complete = true := by
      rw [hcomplete, hcandidate]
      exact decide_eq_true henough
    have hlist : ([plan].filter (·.complete)).insertionSort
        (fun a b => a.witness_size ≤ b.witness_size) = [plan] := by
      rw [List.filter_cons_of_pos hcomplete]
      rfl
    obtain ⟨hitems, hcount, hmin⟩ := estimateStack_spec hnoted.sigs amount pubkeys.reverse
      (Nat.zero_le threshold)
    rw [hnotedSigs, List.countP_reverse, Nat.zero_add, min_eq_left henough] at hmin
    rw [hplan, Option.toList_some, hlist, tryCompletePlans, signP2MRScript, hsigners, hhash, hthreshold,
      signP2MRKeys_cached hnoted.sigs]
    dsimp only
    rw [hnotedSigs] at hitems hcount ⊢
    rw [hmin, if_neg (lt_irrefl _), hscript, hcontrol]
    generalize (estimateStack C (defaultCreator tx index amount txdata) noted leaf_hash threshold
      (markedKeys gathered.p2mr_script_sigs leaf_hash pubkeys.reverse) 0) = r at hitems hcount hmin ⊢
    refine ⟨r.1.reverse, List.forall₂_reverse_iff.mp (by rwa [List.reverse_reverse]), ?_, ?_⟩
    · have hreverse : signatureCount r.1.reverse = signatureCount r.1 := List.countP_reverse
      omega
    · rw [List.reverse_reverse]
  next hfew =>
  have hnone : ((leafPlan C provider (defaultCreator tx index amount txdata) gathered w script
      leaf_hash pubkeys threshold).toList.filter (·.complete)) = [] := by
    rw [List.filter_eq_nil_iff]
    intro plan hplan
    obtain ⟨-, -, -, -, -, -, hcomplete, -⟩ := of_estimatePlan (of_leafPlan
      (Option.mem_toList.mp hplan))
    rw [hcomplete, hcandidate, decide_eq_true_iff]
    exact hfew
  rw [hnone, List.insertionSort_nil, tryCompletePlans]
  dsimp only
  split <;> rfl

end Qbit
