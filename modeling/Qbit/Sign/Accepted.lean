import Qbit.Sign.Produce

/-!
# Signed witnesses are accepted

The signing code looks at signatures one by one, with the execution data of a leaf that has no annex
and no code separator.  This module connects it to the interpreter: if the elements of a witness are
valid in this sense, and as many as the leaf asks for are there, then `VerifyScript` accepts the
witness (`verifyScript_of_control`).
-/

open Bytes Checked

namespace Qbit

open TransactionSignatureChecker MutableTransactionSignatureCreator

/-! ## Execution data -/

/-- The execution data of the leaf are those that were signed.  The hash of the input's output is
kept once a signature has committed to it. -/
structure SignedFor (C : Crypto) (tx : CTransaction) (nIn : Nat) (leaf_hash : Uint256)
    (execdata : ScriptExecutionData) : Prop where
  annex : execdata.m_annex = some none
  codeseparator : execdata.m_codeseparator_pos = some 0xffffffff
  leaf : execdata.m_tapleaf_hash = some leaf_hash
  output : ∀ hash, execdata.m_output_hash = some hash →
    ∃ txout, tx.vout[nIn]? = some txout ∧ hash = C.sha256 txout.serialize

/-- The signature is valid for the leaf. -/
def ValidP2MRSignature (C : Crypto) (tx : CTransaction) (nIn : Nat)
    (data : PrecomputedTransactionData) (leaf_hash : Uint256) (sig pubkey : Valtype) : Prop :=
  ∃ r, checkPQCSignature C tx nIn data sig pubkey .p2mr
    (signedExecdata leaf_hash) = .ok r

variable {C : Crypto} {tx : CTransaction} {nIn : Nat} {leaf_hash : Uint256}
  {data : PrecomputedTransactionData}

section Execdata

variable {execdata : ScriptExecutionData}

theorem SignedFor.leafExecdata (weight : Int) :
    SignedFor C tx nIn leaf_hash { leafExecdata leaf_hash weight with
      m_codeseparator_pos := some 0xffffffff } where
  annex := rfl
  codeseparator := rfl
  leaf := rfl
  output := fun _ h => by cases h

theorem SignedFor.with_weight (h : SignedFor C tx nIn leaf_hash execdata) (weight : Int) :
    SignedFor C tx nIn leaf_hash { execdata with m_validation_weight_left := some weight } :=
  ⟨h.annex, h.codeseparator, h.leaf, h.output⟩

theorem SignedFor.signedExecdata : SignedFor C tx nIn leaf_hash (signedExecdata leaf_hash) :=
  ⟨rfl, rfl, rfl, fun _ h => by cases h⟩

/-- The hash of the input's output is the same, whether it is kept or computed. -/
theorem SignedFor.getD_output_hash (h : SignedFor C tx nIn leaf_hash execdata) {txout : CTxOut}
    (htxout : tx.vout[nIn]? = some txout) :
    execdata.m_output_hash.getD (C.sha256 txout.serialize) = C.sha256 txout.serialize := by
  rcases hcached : execdata.m_output_hash with _ | hash
  · rfl
  obtain ⟨txout', htxout', rfl⟩ := h.output hash hcached
  rw [Option.some.inj (htxout.symm.trans htxout')]
  rfl

variable {execdata₀ execdata₁ : ScriptExecutionData}

section Commitments

variable (h₀ : SignedFor C tx nIn leaf_hash execdata₀) (h : SignedFor C tx nIn leaf_hash execdata)

include h₀ h

theorem SignedFor.signedOutput {output_type : UInt8} {output : List UInt8}
    (houtput : Qbit.signedOutput C execdata₀ tx nIn output_type = some (execdata₁, output)) :
    SignedFor C tx nIn leaf_hash execdata₁ ∧
      ∃ execdata', Qbit.signedOutput C execdata tx nIn output_type = some (execdata', output) ∧
        SignedFor C tx nIn leaf_hash execdata' ∧
          execdata'.m_validation_weight_left = execdata.m_validation_weight_left := by
  rw [Qbit.signedOutput] at houtput ⊢
  by_cases hsingle : output_type = sighashSingle
  · rw [if_pos hsingle] at houtput ⊢
    rcases htxout : tx.vout[nIn]? with _ | txout
    · rw [htxout] at houtput
      cases houtput
    rw [htxout] at houtput
    simp only [h₀.getD_output_hash htxout] at houtput
    simp only [h.getD_output_hash htxout]
    cases houtput
    have hhash : ∀ hash, some (C.sha256 txout.serialize) = some hash →
        ∃ txout', tx.vout[nIn]? = some txout' ∧ hash = C.sha256 txout'.serialize := by
      rintro _ ⟨⟩
      exact ⟨txout, htxout, rfl⟩
    exact ⟨⟨h₀.annex, h₀.codeseparator, h₀.leaf, hhash⟩, _, rfl,
      ⟨h.annex, h.codeseparator, h.leaf, hhash⟩, rfl⟩
  · rw [if_neg hsingle] at houtput ⊢
    cases houtput
    exact ⟨h₀, execdata, rfl, h, rfl⟩

/-- The message is the same with any execution data of the leaf. -/
theorem SignedFor.signatureHash {hash_type : UInt8} {tag : String} {hash : Uint256}
    (hhash : signatureHashSchnorrCommon C execdata₀ tx nIn hash_type .p2mr data tag =
      .ok (some (hash, execdata₁))) :
    ∃ execdata', signatureHashSchnorrCommon C execdata tx nIn hash_type .p2mr data tag =
        .ok (some (hash, execdata')) ∧ SignedFor C tx nIn leaf_hash execdata' ∧
      execdata'.m_validation_weight_left = execdata.m_validation_weight_left := by
  have hannex : Eval.init execdata₀.m_annex = .ok none := by
    rw [h₀.annex]
    rfl
  have hannex' : Eval.init execdata.m_annex = .ok none := by
    rw [h.annex]
    rfl
  simp only [signatureHashSchnorrCommon, bind_eq_ok_iff] at hhash
  obtain ⟨_, hversion, _, hpos, _, hready, hhash⟩ := hhash
  rw [signatureHashSchnorrCommon, hversion, ok_bind, hpos, ok_bind, hready, ok_bind]
  dsimp only at hhash ⊢
  split at hhash
  · cases hhash
  next htype =>
  rw [if_neg htype]
  rw [hannex, ok_bind, bind_eq_ok_iff] at hhash
  obtain ⟨input, hinput, hhash⟩ := hhash
  rw [hannex', ok_bind, hinput, ok_bind]
  split at hhash
  · cases hhash
  next execdata₂ output houtput =>
  obtain ⟨hsigned₂, execdata', houtput', hsigned, hweight⟩ := h₀.signedOutput h houtput
  have hleaf : signedLeaf .p2mr execdata' = signedLeaf .p2mr execdata₂ := by
    rw [signedLeaf, signedLeaf, hsigned.leaf, hsigned.codeseparator, hsigned₂.leaf,
      hsigned₂.codeseparator]
  rw [houtput']
  dsimp only
  rw [hleaf]
  rw [bind_eq_ok_iff] at hhash
  obtain ⟨leaf, hleaf, hhash⟩ := hhash
  cases hhash
  rw [hleaf, ok_bind]
  exact ⟨execdata', rfl, hsigned, hweight⟩

/-- **A signature that is accepted with one execution data of the leaf is accepted with any.** -/
theorem SignedFor.checkPQCSignature {sig pubkey : Valtype}
    {r : ScriptExecutionData × List PQCVerification}
    (hr : checkPQCSignature C tx nIn data sig pubkey .p2mr execdata₀ = .ok r) :
    ∃ execdata' calls, checkPQCSignature C tx nIn data sig pubkey .p2mr
        execdata = .ok (execdata', calls) ∧ SignedFor C tx nIn leaf_hash execdata' ∧
      execdata'.m_validation_weight_left = execdata.m_validation_weight_left := by
  simp only [TransactionSignatureChecker.checkPQCSignature, bind_eq_ok_iff,
    ite_setError_eq_ok_iff] at hr
  obtain ⟨_, hversion, _, hkey, hsize, ⟨sig', hashtype⟩, hsplit, message, hmessage, hr⟩ := hr
  rcases message with _ | ⟨sighash, execdata₂⟩
  · cases hr
  obtain ⟨execdata', hmessage', hsigned', hweight⟩ := h₀.signatureHash h hmessage
  dsimp only at hr
  split at hr
  next hverify =>
    refine ⟨execdata', [{ pubkey, hash := sighash, sig := sig' }], ?_, hsigned', hweight⟩
    simp only [TransactionSignatureChecker.checkPQCSignature, hversion, hkey, if_neg hsize, hsplit,
      ok_bind]
    simp [hmessage', hverify]
  · cases hr

end Commitments

/-- **A checker accepts the signatures that are valid for the leaf**, while the leaf runs. -/
theorem accepts_validP2MRSignature {checker : BaseSignatureChecker}
    (hchecker : checker.checkPQCSignature = checkPQCSignature C tx nIn data) :
    checker.Accepts (ValidP2MRSignature C tx nIn data leaf_hash) (SignedFor C tx nIn leaf_hash) := by
  refine ⟨fun {sig pubkey execdata} hsigned hvalid => ?_, fun weight h => h.with_weight weight⟩
  obtain ⟨r, hr⟩ := hvalid
  rw [hchecker]
  exact SignedFor.signedExecdata.checkPQCSignature hsigned hr

end Execdata

/-! ## Elements and control blocks -/

variable {sig : Valtype} {pubkey : CPQCPubKey} {creator : MutableTransactionSignatureCreator}

theorem signatureSized_of_hashType (h : (getP2MRSignatureHashType sig).isSome = true) :
    SignatureSized sig := by
  rw [getP2MRSignatureHashType] at h
  split at h
  · cases h
  next hsize =>
    rw [SignatureSized]
    omega

/-- An element of a witness: it is empty, or a valid signature of its key. -/
def SignedItem (C : Crypto) (tx : CTransaction) (nIn : Nat) (data : PrecomputedTransactionData)
    (leaf_hash : Uint256) (pubkey : CPQCPubKey) (item : Valtype) : Prop :=
  item = [] ∨ (getP2MRSignatureHashType item).isSome = true ∧
    ValidP2MRSignature C tx nIn data leaf_hash item (serUint256 pubkey)

theorem SignedItem.signatureSized {item : Valtype}
    (h : SignedItem C tx nIn data leaf_hash pubkey item) : SignatureSized item :=
  h.elim Or.inl fun h => signatureSized_of_hashType h.1

theorem forall_mem_of_forall₂ {α β : Type} {R : α → β → Prop} {P : β → Prop} {l : List α}
    {l' : List β} (h : List.Forall₂ R l l') (hR : ∀ a b, R a b → P b) : ∀ b ∈ l', P b :=
  ((List.forall₂_and_left _ _).mp (h.flip.imp fun b a hab => ⟨hR a b hab, hab⟩)).1

theorem exists_nodes_of_isValidP2MRControlBlock {script : List UInt8} {output : Uint256}
    {control_block : Valtype}
    (h : isValidP2MRControlBlock C script 0xc0 output control_block = true) :
    ∃ nodes, control_block = p2mrControl nodes ∧ nodes.length ≤ 128 ∧
      (∀ node ∈ nodes, node.length = 32) ∧
        p2mrRoot C (C.computeP2MRLeafHash 0xc0 script) nodes = output := by
  rw [isValidP2MRControlBlock, Bool.and_eq_true, Bool.and_eq_true, Bool.and_eq_true,
    isControlSize_iff] at h
  obtain ⟨⟨⟨⟨first, nodes, rfl, hdepth, hnodes⟩, hbit⟩, hversion⟩, hroot⟩ := h
  have hfirst : first = 0xc1 := by
    have hall : ∀ n : Fin 256, (UInt8.ofNat n &&& 1 != 0) = true →
        (((UInt8.ofNat n &&& taprootLeafMask).toNat : Int) == 0xc0) = true →
          UInt8.ofNat n = 0xc1 := by
      decide +kernel
    have hbyte : UInt8.ofNat first.toNat = first := UInt8.ofNat_toNat
    rw [← hbyte]
    exact hall ⟨first.toNat, first.toNat_lt⟩ (by rw [hbyte]; exact hbit)
      (by rw [hbyte]; exact hversion)
  have hpath : (first :: nodes.flatten).drop p2mrControlBaseSize = nodes.flatten := rfl
  have hlength : nodes.flatten.length / 32 = nodes.length := by simp [length_flatten_nodes hnodes]
  refine ⟨nodes, by rw [hfirst, p2mrControl], hdepth, hnodes, ?_⟩
  rw [Crypto.computeP2MRMerkleRoot, hpath, hlength, merkleRoot_flatten hnodes, beq_iff_eq] at hroot
  exact hroot

section Control

variable {checker : BaseSignatureChecker}
  (hchecker : checker.checkPQCSignature = checkPQCSignature C tx nIn data)
  {script control_block : List UInt8} {pubkeys : List CPQCPubKey} {threshold : Nat}
  {items : List Valtype} {output : Uint256}
  (hparse : parseP2MRScript script = some (pubkeys, threshold))
  (hcontrol : isValidP2MRControlBlock C script 0xc0 output control_block = true)
  (hitems : List.Forall₂ (SignedItem C tx nIn data (C.computeP2MRLeafHash 0xc0 script)) pubkeys items)
  (hcount : signatureCount items = threshold) (hmax : threshold ≤ 35)

include hchecker hparse hcontrol hitems hcount hmax

/-- **A signed witness is accepted** under the flags of policy. -/
theorem verifyP2MR_of_control :
    ∃ calls, verifyP2MR C standardScriptVerifyFlags checker
      (items.reverse ++ [script, control_block]) (serUint256 output) = .ok calls := by
  obtain ⟨nodes, rfl, hdepth, hnodes, rfl⟩ := exists_nodes_of_isValidP2MRControlBlock hcontrol
  have hc : checker.Accepts (ValidP2MRSignature C tx nIn data (C.computeP2MRLeafHash 0xc0 script))
      (SignedFor C tx nIn (C.computeP2MRLeafHash 0xc0 script)) :=
    accepts_validP2MRSignature hchecker
  refine verifyP2MR_signable hc (by decide) (by decide) (signableScript_of_parse hparse) ?_ ?_ hcount
    hmax hdepth hnodes rfl fun weight => SignedFor.leafExecdata weight
  · rw [ItemsFor, List.forall₂_map_left_iff]
    exact hitems.imp fun pubkey item hitem => ⟨length_leBytes 32 _, hitem.imp id And.right⟩
  · exact forall_mem_of_forall₂ hitems fun pubkey item hitem => hitem.signatureSized

/-- The same with the script of the output, unless its program reads as false. -/
theorem verifyScript_of_control (hprogram : castToBool (serUint256 output) = true) :
    ∃ calls, verifyScript C standardScriptVerifyFlags checker
      (items.reverse ++ [script, control_block]) [] (p2mrScript (serUint256 output)) = .ok calls := by
  obtain ⟨calls, hcalls⟩ := verifyP2MR_of_control hchecker hparse hcontrol hitems hcount hmax
  exact ⟨calls, (verifyScript_native C standardScriptVerifyFlags checker _ [] (length_serUint256 _)
    (by decide) (by decide) calls).mpr ⟨rfl, hprogram, hcalls⟩⟩

end Control

theorem checkPQCSignature_of_ready (hdata : creator.m_txdata = some data)
    (hready : data.m_bip341_taproot_ready = true ∧ data.m_spent_outputs_ready = true) :
    (creator.checker C).checkPQCSignature =
      checkPQCSignature C creator.m_txto creator.nIn data := by
  have hr : SigningChecker.ready creator.m_txdata = true := by
    simp [hdata, SigningChecker.ready, hready.1, hready.2]
  have hchecker : (creator.checker C).checkPQCSignature =
      SigningChecker.checkPQCSignature C creator.m_txto creator.nIn creator.m_txdata := rfl
  funext sig pubkey sigversion execdata
  rw [hchecker, SigningChecker.checkPQCSignature, if_pos hr, hdata, Option.getD_some]

theorem validP2MRSignature_of_verify (hdata : creator.m_txdata = some data)
    (hready : data.m_bip341_taproot_ready = true ∧ data.m_spent_outputs_ready = true)
    {sig : Valtype} {pubkey : CPQCPubKey} {leaf_hash : Uint256}
    (h : creator.verifyP2MRScriptSignature C sig pubkey leaf_hash = true) :
    ValidP2MRSignature C creator.m_txto creator.nIn data leaf_hash sig (serUint256 pubkey) := by
  have hr : SigningChecker.ready creator.m_txdata = true := by
    simp [hdata, SigningChecker.ready, hready.1, hready.2]
  rw [verifyP2MRScriptSignature, if_pos hr,
    checkPQCSignature_of_ready hdata hready] at h
  cases hcheck : checkPQCSignature C creator.m_txto creator.nIn data sig
      (serUint256 pubkey) .p2mr (signedExecdata leaf_hash) with
  | ok r => exact ⟨r, hcheck⟩
  | error e =>
    rw [hcheck] at h
    cases h

/-! ## Signatures that are made -/

/-- A provider whose signatures are correct. -/
def SigningProvider.SignsCorrectly (C : Crypto) {W : Type} (provider : SigningProvider W) : Prop :=
  ∀ pubkey hash w sig w', provider.signPQC pubkey hash w = (some sig, w') →
    sig.length = pqcSigSize ∧ C.verifyPQC { pubkey := serUint256 pubkey, hash, sig } = true

section Made

variable (htype : creator.nHashType ≠ 0 → UInt8.ofInt creator.nHashType ≠ sighashDefault)
  {raw : Valtype} (hlen : raw.length = pqcSigSize)

include htype hlen

theorem splitHashtype_withHashType :
    splitHashtype (creator.withHashType raw) pqcSigSize .p2mrSigHashtype =
      .ok (raw, UInt8.ofInt creator.nHashType) := by
  rw [splitHashtype, withHashType]
  by_cases hzero : creator.nHashType = 0
  · rw [if_neg (not_not.mpr hzero), List.drop_of_length_le hlen.le, hzero]
    rfl
  · rw [if_pos hzero, List.drop_left' hlen, List.take_left' hlen]
    exact if_neg (htype hzero)

omit htype in
theorem length_withHashType : (creator.withHashType raw).length = creator.p2mrSignatureSize := by
  rw [withHashType,
    p2mrSignatureSize]
  split
  · simp [hlen]
  · exact hlen

theorem isSome_hashType_withHashType :
    (getP2MRSignatureHashType (creator.withHashType raw)).isSome = true := by
  rw [withHashType, getP2MRSignatureHashType]
  by_cases hzero : creator.nHashType = 0
  · rw [if_neg (not_not.mpr hzero), if_neg (by omega), if_pos hlen]
    rfl
  rw [if_pos hzero, List.length_append, List.length_singleton, if_neg (by omega),
    if_neg (by omega), List.getLast?_concat]
  dsimp only
  rw [if_neg (htype hzero)]
  rfl

end Made

/-- **A signature that is made is valid.** -/
theorem SigningProvider.SignsCorrectly.createPQCSignature {W : Type} {provider : SigningProvider W}
    (hprovider : provider.SignsCorrectly C) (hdata : creator.m_txdata = some data)
    (htype : creator.nHashType ≠ 0 → UInt8.ofInt creator.nHashType ≠ sighashDefault) {w w' : W}
    (h : creator.createPQCSignature C provider pubkey leaf_hash w = (some sig, w')) :
    sig.length = creator.p2mrSignatureSize ∧ (getP2MRSignatureHashType sig).isSome = true ∧
      ValidP2MRSignature C creator.m_txto creator.nIn data leaf_hash sig (serUint256 pubkey) := by
  rw [MutableTransactionSignatureCreator.createPQCSignature] at h
  split at h
  · cases h
  next hash hhash =>
  rw [createPQCSignatureHash] at hhash
  split at hhash
  next hready =>
    split at hhash
    next hash' execdata hmessage =>
      cases hhash
      rw [hdata, Option.getD_some] at hmessage
      cases hsign : provider.signPQC pubkey hash w with
      | mk raw w'' =>
        rw [hsign] at h
        rcases raw with _ | raw
        · cases h
        cases h
        obtain ⟨hlen, hverify⟩ := hprovider pubkey hash w raw w' hsign
        have hsize : (creator.withHashType raw).length = creator.p2mrSignatureSize :=
          length_withHashType hlen
        have hkey : (serUint256 pubkey).length = pqcPubkeySize := length_serUint256 pubkey
        refine ⟨hsize, isSome_hashType_withHashType htype hlen,
          (execdata, [{ pubkey := serUint256 pubkey, hash, sig := raw }]), ?_⟩
        have hlimits : ¬((creator.withHashType raw).length ≠ pqcSigSize ∧
            (creator.withHashType raw).length ≠ pqcSigSize + 1) := by
          simp [hsize, p2mrSignatureSize]
        rw [checkPQCSignature, Eval.require, require_pos rfl,
          Eval.require, require_pos hkey, if_neg hlimits, splitHashtype_withHashType htype hlen]
        simp only [ok_bind, hmessage, hverify]
        rfl
    · cases hhash
  · cases hhash

end Qbit
