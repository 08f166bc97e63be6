import Qbit.Script.Flags
import Qbit.Validation.Connect

/-!
# Policy and consensus flags

The flags that a transaction's scripts are checked with before it is relayed, next to the flags of
the block that it ends up in.  Policy should be the stricter one.  `standardScriptVerifyFlags` alone
is not: it lacks `P2MR_LEGACY_VALIDATION_WEIGHT`, under which a signature costs more validation
weight, and which blocks have until the second version of that weight is active.
`getStandardScriptFlagsForNextBlock` adds the flag where it is needed.
-/

open Bytes Checked

namespace Qbit

/-! ## The flags of policy -/

/-- `MANDATORY_SCRIPT_VERIFY_FLAGS` -/
def mandatoryScriptVerifyFlags : VerifyFlags :=
  {.p2sh, .dersig, .nulldummy, .checklocktimeverify, .checksequenceverify, .witness, .taproot,
    .p2mrRules}

/-- `STANDARD_SCRIPT_VERIFY_FLAGS` -/
def standardScriptVerifyFlags : VerifyFlags :=
  mandatoryScriptVerifyFlags ∪
    {.strictenc, .minimaldata, .discourageUpgradableNops, .cleanstack, .minimalif, .nullfail, .lowS,
      .discourageUpgradableWitnessProgram, .witnessPubkeytype, .constScriptcode,
      .discourageUpgradableTaprootVersion, .discourageOpSuccess, .discourageUpgradablePubkeytype}

/-- `GetStandardScriptFlagsForNextBlock` -/
def getStandardScriptFlagsForNextBlock (params : Params) (tip : CBlockIndex) : VerifyFlags :=
  let next_height := tip.nHeight + 1
  -- Below the height of P2MR, the rule is the one of the first block that enforces P2MR.
  let p2mr_policy_height := max next_height params.P2MRHeight
  if !params.p2mrValidationWeightV2ActiveAtHeight p2mr_policy_height then
    standardScriptVerifyFlags ∪ {.p2mrLegacyValidationWeight}
  else standardScriptVerifyFlags

/-- `GetNextBlockScriptFlags`: the flags of the tip, with the two of P2MR moved to the next height. -/
def getNextBlockScriptFlags (params : Params) (tip : CBlockIndex) : VerifyFlags :=
  let next_height := tip.nHeight + 1
  let flags := getBlockScriptFlags params tip
  if params.P2MRHeight ≤ next_height then
    if params.p2mrValidationWeightV2ActiveAtHeight next_height then
      (flags ∪ {.p2mrRules}) \ {.p2mrLegacyValidationWeight}
    else flags ∪ {.p2mrRules} ∪ {.p2mrLegacyValidationWeight}
  else flags

section Flags

variable (params : Params) (index : CBlockIndex)

theorem p2sh_mem_getBlockScriptFlags : .p2sh ∈ getBlockScriptFlags params index := by
  simp [getBlockScriptFlags]

theorem witness_mem_getBlockScriptFlags : .witness ∈ getBlockScriptFlags params index := by
  simp [getBlockScriptFlags]

theorem legacy_mem_getBlockScriptFlags_iff :
    .p2mrLegacyValidationWeight ∈ getBlockScriptFlags params index ↔
      params.P2MRHeight ≤ index.nHeight ∧
        index.nHeight < params.nP2MRValidationWeightV2Height := by
  have hactive (flag : VerifyFlag) (height : Int) (hflag : flag ≠ .p2mrLegacyValidationWeight) :
      .p2mrLegacyValidationWeight ∉
        (if deploymentActiveAt index height then {flag} else ∅ : VerifyFlags) := by
    split
    · simpa using hflag.symm
    · simp
  simp only [getBlockScriptFlags, Finset.mem_union, hactive, ne_eq, reduceCtorEq,
    not_false_eq_true, Params.p2mrValidationWeightV2ActiveAtHeight, Bool.not_eq_true']
  split <;> simp_all

theorem p2mrRules_mem_getBlockScriptFlags_iff :
    .p2mrRules ∈ getBlockScriptFlags params index ↔ params.P2MRHeight ≤ index.nHeight := by
  have hactive (flag : VerifyFlag) (height : Int) (hflag : flag ≠ .p2mrRules) :
      .p2mrRules ∉ (if deploymentActiveAt index height then {flag} else ∅ : VerifyFlags) := by
    split
    · simpa using hflag.symm
    · simp
  have hlegacy (p : Prop) [Decidable p] :
      .p2mrRules ∉ (if p then {.p2mrLegacyValidationWeight} else ∅ : VerifyFlags) := by
    split <;> simp
  simp only [getBlockScriptFlags, Finset.mem_union, hactive, ne_eq, reduceCtorEq, not_false_eq_true]
  by_cases hheight : params.P2MRHeight ≤ index.nHeight <;> simp [deploymentActiveAt, hheight]

theorem getBlockScriptFlags_subset :
    getBlockScriptFlags params index ⊆
      standardScriptVerifyFlags ∪ {.p2mrLegacyValidationWeight} := by
  have hactive (flag : VerifyFlag) (height : Int) (hflag : flag ∈ standardScriptVerifyFlags) :
      (if deploymentActiveAt index height then {flag} else ∅ : VerifyFlags) ⊆
        standardScriptVerifyFlags ∪ {.p2mrLegacyValidationWeight} := by
    split
    · exact Finset.singleton_subset_iff.mpr (Finset.mem_union_left _ hflag)
    simp
  refine Finset.union_subset (Finset.union_subset (Finset.union_subset (Finset.union_subset
    (Finset.union_subset (Finset.union_subset ?_ ?_) ?_) ?_) ?_) ?_) ?_
  · decide
  · exact hactive _ _ (by decide)
  · split
    · simp
    · simp
  all_goals exact hactive _ _ (by decide)

theorem getBlockScriptFlags_subset_next {tip : CBlockIndex} (habove : tip.nHeight < index.nHeight) :
    getBlockScriptFlags params index ⊆ getStandardScriptFlagsForNextBlock params tip := by
  intro flag hflag
  have hflag' := getBlockScriptFlags_subset params index hflag
  rw [getStandardScriptFlagsForNextBlock]
  split
  · exact hflag'
  next hactive =>
  obtain hstandard | hlegacy := Finset.mem_union.mp hflag'
  · exact hstandard
  · -- The legacy weight of the block would be the policy's too.
    rw [Finset.mem_singleton.mp hlegacy, legacy_mem_getBlockScriptFlags_iff] at hflag
    simp only [Params.p2mrValidationWeightV2ActiveAtHeight, Bool.not_eq_true',
      decide_eq_false_iff_not] at hactive
    omega

/-- The two flags of P2MR for the next block are those that the next block has. -/
theorem mem_getNextBlockScriptFlags_iff {tip : CBlockIndex}
    (hnext : index.nHeight = tip.nHeight + 1) {flag : VerifyFlag}
    (hflag : flag = .p2mrRules ∨ flag = .p2mrLegacyValidationWeight) :
    flag ∈ getNextBlockScriptFlags params tip ↔ flag ∈ getBlockScriptFlags params index := by
  have htip := legacy_mem_getBlockScriptFlags_iff params tip
  have hindex := legacy_mem_getBlockScriptFlags_iff params index
  have htip' := p2mrRules_mem_getBlockScriptFlags_iff params tip
  have hindex' := p2mrRules_mem_getBlockScriptFlags_iff params index
  rw [hnext] at hindex hindex'
  simp only [getNextBlockScriptFlags, Params.p2mrValidationWeightV2ActiveAtHeight,
    decide_eq_true_eq]
  split_ifs with hrules hactive
  · obtain rfl | rfl := hflag
    · simp [hindex', hrules]
    · simp [hindex, hactive]
  · obtain rfl | rfl := hflag
    · simp [hindex', hrules]
    · simp [hindex, hrules, not_le.mp hactive]
  · -- The tip is below the height of P2MR too.
    obtain rfl | rfl := hflag
    · rw [htip', hindex']
      omega
    · rw [htip, hindex]
      omega

end Flags

/-! ## What policy accepts -/

/-- **More flags accept less.**  A native P2MR input that is accepted under some flags is accepted
under fewer.  If it is accepted under the standard flags and the legacy weight, then it is accepted
in every block; and what policy accepts at a tip is accepted in every block above it. -/
theorem native_accepted_of_more_flags (C : Crypto) (checker : BaseSignatureChecker)
    (hchecker : checker.FlagIndependent) (witness : List Valtype) (scriptSig : List UInt8)
    (program : Valtype) (hlen : program.length = 32) :
    let accepted (flags : VerifyFlags) : Prop :=
      ∃ calls, verifyScript C flags checker witness scriptSig (p2mrScript program) = .ok calls
    (∀ F G : VerifyFlags, F ⊆ G → .p2sh ∈ F → .witness ∈ F → accepted G → accepted F) ∧
    (∀ (params : Params) (index : CBlockIndex),
      accepted (standardScriptVerifyFlags ∪ {.p2mrLegacyValidationWeight}) →
        accepted (getBlockScriptFlags params index)) ∧
    (∀ (params : Params) (tip index : CBlockIndex), tip.nHeight < index.nHeight →
      accepted (getStandardScriptFlagsForNextBlock params tip) →
        accepted (getBlockScriptFlags params index)) := by
  intro accepted
  have hmono (F G : VerifyFlags) (hFG : F ⊆ G) (hp2sh : .p2sh ∈ F) (hwitness : .witness ∈ F)
      (h : accepted G) : accepted F :=
    verifyScript_mono hFG hchecker hp2sh hwitness witness scriptSig hlen h
  refine ⟨hmono, fun params index => ?_, fun params tip index habove => ?_⟩
  · exact hmono _ _ (getBlockScriptFlags_subset params index)
      (p2sh_mem_getBlockScriptFlags params index) (witness_mem_getBlockScriptFlags params index)
  · exact hmono _ _ (getBlockScriptFlags_subset_next params index habove)
      (p2sh_mem_getBlockScriptFlags params index) (witness_mem_getBlockScriptFlags params index)

/-- The vector of the repository, which the standard flags and the legacy weight accept. -/
theorem native_accepted_of_more_flags_vector :
    ∃ calls, verifyScript vectorCrypto (getBlockScriptFlags testNet4Params
        (addToBlockIndex vectorCrypto.hash256 none mainGenesis))
      (transactionSignatureChecker vectorCrypto vectorTx 0 1000 vectorTxdata)
      [vectorSignature, vectorLeafScript, [0xc1]] [] (p2mrScript (serUint256 vectorLeafHash)) =
        .ok calls :=
  (native_accepted_of_more_flags vectorCrypto _
    (transactionSignatureChecker_flagIndependent vectorCrypto vectorTx 0 vectorTxdata 1000)
    [vectorSignature, vectorLeafScript, [0xc1]] [] (serUint256 vectorLeafHash)
    (by decide +kernel)).2.1 testNet4Params _ ⟨[vectorCall], by decide +kernel⟩

/-- **What policy accepts stays acceptable.**  Whatever the heights of P2MR and of the second version
of its validation weight, and wherever the tip is: a P2MR input that is accepted with the flags of
policy is accepted in every block above the tip.  And the flags for the next block have the two
flags of P2MR that every block at the next height has. -/
theorem policy_survives_activation (C : Crypto) (params : Params) (tip : CBlockIndex) :
    (∀ (tx : CTransaction) (nIn : Nat) (amount : CAmount) (txdata : PrecomputedTransactionData)
      (witness : List Valtype) (scriptSig program : List UInt8) (index : CBlockIndex),
      program.length = 32 → tip.nHeight + 1 ≤ index.nHeight →
      (∃ calls, verifyScript C (getStandardScriptFlagsForNextBlock params tip)
        (transactionSignatureChecker C tx nIn amount txdata) witness scriptSig
        (p2mrScript program) = .ok calls) →
      ∃ calls, verifyScript C (getBlockScriptFlags params index)
        (transactionSignatureChecker C tx nIn amount txdata) witness scriptSig
        (p2mrScript program) = .ok calls) ∧
    ∀ index : CBlockIndex, index.nHeight = tip.nHeight + 1 →
      ∀ flag ∈ [VerifyFlag.p2mrRules, .p2mrLegacyValidationWeight],
        flag ∈ getNextBlockScriptFlags params tip ↔ flag ∈ getBlockScriptFlags params index := by
  constructor
  · intro tx nIn amount txdata witness scriptSig program index hlen habove haccepted
    exact verifyScript_mono (getBlockScriptFlags_subset_next params index (by omega))
      (transactionSignatureChecker_flagIndependent C tx nIn txdata amount)
      (p2sh_mem_getBlockScriptFlags params index) (witness_mem_getBlockScriptFlags params index)
      witness scriptSig hlen haccepted
  · intro index hnext flag hflag
    exact mem_getNextBlockScriptFlags_iff params index hnext (by simpa using hflag)

/-- The vector of the repository, at the last height of testnet4 with the legacy weight, in a block
without it. -/
theorem policy_survives_activation_vector :
    ∃ calls, verifyScript vectorCrypto (getBlockScriptFlags testNet4Params
        { addToBlockIndex vectorCrypto.hash256 none mainGenesis with nHeight := 60000 })
      (transactionSignatureChecker vectorCrypto vectorTx 0 1000 vectorTxdata)
      [vectorSignature, vectorLeafScript, [0xc1]] [] (p2mrScript (serUint256 vectorLeafHash)) =
        .ok calls :=
  (policy_survives_activation vectorCrypto testNet4Params
    { addToBlockIndex vectorCrypto.hash256 none mainGenesis with nHeight := 59998 }).1 vectorTx 0 1000
    vectorTxdata [vectorSignature, vectorLeafScript, [0xc1]] [] (serUint256 vectorLeafHash) _
    (by decide +kernel) (by decide) ⟨[vectorCall], by decide +kernel⟩

/-! ## The standard flags alone

On testnet4 the second version of the validation weight is active from height 60000.  One signature
that is checked twice, with an element that is dropped first to pay for it: the witness pays for two
signatures at their later cost and not at the legacy one. -/

/-- A checker that accepts every PQC signature of the right size. -/
def sizeChecker : BaseSignatureChecker where
  checkECDSASignature := fun _ _ _ _ => false
  checkSchnorrSignature := fun _ _ _ _ => setError .schnorrSig
  checkPQCSignature := fun sig _ _ execdata =>
    if sig.length = pqcSigSize then .ok (execdata, []) else setError .p2mrSigSize
  checkTemplateVerifyHash := fun _ => setError .templateMismatch
  checkLockTime := fun _ => false
  checkSequence := fun _ => false

def twiceLeafScript : Valtype :=
  opDrop :: pushData vectorPubkey ++ [op2dup, opChecksigpqc, opVerify, opChecksigpqc]

def twiceLeafHash : Uint256 :=
  0x10391c36b284b732f5d73df4a0be4472adfb09f6f14a1b2d85358e0441dd158a

def twiceCrypto : Crypto :=
  { vectorCrypto with
    sha256 :=
      let leafTag : Uint256 := 0xa49b1ae96df769ade6f92691eb2b3ced47ee46a6cdc721b3b8dccc463a92468b
      tableHash [
        ("P2MRLeaf".toList.map fun c => UInt8.ofNat c.toNat, leafTag),
        (serUint256 leafTag ++ serUint256 leafTag ++ 0xc0 :: serBytes twiceLeafScript,
          twiceLeafHash)] }

def twiceWitness : List Valtype :=
  [List.replicate pqcSigSize 0, List.replicate 3600 0, twiceLeafScript, [0xc1]]

/-- The last block of testnet4 with the legacy weight. -/
def lastLegacyIndex : CBlockIndex :=
  { addToBlockIndex vectorCrypto.hash256 none mainGenesis with nHeight := 59999 }

/-- The standard flags accept an input that a block with the legacy weight rejects. -/
theorem standard_accepts_legacy_rejects :
    sizeChecker.FlagIndependent ∧ (serUint256 twiceLeafHash).length = 32 ∧
      verifyScript twiceCrypto standardScriptVerifyFlags sizeChecker twiceWitness []
        (p2mrScript (serUint256 twiceLeafHash)) = .ok [] ∧
      verifyScript twiceCrypto (getBlockScriptFlags testNet4Params lastLegacyIndex) sizeChecker
        twiceWitness [] (p2mrScript (serUint256 twiceLeafHash)) =
          .error (.invalid .p2mrValidationWeight) := by
  refine ⟨⟨fun sig pubkey sigversion execdata weight => ?_⟩, by decide +kernel, by decide +kernel,
    by decide +kernel⟩
  simp only [sizeChecker]
  split <;> rfl

end Qbit
