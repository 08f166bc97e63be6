import Qbit.Sign.Creator

/-!
# Signing P2MR outputs

`SignP2MR` of `script/sign.cpp` and what it calls.  For each leaf of the output a plan is made: which
keys have a signature already or can make one, and how large the witness would be.  The smallest
complete plan is carried out.  If there is none, then the best partial plan is, so that other signers
can go on from there.

The keys of a leaf are visited in reverse order, which is the order of their elements in the
witness.
-/

open Bytes

namespace Qbit

/-! ## Signature data -/

/-- `SignatureData`, as far as P2MR outputs need it. -/
structure SignatureData where
  complete : Bool := false
  witness : Bool := false
  scriptSig : CScript := .empty
  scriptWitness : List Valtype := []
  p2mr_spenddata : P2MRSpendData := {}
  /-- The builder, by the spending data that it computes. -/
  p2mr_builder : Option P2MRSpendData := none
  p2mr_script_sigs : AList fun _ : CPQCPubKey × Uint256 => Valtype := ∅
  missing_p2mr_sigs : List CPQCPubKey := []
  invalid_p2mr_sigs : List CPQCPubKey := []

/-- `AddUniqueP2MRPubKey` -/
def addUniqueP2MRPubKey (pubkeys : List CPQCPubKey) (pubkey : CPQCPubKey) : List CPQCPubKey :=
  if pubkey ∈ pubkeys then pubkeys else pubkeys ++ [pubkey]

/-- `AddMissingP2MRScriptSig` -/
def SignatureData.addMissingP2MRScriptSig (sigdata : SignatureData) (pubkey : CPQCPubKey) :
    SignatureData :=
  { sigdata with missing_p2mr_sigs := addUniqueP2MRPubKey sigdata.missing_p2mr_sigs pubkey }

/-- `AddInvalidP2MRScriptSig` -/
def SignatureData.addInvalidP2MRScriptSig (sigdata : SignatureData) (pubkey : CPQCPubKey) :
    SignatureData :=
  { sigdata with invalid_p2mr_sigs := addUniqueP2MRPubKey sigdata.invalid_p2mr_sigs pubkey }

/-! ## Control blocks -/

/-- `ComputeP2MRMerkleRoot` -/
def Crypto.computeP2MRMerkleRoot (C : Crypto) (control : Valtype) (leaf_hash : Uint256) : Uint256 :=
  let path := control.drop p2mrControlBaseSize
  C.merkleRoot "P2MRBranch" (path.length / 32) path leaf_hash

/-- The control block proves that the leaf belongs to the output. -/
def isValidP2MRControlBlock (C : Crypto) (script : List UInt8) (leaf_version : Int)
    (output : Uint256) (control_block : Valtype) : Bool :=
  isControlSize p2mrControlBaseSize control_block.length &&
    control_block.headD 0 &&& 1 != 0 &&
    ((control_block.headD 0 &&& taprootLeafMask).toNat : Int) == leaf_version &&
    C.computeP2MRMerkleRoot control_block
      (C.computeP2MRLeafHash (UInt8.ofInt leaf_version) script) == output

/-- `FindValidP2MRControlBlock` -/
def findValidP2MRControlBlock (C : Crypto) (control_blocks : ControlBlocks) (script : List UInt8)
    (leaf_version : Int) (output : Uint256) : Option Valtype :=
  if leaf_version < 0 ∨ 0xff < leaf_version then none
  else control_blocks.find? (isValidP2MRControlBlock C script leaf_version output)

/-! ## Plans -/

/-- `P2MRScriptSigningPlan` -/
structure P2MRScriptSigningPlan where
  script : List UInt8
  control_block : Valtype
  pubkeys : List CPQCPubKey
  candidate_pubkeys : List Bool
  leaf_hash : Uint256
  threshold : Nat
  missing_signatures : Nat
  new_signatures : Nat
  complete : Bool
  witness_size : Nat

/-- The keys with their marks, in the order in which they sign. -/
def P2MRScriptSigningPlan.signers (plan : P2MRScriptSigningPlan) : List (CPQCPubKey × Bool) :=
  (plan.pubkeys.zip plan.candidate_pubkeys).reverse

/-- `P2MR_V1_MAX_STANDARD_SIGNATURES` -/
def p2mrV1MaxStandardSignatures : Nat := maxP2MRV1TotalInitialStackBytes / (pqcSigSize + 1)

section Signing

variable (C : Crypto) {W : Type} (provider : SigningProvider W)
  (creator : MutableTransactionSignatureCreator)

variable (sigdata : SignatureData)

/-- `LookupValidP2MRScriptSig`: the signature, and whether there is an invalid one. -/
def lookupValidP2MRScriptSig (pubkey : CPQCPubKey) (leaf_hash : Uint256) : Option Valtype × Bool :=
  match sigdata.p2mr_script_sigs.lookup (pubkey, leaf_hash) with
  | none => (none, false)
  | some sig =>
    if (getP2MRSignatureHashType sig).isSome &&
        creator.verifyP2MRScriptSignature C sig pubkey leaf_hash then (some sig, false)
    else (none, true)

/-- `CreateP2MRScriptSig` -/
def createP2MRScriptSig (pubkey : CPQCPubKey) (leaf_hash : Uint256) (w : W) :
    Option Valtype × SignatureData × W :=
  match lookupValidP2MRScriptSig C creator sigdata pubkey leaf_hash with
  | (some cached_sig, _) => (some cached_sig, sigdata, w)
  | (none, true) => (none, sigdata.addInvalidP2MRScriptSig pubkey, w)
  | (none, false) =>
    match creator.createPQCSignature C provider pubkey leaf_hash w with
    | (some sig, w) => (some sig, { sigdata with
        p2mr_script_sigs := sigdata.p2mr_script_sigs.insert (pubkey, leaf_hash) sig }, w)
    | (none, w) => (none, sigdata.addMissingP2MRScriptSig pubkey, w)

/-- The loop that estimates the stack: one element for each key, and signatures only as many as are
asked for.  `count` signatures have been put on it so far. -/
def estimateStack (sigdata : SignatureData) (leaf_hash : Uint256) (threshold : Nat) :
    List (CPQCPubKey × Bool) → Nat → List Valtype × Nat
  | [], count => ([], count)
  | (pubkey, candidate) :: keys, count =>
    if !candidate || threshold ≤ count then
      let (stack, count) := estimateStack sigdata leaf_hash threshold keys count
      ([] :: stack, count)
    else
      let item := ((lookupValidP2MRScriptSig C creator sigdata pubkey leaf_hash).1).getD
        (List.replicate creator.p2mrSignatureSize 0)
      let (stack, count) := estimateStack sigdata leaf_hash threshold keys (count + 1)
      (item :: stack, count)

/-- The limits that an estimated stack has to keep. -/
def stackFits (stack : List Valtype) : Bool :=
  stack.length ≤ maxStackSize && stack.all (·.length ≤ maxP2MRV1StackItemSize) &&
    (stack.map List.length).sum ≤ maxP2MRV1TotalInitialStackBytes

/-- A key that has a valid signature for the leaf already. -/
def isCached (leaf_hash : Uint256) (pubkey : CPQCPubKey) : Bool :=
  (lookupValidP2MRScriptSig C creator sigdata pubkey leaf_hash).1.isSome

/-- A key that has a valid signature for the leaf, or can make one. -/
def isCandidate (w : W) (leaf_hash : Uint256) (pubkey : CPQCPubKey) : Bool :=
  isCached C creator sigdata leaf_hash pubkey || provider.canSignPQC pubkey w

/-- The end of `BuildP2MRScriptSigningPlan`: the plan for these keys, if its witness keeps the
limits. -/
def estimatePlan (w : W) (script : List UInt8) (control_block : Valtype) (leaf_hash : Uint256)
    (pubkeys : List CPQCPubKey) (threshold : Nat) :
    Option P2MRScriptSigningPlan :=
  let candidate_pubkeys := pubkeys.map (isCandidate C provider creator sigdata w leaf_hash)
  let num_candidates := pubkeys.countP (isCandidate C provider creator sigdata w leaf_hash)
  let num_cached_signatures := pubkeys.countP (isCached C creator sigdata leaf_hash)
  let (stack, num_estimated_signatures) := estimateStack C creator sigdata leaf_hash threshold
    (pubkeys.zip candidate_pubkeys).reverse 0
  let witness_size := (serWitness (stack ++ [script, control_block])).length
  if !stackFits stack then none
  else if (witness_size : Int) + validationWeightOffset <
      num_estimated_signatures * p2mrValidationWeightPerSigopV2 then none
  else some {
    script, control_block, pubkeys, candidate_pubkeys, leaf_hash, threshold, witness_size
    missing_signatures := threshold - num_candidates
    new_signatures := min threshold num_candidates - num_cached_signatures
    complete := threshold ≤ num_candidates }

/-- The keys without a signature are noted if there will not be enough signatures. -/
def noteMissing (w : W) (leaf_hash : Uint256) (pubkeys : List CPQCPubKey) (threshold : Nat) :
    SignatureData :=
  if pubkeys.countP (isCandidate C provider creator sigdata w leaf_hash) < threshold then
    (pubkeys.filter fun pubkey => !isCandidate C provider creator sigdata w leaf_hash pubkey).foldl
      SignatureData.addMissingP2MRScriptSig sigdata
  else sigdata

/-- `BuildP2MRScriptSigningPlan` -/
def buildP2MRScriptSigningPlan (w : W) (leaf_version : Int) (script : List UInt8)
    (control_block : Valtype) :
    Option P2MRScriptSigningPlan × SignatureData :=
  if leaf_version ≠ p2mrLeafVersionV1.toNat then (none, sigdata)
  else match parseP2MRScript script with
  | none => (none, sigdata)
  | some (pubkeys, threshold) =>
    if p2mrV1MaxStandardSignatures < threshold then (none, sigdata)
    else
      let leaf_hash := C.computeP2MRLeafHash (UInt8.ofInt leaf_version) script
      let invalid := pubkeys.filter fun pubkey =>
        (lookupValidP2MRScriptSig C creator sigdata pubkey leaf_hash).2
      if invalid ≠ [] then
        (none, invalid.foldl SignatureData.addInvalidP2MRScriptSig sigdata)
      else
        let num_candidates := pubkeys.countP (isCandidate C provider creator sigdata w leaf_hash)
        let plan := if num_candidates < threshold ∧ num_candidates = 0 then none
          else estimatePlan C provider creator sigdata w script control_block leaf_hash pubkeys
            threshold
        (plan, noteMissing C provider creator sigdata w leaf_hash pubkeys threshold)

/-- The loop of `SignP2MRScript`: the elements, and the number of signatures among them.  `num_signed`
signatures have been made so far. -/
def signP2MRKeys (leaf_hash : Uint256) (threshold : Nat) :
    List (CPQCPubKey × Bool) → Nat → SignatureData → W → (List Valtype × Nat) × SignatureData × W
  | [], num_signed, sigdata, w => (([], num_signed), sigdata, w)
  | (pubkey, candidate) :: keys, num_signed, sigdata, w =>
    if !candidate || threshold ≤ num_signed then
      let ((result, num_signed), sigdata, w) :=
        signP2MRKeys leaf_hash threshold keys num_signed sigdata w
      (([] :: result, num_signed), sigdata, w)
    else
      match createP2MRScriptSig C provider creator sigdata pubkey leaf_hash w with
      | (some sig, sigdata, w) =>
        let ((result, num_signed), sigdata, w) :=
          signP2MRKeys leaf_hash threshold keys (num_signed + 1) sigdata w
        ((sig :: result, num_signed), sigdata, w)
      | (none, sigdata, w) =>
        let ((result, num_signed), sigdata, w) :=
          signP2MRKeys leaf_hash threshold keys num_signed sigdata w
        (([] :: result, num_signed), sigdata, w)

/-- `SignP2MRScript` -/
def signP2MRScript (plan : P2MRScriptSigningPlan) (sigdata : SignatureData) (w : W) :
    (List Valtype × Nat) × SignatureData × W :=
  signP2MRKeys C provider creator plan.leaf_hash plan.threshold plan.signers 0 sigdata w

/-- The scripts are visited in the order of `std::map`: byte strings as such, then versions. -/
def bytesLE : List UInt8 → List UInt8 → Bool
  | [], _ => true
  | _ :: _, [] => false
  | a :: as, b :: bs => a.toNat < b.toNat || (a.toNat == b.toNat && bytesLE as bs)

/-- The leaves of an output in this order. -/
def P2MRSpendData.leaves (data : P2MRSpendData) : List ((List UInt8 × Int) × ControlBlocks) :=
  (data.scripts.entries.map fun leaf => (leaf.1, leaf.2)).insertionSort fun a b =>
    if a.1.1 = b.1.1 then a.1.2 ≤ b.1.2 else bytesLE a.1.1 b.1.1 = true

/-- What `SignP2MR` and `SelectCompleteP2MRSigningPlan` begin with: what the provider knows about the
output. -/
def gatherP2MRSpendData (output : Uint256) (sigdata : SignatureData) : SignatureData :=
  let sigdata := match provider.getP2MRSpendData output with
    | none => sigdata
    | some spenddata => { sigdata with p2mr_spenddata := sigdata.p2mr_spenddata.merge spenddata }
  let sigdata := { sigdata with
    p2mr_builder := (provider.getP2MRBuilder output).or sigdata.p2mr_builder }
  match sigdata.p2mr_builder with
  | none => sigdata
  | some builder =>
    if sigdata.p2mr_spenddata.scripts.entries.isEmpty then
      { sigdata with p2mr_spenddata := sigdata.p2mr_spenddata.merge builder }
    else sigdata

/-- The loop over the leaves: the plans that can be made. -/
def buildPlans (output : Uint256) (w : W) :
    List ((List UInt8 × Int) × ControlBlocks) → SignatureData →
      List P2MRScriptSigningPlan × SignatureData
  | [], sigdata => ([], sigdata)
  | ((script, leaf_ver), control_blocks) :: leaves, sigdata =>
    match findValidP2MRControlBlock C control_blocks script leaf_ver output with
    | none => buildPlans output w leaves sigdata
    | some control_block =>
      let (plan, sigdata) := buildP2MRScriptSigningPlan C provider creator sigdata w leaf_ver script
        control_block
      let (plans, sigdata) := buildPlans output w leaves sigdata
      (plan.toList ++ plans, sigdata)

/-- The complete plans are tried in the order of their witness sizes, up to the first that
succeeds. -/
def tryCompletePlans : List P2MRScriptSigningPlan → SignatureData → W →
    Option (List Valtype) × SignatureData × W
  | [], sigdata, w => (none, sigdata, w)
  | plan :: plans, sigdata, w =>
    let ((result, num_signed), sigdata, w) := signP2MRScript C provider creator plan sigdata w
    if num_signed < plan.threshold then tryCompletePlans plans sigdata w
    else (some (result ++ [plan.script, plan.control_block]), sigdata, w)

/-- The order of partial plans. -/
def partialPlanLE (a b : P2MRScriptSigningPlan) : Prop :=
  if a.missing_signatures ≠ b.missing_signatures then a.missing_signatures ≤ b.missing_signatures
  else if a.new_signatures ≠ b.new_signatures then a.new_signatures ≤ b.new_signatures
  else a.witness_size ≤ b.witness_size

instance : DecidableRel partialPlanLE := fun _ _ => inferInstanceAs (Decidable (ite _ _ _))

/-- `SignP2MR`: the witness, if the output can be signed. -/
def signP2MR (output : Uint256) (sigdata : SignatureData) (w : W) :
    Option (List Valtype) × SignatureData × W :=
  let sigdata := gatherP2MRSpendData provider output sigdata
  let (plans, sigdata) := buildPlans C provider creator output w sigdata.p2mr_spenddata.leaves sigdata
  if sigdata.invalid_p2mr_sigs ≠ [] then (none, sigdata, w)
  else
    let complete_plans := (plans.filter (·.complete)).insertionSort fun a b =>
      a.witness_size ≤ b.witness_size
    match tryCompletePlans C provider creator complete_plans sigdata w with
    | (some result, sigdata, w) => (some result, sigdata, w)
    | (none, sigdata, w) =>
      match (plans.filter (!·.complete)).insertionSort partialPlanLE with
      | [] => (none, sigdata, w)
      | plan :: _ =>
        let (_, sigdata, w) := signP2MRScript C provider creator plan sigdata w
        (none, sigdata, w)

/-- `SelectCompleteP2MRSigningPlan` -/
def selectCompleteP2MRSigningPlan (output : Uint256) (sigdata : SignatureData) (w : W) :
    Option P2MRScriptSigningPlan × SignatureData :=
  let sigdata := gatherP2MRSpendData provider output sigdata
  let (plans, sigdata) := buildPlans C provider creator output w sigdata.p2mr_spenddata.leaves sigdata
  if sigdata.invalid_p2mr_sigs ≠ [] then (none, sigdata)
  else (((plans.filter (·.complete)).insertionSort fun a b =>
    a.witness_size ≤ b.witness_size).head?, sigdata)

end Signing

end Qbit
