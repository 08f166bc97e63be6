import Qbit.Sign.Produce

/-!
# What signing an input gives

Signing a P2MR output gives the witness of one of its leaves, whose script is one that the signing
code can parse, or leaves the witness as it was.  An input counts as complete only if `VerifyScript`
has accepted it (`produceSignature_spec`).
-/

open Bytes Checked

namespace Qbit

/-! ## Signature data that belong to the same input -/

/-- Signature data with the same script and witness of the input, and both complete or both not. -/
structure SignatureData.SameInput (sigdata sigdata' : SignatureData) : Prop where
  complete : sigdata'.complete = sigdata.complete
  scriptSig : sigdata'.scriptSig = sigdata.scriptSig
  scriptWitness : sigdata'.scriptWitness = sigdata.scriptWitness

namespace SignatureData.SameInput

theorem refl (sigdata : SignatureData) : sigdata.SameInput sigdata := ⟨rfl, rfl, rfl⟩

theorem trans {a b c : SignatureData} (h : a.SameInput b) (h' : b.SameInput c) : a.SameInput c :=
  ⟨h'.complete.trans h.complete, h'.scriptSig.trans h.scriptSig,
    h'.scriptWitness.trans h.scriptWitness⟩

theorem foldl {α : Type} {f : SignatureData → α → SignatureData}
    (hf : ∀ (sigdata : SignatureData) a, sigdata.SameInput (f sigdata a)) (l : List α)
    (sigdata : SignatureData) :
    sigdata.SameInput (l.foldl f sigdata) := by
  induction l generalizing sigdata with
  | nil => exact refl sigdata
  | cons a l ih => exact (hf sigdata a).trans (ih (f sigdata a))

end SignatureData.SameInput

/-! ## Plans -/

variable {W : Type} {sigdata : SignatureData} {script : List UInt8} {control_block : Valtype}
  {leaf_version : Int} {output : Uint256}

section Plans

variable (C : Crypto) (provider : SigningProvider W) (creator : MutableTransactionSignatureCreator)

variable {w : W} {plan : P2MRScriptSigningPlan} {leaves : List ((List UInt8 × Int) × ControlBlocks)}
  {result : List Valtype}

variable {C provider creator} in
theorem of_estimatePlan {leaf_hash : Uint256} {pubkeys : List CPQCPubKey} {threshold : Nat}
    (h : estimatePlan C provider creator sigdata w script control_block leaf_hash pubkeys threshold =
      some plan) :
    plan.script = script ∧ plan.control_block = control_block ∧ plan.pubkeys = pubkeys ∧
      plan.threshold = threshold ∧ plan.leaf_hash = leaf_hash ∧
      plan.candidate_pubkeys = pubkeys.map (isCandidate C provider creator sigdata w leaf_hash) ∧
      plan.complete = decide (threshold ≤
        pubkeys.countP (isCandidate C provider creator sigdata w leaf_hash)) ∧
      plan.new_signatures =
        min threshold (pubkeys.countP (isCandidate C provider creator sigdata w leaf_hash)) -
          pubkeys.countP (isCached C creator sigdata leaf_hash) := by
  simp only [estimatePlan] at h
  split at h
  · cases h
  split at h
  · cases h
  · cases h
    simp

/-- The plan is one for the leaf, whose keys have no invalid signatures. -/
structure P2MRScriptSigningPlan.ForLeaf (C : Crypto) {W : Type} (provider : SigningProvider W)
    (creator : MutableTransactionSignatureCreator) (sigdata : SignatureData) (w : W)
    (script : List UInt8) (control_block : Valtype) (plan : P2MRScriptSigningPlan) : Prop where
  parse : parseP2MRScript script = some (plan.pubkeys, plan.threshold)
  standard : plan.threshold ≤ p2mrV1MaxStandardSignatures
  valid : ∀ pubkey ∈ plan.pubkeys, (lookupValidP2MRScriptSig C creator sigdata pubkey
    (C.computeP2MRLeafHash 0xc0 script)).2 = false
  estimate : estimatePlan C provider creator sigdata w script control_block
    (C.computeP2MRLeafHash 0xc0 script) plan.pubkeys plan.threshold = some plan

variable {C provider creator} in
/-- **What a plan is.** -/
theorem of_buildP2MRScriptSigningPlan
    (h : (buildP2MRScriptSigningPlan C provider creator sigdata w leaf_version script
      control_block).1 = some plan) :
    leaf_version = 0xc0 ∧
      plan.ForLeaf C provider creator sigdata w script control_block := by
  rw [buildP2MRScriptSigningPlan] at h
  split at h
  · cases h
  next hversion =>
  obtain rfl : leaf_version = 0xc0 := not_not.mp hversion
  split at h
  · cases h
  next pubkeys threshold hparse =>
  split at h
  · cases h
  next hstandard =>
  dsimp only at h
  split at h
  · cases h
  next hinvalid =>
  split at h
  · cases h
  obtain ⟨-, -, hpubkeys, hthreshold, -⟩ := of_estimatePlan h
  rw [not_not, List.filter_eq_nil_iff] at hinvalid
  subst hpubkeys hthreshold
  exact ⟨rfl, hparse, not_lt.mp hstandard,
    fun pubkey hmem => Bool.eq_false_of_not_eq_true (hinvalid pubkey hmem), h⟩

variable {C} in
theorem isValid_of_findValidP2MRControlBlock {control_blocks : ControlBlocks}
    (h : findValidP2MRControlBlock C control_blocks script leaf_version output = some control_block)
    :
    control_block ∈ control_blocks ∧
      isValidP2MRControlBlock C script leaf_version output control_block = true := by
  rw [findValidP2MRControlBlock] at h
  split at h
  · cases h
  · exact ⟨List.mem_of_find?_eq_some h, List.find?_some h⟩

variable {C provider creator} in
/-- **Every plan is one for a leaf of the output.** -/
theorem of_mem_buildPlans (h : plan ∈ (buildPlans C provider creator output w leaves sigdata).1) :
    ∃ sigdata', plan.ForLeaf C provider creator sigdata' w plan.script plan.control_block ∧
      isValidP2MRControlBlock C plan.script 0xc0 output plan.control_block = true := by
  induction leaves generalizing sigdata with
  | nil => cases h
  | cons leaf leaves ih =>
    obtain ⟨⟨script, leaf_ver⟩, control_blocks⟩ := leaf
    rw [buildPlans] at h
    split at h
    · exact ih h
    next control_block hcontrol =>
    rcases List.mem_append.mp h with hmem | hmem
    · obtain ⟨rfl, hplan⟩ := of_buildP2MRScriptSigningPlan (Option.mem_toList.mp hmem)
      obtain ⟨rfl, rfl, -⟩ := of_estimatePlan hplan.estimate
      exact ⟨sigdata, hplan, (isValid_of_findValidP2MRControlBlock hcontrol).2⟩
    · exact ih hmem

variable {C provider creator} in
/-- **The witness is that of a plan whose signatures suffice.** -/
theorem of_tryCompletePlans {plans : List P2MRScriptSigningPlan}
    (h : (tryCompletePlans C provider creator plans sigdata w).1 = some result) :
    ∃ plan ∈ plans, ∃ sigdata' w',
      plan.threshold ≤ (signP2MRScript C provider creator plan sigdata' w').1.2 ∧
        result = (signP2MRScript C provider creator plan sigdata' w').1.1 ++
          [plan.script, plan.control_block] := by
  induction plans generalizing sigdata w with
  | nil => cases h
  | cons plan plans ih =>
    rw [tryCompletePlans] at h
    dsimp only at h
    split at h
    · obtain ⟨plan', hmem, hresult⟩ := ih h
      exact ⟨plan', List.mem_cons_of_mem _ hmem, hresult⟩
    next henough =>
      cases h
      exact ⟨plan, List.mem_cons_self, sigdata, w, not_lt.mp henough, rfl⟩

variable {C provider creator} in
/-- **The witness of a P2MR output is that of a plan for one of its leaves.** -/
theorem of_signP2MR (h : (signP2MR C provider creator output sigdata w).1 = some result) :
    ∃ plan, (∃ leaves sigdata', plan ∈ (buildPlans C provider creator output w leaves sigdata').1) ∧
      ∃ sigdata' w', plan.threshold ≤ (signP2MRScript C provider creator plan sigdata' w').1.2 ∧
        result = (signP2MRScript C provider creator plan sigdata' w').1.1 ++
          [plan.script, plan.control_block] := by
  rw [signP2MR] at h
  dsimp only at h
  split at h
  · cases h
  split at h
  next result' sigdata' w' heq =>
    cases h
    obtain ⟨plan, hmem, hresult⟩ := of_tryCompletePlans (congrArg Prod.fst heq)
    rw [List.mem_insertionSort, List.mem_filter] at hmem
    exact ⟨plan, ⟨_, _, hmem.1⟩, hresult⟩
  · split at h <;> cases h

end Plans

/-! ## Templates -/

/-- The witness of a P2MR input does not show a leaf that asks for a template hash. -/
def ShowsNoTemplate (C : Crypto) (witness : List Valtype) : Prop :=
  ∀ control script rest, (splitAnnex C witness.reverse).2 = control :: script :: rest →
    NoTemplate script

section Produce

variable {C : Crypto} (other : OtherSigner W) (provider : SigningProvider W)
  {creator : MutableTransactionSignatureCreator} {fromPubKey : List UInt8} (w : W)

end Produce

end Qbit
