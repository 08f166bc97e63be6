import Qbit.Script.Native
import Qbit.Script.TwoRuns

/-!
# More flags accept less

`VerifyScript` under two sets of flags, one contained in the other, on a native P2MR input.  Most
flags forbid something, and a few of them change what a run does: under `P2MR_LEGACY_VALIDATION_WEIGHT`
a signature costs more, and without the lock time flags their opcodes do nothing.

The two runs of the interpreter go side by side.  They agree in everything but the validation weight
that is left, of which the run under fewer flags always has at least as much: `Roomier`.  The
functions that check signatures keep it, so that the two runs are an instance of `TwoRuns`.
-/

open Checked

namespace Qbit

/-! ## Checkers

A checker is not told the flags.  It is given the execution data, which has the validation weight
left in it, and that depends on the flags. -/

/-- The execution data with another validation weight left. -/
def ScriptExecutionData.withWeight (execdata : ScriptExecutionData) (weight : Int) :
    ScriptExecutionData :=
  { execdata with m_validation_weight_left := some weight }

/-- A checker that neither looks at the validation weight left nor changes it. -/
structure BaseSignatureChecker.FlagIndependent (checker : BaseSignatureChecker) : Prop where
  pqc : ∀ sig pubkey sigversion execdata weight,
    checker.checkPQCSignature sig pubkey sigversion (execdata.withWeight weight) =
      (checker.checkPQCSignature sig pubkey sigversion execdata).map
        fun r => (r.1.withWeight weight, r.2)

variable {execdata : ScriptExecutionData}

theorem BaseSignatureChecker.FlagIndependent.follows {checker : BaseSignatureChecker}
    (h : checker.FlagIndependent) (sig pubkey : Valtype) (sigversion : SigVersion) {left : Int}
    (hleft : execdata.m_validation_weight_left = some left) (weight : Int) :
    Follows (checker.checkPQCSignature sig pubkey sigversion execdata)
      (checker.checkPQCSignature sig pubkey sigversion (execdata.withWeight weight)) fun r r' =>
        r.1.m_validation_weight_left = some left ∧ r' = (r.1.withWeight weight, r.2) := by
  intro r hr
  rw [h.pqc, hr]
  refine ⟨_, rfl, ?_, rfl⟩
  -- The data is itself with the weight that it has.
  have hself : execdata.withWeight left = execdata := by
    rw [ScriptExecutionData.withWeight, ← hleft]
  have hr' := h.pqc sig pubkey sigversion execdata left
  rw [hself, hr] at hr'
  have hfixed := Except.ok.inj hr'
  exact congrArg (fun r => r.1.m_validation_weight_left) hfixed

/-! ## Two states -/

/-- The state with another validation weight left. -/
def EvalState.withWeight (s : EvalState) (weight : Int) : EvalState :=
  { s with execdata := s.execdata.withWeight weight }

/-- `t` is `s` with at least as much validation weight left. -/
def Roomier (s t : EvalState) : Prop :=
  ∃ left weight, s.execdata.m_validation_weight_left = some left ∧ left ≤ weight ∧
    t = s.withWeight weight

variable {s t : EvalState}

theorem Roomier.map (h : Roomier s t) {f : EvalState → EvalState}
    (hf : ∀ s weight, f (s.withWeight weight) = (f s).withWeight weight)
    (hleft : (f s).execdata.m_validation_weight_left = s.execdata.m_validation_weight_left) :
    Roomier (f s) (f t) := by
  obtain ⟨left, weight, hs, hle, rfl⟩ := h
  exact ⟨left, weight, hleft.trans hs, hle, hf s weight⟩

/-- A body whose second run follows the first, from a state with more room. -/
def FollowsBody (body body' : OpBody) : Prop :=
  ∀ s t, Roomier s t → Follows (body s) (body' t) Roomier

theorem debitValidationWeight_follows (h : Roomier s t) {cost cost' : Int} (hcost : cost' ≤ cost)
    (exhausted : ScriptError) :
    Follows (debitValidationWeight cost exhausted s) (debitValidationWeight cost' exhausted t)
      Roomier := by
  obtain ⟨left, weight, hleft, hle, rfl⟩ := h
  have hinit : Eval.init (s.withWeight weight).execdata.m_validation_weight_left = .ok weight := rfl
  rw [debitValidationWeight, debitValidationWeight, hleft, hinit]
  refine .guard (fun h => by omega) fun _ => .ok ?_
  exact ⟨left - cost, weight - cost', rfl, by omega, rfl⟩

/-! ## The opcodes -/

/-- The context of a P2MR leaf. -/
def p2mrContext (C : Crypto) (checker : BaseSignatureChecker) (flags : VerifyFlags) : EvalContext where
  crypto := C
  flags := flags
  checker := checker
  sigversion := .p2mr

variable {checker : BaseSignatureChecker} {F G : VerifyFlags}

section Opcodes

variable {C : Crypto} (hFG : F ⊆ G)

include hFG

theorem checktemplateverify_follows (stack : Stack) :
    Follows (StackOp.checktemplateverify (p2mrContext C checker G) stack)
      (StackOp.checktemplateverify (p2mrContext C checker F) stack) Eq := by
  cases stack with
  | nil => exact .error
  | cons expected rest =>
    exact .ite (fun _ => .rfl) fun _ => .guard (@hFG _) fun _ => .ok rfl

theorem pqcValidationCost_le :
    EvalContext.pqcValidationCost F ≤ EvalContext.pqcValidationCost G := by
  rw [EvalContext.pqcValidationCost, EvalContext.pqcValidationCost]
  by_cases hF : VerifyFlag.p2mrLegacyValidationWeight ∈ F
  · rw [if_pos hF, if_pos (hFG hF)]
  · rw [if_neg hF]
    split <;> decide

theorem pay_follows (h : Roomier s t) (success : Bool) :
    Follows
      (if success then debitValidationWeight (EvalContext.pqcValidationCost G) .p2mrValidationWeight s
        else return s)
      (if success then debitValidationWeight (EvalContext.pqcValidationCost F) .p2mrValidationWeight t
        else return t) Roomier :=
  .ite (fun _ => debitValidationWeight_follows h (pqcValidationCost_le hFG) _) fun _ => .ok h

theorem evalChecksigP2MR_follows (hchecker : checker.FlagIndependent) (h : Roomier s t)
    (sig pubkey : Valtype) :
    Follows (evalChecksigP2MR (p2mrContext C checker G) sig pubkey s)
      (evalChecksigP2MR (p2mrContext C checker F) sig pubkey t) (VerdictsAgree Roomier) := by
  refine .bind_same .rfl fun _ => .bind (pay_follows hFG h _) fun u v huv => ?_
  refine .ite (fun _ => .error) fun _ => .ite (fun _ => ?_) fun _ => .error
  refine .ite (fun _ => ?_) fun _ => .ok ⟨rfl, huv⟩
  obtain ⟨left, weight, hleft, hle, rfl⟩ := huv
  refine .bind (hchecker.follows sig pubkey .p2mr hleft weight) ?_
  rintro r _ ⟨hr, rfl⟩
  exact .ok ⟨rfl, left, weight, hr, hle, rfl⟩

theorem evalCheckDataSigPQC_follows (h : Roomier s t) (sig msg_hash pubkey : Valtype) :
    Follows (evalCheckDataSigPQC (p2mrContext C checker G) sig msg_hash pubkey s)
      (evalCheckDataSigPQC (p2mrContext C checker F) sig msg_hash pubkey t) (VerdictsAgree Roomier) := by
  refine .bind (pay_follows hFG h _) fun u v huv => ?_
  refine .ite (fun _ => .error) fun _ => .ite (fun _ => .error) fun _ =>
    .ite (fun _ => .ok ⟨rfl, huv⟩) fun _ => .ite (fun _ => .error)
      fun _ => .ite (fun _ => .ok ⟨rfl, ?_⟩) fun _ => .error
  exact huv.map (f := fun s => { s with pqcVerifications := s.pqcVerifications ++ [_] })
    (fun _ _ => rfl) rfl

/-! ## The main loop -/

theorem twoRuns_of_subset (hchecker : checker.FlagIndependent) :
    TwoRuns (p2mrContext C checker G) (p2mrContext C checker F) Roomier where
  crypto := rfl
  flags := hFG
  sigversion := rfl
  lockTime := rfl
  sequence := rfl
  same := by
    rintro s _ ⟨left, weight, -, -, rfl⟩
    exact ⟨_, rfl⟩
  update hst stack altstack vfExec nOpCount :=
    hst.map (f := fun s => { s with stack, altstack, vfExec, nOpCount }) (fun _ _ => rfl) rfl
  codeseparator := by
    rintro s _ ⟨left, weight, hleft, hle, rfl⟩
    exact .ok ⟨left, weight, hleft, hle, rfl⟩
  evalChecksig hst := evalChecksigP2MR_follows hFG hchecker hst
  evalCheckDataSigPQC hst := evalCheckDataSigPQC_follows hFG hst
  -- Not available in P2MR.
  multisig _ _ _ _ := .error

/-- **The whole loop under fewer flags follows the loop under more.** -/
theorem evalLoop_follows (hchecker : checker.FlagIndependent) (rounds : Nat) :
    FollowsBody (evalLoop (p2mrContext C checker G) rounds)
      (evalLoop (p2mrContext C checker F) rounds) := by
  refine (twoRuns_of_subset hFG hchecker).evalLoop (fun hst pc opcode_pos => ?_)
    (checktemplateverify_follows hFG) rounds
  exact hst.map (f := fun s => { s with pc, opcode_pos }) (fun _ _ => rfl) rfl

end Opcodes

/-! ## Witness programs and whole inputs -/

section Verify

variable {C : Crypto} (hFG : F ⊆ G) (hchecker : checker.FlagIndependent)

include hFG

/-- An `OP_SUCCESSx` that is not discouraged under more flags is not discouraged under fewer. -/
theorem scanOpSuccess_follows (script : List UInt8) :
    Follows (scanOpSuccess G .p2mr script) (scanOpSuccess F .p2mr script) Eq :=
  .ite (fun _ => .guard (@hFG _) fun _ => .ok rfl) fun _ => .rfl

include hchecker

theorem evalScript_follows (stack : Stack) (script : List UInt8) {left : Int}
    (hleft : execdata.m_validation_weight_left = some left) :
    Follows (evalScript (p2mrContext C checker G) stack script execdata)
      (evalScript (p2mrContext C checker F) stack script execdata) Roomier := by
  refine .bind_same .rfl fun _ => .ite (fun _ => .error) fun _ => .bind
      (evalLoop_follows hFG hchecker _ _ _ ⟨left, left, hleft, le_rfl, ?_⟩) fun u v huv => ?_
  · rw [EvalState.withWeight, ScriptExecutionData.withWeight, ← hleft]
  · obtain ⟨left, weight, hleft, hle, rfl⟩ := huv
    exact .ite (fun _ => .error) fun _ => .ok ⟨left, weight, hleft, hle, rfl⟩

theorem executeWitnessScript_follows (stack : Stack) (exec_script : List UInt8) {left : Int}
    (hleft : execdata.m_validation_weight_left = some left) :
    Follows (executeWitnessScript C G checker .p2mr stack exec_script execdata)
      (executeWitnessScript C F checker .p2mr stack exec_script execdata) Eq := by
  refine .bind_same (scanOpSuccess_follows hFG exec_script) fun success => .ite (fun _ => .ok rfl)
    fun _ => .ite (fun _ => .error) fun _ => .ite (fun _ => .error) fun _ => .bind
      (evalScript_follows hFG hchecker stack exec_script hleft) fun u v huv => ?_
  obtain ⟨left, weight, -, -, rfl⟩ := huv
  exact .rfl

/-- **A P2MR witness that is accepted under more flags is accepted under fewer.** -/
theorem verifyP2MR_follows (witness : List Valtype) (program : Valtype) :
    Follows (verifyP2MR C G checker witness program) (verifyP2MR C F checker witness program)
      fun _ _ => True := by
  by_cases hrules : VerifyFlag.p2mrRules ∈ F
  · rw [verifyP2MR, verifyP2MR, if_neg (not_not_intro (hFG hrules)), if_neg (not_not_intro hrules)]
    obtain ⟨annex, stack⟩ := splitAnnex C witness.reverse
    match stack with
    | [] => exact .error
    | [_] => exact .error
    | control :: script :: stack =>
      refine .ite (fun _ => .error) fun _ => .ite (fun _ => .error)
        fun _ => .ite (fun _ => .error) fun _ => .ite (fun _ => ?_) fun _ =>
          .guard (@hFG _) fun _ => .ok trivial
      exact .bind_same .rfl fun _ =>
        (executeWitnessScript_follows hFG hchecker stack script rfl).mono fun _ _ _ => trivial
  · intro calls _
    exact ⟨[], if_pos hrules, trivial⟩

/-- **A native P2MR input that is accepted under more flags is accepted under fewer.** -/
theorem verifyScript_mono (hp2sh : .p2sh ∈ F) (hwitness : .witness ∈ F) (witness : List Valtype)
    (scriptSig : List UInt8) {program : Valtype} (hlen : program.length = 32)
    (h : ∃ calls, verifyScript C G checker witness scriptSig (p2mrScript program) = .ok calls) :
    ∃ calls, verifyScript C F checker witness scriptSig (p2mrScript program) = .ok calls := by
  obtain ⟨calls, hcalls⟩ := h
  obtain ⟨hempty, htrue, hG⟩ := (verifyScript_native C G checker witness scriptSig hlen (hFG hp2sh)
    (hFG hwitness) calls).mp hcalls
  obtain ⟨calls', hF, -⟩ := verifyP2MR_follows hFG hchecker witness program calls hG
  exact ⟨calls', (verifyScript_native C F checker witness scriptSig hlen hp2sh hwitness calls').mpr
    ⟨hempty, htrue, hF⟩⟩

end Verify

/-! ## The checker of consensus code -/

section Transaction

variable (C : Crypto) (txTo : CTransaction) (nIn : Nat) (txdata : PrecomputedTransactionData)

theorem signedOutput_withWeight (execdata : ScriptExecutionData) (output_type : UInt8)
    (weight : Int) :
    signedOutput C (execdata.withWeight weight) txTo nIn output_type =
      (signedOutput C execdata txTo nIn output_type).map fun r => (r.1.withWeight weight, r.2) := by
  rw [signedOutput, signedOutput]
  split
  · cases txTo.vout[nIn]? with
    | none => rfl
    | some txout => rfl
  · rfl

/-- The signature hash does not commit to the validation weight left. -/
theorem signatureHashSchnorrCommon_withWeight (execdata : ScriptExecutionData) (hash_type : UInt8)
    (sigversion : SigVersion) (tag : String) (weight : Int) :
    signatureHashSchnorrCommon C (execdata.withWeight weight) txTo nIn hash_type sigversion txdata
        tag =
      (signatureHashSchnorrCommon C execdata txTo nIn hash_type sigversion txdata tag).map
        (Option.map fun r => (r.1, r.2.withWeight weight)) := by
  simp only [signatureHashSchnorrCommon, map_bind, signedOutput_withWeight]
  refine congrArg _ (funext fun _ => congrArg _ (funext fun _ => congrArg _ (funext fun _ => ?_)))
  split
  · rfl
  simp only [map_bind]
  refine congrArg _ (funext fun annex => congrArg _ (funext fun input => ?_))
  cases signedOutput C execdata txTo nIn _ with
  | none => rfl
  | some r =>
    simp only [map_bind]
    rfl

theorem transactionSignatureChecker_flagIndependent (amount : CAmount) :
    (transactionSignatureChecker C txTo nIn amount txdata).FlagIndependent := by
  constructor
  intro sig pubkey sigversion execdata weight
  simp only [transactionSignatureChecker, TransactionSignatureChecker.checkPQCSignature, map_bind]
  refine congrArg _ (funext fun _ => congrArg _ (funext fun _ => ?_))
  split
  · rfl
  simp only [map_bind, signatureHashSchnorrCommon_withWeight]
  refine congrArg _ (funext fun r => ?_)
  rcases signatureHashSchnorrCommon C execdata txTo nIn r.2 .p2mr txdata "P2MRSighash"
      with e | answer
  · rfl
  cases answer with
  | none => rfl
  | some s =>
    simp only [Except.map, ok_bind, Option.map_some]
    split <;> rfl

end Transaction

end Qbit
