import Qbit.Script.TwoRuns
import Qbit.Script.Verify

/-!
# The validation budget

An input starts with a validation weight that grows with its serialized witness.  Every non-empty
signature is charged against it before anything else is done with the signature, and a script that
cannot pay is invalid.  So the PQC verifications of an accepted input are paid for by its witness.

`Affordable` is the invariant of the interpreter: what is left is not negative, and what is left and
the cost of the verifications made so far do not exceed the initial budget.  Scripts outside
Tapscript and P2MR have no budget, and no opcode lets them verify.
-/

open Checked

namespace Qbit

open EvalContext

/-! ## The meter -/

/-- The part of the state that the budget is about. -/
def EvalState.meter (s : EvalState) : Option Int × List PQCVerification :=
  (s.execdata.m_validation_weight_left, s.pqcVerifications)

/-- What is left of the budget is not negative, and the rest has paid for the verifications.
Without a budget there are none. -/
def Affordable (cost budget : Int) (s : EvalState) : Prop :=
  match s.execdata.m_validation_weight_left with
  | none => s.pqcVerifications = []
  | some left => 0 ≤ left ∧ left + cost * s.pqcVerifications.length ≤ budget

variable {budget cost : Int} {s : EvalState} {execdata : ScriptExecutionData}

section Affordable

variable {t : EvalState}

theorem affordable_none (h : s.execdata.m_validation_weight_left = none) :
    Affordable cost budget s ↔ s.pqcVerifications = [] := by
  rw [Affordable, h]

theorem affordable_some {left : Int} (h : s.execdata.m_validation_weight_left = some left) :
    Affordable cost budget s ↔
      0 ≤ left ∧ left + cost * s.pqcVerifications.length ≤ budget := by
  rw [Affordable, h]

theorem Affordable.of_meter_eq (hs : Affordable cost budget s) (h : t.meter = s.meter) :
    Affordable cost budget t := by
  obtain ⟨hleft, hcalls⟩ := Prod.ext_iff.mp h
  simp only [EvalState.meter] at hleft hcalls
  rwa [Affordable, hleft, hcalls]

theorem Affordable.paid (hs : Affordable cost budget s) (hbudget : 0 ≤ budget) :
    cost * s.pqcVerifications.length ≤ budget := by
  cases hleft : s.execdata.m_validation_weight_left with
  | none =>
    rw [(affordable_none hleft).mp hs]
    simpa using hbudget
  | some left =>
    have := (affordable_some hleft).mp hs
    omega

theorem debitValidationWeight_ensures (price : Int) (exhausted : ScriptError) (s : EvalState) :
    Ensures (debitValidationWeight price exhausted s) fun t =>
      ∃ left, s.execdata.m_validation_weight_left = some left ∧ 0 ≤ left - price ∧
        t.execdata.m_validation_weight_left = some (left - price) ∧
        t.pqcVerifications = s.pqcVerifications := by
  refine .bind (fun left => Eval.init_eq_ok_iff.mp) fun left hleft => .guard fun h => .ok ?_
  exact ⟨left, hleft, by omega, rfl, rfl⟩

theorem debitValidationWeight_affordable {price : Int} (hprice : 0 ≤ price)
    (exhausted : ScriptError) (hs : Affordable cost budget s) :
    Ensures (debitValidationWeight price exhausted s) (Affordable cost budget) := by
  refine (debitValidationWeight_ensures price exhausted s).mono fun t ⟨left, hleft, h0, ht, hc⟩ => ?_
  rw [affordable_some hleft] at hs
  rw [affordable_some ht, hc]
  omega

end Affordable

/-! ## Checkers -/

/-- A checker that leaves the budget alone, and that verifies at most once for a signature. -/
structure BaseSignatureChecker.Frugal (checker : BaseSignatureChecker) : Prop where
  schnorr : ∀ sig pubkey sigversion execdata,
    Ensures (checker.checkSchnorrSignature sig pubkey sigversion execdata) fun execdata' =>
      execdata'.m_validation_weight_left = execdata.m_validation_weight_left
  pqc : ∀ sig pubkey sigversion execdata,
    Ensures (checker.checkPQCSignature sig pubkey sigversion execdata) fun r =>
      r.1.m_validation_weight_left = execdata.m_validation_weight_left ∧ r.2.length ≤ 1

/-- Signing an output changes nothing but its cached hash. -/
theorem eq_of_signedOutput {C : Crypto} {execdata' : ScriptExecutionData} {tx_to : CTransaction}
    {in_pos : Nat} {output_type : UInt8} {output : List UInt8}
    (h : signedOutput C execdata tx_to in_pos output_type = some (execdata', output)) :
    ∃ m_output_hash, execdata' = { execdata with m_output_hash } := by
  unfold signedOutput at h
  split_ifs at h
  · split at h <;> cases h
    exact ⟨_, rfl⟩
  · cases h
    exact ⟨execdata.m_output_hash, rfl⟩

theorem signatureHashSchnorrCommon_weight (C : Crypto) (execdata : ScriptExecutionData)
    (tx_to : CTransaction) (in_pos : Nat) (hash_type : UInt8) (sigversion : SigVersion)
    (cache : PrecomputedTransactionData) (tag : String) :
    Ensures (signatureHashSchnorrCommon C execdata tx_to in_pos hash_type sigversion cache tag)
      fun r => ∀ x, r = some x →
        x.2.m_validation_weight_left = execdata.m_validation_weight_left := by
  refine .bind_any fun _ => .bind_any fun _ => .bind_any fun _ =>
    .ite (fun _ => .ok (by simp)) fun _ => .bind_any fun annex =>
      .bind_any fun input => ?_
  rcases hout : signedOutput C execdata tx_to in_pos
      (if hash_type = sighashDefault then sighashAll else hash_type &&& sighashOutputMask)
      with _ | r
  · exact .ok (by simp)
  refine .bind_any fun leaf => .ok ?_
  rintro x ⟨⟩
  obtain ⟨m_output_hash, heq⟩ := eq_of_signedOutput hout
  rw [heq]

/-- **The checker of consensus code is frugal.** -/
theorem transactionSignatureChecker_frugal (C : Crypto) (txTo : CTransaction) (nIn : Nat)
    (amount : CAmount) (txdata : PrecomputedTransactionData) :
    (transactionSignatureChecker C txTo nIn amount txdata).Frugal where
  schnorr sig pubkey sigversion execdata := by
    refine .bind_any fun _ => .bind_any fun _ =>
      .guard fun _ => .bind_any fun ⟨sig, hashtype⟩ =>
        .bind (signatureHashSchnorrCommon_weight C execdata txTo nIn hashtype sigversion
          txdata "TapSighash") ?_
    rintro (_ | ⟨sighash, execdata'⟩) hweight
    · exact .error
    · exact .ite (fun _ => .ok (hweight _ rfl)) fun _ => .error
  pqc sig pubkey sigversion execdata := by
    refine .bind_any fun _ => .bind_any fun _ =>
      .guard fun _ => .bind_any fun ⟨sig, hashtype⟩ =>
        .bind (signatureHashSchnorrCommon_weight C execdata txTo nIn hashtype .p2mr
          txdata "P2MRSighash") ?_
    rintro (_ | ⟨sighash, execdata'⟩) hweight
    · exact .error
    · exact .ite (fun _ => .ok ⟨hweight _ rfl, le_refl 1⟩) fun _ => .error

/-! ## The signature opcodes -/

theorem pqcValidationCost_pos (flags : VerifyFlags) : 0 < pqcValidationCost flags := by
  rw [pqcValidationCost]
  split <;> decide

theorem eq_nil_of_paid {flags : VerifyFlags} {calls : List PQCVerification}
    (h : pqcValidationCost flags * calls.length ≤ 0) : calls = [] := by
  have hlength : (calls.length : Int) ≤ 0 :=
    Int.le_of_mul_le_mul_left (by simpa using h) (pqcValidationCost_pos flags)
  exact List.eq_nil_of_length_eq_zero (by omega)

variable {c : EvalContext}

theorem evalChecksigPreTapscript_state (c : EvalContext) (sig pubkey : Valtype) (s : EvalState) :
    Ensures (evalChecksigPreTapscript c sig pubkey s) fun r => r.2 = s := by
  exact .bind_any fun _ => .guard fun _ => .bind_any fun _ => .bind_any fun _ => .guard fun _ =>
    .ok rfl

/-- Setting the execution data to one with the same weight left keeps the state affordable. -/
theorem Affordable.with_execdata (hs : Affordable cost budget s)
    (h : execdata.m_validation_weight_left = s.execdata.m_validation_weight_left) :
    Affordable cost budget { s with execdata } := by
  refine hs.of_meter_eq ?_
  simp [EvalState.meter, h]

theorem evalChecksigTapscript_affordable (hc : c.checker.Frugal) (sig pubkey : Valtype)
    (hs : Affordable cost budget s) :
    Ensures (evalChecksigTapscript c sig pubkey s) fun r => Affordable cost budget r.2 := by
  refine .bind_any fun _ => .bind (P := Affordable cost budget) ?_ fun t ht => ?_
  · exact .ite (fun _ => debitValidationWeight_affordable (by decide) _ hs) fun _ => .ok hs
  · refine .guard fun _ => .ite (fun _ => ?_) fun _ =>
      .guard fun _ => .ok ht
    refine .ite (fun _ => ?_) fun _ => .ok ht
    exact .bind (hc.schnorr sig pubkey c.sigversion t.execdata) fun execdata hweight =>
      .ok (ht.with_execdata hweight)

/-- After the debit of a signature there is room for one verification. -/
theorem debitValidationWeight_room (exhausted : ScriptError) (hs : Affordable cost budget s) :
    Ensures (debitValidationWeight cost exhausted s) fun t =>
      ∀ (execdata : ScriptExecutionData) (calls : List PQCVerification),
        execdata.m_validation_weight_left = t.execdata.m_validation_weight_left →
        calls.length ≤ 1 → 0 ≤ cost →
        Affordable cost budget
          { t with execdata, pqcVerifications := t.pqcVerifications ++ calls } := by
  refine (debitValidationWeight_ensures cost exhausted s).mono ?_
  rintro t ⟨left, hleft, h0, ht, hc⟩ execdata calls hexec hcalls hcost
  rw [affordable_some hleft] at hs
  rw [ht] at hexec
  rw [affordable_some hexec]
  refine ⟨h0, ?_⟩
  have hpaid : cost * (calls.length : Int) ≤ cost * 1 :=
    Int.mul_le_mul_of_nonneg_left (by exact_mod_cast hcalls) hcost
  rw [List.length_append, hc, Nat.cast_add, mul_add]
  omega

/-- **Every PQC verification of a transaction signature is paid for before it is made.** -/
theorem evalChecksigP2MR_affordable (hc : c.checker.Frugal) (sig pubkey : Valtype)
    (hs : Affordable (pqcValidationCost c.flags) budget s) :
    Ensures (evalChecksigP2MR c sig pubkey s) fun r =>
      Affordable (pqcValidationCost c.flags) budget r.2 := by
  have hcost := pqcValidationCost_pos c.flags
  refine .bind_any fun _ => ?_
  rcases hsig : (!sig.isEmpty) with _ | _
  · exact .guard fun _ => .ite (fun _ => .ok hs) fun _ => .error
  refine .bind (debitValidationWeight_room _ hs) fun t ht => ?_
  refine .guard fun _ => .ite (fun _ => ?_) fun _ => .error
  exact .bind (hc.pqc sig pubkey c.sigversion t.execdata) fun r hr =>
    .ok (ht r.1 r.2 hr.1 hr.2 hcost.le)

/-- **Every PQC verification of a data signature is paid for before it is made.** -/
theorem evalCheckDataSigPQC_affordable (sig msg_hash pubkey : Valtype)
    (hs : Affordable (pqcValidationCost c.flags) budget s) :
    Ensures (evalCheckDataSigPQC c sig msg_hash pubkey s) fun r =>
      Affordable (pqcValidationCost c.flags) budget r.2 := by
  have hcost := pqcValidationCost_pos c.flags
  unfold evalCheckDataSigPQC
  rcases hsig : (!sig.isEmpty) with _ | _
  · exact .guard fun _ => .guard fun _ => .ok hs
  refine .bind (debitValidationWeight_room _ hs) fun t ht => ?_
  refine .guard fun _ => .guard fun _ => .ite (fun h => nomatch h) fun _ => .guard fun _ =>
    .ite (fun _ => ?_) fun _ => .error
  exact .ok (ht t.execdata [_] rfl (le_refl 1) hcost.le)

theorem evalChecksig_affordable (hc : c.checker.Frugal) (sig pubkey : Valtype)
    (hs : Affordable (pqcValidationCost c.flags) budget s) :
    Ensures (evalChecksig c sig pubkey s) fun r =>
      Affordable (pqcValidationCost c.flags) budget r.2 := by
  have hpre : Ensures (evalChecksigPreTapscript c sig pubkey s) fun r =>
      Affordable (pqcValidationCost c.flags) budget r.2 :=
    (evalChecksigPreTapscript_state c sig pubkey s).mono fun r hr => hr ▸ hs
  rw [evalChecksig]
  cases c.sigversion with
  | base => exact hpre
  | witnessV0 => exact hpre
  | tapscript => exact evalChecksigTapscript_affordable hc sig pubkey hs
  | p2mr => exact evalChecksigP2MR_affordable hc sig pubkey hs
  | taproot => exact .error

/-! ## The main loop -/

/-- A body that the budget survives. -/
def KeepsBudget (cost budget : Int) (body : OpBody) : Prop :=
  ∀ s, Affordable cost budget s → Ensures (body s) (Affordable cost budget)

theorem meter_checkmultisig (c : EvalContext) (opcode : UInt8) (s : EvalState) :
    Ensures (OpBody.checkmultisig c opcode s) fun t => t.meter = s.meter := by
  refine .guard fun _ => ?_
  rcases s.stack with _ | ⟨top, stack⟩
  · exact .error
  refine .bind_any fun keys => .guard fun _ => .guard fun _ => ?_
  rcases stack.drop (CScriptNum.getint keys).toNat with _ | ⟨top', stack'⟩
  · exact .error
  refine .bind_any fun sigs => .guard fun _ => ?_
  rcases stack'.drop (CScriptNum.getint sigs).toNat with _ | ⟨dummy, rest⟩
  · exact .error
  refine .bind_any fun _ => .bind_any fun fSuccess =>
    .guard fun _ => .guard fun _ => .ite (fun _ => .ite (fun _ => .ok rfl) fun _ => .error)
      fun _ => .ok rfl

/-- **The whole loop keeps the budget.** -/
theorem evalLoop_affordable (hc : c.checker.Frugal) (rounds : Nat) :
    KeepsBudget (pqcValidationCost c.flags) budget (evalLoop c rounds) := by
  have hruns : TwoRuns c c fun s t =>
      s = t ∧ Affordable (pqcValidationCost c.flags) budget s :=
    twoRuns_of_invariant (fun hs _ _ _ _ => hs.of_meter_eq rfl) (fun hs => .ok (hs.of_meter_eq rfl))
      (fun hs sig pubkey => evalChecksig_affordable hc sig pubkey hs)
      (fun hs sig msg_hash pubkey => evalCheckDataSigPQC_affordable sig msg_hash pubkey hs)
      fun opcode s hs => (meter_checkmultisig c opcode s).mono fun _ ht => hs.of_meter_eq ht
  intro s hs
  refine (hruns.evalLoop ?_ (fun _ => .rfl) rounds s s ⟨rfl, hs⟩).ensures
  rintro s _ ⟨rfl, hs⟩ pc opcode_pos
  exact ⟨rfl, hs.of_meter_eq rfl⟩

/-- **A script pays for its PQC verifications**, out of a budget that it may or may not have. -/
theorem evalScript_paid (hc : c.checker.Frugal) (stack : Stack) (script : List UInt8)
    {execdata : ScriptExecutionData} (hbudget : 0 ≤ budget)
    (hleft : execdata.m_validation_weight_left = none ∨
      execdata.m_validation_weight_left = some budget) :
    Ensures (evalScript c stack script execdata) fun s =>
      pqcValidationCost c.flags * s.pqcVerifications.length ≤ budget := by
  have hloop : KeepsBudget (pqcValidationCost c.flags) budget
      (evalLoop c script.length) := evalLoop_affordable hc _
  refine .bind_any fun _ => .guard fun _ => .bind (hloop _ ?_) fun s hs =>
    .guard fun _ => .ok (hs.paid hbudget)
  rcases hleft with hleft | hleft
  · rw [affordable_none hleft]
  · rw [affordable_some hleft]
    simp [hbudget]

theorem evalScript_of_no_budget (hc : c.checker.Frugal) (stack : Stack) (script : List UInt8)
    (hleft : execdata.m_validation_weight_left = none) :
    Ensures (evalScript c stack script execdata) fun s => s.pqcVerifications = [] := by
  exact (evalScript_paid hc stack script (le_refl 0) (.inl hleft)).mono fun s => eq_nil_of_paid

/-! ## Witness programs -/

theorem validationWeight_nonneg (witness : List Valtype) : 0 ≤ validationWeight witness := by
  have : 0 ≤ validationWeightOffset := by decide
  rw [validationWeight]
  omega

theorem ensures_no_calls (flags : VerifyFlags) (witness : List Valtype) :
    Ensures (.ok [] : Eval (List PQCVerification)) fun calls =>
      pqcValidationCost flags * calls.length ≤ validationWeight witness :=
  .ok (by simpa using validationWeight_nonneg witness)

variable {C : Crypto} {flags : VerifyFlags} {checker : BaseSignatureChecker}

section Witness

variable (hc : checker.Frugal)

include hc

theorem executeWitnessScript_paid (sigversion : SigVersion) (stack : Stack)
    (exec_script : List UInt8) {execdata : ScriptExecutionData} {budget : Int}
    (hbudget : 0 ≤ budget)
    (hleft : execdata.m_validation_weight_left = none ∨
      execdata.m_validation_weight_left = some budget) :
    Ensures (executeWitnessScript C flags checker sigversion stack exec_script execdata)
      fun calls => pqcValidationCost flags * calls.length ≤ budget := by
  refine .bind_any fun success => .ite (fun _ => .ok (by simpa using hbudget))
    fun _ => .guard fun _ => .guard fun _ => ?_
  refine .bind (evalScript_paid hc stack exec_script hbudget hleft) fun s hs => ?_
  split
  · exact .ite (fun _ => .ok hs) fun _ => .error
  · exact .error

theorem verifyWitnessV0_calls (stack : Stack) (program : Valtype) :
    Ensures (verifyWitnessV0 C flags checker stack program) fun calls => calls = [] := by
  have hexecute : ∀ stack exec_script,
      Ensures (executeWitnessScript C flags checker .witnessV0 stack exec_script {})
        fun calls => calls = [] := fun stack exec_script =>
    (executeWitnessScript_paid hc .witnessV0 stack exec_script (le_refl 0) (.inl rfl)).mono
      fun _ => eq_nil_of_paid
  refine .ite (fun _ => ?_) fun _ => .ite (fun _ => ?_) fun _ => .error
  · cases stack with
    | nil => exact .error
    | cons exec_script stack =>
      exact .guard fun _ => hexecute stack exec_script
  · exact .guard fun _ => hexecute stack _

variable (witness : List Valtype)

theorem verifyTaproot_paid (program : Valtype) :
    Ensures (verifyTaproot C flags checker witness program) fun calls =>
      pqcValidationCost flags * calls.length ≤ validationWeight witness := by
  have hweight := validationWeight_nonneg witness
  have hnone := ensures_no_calls flags witness
  refine .ite (fun _ => hnone) fun _ => ?_
  rcases splitAnnex C witness.reverse with ⟨annex, _ | ⟨control, _ | ⟨script, stack⟩⟩⟩
  · exact .error
  · exact .bind_any fun _ => hnone
  · refine .guard fun _ => .guard fun _ => .ite (fun _ => ?_) fun _ => .guard fun _ => hnone
    exact executeWitnessScript_paid hc .tapscript stack script hweight (.inr rfl)

/-- **The PQC verifications of a P2MR program are paid for by its witness.** -/
theorem verifyP2MR_paid (program : Valtype) :
    Ensures (verifyP2MR C flags checker witness program) fun calls =>
      pqcValidationCost flags * calls.length ≤ validationWeight witness := by
  have hweight := validationWeight_nonneg witness
  have hnone := ensures_no_calls flags witness
  refine .ite (fun _ => hnone) fun _ => ?_
  rcases splitAnnex C witness.reverse with ⟨annex, _ | ⟨control, _ | ⟨script, stack⟩⟩⟩
  · exact .error
  · exact .error
  · refine .guard fun _ => .guard fun _ => .guard fun _ => .ite (fun _ => ?_) fun _ =>
        .guard fun _ => hnone
    exact .bind_any fun _ =>
      executeWitnessScript_paid hc .p2mr stack script hweight (.inr rfl)

theorem verifyWitnessProgram_paid (witversion : Nat) (program : Valtype) (is_p2sh : Bool) :
    Ensures (verifyWitnessProgram C flags checker witness witversion program is_p2sh) fun calls =>
      pqcValidationCost flags * calls.length ≤ validationWeight witness := by
  have hnone := ensures_no_calls flags witness
  refine .ite (fun _ => ?_) fun _ => .ite
    (fun _ => verifyTaproot_paid hc witness program) fun _ => .ite
      (fun _ => verifyP2MR_paid hc witness program) fun _ => ?_
  · exact (verifyWitnessV0_calls hc witness.reverse program).mono fun calls hcalls => by
      simpa [hcalls] using validationWeight_nonneg witness
  · exact .ite (fun _ => hnone) fun _ => .guard fun _ => hnone

theorem verifyWitnessProgram_p2sh (witversion : Nat) (program : Valtype) :
    Ensures (verifyWitnessProgram C flags checker witness witversion program true) fun calls =>
      calls = [] := by
  refine .ite (fun _ => verifyWitnessV0_calls hc witness.reverse program) fun _ =>
    .ite (fun h => ?_) fun _ => .ite (fun h => ?_) fun _ => ?_
  · exact absurd h.2.2 (by decide)
  · exact absurd h.2.2 (by decide)
  · exact .ite (fun _ => .ok rfl) fun _ => .guard fun _ => .ok rfl

end Witness

/-! ## Whole inputs -/

section VerifyScript

variable (hc : checker.Frugal)

include hc

theorem evalBase_calls (stack : Stack) (script : List UInt8) :
    Ensures (evalBase C flags checker stack script) fun s => s.pqcVerifications = [] :=
  evalScript_of_no_budget hc stack script rfl

variable (witness : List Valtype)

theorem verifyIfWitnessProgram_paid (script : List UInt8) (is_p2sh clean : Bool)
    (malleated : ScriptError) {v : VerifyState} (hv : v.pqcVerifications = []) :
    Ensures (verifyIfWitnessProgram C flags checker witness script is_p2sh clean malleated v)
      fun w => pqcValidationCost flags * w.pqcVerifications.length ≤
        validationWeight witness := by
  refine .ite (fun _ => .ok ?_) fun _ => ?_
  · simpa [hv] using validationWeight_nonneg witness
  rcases isWitnessProgram script with _ | ⟨version, program⟩
  · exact .ok (by simpa [hv] using validationWeight_nonneg witness)
  · refine .guard fun _ => ?_
    exact .bind (verifyWitnessProgram_paid hc witness version program is_p2sh)
      fun calls hcalls => .ok (by simpa [hv] using hcalls)

theorem verifyP2SH_calls (scriptSig : List UInt8) (stackCopy : Stack) (v : VerifyState) :
    Ensures (verifyP2SH C flags checker witness scriptSig stackCopy v) fun w =>
      w.pqcVerifications = v.pqcVerifications := by
  refine .guard fun _ => ?_
  rcases stackCopy with _ | ⟨pubKey2, stack⟩
  · exact .error
  refine .bind (evalBase_calls hc stack pubKey2) fun s hs => .bind_any fun _ =>
    .ite (fun _ => .ok (by simp [hs])) fun _ => ?_
  rcases isWitnessProgram pubKey2 with _ | ⟨version, program⟩
  · exact .ok (by simp [hs])
  · refine .guard fun _ => ?_
    exact .bind (verifyWitnessProgram_p2sh hc witness version program)
      fun calls hcalls => .ok (by simp [hs, hcalls])

/-- **An accepted input has paid for its PQC verifications with its witness.** -/
theorem verifyScript_paid (scriptSig scriptPubKey : List UInt8) :
    Ensures (verifyScript C flags checker witness scriptSig scriptPubKey) fun calls =>
      pqcValidationCost flags * calls.length ≤ validationWeight witness := by
  refine .guard fun _ => ?_
  refine .bind (evalBase_calls hc [] scriptSig) fun s hs =>
    .bind (evalBase_calls hc s.stack scriptPubKey) fun t ht => .bind_any fun _ => ?_
  refine .bind (verifyIfWitnessProgram_paid hc witness scriptPubKey false _ _
    (by simp [hs, ht])) fun v hv => ?_
  refine .bind (P := fun w => w.pqcVerifications = v.pqcVerifications) ?_ fun w hw => ?_
  · exact .ite (fun _ => verifyP2SH_calls hc witness scriptSig s.stack v) fun _ => .ok rfl
  · exact .bind_any fun _ => .ok (by rwa [hw])

end VerifyScript

end Qbit
