import Qbit.Script.SignedWitness

/-!
# Two checkers

A script that is verified twice, with different checkers.  A wallet verifies an input while the
transaction is still being signed, and sometimes without the data of the spent outputs; a node
verifies it later, with the whole transaction.

`BaseSignatureChecker.Extends` says that the second checker accepts what the first one accepts, with
the same answers.  Then a script that succeeds with the first succeeds with the second:
`verifyScript_extends`.  Template hashes are apart, since they depend on the other inputs' scripts.
-/

open Bytes Checked

namespace Qbit

/-- What `checker` accepts, `checker'` accepts with the same answer. -/
structure BaseSignatureChecker.Extends (checker' checker : BaseSignatureChecker) : Prop where
  ecdsa : checker'.checkECDSASignature = checker.checkECDSASignature
  schnorr : ∀ sig pubkey sigversion execdata,
    Follows (checker.checkSchnorrSignature sig pubkey sigversion execdata)
      (checker'.checkSchnorrSignature sig pubkey sigversion execdata) Eq
  pqc : ∀ sig pubkey sigversion execdata,
    Follows (checker.checkPQCSignature sig pubkey sigversion execdata)
      (checker'.checkPQCSignature sig pubkey sigversion execdata) Eq
  lockTime : checker'.checkLockTime = checker.checkLockTime
  sequence : checker'.checkSequence = checker.checkSequence

/-- The template hashes that `checker` accepts are accepted by `checker'`. -/
def BaseSignatureChecker.ExtendsTemplates (checker' checker : BaseSignatureChecker) : Prop :=
  ∀ expected, Follows (checker.checkTemplateVerifyHash expected)
    (checker'.checkTemplateVerifyHash expected) Eq

/-- Only P2MR scripts can ask for template hashes. -/
def EvalContext.TemplatesOk (c : EvalContext) (checker' : BaseSignatureChecker) : Prop :=
  c.sigversion = .p2mr → checker'.ExtendsTemplates c.checker

/-- The script asks for no template hash. -/
def NoTemplate (script : List UInt8) : Prop := AllOps (· ≠ opChecktemplateverify) script

def EvalContext.withChecker (c : EvalContext) (checker : BaseSignatureChecker) : EvalContext :=
  { c with checker }

section Opcodes

variable {c : EvalContext} {checker' : BaseSignatureChecker} (h : checker'.Extends c.checker)

/-! ## The opcodes that ask the checker -/

include h

variable (sig pubkey : Valtype) (s : EvalState)

theorem evalChecksigPreTapscript_same :
    evalChecksigPreTapscript (c.withChecker checker') sig pubkey s =
      evalChecksigPreTapscript c sig pubkey s := by
  have hecdsa : (c.withChecker checker').checker.checkECDSASignature =
    c.checker.checkECDSASignature := h.ecdsa
  rw [evalChecksigPreTapscript, evalChecksigPreTapscript, hecdsa]
  rfl

theorem evalChecksigTapscript_same :
    Follows (evalChecksigTapscript c sig pubkey s)
      (evalChecksigTapscript (c.withChecker checker') sig pubkey s) Eq := by
  refine .bind_same .rfl fun _ => .bind_same .rfl fun t => ?_
  refine .ite (fun _ => .error) fun _ => .ite (fun _ => ?_) fun _ =>
    .refl fun _ => rfl
  exact .ite (fun _ => .bind_same (h.schnorr sig pubkey c.sigversion t.execdata) fun _ => .ok rfl)
    fun _ => .ok rfl

theorem evalChecksigP2MR_same :
    Follows (evalChecksigP2MR c sig pubkey s)
      (evalChecksigP2MR (c.withChecker checker') sig pubkey s) Eq := by
  refine .bind_same .rfl fun _ => .bind_same .rfl fun t => ?_
  refine .ite (fun _ => .error) fun _ => .ite (fun _ => ?_) fun _ => .error
  exact .ite (fun _ => .bind_same (h.pqc sig pubkey c.sigversion t.execdata) fun _ => .ok rfl)
    fun _ => .ok rfl

theorem evalChecksig_same :
    Follows (evalChecksig c sig pubkey s) (evalChecksig (c.withChecker checker') sig pubkey s)
      Eq := by
  have hversion : (c.withChecker checker').sigversion = c.sigversion := rfl
  rw [evalChecksig, evalChecksig, hversion]
  cases c.sigversion with
  | base => exact .of_eq (evalChecksigPreTapscript_same h sig pubkey s).symm
  | witnessV0 => exact .of_eq (evalChecksigPreTapscript_same h sig pubkey s).symm
  | tapscript => exact evalChecksigTapscript_same h sig pubkey s
  | p2mr => exact evalChecksigP2MR_same h sig pubkey s
  | taproot => exact .error

theorem checkmultisig_same (opcode : UInt8) :
    OpBody.checkmultisig (c.withChecker checker') opcode = OpBody.checkmultisig c opcode := by
  have hloop : OpBody.checkmultisigLoop (c.withChecker checker') = OpBody.checkmultisigLoop c := by
    funext scriptCode keys
    induction keys with
    | nil => funext sigs; cases sigs <;> rfl
    | cons key keys ih =>
      funext sigs
      rcases sigs with _ | ⟨sig, sigs⟩
      · rfl
      have hecdsa : (c.withChecker checker').checker.checkECDSASignature =
        c.checker.checkECDSASignature := h.ecdsa
      rw [OpBody.checkmultisigLoop, OpBody.checkmultisigLoop, ih, hecdsa]
      rfl
  funext s
  rw [OpBody.checkmultisig, OpBody.checkmultisig, hloop]
  rfl

omit h in
theorem checktemplateverify_same (htemplates : c.TemplatesOk checker') (stack : Stack) :
    Follows (StackOp.checktemplateverify c stack)
      (StackOp.checktemplateverify (c.withChecker checker') stack) Eq := by
  refine .ite (fun _ => .error) fun hversion => ?_
  cases stack with
  | nil => exact .error
  | cons expected rest =>
    exact .ite (fun _ => .bind_same (htemplates (not_not.mp hversion) expected) fun _ => .ok rfl)
      fun _ => .rfl

/-! ## The main loop -/

theorem twoRuns_of_extends : TwoRuns c (c.withChecker checker') Eq where
  crypto := rfl
  flags := Finset.Subset.refl _
  sigversion := rfl
  lockTime := h.lockTime
  sequence := h.sequence
  same := by
    rintro s _ rfl
    exact ⟨s.execdata, rfl⟩
  update := by
    rintro s _ rfl stack altstack vfExec nOpCount
    rfl
  codeseparator := by
    rintro s _ rfl
    exact .ok rfl
  evalChecksig := by
    rintro s _ rfl sig pubkey
    exact (evalChecksig_same h sig pubkey s).mono fun _ _ heq => heq ▸ ⟨rfl, rfl⟩
  evalCheckDataSigPQC := by
    rintro s _ rfl sig msg_hash pubkey
    exact .refl fun _ => ⟨rfl, rfl⟩
  multisig := by
    rintro opcode s _ rfl
    rw [checkmultisig_same h]
    exact .refl fun _ => rfl

variable {s : EvalState}

theorem step_same (htemplate : c.TemplatesOk checker' ∨ NoTemplate s.pc) :
    Follows (step c s) (step (c.withChecker checker') s) Eq := by
  refine (twoRuns_of_extends h).step ?_ rfl fun data rest hop => ?_
  · simp
  · refine checktemplateverify_same (htemplate.resolve_right fun hno => ?_)
    exact hno [] opChecktemplateverify rest (.cons hop (.nil rest)) rfl

omit h in
/-- What is left of the script after a round asks for no template hash either. -/
theorem noTemplate_of_step {t : EvalState} (hversion : c.sigversion = .p2mr)
    (hstep : step c s = .ok t) (hno : NoTemplate s.pc) : NoTemplate t.pc := by
  have hc : c = p2mrContext c.crypto c.checker c.flags := by
    rw [p2mrContext, ← hversion]
  rw [hc] at hstep
  obtain ⟨opcode, data, hop⟩ := step_reads s t hstep
  exact fun ops op rest hdecodes => hno (opcode :: ops) op rest (.cons hop hdecodes)

/-- **The loop follows**, round by round. -/
theorem evalLoop_same (rounds : Nat) (htemplate : c.TemplatesOk checker' ∨ NoTemplate s.pc) :
    Follows (evalLoop c rounds s) (evalLoop (c.withChecker checker') rounds s) Eq := by
  induction rounds generalizing s with
  | zero => exact .ok rfl
  | succ rounds ih =>
    refine .ite (fun _ => .ok rfl) fun _ => ?_
    intro r hr
    obtain ⟨t, hstep, hrest⟩ := bind_eq_ok_iff.mp hr
    obtain ⟨_, hstep', rfl⟩ := step_same h htemplate t hstep
    have htemplate' : c.TemplatesOk checker' ∨ NoTemplate t.pc := by
      by_cases hversion : c.sigversion = .p2mr
      · exact htemplate.imp id (noTemplate_of_step hversion hstep)
      · exact Or.inl fun hp2mr => absurd hp2mr hversion
    obtain ⟨r', hr', rfl⟩ := ih htemplate' r hrest
    exact ⟨r, bind_eq_ok_iff.mpr ⟨t, hstep', hr'⟩, rfl⟩

theorem evalScript_same (stack : Stack) (script : List UInt8) (execdata : ScriptExecutionData)
    (htemplate : c.TemplatesOk checker' ∨ NoTemplate script) :
    Follows (evalScript c stack script execdata)
      (evalScript (c.withChecker checker') stack script execdata) Eq := by
  exact .bind_same .rfl fun _ => .ite (fun _ => .error) fun _ =>
    .bind_same (evalLoop_same h _ htemplate) fun _ => .rfl

end Opcodes

/-! ## Witness programs and whole inputs -/

/-- What a witness has to satisfy: it shows no leaf that asks for a template hash, or template
hashes are accepted again. -/
def TemplatesAgain (C : Crypto) (checker checker' : BaseSignatureChecker) (witness : List Valtype) :
    Prop :=
  checker'.ExtendsTemplates checker ∨ ∀ control script rest,
    (splitAnnex C witness.reverse).2 = control :: script :: rest → NoTemplate script

section Verify

variable {C : Crypto} {flags : VerifyFlags} {checker checker' : BaseSignatureChecker}
  (h : checker'.Extends checker)

include h

theorem executeWitnessScript_same (sigversion : SigVersion) (stack : Stack)
    (exec_script : List UInt8) (execdata : ScriptExecutionData)
    (htemplate : sigversion = .p2mr → checker'.ExtendsTemplates checker ∨ NoTemplate exec_script) :
    Follows (executeWitnessScript C flags checker sigversion stack exec_script execdata)
      (executeWitnessScript C flags checker' sigversion stack exec_script execdata) Eq := by
  have htemplates : EvalContext.TemplatesOk ⟨C, flags, checker, sigversion⟩ checker' ∨
      NoTemplate exec_script := by
    by_cases hversion : sigversion = .p2mr
    · exact (htemplate hversion).imp (fun h _ => h) id
    · exact Or.inl fun hp2mr => absurd hp2mr hversion
  exact .bind_same .rfl fun success => .ite (fun _ => .ok rfl) fun _ => .ite (fun _ => .error)
    fun _ => .ite (fun _ => .error) fun _ => .bind_same (evalScript_same
      (c := ⟨C, flags, checker, sigversion⟩) h stack exec_script execdata htemplates) fun _ => .rfl

theorem verifyWitnessV0_same (stack : Stack) (program : Valtype) :
    Follows (verifyWitnessV0 C flags checker stack program)
      (verifyWitnessV0 C flags checker' stack program) Eq := by
  have hexecute (stack : Stack) (script : List UInt8) :
      Follows (executeWitnessScript C flags checker .witnessV0 stack script {})
        (executeWitnessScript C flags checker' .witnessV0 stack script {}) Eq :=
    executeWitnessScript_same h .witnessV0 stack script {} fun h => by cases h
  refine .ite (fun _ => ?_) fun _ => .ite (fun _ => .ite
    (fun _ => .error) fun _ => hexecute _ _) fun _ => .error
  cases stack with
  | nil => exact .error
  | cons exec_script stack => exact .ite (fun _ => .error) fun _ => hexecute _ _

theorem verifyTaproot_same (witness : List Valtype) (program : Valtype) :
    Follows (verifyTaproot C flags checker witness program)
      (verifyTaproot C flags checker' witness program) Eq := by
  refine .ite (fun _ => .ok rfl) fun _ => ?_
  obtain ⟨annex, stack⟩ := splitAnnex C witness.reverse
  match stack with
  | [] => exact .error
  | [sig] => exact .bind_same (h.schnorr _ _ _ _) fun _ => .ok rfl
  | control :: script :: stack =>
    refine .ite (fun _ => .error) fun _ => .ite (fun _ => .error)
      fun _ => .ite (fun _ => ?_) fun _ => .rfl
    exact executeWitnessScript_same h .tapscript stack script _ fun h => by cases h

variable {witness : List Valtype}

theorem verifyP2MR_same (program : Valtype) (htemplate : TemplatesAgain C checker checker' witness)
    :
    Follows (verifyP2MR C flags checker witness program)
      (verifyP2MR C flags checker' witness program) Eq := by
  rw [TemplatesAgain] at htemplate
  refine .ite (fun _ => .ok rfl) fun _ => ?_
  generalize splitAnnex C witness.reverse = split at htemplate ⊢
  obtain ⟨annex, stack⟩ := split
  match stack with
  | [] => exact .error
  | [_] => exact .error
  | control :: script :: stack =>
    refine .ite (fun _ => .error) fun _ => .ite (fun _ => .error)
      fun _ => .ite (fun _ => .error) fun _ => .ite (fun _ => ?_) fun _ => .rfl
    exact .bind_same .rfl fun _ =>
      executeWitnessScript_same h .p2mr stack script _ fun _ =>
        htemplate.imp id fun hno => hno control script stack rfl

theorem verifyWitnessProgram_same (witversion : Nat) (program : Valtype) (is_p2sh : Bool)
    (htemplate : witversion = 2 → program.length = 32 → is_p2sh = false →
      TemplatesAgain C checker checker' witness) :
    Follows (verifyWitnessProgram C flags checker witness witversion program is_p2sh)
      (verifyWitnessProgram C flags checker' witness witversion program is_p2sh) Eq := by
  refine .ite (fun _ => verifyWitnessV0_same h _ _) fun _ =>
    .ite (fun _ => verifyTaproot_same h _ _) fun _ =>
    .ite (fun hp2mr => verifyP2MR_same h program (htemplate hp2mr.1 hp2mr.2.1 ?_))
    fun _ => .rfl
  simpa using hp2mr.2.2

theorem evalBase_same (stack : Stack) (script : List UInt8) :
    Follows (evalBase C flags checker stack script) (evalBase C flags checker' stack script) Eq :=
  evalScript_same (c := ⟨C, flags, checker, .base⟩) h stack script {} (Or.inl fun h => by cases h)

theorem verifyIfWitnessProgram_same {script : List UInt8} {is_p2sh : Bool} (clean : Bool)
    (malleated : ScriptError) (v : VerifyState)
    (htemplate : ∀ program, isWitnessProgram script = some (2, program) → program.length = 32 →
      is_p2sh = false → TemplatesAgain C checker checker' witness) :
    Follows (verifyIfWitnessProgram C flags checker witness script is_p2sh clean malleated v)
      (verifyIfWitnessProgram C flags checker' witness script is_p2sh clean malleated v) Eq := by
  refine .ite (fun _ => .ok rfl) fun _ => ?_
  rcases hprogram : isWitnessProgram script with _ | ⟨version, program⟩
  · exact .ok rfl
  refine .ite (fun _ => .error) fun _ => .bind_same
    (verifyWitnessProgram_same h version program is_p2sh ?_) fun _ => .ok rfl
  rintro rfl
  exact htemplate program hprogram

theorem verifyP2SH_same (witness : List Valtype) (scriptSig : List UInt8) (stackCopy : Stack)
    (v : VerifyState) :
    Follows (verifyP2SH C flags checker witness scriptSig stackCopy v)
      (verifyP2SH C flags checker' witness scriptSig stackCopy v) Eq := by
  refine .ite (fun _ => .error) fun _ => ?_
  rcases stackCopy with _ | ⟨pubKey2, stack⟩
  · exact .error
  refine .bind_same (evalBase_same h stack pubKey2) fun s => .bind_same .rfl fun _ => ?_
  exact verifyIfWitnessProgram_same h _ _ _ fun _ _ _ h => by cases h

/-- **A script that succeeds with a checker succeeds with one that accepts more.** -/
theorem verifyScript_extends (scriptSig scriptPubKey : List UInt8)
    (htemplate : ∀ program, isWitnessProgram scriptPubKey = some (2, program) →
      program.length = 32 → TemplatesAgain C checker checker' witness) :
    Follows (verifyScript C flags checker witness scriptSig scriptPubKey)
      (verifyScript C flags checker' witness scriptSig scriptPubKey) Eq := by
  refine .ite (fun _ => .error) fun _ => .bind_same (evalBase_same h _ _) fun s =>
    .bind_same (evalBase_same h _ _) fun t => .bind_same .rfl fun _ => ?_
  refine .bind_same (verifyIfWitnessProgram_same h _ _ _ fun program hp hlen _ =>
    htemplate program hp hlen) fun v => ?_
  exact .bind_same (.ite (fun _ => verifyP2SH_same h _ _ _ _) fun _ => .ok rfl) fun _ => .rfl

end Verify

end Qbit
