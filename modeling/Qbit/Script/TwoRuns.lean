import Qbit.Script.Interpreter

/-!
# Two runs of the interpreter

The interpreter on the same script in two contexts, from states that are related by `R`.  `TwoRuns`
collects what has to be known: the second context forbids no more than the first, `R` speaks about
the execution data only, and the functions that check signatures keep `R`.  Then every opcode keeps
it, and so do a round (`TwoRuns.step`) and the loop (`TwoRuns.evalLoop`).

An invariant of one run is the case of equal contexts and equal states: `twoRuns_of_invariant`.
-/

open Checked

namespace Qbit

open OpBody StackOp

/-- A body whose second run follows the first, from related states to related states. -/
def BodyFollows (R : EvalState → EvalState → Prop) (body body' : OpBody) : Prop :=
  ∀ s t, R s t → Follows (body s) (body' t) R

/-- Two answers of a signature check: the same verdict, and states that are related. -/
def VerdictsAgree (R : EvalState → EvalState → Prop) (r r' : Bool × EvalState) : Prop :=
  r.1 = r'.1 ∧ R r.2 r'.2

/-- A context for the same scripts that forbids no more than `c`. -/
structure EvalContext.Relaxes (c' c : EvalContext) : Prop where
  crypto : c'.crypto = c.crypto
  flags : c'.flags ⊆ c.flags
  sigversion : c'.sigversion = c.sigversion
  lockTime : c'.checker.checkLockTime = c.checker.checkLockTime
  sequence : c'.checker.checkSequence = c.checker.checkSequence

/-- Template hashes that are accepted in the one context are accepted in the other. -/
def TemplatesFollow (c c' : EvalContext) : Prop :=
  ∀ stack, Follows (checktemplateverify c stack) (checktemplateverify c' stack) Eq

/-- What makes a run in the context `c'` follow one in the context `c`. -/
structure TwoRuns (c c' : EvalContext) (R : EvalState → EvalState → Prop) : Prop
    extends EvalContext.Relaxes c' c where
  same : ∀ {s t}, R s t → ∃ execdata, t = { s with execdata }
  update : ∀ {s t}, R s t → ∀ stack altstack vfExec nOpCount,
    R { s with stack, altstack, vfExec, nOpCount } { t with stack, altstack, vfExec, nOpCount }
  codeseparator : BodyFollows R codeseparator codeseparator
  evalChecksig : ∀ {s t}, R s t → ∀ sig pubkey,
    Follows (evalChecksig c sig pubkey s) (evalChecksig c' sig pubkey t) (VerdictsAgree R)
  evalCheckDataSigPQC : ∀ {s t}, R s t → ∀ sig msg_hash pubkey,
    Follows (evalCheckDataSigPQC c sig msg_hash pubkey s)
      (evalCheckDataSigPQC c' sig msg_hash pubkey t) (VerdictsAgree R)
  multisig : ∀ opcode, BodyFollows R (checkmultisig c opcode) (checkmultisig c' opcode)

/-- **An invariant of one run** is kept by every opcode if the opcodes that change the execution data
keep it. -/
theorem twoRuns_of_invariant {c : EvalContext} {P : EvalState → Prop}
    (hupdate : ∀ {s}, P s → ∀ stack altstack vfExec nOpCount,
      P { s with stack, altstack, vfExec, nOpCount })
    (hcodeseparator : ∀ {s}, P s → Ensures (codeseparator s) P)
    (hchecksig : ∀ {s}, P s → ∀ sig pubkey,
      Ensures (evalChecksig c sig pubkey s) fun r => P r.2)
    (hcheckdatasig : ∀ {s}, P s → ∀ sig msg_hash pubkey,
      Ensures (evalCheckDataSigPQC c sig msg_hash pubkey s) fun r => P r.2)
    (hmultisig : ∀ opcode s, P s → Ensures (checkmultisig c opcode s) P) :
    TwoRuns c c fun s t => s = t ∧ P s where
  crypto := rfl
  flags := Finset.Subset.refl _
  sigversion := rfl
  lockTime := rfl
  sequence := rfl
  same := by
    rintro s _ ⟨rfl, -⟩
    exact ⟨s.execdata, rfl⟩
  update := by
    rintro s _ ⟨rfl, hs⟩ stack altstack vfExec nOpCount
    exact ⟨rfl, hupdate hs stack altstack vfExec nOpCount⟩
  codeseparator := by
    rintro s _ ⟨rfl, hs⟩
    exact (hcodeseparator hs).follows
  evalChecksig := by
    rintro s _ ⟨rfl, hs⟩ sig pubkey
    exact (hchecksig hs sig pubkey).follows.mono fun _ _ ⟨heq, hr⟩ => heq ▸ ⟨rfl, rfl, hr⟩
  evalCheckDataSigPQC := by
    rintro s _ ⟨rfl, hs⟩ sig msg_hash pubkey
    exact (hcheckdatasig hs sig msg_hash pubkey).follows.mono fun _ _ ⟨heq, hr⟩ =>
      heq ▸ ⟨rfl, rfl, hr⟩
  multisig := by
    rintro opcode s _ ⟨rfl, hs⟩
    exact (hmultisig opcode s hs).follows

/-! ## Stack opcodes -/

namespace EvalContext.Relaxes

variable {c c' : EvalContext} (h : c'.Relaxes c)

include h

theorem fRequireMinimal (hc' : c'.fRequireMinimal = true) : c.fRequireMinimal = true :=
  decide_eq_true (h.flags (of_decide_eq_true hc'))

theorem num (vch : Valtype) (nMaxNumSize : Nat) :
    Follows (c.num vch nMaxNumSize) (c'.num vch nMaxNumSize) Eq := by
  rw [EvalContext.num, EvalContext.num, CScriptNum.ofVch, CScriptNum.ofVch]
  split_ifs with hlong hc hc' hc'
  · exact .error
  · exact .error
  · exact .error
  · rw [Bool.and_eq_true] at hc hc'
    exact absurd ⟨h.fRequireMinimal hc'.1, hc'.2⟩ hc
  · exact .rfl

/-- An opcode that only looks at the stack, and does nothing at all without its flag. -/
theorem of_flag {flag : VerifyFlag} {stack : Stack} {x y : Eval Stack}
    (hkeeps : Ensures x fun stack' => stack' = stack) (hxy : Follows x y Eq) :
    Follows (if flag ∉ c.flags then .ok stack else x) (if flag ∉ c'.flags then .ok stack else y)
      Eq := by
  by_cases hc : flag ∈ c.flags
  · rw [if_neg (not_not.mpr hc)]
    split
    · intro stack' hx
      exact ⟨stack, rfl, hkeeps stack' hx⟩
    · exact hxy
  · rw [if_pos hc, if_pos (mt (@h.flags flag) hc)]
    exact .ok rfl

theorem checklocktimeverify (stack : Stack) :
    Follows (checklocktimeverify c stack) (checklocktimeverify c' stack) Eq := by
  rcases stack with _ | ⟨top, rest⟩
  · exact h.of_flag .error .error
  refine h.of_flag ?_ (.bind_same (h.num top 5) fun n => ?_)
  · exact .bind_any fun n => .guard fun _ => .guard fun _ => .ok rfl
  · rw [h.lockTime]
    exact .rfl

theorem checksequenceverify (stack : Stack) :
    Follows (checksequenceverify c stack) (checksequenceverify c' stack) Eq := by
  rcases stack with _ | ⟨top, rest⟩
  · exact h.of_flag .error .error
  refine h.of_flag ?_ (.bind_same (h.num top 5) fun n => ?_)
  · exact .bind_any fun n => .guard fun _ =>
      .ite (fun _ => .ok rfl) fun _ => .guard fun _ => .ok rfl
  · rw [h.sequence]
    exact .rfl

theorem upgradableNop (stack : Stack) :
    Follows (upgradableNop c stack) (upgradableNop c' stack) Eq :=
  .guard (@h.flags _) fun _ => .ok rfl

variable (opcode : UInt8) (stack : Stack)

theorem pickRoll : Follows (pickRoll c opcode stack) (pickRoll c' opcode stack) Eq := by
  rcases stack with _ | ⟨top, _ | ⟨x, rest⟩⟩
  · exact .error
  · exact .error
  · refine .bind_same (h.num top 4) fun n => ?_
    exact .rfl

theorem unary : Follows (unary c opcode stack) (unary c' opcode stack) Eq := by
  rcases stack with _ | ⟨top, rest⟩
  · exact .error
  refine .bind_same (h.num top 4) fun n => ?_
  exact .rfl

theorem binary : Follows (binary c opcode stack) (binary c' opcode stack) Eq := by
  rcases stack with _ | ⟨x2, _ | ⟨x1, rest⟩⟩
  · exact .error
  · exact .error
  · refine .bind_same (h.num x1 4) fun bn1 => ?_
    refine .bind_same (h.num x2 4) fun bn2 => ?_
    exact .rfl

theorem within (stack : Stack) : Follows (within c stack) (within c' stack) Eq := by
  rcases stack with _ | ⟨x3, _ | ⟨x2, _ | ⟨x1, rest⟩⟩⟩
  · exact .error
  · exact .error
  · exact .error
  · refine .bind_same (h.num x1 4) fun bn1 => ?_
    refine .bind_same (h.num x2 4) fun bn2 => ?_
    refine .bind_same (h.num x3 4) fun bn3 => ?_
    exact .rfl

theorem hash : Follows (hash c opcode stack) (hash c' opcode stack) Eq := by
  cases stack with
  | nil => exact .error
  | cons vch stack =>
    rw [StackOp.hash, StackOp.hash, h.crypto]
    exact .rfl

theorem checkMinimalIf (vch : Valtype) :
    Follows (OpBody.checkMinimalIf c vch) (OpBody.checkMinimalIf c' vch) fun _ _ => True := by
  rw [OpBody.checkMinimalIf, OpBody.checkMinimalIf, h.sigversion]
  refine .ite (fun _ => .ok trivial) fun _ => .ite (fun _ => .error) fun _ => ?_
  exact .guard (fun hc' => ⟨hc'.1, h.flags hc'.2⟩) fun _ => .ok trivial

end EvalContext.Relaxes

/-! ## The other opcodes -/

namespace TwoRuns

variable {c c' : EvalContext} {R : EvalState → EvalState → Prop} (h : TwoRuns c c' R)

include h

theorem stack_eq {s t : EvalState} (hst : R s t) : t.stack = s.stack := by
  obtain ⟨execdata, rfl⟩ := h.same hst
  rfl

theorem with_stack {s t : EvalState} (hst : R s t) (stack : Stack) :
    R { s with stack } { t with stack } := by
  obtain ⟨execdata, rfl⟩ := h.same hst
  exact h.update hst stack s.altstack s.vfExec s.nOpCount

theorem onStack {f f' : Stack → Eval Stack} (hf : ∀ stack, Follows (f stack) (f' stack) Eq) :
    BodyFollows R (onStack f) (onStack f') := by
  intro s t hst
  rw [Qbit.onStack, Qbit.onStack, h.stack_eq hst]
  exact .bind_same (hf s.stack) fun stack => .ok (h.with_stack hst stack)

theorem onStack_self (f : Stack → Eval Stack) : BodyFollows R (Qbit.onStack f) (Qbit.onStack f) :=
  h.onStack fun _ => .rfl

theorem toaltstack : BodyFollows R toaltstack toaltstack := by
  intro s t hst
  obtain ⟨execdata, rfl⟩ := h.same hst
  rw [OpBody.toaltstack, OpBody.toaltstack]
  cases s.stack with
  | nil => exact .error
  | cons top stack => exact .ok (h.update hst _ _ s.vfExec s.nOpCount)

theorem fromaltstack : BodyFollows R fromaltstack fromaltstack := by
  intro s t hst
  obtain ⟨execdata, rfl⟩ := h.same hst
  rw [OpBody.fromaltstack, OpBody.fromaltstack]
  cases s.altstack with
  | nil => exact .error
  | cons top altstack => exact .ok (h.update hst _ _ s.vfExec s.nOpCount)

theorem ifNotif (opcode : UInt8) : BodyFollows R (ifNotif c opcode) (ifNotif c' opcode) := by
  intro s t hst
  obtain ⟨execdata, rfl⟩ := h.same hst
  refine .ite (fun _ => ?_) fun _ =>
    .ok (h.update hst s.stack s.altstack _ s.nOpCount)
  cases s.stack with
  | nil => exact .error
  | cons vch stack =>
    exact .bind (h.checkMinimalIf vch) fun _ _ _ =>
      .ok (h.update hst _ s.altstack _ s.nOpCount)

theorem else_ : BodyFollows R else_ else_ := by
  intro s t hst
  obtain ⟨execdata, rfl⟩ := h.same hst
  exact .ite (fun _ => .error) fun _ => .bind_same .rfl fun vfExec =>
    .ok (h.update hst s.stack s.altstack vfExec s.nOpCount)

theorem endif : BodyFollows R endif endif := by
  intro s t hst
  obtain ⟨execdata, rfl⟩ := h.same hst
  exact .ite (fun _ => .error) fun _ => .bind_same .rfl fun vfExec =>
    .ok (h.update hst s.stack s.altstack vfExec s.nOpCount)

/-! ## Signature opcodes -/

theorem push_verdict {x x' : Eval (Bool × EvalState)} (hx : Follows x x' (VerdictsAgree R))
    (stack : Bool → Stack) :
    Follows (x >>= fun r => return { r.2 with stack := stack r.1 })
      (x' >>= fun r => return { r.2 with stack := stack r.1 }) R := by
  refine .bind hx ?_
  rintro ⟨success, u⟩ ⟨_, v⟩ ⟨rfl, huv⟩
  exact .ok (h.with_stack huv (stack success))

theorem checksigpqc : BodyFollows R (checksigpqc c) (checksigpqc c') := by
  intro s t hst
  rw [OpBody.checksigpqc, OpBody.checksigpqc, h.sigversion, h.stack_eq hst]
  refine .ite (fun _ => .error) fun _ => ?_
  rcases s.stack with _ | ⟨vchPubKey, _ | ⟨vchSig, stack⟩⟩
  · exact .error
  · exact .error
  · exact h.push_verdict (h.evalChecksig hst vchSig vchPubKey) fun success => ofBool success :: stack

theorem checksigadd : BodyFollows R (checksigadd c) (checksigadd c') := by
  intro s t hst
  rw [OpBody.checksigadd, OpBody.checksigadd, h.sigversion, h.stack_eq hst]
  refine .ite (fun _ => .error) fun _ => ?_
  rcases s.stack with _ | ⟨pubkey, _ | ⟨top, _ | ⟨sig, stack⟩⟩⟩
  · exact .error
  · exact .error
  · exact .error
  · refine .bind_same (h.num top 4) fun n => ?_
    exact h.push_verdict (h.evalChecksig hst sig pubkey) fun success =>
      CScriptNum.serialize (n + if success then 1 else 0) :: stack

variable (opcode : UInt8)

theorem checksig : BodyFollows R (checksig c opcode) (checksig c' opcode) := by
  intro s t hst
  rw [OpBody.checksig, OpBody.checksig, h.sigversion, h.stack_eq hst]
  refine .ite (fun _ => .error) fun _ => ?_
  rcases s.stack with _ | ⟨vchPubKey, _ | ⟨vchSig, stack⟩⟩
  · exact .error
  · exact .error
  · refine .bind (h.evalChecksig hst vchSig vchPubKey) ?_
    rintro ⟨success, u⟩ ⟨_, v⟩ ⟨rfl, huv⟩
    refine .ite (fun _ => ?_) fun _ => .ok (h.with_stack huv _)
    exact .ite (fun _ => .ok (h.with_stack huv stack)) fun _ => .error

theorem checkdatasigpqc : BodyFollows R (checkdatasigpqc c) (checkdatasigpqc c') := by
  intro s t hst
  rw [OpBody.checkdatasigpqc, OpBody.checkdatasigpqc, h.sigversion, h.stack_eq hst]
  refine .ite (fun _ => .error) fun _ => ?_
  rcases s.stack with _ | ⟨pubkey, _ | ⟨msg_hash, _ | ⟨sig, stack⟩⟩⟩
  · exact .error
  · exact .error
  · exact .error
  · exact h.push_verdict (h.evalCheckDataSigPQC hst sig msg_hash pubkey) fun success =>
      ofBool success :: stack

theorem checkdatasigaddpqc : BodyFollows R (checkdatasigaddpqc c) (checkdatasigaddpqc c') := by
  intro s t hst
  rw [OpBody.checkdatasigaddpqc, OpBody.checkdatasigaddpqc, h.sigversion, h.stack_eq hst]
  refine .ite (fun _ => .error) fun _ => ?_
  rcases s.stack with _ | ⟨pubkey, _ | ⟨top, _ | ⟨msg_hash, _ | ⟨sig, stack⟩⟩⟩⟩
  · exact .error
  · exact .error
  · exact .error
  · exact .error
  · refine .bind_same (h.num top 4) fun n => ?_
    exact h.push_verdict (h.evalCheckDataSigPQC hst sig msg_hash pubkey) fun success =>
      CScriptNum.serialize (n + if success then 1 else 0) :: stack

/-! ## The main loop -/

/-- **The two switches have the same labels**, and the bodies follow one another. -/
theorem cases (htemplate : opcode = opChecktemplateverify → TemplatesFollow c c') :
    List.Forall₂ (fun k k' => k.1 = k'.1 ∧ (k.1.contains opcode = true → BodyFollows R k.2 k'.2))
      (cases c opcode) (cases c' opcode) := by
  have hctv : [opChecktemplateverify].contains opcode = true →
      BodyFollows R (Qbit.onStack (checktemplateverify c))
        (Qbit.onStack (checktemplateverify c')) := fun hop =>
    h.onStack (htemplate (by simpa using hop))
  rw [Qbit.cases, Qbit.cases]
  simp only [List.forall₂_cons, List.Forall₂.nil, h.onStack_self, h.onStack h.checklocktimeverify,
    h.onStack h.checksequenceverify, h.checksigpqc, h.onStack h.upgradableNop, h.ifNotif, h.else_,
    h.endif, h.toaltstack, h.fromaltstack, h.onStack (h.pickRoll opcode),
    h.onStack (h.unary opcode), h.onStack (h.binary opcode), h.onStack h.within,
    h.onStack (h.hash opcode), h.codeseparator, h.checksig, h.checksigadd, h.checkdatasigpqc,
    h.checkdatasigaddpqc, h.multisig, implies_true, true_and, and_true]
  exact hctv

theorem switch (htemplate : opcode = opChecktemplateverify → TemplatesFollow c c') :
    BodyFollows R (switch c opcode) (switch c' opcode) := by
  have hcases := h.cases opcode htemplate
  rw [Qbit.switch, Qbit.switch]
  generalize Qbit.cases c opcode = ks at hcases ⊢
  generalize Qbit.cases c' opcode = ks' at hcases ⊢
  induction hcases with
  | nil => exact fun _ _ _ => .error
  | @cons k k' rest rest' hk _ ih =>
    rw [List.find?_cons, List.find?_cons, ← hk.1]
    cases hop : k.1.contains opcode with
    | true => exact hk.2 hop
    | false => exact ih

theorem execute (vchPushValue : Valtype)
    (htemplate : opcode = opChecktemplateverify → TemplatesFollow c c') :
    BodyFollows R (execute c opcode vchPushValue) (execute c' opcode vchPushValue) := by
  intro s t hst
  have hswitch := h.switch opcode htemplate s t hst
  have hpush := h.with_stack hst (vchPushValue :: s.stack)
  obtain ⟨execdata, rfl⟩ := h.same hst
  refine .ite (fun _ => ?_) fun _ => .ite (fun _ => hswitch) fun _ => .ok hst
  exact .guard (fun hc' => ⟨h.fRequireMinimal hc'.1, hc'.2⟩) fun _ => .ok hpush

theorem countOp : BodyFollows R (countOp c opcode) (countOp c' opcode) := by
  intro s t hst
  obtain ⟨execdata, rfl⟩ := h.same hst
  rw [Qbit.countOp, Qbit.countOp, h.sigversion]
  refine .ite (fun _ => .ite (fun _ => .error) fun _ => ?_) fun _ =>
    .ok hst
  exact .ok (h.update hst s.stack s.altstack s.vfExec _)

variable (hpc : ∀ {s t}, R s t → ∀ pc opcode_pos,
  R { s with pc, opcode_pos } { t with pc, opcode_pos })

include hpc

/-- **One round follows.**  A template hash is asked for only if the script does. -/
theorem step {s t : EvalState} (hst : R s t)
    (htemplate : ∀ data rest, getScriptOp s.pc = some (opChecktemplateverify, data, rest) →
      TemplatesFollow c c') : Follows (step c s) (step c' t) R := by
  have hmove := hpc hst
  obtain ⟨execdata, rfl⟩ := h.same hst
  rw [Qbit.step, Qbit.step]
  rcases hop : getScriptOp s.pc with _ | ⟨opcode, vchPushValue, pc⟩
  · exact .error
  have hopcode : opcode = opChecktemplateverify → TemplatesFollow c c' := by
    rintro rfl
    exact htemplate _ _ hop
  refine .ite (fun _ => .error) fun _ =>
    .bind (h.countOp opcode _ _ (hmove pc s.opcode_pos)) fun u v huv => ?_
  refine .ite (fun _ => .error) fun _ => ?_
  rw [h.sigversion]
  refine .guard (fun hc' => ⟨hc'.1, hc'.2.1, h.flags hc'.2.2⟩) fun _ =>
    .bind (h.execute opcode vchPushValue hopcode u v huv) fun u v huv => ?_
  have hnext := hpc huv u.pc (u.opcode_pos + 1)
  obtain ⟨execdata, rfl⟩ := h.same huv
  exact .ite (fun _ => .error) fun _ => .ok hnext

/-- **The loop follows.** -/
theorem evalLoop (htemplate : TemplatesFollow c c') (rounds : Nat) :
    BodyFollows R (evalLoop c rounds) (evalLoop c' rounds) := by
  induction rounds with
  | zero => exact fun s t hst => .ok hst
  | succ rounds ih =>
    intro s t hst
    have hstep := h.step hpc hst fun _ _ _ => htemplate
    obtain ⟨execdata, rfl⟩ := h.same hst
    exact .ite (fun _ => .ok hst) fun _ => .bind hstep ih

end TwoRuns

end Qbit
