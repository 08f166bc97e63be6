import Qbit.Script.MultiA

/-!
# What a P2MR script can use up

The resources of a P2MR leaf script while it runs: the size of its stack elements, their number, and
the validation weight.

`Within` is what holds between two opcodes.  Four opcodes check signatures and have a price: the
cost of a PQC signature, if their signature operand is not empty.  `step_within` is one round of the
main loop, and `Executes` counts the signatures along any number of rounds.

The lemmas also say which failures are excluded, by a parameter `bad`.  Nothing here depends on it,
except through the checker; the failures that precomputed data excludes are one instance.
-/

open Bytes Checked

namespace Qbit

open EvalContext OpBody

variable {serror : ScriptError}

/-! ## Small elements -/

/-- No element is larger than an initial element of a P2MR script may be. -/
def SmallItems (stack : Stack) : Prop := ∀ item ∈ stack, item.length ≤ maxP2MRV1StackItemSize

@[simp] theorem smallItems_nil : SmallItems [] := by simp [SmallItems]

variable {stack : Stack} {c : EvalContext} {f : Stack → Eval Stack} {s : EvalState}

@[simp] theorem smallItems_cons {item : Valtype} :
    SmallItems (item :: stack) ↔ item.length ≤ maxP2MRV1StackItemSize ∧ SmallItems stack := by
  simp [SmallItems]

theorem SmallItems.subset {stack' : Stack} (h : SmallItems stack) (hsub : stack' ⊆ stack) :
    SmallItems stack' :=
  fun item hitem => h item (hsub hitem)

theorem length_digits_le (k n : Nat) : (CScriptNum.digits k n).length ≤ k := by
  induction k generalizing n with
  | zero => rfl
  | succ k ih =>
    rw [CScriptNum.digits]
    split
    · simp
    · rw [List.length_cons]
      exact Nat.succ_le_succ (ih _)

theorem length_serialize_le (n : Int) : (CScriptNum.serialize n).length ≤ 9 := by
  have hdigits := length_digits_le 8 n.natAbs
  rw [CScriptNum.serialize]
  rcases hlast : (CScriptNum.digits 8 n.natAbs).getLast? with _ | last
  · exact Nat.zero_le _
  dsimp only
  by_cases htaken : last &&& 0x80 != 0
  · rw [if_pos htaken, List.length_append, List.length_singleton]
    omega
  rw [if_neg htaken]
  split_ifs
  · rw [List.length_append, List.length_singleton, List.length_dropLast]
    omega
  · omega

@[simp] theorem small_serialize (n : Int) :
    (CScriptNum.serialize n).length ≤ maxP2MRV1StackItemSize :=
  (length_serialize_le n).trans (by decide)

@[simp] theorem small_ofBool (b : Bool) : (ofBool b).length ≤ maxP2MRV1StackItemSize := by
  cases b <;> decide

/-! ## The stack opcodes -/

/-- Failures of invalid scripts are not bad. -/
class AllowsInvalid (bad : ScriptFailure → Prop) : Prop where
  not_bad : ∀ serror, ¬ bad (.invalid serror)

instance : AllowsInvalid fun _ => False := ⟨fun _ => id⟩

/-- An opcode that keeps small elements small and does not fail badly. -/
def KeepsSmall (bad : ScriptFailure → Prop) (f : Stack → Eval Stack) : Prop :=
  ∀ stack, SmallItems stack → Safe bad (f stack) SmallItems

section StackOps

variable {bad : ScriptFailure → Prop} [AllowsInvalid bad] (c : EvalContext) (opcode : UInt8)

open StackOp

@[simp] theorem safe_setError {α : Type} (serror : ScriptError) {Q : α → Prop} :
    Safe bad (setError serror) Q :=
  safe_error.mpr (AllowsInvalid.not_bad serror)

theorem safe_guard {α : Type} {p : Prop} [Decidable p] {x : Eval α} {Q : α → Prop}
    (h : ¬ p → Safe bad x Q) : Safe bad (if p then setError serror else x) Q :=
  .ite (fun _ => safe_setError serror) h

@[simp] theorem safe_num (vch : Valtype) (nMaxNumSize : Nat) {Q : Int → Prop} (h : ∀ n, Q n) :
    Safe bad (c.num vch nMaxNumSize) Q := by
  rw [num]
  split <;> simp [h]

/-- The opcodes that move, drop and repeat elements, and look at no numbers.  None looks deeper than
six elements. -/
theorem keepsSmall_shuffle {f : Stack → Eval Stack} (hf : f ∈ [smallInt opcode, .ok, verify, return_,
    twodrop, twodup, threedup, twoover, tworot, twoswap, depth, drop, dup, nip, over_, rot,
    swap, tuck, size, equal opcode]) : KeepsSmall bad f := by
  intro stack h
  simp only [List.mem_cons, List.not_mem_nil, or_false] at hf
  rcases hf with rfl | rfl | rfl | rfl | rfl | rfl | rfl | rfl | rfl | rfl | rfl | rfl | rfl | rfl |
    rfl | rfl | rfl | rfl | rfl | rfl
  all_goals rcases stack with _ | ⟨a, _ | ⟨b, _ | ⟨c, _ | ⟨d, _ | ⟨e, _ | ⟨f, stack⟩⟩⟩⟩⟩⟩
  all_goals first
    | exact safe_setError _
    | exact safe_ok.mpr (by simp_all)
    | simp_all [verify, equal]

theorem keepsSmall_ifdup : KeepsSmall bad ifdup := by
  intro stack h
  rcases stack with _ | ⟨vch, stack⟩
  · exact safe_setError _
  · exact safe_ok.mpr (by split_ifs <;> simp_all)

theorem keepsSmall_checklocktimeverify : KeepsSmall bad (checklocktimeverify c) := by
  intro stack h
  cases stack <;> simp_all [checklocktimeverify, StackOp.invalid]

theorem keepsSmall_checksequenceverify : KeepsSmall bad (checksequenceverify c) := by
  intro stack h
  cases stack <;> simp_all [checksequenceverify, StackOp.invalid]

/-- The template check asks the checker, in P2MR scripts only. -/
theorem keepsSmall_checktemplateverify
    (hchecker : c.sigversion = .p2mr → ∀ expected : Valtype, expected.length = 32 →
      Safe bad (c.checker.checkTemplateVerifyHash expected) fun _ => True) :
    KeepsSmall bad (checktemplateverify c) := by
  intro stack h
  refine safe_guard fun hversion => ?_
  rcases stack with _ | ⟨expected, stack⟩
  · exact safe_setError _
  · refine .ite (fun hlen => ?_) fun _ => safe_guard fun _ => safe_ok.mpr h
    exact .bind (hchecker (not_not.mp hversion) expected hlen) fun _ _ => safe_ok.mpr h

theorem keepsSmall_upgradableNop : KeepsSmall bad (upgradableNop c) := fun _ h =>
  safe_guard fun _ => safe_ok.mpr h

theorem keepsSmall_pickRoll : KeepsSmall bad (pickRoll c opcode) := by
  intro stack h
  unfold pickRoll
  split
  · next top x0 stack =>
    refine safe_bind.mpr (safe_num c top 4 fun n => safe_guard fun _ => ?_)
    split
    · exact safe_setError _
    next vch hvch =>
    have hrest : SmallItems (x0 :: stack) := (smallItems_cons.mp h).2
    refine safe_ok.mpr (smallItems_cons.mpr ⟨hrest vch (List.mem_of_getElem? hvch), ?_⟩)
    split_ifs
    · exact hrest.subset (List.eraseIdx_subset)
    · exact hrest
  · exact safe_setError _

theorem keepsSmall_unary : KeepsSmall bad (unary c opcode) := by
  intro stack h
  cases stack <;> simp_all [unary, StackOp.invalid]

theorem keepsSmall_binary : KeepsSmall bad (binary c opcode) := by
  intro stack h
  rcases stack with _ | ⟨x2, _ | ⟨x1, stack⟩⟩ <;> simp_all [binary, StackOp.invalid]

theorem keepsSmall_within : KeepsSmall bad (within c) := by
  intro stack h
  rcases stack with _ | ⟨x3, _ | ⟨x2, _ | ⟨x1, stack⟩⟩⟩ <;> simp_all [within, StackOp.invalid]

theorem keepsSmall_hash : KeepsSmall bad (StackOp.hash c opcode) := by
  intro stack h
  have hsmall : (20 : Nat) ≤ maxP2MRV1StackItemSize ∧ (32 : Nat) ≤ maxP2MRV1StackItemSize := by
    decide
  rcases stack with _ | ⟨vch, stack⟩
  · exact safe_setError _
  refine safe_ok.mpr (smallItems_cons.mpr ⟨?_, (smallItems_cons.mp h).2⟩)
  split_ifs <;> simp [hsmall]

end StackOps

/-! ## The state between two opcodes -/

/-- What an opcode may rely on, and keeps: small elements on both stacks, and an invariant `J` of the
execution data. -/
@[mk_iff]
structure Within (J : ScriptExecutionData → Prop) (s : EvalState) : Prop where
  stack : SmallItems s.stack
  altstack : SmallItems s.altstack
  execdata : J s.execdata

/-- The execution data of a P2MR script that has the given weight left, with an invariant `I` of the
rest. -/
structure Paid (I : ScriptExecutionData → Prop) (weight : Int) (execdata : ScriptExecutionData) :
    Prop where
  invariant : I execdata
  weight_eq : execdata.m_validation_weight_left = some weight
  nonneg : 0 ≤ weight

/-- An invariant that does not depend on the last code separator. -/
def IgnoresCodeseparator (J : ScriptExecutionData → Prop) : Prop :=
  ∀ execdata pos, J execdata → J { execdata with m_codeseparator_pos := some pos }

/-- An invariant of the execution data that P2MR scripts keep, with a checker that does not fail
badly where it holds and leaves the weight alone. -/
structure BaseSignatureChecker.Keeps (checker : BaseSignatureChecker) (bad : ScriptFailure → Prop)
    (I : ScriptExecutionData → Prop) : Prop where
  weight : ∀ execdata left, I execdata → I { execdata with m_validation_weight_left := some left }
  codeseparator : IgnoresCodeseparator I
  pqc : ∀ sig pubkey : Valtype, ∀ execdata, pubkey.length = 32 → I execdata →
    Safe bad (checker.checkPQCSignature sig pubkey .p2mr execdata) fun r =>
      I r.1 ∧ r.1.m_validation_weight_left = execdata.m_validation_weight_left
  template : ∀ expected : Valtype, expected.length = 32 →
    Safe bad (checker.checkTemplateVerifyHash expected) fun _ => True

/-- Where the opcodes that check a PQC signature find it, counted from the top of the stack. -/
def signatureDepth (opcode : UInt8) : Option Nat :=
  if opcode = opChecksigpqc then some 1
  else if opcode = opChecksigadd ∨ opcode = opCheckdatasigpqc then some 2
  else if opcode = opCheckdatasigaddpqc then some 3
  else none

/-- An operand counts as a signature if it is not empty. -/
def nonEmpty (item : Valtype) : Nat := if item.isEmpty then 0 else 1

/-- How many non-empty signatures an opcode processes that is executed on the given stack: one or
none. -/
def signaturesOf (opcode : UInt8) (stack : Stack) : Nat :=
  match signatureDepth opcode with
  | none => 0
  | some depth => ((stack[depth]?).map nonEmpty).getD 0

/-- How many non-empty signatures the next round processes. -/
def signaturesProcessed (s : EvalState) : Nat :=
  match getScriptOp s.pc with
  | none => 0
  | some (opcode, _, _) => if s.vfExec.allTrue then signaturesOf opcode s.stack else 0

/-- A body that keeps what holds between two opcodes. -/
def KeepsWithin (bad : ScriptFailure → Prop) (J : ScriptExecutionData → Prop) (body : OpBody) :
    Prop :=
  ∀ s, Within J s → Safe bad (body s) (Within J)

/-- The cases of the switch that check signatures. -/
def signatureCases (c : EvalContext) (opcode : UInt8) : List (List UInt8 × OpBody) :=
  [ ([opChecksigpqc], checksigpqc c),
    ([opChecksig, opChecksigverify], checksig c opcode),
    ([opChecksigadd], checksigadd c),
    ([opCheckdatasigpqc], checkdatasigpqc c),
    ([opCheckdatasigaddpqc], checkdatasigaddpqc c),
    ([opCheckmultisig, opCheckmultisigverify], checkmultisig c opcode) ]

section OtherCases

variable {bad : ScriptFailure → Prop} {J : ScriptExecutionData → Prop}

theorem Within.with_stack (h : Within J s) (hstack : SmallItems stack) :
    Within J { s with stack } :=
  ⟨hstack, h.altstack, h.execdata⟩

theorem keepsWithin_onStack (hf : KeepsSmall bad f) : KeepsWithin bad J (onStack f) :=
  fun s hs => .bind (hf s.stack hs.stack) fun _ hstack => safe_ok.mpr (hs.with_stack hstack)

theorem keepsWithin_codeseparator (hJ : IgnoresCodeseparator J) : KeepsWithin bad J codeseparator :=
  fun s hs => safe_ok.mpr ⟨hs.stack, hs.altstack, hJ s.execdata s.opcode_pos hs.execdata⟩

variable [AllowsInvalid bad]

theorem keepsWithin_toaltstack : KeepsWithin bad J toaltstack := by
  rintro s ⟨hstack, haltstack, hexecdata⟩
  unfold toaltstack
  split <;> simp_all [within_iff, StackOp.invalid]

theorem keepsWithin_fromaltstack : KeepsWithin bad J fromaltstack := by
  rintro s ⟨hstack, haltstack, hexecdata⟩
  unfold fromaltstack
  split <;> simp_all [within_iff]

theorem keepsWithin_ifNotif (c : EvalContext) (opcode : UInt8) :
    KeepsWithin bad J (ifNotif c opcode) := by
  rintro s ⟨hstack, haltstack, hexecdata⟩
  unfold ifNotif
  cases hs : s.stack <;> simp_all [within_iff, checkMinimalIf]

theorem stackSize_pos_of_not_empty {v : ConditionStack} (h : ¬ v.empty) : 0 < v.m_stack_size := by
  have hne : v.m_stack_size ≠ 0 := by simpa [ConditionStack.empty] using h
  exact UInt32.pos_iff_ne_zero.mpr hne

theorem keepsWithin_else : KeepsWithin bad J else_ := by
  refine fun s hs => safe_guard fun hempty => ?_
  rw [ConditionStack.toggleTop, require_pos (stackSize_pos_of_not_empty hempty)]
  exact safe_ok.mpr ⟨hs.stack, hs.altstack, hs.execdata⟩

theorem keepsWithin_endif : KeepsWithin bad J endif := by
  refine fun s hs => safe_guard fun hempty => ?_
  rw [ConditionStack.popBack, require_pos (stackSize_pos_of_not_empty hempty)]
  exact safe_ok.mpr ⟨hs.stack, hs.altstack, hs.execdata⟩

theorem keepsWithin_unavailable {body : OpBody} (h : ∀ s, body s = setError serror) :
    KeepsWithin bad J body := by
  intro s _
  rw [h s]
  exact safe_setError _

/-- **Every body of the switch that checks no signatures keeps what holds between two opcodes.** -/
theorem cases_keepWithin (c : EvalContext) (opcode : UInt8) (hJ : IgnoresCodeseparator J)
    (htemplate : c.sigversion = .p2mr → ∀ expected : Valtype, expected.length = 32 →
      Safe bad (c.checker.checkTemplateVerifyHash expected) fun _ => True) :
    ∀ k ∈ cases c opcode, k ∈ signatureCases c opcode ∨ KeepsWithin bad J k.2 := by
  have hshuffle (f : Stack → Eval Stack) (hf : f ∈ _) : KeepsWithin bad J (onStack f) :=
    keepsWithin_onStack (keepsSmall_shuffle opcode hf)
  simp only [List.mem_cons] at hshuffle
  simp [cases, signatureCases, hshuffle, keepsWithin_ifNotif, keepsWithin_else, keepsWithin_endif,
    keepsWithin_toaltstack, keepsWithin_fromaltstack, keepsWithin_codeseparator hJ,
    keepsWithin_onStack (keepsSmall_checklocktimeverify _),
    keepsWithin_onStack (keepsSmall_checksequenceverify _),
    keepsWithin_onStack (keepsSmall_checktemplateverify _ htemplate),
    keepsWithin_onStack (keepsSmall_upgradableNop _), keepsWithin_onStack keepsSmall_ifdup,
    keepsWithin_onStack (keepsSmall_pickRoll _ _), keepsWithin_onStack (keepsSmall_unary _ _),
    keepsWithin_onStack (keepsSmall_binary _ _), keepsWithin_onStack (keepsSmall_within _),
    keepsWithin_onStack (keepsSmall_hash _ _)]

end OtherCases

variable {C : Crypto} {checker : BaseSignatureChecker} {flags : VerifyFlags}
  {I : ScriptExecutionData → Prop} {weight : Int} {t : EvalState}

section Bodies

variable {bad : ScriptFailure → Prop} (hchecker : checker.Keeps bad I)

/-- A body that keeps the state within its limits and takes the price of `count` signatures. -/
def Spends (bad : ScriptFailure → Prop) (I : ScriptExecutionData → Prop) (flags : VerifyFlags)
    (count : Stack → Nat) (body : OpBody) : Prop :=
  ∀ s weight, Within (Paid I weight) s → Safe bad (body s)
    (Within (Paid I (weight - pqcValidationCost flags * count s.stack)))

/-- An opcode that checks no signature has no price. -/
theorem Spends.of_keepsWithin {opcode : UInt8} {body : OpBody}
    (hdepth : signatureDepth opcode = none) (h : ∀ weight, KeepsWithin bad (Paid I weight) body) :
    Spends bad I flags (signaturesOf opcode) body := by
  intro s weight hs
  simpa [signaturesOf, hdepth] using h weight s hs

/-! ## The signature opcodes -/

variable [AllowsInvalid bad]

include hchecker

variable {opcode : UInt8}

theorem pay_within (hs : Within (Paid I weight) s) (sig : Valtype) :
    Safe bad (if !sig.isEmpty then
        debitValidationWeight (pqcValidationCost flags) .p2mrValidationWeight s
      else return s)
      (Within (Paid I (weight - pqcValidationCost flags * nonEmpty sig))) := by
  cases hsig : sig.isEmpty with
  | true =>
    have hfree : weight - pqcValidationCost flags * nonEmpty sig = weight := by
      simp [nonEmpty, hsig]
    rw [hfree]
    exact safe_ok.mpr hs
  | false =>
    have hprice : weight - pqcValidationCost flags * nonEmpty sig =
        weight - pqcValidationCost flags := by
      simp [nonEmpty, hsig]
    rw [hprice, debitValidationWeight, hs.execdata.weight_eq]
    refine .ite (fun _ => ?_) fun h => absurd rfl h
    refine .ite (fun _ => safe_setError _) fun hleft => safe_ok.mpr ?_
    exact ⟨hs.stack, hs.altstack, hchecker.weight _ _ hs.execdata.invariant, rfl, not_lt.mp hleft⟩

theorem evalChecksigP2MR_within (hs : Within (Paid I weight) s) (sig pubkey : Valtype) :
    Safe bad (evalChecksigP2MR (p2mrContext C checker flags) sig pubkey s) fun r =>
      Within (Paid I (weight - pqcValidationCost flags * nonEmpty sig)) r.2 := by
  refine .bind (P := fun _ => True) (safe_ok.mpr trivial) fun _ _ =>
    .bind (pay_within hchecker hs sig) fun t ht =>
      safe_guard fun _ => .ite (fun hlen => ?_) fun _ => safe_setError _
  refine .ite (fun _ => ?_) fun _ => safe_ok.mpr ht
  refine .bind (hchecker.pqc sig pubkey t.execdata hlen ht.execdata.invariant) fun r hr => ?_
  exact safe_ok.mpr ⟨ht.stack, ht.altstack, hr.1, hr.2.trans ht.execdata.weight_eq,
    ht.execdata.nonneg⟩

theorem evalCheckDataSigPQC_within (hs : Within (Paid I weight) s) (sig msg_hash pubkey : Valtype) :
    Safe bad (evalCheckDataSigPQC (p2mrContext C checker flags) sig msg_hash pubkey s) fun r =>
      Within (Paid I (weight - pqcValidationCost flags * nonEmpty sig)) r.2 := by
  refine .bind (pay_within hchecker hs sig) fun t ht =>
    safe_guard fun _ => safe_guard fun _ => .ite (fun _ => safe_ok.mpr ht) fun _ =>
        safe_guard fun _ => .ite (fun _ => ?_) fun _ => safe_setError _
  exact safe_ok.mpr ⟨ht.stack, ht.altstack, ht.execdata⟩

theorem spends_checksigpqc : Spends bad I flags (signaturesOf opChecksigpqc)
    (checksigpqc (p2mrContext C checker flags)) := by
  intro s weight hs
  refine safe_guard fun _ => ?_
  split
  · next vchPubKey vchSig stack h =>
    have hstack := hs.stack
    simp only [h, smallItems_cons] at hstack
    rw [h]
    exact .bind (evalChecksigP2MR_within hchecker hs vchSig vchPubKey) fun r hr =>
      safe_ok.mpr (hr.with_stack (smallItems_cons.mpr ⟨small_ofBool _, hstack.2.2⟩))
  · exact safe_setError _

theorem spends_checksigadd : Spends bad I flags (signaturesOf opChecksigadd)
    (checksigadd (p2mrContext C checker flags)) := by
  intro s weight hs
  refine safe_guard fun _ => ?_
  split
  · next pubkey top sig stack h =>
    have hstack := hs.stack
    simp only [h, smallItems_cons] at hstack
    rw [h]
    exact safe_bind.mpr (safe_num _ top 4 fun n => .bind (evalChecksigP2MR_within hchecker hs sig pubkey)
      fun r hr => safe_ok.mpr (hr.with_stack (smallItems_cons.mpr ⟨small_serialize _, hstack.2.2.2⟩)))
  · exact safe_setError _

theorem spends_checkdatasigpqc : Spends bad I flags (signaturesOf opCheckdatasigpqc)
    (checkdatasigpqc (p2mrContext C checker flags)) := by
  intro s weight hs
  refine safe_guard fun _ => ?_
  split
  · next pubkey msg_hash sig stack h =>
    have hstack := hs.stack
    simp only [h, smallItems_cons] at hstack
    rw [h]
    exact .bind (evalCheckDataSigPQC_within hchecker hs sig msg_hash pubkey) fun r hr =>
      safe_ok.mpr (hr.with_stack (smallItems_cons.mpr ⟨small_ofBool _, hstack.2.2.2⟩))
  · exact safe_setError _

theorem spends_checkdatasigaddpqc : Spends bad I flags (signaturesOf opCheckdatasigaddpqc)
    (checkdatasigaddpqc (p2mrContext C checker flags)) := by
  intro s weight hs
  refine safe_guard fun _ => ?_
  split
  · next pubkey top msg_hash sig stack h =>
    have hstack := hs.stack
    simp only [h, smallItems_cons] at hstack
    rw [h]
    exact safe_bind.mpr (safe_num _ top 4 fun n =>
      .bind (evalCheckDataSigPQC_within hchecker hs sig msg_hash pubkey)
      fun r hr => safe_ok.mpr (hr.with_stack (smallItems_cons.mpr ⟨small_serialize _, hstack.2.2.2.2⟩)))
  · exact safe_setError _

/-! ## The main loop -/

/-- **The switch keeps the limits and takes the price of the opcode.** -/
theorem switch_spends (opcode : UInt8) : Spends bad I flags (signaturesOf opcode)
    (switch (p2mrContext C checker flags) opcode) := by
  by_cases hpqc : opcode = opChecksigpqc
  · exact hpqc ▸ spends_checksigpqc hchecker
  by_cases hadd : opcode = opChecksigadd
  · exact hadd ▸ spends_checksigadd hchecker
  by_cases hdata : opcode = opCheckdatasigpqc
  · exact hdata ▸ spends_checkdatasigpqc hchecker
  by_cases hdataadd : opcode = opCheckdatasigaddpqc
  · exact hdataadd ▸ spends_checkdatasigaddpqc hchecker
  refine .of_keepsWithin (by simp [signatureDepth, hpqc, hadd, hdata, hdataadd]) fun weight => ?_
  have hpaid : IgnoresCodeseparator (Paid I weight) := fun execdata pos h =>
    ⟨hchecker.codeseparator execdata pos h.invariant, h.weight_eq, h.nonneg⟩
  rw [switch]
  split
  · next labels body h =>
    have hlabel := List.find?_some h
    rw [List.contains_iff_mem] at hlabel
    obtain hsig | hother := cases_keepWithin _ opcode hpaid (fun _ => hchecker.template) _
      (List.mem_of_find?_eq_some h)
    · simp only [signatureCases, List.mem_cons, List.not_mem_nil, or_false] at hsig
      obtain ⟨rfl, rfl⟩ | ⟨-, rfl⟩ | ⟨rfl, rfl⟩ | ⟨rfl, rfl⟩ | ⟨rfl, rfl⟩ | ⟨-, rfl⟩ := hsig
      · exact absurd (List.mem_singleton.mp hlabel) hpqc
      · exact keepsWithin_unavailable fun _ => rfl
      · exact absurd (List.mem_singleton.mp hlabel) hadd
      · exact absurd (List.mem_singleton.mp hlabel) hdata
      · exact absurd (List.mem_singleton.mp hlabel) hdataadd
      · exact keepsWithin_unavailable fun _ => rfl
    · exact hother
  · exact keepsWithin_unavailable fun _ => rfl

omit hchecker in
/-- The instructions that push and those that are always executed check no signature. -/
theorem signatureDepth_eq_none (h : opcode ≤ opPushdata4 ∨ (opIf ≤ opcode ∧ opcode ≤ opEndif)) :
    signatureDepth opcode = none := by
  have hne : opcode ≠ opChecksigpqc ∧ opcode ≠ opChecksigadd ∧ opcode ≠ opCheckdatasigpqc ∧
      opcode ≠ opCheckdatasigaddpqc := by
    refine ⟨?_, ?_, ?_, ?_⟩ <;> rintro rfl <;> revert h <;> decide
  simp [signatureDepth, hne]

omit hchecker in
theorem signaturesOf_eq_zero (h : opcode ≤ opPushdata4 ∨ (opIf ≤ opcode ∧ opcode ≤ opEndif))
    (stack : Stack) :
    signaturesOf opcode stack = 0 := by
  rw [signaturesOf, signatureDepth_eq_none h]

/-- **One round keeps the limits and takes its price.** -/
theorem step_within (hs : Within (Paid I weight) s) :
    Safe bad (step (p2mrContext C checker flags) s) fun t =>
      Within (Paid I (weight - pqcValidationCost flags * signaturesProcessed s)) t ∧
        t.stack.length + t.altstack.length ≤ maxStackSize := by
  rw [step, signaturesProcessed]
  rcases getScriptOp s.pc with _ | ⟨opcode, vchPushValue, pc⟩
  · exact safe_setError _
  refine .ite (fun _ => safe_setError _) fun hsize => ?_
  refine safe_guard fun _ => safe_guard fun _ => ?_
  have hs' : Within (Paid I weight) { s with pc } := ⟨hs.stack, hs.altstack, hs.execdata⟩
  have hexecute : Safe bad (execute (p2mrContext C checker flags) opcode vchPushValue
      { s with pc }) (Within (Paid I (weight - pqcValidationCost flags *
        (if s.vfExec.allTrue then signaturesOf opcode s.stack else 0 : Nat)))) := by
    rw [execute]
    by_cases hpush : s.vfExec.allTrue ∧ opcode ≤ opPushdata4
    · rw [if_pos hpush, if_pos hpush.1, signaturesOf_eq_zero (Or.inl hpush.2)]
      refine safe_guard fun _ => safe_ok.mpr ?_
      have hsmall : vchPushValue.length ≤ maxP2MRV1StackItemSize :=
        (not_lt.mp hsize).trans (by decide)
      simpa using hs'.with_stack (smallItems_cons.mpr ⟨hsmall, hs.stack⟩)
    rw [if_neg hpush]
    by_cases hexec : s.vfExec.allTrue
    · rw [if_pos (Or.inl hexec), if_pos hexec]
      exact switch_spends hchecker opcode _ _ hs'
    rw [if_neg hexec]
    refine .ite (fun hcond => ?_) fun _ => safe_ok.mpr (by simpa using hs')
    have hcond := hcond.resolve_left hexec
    have hswitch : Safe bad (switch (p2mrContext C checker flags) opcode _) _ :=
      switch_spends hchecker opcode _ _ hs'
    rwa [signaturesOf_eq_zero (Or.inr hcond)] at hswitch
  refine .bind hexecute fun t ht => .ite (fun _ => safe_setError _) fun hroom => ?_
  exact safe_ok.mpr ⟨⟨ht.stack, ht.altstack, ht.execdata⟩, not_lt.mp hroom⟩

end Bodies

/-! ## Whole runs -/

/-- Rounds of the main loop that processed `n` non-empty signatures. -/
inductive Executes (c : EvalContext) (s : EvalState) : Nat → EvalState → Prop where
  | refl : Executes c s 0 s
  | round {n : Nat} {t u : EvalState} (run : Executes c s n t) (round : Round c t u) :
    Executes c s (n + signaturesProcessed t) u

/-- The state in which `EvalScript` enters its main loop. -/
def initialState (stack : Stack) (script : List UInt8) (execdata : ScriptExecutionData) :
    EvalState where
  stack := stack
  pc := script
  pbegincodehash := script
  execdata := { execdata with m_codeseparator_pos := some 0xffffffff }

theorem Executes.evalLoop {u : EvalState} {n rounds : Nat} (hrun : Executes c s n t)
    (h : evalLoop c rounds t = .ok u) : ∃ m, Executes c s m u := by
  induction rounds generalizing n t with
  | zero =>
    cases h
    exact ⟨n, hrun⟩
  | succ rounds ih =>
    by_cases hend : t.pc = []
    · rw [evalLoop_of_nil c _ hend] at h
      cases h
      exact ⟨n, hrun⟩
    · rw [evalLoop_succ c rounds hend] at h
      obtain ⟨t', hstep, h⟩ := bind_eq_ok_iff.mp h
      exact ih (hrun.round ⟨hend, hstep⟩) h

/-- **What `EvalScript` returns was reached by rounds of its main loop.** -/
theorem executes_of_evalScript {script : List UInt8} {execdata : ScriptExecutionData}
    (h : evalScript c stack script execdata = .ok t) :
    ∃ n, Executes c (initialState stack script execdata) n t := by
  obtain ⟨-, -, h⟩ := bind_eq_ok_iff.mp h
  obtain ⟨-, h⟩ := ite_setError_eq_ok_iff.mp h
  obtain ⟨u, hloop, h⟩ := bind_eq_ok_iff.mp h
  obtain ⟨-, h⟩ := ite_setError_eq_ok_iff.mp h
  cases h
  exact Executes.evalLoop .refl hloop

section Runs

variable {bad : ScriptFailure → Prop} [AllowsInvalid bad] (hchecker : checker.Keeps bad I)

include hchecker

/-- **The main loop does not fail badly.** -/
theorem evalLoop_within (rounds : Nat) (hs : Within (Paid I weight) s) :
    Safe bad (evalLoop (p2mrContext C checker flags) rounds s) fun t =>
      ∃ left, Within (Paid I left) t := by
  induction rounds generalizing s weight with
  | zero => exact safe_ok.mpr ⟨weight, hs⟩
  | succ rounds ih =>
    exact .ite (fun _ => safe_ok.mpr ⟨weight, hs⟩) fun _ =>
      .bind (step_within hchecker hs) fun t ht => ih ht.1

/-- **A run keeps the limits, and takes the price of the signatures it processed.** -/
theorem Executes.within {n : Nat} (hrun : Executes (p2mrContext C checker flags) s n t)
    (hs : Within (Paid I weight) s) (hroom : s.stack.length + s.altstack.length ≤ maxStackSize) :
    Within (Paid I (weight - pqcValidationCost flags * n)) t ∧
      t.stack.length + t.altstack.length ≤ maxStackSize := by
  induction hrun with
  | refl => simpa using ⟨hs, hroom⟩
  | @round n t u _ hround ih =>
    obtain ⟨ht, hroom'⟩ := (step_within hchecker ih.1).2 u hround.2
    have hsum : weight - pqcValidationCost flags * ((n + signaturesProcessed t : Nat)) =
        weight - pqcValidationCost flags * n -
          pqcValidationCost flags * signaturesProcessed t := by
      push_cast
      ring
    exact ⟨hsum ▸ ht, hroom'⟩

end Runs

/-- A checker that leaves the validation weight of the execution data alone. -/
def BaseSignatureChecker.LeavesWeight (checker : BaseSignatureChecker) : Prop :=
  ∀ sig pubkey execdata, Ensures (checker.checkPQCSignature sig pubkey .p2mr execdata) fun r =>
    r.1.m_validation_weight_left = execdata.m_validation_weight_left

/-- Such a checker keeps what is no condition at all. -/
theorem BaseSignatureChecker.LeavesWeight.keeps (h : checker.LeavesWeight) :
    checker.Keeps (fun _ => False) fun _ => True where
  weight _ _ _ := trivial
  codeseparator _ _ _ := trivial
  pqc sig pubkey execdata _ _ := ((h sig pubkey execdata).mono fun _ hr => ⟨trivial, hr⟩).safe
  template _ _ := Ensures.safe fun _ _ => trivial

theorem smallItems_of_limits (h : checkP2MRV1InitialStackResourceLimits stack = .ok ()) :
    SmallItems stack ∧ stack.length ≤ maxStackSize := by
  obtain ⟨hlen, h⟩ := ite_setError_eq_ok_iff.mp h
  obtain ⟨hitem, -⟩ := ite_setError_eq_ok_iff.mp h
  refine ⟨fun item hmem => ?_, not_lt.mp hlen⟩
  by_contra hlarge
  exact hitem (List.any_eq_true.mpr ⟨item, hmem, by simpa using hlarge⟩)

/-- **The resources of a P2MR script.**  Between any two opcodes, no element of the two stacks has
more than 16384 bytes, there are at most 1000 elements, and the validation weight is not negative and
less than at the start by the price of the non-empty signatures that were processed. -/
theorem p2mr_resources {C : Crypto} {checker : BaseSignatureChecker} {flags : VerifyFlags}
    {stack : Stack} {script : List UInt8} {execdata : ScriptExecutionData} {weight : Int} {n : Nat}
    {t : EvalState} (hchecker : checker.LeavesWeight)
    (hlimits : checkP2MRV1InitialStackResourceLimits stack = .ok ())
    (hweight : execdata.m_validation_weight_left = some weight) (hnonneg : 0 ≤ weight)
    (hrun : Executes (p2mrContext C checker flags) (initialState stack script execdata) n t) :
    (∀ item ∈ t.stack ++ t.altstack, item.length ≤ 16384) ∧
      t.stack.length + t.altstack.length ≤ 1000 ∧
      ∃ left, t.execdata.m_validation_weight_left = some left ∧ 0 ≤ left ∧
        left = weight - pqcValidationCost flags * n := by
  obtain ⟨hsmall, hlen⟩ := smallItems_of_limits hlimits
  have hstart : Within (Paid (fun _ => True) weight) (initialState stack script execdata) :=
    ⟨hsmall, smallItems_nil, trivial, hweight, hnonneg⟩
  obtain ⟨ht, hroom⟩ := hrun.within hchecker.keeps hstart hlen
  refine ⟨fun item hitem => ?_, hroom, _, ht.execdata.weight_eq, ht.execdata.nonneg, rfl⟩
  exact (List.mem_append.mp hitem).elim (ht.stack item) (ht.altstack item)

/-- A checker that takes every signature, and changes the execution data as it likes. -/
def acceptingChecker (change : ScriptExecutionData → ScriptExecutionData) :
    BaseSignatureChecker where
  checkECDSASignature _ _ _ _ := true
  checkSchnorrSignature _ _ _ execdata := .ok (change execdata)
  checkPQCSignature _ _ _ execdata := .ok (change execdata, [])
  checkTemplateVerifyHash _ := .ok ()
  checkLockTime _ := true
  checkSequence _ := true

theorem acceptingChecker_leavesWeight : (acceptingChecker id).LeavesWeight :=
  fun _ _ _ => .ok rfl

/-- A script that checks one signature and copies the answer, with weight for one. -/
def oneSignature (change : ScriptExecutionData → ScriptExecutionData) : EvalContext × EvalState :=
  (p2mrContext vectorCrypto (acceptingChecker change) ∅,
    initialState [List.replicate 32 0, [1]] [opChecksigpqc, opDup]
      { m_validation_weight_left := some 5000 })

/-- One signature is processed, and leaves 1317 of a weight of 5000. -/
theorem p2mr_resources_oneSignature :
    ∃ t, Executes (oneSignature id).1 (oneSignature id).2 1 t ∧ t.stack.length = 2 ∧
      ∃ left, t.execdata.m_validation_weight_left = some left ∧ 0 ≤ left ∧ left = 1317 := by
  have hcheck : Executes (oneSignature id).1 (oneSignature id).2 1 _ :=
    .round .refl ⟨List.cons_ne_nil _ _, rfl⟩
  have hrun : Executes (oneSignature id).1 (oneSignature id).2 1 _ :=
    hcheck.round ⟨List.cons_ne_nil _ _, rfl⟩
  exact ⟨_, hrun, rfl, (p2mr_resources acceptingChecker_leavesWeight rfl rfl (by decide) hrun).2.2⟩

/-- A checker that changes the weight makes it negative. -/
theorem p2mr_resources_careless :
    checkP2MRV1InitialStackResourceLimits [List.replicate 32 0, [1]] = .ok () ∧
      ∃ t, Executes (oneSignature fun e => { e with m_validation_weight_left := some (-1) }).1
        (oneSignature fun e => { e with m_validation_weight_left := some (-1) }).2 1 t ∧
        t.execdata.m_validation_weight_left = some (-1) :=
  ⟨rfl, _, .round .refl ⟨List.cons_ne_nil _ _, rfl⟩, rfl⟩

end Qbit
