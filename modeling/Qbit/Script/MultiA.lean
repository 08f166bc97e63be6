import Mathlib.Data.List.Forall2
import Mathlib.Logic.Relation
import Mathlib.Tactic.IntervalCases
import Qbit.Script.Acceptance

/-!
# Leaf scripts that wallets sign

A wallet signs two kinds of P2MR leaf scripts: `pk(KEY)`, and `multi_a(k, KEY, ...)`, which asks for
signatures of exactly `k` of its keys.  Here is what the interpreter makes of them.

The initial stack of such a script has one element for each key, with the element of the first key
on top.  An element is empty, or it is a signature for its key.  `evalScript_signable` says that the
script succeeds if as many elements are signatures as the script asks for and if the validation
weight suffices for them.

`Running` says what is left of the stack, the script and the weight, and each kind of instruction
has one rule for it.
-/

open Bytes Checked

namespace Qbit

open CScriptNum EvalContext

/-! ## The scripts -/

/-- `p2mr::BuildPKScript` -/
def buildPKScript (pubkey : Valtype) : List UInt8 := pushData pubkey ++ [opChecksigpqc]

/-- The keys that follow the first, each with its opcode. -/
def multiAKeys (pubkeys : List Valtype) : List UInt8 :=
  pubkeys.flatMap fun pubkey => pushData pubkey ++ [opChecksigadd]

theorem multiAKeys_cons_append (pubkey : Valtype) (pubkeys : List Valtype) (rest : List UInt8) :
    multiAKeys (pubkey :: pubkeys) ++ rest =
      pushData pubkey ++ (opChecksigadd :: (multiAKeys pubkeys ++ rest)) := by simp [multiAKeys]

/-- `P2MRMultiADescriptor::BuildScript`, for a list of keys that is not empty. -/
def buildMultiAScript (threshold : Nat) : List Valtype → List UInt8
  | [] => []
  | pubkey :: pubkeys =>
    buildPKScript pubkey ++ (multiAKeys pubkeys ++ (pushInt64 threshold ++ [opNumequal]))

/-- `MAX_PUBKEYS_PER_MULTI_A` -/
def maxPubkeysPerMultiA : Nat := 999

/-- The script is one of the two kinds, with these keys and this number of signatures. -/
inductive SignableScript : List UInt8 → List Valtype → Nat → Prop where
  | pk {pubkey : Valtype} (hkey : pubkey.length = 32) :
      SignableScript (buildPKScript pubkey) [pubkey] 1
  | multiA {threshold : Nat} {pubkeys : List Valtype} (hkeys : ∀ key ∈ pubkeys, key.length = 32)
      (hpos : 0 < threshold) (hthreshold : threshold ≤ pubkeys.length)
      (hmax : pubkeys.length ≤ maxPubkeysPerMultiA) :
      SignableScript (buildMultiAScript threshold pubkeys) pubkeys threshold

/-- The signatures among the elements of the initial stack. -/
def signatureCount (items : List Valtype) : Nat := items.countP fun item => !item.isEmpty

@[simp] theorem signatureCount_nil : signatureCount [] = 0 := rfl

theorem signatureCount_cons (item : Valtype) (items : List Valtype) :
    signatureCount (item :: items) = (if item = [] then 0 else 1) + signatureCount items := by
  rw [signatureCount, signatureCount, List.countP_cons]
  cases item with
  | nil => simp
  | cons b bs => simp [Nat.add_comm]

theorem signatureCount_le (items : List Valtype) : signatureCount items ≤ items.length :=
  List.countP_le_length

/-! ## Reading -/

variable {data : Valtype}

theorem getScriptOp_pushData (hlen : data.length < 76) (rest : List UInt8) :
    getScriptOp (pushData data ++ rest) = some (UInt8.ofNat data.length, data, rest) := by
  have hlt : data.length < opPushdata1.toNat := hlen
  have hbytes : leBytes 1 data.length = [UInt8.ofNat data.length] := rfl
  have htoNat : (UInt8.ofNat data.length).toNat = data.length := by
    rw [UInt8.toNat_ofNat']
    omega
  have hpush : UInt8.ofNat data.length < opPushdata1 := by simp [UInt8.lt_iff_toNat_lt, htoNat, hlt]
  have hle : UInt8.ofNat data.length ≤ opPushdata4 := by
    rw [UInt8.le_iff_toNat_le, htoNat]
    exact hlt.le.trans (by decide)
  rw [pushData, if_pos hlt, hbytes, List.append_assoc, List.singleton_append, getScriptOp,
    if_pos hle, immediateSize, if_pos hpush, htoNat]
  simp

theorem getScriptOp_cons {opcode : UInt8} (hop : opPushdata4 < opcode) (rest : List UInt8) :
    getScriptOp (opcode :: rest) = some (opcode, [], rest) := by
  rw [getScriptOp, if_neg]
  rw [UInt8.le_iff_toNat_le, not_le]
  exact UInt8.lt_iff_toNat_lt.mp hop

theorem checkMinimalPush_of_length (hmin : 2 ≤ data.length) (hmax : data.length < 76) :
    checkMinimalPush data (UInt8.ofNat data.length) = true := by
  have htoNat : (UInt8.ofNat data.length).toNat = data.length := by
    rw [UInt8.toNat_ofNat']
    omega
  match data with
  | [] => simp at hmin
  | [_] => simp at hmin
  | a :: b :: rest =>
    rw [checkMinimalPush, if_pos (by omega), htoNat]
    · simp
    · rintro ⟨⟩
    · rintro _ ⟨⟩

/-! ## Rounds -/

/-- One round of the main loop. -/
def Round (c : EvalContext) (s t : EvalState) : Prop := s.pc ≠ [] ∧ step c s = .ok t

section Execution

variable {C : Crypto} {checker : BaseSignatureChecker} {flags : VerifyFlags}

/-- Rounds that lead to the end of the script are what the main loop does. -/
theorem evalLoop_of_rounds {s t : EvalState}
    (h : Relation.ReflTransGen (Round (p2mrContext C checker flags)) s t) (hend : t.pc = [])
    {rounds : Nat} (hrounds : s.pc.length ≤ rounds) :
    evalLoop (p2mrContext C checker flags) rounds s = .ok t := by
  induction h using Relation.ReflTransGen.head_induction_on generalizing rounds with
  | refl => exact evalLoop_of_nil _ rounds hend
  | @head s u hround _ ih =>
    obtain ⟨hpc, hstep⟩ := hround
    obtain ⟨opcode, data, hop⟩ := step_reads s u hstep
    have hlt := length_lt_of_getScriptOp hop
    obtain ⟨rounds, rfl⟩ : ∃ r, rounds = r + 1 := ⟨rounds - 1, by omega⟩
    rw [evalLoop_succ _ rounds hpc, hstep, ok_bind]
    exact ih (by omega)

/-- The state in the middle of a script without conditions: the stack, what is left of the script,
the validation weight that is left, and what is known of the execution data. -/
structure Running (Q : ScriptExecutionData → Prop) (stack : Stack) (pc : List UInt8) (weight : Int)
    (s : EvalState) : Prop where
  stack_eq : s.stack = stack
  altstack_eq : s.altstack = []
  vfExec_eq : s.vfExec = {}
  pc_eq : s.pc = pc
  execdata : Q s.execdata
  weight_eq : s.execdata.m_validation_weight_left = some weight

/-- A checker that accepts the valid signatures, whatever the execution data are as long as they
satisfy `Q`, and changes nothing of them that matters. -/
structure BaseSignatureChecker.Accepts (checker : BaseSignatureChecker)
    (valid : Valtype → Valtype → Prop) (Q : ScriptExecutionData → Prop) : Prop where
  accepts : ∀ {sig pubkey : Valtype} {execdata : ScriptExecutionData}, Q execdata →
    valid sig pubkey → ∃ execdata' calls,
      checker.checkPQCSignature sig pubkey .p2mr execdata = .ok (execdata', calls) ∧
        Q execdata' ∧
        execdata'.m_validation_weight_left = execdata.m_validation_weight_left
  weight : ∀ {execdata : ScriptExecutionData} (weight : Int), Q execdata →
    Q { execdata with m_validation_weight_left := some weight }

variable {Q : ScriptExecutionData → Prop} {stack : Stack} {rest : List UInt8} {weight : Int}
  {s : EvalState}

theorem countOp_p2mr (opcode : UInt8) (s : EvalState) :
    countOp (p2mrContext C checker flags) opcode s = .ok s :=
  if_neg fun h => h.1.elim SigVersion.noConfusion SigVersion.noConfusion

variable {opcode : UInt8} {data item pubkey : Valtype} {pc : List UInt8} {n threshold : Nat}
  {stack' : Stack} {valid : Valtype → Valtype → Prop} {pubkeys items : List Valtype}

theorem not_disabled_of_push (h : opcode ≤ opPushdata4) :
    disabledOpcodes.contains opcode = false := by
  have hall : disabledOpcodes.all (opPushdata4 < ·) = true := by decide
  rw [Bool.eq_false_iff]
  intro hmem
  have hlt := List.all_eq_true.mp hall opcode (List.contains_iff_mem.mp hmem)
  exact UInt8.not_le.mpr (of_decide_eq_true hlt) h

theorem step_push (hop : getScriptOp s.pc = some (opcode, data, rest)) (hle : opcode ≤ opPushdata4)
    (hsize : data.length ≤ 520) (hminimal : checkMinimalPush data opcode = true)
    (hexec : s.vfExec = {}) (hroom : s.stack.length + s.altstack.length < 1000) :
    step (p2mrContext C checker flags) s =
      .ok { s with pc := rest, stack := data :: s.stack, opcode_pos := s.opcode_pos + 1 } := by
  have htrue : s.vfExec.allTrue = true := by rw [hexec]; rfl
  have hexecute : execute (p2mrContext C checker flags) opcode data { s with pc := rest } =
      .ok { s with pc := rest, stack := data :: s.stack } := by
    rw [execute, if_pos ⟨htrue, hle⟩, if_neg (by simp [hminimal])]
  have hpushed : ¬(data :: s.stack).length + s.altstack.length > maxStackSize := by
    rw [List.length_cons, maxStackSize]
    omega
  rw [step, hop]
  dsimp only
  rw [if_neg (by rw [maxScriptElementSize]; omega), countOp_p2mr, ok_bind,
    not_disabled_of_push hle, if_neg Bool.false_ne_true,
    if_neg (fun h => SigVersion.noConfusion h.2.1), hexecute, ok_bind, if_neg hpushed]
  rfl

theorem step_op {t : EvalState} (hop : getScriptOp s.pc = some (opcode, [], rest))
    (hgt : ¬opcode ≤ opPushdata4) (hdisabled : disabledOpcodes.contains opcode = false)
    (hexec : s.vfExec = {})
    (hswitch : switch (p2mrContext C checker flags) opcode { s with pc := rest } = .ok t)
    (hroom : t.stack.length + t.altstack.length ≤ 1000) :
    step (p2mrContext C checker flags) s = .ok { t with opcode_pos := t.opcode_pos + 1 } := by
  have htrue : s.vfExec.allTrue = true := by rw [hexec]; rfl
  have hexecute : execute (p2mrContext C checker flags) opcode [] { s with pc := rest } = .ok t := by
    rw [execute, if_neg (fun h => hgt h.2), if_pos (Or.inl htrue), hswitch]
  rw [step, hop]
  dsimp only
  rw [if_neg (by decide), countOp_p2mr, ok_bind, hdisabled, if_neg Bool.false_ne_true,
    if_neg (fun h => SigVersion.noConfusion h.2.1), hexecute, ok_bind,
    if_neg (by rw [maxStackSize]; omega)]
  rfl

/-! ## One rule for each kind of instruction -/

theorem Running.push_of_op (hs : Running Q stack pc weight s)
    (hop : getScriptOp pc = some (opcode, data, rest)) (hle : opcode ≤ opPushdata4)
    (hsize : data.length ≤ 520) (hminimal : checkMinimalPush data opcode = true)
    (hroom : stack.length < 1000) :
    ∃ t, Round (p2mrContext C checker flags) s t ∧ Running Q (data :: stack) rest weight t := by
  rw [← hs.pc_eq] at hop
  refine ⟨_, ⟨fun hnil => ?_, step_push hop hle hsize hminimal hs.vfExec_eq ?_⟩, ?_⟩
  · rw [hnil] at hop
    cases hop
  · simp [hs.stack_eq, hs.altstack_eq, hroom]
  · exact ⟨congrArg _ hs.stack_eq, hs.altstack_eq, hs.vfExec_eq, rfl, hs.execdata, hs.weight_eq⟩

theorem Running.push (hmin : 2 ≤ data.length) (hmax : data.length < 76)
    (hs : Running Q stack (pushData data ++ rest) weight s) (hroom : stack.length < 1000) :
    ∃ t, Round (p2mrContext C checker flags) s t ∧ Running Q (data :: stack) rest weight t := by
  have hle : UInt8.ofNat data.length ≤ opPushdata4 := by
    exact (Nat.mod_le _ _).trans ((Nat.le_of_lt_succ hmax).trans (by decide))
  exact hs.push_of_op (getScriptOp_pushData hmax rest) hle (by omega)
    (checkMinimalPush_of_length hmin hmax) hroom

/-- The numbers that are put on the stack here are read back. -/
theorem num_serialize (hn : n < 1000) :
    (p2mrContext C checker flags).num (serialize n) = .ok (n : Int) := by
  have hall : ∀ m < 1000, ∀ b : Bool,
      ofVch (serialize ((m : Nat) : Int)) b = some (m : Int) := by
    decide +kernel
  rw [num, hall n hn]

theorem Running.op {weight' : Int} (hs : Running Q stack (opcode :: rest) weight s)
    (hgt : opPushdata4 < opcode) (hdisabled : disabledOpcodes.contains opcode = false)
    (hroom : stack'.length ≤ 1000)
    (hswitch : ∀ t, Running Q stack rest weight t → ∃ u,
      switch (p2mrContext C checker flags) opcode t = .ok u ∧ Running Q stack' rest weight' u) :
    ∃ t, Round (p2mrContext C checker flags) s t ∧ Running Q stack' rest weight' t := by
  obtain ⟨u, hu, hrun⟩ := hswitch { s with pc := rest }
    ⟨hs.stack_eq, hs.altstack_eq, hs.vfExec_eq, rfl, hs.execdata, hs.weight_eq⟩
  have hop : getScriptOp s.pc = some (opcode, [], rest) := hs.pc_eq ▸ getScriptOp_cons hgt rest
  refine ⟨_, ⟨?_, step_op hop (UInt8.not_le.mpr hgt) hdisabled hs.vfExec_eq hu ?_⟩, ?_⟩
  · simp [hs.pc_eq]
  · simp [hrun.stack_eq, hrun.altstack_eq, hroom]
  · exact ⟨hrun.stack_eq, hrun.altstack_eq, hrun.vfExec_eq, hrun.pc_eq, hrun.execdata,
      hrun.weight_eq⟩

theorem Running.with_stack (hs : Running Q stack pc weight s) :
    Running Q stack' pc weight { s with stack := stack' } :=
  ⟨rfl, hs.altstack_eq, hs.vfExec_eq, hs.pc_eq, hs.execdata, hs.weight_eq⟩

theorem switch_smallInt (hpos : 0 < n) (hn : n ≤ 16) :
    switch (p2mrContext C checker flags) (UInt8.ofNat (n + 80)) =
      onStack fun stack => .ok (serialize n :: stack) := by
  interval_cases n <;> rfl

theorem pushInt64_small (hpos : 0 < n) (hn : n ≤ 16) :
    pushInt64 n = [UInt8.ofNat (n + 80)] ∧ opPushdata4 < UInt8.ofNat (n + 80) := by
  interval_cases n <;> exact ⟨rfl, by decide⟩

theorem Running.pushInt (hpos : 0 < n) (hn : n < 1000)
    (hs : Running Q stack (pushInt64 n ++ rest) weight s) (hroom : stack.length < 1000) :
    ∃ t, Round (p2mrContext C checker flags) s t ∧
      Running Q (serialize n :: stack) rest weight t := by
  by_cases hsmall : n ≤ 16
  · obtain ⟨hbyte, hgt⟩ := pushInt64_small hpos hsmall
    have hdisabled : disabledOpcodes.contains (UInt8.ofNat (n + 80)) = false := by
      interval_cases n <;> decide
    rw [hbyte, List.singleton_append] at hs
    refine hs.op hgt hdisabled (by rw [List.length_cons]; omega) fun t ht => ?_
    rw [switch_smallInt hpos hsmall, onStack, ht.stack_eq]
    exact ⟨_, rfl, ht.with_stack⟩
  · have hall : ∀ m < 1000, 16 < m → (serialize ((m : Nat) : Int)).length < 3 ∧
        checkMinimalPush (serialize ((m : Nat) : Int))
          (UInt8.ofNat (serialize ((m : Nat) : Int)).length) = true := by
      decide +kernel
    obtain ⟨hlen, hminimal⟩ := hall n hn (by omega)
    have hpush : pushInt64 n = pushData (serialize n) := by
      rw [pushInt64, if_neg (by omega), if_neg (by omega)]
    have hle : UInt8.ofNat (serialize n).length ≤ opPushdata4 := by
      exact (Nat.mod_le _ _).trans ((Nat.le_of_lt_succ hlen).trans (by decide))
    rw [hpush] at hs
    exact hs.push_of_op (getScriptOp_pushData (by omega) rest) hle (by omega) hminimal hroom

theorem Running.numequal {k : Nat} (hn : n < 1000) (hk : k < 1000)
    (hs : Running Q (serialize k :: serialize n :: stack) (opNumequal :: rest) weight s)
    (hroom : stack.length < 1000) :
    ∃ t, Round (p2mrContext C checker flags) s t ∧
      Running Q ((if n = k then [1] else []) :: stack) rest weight t := by
  refine hs.op (by decide) (by decide) (by rw [List.length_cons]; omega) fun t ht => ?_
  have hswitch : switch (p2mrContext C checker flags) opNumequal =
      onStack (StackOp.binary (p2mrContext C checker flags) opNumequal) := rfl
  have hresult : serialize (StackOp.binaryResult opNumequal n k) =
      if n = k then [1] else [] := by
    have hequal : StackOp.binaryResult opNumequal n k = if n = k then 1 else 0 := by
      by_cases heq : n = k
      · simp [StackOp.binaryResult, opNumequal, opAdd, opSub, opBooland, opBoolor]
      · simp [StackOp.binaryResult, opNumequal, opAdd, opSub, opBooland, opBoolor]
    rw [hequal]
    split <;> rfl
  rw [hswitch, onStack, ht.stack_eq, StackOp.binary, num_serialize hn, ok_bind, num_serialize hk,
    ok_bind, hresult]
  exact ⟨_, rfl, ht.with_stack⟩

/-- A signature check on an element that is empty or a valid signature. -/
theorem evalChecksig_item (hc : checker.Accepts valid Q) (hkey : pubkey.length = 32)
    (hitem : item = [] ∨ valid item pubkey) (hs : Running Q stack pc weight s)
    (hweight : (if item = [] then 0 else pqcValidationCost flags) ≤ weight) :
    ∃ t, evalChecksig (p2mrContext C checker flags) item pubkey s = .ok (!item.isEmpty, t) ∧
      Running Q stack pc
        (weight - if item = [] then 0 else pqcValidationCost flags) t := by
  have hchecksig : evalChecksig (p2mrContext C checker flags) item pubkey s =
      evalChecksigP2MR (p2mrContext C checker flags) item pubkey s := rfl
  have hrequire : Eval.require ((p2mrContext C checker flags).sigversion = .p2mr) = .ok () := rfl
  have hlen : ¬pubkey.length = 0 := by omega
  rw [hchecksig, evalChecksigP2MR, hrequire, ok_bind]
  by_cases hempty : item = []
  · subst hempty
    rw [if_pos rfl, Int.sub_zero]
    refine ⟨s, ?_, hs⟩
    simp [hkey]
  have hvalid := hitem.resolve_left hempty
  have hsome : item.isEmpty = false := by simpa using hempty
  rw [if_neg hempty] at hweight ⊢
  have hdebit : debitValidationWeight (pqcValidationCost flags)
      .p2mrValidationWeight s = .ok { s with execdata := { s.execdata with
        m_validation_weight_left := some (weight - pqcValidationCost flags) } } := by
    rw [debitValidationWeight, hs.weight_eq, Eval.init, ok_bind, if_neg (by omega)]
    rfl
  obtain ⟨execdata, calls, hcheck, hQ, hleft⟩ := hc.accepts
    (hc.weight (weight - pqcValidationCost flags) hs.execdata) hvalid
  refine ⟨{ s with execdata, pqcVerifications := s.pqcVerifications ++ calls }, ?_,
    hs.stack_eq, hs.altstack_eq, hs.vfExec_eq, hs.pc_eq, hQ, hleft⟩
  rw [hsome, Bool.not_false]
  change (debitValidationWeight (pqcValidationCost flags) .p2mrValidationWeight s >>=
    _) = _
  rw [hdebit, ok_bind, if_neg hlen, if_pos hkey]
  change (checker.checkPQCSignature item pubkey .p2mr _ >>= _) = _
  rw [hcheck]
  rfl

theorem Running.checksigpqc (hc : checker.Accepts valid Q) (hkey : pubkey.length = 32)
    (hitem : item = [] ∨ valid item pubkey)
    (hs : Running Q (pubkey :: item :: stack) (opChecksigpqc :: rest) weight s)
    (hweight : (if item = [] then 0 else pqcValidationCost flags) ≤ weight)
    (hroom : stack.length < 1000) :
    ∃ t, Round (p2mrContext C checker flags) s t ∧
      Running Q (serialize ((if item = [] then 0 else 1 : Nat) : Int) :: stack) rest
        (weight - if item = [] then 0 else pqcValidationCost flags) t := by
  refine hs.op (by decide) (by decide) (by rw [List.length_cons]; omega) fun t ht => ?_
  have hswitch : switch (p2mrContext C checker flags) opChecksigpqc =
      OpBody.checksigpqc (p2mrContext C checker flags) := rfl
  obtain ⟨u, hu, hrun⟩ := evalChecksig_item hc hkey hitem ht hweight
  have hbool : ofBool (!item.isEmpty) =
      serialize ((if item = [] then 0 else 1 : Nat) : Int) := by
    by_cases hempty : item = []
    · rw [hempty]
      rfl
    · rw [if_neg hempty, List.isEmpty_eq_false_iff.mpr hempty]
      rfl
  have hversion : (p2mrContext C checker flags).sigversion = .p2mr := rfl
  rw [hswitch, OpBody.checksigpqc, if_neg (not_not.mpr hversion), ht.stack_eq]
  dsimp only
  rw [hu, ok_bind]
  rw [hbool]
  exact ⟨_, rfl, hrun.with_stack⟩

theorem Running.checksigadd {valid : Valtype → Valtype → Prop} (hc : checker.Accepts valid Q)
    {item pubkey : Valtype} {n : Nat} (hn : n < 1000) (hkey : pubkey.length = 32)
    (hitem : item = [] ∨ valid item pubkey)
    (hs : Running Q (pubkey :: serialize n :: item :: stack) (opChecksigadd :: rest) weight s)
    (hweight : (if item = [] then 0 else pqcValidationCost flags) ≤ weight)
    (hroom : stack.length < 1000) :
    ∃ t, Round (p2mrContext C checker flags) s t ∧
      Running Q (serialize ((n + if item = [] then 0 else 1 : Nat) : Int) :: stack) rest
        (weight - if item = [] then 0 else pqcValidationCost flags) t := by
  refine hs.op (by decide) (by decide) (by rw [List.length_cons]; omega) fun t ht => ?_
  have hswitch : switch (p2mrContext C checker flags) opChecksigadd =
      OpBody.checksigadd (p2mrContext C checker flags) := rfl
  obtain ⟨u, hu, hrun⟩ := evalChecksig_item hc hkey hitem ht hweight
  have hadd : (n : Int) + (if !item.isEmpty then 1 else 0) =
      ((n + if item = [] then 0 else 1 : Nat) : Int) := by
    cases item <;> simp
  have hversion : (p2mrContext C checker flags).sigversion = .p2mr := rfl
  rw [hswitch, OpBody.checksigadd, if_neg (fun h => h.2 hversion), ht.stack_eq]
  dsimp only
  rw [num_serialize hn, ok_bind, hu, ok_bind]
  rw [hadd]
  exact ⟨_, rfl, hrun.with_stack⟩

/-! ## The whole script -/

/-- What a number of signatures costs. -/
def signatureCost (flags : VerifyFlags) (items : List Valtype) : Int :=
  signatureCount items * pqcValidationCost flags

theorem signatureCost_cons (flags : VerifyFlags) (item : Valtype) (items : List Valtype) :
    signatureCost flags (item :: items) =
      (if item = [] then 0 else pqcValidationCost flags) +
        signatureCost flags items := by
  rw [signatureCost, signatureCost, signatureCount_cons]
  split <;> push_cast <;> ring

theorem signatureCost_nonneg (flags : VerifyFlags) (items : List Valtype) :
    0 ≤ signatureCost flags items :=
  mul_nonneg (Int.natCast_nonneg _) (pqcValidationCost_pos flags).le

/-- The elements of the stack belong to the keys. -/
def ItemsFor (valid : Valtype → Valtype → Prop) (pubkeys items : List Valtype) : Prop :=
  List.Forall₂ (fun pubkey item => pubkey.length = 32 ∧ (item = [] ∨ valid item pubkey)) pubkeys
    items

variable (hc : checker.Accepts valid Q)

include hc

theorem Running.multiAKeys (hitems : ItemsFor valid pubkeys items) (hkeys : pubkeys.length < 999)
    (hn : n + pubkeys.length < 1000)
    (hs : Running Q (serialize n :: items) (multiAKeys pubkeys ++ rest) weight s)
    (hweight : signatureCost flags items ≤ weight) :
    ∃ t, Relation.ReflTransGen (Round (p2mrContext C checker flags)) s t ∧
      Running Q [serialize ((n + signatureCount items : Nat) : Int)] rest
        (weight - signatureCost flags items) t := by
  induction hitems generalizing s n weight with
  | nil =>
    refine ⟨s, .refl, ?_⟩
    simpa [signatureCost, Qbit.multiAKeys] using hs
  | @cons pubkey item pubkeys items hitem hitems ih =>
    have hlen := List.Forall₂.length_eq hitems
    rw [List.length_cons] at hn hkeys
    rw [signatureCost_cons] at hweight
    have hcost := signatureCost_nonneg flags items
    rw [multiAKeys_cons_append] at hs
    obtain ⟨t, hst, ht⟩ := hs.push (by omega) (by omega)
      (by rw [List.length_cons, List.length_cons]; omega)
    obtain ⟨u, htu, hu⟩ := ht.checksigadd (C := C) hc (by omega) hitem.1 hitem.2
      ((le_add_of_nonneg_right hcost).trans hweight) (by omega)
    obtain ⟨v, huv, hv⟩ := ih (by omega) (by split <;> omega) hu (le_sub_iff_add_le'.mpr hweight)
    refine ⟨v, .head hst (.head htu huv), ?_⟩
    rw [signatureCost_cons, signatureCount_cons, ← Nat.add_assoc]
    rwa [Int.sub_sub] at hv

theorem Running.pk (hkey : pubkey.length = 32) (hitem : item = [] ∨ valid item pubkey)
    (hs : Running Q (item :: stack) (buildPKScript pubkey ++ rest) weight s)
    (hweight : (if item = [] then 0 else pqcValidationCost flags) ≤ weight)
    (hroom : stack.length < 999) :
    ∃ t, Relation.ReflTransGen (Round (p2mrContext C checker flags)) s t ∧
      Running Q (serialize ((if item = [] then 0 else 1 : Nat) : Int) :: stack) rest
        (weight - if item = [] then 0 else pqcValidationCost flags) t := by
  have hscript : buildPKScript pubkey ++ rest = pushData pubkey ++ (opChecksigpqc :: rest) := by
    simp [buildPKScript]
  rw [hscript] at hs
  obtain ⟨t, hst, ht⟩ := hs.push (by omega) (by omega) (by rw [List.length_cons]; omega)
  obtain ⟨u, htu, hu⟩ := ht.checksigpqc (C := C) hc hkey hitem hweight (by omega)
  exact ⟨u, .head hst (.single htu), hu⟩

theorem Running.multiA (hitems : ItemsFor valid pubkeys items) (hpos : 0 < threshold)
    (hthreshold : threshold ≤ pubkeys.length) (hmax : pubkeys.length ≤ maxPubkeysPerMultiA)
    (hs : Running Q items (buildMultiAScript threshold pubkeys) weight s)
    (hweight : signatureCost flags items ≤ weight) :
    ∃ t, Relation.ReflTransGen (Round (p2mrContext C checker flags)) s t ∧
      Running Q [if signatureCount items = threshold then [1] else []] []
        (weight - signatureCost flags items) t := by
  rw [maxPubkeysPerMultiA] at hmax
  cases hitems with
  | nil => exact absurd hthreshold (by rw [List.length_nil]; omega)
  | @cons pubkey item pubkeys items hitem hitems =>
    have hlen := List.Forall₂.length_eq hitems
    have hcost := signatureCost_nonneg flags items
    rw [List.length_cons] at hthreshold hmax
    rw [signatureCost_cons] at hweight
    rw [signatureCost_cons, signatureCount_cons]
    obtain ⟨t, hst, ht⟩ := hs.pk (C := C) hc hitem.1 hitem.2
      ((le_add_of_nonneg_right hcost).trans hweight) (by omega)
    obtain ⟨u, htu, hu⟩ := ht.multiAKeys (C := C) hc hitems (by omega) (by split <;> omega)
      (le_sub_iff_add_le'.mpr hweight)
    obtain ⟨v, huv, hv⟩ := hu.pushInt hpos (by omega) (by simp)
    have hcount := signatureCount_le items
    obtain ⟨w, hvw, hw⟩ := hv.numequal (by split <;> omega) (by omega) (by simp)
    refine ⟨w, (hst.trans htu).trans (.head huv (.single hvw)), ?_⟩
    rwa [Int.sub_sub] at hw

/-- **The execution of a script that a wallet signs**: it ends with true on the stack if exactly as
many elements are signatures as it asks for. -/
theorem evalScript_signable {script : List UInt8}
    (hscript : SignableScript script pubkeys threshold) (hitems : ItemsFor valid pubkeys items)
    (hcount : signatureCount items = threshold) {execdata : ScriptExecutionData}
    (hQ : Q { execdata with m_codeseparator_pos := some 0xffffffff })
    (hleft : execdata.m_validation_weight_left = some weight)
    (hweight : signatureCost flags items ≤ weight) :
    ∃ s, evalScript (p2mrContext C checker flags) items script execdata = .ok s ∧
      s.stack = [[1]] := by
  have hbegin : Running Q items script weight
      { stack := items
        pc := script
        pbegincodehash := script
        execdata := { execdata with m_codeseparator_pos := some 0xffffffff } } :=
    ⟨rfl, rfl, rfl, rfl, hQ, hleft⟩
  obtain ⟨t, hrounds, ht⟩ : ∃ t, Relation.ReflTransGen (Round (p2mrContext C checker flags))
      { stack := items
        pc := script
        pbegincodehash := script
        execdata := { execdata with m_codeseparator_pos := some 0xffffffff } } t ∧
        ∃ left, Running Q [[1]] [] left t := by
    cases hscript with
    | @pk pubkey hkey =>
      obtain ⟨item, _, hitem, hnil, rfl⟩ := List.forall₂_cons_left_iff.mp hitems
      obtain rfl := List.forall₂_nil_left_iff.mp hnil
      rw [signatureCount_cons, signatureCount_nil] at hcount
      have hsome : item ≠ [] := fun h => by simp [h] at hcount
      rw [signatureCost_cons, signatureCost, signatureCount_nil, if_neg hsome] at hweight
      rw [← List.append_nil (buildPKScript pubkey)] at hbegin
      obtain ⟨t, hst, ht⟩ := hbegin.pk (C := C) hc hkey hitem.2
        (by rw [if_neg hsome]; simpa using hweight) (by decide)
      rw [List.append_nil] at hst
      rw [if_neg hsome] at ht
      exact ⟨t, hst, _, ht⟩
    | multiA hkeys hpos hthreshold hmax =>
      obtain ⟨t, hst, ht⟩ := hbegin.multiA (C := C) hc hitems hpos hthreshold hmax hweight
      rw [if_pos hcount] at ht
      exact ⟨t, hst, _, ht⟩
  obtain ⟨left, ht⟩ := ht
  have hrequire : Eval.require ((p2mrContext C checker flags).sigversion ≠ .taproot) = .ok () := rfl
  have hempty : t.vfExec.empty = true := by rw [ht.vfExec_eq]; rfl
  refine ⟨t, ?_, ht.stack_eq⟩
  rw [evalScript, hrequire, ok_bind,
    if_neg fun h => h.1.elim SigVersion.noConfusion SigVersion.noConfusion]
  simp [evalLoop_of_rounds hrounds ht.pc_eq le_rfl, hempty]

end Execution

end Qbit
