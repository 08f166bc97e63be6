import Qbit.Script.Resources

/-!
# Precomputed data suffices

A node prepares the hashes that signatures commit to once for a transaction, and then asserts that
they are there.  `PrecomputedTransactionData::Init` decides from the inputs which of them to prepare.
Here is the proof that an input which spends a native P2MR output never misses any, whatever the
other inputs spend: `verifyScript` ends without a failed assertion.

`IsFault` are the failures that are excluded.  The invariant of the execution data is `Initialized`:
the leaf hash, the position of the last code separator and the annex are there.
-/

open Bytes Checked

namespace Qbit

open PrecomputedTransactionData

/-! ## The scan of the inputs -/

namespace PrecomputedTransactionData

/-- What the inputs of a transaction use. -/
structure Uses where
  bip143_segwit : Bool := false
  bip341_taproot : Bool := false
  ctv : Bool := false

/-- There is nothing left to find. -/
def Uses.all (u : Uses) : Bool := u.bip143_segwit && u.bip341_taproot && u.ctv

/-- An input with a witness spends a native program of version 1 or 2, or something else. -/
def Uses.add (u : Uses) : Option Nat → Uses
  | none => { u with bip143_segwit := true }
  | some version => { u with bip341_taproot := true, ctv := u.ctv || version == 2 }

/-- The loop of `PrecomputedTransactionData::Init` over the inputs, which ends early when everything
was found. -/
def scanInputs (spent_outputs : List CTxOut) : List (CTxIn × Nat) → Uses → Uses
  | [], u => u
  | (txin, inpos) :: vin, u =>
    if u.all then u
    else if txin.scriptWitness.isEmpty then scanInputs spent_outputs vin u
    else scanInputs spent_outputs vin (u.add (nativeVersion spent_outputs inpos))

/-- What the loop finds from where it stands: what was found before, and what is among the rest. -/
theorem scanInputs_eq (spent_outputs : List CTxOut) (vin : List (CTxIn × Nat)) (u : Uses) :
    let uses := (vin.filter fun i => !i.1.scriptWitness.isEmpty).map fun i =>
      nativeVersion spent_outputs i.2
    scanInputs spent_outputs vin u =
      { bip143_segwit := u.bip143_segwit || uses.any (· == none)
        bip341_taproot := u.bip341_taproot || uses.any (· != none)
        ctv := u.ctv || uses.any (· == some 2) } := by
  induction vin generalizing u with
  | nil => simp [scanInputs]
  | cons i vin ih =>
    obtain ⟨txin, inpos⟩ := i
    rw [scanInputs]
    by_cases hall : u.all
    · obtain ⟨⟨h143, h341⟩, hctv⟩ : (u.bip143_segwit = true ∧ u.bip341_taproot = true) ∧
          u.ctv = true := by simpa [Uses.all] using hall
      rw [if_pos hall, h143, h341, hctv]
      cases u
      simp_all
    rw [if_neg hall]
    by_cases hempty : txin.scriptWitness.isEmpty
    · simp [hempty, ih]
    rw [if_neg hempty, ih]
    cases hversion : nativeVersion spent_outputs inpos with
    | none => simp [hempty, hversion, Uses.add]
    | some version => simp [hempty, hversion, Uses.add, Bool.or_assoc]

/-- **The early end of the loop changes nothing**: it finds what all inputs use. -/
theorem scanInputs_witnessUses (tx : CTransaction) (spent_outputs : List CTxOut) :
    scanInputs spent_outputs tx.vin.zipIdx {} =
      { bip143_segwit := (witnessUses tx spent_outputs).any (· == none)
        bip341_taproot := (witnessUses tx spent_outputs).any (· != none)
        ctv := (witnessUses tx spent_outputs).any (· == some 2) } := by
  simpa [witnessUses] using scanInputs_eq spent_outputs tx.vin.zipIdx {}

end PrecomputedTransactionData

/-- The data that P2MR signatures and template checks of input `nIn` need is there. -/
structure P2MRReady (tx : CTransaction) (nIn : Nat) (cache : PrecomputedTransactionData) : Prop where
  taproot_ready : cache.m_bip341_taproot_ready
  spent_outputs_ready : cache.m_spent_outputs_ready
  ctv_ready : cache.m_ctv_ready
  input : nIn < tx.vin.length
  spent_output : nIn < cache.m_spent_outputs.length

/-- An input with a witness that spends a native P2MR output. -/
structure SpendsP2MR (tx : CTransaction) (spent_outputs : List CTxOut) (nIn : Nat) (txin : CTxIn)
    (coin : CTxOut) (program : Valtype) : Prop where
  input : tx.vin[nIn]? = some txin
  witness : txin.scriptWitness ≠ []
  spent : spent_outputs[nIn]? = some coin
  native : isWitnessProgram coin.scriptPubKey.bytes = some (2, program)
  size : program.length = 32

section Init

variable {C : Crypto} {tx : CTransaction} {spent_outputs : List CTxOut} {nIn : Nat} {txin : CTxIn}
  {coin : CTxOut} {program : Valtype} {cache : PrecomputedTransactionData}

theorem SpendsP2MR.mem_witnessUses (h : SpendsP2MR tx spent_outputs nIn txin coin program) :
    some 2 ∈ witnessUses tx spent_outputs := by
  have hmem : (txin, nIn) ∈ tx.vin.zipIdx := List.mem_zipIdx_iff_getElem?.mpr h.input
  refine List.mem_map.mpr ⟨(txin, nIn), List.mem_filter.mpr ⟨hmem, ?_⟩, ?_⟩
  · simpa using h.witness
  · simp [nativeVersion, h.spent, h.native, h.size]

/-- **`Init` prepares what an input needs that spends a native P2MR output**, whatever the other
inputs are. -/
theorem SpendsP2MR.ready (h : SpendsP2MR tx spent_outputs nIn txin coin program)
    (hinit : init C tx spent_outputs = .ok cache) :
    P2MRReady tx nIn cache := by
  obtain ⟨-, -, hinit⟩ := bind_eq_ok_iff.mp hinit
  cases hinit
  have huse := h.mem_witnessUses
  have hspent : (!spent_outputs.isEmpty) = true := by
    have := List.mem_of_getElem? h.spent
    cases spent_outputs with
    | nil => cases this
    | cons o os => rfl
  have hinput := (List.getElem?_eq_some_iff.mp h.input).1
  have hcoin := (List.getElem?_eq_some_iff.mp h.spent).1
  have htaproot : ((witnessUses tx spent_outputs).any
      (· != none)) = true :=
    List.any_eq_true.mpr ⟨some 2, huse, rfl⟩
  have hctv : ((witnessUses tx spent_outputs).any
      (· == some 2)) = true :=
    List.any_eq_true.mpr ⟨some 2, huse, rfl⟩
  exact ⟨Bool.and_eq_true_iff.mpr ⟨htaproot, hspent⟩, hspent, hctv, hinput, hcoin⟩

end Init

/-! ## The checker -/

/-- A failed assertion, or another way to stop without an answer. -/
def IsFault (e : ScriptFailure) : Prop := ∃ f, e = .fault f

instance : AllowsInvalid IsFault := ⟨by rintro serror ⟨f, ⟨⟩⟩⟩

theorem safe_require {bad : ScriptFailure → Prop} {α : Type} {p : Prop} [Decidable p] (h : p)
    {f : Unit → Eval α} {Q : α → Prop} (hf : Safe bad (f ()) Q) :
    Safe bad (Eval.require p >>= f) Q := by
  rwa [Eval.require, require_pos h]

theorem safe_init {bad : ScriptFailure → Prop} {α : Type} {x : Option α} (h : x.isSome) :
    Safe bad (Eval.init x) fun a => x = some a := by
  obtain ⟨a, rfl⟩ := Option.isSome_iff_exists.mp h
  exact safe_ok.mpr rfl

/-- The execution data that P2MR signatures commit to is there. -/
structure Initialized (execdata : ScriptExecutionData) : Prop where
  tapleaf_hash : execdata.m_tapleaf_hash.isSome
  codeseparator_pos : execdata.m_codeseparator_pos.isSome
  annex : execdata.m_annex.isSome

section Checker

variable {C : Crypto} {tx : CTransaction} {nIn : Nat} {cache : PrecomputedTransactionData}
  {execdata : ScriptExecutionData} (h : P2MRReady tx nIn cache)

include h

theorem signedInput_safe (input_type : UInt8) :
    Safe IsFault (signedInput tx nIn input_type cache) fun _ => True := by
  have hvin : tx.vin[nIn]?.isSome := by simpa using h.input
  have hspent : cache.m_spent_outputs[nIn]?.isSome := by simpa using h.spent_output
  exact .ite (fun _ => .bind (safe_init hvin) fun _ _ =>
    .bind (safe_init hspent) fun _ _ => safe_ok.mpr trivial) fun _ => safe_ok.mpr trivial

/-- **The signature hash of a P2MR script asserts nothing that is false.** -/
theorem signatureHashSchnorrCommon_safe (hexecdata : Initialized execdata) (hash_type : UInt8)
    (tag : String) :
    Safe IsFault (signatureHashSchnorrCommon C execdata tx nIn hash_type .p2mr cache tag) fun r =>
      ∀ x, r = some x → Initialized x.2 ∧
        x.2.m_validation_weight_left = execdata.m_validation_weight_left := by
  refine safe_require ⟨by decide, by decide⟩ (safe_require h.input
    (safe_require ⟨h.taproot_ready, h.spent_outputs_ready⟩ ?_))
  refine .ite (fun _ => safe_ok.mpr (by simp)) fun _ =>
    .bind (safe_init hexecdata.annex) fun annex _ =>
      .bind (signedInput_safe h _) fun input _ => ?_
  rcases hout : signedOutput C execdata tx nIn
      (if hash_type = sighashDefault then sighashAll else hash_type &&& sighashOutputMask)
      with _ | ⟨execdata', output⟩
  · exact safe_ok.mpr (by simp)
  obtain ⟨m_output_hash, heq⟩ := eq_of_signedOutput hout
  have hinit : Initialized execdata' :=
    heq ▸ ⟨hexecdata.tapleaf_hash, hexecdata.codeseparator_pos, hexecdata.annex⟩
  have hleaf : Safe IsFault (signedLeaf .p2mr execdata') fun _ => True :=
    .ite (fun _ => .bind (safe_init hinit.tapleaf_hash) fun _ _ =>
      .bind (safe_init hinit.codeseparator_pos) fun _ _ => safe_ok.mpr trivial)
      fun _ => safe_ok.mpr trivial
  refine .bind hleaf fun leaf _ => safe_ok.mpr ?_
  rintro x ⟨⟩
  exact ⟨hinit, by rw [heq]⟩

/-- **The checker of consensus code asserts nothing that is false**, for P2MR scripts and with the
precomputed data. -/
theorem transactionSignatureChecker_keeps (amount : CAmount) :
    (transactionSignatureChecker C tx nIn amount cache).Keeps IsFault Initialized where
  weight _ _ he := ⟨he.tapleaf_hash, he.codeseparator_pos, he.annex⟩
  codeseparator _ _ he := ⟨he.tapleaf_hash, rfl, he.annex⟩
  pqc sig pubkey execdata hlen he := by
    refine safe_require rfl (safe_require hlen (safe_guard fun _ => ?_))
    have hsplit : Safe IsFault (splitHashtype sig pqcSigSize .p2mrSigHashtype) fun _ => True := by
      rw [splitHashtype]
      split <;> simp
    refine .bind hsplit fun ⟨sig, hashtype⟩ _ =>
      .bind (signatureHashSchnorrCommon_safe h he hashtype "P2MRSighash") ?_
    rintro (_ | ⟨sighash, execdata'⟩) hx
    · exact safe_setError _
    · exact .ite (fun _ => safe_ok.mpr (hx _ rfl)) fun _ => safe_setError _
  template expected hlen :=
    safe_require hlen (safe_require ⟨h.ctv_ready, h.input⟩ (by simp))

end Checker

/-! ## The witness program -/

theorem evalScript_safe {bad : ScriptFailure → Prop} [AllowsInvalid bad] {c : EvalContext}
    {stack : Stack} {script : List UInt8} {execdata : ScriptExecutionData} {Q : EvalState → Prop}
    (hversion : c.sigversion ≠ .taproot)
    (hloop : Safe bad (evalLoop c script.length (initialState stack script execdata)) Q) :
    Safe bad (evalScript c stack script execdata) Q :=
  safe_require hversion (safe_guard fun _ => .bind hloop fun _ hs =>
    safe_guard fun _ => safe_ok.mpr hs)

section WitnessProgram

variable {C : Crypto} {flags : VerifyFlags} {checker : BaseSignatureChecker}
  (hchecker : checker.Keeps IsFault Initialized)

include hchecker

/-- A leaf script runs to its end or is invalid. -/
theorem executeWitnessScript_safe {stack : Stack} (script : List UInt8)
    {execdata : ScriptExecutionData} {weight : Int} (hstack : SmallItems stack)
    (hleaf : execdata.m_tapleaf_hash.isSome) (hannex : execdata.m_annex.isSome)
    (hweight : execdata.m_validation_weight_left = some weight) (hnonneg : 0 ≤ weight) :
    Safe IsFault (executeWitnessScript C flags checker .p2mr stack script execdata)
      fun _ => True := by
  have hscan : Safe IsFault (scanOpSuccess flags .p2mr script) fun _ => True := by
    simp [scanOpSuccess]
  have hstart : Within (Paid Initialized weight) (initialState stack script execdata) :=
    ⟨hstack, smallItems_nil, ⟨hleaf, rfl, hannex⟩, hweight, hnonneg⟩
  refine .bind (.ite (fun _ => hscan) fun _ => safe_ok.mpr trivial) fun success _ =>
    .ite (fun _ => safe_ok.mpr trivial) fun _ => safe_guard fun _ => safe_guard fun _ =>
      .bind (evalScript_safe SigVersion.noConfusion (evalLoop_within hchecker _ hstart)) fun s _ => ?_
  split <;> simp

theorem verifyP2MR_safe (witness : List Valtype) (program : Valtype) :
    Safe IsFault (verifyP2MR C flags checker witness program) fun _ => True := by
  refine .ite (fun _ => safe_ok.mpr trivial) fun _ => ?_
  rcases splitAnnex C witness.reverse with ⟨annex, _ | ⟨control, _ | ⟨script, stack⟩⟩⟩
  · exact safe_setError _
  · exact safe_setError _
  refine safe_guard fun _ => safe_guard fun _ => safe_guard fun _ => .ite (fun _ => ?_) fun _ =>
    safe_guard fun _ => safe_ok.mpr trivial
  have hlimits : Safe IsFault (checkP2MRV1InitialStackResourceLimits stack)
      fun _ => SmallItems stack := by
    refine ⟨?_, fun _ hcheck => (smallItems_of_limits hcheck).1⟩
    have hsafe : Safe IsFault (checkP2MRV1InitialStackResourceLimits stack) fun _ => True := by
      simp [checkP2MRV1InitialStackResourceLimits]
    exact hsafe.1
  exact .bind hlimits fun _ hsmall =>
    executeWitnessScript_safe hchecker script hsmall rfl rfl rfl (validationWeight_nonneg witness)

theorem verifyWitnessProgram_safe (witness : List Valtype) {program : Valtype}
    (hlen : program.length = 32) :
    Safe IsFault (verifyWitnessProgram C flags checker witness 2 program false) fun _ => True := by
  rw [verifyWitnessProgram, if_neg (by decide), if_neg (by simp), if_pos ⟨rfl, hlen, rfl⟩]
  exact verifyP2MR_safe hchecker witness program

end WitnessProgram

/-! ## Scripts outside the witness -/

section Base

variable {bad : ScriptFailure → Prop} [AllowsInvalid bad] {C : Crypto} {flags : VerifyFlags} {checker : BaseSignatureChecker}

/-- The context of a script outside a witness. -/
def baseContext (C : Crypto) (checker : BaseSignatureChecker) (flags : VerifyFlags) :
    EvalContext where
  crypto := C
  flags := flags
  checker := checker
  sigversion := .base

@[simp] theorem checkSignatureEncoding_safe (vchSig : Valtype) {Q : Unit → Prop} (hQ : Q ()) :
    Safe bad (checkSignatureEncoding C flags vchSig) Q := by
  simp [checkSignatureEncoding, hQ]

@[simp] theorem checkPubKeyEncoding_safe (sigversion : SigVersion) (vchPubKey : Valtype)
    {Q : Unit → Prop} (hQ : Q ()) : Safe bad (checkPubKeyEncoding flags sigversion vchPubKey) Q := by
  simp [checkPubKeyEncoding, hQ]

theorem keepsWithin_checksig_base {J : ScriptExecutionData → Prop} (opcode : UInt8) :
    KeepsWithin bad J (OpBody.checksig (baseContext C checker flags) opcode) := by
  intro s hs
  refine safe_guard fun _ => ?_
  split
  · next vchPubKey vchSig stack h =>
    have hstack := hs.stack
    simp only [h, smallItems_cons] at hstack
    have hcheck : Safe bad (evalChecksigPreTapscript (baseContext C checker flags) vchSig vchPubKey s)
        fun r => Within J r.2 := safe_require (.inl rfl) (by simp [hs])
    refine .bind hcheck fun r hr => ?_
    simp [hr.with_stack, hstack]
  · exact safe_setError _

theorem multisigScriptCode_safe (c : EvalContext) (sigs : Stack) (scriptCode : List UInt8) :
    Safe bad (OpBody.multisigScriptCode c sigs scriptCode) fun _ => True := by
  refine .ite (fun _ => ?_) fun _ => safe_ok.mpr trivial
  induction sigs generalizing scriptCode with
  | nil => exact safe_ok.mpr trivial
  | cons vchSig sigs ih => simp [ih]

theorem checkmultisigLoop_safe (c : EvalContext) (scriptCode : List UInt8) (keys sigs : Stack) :
    Safe bad (OpBody.checkmultisigLoop c scriptCode keys sigs) fun _ => True := by
  induction keys generalizing sigs with
  | nil => cases sigs <;> simp [OpBody.checkmultisigLoop]
  | cons vchPubKey keys ih => cases sigs <;> simp [OpBody.checkmultisigLoop, ih]

theorem keepsWithin_checkmultisig {J : ScriptExecutionData → Prop} (c : EvalContext)
    (opcode : UInt8) : KeepsWithin bad J (OpBody.checkmultisig c opcode) := by
  intro s hs
  refine safe_guard fun _ => ?_
  split
  · exact safe_setError _
  next top stack h =>
  refine safe_bind.mpr (safe_num c top 4 fun nKeys => safe_guard fun _ => safe_guard fun _ => ?_)
  split
  · exact safe_setError _
  next top' stack' h' =>
  refine safe_bind.mpr (safe_num c top' 4 fun nSigs => safe_guard fun _ => ?_)
  split
  · exact safe_setError _
  next dummy rest h'' =>
  -- what is left is a part of the stack
  have hrest : SmallItems rest := by
    refine hs.stack.subset fun item hitem => ?_
    have hdrop : item ∈ stack'.drop (CScriptNum.getint nSigs).toNat :=
      h'' ▸ List.mem_cons_of_mem _ hitem
    have hdrop' : item ∈ stack.drop (CScriptNum.getint nKeys).toNat :=
      h' ▸ List.mem_cons_of_mem _ (List.mem_of_mem_drop hdrop)
    exact h ▸ List.mem_cons_of_mem _ (List.mem_of_mem_drop hdrop')
  refine .bind (multisigScriptCode_safe c _ _) fun scriptCode _ =>
    .bind (checkmultisigLoop_safe c scriptCode _ _) fun fSuccess _ =>
      safe_guard fun _ => safe_guard fun _ => ?_
  simp [within_iff, hrest, hs.altstack, hs.execdata]

theorem switch_base_keepsWithin (opcode : UInt8) :
    KeepsWithin bad (fun _ => True) (switch (baseContext C checker flags) opcode) := by
  rw [switch]
  split
  · next labels body h =>
    obtain hsig | hother : _ ∨ KeepsWithin bad (fun _ => True) body :=
      cases_keepWithin (baseContext C checker flags) opcode (fun _ _ _ => trivial)
        (fun hversion => SigVersion.noConfusion hversion) _ (List.mem_of_find?_eq_some h)
    · simp only [signatureCases, List.mem_cons, List.not_mem_nil, or_false] at hsig
      obtain ⟨-, rfl⟩ | ⟨-, rfl⟩ | ⟨-, rfl⟩ | ⟨-, rfl⟩ | ⟨-, rfl⟩ | ⟨-, rfl⟩ := hsig
      · exact keepsWithin_unavailable fun _ => rfl
      · exact keepsWithin_checksig_base opcode
      · exact keepsWithin_unavailable fun _ => rfl
      · exact keepsWithin_unavailable fun _ => rfl
      · exact keepsWithin_unavailable fun _ => rfl
      · exact keepsWithin_checkmultisig _ opcode
    · exact hother
  · exact keepsWithin_unavailable fun _ => rfl

/-- **One round of a script outside a witness.** -/
theorem step_base_keepsWithin :
    KeepsWithin bad (fun _ => True) (step (baseContext C checker flags)) := by
  intro s hs
  rw [step]
  rcases getScriptOp s.pc with _ | ⟨opcode, vchPushValue, pc⟩
  · exact safe_setError _
  refine .ite (fun _ => safe_setError _) fun hsize => ?_
  have hcount : Safe bad (countOp (baseContext C checker flags) opcode { s with pc })
      (Within fun _ => True) := by
    simp [countOp, within_iff, hs.stack, hs.altstack]
  refine .bind hcount fun t ht => safe_guard fun _ =>
    safe_guard fun _ => ?_
  have hexecute : Safe bad (execute (baseContext C checker flags) opcode vchPushValue t)
      (Within fun _ => True) := by
    refine .ite (fun _ => safe_guard fun _ => safe_ok.mpr ?_)
      fun _ => .ite (fun _ => switch_base_keepsWithin opcode t ht) fun _ => safe_ok.mpr ht
    exact ht.with_stack (smallItems_cons.mpr ⟨(not_lt.mp hsize).trans (by decide), ht.stack⟩)
  exact .bind hexecute fun u hu => safe_guard fun _ =>
    safe_ok.mpr ⟨hu.stack, hu.altstack, trivial⟩

theorem evalLoop_base_keepsWithin (rounds : Nat) :
    KeepsWithin bad (fun _ => True) (evalLoop (baseContext C checker flags) rounds) := by
  induction rounds with
  | zero => exact fun s hs => safe_ok.mpr hs
  | succ rounds ih =>
    exact fun s hs => .ite (fun _ => safe_ok.mpr hs) fun _ =>
      .bind (step_base_keepsWithin s hs) ih

theorem evalBase_safe {stack : Stack} (hstack : SmallItems stack) (script : List UInt8) :
    Safe bad (evalBase C flags checker stack script) fun t => SmallItems t.stack := by
  have hloop : Safe bad (evalLoop (baseContext C checker flags) script.length
      (initialState stack script {})) (Within fun _ => True) :=
    evalLoop_base_keepsWithin _ _ ⟨hstack, smallItems_nil, trivial⟩
  exact (evalScript_safe SigVersion.noConfusion hloop).mono fun _ => Within.stack

end Base

/-! ## The whole input -/

/-- The flags that `VerifyScript` asserts to be set together. -/
structure Consistent (flags : VerifyFlags) : Prop where
  cleanstack : .cleanstack ∈ flags → .p2sh ∈ flags ∧ .witness ∈ flags
  witness : .witness ∈ flags → .p2sh ∈ flags

theorem not_isPayToScriptHash_of_native {script : List UInt8} {version : Nat} {program : Valtype}
    (h : isWitnessProgram script = some (version, program)) (hlen : program.length = 32) :
    isPayToScriptHash script = false := by
  rcases script with _ | ⟨v, _ | ⟨size, rest⟩⟩
  · cases h
  · cases h
  · rw [isWitnessProgram] at h
    split_ifs at h
    all_goals
      cases h
      simp [isPayToScriptHash, hlen]

section VerifyScript

variable {C : Crypto} {flags : VerifyFlags} {checker : BaseSignatureChecker} {witness : List Valtype}

theorem checkCleanStackAndWitness_safe (hflags : Consistent flags) (v : VerifyState) :
    Safe IsFault (checkCleanStackAndWitness flags witness v) fun _ => True := by
  refine .bind (P := fun _ => True) (.ite (fun hclean => ?_) fun _ => safe_ok.mpr trivial)
    fun _ _ => .ite (fun hwitness => ?_) fun _ => safe_ok.mpr trivial
  · obtain ⟨hp2sh, hwitness⟩ := hflags.cleanstack hclean
    exact safe_require hp2sh (safe_require hwitness (by simp))
  · exact safe_require (hflags.witness hwitness) (by simp)

theorem verifyScript_safe (hchecker : checker.Keeps IsFault Initialized) (hflags : Consistent flags)
    (scriptSig : List UInt8) {scriptPubKey : List UInt8} {program : Valtype}
    (hnative : isWitnessProgram scriptPubKey = some (2, program)) (hlen : program.length = 32) :
    Safe IsFault (verifyScript C flags checker witness scriptSig scriptPubKey) fun _ => True := by
  have htrue (stack : Stack) : Safe IsFault (checkStackTrue stack) fun _ => True := by
    cases stack <;> simp [checkStackTrue]
  have hprogram (v : VerifyState) : Safe IsFault (verifyIfWitnessProgram C flags checker witness
      scriptPubKey false scriptSig.isEmpty .witnessMalleated v) fun _ => True := by
    refine .ite (fun _ => safe_ok.mpr trivial) fun _ => ?_
    rw [hnative]
    exact safe_guard fun _ =>
      .bind (verifyWitnessProgram_safe hchecker witness hlen) fun _ _ => safe_ok.mpr trivial
  refine safe_guard fun _ =>
    .bind (evalBase_safe smallItems_nil scriptSig) fun s hs =>
      .bind (evalBase_safe hs scriptPubKey) fun t _ =>
        .bind (htrue t.stack) fun _ _ => .bind (hprogram _) fun v _ => ?_
  rw [if_neg (by simp [not_isPayToScriptHash_of_native hnative hlen]), pure_eq_ok, ok_bind]
  exact .bind (checkCleanStackAndWitness_safe hflags v) fun _ _ => safe_ok.mpr trivial

end VerifyScript

/-- **Precomputed data always suffices for P2MR.**  For an input with a witness that spends a native
P2MR output, no assertion about missing data fails, whatever leaf script its witness has and whatever
the other inputs spend: not while the witness program is verified, and not in `VerifyScript`, under
flags that it accepts. -/
theorem precomputed_suffices {C : Crypto} {tx : CTransaction} {spent_outputs : List CTxOut}
    {cache : PrecomputedTransactionData} {nIn : Nat} {txin : CTxIn} {coin : CTxOut}
    {program : Valtype} (hinit : init C tx spent_outputs = .ok cache)
    (hspends : SpendsP2MR tx spent_outputs nIn txin coin program) (amount : CAmount)
    (flags : VerifyFlags) (f : Fault) :
    verifyWitnessProgram C flags (transactionSignatureChecker C tx nIn amount cache)
        txin.scriptWitness 2 program false ≠ .error (.fault f) ∧
      (Consistent flags →
        verifyScript C flags (transactionSignatureChecker C tx nIn amount cache)
          txin.scriptWitness txin.scriptSig.bytes coin.scriptPubKey.bytes ≠ .error (.fault f)) := by
  have hchecker : (transactionSignatureChecker C tx nIn amount cache).Keeps IsFault Initialized :=
    transactionSignatureChecker_keeps (hspends.ready hinit) amount
  constructor
  · intro h
    exact (verifyWitnessProgram_safe hchecker txin.scriptWitness hspends.size).1 _ h ⟨f, rfl⟩
  · intro hflags h
    exact (verifyScript_safe hchecker hflags txin.scriptSig.bytes hspends.native hspends.size).1 _ h
      ⟨f, rfl⟩

/-- The first input of the vector, next to an input that spends `OP_1`. -/
theorem precomputed_suffices_vector :
    verifyScript vectorCrypto vectorFlags
      (transactionSignatureChecker vectorCrypto vectorTx 0 1000 vectorTxdata)
      [vectorSignature, vectorLeafScript, [0xc1]] [] ([op2, 32] ++ serUint256 vectorLeafHash) ≠
        .error (.fault .assertion) := by
  have hinit : init vectorCrypto vectorTx vectorSpent =
      .ok vectorTxdata := rfl
  have hspends : SpendsP2MR vectorTx vectorSpent 0 _ _ (serUint256 vectorLeafHash) :=
    ⟨rfl, List.cons_ne_nil _ _, rfl, rfl, length_serUint256 _⟩
  exact (precomputed_suffices hinit hspends 1000 vectorFlags .assertion).2 ⟨by decide, by decide⟩

end Qbit
