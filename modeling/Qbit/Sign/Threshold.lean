import Qbit.Script.Resources
import Qbit.Sign.Accepted
import Qbit.Sign.Parallel

/-!
# Exactly k of n

A `multi_a(k, KEY, ...)` leaf asks for signatures of exactly `k` of its keys.  `Script.MultiA` shows
that it succeeds on such signatures.  Here is the other direction, and with it the meaning of the
leaf: an initial stack with one element for each key is accepted if and only if exactly `k` elements
are not empty and each of these is a valid signature of the key at its position.

An accepted run is taken apart from its start (`Completes`).  Where a signature is checked, the run
goes on only if the element is empty, or is valid and paid for.
-/

open Bytes Checked

namespace Qbit

/-! ## The descriptor -/

/-- `P2MRMultiADescriptor`: a `multi_a` or `sortedmulti_a` expression with the bounds that its parser
checks. -/
structure P2MRMultiADescriptor where
  m_threshold : Nat
  m_pubkeys : List Valtype
  m_sorted : Bool
  pubkey_size : ∀ key ∈ m_pubkeys, key.length = pqcPubkeySize
  threshold_pos : 1 ≤ m_threshold
  threshold_le : m_threshold ≤ m_pubkeys.length
  size_le : m_pubkeys.length ≤ maxPubkeysPerMultiA

namespace P2MRMultiADescriptor

variable (d : P2MRMultiADescriptor)

/-- The keys in the order in which they stand in the script. -/
def keys : List Valtype :=
  if d.m_sorted then d.m_pubkeys.insertionSort (· ≤ ·) else d.m_pubkeys

/-- `P2MRMultiADescriptor::BuildScript` -/
def buildScript : List UInt8 := buildMultiAScript d.m_threshold d.keys

theorem keys_perm : d.keys.Perm d.m_pubkeys := by
  rw [keys]
  split
  · exact List.perm_insertionSort _ _
  rfl

theorem length_keys : d.keys.length = d.m_pubkeys.length :=
  d.keys_perm.length_eq

theorem key_size {key : Valtype} (h : key ∈ d.keys) : key.length = 32 :=
  d.pubkey_size key (d.keys_perm.mem_iff.mp h)

theorem signableScript : SignableScript d.buildScript d.keys d.m_threshold :=
  .multiA (fun _ => d.key_size) d.threshold_pos (d.length_keys ▸ d.threshold_le)
    (d.length_keys ▸ d.size_le)

end P2MRMultiADescriptor

/-! ## Accepted runs -/

/-- The main loop runs from `s` to the end of the script, in `t`. -/
def Completes (c : EvalContext) (s t : EvalState) : Prop :=
  ∃ rounds, s.pc.length ≤ rounds ∧ evalLoop c rounds s = .ok t

variable {C : Crypto} {checker : BaseSignatureChecker} {flags : VerifyFlags} {s t u : EvalState}

section Completes

variable (h : Completes (p2mrContext C checker flags) s t)

include h

theorem Completes.exists_round (hpc : s.pc ≠ []) :
    ∃ u, Round (p2mrContext C checker flags) s u ∧ Completes (p2mrContext C checker flags) u t := by
  obtain ⟨rounds, hrounds, h⟩ := h
  have hpos := List.length_pos_of_ne_nil hpc
  obtain ⟨rounds, rfl⟩ : ∃ r, rounds = r + 1 := ⟨rounds - 1, by omega⟩
  rw [evalLoop_succ _ rounds hpc] at h
  obtain ⟨u, hstep, h⟩ := bind_eq_ok_iff.mp h
  obtain ⟨opcode, data, hop⟩ := step_reads s u hstep
  have hlt := length_lt_of_getScriptOp hop
  exact ⟨u, ⟨hpc, hstep⟩, rounds, by omega, h⟩

theorem Completes.of_round (hround : Round (p2mrContext C checker flags) s u) :
    Completes (p2mrContext C checker flags) u t := by
  obtain ⟨u', hround', h'⟩ := h.exists_round hround.1
  cases hround.2.symm.trans hround'.2
  exact h'

theorem Completes.of_rounds
    (hrounds : Relation.ReflTransGen (Round (p2mrContext C checker flags)) s u) :
    Completes (p2mrContext C checker flags) u t := by
  induction hrounds with
  | refl => exact h
  | tail _ hround ih => exact ih.of_round hround

theorem Completes.eq_of_end (hpc : s.pc = []) : t = s := by
  obtain ⟨rounds, -, h⟩ := h
  rw [evalLoop_of_nil _ rounds hpc] at h
  exact (Except.ok.inj h).symm

end Completes

theorem completes_of_evalScript {stack : Stack} {script : List UInt8}
    {execdata : ScriptExecutionData}
    (h : evalScript (p2mrContext C checker flags) stack script execdata = .ok t) :
    Completes (p2mrContext C checker flags) (initialState stack script execdata) t := by
  obtain ⟨-, -, h⟩ := bind_eq_ok_iff.mp h
  obtain ⟨u, hloop, h⟩ := bind_eq_ok_iff.mp h
  obtain ⟨-, h⟩ := ite_setError_eq_ok_iff.mp h
  cases h
  exact ⟨script.length, le_rfl, hloop⟩

/-! ## Signature checks that succeed -/

/-- A checker that accepts exactly the valid signatures. -/
structure BaseSignatureChecker.Decides (checker : BaseSignatureChecker)
    (valid : Valtype → Valtype → Prop) (Q : ScriptExecutionData → Prop) : Prop
    extends checker.Accepts valid Q where
  valid_of_accepts : ∀ {sig pubkey : Valtype} {execdata : ScriptExecutionData}
    {r : ScriptExecutionData × List PQCVerification}, Q execdata →
      checker.checkPQCSignature sig pubkey .p2mr execdata = .ok r → valid sig pubkey

section Inversion

variable {valid : Valtype → Valtype → Prop} {Q : ScriptExecutionData → Prop}
  (hd : checker.Decides valid Q) {stack : Stack} {rest : List UInt8} {weight : Int}
  {item pubkey : Valtype}

/-- The element is empty, or it is a valid signature and is paid for. -/
def ItemOk (valid : Valtype → Valtype → Prop) (flags : VerifyFlags) (weight : Int)
    (pubkey item : Valtype) : Prop :=
  (item = [] ∨ valid item pubkey) ∧
    (if item = [] then 0 else EvalContext.pqcValidationCost flags) ≤ weight

include hd

/-- **A signature check that does not fail the script.** -/
theorem itemOk_of_evalChecksig {pc : List UInt8} {r : Bool × EvalState}
    (hs : Running Q stack pc weight s) (hnonneg : 0 ≤ weight)
    (h : evalChecksig (p2mrContext C checker flags) item pubkey s = .ok r) :
    ItemOk valid flags weight pubkey item := by
  by_cases hempty : item = []
  · exact ⟨Or.inl hempty, by rw [if_pos hempty]; exact hnonneg⟩
  have hsome : (!item.isEmpty) = true := by simpa using hempty
  obtain ⟨-, -, h⟩ := bind_eq_ok_iff.mp h
  obtain ⟨t, hpay, h⟩ := bind_eq_ok_iff.mp h
  rw [if_pos hsome, debitValidationWeight, hs.weight_eq] at hpay
  obtain ⟨left, hleft, hpay⟩ := bind_eq_ok_iff.mp hpay
  cases hleft
  obtain ⟨hroom, hpay⟩ := ite_setError_eq_ok_iff.mp hpay
  cases hpay
  obtain ⟨-, h⟩ := ite_setError_eq_ok_iff.mp h
  split_ifs at h
  · obtain ⟨r', hr', -⟩ := bind_eq_ok_iff.mp h
    refine ⟨Or.inr (hd.valid_of_accepts (hd.weight _ hs.execdata) hr'), ?_⟩
    change ¬ weight - EvalContext.pqcValidationCost flags < 0 at hroom
    omega
  · cases h

omit hd in
theorem Running.exists_switch {opcode : UInt8} (hs : Running Q stack (opcode :: rest) weight s)
    (hgt : opPushdata4 < opcode) (h : Round (p2mrContext C checker flags) s u) :
    ∃ t v, Running Q stack rest weight t ∧
      switch (p2mrContext C checker flags) opcode t = .ok v := by
  have hop : getScriptOp s.pc = some (opcode, [], rest) := hs.pc_eq ▸ getScriptOp_cons hgt rest
  have htrue : s.vfExec.allTrue = true := by
    rw [hs.vfExec_eq]
    rfl
  obtain ⟨-, h⟩ := h
  rw [step, hop] at h
  obtain ⟨-, h⟩ := ite_setError_eq_ok_iff.mp h
  obtain ⟨-, h⟩ := ite_setError_eq_ok_iff.mp h
  obtain ⟨-, h⟩ := ite_setError_eq_ok_iff.mp h
  obtain ⟨v, hv, -⟩ := bind_eq_ok_iff.mp h
  rw [execute, if_neg (fun h => UInt8.not_le.mpr hgt h.2), if_pos (Or.inl htrue)] at hv
  exact ⟨{ s with pc := rest }, v,
    ⟨hs.stack_eq, hs.altstack_eq, hs.vfExec_eq, rfl, hs.execdata, hs.weight_eq⟩, hv⟩

theorem Running.itemOk_of_checksigpqc
    (hs : Running Q (pubkey :: item :: stack) (opChecksigpqc :: rest) weight s)
    (hnonneg : 0 ≤ weight) (h : Round (p2mrContext C checker flags) s u) :
    ItemOk valid flags weight pubkey item := by
  obtain ⟨t, v, ht, hv⟩ := hs.exists_switch (by decide) h
  change OpBody.checksigpqc (p2mrContext C checker flags) t = .ok v at hv
  obtain ⟨-, hv⟩ := ite_setError_eq_ok_iff.mp hv
  rw [ht.stack_eq] at hv
  obtain ⟨r, hr, -⟩ := bind_eq_ok_iff.mp hv
  exact itemOk_of_evalChecksig hd ht hnonneg hr

theorem Running.itemOk_of_checksigadd {n : Valtype}
    (hs : Running Q (pubkey :: n :: item :: stack) (opChecksigadd :: rest) weight s)
    (hnonneg : 0 ≤ weight) (h : Round (p2mrContext C checker flags) s u) :
    ItemOk valid flags weight pubkey item := by
  obtain ⟨t, v, ht, hv⟩ := hs.exists_switch (by decide) h
  change OpBody.checksigadd (p2mrContext C checker flags) t = .ok v at hv
  obtain ⟨-, hv⟩ := ite_setError_eq_ok_iff.mp hv
  rw [ht.stack_eq] at hv
  obtain ⟨num, -, hv⟩ := bind_eq_ok_iff.mp hv
  obtain ⟨r, hr, -⟩ := bind_eq_ok_iff.mp hv
  exact itemOk_of_evalChecksig hd ht hnonneg hr

/-! ## The whole script -/

variable {pubkeys items : List Valtype} {threshold : Nat}

/-- **The keys after the first, in an accepted run.** -/
theorem Running.itemsFor_of_multiAKeys (hlen : pubkeys.length = items.length)
    (hkeys : ∀ key ∈ pubkeys, key.length = 32) (hmax : pubkeys.length < 999) {n : Nat}
    (hn : n + pubkeys.length < 1000) (hnonneg : 0 ≤ weight)
    (hs : Running Q (CScriptNum.serialize n :: items) (Qbit.multiAKeys pubkeys ++ rest) weight s)
    (h : Completes (p2mrContext C checker flags) s t) :
    ItemsFor valid pubkeys items ∧ signatureCost flags items ≤ weight := by
  induction pubkeys generalizing items s n weight with
  | nil =>
    obtain rfl := List.eq_nil_of_length_eq_zero hlen.symm
    exact ⟨.nil, by simpa [signatureCost] using hnonneg⟩
  | cons pubkey pubkeys ih =>
    obtain ⟨item, items, rfl⟩ := List.exists_cons_of_length_eq_add_one hlen.symm
    rw [List.length_cons, List.length_cons, Nat.add_right_cancel_iff] at hlen
    rw [List.length_cons] at hmax hn
    have hkey := hkeys pubkey List.mem_cons_self
    rw [multiAKeys_cons_append] at hs
    -- the push of the key, the check of its element, and the other keys
    obtain ⟨s₁, hround, hs₁⟩ := hs.push (C := C) (by omega) (by omega)
      (by rw [List.length_cons, List.length_cons]; omega)
    have h₁ := h.of_round hround
    obtain ⟨u, hcheck, -⟩ := h₁.exists_round (by rw [hs₁.pc_eq]; exact List.cons_ne_nil _ _)
    obtain ⟨hitem, hcost⟩ := hs₁.itemOk_of_checksigadd hd hnonneg hcheck
    obtain ⟨s₂, hround₂, hs₂⟩ := hs₁.checksigadd (C := C) hd.toAccepts (by omega) hkey hitem hcost
      (by omega)
    obtain ⟨hitems, hrest⟩ := ih hlen (fun key hmem => hkeys key (List.mem_cons_of_mem _ hmem))
      (by omega) (by split <;> omega) (by omega) hs₂ (h₁.of_round hround₂)
    refine ⟨.cons ⟨hkey, hitem⟩ hitems, ?_⟩
    rw [signatureCost_cons]
    omega

/-- **An accepted run of a `multi_a` script**: every element is empty or a valid signature, and the
signatures are paid for. -/
theorem Running.itemsFor_of_multiA (hlen : pubkeys.length = items.length)
    (hkeys : ∀ key ∈ pubkeys, key.length = 32) (hmax : pubkeys.length ≤ 999) (hnonneg : 0 ≤ weight)
    (hs : Running Q items (buildMultiAScript threshold pubkeys) weight s)
    (h : Completes (p2mrContext C checker flags) s t) :
    ItemsFor valid pubkeys items ∧ signatureCost flags items ≤ weight := by
  rcases pubkeys with _ | ⟨pubkey, pubkeys⟩
  · obtain rfl := List.eq_nil_of_length_eq_zero hlen.symm
    exact ⟨.nil, by simpa [signatureCost] using hnonneg⟩
  obtain ⟨item, items, rfl⟩ := List.exists_cons_of_length_eq_add_one hlen.symm
  rw [List.length_cons, List.length_cons, Nat.add_right_cancel_iff] at hlen
  rw [List.length_cons] at hmax
  have hkey := hkeys pubkey List.mem_cons_self
  have hscript : buildMultiAScript threshold (pubkey :: pubkeys) = pushData pubkey ++
      (opChecksigpqc :: (Qbit.multiAKeys pubkeys ++ (pushInt64 threshold ++ [opNumequal]))) := by
    simp [buildMultiAScript, buildPKScript]
  rw [hscript] at hs
  obtain ⟨s₁, hround, hs₁⟩ := hs.push (C := C) (by omega) (by omega)
    (by rw [List.length_cons]; omega)
  have h₁ := h.of_round hround
  obtain ⟨u, hcheck, -⟩ := h₁.exists_round (by rw [hs₁.pc_eq]; exact List.cons_ne_nil _ _)
  obtain ⟨hitem, hcost⟩ := hs₁.itemOk_of_checksigpqc hd hnonneg hcheck
  obtain ⟨s₂, hround₂, hs₂⟩ := hs₁.checksigpqc (C := C) hd.toAccepts hkey hitem hcost (by omega)
  obtain ⟨hitems, hrest⟩ := hs₂.itemsFor_of_multiAKeys hd hlen
    (fun key hmem => hkeys key (List.mem_cons_of_mem _ hmem)) (by omega) (by split <;> omega)
    (by omega) (h₁.of_round hround₂)
  refine ⟨.cons ⟨hkey, hitem⟩ hitems, ?_⟩
  rw [signatureCost_cons]
  omega

/-- **What the execution of a `multi_a` script means**, for a checker that decides the validity of
signatures. -/
theorem evalScript_multiA_iff {execdata : ScriptExecutionData}
    (hlen : pubkeys.length = items.length) (hkeys : ∀ key ∈ pubkeys, key.length = 32)
    (hpos : 0 < threshold) (hthreshold : threshold ≤ pubkeys.length)
    (hmax : pubkeys.length ≤ maxPubkeysPerMultiA)
    (hQ : Q { execdata with m_codeseparator_pos := some 0xffffffff })
    (hleft : execdata.m_validation_weight_left = some weight) (hnonneg : 0 ≤ weight) :
    (∃ s top, evalScript (p2mrContext C checker flags) items (buildMultiAScript threshold pubkeys)
        execdata = .ok s ∧ s.stack = [top] ∧ castToBool top = true) ↔
      signatureCount items = threshold ∧ ItemsFor valid pubkeys items ∧
        signatureCost flags items ≤ weight := by
  have hstart : Running Q items (buildMultiAScript threshold pubkeys) weight
      (initialState items (buildMultiAScript threshold pubkeys) execdata) :=
    ⟨rfl, rfl, rfl, rfl, hQ, hleft⟩
  constructor
  · rintro ⟨s, top, hs, hstack, htop⟩
    have hrun := completes_of_evalScript hs
    obtain ⟨hitems, hcost⟩ := hstart.itemsFor_of_multiA hd hlen hkeys hmax hnonneg hrun
    obtain ⟨t, hrounds, ht⟩ := hstart.multiA (C := C) hd.toAccepts hitems hpos hthreshold hmax hcost
    obtain rfl := (hrun.of_rounds hrounds).eq_of_end ht.pc_eq
    rw [ht.stack_eq] at hstack
    refine ⟨?_, hitems, hcost⟩
    by_contra hcount
    rw [if_neg hcount] at hstack
    cases hstack
    cases htop
  · rintro ⟨hcount, hitems, hcost⟩
    obtain ⟨s, hs, hstack⟩ := evalScript_signable (C := C) hd.toAccepts
      (.multiA hkeys hpos hthreshold hmax) hitems hcount hQ hleft hcost
    exact ⟨s, [1], hs, hstack, by decide⟩

end Inversion

/-! ## The meaning of the leaf -/

section Leaf

variable {tx : CTransaction} {nIn : Nat} {data : PrecomputedTransactionData} {leaf_hash : Uint256}

/-- **The checker of a transaction decides the validity of signatures**, while the leaf runs. -/
theorem decides_validP2MRSignature {checker : BaseSignatureChecker}
    (hchecker : checker.checkPQCSignature =
      TransactionSignatureChecker.checkPQCSignature C tx nIn data) :
    checker.Decides (ValidP2MRSignature C tx nIn data leaf_hash)
      (SignedFor C tx nIn leaf_hash) where
  toAccepts := accepts_validP2MRSignature hchecker
  valid_of_accepts := by
    intro sig pubkey execdata r hsigned hr
    rw [hchecker] at hr
    obtain ⟨execdata', calls, hcheck, -⟩ := hsigned.checkPQCSignature SignedFor.signedExecdata hr
    exact ⟨_, hcheck⟩

theorem ValidP2MRSignature.signatureSized {sig pubkey : Valtype}
    (h : ValidP2MRSignature C tx nIn data leaf_hash sig pubkey) : SignatureSized sig := by
  obtain ⟨r, hr⟩ := h
  simp only [TransactionSignatureChecker.checkPQCSignature, bind_eq_ok_iff,
    ite_setError_eq_ok_iff] at hr
  obtain ⟨_, -, _, -, hsize, -⟩ := hr
  rw [SignatureSized]
  omega

/-- The signatures that a `multi_a` leaf accepts: those of exactly `k` of its keys. -/
def P2MRMultiADescriptor.Satisfies (d : P2MRMultiADescriptor)
    (valid : Valtype → Valtype → Prop) (items : List Valtype) : Prop :=
  signatureCount items = d.m_threshold ∧
    List.Forall₂ (fun key item => item = [] ∨ valid item key) d.keys items

/-- **The meaning of a `multi_a` leaf**, with any weight that is not smaller than that of its
witness. -/
theorem P2MRMultiADescriptor.executeWitnessScript_weight_iff (d : P2MRMultiADescriptor)
    (hflags : .p2mrLegacyValidationWeight ∉ flags) {items : List Valtype}
    (hlen : items.length = d.m_pubkeys.length) (control : Valtype) {amount : CAmount} {weight : Int}
    (hweight : validationWeight (items.reverse ++ [d.buildScript, control]) ≤ weight) :
    (∃ calls, executeWitnessScript C flags (transactionSignatureChecker C tx nIn amount data) .p2mr
        items d.buildScript (leafExecdata leaf_hash weight) = .ok calls) ↔
      d.Satisfies (ValidP2MRSignature C tx nIn data leaf_hash) items := by
  have hd : (transactionSignatureChecker C tx nIn amount data).Decides
      (ValidP2MRSignature C tx nIn data leaf_hash) (SignedFor C tx nIn leaf_hash) :=
    decides_validP2MRSignature rfl
  have hsize : d.m_pubkeys.length ≤ 999 := d.size_le
  have hnonneg : 0 ≤ weight := (validationWeight_nonneg _).trans hweight
  have hitems : ItemsFor (ValidP2MRSignature C tx nIn data leaf_hash) d.keys items ↔
      List.Forall₂ (fun key item => item = [] ∨ ValidP2MRSignature C tx nIn data leaf_hash item key)
        d.keys items :=
    (List.forall₂_and_left _ _).trans (and_iff_right fun _ => d.key_size)
  rw [executeWitnessScript_iff (by omega), or_iff_right fun h => d.signableScript.not_hasOpSuccess h.1,
    and_iff_right d.signableScript.not_hasOpSuccess]
  refine (evalScript_multiA_iff hd (hlen.trans d.length_keys.symm).symm (fun _ => d.key_size)
    d.threshold_pos (d.length_keys.symm ▸ d.threshold_le) (d.length_keys.symm ▸ d.size_le)
    (SignedFor.leafExecdata weight) rfl hnonneg).trans (and_congr_right fun _ => ?_)
  rw [hitems]
  refine and_iff_left_of_imp fun hvalid => ?_
  -- the signatures bring as many bytes as they cost
  have hsized : ∀ item ∈ items, SignatureSized item :=
    forall_mem_of_forall₂ hvalid fun _ _ h => h.elim Or.inl ValidP2MRSignature.signatureSized
  rw [validationWeight_eq] at hweight
  exact (signatureCost_le_weight hflags hsized d.buildScript control).trans hweight

/-- **A `multi_a` leaf means exactly `k` of its keys.**  An initial stack with an element for each
key, the first key's on top, is accepted if and only if exactly `k` elements are not empty and each
of these is a valid signature of its key.  No larger weight would make the leaf accept more. -/
theorem P2MRMultiADescriptor.executeWitnessScript_multiA_iff (d : P2MRMultiADescriptor)
    (C : Crypto) (tx : CTransaction) (nIn : Nat) (amount : CAmount)
    (data : PrecomputedTransactionData) (leaf_hash : Uint256) (control : Valtype)
    {flags : VerifyFlags} (hflags : .p2mrLegacyValidationWeight ∉ flags) {items : List Valtype}
    (hlen : items.length = d.m_pubkeys.length) :
    let accepted (weight : Int) : Prop :=
      ∃ calls, executeWitnessScript C flags (transactionSignatureChecker C tx nIn amount data) .p2mr
        items d.buildScript (leafExecdata leaf_hash weight) = .ok calls
    let budget := validationWeight (items.reverse ++ [d.buildScript, control])
    (accepted budget ↔ d.Satisfies (ValidP2MRSignature C tx nIn data leaf_hash) items) ∧
      ∀ weight, budget ≤ weight → accepted weight → accepted budget := by
  intro accepted budget
  have hmeaning : ∀ weight, budget ≤ weight →
      (accepted weight ↔ d.Satisfies (ValidP2MRSignature C tx nIn data leaf_hash) items) :=
    fun weight hweight => d.executeWitnessScript_weight_iff hflags hlen control hweight
  exact ⟨hmeaning budget le_rfl, fun weight hweight h =>
    (hmeaning budget le_rfl).mpr ((hmeaning weight hweight).mp h)⟩

/-- The descriptor of the leaf that asks for one signature of two keys. -/
def oneOfTwoDescriptor : P2MRMultiADescriptor where
  m_threshold := 1
  m_pubkeys := oneOfTwoKeys.map serUint256
  m_sorted := true
  pubkey_size := by decide +kernel
  threshold_pos := by decide
  threshold_le := by decide
  size_le := by decide

/-- The signature of the second key alone is accepted. -/
theorem executeWitnessScript_multiA_oneOfTwo :
    ∃ calls, executeWitnessScript oneOfTwoCrypto standardScriptVerifyFlags
      (transactionSignatureChecker oneOfTwoCrypto (oneOfTwoTx []) 0 1000 oneOfTwoTxdata) .p2mr
      [[], oneOfTwoSignature 2] oneOfTwoDescriptor.buildScript
      (leafExecdata oneOfTwoLeafHash (validationWeight
        ([[], oneOfTwoSignature 2].reverse ++ [oneOfTwoDescriptor.buildScript, [0xc1]]))) =
          .ok calls := by
  have hvalid : ValidP2MRSignature oneOfTwoCrypto (oneOfTwoTx []) 0 oneOfTwoTxdata oneOfTwoLeafHash
      (oneOfTwoSignature 2) (serUint256 2) := by
    have hok : (TransactionSignatureChecker.checkPQCSignature oneOfTwoCrypto (oneOfTwoTx []) 0
        oneOfTwoTxdata (oneOfTwoSignature 2) (serUint256 2) .p2mr
        (signedExecdata oneOfTwoLeafHash)).toOption.map (fun _ => ()) = some () := by decide +kernel
    obtain ⟨r, hr, -⟩ := exists_ok_of_toOption_map hok
    exact ⟨r, hr⟩
  have hkeys : oneOfTwoDescriptor.keys = [serUint256 1, serUint256 2] := by decide +kernel
  have hlen : [[], oneOfTwoSignature 2].length = oneOfTwoDescriptor.m_pubkeys.length := rfl
  have hsatisfies : oneOfTwoDescriptor.Satisfies (ValidP2MRSignature oneOfTwoCrypto (oneOfTwoTx []) 0
      oneOfTwoTxdata oneOfTwoLeafHash) [[], oneOfTwoSignature 2] := by
    refine ⟨by decide +kernel, ?_⟩
    rw [hkeys]
    exact .cons (Or.inl rfl) (.cons (Or.inr hvalid) .nil)
  have hflags : .p2mrLegacyValidationWeight ∉ standardScriptVerifyFlags := by decide
  exact (oneOfTwoDescriptor.executeWitnessScript_multiA_iff oneOfTwoCrypto (oneOfTwoTx []) 0 1000
    oneOfTwoTxdata oneOfTwoLeafHash [0xc1] hflags hlen).1.mpr hsatisfies

end Leaf

end Qbit
