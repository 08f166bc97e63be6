import Qbit.Script.MultiA
import Qbit.Validation.StandardFlags

/-!
# Witnesses that wallets make

The witness of a P2MR input whose leaf is one of the scripts of `Script.MultiA`: an element for each
key, in the reverse order of the keys, then the script and the control block.
`verifyP2MR_signable` says that the interpreter accepts it if exactly as many elements are
signatures as the script asks for, and not more than 35.

Their validation weight always suffices: a signature is at least 3680 bytes, and in the witness it
comes with its length.
-/

open Bytes Checked

namespace Qbit

/-! ## The opcodes of a script -/

/-- Every opcode that can be read from the script satisfies `P`. -/
def AllOps (P : UInt8 → Prop) (script : List UInt8) : Prop :=
  ∀ ops opcode rest, Decodes script (ops ++ [opcode]) rest → P opcode

theorem allOps_nil (P : UInt8 → Prop) : AllOps P [] := by
  intro ops opcode rest h
  exact absurd h (not_decodes_concat rfl)

variable {script rest : List UInt8} {opcode : UInt8} {data : Valtype} {pubkeys items : List Valtype}
  {threshold : Nat}

theorem allOps_of_op {P : UInt8 → Prop} (hop : getScriptOp script = some (opcode, data, rest))
    (hopcode : P opcode) (hrest : AllOps P rest) : AllOps P script := by
  intro ops opcode' rest' h
  cases ops with
  | nil =>
    cases h with
    | cons hop' _ =>
      cases hop.symm.trans hop'
      exact hopcode
  | cons op ops =>
    cases h with
    | cons hop' htail =>
      cases hop.symm.trans hop'
      exact hrest ops opcode' rest' htail

theorem AllOps.mono {P Q : UInt8 → Prop} (h : AllOps P script) (hPQ : ∀ opcode, P opcode → Q opcode)
    : AllOps Q script :=
  fun ops opcode rest hdecodes => hPQ opcode (h ops opcode rest hdecodes)

/-- The opcodes of the scripts that wallets sign. -/
def SignableOp (opcode : UInt8) : Prop :=
  opcode.toNat < 76 ∨ (81 ≤ opcode.toNat ∧ opcode.toNat ≤ 96) ∨ opcode = opNumequal ∨
    opcode = opChecksigpqc ∨ opcode = opChecksigadd

theorem allOps_pushData (hlen : data.length < 76) (hrest : AllOps SignableOp rest) :
    AllOps SignableOp (pushData data ++ rest) := by
  refine allOps_of_op (getScriptOp_pushData hlen rest) (Or.inl ?_) hrest
  rw [UInt8.toNat_ofNat']
  omega

theorem allOps_cons (hgt : opPushdata4 < opcode) (hop : SignableOp opcode)
    (hrest : AllOps SignableOp rest) : AllOps SignableOp (opcode :: rest) :=
  allOps_of_op (getScriptOp_cons hgt rest) hop hrest

theorem allOps_pushInt64 {n : Nat} (hpos : 0 < n) (hn : n < 1000) (hrest : AllOps SignableOp rest) :
    AllOps SignableOp (pushInt64 n ++ rest) := by
  by_cases hsmall : n ≤ 16
  · obtain ⟨hbyte, hgt⟩ := pushInt64_small hpos hsmall
    have htoNat : (UInt8.ofNat (n + 80)).toNat = n + 80 := by
      rw [UInt8.toNat_ofNat']
      omega
    rw [hbyte, List.singleton_append]
    exact allOps_cons hgt (Or.inr (Or.inl (by omega))) hrest
  · have hlen : ∀ m < 1000, (CScriptNum.serialize ((m : Nat) : Int)).length < 76 := by
      decide +kernel
    rw [pushInt64, if_neg (by omega), if_neg (by omega)]
    exact allOps_pushData (hlen n hn) hrest

theorem allOps_multiAKeys (hkeys : ∀ key ∈ pubkeys, key.length = 32)
    (hrest : AllOps SignableOp rest) :
    AllOps SignableOp (multiAKeys pubkeys ++ rest) := by
  induction pubkeys with
  | nil => exact hrest
  | cons key keys ih =>
    have hlen := hkeys key List.mem_cons_self
    rw [multiAKeys_cons_append]
    exact allOps_pushData (by omega) (allOps_cons (by decide) (by simp [SignableOp])
      (ih fun k hk => hkeys k (List.mem_cons_of_mem _ hk)))

theorem allOps_buildPKScript {pubkey : Valtype} (hlen : pubkey.length = 32)
    (hrest : AllOps SignableOp rest) : AllOps SignableOp (buildPKScript pubkey ++ rest) := by
  rw [buildPKScript, List.append_assoc, List.singleton_append]
  exact allOps_pushData (by omega) (allOps_cons (by decide) (by simp [SignableOp]) hrest)

theorem SignableScript.allOps (h : SignableScript script pubkeys threshold) :
    AllOps SignableOp script := by
  cases h with
  | @pk pubkey hkey =>
    rw [← List.append_nil (buildPKScript pubkey)]
    exact allOps_buildPKScript hkey (allOps_nil _)
  | multiA hkeys hpos hthreshold hmax =>
    rw [maxPubkeysPerMultiA] at hmax
    rcases pubkeys with _ | ⟨key, keys⟩
    · exact absurd hthreshold (by rw [List.length_nil]; omega)
    have hend : AllOps SignableOp [opNumequal] :=
      allOps_cons (by decide) (by simp [SignableOp]) (allOps_nil _)
    exact allOps_buildPKScript (hkeys key List.mem_cons_self)
      (allOps_multiAKeys (fun k hk => hkeys k (List.mem_cons_of_mem _ hk))
        (allOps_pushInt64 hpos (by omega) hend))

theorem SignableScript.not_hasOpSuccess (h : SignableScript script pubkeys threshold) :
    ¬HasOpSuccess script := by
  rintro ⟨ops, opcode, rest, hdecodes, hsuccess⟩
  have hop := h.allOps ops opcode rest hdecodes
  simp only [SignableOp, IsP2MROpSuccess, opNumequal, opChecksigpqc, opChecksigadd,
    ← UInt8.toNat_inj, UInt8.le_iff_toNat_le, UInt8.reduceToNat] at hop hsuccess
  omega

/-! ## Weight and limits -/

/-- An element of the initial stack that is empty or as long as a signature. -/
def SignatureSized (item : Valtype) : Prop :=
  item = [] ∨ item.length = pqcSigSize ∨ item.length = pqcSigSize + 1

theorem sum_length_le (h : ∀ item ∈ items, SignatureSized item) :
    (items.map List.length).sum ≤ 3681 * signatureCount items := by
  induction items with
  | nil => simp
  | cons item items ih =>
    have hitem := h item List.mem_cons_self
    have htail := ih fun x hx => h x (List.mem_cons_of_mem _ hx)
    rw [List.map_cons, List.sum_cons, signatureCount_cons]
    rw [SignatureSized, pqcSigSize] at hitem
    split
    · next hempty => rw [hempty, List.length_nil]; omega
    · next hne =>
      have hlen := hitem.resolve_left hne
      omega

theorem le_sum_serialized (h : ∀ item ∈ items, SignatureSized item) :
    3683 * signatureCount items ≤
      (items.map fun x => (writeCompactSize x.length).length + x.length).sum := by
  induction items with
  | nil => simp
  | cons item items ih =>
    have hitem := h item List.mem_cons_self
    have htail := ih fun x hx => h x (List.mem_cons_of_mem _ hx)
    rw [List.map_cons, List.sum_cons, signatureCount_cons]
    rw [SignatureSized, pqcSigSize] at hitem
    split
    · omega
    next hne =>
    have hlen := hitem.resolve_left hne
    have hcompact : 3 ≤ (writeCompactSize item.length).length := by
      rw [length_writeCompactSize]
      split_ifs <;> omega
    omega

theorem p2mrLimits_of_signatures (hsized : ∀ item ∈ items, SignatureSized item)
    (hlen : items.length ≤ 1000) (hcount : signatureCount items ≤ 35) :
    P2MRLimits items.reverse := by
  have hsum := sum_length_le hsized
  refine ⟨by rwa [List.length_reverse], fun item hmem => ?_, ?_⟩
  · have hitem := hsized item (List.mem_reverse.mp hmem)
    rw [SignatureSized, pqcSigSize] at hitem
    rcases hitem with h | h | h
    · simp [h]
    · omega
    · omega
  · rw [List.map_reverse, List.sum_reverse]
    omega

theorem signatureCost_le_weight {flags : VerifyFlags} (hflags : .p2mrLegacyValidationWeight ∉ flags)
    (hsized : ∀ item ∈ items, SignatureSized item) (script control : Valtype) :
    signatureCost flags items ≤ (fullWitnessSize (items.reverse ++ [script, control]) : Int) + 50 := by
  have hsum := le_sum_serialized hsized
  have hcost : EvalContext.pqcValidationCost flags = 3683 := by
    rw [EvalContext.pqcValidationCost, if_neg hflags]
    rfl
  rw [signatureCost, hcost, fullWitnessSize, List.map_append, List.sum_append, List.map_reverse,
    List.sum_reverse]
  omega

/-! ## Acceptance -/

section Acceptance

variable {C : Crypto} {checker : BaseSignatureChecker} {flags : VerifyFlags}
  {Q : ScriptExecutionData → Prop} {valid : Valtype → Valtype → Prop} {script : List UInt8}
  {pubkeys items nodes : List Valtype} {threshold : Nat} {program : Valtype}

/-- The control block that a wallet makes: the first leaf version, and the path to the root. -/
def p2mrControl (nodes : List Valtype) : Valtype := 0xc1 :: nodes.flatten

/-- The execution data at the start of a leaf. -/
def leafExecdata (leaf_hash : Uint256) (weight : Int) : ScriptExecutionData where
  m_annex := some none
  m_tapleaf_hash := some leaf_hash
  m_validation_weight_left := some weight

/-- The parts of such a witness. -/
def signedSpend (items : List Valtype) (hdepth : nodes.length ≤ 128) (hnodes : ∀ node ∈ nodes, node.length = 32)
    (hcommitted : serUint256 (p2mrRoot C (C.computeP2MRLeafHash 0xc0 script) nodes) = program) :
    P2MRSpend C (items.reverse ++ [script, p2mrControl nodes]) program where
  annex := none
  initial := items.reverse
  script := script
  first := 0xc1
  nodes := nodes
  parsed := by
    refine .none fun front annex _ h => ?_
    have happend : items.reverse ++ [script, p2mrControl nodes] =
        (items.reverse ++ [script]) ++ [p2mrControl nodes] := by simp
    rw [happend] at h
    obtain ⟨-, hlast⟩ := List.append_inj' h rfl
    cases hlast
    rw [p2mrControl, List.head?_cons]
    decide
  depth := hdepth
  node_size := hnodes
  marked := by decide
  committed := hcommitted

variable (hdepth : nodes.length ≤ 128) (hnodes : ∀ node ∈ nodes, node.length = 32)
  (hcommitted : serUint256 (p2mrRoot C (C.computeP2MRLeafHash 0xc0 script) nodes) = program)

theorem leafVersion_signedSpend :
    (signedSpend items hdepth hnodes hcommitted).leafVersion = 0xc0 := by
  have hmask : (0xc1 : UInt8) &&& 0xfe = 0xc0 := by decide
  exact hmask

theorem execdata_signedSpend :
    (signedSpend items hdepth hnodes hcommitted).execdata =
      leafExecdata (C.computeP2MRLeafHash 0xc0 script)
        (fullWitnessSize (items.reverse ++ [script, p2mrControl nodes]) + 50) := by
  rw [P2MRSpend.execdata, P2MRSpend.leafHash, leafVersion_signedSpend]
  rfl

/-- **A witness that a wallet makes is accepted.** -/
theorem verifyP2MR_signable (hc : checker.Accepts valid Q) (hrules : .p2mrRules ∈ flags)
    (hlegacy : .p2mrLegacyValidationWeight ∉ flags)
    (hscript : SignableScript script pubkeys threshold) (hitems : ItemsFor valid pubkeys items)
    (hsized : ∀ item ∈ items, SignatureSized item) (hcount : signatureCount items = threshold)
    (hmax : threshold ≤ 35) (hdepth : nodes.length ≤ 128)
    (hnodes : ∀ node ∈ nodes, node.length = 32)
    (hcommitted : serUint256 (p2mrRoot C (C.computeP2MRLeafHash 0xc0 script) nodes) = program)
    (hQ : ∀ weight, Q { leafExecdata (C.computeP2MRLeafHash 0xc0 script) weight with
      m_codeseparator_pos := some 0xffffffff }) :
    ∃ calls, verifyP2MR C flags checker (items.reverse ++ [script, p2mrControl nodes]) program =
      .ok calls := by
  have hlen : items.length ≤ 1000 := by
    have hkeys : pubkeys.length ≤ 999 := by
      cases hscript with
      | pk => simp
      | multiA _ _ _ hmax => exact hmax
    rw [← List.Forall₂.length_eq hitems]
    omega
  obtain ⟨s, hs, hstack⟩ := evalScript_signable (C := C) hc hscript hitems hcount (hQ _) rfl
    (signatureCost_le_weight hlegacy hsized script (p2mrControl nodes))
  refine (verifyP2MR_spend_iff hrules (signedSpend items hdepth hnodes hcommitted)).mpr
    (Or.inr ⟨leafVersion_signedSpend hdepth hnodes hcommitted, ?_, ?_⟩)
  · exact p2mrLimits_of_signatures hsized hlen (by omega)
  · refine Or.inr ⟨hscript.not_hasOpSuccess, s, [1], ?_, hstack, by decide⟩
    rw [execdata_signedSpend hdepth hnodes hcommitted, ← hs]
    exact congrArg (evalScript _ · script _) items.reverse_reverse

end Acceptance

end Qbit
