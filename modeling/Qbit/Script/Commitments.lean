import Qbit.Lib.Merkle
import Qbit.Script.Checker

/-!
# What the hashes of a spend commit to

A signature of a P2MR script signs the hash of a message about the transaction, and
`OP_CHECKTEMPLATEVERIFY` compares with a hash of the transaction's template.

A message is a row of fields.  Which fields there are depends on the hash type and on whether there
is an annex, and both of these stand in the message in front of what depends on them.  So the
message can be taken apart from the left (`agrees_of_message_eq`).

A hash into 256 bits is not injective.  What is asked is that there is no collision among the byte
strings that are hashed for the two spends, `SigningContext.hashed` and `templateHashed`.
-/

open Bytes Checked

namespace Qbit

open CTxIn

/-! ## The precomputed hashes -/

/-- The data is what `PrecomputedTransactionData::Init` makes of a transaction and the outputs it
spends, with or without `force`. -/
def PrecomputedTransactionData.IsInit (C : Crypto) (tx : CTransaction) (spent_outputs : List CTxOut)
    (cache : PrecomputedTransactionData) : Prop :=
  PrecomputedTransactionData.init C tx spent_outputs = .ok cache ∨
    ((spent_outputs = [] ∨ spent_outputs.length = tx.vin.length) ∧
      PrecomputedTransactionData.initForced C tx spent_outputs = cache)

/-- What the Taproot and P2MR signature messages take from the precomputed data. -/
structure TaprootHashes (C : Crypto) (tx : CTransaction) (spent_outputs : List CTxOut)
    (cache : PrecomputedTransactionData) : Prop where
  prevouts : cache.m_prevouts_single_hash = C.sha256 (tx.vin.flatMap fun i => i.prevout.serialize)
  amounts : cache.m_spent_amounts_single_hash =
    C.sha256 (spent_outputs.flatMap fun o => serInt64 o.nValue)
  scripts : cache.m_spent_scripts_single_hash =
    C.sha256 (spent_outputs.flatMap fun o => o.scriptPubKey.serialize)
  sequences : cache.m_sequences_single_hash =
    C.sha256 (tx.vin.flatMap fun i => serUint32 i.nSequence)
  outputs : cache.m_outputs_single_hash = C.sha256 (tx.vout.flatMap CTxOut.serialize)
  spent_outputs : cache.m_spent_outputs = spent_outputs

/-- What the template hash takes from the precomputed data. -/
structure TemplateHashes (C : Crypto) (tx : CTransaction) (cache : PrecomputedTransactionData) :
    Prop where
  sequences : cache.m_sequences_single_hash =
    C.sha256 (tx.vin.flatMap fun i => serUint32 i.nSequence)
  outputs : cache.m_outputs_single_hash = C.sha256 (tx.vout.flatMap CTxOut.serialize)
  nonempty_script_sigs : cache.m_ctv_has_nonempty_script_sigs =
    tx.vin.any fun i => !i.scriptSig.bytes.isEmpty
  script_sigs : cache.m_ctv_has_nonempty_script_sigs →
    cache.m_ctv_script_sigs_single_hash = C.sha256 (tx.vin.flatMap fun i => i.scriptSig.serialize)

variable {C : Crypto} {tx : CTransaction}

namespace PrecomputedTransactionData

variable {spent_outputs : List CTxOut} {cache : PrecomputedTransactionData}

/-- **Data that is ready for Taproot has the hashes that are signed.** -/
theorem IsInit.taprootHashes (h : IsInit C tx spent_outputs cache)
    (hready : cache.m_bip341_taproot_ready) : TaprootHashes C tx spent_outputs cache := by
  obtain h | ⟨-, rfl⟩ := h
  · obtain ⟨-, -, h⟩ := bind_eq_ok_iff.mp h
    cases h
    obtain ⟨huses, hspent⟩ := Bool.and_eq_true_iff.mp hready
    constructor <;> simp [huses, hspent]
  · have hspent : (!spent_outputs.isEmpty) = true := hready
    constructor <;> simp [initForced, hspent]

/-- **Data that is ready for template checks has the hashes of the template.** -/
theorem IsInit.templateHashes (h : IsInit C tx spent_outputs cache) (hready : cache.m_ctv_ready) :
    TemplateHashes C tx cache := by
  obtain h | ⟨-, rfl⟩ := h
  · obtain ⟨-, -, h⟩ := bind_eq_ok_iff.mp h
    cases h
    have huses : ((witnessUses tx spent_outputs).any (· == some 2)) = true := hready
    exact ⟨by simp [huses], by simp [huses], by simp [huses], fun hnonempty => if_pos hnonempty⟩
  · exact ⟨rfl, rfl, rfl, fun hnonempty => if_pos hnonempty⟩

end PrecomputedTransactionData

section Commitments

/-- Rows of codes with equal hashes are rows of codes of the same things. -/
theorem map_eq_of_hash_eq {α β : Type} {f : α → List UInt8} {v : α → β} (hf : SelfDelimiting f v)
    (hpos : ∀ a, 0 < (f a).length) {xs ys : List (List UInt8)}
    (hfree : Merkle.NoCollision C.sha256 xs ys) {as bs : List α} (has : as.flatMap f ∈ xs)
    (hbs : bs.flatMap f ∈ ys) (h : C.sha256 (as.flatMap f) = C.sha256 (bs.flatMap f)) :
    as.map v = bs.map v :=
  hf.map_eq_of_flatMap_eq (fun a => List.ne_nil_of_length_pos (hpos a)) (hfree _ has _ hbs h)

theorem length_scriptSerialize_pos (s : CScript) : 0 < s.serialize.length := by
  have := length_writeCompactSize_pos s.bytes.length
  rw [CScript.serialize, length_serBytes]
  omega

theorem length_txOutSerialize_pos (o : CTxOut) : 0 < o.serialize.length := by
  simp [CTxOut.serialize]

/-! ## Templates -/

/-- The assertions of `GetDefaultCheckTemplateVerifyHash`. -/
structure TemplateAssertions (tx_to : CTransaction) (input_index : UInt32)
    (cache : PrecomputedTransactionData) : Prop where
  input_index_lt : input_index.toNat < tx_to.vin.length
  vin_size : tx_to.vin.length ≤ 0xffffffff
  vout_size : tx_to.vout.length ≤ 0xffffffff
  ctv_ready : cache.m_ctv_ready

variable (tx_to : CTransaction) (input_index : UInt32) (cache : PrecomputedTransactionData)

/-- What `GetDefaultCheckTemplateVerifyHash` hashes. -/
def templateMessage : List UInt8 :=
  serUint32 tx_to.version ++ serUint32 tx_to.nLockTime ++
    (if cache.m_ctv_has_nonempty_script_sigs then serUint256 cache.m_ctv_script_sigs_single_hash
      else []) ++
    leBytes 4 tx_to.vin.length ++ serUint256 cache.m_sequences_single_hash ++
    leBytes 4 tx_to.vout.length ++ serUint256 cache.m_outputs_single_hash ++
    leBytes 4 input_index.toNat

theorem getDefaultCheckTemplateVerifyHash_eq :
    getDefaultCheckTemplateVerifyHash C tx_to input_index.toNat cache =
      C.sha256 (templateMessage tx_to input_index cache) := rfl

/-- The byte strings that are hashed for a template. -/
def templateHashed : List (List UInt8) :=
  [templateMessage tx_to input_index cache,
    tx_to.vin.flatMap fun i => serUint32 i.nSequence,
    tx_to.vout.flatMap CTxOut.serialize,
    tx_to.vin.flatMap fun i => i.scriptSig.serialize]

/-- Two inputs of transactions that were made from one template. -/
structure SameTemplate (tx tx' : CTransaction) (input_index input_index' : UInt32) : Prop where
  version : tx.version = tx'.version
  nLockTime : tx.nLockTime = tx'.nLockTime
  sequences : tx.vin.map nSequence = tx'.vin.map nSequence
  outputs : tx.vout = tx'.vout
  input_index : input_index = input_index'
  script_sigs : tx.vin.map scriptSig = tx'.vin.map scriptSig

/-- The flag in front of the scripts' hash is not written.  It is the length of the message that
tells whether the hash is there. -/
theorem templateMessage_inj {tx' : CTransaction} {i i' : UInt32}
    {cache cache' : PrecomputedTransactionData}
    (h : templateMessage tx i cache = templateMessage tx' i' cache') :
    tx.version = tx'.version ∧ tx.nLockTime = tx'.nLockTime ∧
      cache.m_ctv_has_nonempty_script_sigs = cache'.m_ctv_has_nonempty_script_sigs ∧
      (cache.m_ctv_has_nonempty_script_sigs →
        cache.m_ctv_script_sigs_single_hash = cache'.m_ctv_script_sigs_single_hash) ∧
      leBytes 4 tx.vin.length = leBytes 4 tx'.vin.length ∧
      cache.m_sequences_single_hash = cache'.m_sequences_single_hash ∧
      leBytes 4 tx.vout.length = leBytes 4 tx'.vout.length ∧
      cache.m_outputs_single_hash = cache'.m_outputs_single_hash ∧ i = i' := by
  have hflag : cache.m_ctv_has_nonempty_script_sigs = cache'.m_ctv_has_nonempty_script_sigs := by
    have hlen := congrArg List.length h
    simp only [templateMessage] at hlen
    cases hc : cache.m_ctv_has_nonempty_script_sigs <;>
      cases hc' : cache'.m_ctv_has_nonempty_script_sigs <;> simp [hc, hc'] at hlen ⊢
  simp only [templateMessage, ← hflag, List.append_assoc] at h
  obtain ⟨hversion, h⟩ := serUint32_selfDelimiting h
  obtain ⟨hlocktime, h⟩ := serUint32_selfDelimiting h
  obtain ⟨hsigs, h⟩ := List.append_inj h (by split_ifs <;> simp)
  obtain ⟨hvin, h⟩ := List.append_inj h (by simp)
  obtain ⟨hsequences, h⟩ := serUint256_selfDelimiting h
  obtain ⟨hvout, h⟩ := List.append_inj h (by simp)
  obtain ⟨houtputs, h⟩ := serUint256_selfDelimiting h
  have hindex : i = i' := UInt32.toNat_inj.mp
    (leBytes_inj (by simpa using i.toNat_lt) (by simpa using i'.toNat_lt) h)
  refine ⟨hversion, hlocktime, hflag, fun hnonempty => ?_, hvin, hsequences, hvout, houtputs,
    hindex⟩
  rw [if_pos hnonempty, if_pos hnonempty] at hsigs
  exact serUint256_injective hsigs

section Template

variable {tx' : CTransaction} {i i' : UInt32} {cache cache' : PrecomputedTransactionData}

/-- Inputs without scripts differ in their number at most. -/
theorem scriptSigs_eq_of_empty {vin vin' : List CTxIn} (hlen : vin.length = vin'.length)
    (h : (vin.any fun i => !i.scriptSig.bytes.isEmpty) = false)
    (h' : (vin'.any fun i => !i.scriptSig.bytes.isEmpty) = false) :
    vin.map scriptSig = vin'.map scriptSig := by
  have hempty : ∀ l : List CTxIn, (l.any fun i => !i.scriptSig.bytes.isEmpty) = false →
      l.map scriptSig = List.replicate l.length .empty := by
    intro l hl
    refine List.eq_replicate_iff.mpr ⟨by simp, fun s hs => ?_⟩
    obtain ⟨txin, htxin, rfl⟩ := List.mem_map.mp hs
    refine CScript.ext_bytes ?_
    simpa [CScript.empty] using List.any_eq_false.mp hl txin htxin
  rw [hempty vin h, hempty vin' h', hlen]

theorem TemplateHashes.message_eq (hc : TemplateHashes C tx cache) (i : UInt32) :
    templateMessage tx i cache = serUint32 tx.version ++ serUint32 tx.nLockTime ++
      (if (tx.vin.map scriptSig).any (!·.bytes.isEmpty) then
        serUint256 (C.sha256 ((tx.vin.map scriptSig).flatMap CScript.serialize)) else []) ++
      leBytes 4 (tx.vin.map nSequence).length ++
      serUint256 (C.sha256 ((tx.vin.map nSequence).flatMap serUint32)) ++
      leBytes 4 tx.vout.length ++ serUint256 (C.sha256 (tx.vout.flatMap CTxOut.serialize)) ++
      leBytes 4 i.toNat := by
  have hflag := hc.nonempty_script_sigs
  rw [templateMessage, hc.sequences, hc.outputs]
  simp only [List.any_map, List.flatMap_map, List.length_map, Function.comp_def, ← hflag]
  split_ifs with hnonempty
  · rw [hc.script_sigs hnonempty]
  · rfl

theorem SameTemplate.message_eq (h : SameTemplate tx tx' i i') (hc : TemplateHashes C tx cache)
    (hc' : TemplateHashes C tx' cache') :
    templateMessage tx i cache = templateMessage tx' i' cache' := by
  rw [hc.message_eq, hc'.message_eq, h.version, h.nLockTime, h.script_sigs, h.sequences, h.outputs,
    h.input_index]

theorem SameTemplate.of_message_eq (hc : TemplateHashes C tx cache)
    (hc' : TemplateHashes C tx' cache') (ha : TemplateAssertions tx i cache)
    (ha' : TemplateAssertions tx' i' cache')
    (hfree : Merkle.NoCollision C.sha256 (templateHashed tx i cache) (templateHashed tx' i' cache'))
    (h : templateMessage tx i cache = templateMessage tx' i' cache') : SameTemplate tx tx' i i' := by
  obtain ⟨hversion, hlocktime, hflag, hsigs, hvin, hsequences, -, houtputs, hindex⟩ :=
    templateMessage_inj h
  have hlen : tx.vin.length = tx'.vin.length := by
    have hvin_size := ha.vin_size
    have hvin_size' := ha'.vin_size
    exact leBytes_inj (by omega) (by omega) hvin
  rw [hc.sequences, hc'.sequences] at hsequences
  rw [hc.outputs, hc'.outputs] at houtputs
  have hscripts : tx.vin.map scriptSig = tx'.vin.map scriptSig := by
    cases hnonempty : cache.m_ctv_has_nonempty_script_sigs with
    | true =>
      have hnonempty' := hflag ▸ hnonempty
      have hhash := hsigs hnonempty
      rw [hc.script_sigs hnonempty, hc'.script_sigs hnonempty'] at hhash
      exact map_eq_of_hash_eq (CScript.serialize_selfDelimiting.comp scriptSig)
        (fun _ => length_scriptSerialize_pos _) hfree (by simp [templateHashed])
        (by simp [templateHashed]) hhash
    | false =>
      have hnonempty' := hflag ▸ hnonempty
      rw [hc.nonempty_script_sigs] at hnonempty
      rw [hc'.nonempty_script_sigs] at hnonempty'
      exact scriptSigs_eq_of_empty hlen hnonempty hnonempty'
  refine ⟨hversion, hlocktime, ?_, ?_, hindex, hscripts⟩
  · exact map_eq_of_hash_eq (serUint32_selfDelimiting.comp nSequence) (by simp) hfree
      (by simp [templateHashed]) (by simp [templateHashed]) hsequences
  · have := map_eq_of_hash_eq CTxOut.serialize_selfDelimiting length_txOutSerialize_pos hfree
      (by simp [templateHashed]) (by simp [templateHashed]) houtputs
    simpa using this

/-- **The template hash commits to exactly the template**: the version, the lock time, the sequences,
the outputs, the index of the input and the input scripts.  So no transaction whose input scripts are
all empty shares a template with one that has an input script. -/
theorem templateHash_eq_iff_sameTemplate {spent_outputs spent_outputs' : List CTxOut}
    (hinit : PrecomputedTransactionData.IsInit C tx spent_outputs cache)
    (hinit' : PrecomputedTransactionData.IsInit C tx' spent_outputs' cache')
    (hassert : TemplateAssertions tx i cache) (hassert' : TemplateAssertions tx' i' cache')
    (hfree : Merkle.NoCollision C.sha256 (templateHashed tx i cache) (templateHashed tx' i' cache'))
    :
    (getDefaultCheckTemplateVerifyHash C tx i.toNat cache =
        getDefaultCheckTemplateVerifyHash C tx' i'.toNat cache' ↔ SameTemplate tx tx' i i') ∧
      ((∀ txin ∈ tx.vin, txin.scriptSig = .empty) → (∃ txin ∈ tx'.vin, txin.scriptSig ≠ .empty) →
        getDefaultCheckTemplateVerifyHash C tx i.toNat cache ≠
          getDefaultCheckTemplateVerifyHash C tx' i'.toNat cache') := by
  have hc := hinit.templateHashes hassert.ctv_ready
  have hc' := hinit'.templateHashes hassert'.ctv_ready
  have hiff : getDefaultCheckTemplateVerifyHash C tx i.toNat cache =
      getDefaultCheckTemplateVerifyHash C tx' i'.toNat cache' ↔ SameTemplate tx tx' i i' := by
    rw [getDefaultCheckTemplateVerifyHash_eq, getDefaultCheckTemplateVerifyHash_eq]
    constructor
    · intro h
      refine .of_message_eq hc hc' hassert hassert' hfree (hfree _ ?_ _ ?_ h)
      · simp [templateHashed]
      · simp [templateHashed]
    · intro h
      rw [h.message_eq hc hc']
  refine ⟨hiff, fun hempty hnonempty h => ?_⟩
  obtain ⟨txin, htxin, hne⟩ := hnonempty
  have hmem : txin.scriptSig ∈ tx'.vin.map scriptSig := List.mem_map_of_mem htxin
  rw [← (hiff.mp h).script_sigs] at hmem
  obtain ⟨txin', htxin', heq⟩ := List.mem_map.mp hmem
  exact hne (heq ▸ hempty txin' htxin')

/-- A hash that has no collisions on the few strings that the transactions below make it hash. -/
def foldCrypto : Crypto where
  sha256 bs := BitVec.ofNat 256 (bs.foldl (fun h b => h * 257 + b.toNat + 1) 0)
  sha1 _ := 0
  ripemd160 _ := 0
  checkLowS _ := false
  checkECDSASignature _ _ _ _ _ _ _ := false
  verifySchnorr _ _ _ := false
  checkTapTweak _ _ _ _ := false
  verifyPQC _ := false

variable (prevout : UInt32) (scriptSig : CScript)

/-- A spend of a version 2 program, with a script in the input if `scriptSig` is not empty. -/
def templateTx : CTransaction where
  vin := [{ prevout := { hash := 1, n := prevout }, scriptSig, scriptWitness := [[1]] }]
  vout := [{ nValue := 5 }]

/-- The output that it spends. -/
def templateCoin : CTxOut where
  nValue := 6
  scriptPubKey := .ofBytes ([0x52, 0x20] ++ List.replicate 32 0)

def templateCache : PrecomputedTransactionData :=
  ((PrecomputedTransactionData.init foldCrypto (templateTx prevout scriptSig)
    [templateCoin]).toOption).getD {}

theorem templateCache_isInit :
    PrecomputedTransactionData.IsInit foldCrypto (templateTx prevout scriptSig) [templateCoin]
      (templateCache prevout scriptSig) :=
  Or.inl rfl

/-- Spends of two outputs in one template, and one that has a script in its input. -/
theorem templateHash_eq_iff_sameTemplate_demo :
    getDefaultCheckTemplateVerifyHash foldCrypto (templateTx 0 .empty) 0 (templateCache 0 .empty) =
        getDefaultCheckTemplateVerifyHash foldCrypto (templateTx 1 .empty) 0
          (templateCache 1 .empty) ∧
      getDefaultCheckTemplateVerifyHash foldCrypto (templateTx 0 .empty) 0
          (templateCache 0 .empty) ≠
        getDefaultCheckTemplateVerifyHash foldCrypto (templateTx 0 (.ofBytes [0x51])) 0
          (templateCache 0 (.ofBytes [0x51])) := by
  have hassert (prevout : UInt32) (scriptSig : CScript) :
      TemplateAssertions (templateTx prevout scriptSig) 0 (templateCache prevout scriptSig) :=
    ⟨Nat.one_pos, by simp [templateTx], by simp [templateTx], rfl⟩
  constructor
  · exact (templateHash_eq_iff_sameTemplate (templateCache_isInit 0 .empty)
      (templateCache_isInit 1 .empty) (hassert 0 .empty) (hassert 1 .empty)
      (by unfold Merkle.NoCollision; decide +kernel)).1.mpr ⟨rfl, rfl, rfl, rfl, rfl, rfl⟩
  · exact (templateHash_eq_iff_sameTemplate (templateCache_isInit 0 .empty)
      (templateCache_isInit 0 (.ofBytes [0x51])) (hassert 0 .empty) (hassert 0 (.ofBytes [0x51]))
      (by unfold Merkle.NoCollision; decide +kernel)).2 (by decide) (by decide)

end Template

end Commitments

/-! ## Signature messages -/

/-- The bytes of a tag. -/
def tagBytes (tag : String) : List UInt8 := tag.toList.map fun c => UInt8.ofNat c.toNat

/-- What `Crypto.taggedHash` hashes. -/
def Crypto.taggedInput (C : Crypto) (tag : String) (bs : List UInt8) : List UInt8 :=
  serUint256 (C.sha256 (tagBytes tag)) ++ serUint256 (C.sha256 (tagBytes tag)) ++ bs

/-- What is signed besides the transaction, the spent outputs and the input: `SIGHASH_ALL` for the
default. -/
def outputType (hash_type : UInt8) : UInt8 :=
  if hash_type = sighashDefault then sighashAll else hash_type &&& sighashOutputMask

/-- Whether a signature of the type leaves the other inputs open. -/
abbrev AnyoneCanPay (hash_type : UInt8) : Prop :=
  hash_type &&& sighashInputMask = sighashAnyonecanpay

/-- What a script signature is about: an input of a transaction with the outputs it spends, the hash
type, and the part of the execution data that is signed.  If the hash of the input's own output was
computed for an earlier signature, then it is that hash. -/
structure SigningContext (C : Crypto) where
  tx_to : CTransaction
  spent_outputs : List CTxOut
  cache : PrecomputedTransactionData
  isInit : PrecomputedTransactionData.IsInit C tx_to spent_outputs cache
  in_pos : UInt32
  hash_type : UInt8
  annex_hash : Option Uint256
  leaf_hash : Uint256
  codeseparator_pos : UInt32
  validation_weight_left : Option Int := none
  output_hash : Option Uint256 := none
  output_hash_eq : ∀ h, output_hash = some h →
    ∃ txout, tx_to.vout[in_pos.toNat]? = some txout ∧ h = C.sha256 txout.serialize := by
      rintro _ ⟨⟩

variable {a b : SigningContext C}

namespace SigningContext

variable (ctx : SigningContext C)

def execdata : ScriptExecutionData where
  m_tapleaf_hash := some ctx.leaf_hash
  m_codeseparator_pos := some ctx.codeseparator_pos
  m_annex := some ctx.annex_hash
  m_validation_weight_left := ctx.validation_weight_left
  m_output_hash := ctx.output_hash

/-- `SignatureHashP2MR` -/
def signatureHashP2MR : Eval (Option (Uint256 × ScriptExecutionData)) :=
  signatureHashSchnorrCommon C ctx.execdata ctx.tx_to ctx.in_pos.toNat ctx.hash_type .p2mr ctx.cache
    "P2MRSighash"

/-- `SignatureHashSchnorr` for a Tapscript. -/
def signatureHashTapscript : Eval (Option (Uint256 × ScriptExecutionData)) :=
  signatureHashSchnorrCommon C ctx.execdata ctx.tx_to ctx.in_pos.toNat ctx.hash_type .tapscript
    ctx.cache "TapSighash"

/-! ### The fields of a message -/

/-- The bytes about the input. -/
def inputBytes : List UInt8 :=
  if AnyoneCanPay ctx.hash_type then
    match ctx.tx_to.vin[ctx.in_pos.toNat]?, ctx.spent_outputs[ctx.in_pos.toNat]? with
    | some txin, some spent => txin.prevout.serialize ++ spent.serialize ++ serUint32 txin.nSequence
    | _, _ => []
  else leBytes 4 ctx.in_pos.toNat

/-- The bytes about the annex. -/
def annexBytes : List UInt8 := (ctx.annex_hash.map serUint256).getD []

/-- The bytes about the output, if only one is signed. -/
def outputBytes : List UInt8 :=
  if outputType ctx.hash_type = sighashSingle then
    match ctx.tx_to.vout[ctx.in_pos.toNat]? with
    | some txout => serUint256 (C.sha256 txout.serialize)
    | none => []
  else []

/-- The bytes about the script. -/
def leafBytes : List UInt8 := serUint256 ctx.leaf_hash ++ [0] ++ serUint32 ctx.codeseparator_pos

/-- The signature message. -/
def message : List UInt8 :=
  [0, ctx.hash_type] ++ signedTransaction ctx.tx_to (ctx.hash_type &&& sighashInputMask)
    (outputType ctx.hash_type) ctx.cache ++ [if ctx.annex_hash.isSome then 3 else 2] ++
    ctx.inputBytes ++ ctx.annexBytes ++ ctx.outputBytes ++ ctx.leafBytes

/-- The data that the message is about is there. -/
structure Defined : Prop where
  taproot_ready : ctx.cache.m_bip341_taproot_ready
  input : AnyoneCanPay ctx.hash_type → ∃ txin spent, ctx.tx_to.vin[ctx.in_pos.toNat]? = some txin ∧
    ctx.spent_outputs[ctx.in_pos.toNat]? = some spent
  output : outputType ctx.hash_type = sighashSingle →
    ∃ txout, ctx.tx_to.vout[ctx.in_pos.toNat]? = some txout

theorem Defined.hashes {ctx : SigningContext C} (h : ctx.Defined) :
    TaprootHashes C ctx.tx_to ctx.spent_outputs ctx.cache :=
  ctx.isInit.taprootHashes h.taproot_ready

theorem signedInput_eq_ok (hspent : ctx.cache.m_spent_outputs = ctx.spent_outputs)
    {input : List UInt8} (h : signedInput ctx.tx_to ctx.in_pos.toNat
      (ctx.hash_type &&& sighashInputMask) ctx.cache = .ok input) :
    input = ctx.inputBytes ∧ (AnyoneCanPay ctx.hash_type →
      ∃ txin spent, ctx.tx_to.vin[ctx.in_pos.toNat]? = some txin ∧
        ctx.spent_outputs[ctx.in_pos.toNat]? = some spent) := by
  rw [signedInput, hspent] at h
  by_cases hacp : AnyoneCanPay ctx.hash_type
  · rw [if_pos hacp] at h
    obtain ⟨txin, htxin, h⟩ := bind_eq_ok_iff.mp h
    obtain ⟨spent, hspent, h⟩ := bind_eq_ok_iff.mp h
    have hvin := Eval.init_eq_ok_iff.mp htxin
    have hout := Eval.init_eq_ok_iff.mp hspent
    cases h
    refine ⟨?_, fun _ => ⟨txin, spent, hvin, hout⟩⟩
    rw [inputBytes, if_pos hacp, hvin, hout]
  · rw [if_neg hacp] at h
    cases h
    refine ⟨?_, fun h => absurd h hacp⟩
    rw [inputBytes, if_neg hacp]

theorem signedOutput_eq_some {execdata : ScriptExecutionData} {output : List UInt8}
    (h : signedOutput C ctx.execdata ctx.tx_to ctx.in_pos.toNat (outputType ctx.hash_type) =
      some (execdata, output)) :
    output = ctx.outputBytes ∧ execdata.m_tapleaf_hash = some ctx.leaf_hash ∧
      execdata.m_codeseparator_pos = some ctx.codeseparator_pos ∧
      (outputType ctx.hash_type = sighashSingle →
        ∃ txout, ctx.tx_to.vout[ctx.in_pos.toNat]? = some txout) := by
  rw [signedOutput] at h
  by_cases hsingle : outputType ctx.hash_type = sighashSingle
  · rw [if_pos hsingle] at h
    rcases hvout : ctx.tx_to.vout[ctx.in_pos.toNat]? with _ | txout
    · rw [hvout] at h; cases h
    rw [hvout] at h
    cases h
    have hhash : ctx.output_hash.getD (C.sha256 txout.serialize) = C.sha256 txout.serialize := by
      rcases hmemo : ctx.output_hash with _ | memo
      · rfl
      obtain ⟨txout', hvout', rfl⟩ := ctx.output_hash_eq memo hmemo
      rw [hvout] at hvout'
      cases hvout'
      rfl
    refine ⟨?_, rfl, rfl, fun _ => ⟨txout, rfl⟩⟩
    rw [outputBytes, if_pos hsingle, hvout]
    exact congrArg serUint256 hhash
  · rw [if_neg hsingle] at h
    cases h
    refine ⟨?_, rfl, rfl, fun h => absurd h hsingle⟩
    rw [outputBytes, if_neg hsingle]

/-- **A hash that is defined is the hash of the message**, under the tag of its signature version. -/
theorem signatureHash_eq_some {sigversion : SigVersion}
    (hversion : sigversion = .tapscript ∨ sigversion = .p2mr) {tag : String} {hash : Uint256}
    {execdata : ScriptExecutionData}
    (h : signatureHashSchnorrCommon C ctx.execdata ctx.tx_to ctx.in_pos.toNat ctx.hash_type
      sigversion ctx.cache tag = .ok (some (hash, execdata))) :
    ctx.Defined ∧ hash = C.taggedHash tag ctx.message := by
  have hext : (if sigversion = .taproot then 0 else 1 : UInt8) = 1 := by
    obtain rfl | rfl := hversion <;> rfl
  obtain ⟨-, -, h⟩ := bind_eq_ok_iff.mp h
  obtain ⟨-, -, h⟩ := bind_eq_ok_iff.mp h
  obtain ⟨_, hready, h⟩ := bind_eq_ok_iff.mp h
  have hready := (Eval.require_eq_ok_iff.mp hready).1
  by_cases htype : ¬ (ctx.hash_type ≤ 0x03 ∨ (0x81 ≤ ctx.hash_type ∧ ctx.hash_type ≤ 0x83))
  · rw [if_pos htype] at h
    cases h
  rw [if_neg htype] at h
  obtain ⟨annex, hannex, h⟩ := bind_eq_ok_iff.mp h
  cases hannex
  obtain ⟨input, hinput, h⟩ := bind_eq_ok_iff.mp h
  obtain ⟨rfl, hin⟩ := ctx.signedInput_eq_ok (ctx.isInit.taprootHashes hready).spent_outputs hinput
  rcases hout : signedOutput C ctx.execdata ctx.tx_to ctx.in_pos.toNat (outputType ctx.hash_type)
      with _ | ⟨execdata', output⟩
  · rw [outputType] at hout
    rw [hout] at h
    cases h
  obtain ⟨rfl, hleaf, hpos, hvout⟩ := ctx.signedOutput_eq_some hout
  rw [outputType] at hout
  rw [hout] at h
  obtain ⟨leaf, hsigned, h⟩ := bind_eq_ok_iff.mp h
  rw [signedLeaf, if_pos hversion, hleaf, hpos] at hsigned
  cases hsigned
  cases h
  refine ⟨⟨hready, hin, hvout⟩, ?_⟩
  rw [hext]
  have hspend : (1 * 2 + (if ctx.annex_hash.isSome then 1 else 0) : UInt8) =
      if ctx.annex_hash.isSome then 3 else 2 := by
    split_ifs <;> rfl
  rw [hspend]
  rfl

/-! ### Taking a message apart -/

section Apart

variable {r s : List UInt8}

/-- The transaction-level data is read back in the layout of its hash type. -/
theorem signedTransaction_inj {tx tx' : CTransaction} {input_type output_type : UInt8}
    {cache cache' : PrecomputedTransactionData}
    (h : signedTransaction tx input_type output_type cache ++ r =
      signedTransaction tx' input_type output_type cache' ++ s) :
    tx.version = tx'.version ∧ tx.nLockTime = tx'.nLockTime ∧
      (input_type ≠ sighashAnyonecanpay →
        cache.m_prevouts_single_hash = cache'.m_prevouts_single_hash ∧
        cache.m_spent_amounts_single_hash = cache'.m_spent_amounts_single_hash ∧
        cache.m_spent_scripts_single_hash = cache'.m_spent_scripts_single_hash ∧
        cache.m_sequences_single_hash = cache'.m_sequences_single_hash) ∧
      (output_type = sighashAll →
        cache.m_outputs_single_hash = cache'.m_outputs_single_hash) ∧ r = s := by
  simp only [signedTransaction, List.append_assoc] at h
  obtain ⟨hversion, h⟩ := serUint32_selfDelimiting h
  obtain ⟨hlocktime, h⟩ := serUint32_selfDelimiting h
  obtain ⟨hinputs, h⟩ := List.append_inj h (by split_ifs <;> simp)
  obtain ⟨houtputs, h⟩ := List.append_inj h (by split_ifs <;> simp)
  refine ⟨hversion, hlocktime, fun htype => ?_, fun htype => ?_, h⟩
  · rw [if_pos htype, if_pos htype] at hinputs
    obtain ⟨hprevouts, hinputs⟩ := serUint256_selfDelimiting hinputs
    obtain ⟨hamounts, hinputs⟩ := serUint256_selfDelimiting hinputs
    obtain ⟨hscripts, hinputs⟩ := serUint256_selfDelimiting hinputs
    exact ⟨hprevouts, hamounts, hscripts, serUint256_injective hinputs⟩
  · rw [if_pos htype, if_pos htype] at houtputs
    exact serUint256_injective houtputs

/-- The bytes about the input: what is signed alone, or its position.  The script of the spent output
has any length, and tells it. -/
theorem inputBytes_inj (ha : a.Defined) (hb : b.Defined) (htype : a.hash_type = b.hash_type)
    (h : a.inputBytes ++ r = b.inputBytes ++ s) :
    (AnyoneCanPay a.hash_type → ∃ txin txin' spent, a.tx_to.vin[a.in_pos.toNat]? = some txin ∧
      b.tx_to.vin[b.in_pos.toNat]? = some txin' ∧ txin.prevout = txin'.prevout ∧
      txin.nSequence = txin'.nSequence ∧ a.spent_outputs[a.in_pos.toNat]? = some spent ∧
      b.spent_outputs[b.in_pos.toNat]? = some spent) ∧
    (¬AnyoneCanPay a.hash_type → a.in_pos = b.in_pos) ∧ r = s := by
  rw [inputBytes, inputBytes, ← htype] at h
  by_cases hacp : AnyoneCanPay a.hash_type
  · obtain ⟨txin, spent, hvin, hspent⟩ := ha.input hacp
    obtain ⟨txin', spent', hvin', hspent'⟩ := hb.input (htype ▸ hacp)
    rw [if_pos hacp, if_pos hacp, hvin, hspent, hvin', hspent'] at h
    simp only [List.append_assoc] at h
    obtain ⟨hprevout, h⟩ := COutPoint.serialize_selfDelimiting h
    obtain ⟨hout, h⟩ := CTxOut.serialize_selfDelimiting h
    obtain ⟨hsequence, h⟩ := serUint32_selfDelimiting h
    rw [show spent' = spent from hout.symm] at hspent'
    exact ⟨fun _ => ⟨txin, txin', spent, hvin, hvin', hprevout, hsequence, hspent, hspent'⟩,
      absurd hacp, h⟩
  · rw [if_neg hacp, if_neg hacp] at h
    obtain ⟨hpos, h⟩ := serUint32_selfDelimiting h
    exact ⟨fun hyes => absurd hyes hacp, fun _ => hpos, h⟩

theorem annexBytes_inj (hannex : a.annex_hash.isSome = b.annex_hash.isSome)
    (h : a.annexBytes ++ r = b.annexBytes ++ s) : a.annex_hash = b.annex_hash ∧ r = s := by
  rw [annexBytes, annexBytes] at h
  rcases ha : a.annex_hash with _ | x
  · rw [ha] at hannex h
    rw [Option.isNone_iff_eq_none.mp (Option.isSome_eq_false_iff.mp hannex.symm)] at h ⊢
    exact ⟨rfl, h⟩
  rw [ha] at hannex h
  obtain ⟨y, hy⟩ := Option.isSome_iff_exists.mp hannex.symm
  rw [hy] at h ⊢
  obtain ⟨hxy, h⟩ := serUint256_selfDelimiting h
  exact ⟨congrArg some hxy, h⟩

theorem outputBytes_inj (ha : a.Defined) (hb : b.Defined) (htype : a.hash_type = b.hash_type)
    (h : a.outputBytes ++ r = b.outputBytes ++ s) :
    (outputType a.hash_type = sighashSingle → ∃ txout txout',
      a.tx_to.vout[a.in_pos.toNat]? = some txout ∧ b.tx_to.vout[b.in_pos.toNat]? = some txout' ∧
      C.sha256 txout.serialize = C.sha256 txout'.serialize) ∧ r = s := by
  rw [outputBytes, outputBytes, ← htype] at h
  by_cases hsingle : outputType a.hash_type = sighashSingle
  · obtain ⟨txout, hvout⟩ := ha.output hsingle
    obtain ⟨txout', hvout'⟩ := hb.output (htype ▸ hsingle)
    rw [if_pos hsingle, if_pos hsingle, hvout, hvout'] at h
    obtain ⟨hhash, h⟩ := serUint256_selfDelimiting h
    exact ⟨fun _ => ⟨txout, txout', hvout, hvout', hhash⟩, h⟩
  · rw [if_neg hsingle, if_neg hsingle] at h
    exact ⟨fun h => absurd h hsingle, h⟩

theorem leafBytes_inj (h : a.leafBytes = b.leafBytes) :
    a.leaf_hash = b.leaf_hash ∧ a.codeseparator_pos = b.codeseparator_pos := by
  simp only [leafBytes, List.append_assoc] at h
  obtain ⟨hleaf, h⟩ := serUint256_selfDelimiting h
  rw [List.singleton_append, List.singleton_append, List.cons.injEq] at h
  exact ⟨hleaf, (serUint32_selfDelimiting (r := []) (s := []) (by rw [h.2])).1⟩

end Apart

/-! ### What is committed to -/

/-- The byte strings that are hashed for a signature. -/
def hashed (tag : String) : List (List UInt8) :=
  [tagBytes tag, C.taggedInput tag ctx.message,
    ctx.tx_to.vin.flatMap fun i => i.prevout.serialize,
    ctx.spent_outputs.flatMap fun o => serInt64 o.nValue,
    ctx.spent_outputs.flatMap fun o => o.scriptPubKey.serialize,
    ctx.tx_to.vin.flatMap fun i => serUint32 i.nSequence,
    ctx.tx_to.vout.flatMap CTxOut.serialize] ++
    (ctx.tx_to.vout[ctx.in_pos.toNat]?.map CTxOut.serialize).toList

/-- Two contexts that agree on everything that their hash type promises to commit to. -/
structure Agrees (a b : SigningContext C) : Prop where
  hash_type : a.hash_type = b.hash_type
  version : a.tx_to.version = b.tx_to.version
  nLockTime : a.tx_to.nLockTime = b.tx_to.nLockTime
  annex_hash : a.annex_hash = b.annex_hash
  leaf_hash : a.leaf_hash = b.leaf_hash
  codeseparator_pos : a.codeseparator_pos = b.codeseparator_pos
  all_inputs : ¬ AnyoneCanPay a.hash_type →
    a.tx_to.vin.map prevout = b.tx_to.vin.map prevout ∧
    a.spent_outputs.map CTxOut.nValue = b.spent_outputs.map CTxOut.nValue ∧
    a.spent_outputs.map CTxOut.scriptPubKey = b.spent_outputs.map CTxOut.scriptPubKey ∧
    a.tx_to.vin.map nSequence = b.tx_to.vin.map nSequence ∧ a.in_pos = b.in_pos
  one_input : AnyoneCanPay a.hash_type →
    ∃ txin txin' spent, a.tx_to.vin[a.in_pos.toNat]? = some txin ∧
      b.tx_to.vin[b.in_pos.toNat]? = some txin' ∧ txin.prevout = txin'.prevout ∧
      txin.nSequence = txin'.nSequence ∧ a.spent_outputs[a.in_pos.toNat]? = some spent ∧
      b.spent_outputs[b.in_pos.toNat]? = some spent
  all_outputs : outputType a.hash_type = sighashAll → a.tx_to.vout = b.tx_to.vout
  one_output : outputType a.hash_type = sighashSingle →
    ∃ txout, a.tx_to.vout[a.in_pos.toNat]? = some txout ∧
      b.tx_to.vout[b.in_pos.toNat]? = some txout

/-- **Equal messages are about the same things.** -/
theorem agrees_of_message_eq (ha : a.Defined) (hb : b.Defined) {tag : String}
    (hfree : Merkle.NoCollision C.sha256 (a.hashed tag) (b.hashed tag))
    (h : a.message = b.message) : Agrees a b := by
  simp only [message, List.append_assoc, List.cons_append, List.cons.injEq] at h
  obtain ⟨-, htype, h⟩ := h
  rw [← htype] at h
  obtain ⟨hversion, hlocktime, hinputs, houtputs, h⟩ := signedTransaction_inj h
  obtain ⟨hspend, h⟩ := List.cons_eq_cons.mp h
  have hannex : a.annex_hash.isSome = b.annex_hash.isSome := by
    cases hx : a.annex_hash.isSome <;> cases hy : b.annex_hash.isSome <;> simp [hx, hy] at hspend ⊢
  obtain ⟨hone, hpos, h⟩ := inputBytes_inj ha hb htype h
  obtain ⟨hannex_hash, h⟩ := annexBytes_inj hannex h
  obtain ⟨hsingle, h⟩ := outputBytes_inj ha hb htype h
  obtain ⟨hleaf, hcodesep⟩ := leafBytes_inj h
  refine ⟨htype, hversion, hlocktime, hannex_hash, hleaf, hcodesep, fun hacp => ?_, hone,
    fun hall => ?_, fun hs => ?_⟩
  · obtain ⟨hprevouts, hamounts, hscripts, hsequences⟩ := hinputs hacp
    rw [ha.hashes.prevouts, hb.hashes.prevouts] at hprevouts
    rw [ha.hashes.amounts, hb.hashes.amounts] at hamounts
    rw [ha.hashes.scripts, hb.hashes.scripts] at hscripts
    rw [ha.hashes.sequences, hb.hashes.sequences] at hsequences
    refine ⟨?_, ?_, ?_, ?_, hpos hacp⟩
    · exact map_eq_of_hash_eq (COutPoint.serialize_selfDelimiting.comp prevout) (by simp) hfree
        (by simp [hashed]) (by simp [hashed]) hprevouts
    · exact map_eq_of_hash_eq (serInt64_selfDelimiting.comp CTxOut.nValue) (by simp) hfree
        (by simp [hashed]) (by simp [hashed]) hamounts
    · exact map_eq_of_hash_eq (CScript.serialize_selfDelimiting.comp CTxOut.scriptPubKey)
        (fun _ => length_scriptSerialize_pos _) hfree (by simp [hashed]) (by simp [hashed]) hscripts
    · exact map_eq_of_hash_eq (serUint32_selfDelimiting.comp nSequence) (by simp) hfree
        (by simp [hashed]) (by simp [hashed]) hsequences
  · have hhash := houtputs hall
    rw [ha.hashes.outputs, hb.hashes.outputs] at hhash
    have := map_eq_of_hash_eq CTxOut.serialize_selfDelimiting length_txOutSerialize_pos hfree
      (by simp [hashed]) (by simp [hashed]) hhash
    simpa using this
  · obtain ⟨txout, txout', hvout, hvout', hhash⟩ := hsingle hs
    have hser := hfree _ (by simp [hashed, hvout]) _ (by simp [hashed, hvout']) hhash
    have hout : txout = txout' := (CTxOut.serialize_selfDelimiting (a := txout) (b := txout')
      (r := []) (s := []) (by rw [hser])).1
    rw [← hout] at hvout'
    exact ⟨txout, hvout, hvout'⟩

/-- **The P2MR signature message is uniquely decodable.**  Two P2MR signature hashes that are equal
come from contexts that agree on everything the hash type promises to commit to, and no P2MR
signature hash is a Tapscript signature hash. -/
theorem signatureHashP2MR_commits {hash : Uint256} {execdata : ScriptExecutionData}
    (ha : a.signatureHashP2MR = .ok (some (hash, execdata)))
    (hfree : Merkle.NoCollision C.sha256 (a.hashed "P2MRSighash")
      (b.hashed "P2MRSighash" ++ b.hashed "TapSighash")) :
    (∀ execdata', b.signatureHashP2MR = .ok (some (hash, execdata')) → Agrees a b) ∧
      ∀ hash' execdata', b.signatureHashTapscript = .ok (some (hash', execdata')) →
        hash ≠ hash' := by
  obtain ⟨hdef, rfl⟩ := a.signatureHash_eq_some (Or.inr rfl) ha
  refine ⟨fun execdata' hb => ?_, fun hash' execdata' hb heq => ?_⟩
  · obtain ⟨hdef', heq⟩ := b.signatureHash_eq_some (Or.inr rfl) hb
    have hinput : C.taggedInput "P2MRSighash" a.message = C.taggedInput "P2MRSighash" b.message :=
      hfree _ (by simp [hashed]) _ (by simp [hashed]) heq
    exact agrees_of_message_eq hdef hdef' (hfree.mono (fun _ h => h) fun _ => List.mem_append_left _)
      (List.append_cancel_left hinput)
  · obtain ⟨-, rfl⟩ := b.signatureHash_eq_some (Or.inl rfl) hb
    have hinput : C.taggedInput "P2MRSighash" a.message = C.taggedInput "TapSighash" b.message :=
      hfree _ (by simp [hashed]) _ (by simp [hashed]) heq
    simp only [Crypto.taggedInput, List.append_assoc] at hinput
    have htag := (serUint256_selfDelimiting hinput).1
    have := hfree (tagBytes "P2MRSighash") (by simp [hashed]) (tagBytes "TapSighash")
      (by simp [hashed]) htag
    revert this
    decide

/-- A transaction to which inputs and outputs can be added. -/
def openTx (more : List CTxIn) (outputs : List CTxOut) : CTransaction where
  vin := ({ prevout := { hash := 1, n := 0 }, scriptWitness := [[1]] } : CTxIn) :: more
  vout := ({ nValue := 5 } : CTxOut) :: outputs

/-- A signature of its first input and its first output. -/
def openContext (more : List CTxIn) (spent outputs : List CTxOut)
    (hlen : spent.length = more.length) : SigningContext foldCrypto where
  tx_to := openTx more outputs
  spent_outputs := templateCoin :: spent
  cache := .initForced foldCrypto (openTx more outputs) (templateCoin :: spent)
  isInit := Or.inr ⟨Or.inr (by simp [openTx, hlen]), rfl⟩
  in_pos := 0
  hash_type := 0x83
  annex_hash := none
  leaf_hash := 3
  codeseparator_pos := 0xffffffff

/-- Before and after another input is added.  The signature stays valid, and what it commits to stays
the same; it is no signature for a Tapscript. -/
theorem signatureHashP2MR_commits_open :
    Agrees (openContext [] [] [] rfl) (openContext [{ prevout := {} }] [{ nValue := 9 }] [] rfl) ∧
      ∀ hash execdata, (openContext [{ prevout := {} }] [{ nValue := 9 }] [] rfl
        ).signatureHashTapscript = .ok (some (hash, execdata)) →
          foldCrypto.taggedHash "P2MRSighash" (openContext [] [] [] rfl).message ≠ hash := by
  have hfree : Merkle.NoCollision foldCrypto.sha256
      ((openContext [] [] [] rfl).hashed "P2MRSighash")
      ((openContext [{ prevout := {} }] [{ nValue := 9 }] [] rfl).hashed "P2MRSighash" ++
        (openContext [{ prevout := {} }] [{ nValue := 9 }] [] rfl).hashed "TapSighash") := by
    unfold Merkle.NoCollision
    decide +kernel
  have hmessage : (openContext [{ prevout := {} }] [{ nValue := 9 }] [] rfl).message =
      (openContext [] [] [] rfl).message := by
    decide +kernel
  have hhash : (openContext [] [] [] rfl).signatureHashP2MR = .ok (some
      (foldCrypto.taggedHash "P2MRSighash" (openContext [] [] [] rfl).message, _)) := rfl
  have hhash' : (openContext [{ prevout := {} }] [{ nValue := 9 }] [] rfl).signatureHashP2MR =
      .ok (some (foldCrypto.taggedHash "P2MRSighash"
        (openContext [{ prevout := {} }] [{ nValue := 9 }] [] rfl).message, _)) := rfl
  rw [hmessage] at hhash'
  obtain ⟨hagrees, htapscript⟩ := signatureHashP2MR_commits hhash hfree
  exact ⟨hagrees _ hhash', htapscript⟩

end SigningContext

end Qbit
