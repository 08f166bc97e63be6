import Qbit.Sign.Solved

/-!
# How many signatures a plan makes

A signature uses up a part of its key's limited supply, so a plan counts the signatures that it will
have to make: as many as are asked for, less those that are there.

Carrying out the plan goes through the keys in reverse order, and takes or makes a signature for each
key that can have one until there are enough.  A key that has to make one may come before a key
whose signature is there.  `attempts_eq_newSignatures_iff` says when the plan has counted right: if
the keys that are reached have their signatures all, or if they are all the keys that have one.
-/

open Bytes

namespace Qbit

section Needed

variable (C : Crypto) {W : Type} (provider : SigningProvider W)
  (creator : MutableTransactionSignatureCreator)

/-- The calls of `CreatePQCSignature` while `SignP2MRScript` goes through the keys: the key, and
whether the call succeeded. -/
def pqcAttempts (leaf_hash : Uint256) (threshold : Nat) :
    List (CPQCPubKey × Bool) → Nat → SignatureData → W → List (CPQCPubKey × Bool)
  | [], _, _, _ => []
  | (pubkey, candidate) :: keys, num_signed, sigdata, w =>
    if !candidate || threshold ≤ num_signed then
      pqcAttempts leaf_hash threshold keys num_signed sigdata w
    else
      let (sig, sigdata', w') := createP2MRScriptSig C provider creator sigdata pubkey leaf_hash w
      let rest := pqcAttempts leaf_hash threshold keys
        (if sig.isSome then num_signed + 1 else num_signed) sigdata' w'
      if lookupValidP2MRScriptSig C creator sigdata pubkey leaf_hash = (none, false) then
        (pubkey, sig.isSome) :: rest
      else rest

/-- The last `threshold` keys of a leaf that have a signature or can make one. -/
def lastCandidates (sigdata : SignatureData) (w : W) (leaf_hash : Uint256)
    (pubkeys : List CPQCPubKey) (threshold : Nat) : List CPQCPubKey :=
  ((pubkeys.filter (isCandidate C provider creator sigdata w leaf_hash)).reverse).take threshold

/-! ## One key -/

variable {C provider creator} {sigdata : SignatureData} {pubkey : CPQCPubKey} {leaf_hash : Uint256}
  {w : W}

theorem lookup_eq_none_of_lookupValid
    (h : lookupValidP2MRScriptSig C creator sigdata pubkey leaf_hash = (none, false)) :
    sigdata.p2mr_script_sigs.lookup (pubkey, leaf_hash) = none := by
  rw [lookupValidP2MRScriptSig] at h
  split at h
  next hlookup => exact hlookup
  · split at h <;> cases h

variable (provider w) in
theorem createP2MRScriptSig_of_isCached (h : isCached C creator sigdata leaf_hash pubkey = true) :
    ∃ sig, createP2MRScriptSig C provider creator sigdata pubkey leaf_hash w =
      (some sig, sigdata, w) := by
  rw [createP2MRScriptSig]
  rw [isCached] at h
  split
  next sig _ hlookup => exact ⟨sig, rfl⟩
  next hlookup =>
    rw [hlookup] at h
    cases h
  next hlookup =>
    rw [hlookup] at h
    cases h

theorem lookupValid_createP2MRScriptSig {other : CPQCPubKey} (hne : other ≠ pubkey) :
    lookupValidP2MRScriptSig C creator
        (createP2MRScriptSig C provider creator sigdata pubkey leaf_hash w).2.1 other leaf_hash =
      lookupValidP2MRScriptSig C creator sigdata other leaf_hash := by
  have hlookup : (createP2MRScriptSig C provider creator sigdata pubkey leaf_hash
      w).2.1.p2mr_script_sigs.lookup (other, leaf_hash) =
        sigdata.p2mr_script_sigs.lookup (other, leaf_hash) := by
    rw [createP2MRScriptSig]
    split
    · rfl
    · rfl
    · split
      · exact AList.lookup_insert_ne fun h => hne (Prod.mk.inj h).1
      · rfl
  simp [lookupValidP2MRScriptSig, hlookup]

theorem length_entries_createP2MRScriptSig :
    let r := createP2MRScriptSig C provider creator sigdata pubkey leaf_hash w
    r.2.1.p2mr_script_sigs.entries.length = sigdata.p2mr_script_sigs.entries.length +
      (if lookupValidP2MRScriptSig C creator sigdata pubkey leaf_hash = (none, false) ∧
        r.1.isSome = true then 1 else 0) := by
  dsimp only
  rw [createP2MRScriptSig]
  split
  next hlookup => rw [hlookup, if_neg (by simp), Nat.add_zero]
  next hlookup => rw [hlookup, if_neg (by simp), Nat.add_zero]; rfl
  next hlookup =>
  have hnew : (pubkey, leaf_hash) ∉ sigdata.p2mr_script_sigs :=
    AList.lookup_eq_none.mp (lookup_eq_none_of_lookupValid hlookup)
  split
  · rw [hlookup, if_pos ⟨rfl, rfl⟩]
    rw [AList.entries_insert_of_notMem hnew, List.length_cons]
  · rw [hlookup, if_neg (by simp), Nat.add_zero]
    rfl

/-! ## All keys -/

variable (C provider creator leaf_hash) in
/-- **The signatures that are added are those that were made.** -/
theorem length_entries_signP2MRKeys (threshold : Nat) (keys : List (CPQCPubKey × Bool))
    (num_signed : Nat) (sigdata : SignatureData) (w : W) :
    (signP2MRKeys C provider creator leaf_hash threshold keys num_signed sigdata
        w).2.1.p2mr_script_sigs.entries.length =
      sigdata.p2mr_script_sigs.entries.length +
        (pqcAttempts C provider creator leaf_hash threshold keys num_signed sigdata w).countP
          (·.2) := by
  induction keys generalizing num_signed sigdata w with
  | nil => rfl
  | cons key keys ih =>
    obtain ⟨pubkey, candidate⟩ := key
    have hcreate : (createP2MRScriptSig C provider creator sigdata pubkey leaf_hash
        w).2.1.p2mr_script_sigs.entries.length = _ := length_entries_createP2MRScriptSig
    rw [signP2MRKeys, pqcAttempts]
    by_cases hskip : (!candidate || decide (threshold ≤ num_signed)) = true
    · rw [if_pos hskip, if_pos hskip]
      exact ih num_signed sigdata w
    rw [if_neg hskip, if_neg hskip]
    generalize createP2MRScriptSig C provider creator sigdata pubkey leaf_hash w = r at hcreate ⊢
    obtain ⟨_ | sig, sigdata', w'⟩ := r
    · rw [if_neg (by simp), Nat.add_zero] at hcreate
      have hrest := ih num_signed sigdata' w'
      dsimp only at hcreate hrest ⊢
      rw [hrest, hcreate]
      split <;> simp
    · have hrest := ih (num_signed + 1) sigdata' w'
      by_cases hlookup : lookupValidP2MRScriptSig C creator sigdata pubkey leaf_hash = (none, false)
      · rw [if_pos ⟨hlookup, rfl⟩] at hcreate
        dsimp only at hcreate ⊢
        rw [hrest, hcreate, if_pos hlookup, List.countP_cons_of_pos rfl]
        exact Nat.add_right_comm _ _ _
      · rw [if_neg fun h => hlookup h.1] at hcreate
        dsimp only at hcreate ⊢
        rw [hrest, hcreate, if_neg hlookup]
        rfl

/-- **The keys that make signatures**, if each does that tries to: of the first candidates, as many
as are asked for, those without a signature. -/
theorem map_fst_pqcAttempts {threshold : Nat} {keys : List (CPQCPubKey × Bool)}
    (hdistinct : (keys.map Prod.fst).Nodup) {num_signed : Nat} {before : SignatureData}
    (hsame : ∀ key ∈ keys, lookupValidP2MRScriptSig C creator sigdata key.1 leaf_hash =
      lookupValidP2MRScriptSig C creator before key.1 leaf_hash)
    (hvalid : ∀ key ∈ keys, (lookupValidP2MRScriptSig C creator before key.1 leaf_hash).2 = false)
    (hsuccess : ∀ attempt ∈ pqcAttempts C provider creator leaf_hash threshold keys num_signed
      sigdata w, attempt.2 = true) :
    (pqcAttempts C provider creator leaf_hash threshold keys num_signed sigdata w).map Prod.fst =
      (((keys.filter (·.2)).map Prod.fst).take (threshold - num_signed)).filter
        fun pubkey => !isCached C creator before leaf_hash pubkey := by
  induction keys generalizing num_signed sigdata w with
  | nil => simp [pqcAttempts]
  | cons key keys ih =>
    obtain ⟨pubkey, candidate⟩ := key
    obtain ⟨hnot, hrest⟩ := List.nodup_cons.mp hdistinct
    have hkey := hsame _ List.mem_cons_self
    have hkeyValid := hvalid _ List.mem_cons_self
    have hsame' := fun key hmem => hsame key (List.mem_cons_of_mem _ hmem)
    have hvalid' := fun key hmem => hvalid key (List.mem_cons_of_mem _ hmem)
    rw [pqcAttempts] at hsuccess ⊢
    by_cases hskip : (!candidate || decide (threshold ≤ num_signed)) = true
    · rw [if_pos hskip] at hsuccess ⊢
      rw [ih hrest hsame' hvalid' hsuccess]
      rw [Bool.or_eq_true, Bool.not_eq_true', decide_eq_true_iff] at hskip
      rcases hskip with rfl | henough
      · rfl
      · rw [Nat.sub_eq_zero_of_le henough, List.take_zero, List.take_zero]
    · rw [if_neg hskip] at hsuccess ⊢
      rw [Bool.or_eq_true, Bool.not_eq_true', decide_eq_true_iff, not_or, Bool.not_eq_false,
        not_le] at hskip
      obtain ⟨rfl, hmore⟩ := hskip
      have hstays : ∀ key ∈ keys, lookupValidP2MRScriptSig C creator (createP2MRScriptSig C provider
          creator sigdata pubkey leaf_hash w).2.1 key.1 leaf_hash =
            lookupValidP2MRScriptSig C creator before key.1 leaf_hash := fun key hmem => by
        have hne : key.1 ≠ pubkey := fun h => hnot (List.mem_map.mpr ⟨key, hmem, h⟩)
        rw [lookupValid_createP2MRScriptSig hne, hsame' key hmem]
      have htake : threshold - num_signed = threshold - (num_signed + 1) + 1 := by omega
      rw [List.filter_cons_of_pos rfl, List.map_cons, htake, List.take_succ_cons]
      by_cases hcached : isCached C creator before leaf_hash pubkey = true
      · -- the signature is there
        have hcached' : isCached C creator sigdata leaf_hash pubkey = true := by
          rw [isCached, hkey]
          exact hcached
        have hlookup : lookupValidP2MRScriptSig C creator sigdata pubkey leaf_hash ≠ (none, false) := by
          intro h
          rw [isCached, h] at hcached'
          cases hcached'
        obtain ⟨sig, hcreate⟩ := createP2MRScriptSig_of_isCached provider w hcached'
        rw [hcreate] at hsuccess ⊢
        dsimp only at hsuccess ⊢
        rw [if_neg hlookup] at hsuccess ⊢
        rw [List.filter_cons_of_neg (by rw [hcached]; decide)]
        exact ih hrest hsame' hvalid' hsuccess
      · -- the key makes its signature, and succeeds
        have hlookup : lookupValidP2MRScriptSig C creator sigdata pubkey leaf_hash = (none, false) := by
          rw [hkey]
          refine Prod.ext ?_ hkeyValid
          rwa [isCached, Bool.not_eq_true, Option.isSome_eq_false_iff, Option.isNone_iff_eq_none]
            at hcached
        generalize createP2MRScriptSig C provider creator sigdata pubkey leaf_hash w = r
          at hsuccess hstays ⊢
        obtain ⟨sig, sigdata', w'⟩ := r
        dsimp only at hsuccess hstays ⊢
        rw [if_pos hlookup] at hsuccess ⊢
        have hsig : sig.isSome = true := hsuccess _ List.mem_cons_self
        rw [if_pos hsig] at hsuccess ⊢
        rw [List.map_cons, List.filter_cons_of_pos (by simpa using hcached)]
        exact congrArg _ (ih hrest hstays hvalid' fun attempt hmem =>
          hsuccess attempt (List.mem_cons_of_mem _ hmem))

/-! ## The plan -/

theorem map_fst_signers {plan : P2MRScriptSigningPlan} {candidate : CPQCPubKey → Bool}
    (h : plan.candidate_pubkeys = plan.pubkeys.map candidate) :
    (plan.signers.filter (·.2)).map Prod.fst = (plan.pubkeys.filter candidate).reverse ∧
      plan.signers.map Prod.fst = plan.pubkeys.reverse := by
  rw [P2MRScriptSigningPlan.signers, h, ← List.map_prod_left_eq_zip, List.filter_reverse,
    List.map_reverse, List.map_reverse, List.filter_map, List.map_map, List.map_map]
  exact ⟨congrArg List.reverse (List.map_id _), congrArg List.reverse (List.map_id _)⟩

/-- How many of the first `n` elements lack the property, against how many would if those that have
it came first. -/
theorem length_filter_take_iff {α : Type} {l : List α} {n : Nat} (hdistinct : l.Nodup)
    (hlength : n ≤ l.length) (p : α → Bool) :
    ((l.take n).filter fun a => !p a).length = n - l.countP p ↔
      (∀ a ∈ l.take n, p a = true) ∨ ∀ a ∈ l, p a = true → a ∈ l.take n := by
  have htake : (l.take n).length = n := List.length_take_of_le hlength
  have hsplit : l.countP p = (l.take n).countP p + (l.drop n).countP p := by
    rw [← List.countP_append, List.take_append_drop]
  have hothers : ((l.take n).filter fun a => !p a).length = n - (l.take n).countP p := by
    have hall := List.length_eq_countP_add_countP p (l := l.take n)
    simp only [Bool.not_eq_true, Bool.decide_eq_false] at hall
    rw [← List.countP_eq_length_filter]
    omega
  have hfirst : (l.take n).countP p = n ↔ ∀ a ∈ l.take n, p a = true := by
    rw [← List.countP_eq_length, htake]
  have hafter : (l.drop n).countP p = 0 ↔ ∀ a ∈ l, p a = true → a ∈ l.take n := by
    rw [List.countP_eq_zero]
    constructor
    · intro hnone a hmem hp
      rw [← List.take_append_drop n l, List.mem_append] at hmem
      exact hmem.resolve_right fun hdrop => hnone a hdrop hp
    · intro hmem a hdrop hp
      exact List.disjoint_take_drop hdistinct le_rfl (hmem a (List.mem_of_mem_drop hdrop) hp) hdrop
  have hle : (l.take n).countP p ≤ n := List.countP_le_length.trans htake.le
  rw [hothers, hsplit, ← hfirst, ← hafter]
  omega

theorem buildP2MRScriptSigningPlan_of_complete {leaf_version : Int} {script : List UInt8}
    {control_block : Valtype} {plan : P2MRScriptSigningPlan}
    (hplan : (buildP2MRScriptSigningPlan C provider creator sigdata w leaf_version script
      control_block).1 = some plan)
    (hcomplete : plan.complete = true) :
    (buildP2MRScriptSigningPlan C provider creator sigdata w leaf_version script
      control_block).2 = sigdata := by
  obtain ⟨rfl, hleaf⟩ := of_buildP2MRScriptSigningPlan hplan
  obtain ⟨-, -, -, -, -, -, henough, -⟩ := of_estimatePlan hleaf.estimate
  rw [henough, decide_eq_true_iff] at hcomplete
  have hinvalid : (plan.pubkeys.filter fun pubkey => (lookupValidP2MRScriptSig C creator sigdata
      pubkey (C.computeP2MRLeafHash 0xc0 script)).2) = [] :=
    List.filter_eq_nil_iff.mpr fun pubkey hmem => by simp [hleaf.valid pubkey hmem]
  have hhash : C.computeP2MRLeafHash (UInt8.ofInt 0xc0) script =
      C.computeP2MRLeafHash 0xc0 script := rfl
  rw [buildP2MRScriptSigningPlan, if_neg (by decide), hleaf.parse]
  dsimp only
  rw [if_neg (not_lt.mpr hleaf.standard), hhash, hinvalid, if_neg (not_not.mpr rfl), noteMissing,
    if_neg (not_lt.mpr hcomplete)]

variable (C provider creator) in
/-- The calls of `CreatePQCSignature` when the plan is carried out. -/
def P2MRScriptSigningPlan.attempts (plan : P2MRScriptSigningPlan) (sigdata : SignatureData) (w : W) :
    List (CPQCPubKey × Bool) :=
  pqcAttempts C provider creator plan.leaf_hash plan.threshold plan.signers 0 sigdata w

/-- **When a plan counts right.**  A complete plan is carried out, and every call of
`CreatePQCSignature` succeeds.  Each call adds a signature.  There are as many as the plan says if
and only if the last candidates, as many as are asked for, have their signatures all, or are all the
keys that have one. -/
theorem attempts_eq_newSignatures_iff {leaf_version : Int} {script : List UInt8}
    {control_block : Valtype} {plan : P2MRScriptSigningPlan}
    (hplan : (buildP2MRScriptSigningPlan C provider creator sigdata w leaf_version script
      control_block).1 = some plan)
    (hcomplete : plan.complete = true) (hdistinct : plan.pubkeys.Nodup)
    (hsuccess : ∀ attempt ∈ plan.attempts C provider creator (buildP2MRScriptSigningPlan C provider
      creator sigdata w leaf_version script control_block).2 w, attempt.2 = true) :
    let sigdata' := (buildP2MRScriptSigningPlan C provider creator sigdata w leaf_version script
      control_block).2
    let last := lastCandidates C provider creator sigdata w plan.leaf_hash plan.pubkeys
      plan.threshold
    (signP2MRScript C provider creator plan sigdata' w).2.1.p2mr_script_sigs.entries.length =
        sigdata'.p2mr_script_sigs.entries.length +
          (plan.attempts C provider creator sigdata' w).length ∧
      ((plan.attempts C provider creator sigdata' w).length = plan.new_signatures ↔
        (∀ key ∈ last, isCached C creator sigdata plan.leaf_hash key = true) ∨
          ∀ key ∈ plan.pubkeys, isCached C creator sigdata plan.leaf_hash key = true →
            key ∈ last) := by
  rw [buildP2MRScriptSigningPlan_of_complete hplan hcomplete] at hsuccess ⊢
  obtain ⟨-, hleaf⟩ := of_buildP2MRScriptSigningPlan hplan
  obtain ⟨-, -, -, -, hhash, hcandidates, henough, hnew⟩ := of_estimatePlan hleaf.estimate
  rw [← hhash] at hcandidates henough hnew
  rw [henough, decide_eq_true_iff] at hcomplete
  obtain ⟨hsigners, hkeys⟩ := map_fst_signers hcandidates
  have hvalid : ∀ key ∈ plan.signers,
      (lookupValidP2MRScriptSig C creator sigdata key.1 plan.leaf_hash).2 = false := by
    intro key hmem
    have hpubkey := List.mem_map_of_mem (f := Prod.fst) hmem
    rw [hkeys, List.mem_reverse] at hpubkey
    rw [hhash]
    exact hleaf.valid key.1 hpubkey
  have hattempts := map_fst_pqcAttempts (by rwa [hkeys, List.nodup_reverse]) (fun _ _ => rfl) hvalid
    hsuccess
  rw [Nat.sub_zero, hsigners] at hattempts
  dsimp only
  refine ⟨?_, ?_⟩
  · rw [signP2MRScript, length_entries_signP2MRKeys]
    exact congrArg _ (List.countP_eq_length.mpr hsuccess)
  · have hcandidate : ∀ key, isCached C creator sigdata plan.leaf_hash key = true →
        isCandidate C provider creator sigdata w plan.leaf_hash key = true := fun key hcached => by
      rw [isCandidate, hcached, Bool.true_or]
    have hcached : plan.pubkeys.countP (isCached C creator sigdata plan.leaf_hash) =
        (plan.pubkeys.filter (isCandidate C provider creator sigdata w
          plan.leaf_hash)).reverse.countP (isCached C creator sigdata plan.leaf_hash) := by
      rw [List.countP_reverse, List.countP_filter]
      refine List.countP_congr fun key _ => ?_
      rw [Bool.and_eq_true, and_iff_left_of_imp (hcandidate key)]
    have hlength : plan.threshold ≤ (plan.pubkeys.filter (isCandidate C provider creator sigdata w
        plan.leaf_hash)).reverse.length := by
      rwa [List.length_reverse, ← List.countP_eq_length_filter]
    have hcount := length_filter_take_iff (List.nodup_reverse.mpr (hdistinct.filter _)) hlength
      (isCached C creator sigdata plan.leaf_hash)
    rw [← hattempts, List.length_map, ← hcached] at hcount
    rw [hnew, min_eq_left hcomplete]
    refine hcount.trans (or_congr Iff.rfl (forall_congr' fun key => ?_))
    rw [List.mem_reverse, List.mem_filter]
    exact ⟨fun h hmem hkey => h ⟨hmem, hcandidate key hkey⟩ hkey, fun h hmem => h hmem.1⟩

end Needed

/-! ## One signature of two -/

/-- The plan for the leaf when one key's signature is there, and the other key can sign. -/
def planWith (cached signer : UInt8) : Option P2MRScriptSigningPlan × SignatureData :=
  buildP2MRScriptSigningPlan oneOfTwoCrypto (oneKeyProvider signer)
    (defaultCreator (oneOfTwoTx []) 0 1000 oneOfTwoTxdata)
    { p2mr_script_sigs := AList.singleton (BitVec.ofNat 256 cached.toNat, oneOfTwoLeafHash)
        (oneOfTwoSignature cached) }
    () 0xc0 oneOfTwoScript [0xc1]

/-- What is known of the signatures when one key's signature is there. -/
def cachedSigdata (cached : UInt8) : SignatureData where
  p2mr_script_sigs := AList.singleton (BitVec.ofNat 256 cached.toNat, oneOfTwoLeafHash)
    (oneOfTwoSignature cached)

/-- The signature of the second key is there, and none is made. -/
theorem attempts_eq_newSignatures_second :
    ∃ plan, (planWith 2 1).1 = some plan ∧ plan.new_signatures = 0 ∧
      (plan.attempts oneOfTwoCrypto (oneKeyProvider 1)
        (defaultCreator (oneOfTwoTx []) 0 1000 oneOfTwoTxdata) (planWith 2 1).2 ()).length =
          plan.new_signatures := by
  -- One evaluation of the plan serves all the hypotheses.
  have hrun : (planWith 2 1).1.map (fun plan => (plan.complete, decide plan.pubkeys.Nodup,
      plan.new_signatures,
      (plan.attempts oneOfTwoCrypto (oneKeyProvider 1)
        (defaultCreator (oneOfTwoTx []) 0 1000 oneOfTwoTxdata) (planWith 2 1).2 ()).all Prod.snd,
      (lastCandidates oneOfTwoCrypto (oneKeyProvider 1)
        (defaultCreator (oneOfTwoTx []) 0 1000 oneOfTwoTxdata) (cachedSigdata 2) ()
        plan.leaf_hash plan.pubkeys plan.threshold).all
          (isCached oneOfTwoCrypto (defaultCreator (oneOfTwoTx []) 0 1000 oneOfTwoTxdata)
            (cachedSigdata 2) plan.leaf_hash))) = some (true, true, 0, true, true) := by
    decide +kernel
  obtain ⟨plan, hplan, hfacts⟩ := Option.map_eq_some_iff.mp hrun
  simp only [Prod.mk.injEq, decide_eq_true_iff, List.all_eq_true] at hfacts
  obtain ⟨hcomplete, hnodup, hnew, hsuccess, hlast⟩ := hfacts
  exact ⟨plan, hplan, hnew,
    (attempts_eq_newSignatures_iff hplan hcomplete hnodup hsuccess).2.mpr (Or.inl hlast)⟩

/-- The signature of the first key is there, and the second key makes another. -/
theorem attempts_eq_newSignatures_first :
    ∃ plan, (planWith 1 2).1 = some plan ∧ plan.complete = true ∧ plan.pubkeys.Nodup ∧
      plan.attempts oneOfTwoCrypto (oneKeyProvider 2)
        (defaultCreator (oneOfTwoTx []) 0 1000 oneOfTwoTxdata) (planWith 1 2).2 () = [(2, true)] ∧
      plan.new_signatures = 0 := by
  have hrun : (planWith 1 2).1.map (fun plan => (plan.complete, decide plan.pubkeys.Nodup,
      plan.attempts oneOfTwoCrypto (oneKeyProvider 2)
        (defaultCreator (oneOfTwoTx []) 0 1000 oneOfTwoTxdata) (planWith 1 2).2 (),
      plan.new_signatures)) = some (true, true, [(2, true)], 0) := by
    decide +kernel
  obtain ⟨plan, hplan, hfacts⟩ := Option.map_eq_some_iff.mp hrun
  simp only [Prod.mk.injEq, decide_eq_true_iff] at hfacts
  exact ⟨plan, hplan, hfacts⟩

end Qbit
