import Qbit.Wallet.Reservation

/-!
# Signature counters over whole runs

What happens to the counter of one PQC key of one descriptor while the wallet is used: records are
loaded, pending keys are validated, top-ups add keys, counters are reserved, and the process is
restarted at any point.

Every step keeps what is known about the key, except a top-up that resets it.  Without such a step
the stored counter never decreases and no counter is reserved twice: `counters_never_reused`.
-/

namespace Qbit

open DescriptorMan

/-! ## Steps and runs -/

/-- How the transaction of a top-up ends. -/
inductive TopUpEnd where
  | committed
  /-- The transaction is aborted, and the manager is as it was before. -/
  | rolledBack
  /-- The transaction is lost, and the manager keeps what was added to it. -/
  | aborted

/-- A step of the wallet that may touch the counters of a descriptor. -/
inductive CounterStep where
  /-- The process ends, and the next one loads the records. -/
  | restart
  /-- The validation of pending keys fetches the next one. -/
  | fetch
  /-- The validation of the fetched key ends. -/
  | finish
  | topUp (adds : List PQCKeyToAdd) (txn : TopUpEnd)
  | reserve (env : ReservationEnv) (counts : KeyMap UInt32)

/-- The wallet between two steps. -/
structure CounterState where
  db : PQCRecords
  /-- There is no manager before the first start, and none if a record is corrupt. -/
  man : Option DescriptorMan := none
  /-- The key that is being validated. -/
  validating : Option (CPQCPubKey × PendingPlaintextPQCKey) := none
  /-- The ranges that all reservations so far have returned. -/
  ranges : List PQCSignatureCounterRange := []

open CounterState

namespace CounterState

variable (W : WalletCrypto) (id : Uint256)

/-- What a step does while there is a manager. -/
def stepMan (s : CounterState) (m : DescriptorMan) : CounterStep → CounterState
  | .restart => { s with man := load W id s.db, validating := none }
  | .fetch => { s with validating := m.getNextPendingPlaintextPQCKey }
  | .finish =>
    match s.validating with
    | none => s
    | some (pubkey, pending) =>
      { s with man := some (m.finishValidation W pubkey pending), validating := none }
  | .topUp adds txn =>
    let (db, m) := addDescriptorPQCKeys W s.db m adds
    match txn with
    | .committed => { s with db, man := some m }
    | .rolledBack => s
    | .aborted => { s with man := some m }
  | .reserve env counts =>
    match m.reservePQCSignatureCountersBatch W env s.db counts with
    | none => s
    | some (ranges, db, m) => { s with db, man := some m, ranges := s.ranges ++ ranges }

/-- Without a manager, only a start does something. -/
def step (s : CounterState) (t : CounterStep) : CounterState :=
  match s.man with
  | some m => s.stepMan W id m t
  | none =>
    match t with
    | .restart => { s with man := load W id s.db, validating := none }
    | _ => s

/-- The state after some steps. -/
def run (s : CounterState) (steps : List CounterStep) : CounterState := steps.foldl (step W id) s

variable {s : CounterState}

theorem step_of_none (hm : s.man = none) (t : CounterStep) :
    s.step W id t = { s with man := load W id s.db, validating := none } ∨ s.step W id t = s := by
  cases t with
  | restart => exact .inl (by simp only [step, hm])
  | fetch | finish | topUp | reserve => exact .inr (by simp only [step, hm])

variable {W id}

theorem step_of_some {m : DescriptorMan} (hm : s.man = some m) (t : CounterStep) :
    s.step W id t = s.stepMan W id m t := by
  simp only [step, hm]

theorem stepMan_finish_of_none (hs : s.validating = none) (m : DescriptorMan) :
    s.stepMan W id m .finish = s := by
  simp only [stepMan, hs]

theorem stepMan_finish_of_some {pubkey : CPQCPubKey} {pending : PendingPlaintextPQCKey}
    (hs : s.validating = some (pubkey, pending)) (m : DescriptorMan) : s.stepMan W id m .finish =
      { s with man := some (m.finishValidation W pubkey pending), validating := none } := by
  simp only [stepMan, hs]

end CounterState

/-- The step writes a new record for a key whose validation has failed, although the key has signed:
the key is in none of the maps that a top-up looks it up in. -/
def Resets (k : CPQCPubKey) (s : CounterState) : CounterStep → Prop
  | .topUp adds .committed => ∃ m a, s.man = some m ∧ a ∈ adds ∧ a.pubkey = k ∧
      k ∈ m.m_failed_plaintext_pqc_keys ∧ k ∉ m.m_map_pqc_keys ∧ k ∉ m.m_map_crypted_pqc_keys ∧
      s.db.sigCounter k ≠ some 0
  | _ => False

/-! ## Runs -/

/-- **The invariant** of one key: what is known about it in memory, and that all ranges that were
returned for it lie one after the other, up to the stored counter. -/
structure CounterInv (k : CPQCPubKey) (s : CounterState) : Prop where
  known : ∀ m, s.man = some m → Known k s.db m
  fetched : ∀ m pending, s.man = some m → s.validating = some (k, pending) →
    ∀ p, m.m_pending_plaintext_pqc_keys.lookup k = some p → p = pending
  reserved : ∀ r ∈ s.ranges, r.pubkey = k →
    ∃ c, s.db.sigCounter k = some c ∧ r.reserved_counter.toNat ≤ c.toNat
  bounded : ∀ r ∈ s.ranges, r.pubkey = k → r.reserved_counter.toNat ≤ 2 ^ 30
  ordered : (s.ranges.filter fun r => r.pubkey = k).Pairwise fun a b =>
    a.reserved_counter.toNat ≤ b.previous_counter.toNat

section Run

variable {W : WalletCrypto} {id : Uint256} {k : CPQCPubKey} {s : CounterState}

/-- The invariant survives a change of the manager that leaves the records alone. -/
theorem CounterInv.with_man (h : CounterInv k s) {man : Option DescriptorMan}
    {validating : Option (CPQCPubKey × PendingPlaintextPQCKey)}
    (hknown : ∀ m, man = some m → Known k s.db m)
    (hfetched : ∀ m pending, man = some m → validating = some (k, pending) →
      ∀ p, m.m_pending_plaintext_pqc_keys.lookup k = some p → p = pending) :
    CounterInv k { s with man, validating } :=
  ⟨hknown, hfetched, h.reserved, h.bounded, h.ordered⟩

theorem CounterInv.restart (h : CounterInv k s) :
    CounterInv k { s with man := load W id s.db, validating := none } :=
  h.with_man (fun _ hm => known_load hm k) fun _ _ _ hnone => by cases hnone

theorem lookup_pending_addDescriptorPQCKeys (db : PQCRecords) (m : DescriptorMan)
    (adds : List PQCKeyToAdd) :
    (addDescriptorPQCKeys W db m adds).2.m_pending_plaintext_pqc_keys.lookup k =
      m.m_pending_plaintext_pqc_keys.lookup k := by
  induction adds generalizing db m with
  | nil => rfl
  | cons a adds ih =>
    rcases hadd : m.addDescriptorPQCKeyWithDB W db a with ⟨ok, db', m'⟩
    have hpending : m'.m_pending_plaintext_pqc_keys.lookup k =
        m.m_pending_plaintext_pqc_keys.lookup k := by
      obtain ⟨-, rfl⟩ | ⟨-, -, -, rfl⟩ | ⟨-, -, _, _, _, -, -, rfl⟩ :=
        addDescriptorPQCKeyWithDB_cases hadd
      · rfl
      · rfl
      · rfl
    rw [addDescriptorPQCKeys, hadd]
    cases ok with
    | false => exact hpending
    | true => exact (ih db' m').trans hpending

variable {m : DescriptorMan}

theorem CounterInv.topUp (h : CounterInv k s) (hm : s.man = some m) (adds : List PQCKeyToAdd)
    (txn : TopUpEnd) (hreset : ¬Resets k s (.topUp adds txn)) :
    CounterInv k (s.stepMan W id m (.topUp adds txn)) ∧
      NotBelow (s.db.sigCounter k) ((s.stepMan W id m (.topUp adds txn)).db.sigCounter k) := by
  have hfetched (m' : DescriptorMan) (pending : PendingPlaintextPQCKey)
      (hm' : some (addDescriptorPQCKeys W s.db m adds).2 = some m')
      (hvalidating : s.validating = some (k, pending)) (p : PendingPlaintextPQCKey)
      (hp : m'.m_pending_plaintext_pqc_keys.lookup k = some p) : p = pending := by
    rw [← Option.some.inj hm', lookup_pending_addDescriptorPQCKeys] at hp
    exact h.fetched m pending hm hvalidating p hp
  cases txn with
  | committed =>
    obtain ⟨hknown, hle⟩ := (h.known m hm).addAll_committed (W := W) adds
      fun ⟨a, ha, hkey⟩ hfailed habsent => by
        by_contra hne
        exact hreset ⟨m, a, hm, ha, hkey, hfailed, habsent.1, habsent.2.1, hne⟩
    refine ⟨⟨fun m' hm' => Option.some.inj hm' ▸ hknown, hfetched, fun r hr hkey => ?_, h.bounded,
      h.ordered⟩, hle⟩
    obtain ⟨c, hc, hrc⟩ := h.reserved r hr hkey
    obtain ⟨c', hc', hcc'⟩ := hle c hc
    exact ⟨c', hc', hrc.trans hcc'⟩
  | rolledBack => exact ⟨h, NotBelow.refl _⟩
  | aborted =>
    refine ⟨h.with_man (fun m' hm' => ?_) hfetched, NotBelow.refl _⟩
    exact Option.some.inj hm' ▸ (h.known m hm).addAll_aborted adds

theorem forall_ranges_append {P : PQCSignatureCounterRange → Prop}
    {old new : List PQCSignatureCounterRange} (hold : ∀ r ∈ old, r.pubkey = k → P r)
    (hnew : ∀ r ∈ new.filter (fun r => r.pubkey = k), P r) :
    ∀ r ∈ old ++ new, r.pubkey = k → P r := by
  intro r hr hkey
  obtain hr | hr := List.mem_append.mp hr
  · exact hold r hr hkey
  · exact hnew r (List.mem_filter.mpr ⟨hr, decide_eq_true hkey⟩)

theorem CounterInv.reserve (h : CounterInv k s) (hm : s.man = some m) (env : ReservationEnv)
    (counts : KeyMap UInt32) :
    CounterInv k (s.stepMan W id m (.reserve env counts)) ∧
      NotBelow (s.db.sigCounter k) ((s.stepMan W id m (.reserve env counts)).db.sigCounter k) := by
  rw [stepMan]
  rcases hreserve : m.reservePQCSignatureCountersBatch W env s.db counts with _ | ⟨ranges, db, m'⟩
  · exact ⟨h, NotBelow.refl _⟩
  obtain ⟨hknown, hranges⟩ := (h.known m hm).reserve hreserve
  obtain ⟨-, -, updates, -, -, hm'⟩ := reservePQCSignatureCountersBatch_eq_some hreserve
  have hknown' (m'' : DescriptorMan) (hm'' : some m' = some m'') : Known k db m'' :=
    Option.some.inj hm'' ▸ hknown
  have hfetched (m'' : DescriptorMan) (pending : PendingPlaintextPQCKey)
      (hm'' : some m' = some m'') (hvalidating : s.validating = some (k, pending))
      (p : PendingPlaintextPQCKey)
      (hp : m''.m_pending_plaintext_pqc_keys.lookup k = some p) : p = pending := by
    rw [← Option.some.inj hm'', hm', (commitRanges_spec ranges k).2.2.1] at hp
    exact h.fetched m pending hm hvalidating p hp
  obtain ⟨hnil, hcounter⟩ | ⟨r, hfilter, hr, hprevious, hcounter⟩ := hranges
  · refine ⟨⟨hknown', hfetched, ?_, ?_, ?_⟩, ?_⟩
    · exact forall_ranges_append (fun r hr hkey => hcounter ▸ h.reserved r hr hkey) (by simp [hnil])
    · exact forall_ranges_append h.bounded (by simp [hnil])
    · rw [List.filter_append, hnil, List.append_nil]
      exact h.ordered
    · rw [hcounter]
      exact NotBelow.refl _
  · -- The new range starts where the stored counter was.
    have hstored (c : UInt32) (hc : s.db.sigCounter k = some c) : c = r.previous_counter :=
      Option.some.inj (((h.known m hm).counter c hc).symm.trans hprevious)
    have hbelow (x : PQCSignatureCounterRange) (hx : x ∈ s.ranges) (hkey : x.pubkey = k) :
        x.reserved_counter.toNat ≤ r.previous_counter.toNat := by
      obtain ⟨c, hc, hxc⟩ := h.reserved x hx hkey
      exact hstored c hc ▸ hxc
    refine ⟨⟨hknown', hfetched, ?_, ?_, ?_⟩, fun c hc => ⟨_, hcounter, hstored c hc ▸ hr.lt.le⟩⟩
    · exact forall_ranges_append (fun x hx hkey => ⟨_, hcounter, (hbelow x hx hkey).trans hr.lt.le⟩)
        (by simp [hfilter, hcounter])
    · exact forall_ranges_append h.bounded (by simpa [hfilter] using hr.max)
    · rw [List.filter_append, hfilter, List.pairwise_append]
      exact ⟨h.ordered, List.pairwise_singleton _ _, by simpa using hbelow⟩

/-- **One step keeps the invariant** and does not lower the stored counter, if it does not reset the
key. -/
theorem CounterInv.step (W : WalletCrypto) (id : Uint256) (h : CounterInv k s) (t : CounterStep)
    (hreset : ¬Resets k s t) :
    CounterInv k (s.step W id t) ∧
      NotBelow (s.db.sigCounter k) ((s.step W id t).db.sigCounter k) := by
  cases hm : s.man with
  | none =>
    rcases step_of_none W id hm t with hstep | hstep
    · rw [hstep]
      exact ⟨h.restart, NotBelow.refl _⟩
    · rw [hstep]
      exact ⟨h, NotBelow.refl _⟩
  | some m =>
    rw [step_of_some hm]
    cases t with
    | restart => exact ⟨h.restart, NotBelow.refl _⟩
    | fetch =>
      refine ⟨h.with_man h.known ?_, NotBelow.refl _⟩
      intro m' pending hm' hnext p hp
      obtain ⟨entry, hentry, heq⟩ := Option.map_eq_some_iff.mp hnext
      have hmem : ⟨entry.1, entry.2⟩ ∈ m.m_pending_plaintext_pqc_keys.entries :=
        List.mem_of_head? hentry
      have hlookup := AList.mem_lookup_iff.mpr hmem
      cases heq
      cases hm.symm.trans hm'
      exact Option.some.inj (hp.symm.trans hlookup)
    | finish =>
      rcases hvalidating : s.validating with _ | ⟨pubkey, pending⟩
      · rw [stepMan_finish_of_none hvalidating]
        exact ⟨h, NotBelow.refl _⟩
      rw [stepMan_finish_of_some hvalidating]
      refine ⟨h.with_man (fun m' hm' => ?_) (fun _ _ _ hnone => by cases hnone), NotBelow.refl _⟩
      rw [← Option.some.inj hm']
      refine (h.known m hm).finishValidation pending fun hkey p hp => ?_
      exact h.fetched m pending hm (hkey ▸ hvalidating) p hp
    | topUp adds txn => exact h.topUp hm adds txn hreset
    | reserve env counts => exact h.reserve hm env counts

/-- No step of the run resets the key. -/
def NeverResets (W : WalletCrypto) (id : Uint256) (k : CPQCPubKey) :
    CounterState → List CounterStep → Prop
  | _, [] => True
  | s, t :: steps => ¬Resets k s t ∧ NeverResets W id k (s.step W id t) steps

/-- **A whole run keeps the invariant.** -/
theorem CounterInv.run (h : CounterInv k s) (steps : List CounterStep)
    (hreset : NeverResets W id k s steps) :
    CounterInv k (s.run W id steps) ∧
      NotBelow (s.db.sigCounter k) ((s.run W id steps).db.sigCounter k) := by
  induction steps generalizing s with
  | nil => exact ⟨h, NotBelow.refl _⟩
  | cons t steps ih =>
    obtain ⟨hstep, hle⟩ := h.step W id t hreset.1
    obtain ⟨hrun, hle'⟩ := ih hstep hreset.2
    exact ⟨hrun, hle.trans hle'⟩

theorem NeverResets.append {steps steps' : List CounterStep}
    (h : NeverResets W id k s (steps ++ steps')) :
    NeverResets W id k s steps ∧ NeverResets W id k (s.run W id steps) steps' := by
  induction steps generalizing s with
  | nil => exact ⟨trivial, h⟩
  | cons t steps ih =>
    obtain ⟨hpre, hpost⟩ := ih h.2
    exact ⟨⟨h.1, hpre⟩, hpost⟩

end Run

/-- **Counters are never used again**, in a run that does not reset the key.  Between any two states
of the run the stored counter does not decrease, and the ranges that the reservations return are
disjoint and end at most at 2^30. -/
theorem counters_never_reused (W : WalletCrypto) (id : Uint256) (k : CPQCPubKey) (db : PQCRecords)
    (steps later : List CounterStep) (hreset : NeverResets W id k { db } (steps ++ later)) :
    let s := run W id { db } steps
    let t := run W id { db } (steps ++ later)
    NotBelow (s.db.sigCounter k) (t.db.sigCounter k) ∧
      (t.ranges.filter fun r => r.pubkey = k).Pairwise (fun a b => Disjoint a.counters b.counters) ∧
      ∀ r ∈ t.ranges, r.pubkey = k → r.reserved_counter.toNat ≤ 2 ^ 30 := by
  have hinit : CounterInv k { db } :=
    { known := fun _ hm => by cases hm
      fetched := fun _ _ hm => by cases hm
      reserved := fun _ hr => by cases hr
      bounded := fun _ hr => by cases hr
      ordered := List.Pairwise.nil }
  obtain ⟨hpre, hpost⟩ := hreset.append
  obtain ⟨hs, -⟩ := hinit.run steps hpre
  obtain ⟨ht, hle⟩ := hs.run later hpost
  rw [run, run, List.foldl_append]
  refine ⟨hle, ht.ordered.imp fun hab => ?_, ht.bounded⟩
  rw [Set.disjoint_left]
  intro n hn hn'
  exact absurd (hn.2.trans_le hab) (not_lt.mpr hn'.1)

/-! ## Two runs -/

/-- Cryptography in which a secret key is valid if it starts with a 1, and hashes say nothing. -/
def firstByteCrypto : WalletCrypto where
  hash _ := 0
  hmacSha256 _ _ := 0
  secretKeyValidate secret := secret.head? == some 1
  encryptSecret _ secret _ := some secret
  decryptSecret _ secret _ := some secret

/-- A record of the key 0 with this counter, whose secret key starts with this byte. -/
def zeroKeyRecords (first : UInt8) (sig_counter : UInt32) : PQCRecords where
  plaintext := (∅ : KeyMap PlaintextPQCRecord).insert 0
    { privkey := first :: List.replicate 63 0, hash := 0, sig_counter := some sig_counter }

/-- The key 0, as a top-up adds it to a wallet that is not encrypted. -/
def zeroKeyToAdd : PQCKeyToAdd where
  pubkey := 0
  key := 1 :: List.replicate 63 0
  has_encryption_keys := false
  encryption_key := none
  written := true
  erased := true

/-- The reservation of two counters of the key 0. -/
def reserveTwo : CounterStep :=
  .reserve
    { encryption_key := [], txnBegin := true, written := fun _ => true, erased := fun _ => true
      txnCommit := true }
    ((∅ : KeyMap UInt32).insert 0 2)

/-- The stored secret key is invalid.  Its validation fails, and the next top-up resets the stored
counter from 5 to 0. -/
theorem topUp_resets_failed_key :
    let s := run firstByteCrypto 0 { db := zeroKeyRecords 0 5 }
      [.restart, .fetch, .finish]
    let t := run firstByteCrypto 0 { db := zeroKeyRecords 0 5 }
      ([.restart, .fetch, .finish] ++ [.topUp [zeroKeyToAdd] .committed])
    s.db.sigCounter 0 = some 5 ∧ t.db.sigCounter 0 = some 0 := by
  decide +kernel

/-- With a valid secret key the same top-up changes nothing, and the reservations go on where the
last one ended, also after a restart. -/
theorem counters_never_reused_zeroKey :
    let steps := [.restart, .fetch, .finish, reserveTwo]
    let later := [.topUp [zeroKeyToAdd] .committed, .restart, .fetch, .finish, reserveTwo]
    let s := run firstByteCrypto 0 { db := zeroKeyRecords 1 5 } steps
    let t := run firstByteCrypto 0 { db := zeroKeyRecords 1 5 } (steps ++ later)
    t.ranges = [⟨0, 5, 7⟩, ⟨0, 7, 9⟩] ∧ NotBelow (s.db.sigCounter 0) (t.db.sigCounter 0) := by
  refine ⟨by decide +kernel, (counters_never_reused firstByteCrypto 0 0 (zeroKeyRecords 1 5)
    [.restart, .fetch, .finish, reserveTwo] _ ?_).1⟩
  refine ⟨id, id, id, id, fun ⟨m, a, hm, _, _, hfailed, _⟩ => ?_, id, id, id, id, trivial⟩
  have hnone : (run firstByteCrypto 0 { db := zeroKeyRecords 1 5 }
      [.restart, .fetch, .finish, reserveTwo]).man.map (·.m_failed_plaintext_pqc_keys) = some ∅ := by
    decide +kernel
  rw [run, List.foldl_cons, List.foldl_cons, List.foldl_cons, List.foldl_cons,
    List.foldl_nil, hm, Option.map_some, Option.some_inj] at hnone
  exact absurd (hnone ▸ hfailed) (Finset.notMem_empty _)

end Qbit
