import Qbit.Lib.PartialMap
import Qbit.Wallet.DescriptorMan

/-!
# One key in memory and in the database

The counter of a PQC key lives in the database and in memory.  `Known` says how the two go together
for one key.  Loading establishes it, and validation and top-ups keep it, except that a top-up which
adds a key whose validation has failed writes a record with counter 0 over the one that is there.
-/

namespace Qbit

open DescriptorMan PQCRecords

variable {k : CPQCPubKey}

section Lookup

variable {α : Type} {map map' : KeyMap α}

theorem mem_of_lookup {a : α} (h : map.lookup k = some a) : k ∈ map :=
  AList.lookup_isSome.mp (Option.isSome_of_eq_some h)

theorem exists_lookup (h : k ∈ map) : ∃ a, map.lookup k = some a :=
  Option.isSome_iff_exists.mp (AList.lookup_isSome.mpr h)

theorem mem_congr (h : map'.lookup k = map.lookup k) : k ∈ map' ↔ k ∈ map := by
  rw [← AList.lookup_isSome, h, AList.lookup_isSome]

end Lookup

/-! ## What is known about a key -/

/-- What the manager knows about a key, while nothing has been reset. -/
structure Known (k : CPQCPubKey) (db : PQCRecords) (m : DescriptorMan) : Prop where
  counter : ∀ c, db.sigCounter k = some c → m.m_map_pqc_sig_counters.lookup k = some c
  pending : ∀ p, m.m_pending_plaintext_pqc_keys.lookup k = some p → k ∉ m.m_map_crypted_pqc_keys →
    m.m_map_pqc_sig_counters.lookup k = some p.sig_counter
  crypted : k ∈ db.crypted → k ∈ m.m_map_crypted_pqc_keys
  exclusive : k ∈ m.m_map_pqc_keys → k ∉ m.m_map_crypted_pqc_keys
  held : k ∈ m.m_map_pqc_sig_counters → k ∈ m.m_map_pqc_keys ∨ k ∈ m.m_map_crypted_pqc_keys ∨
    k ∈ m.m_pending_plaintext_pqc_keys ∨ k ∈ m.m_failed_plaintext_pqc_keys
  stored : k ∈ m.m_pending_plaintext_pqc_keys ∨ k ∈ m.m_failed_plaintext_pqc_keys →
    (db.sigCounter k).isSome

/-- The counter has not decreased. -/
def NotBelow (a b : Option UInt32) : Prop :=
  ∀ c, a = some c → ∃ c', b = some c' ∧ c.toNat ≤ c'.toNat

theorem NotBelow.refl (a : Option UInt32) : NotBelow a a := fun c hc => ⟨c, hc, le_rfl⟩

theorem NotBelow.trans {a b c : Option UInt32} (hab : NotBelow a b) (hbc : NotBelow b c) :
    NotBelow a c := by
  intro x hx
  obtain ⟨y, hy, hxy⟩ := hab x hx
  obtain ⟨z, hz, hyz⟩ := hbc y hy
  exact ⟨z, hz, hxy.trans hyz⟩

variable {W : WalletCrypto} {db : PQCRecords} {pubkey : CPQCPubKey}

theorem sigCounter_writeDescriptorPQCKey (hcrypted : k ∉ db.crypted) (key : CPQCKey) (c : UInt32) :
    (db.writeDescriptorPQCKey W k key c).sigCounter k = some c := by
  have hnone : db.crypted.lookup k = none := AList.lookup_eq_none.mpr hcrypted
  simp [sigCounter, writeDescriptorPQCKey, hnone]

theorem sigCounter_writeDescriptorPQCKey_ne (hne : k ≠ pubkey) (key : CPQCKey) (c : UInt32) :
    (db.writeDescriptorPQCKey W pubkey key c).sigCounter k = db.sigCounter k := by
  simp [sigCounter, writeDescriptorPQCKey, hne]

theorem sigCounter_writeCryptedDescriptorPQCKey (secret : List UInt8) (c : UInt32)
    (auth_tag : Uint256) (erased : Bool) :
    (db.writeCryptedDescriptorPQCKey k secret c auth_tag erased).sigCounter k = some c := by
  simp [sigCounter, writeCryptedDescriptorPQCKey]

theorem sigCounter_writeCryptedDescriptorPQCKey_ne (hne : k ≠ pubkey) (secret : List UInt8)
    (c : UInt32) (auth_tag : Uint256) (erased : Bool) :
    (db.writeCryptedDescriptorPQCKey pubkey secret c auth_tag erased).sigCounter k =
      db.sigCounter k := by
  cases erased <;> simp [sigCounter, writeCryptedDescriptorPQCKey, hne]

/-! ## Loading -/

variable {m m' : DescriptorMan}

theorem loadPlaintext_eq {r : PlaintextPQCRecord} (h : loadPlaintext W m pubkey r = some m') :
    m' = { m with
      m_failed_plaintext_pqc_keys := m.m_failed_plaintext_pqc_keys.erase pubkey
      m_pending_plaintext_pqc_keys := m.m_pending_plaintext_pqc_keys.insert pubkey
        { secret := r.privkey, sig_counter := r.sig_counter.getD 0 }
      m_map_pqc_sig_counters :=
        m.m_map_pqc_sig_counters.insert pubkey (r.sig_counter.getD 0) } := by
  simp only [loadPlaintext, addPendingPlaintextPQCKey, Option.ite_none_left_eq_some] at h
  obtain ⟨-, -, -, -, h⟩ := h
  exact (Option.some.inj h).symm

theorem loadPlaintexts_spec {l : List (Sigma fun _ : CPQCPubKey => PlaintextPQCRecord)}
    (hl : l.NodupKeys) (h : l.foldlM (fun m r => loadPlaintext W m r.1 r.2) m = some m') :
    m'.id = m.id ∧ m'.m_map_pqc_keys = m.m_map_pqc_keys ∧
      m'.m_map_crypted_pqc_keys = m.m_map_crypted_pqc_keys ∧
      m'.m_failed_plaintext_pqc_keys ⊆ m.m_failed_plaintext_pqc_keys ∧
      ∀ k, m'.m_pending_plaintext_pqc_keys.lookup k = ((l.dlookup k).map fun r =>
          ⟨r.privkey, r.sig_counter.getD 0⟩).or (m.m_pending_plaintext_pqc_keys.lookup k) ∧
        m'.m_map_pqc_sig_counters.lookup k = ((l.dlookup k).map fun r =>
          r.sig_counter.getD 0).or (m.m_map_pqc_sig_counters.lookup k) := by
  induction l generalizing m with
  | nil =>
    cases Option.some.inj h
    simp
  | cons r l ih =>
    obtain ⟨pubkey, r⟩ := r
    rw [List.nodupKeys_cons] at hl
    obtain ⟨m₁, hm₁, h⟩ := Option.bind_eq_some_iff.mp h
    obtain rfl := loadPlaintext_eq hm₁
    obtain ⟨hid, hkeys, hcrypted, hfailed, hmaps⟩ := ih hl.2 h
    refine ⟨hid, hkeys, hcrypted, hfailed.trans (Finset.erase_subset _ _), fun k => ?_⟩
    obtain ⟨hpending, hcounters⟩ := hmaps k
    by_cases hk : k = pubkey
    · subst hk
      simp [hpending, hcounters, List.dlookup_eq_none.mpr hl.1]
    · simp [hpending, hcounters, hk]

theorem loadCrypteds_spec {l : List (Sigma fun _ : CPQCPubKey => CryptedPQCRecord)}
    (hl : l.NodupKeys) (hempty : m.m_map_pqc_keys = ∅)
    (h : l.foldl (fun m r => m.addCryptedPQCKey r.1 r.2.crypted_secret (r.2.sig_counter.getD 0)
      r.2.auth_tag) m = m') :
    m'.id = m.id ∧ m'.m_map_pqc_keys = ∅ ∧
      m'.m_pending_plaintext_pqc_keys = m.m_pending_plaintext_pqc_keys ∧
      m'.m_failed_plaintext_pqc_keys = m.m_failed_plaintext_pqc_keys ∧
      ∀ k, m'.m_map_crypted_pqc_keys.lookup k = ((l.dlookup k).map fun r =>
          ⟨r.crypted_secret, r.auth_tag⟩).or (m.m_map_crypted_pqc_keys.lookup k) ∧
        m'.m_map_pqc_sig_counters.lookup k = ((l.dlookup k).map fun r =>
          r.sig_counter.getD 0).or (m.m_map_pqc_sig_counters.lookup k) := by
  induction l generalizing m with
  | nil =>
    cases h
    exact ⟨rfl, hempty, rfl, rfl, fun k => ⟨rfl, rfl⟩⟩
  | cons r l ih =>
    obtain ⟨pubkey, r⟩ := r
    rw [List.nodupKeys_cons] at hl
    have hadd : m.addCryptedPQCKey pubkey r.crypted_secret (r.sig_counter.getD 0) r.auth_tag =
        { m with
          m_map_crypted_pqc_keys := m.m_map_crypted_pqc_keys.insert pubkey
            ⟨r.crypted_secret, r.auth_tag⟩
          m_map_pqc_sig_counters :=
            m.m_map_pqc_sig_counters.insert pubkey (r.sig_counter.getD 0) } := by
      rw [addCryptedPQCKey, hempty]
      rfl
    rw [List.foldl_cons, hadd] at h
    obtain ⟨hid, hkeys, hpending, hfailed, hmaps⟩ := ih hl.2 (by exact hempty) h
    refine ⟨hid, hkeys, hpending, hfailed, fun k => ?_⟩
    obtain ⟨hcrypted, hcounters⟩ := hmaps k
    by_cases hk : k = pubkey
    · subst hk
      have hnone : l.dlookup k = none := List.dlookup_eq_none.mpr hl.1
      simp [hcrypted, hcounters, hnone]
    · rw [hcrypted, hcounters, List.dlookup_cons_ne _ _ hk]
      simp [AList.lookup_insert_ne hk]

/-- **What a manager has of a key when it was just loaded.**  The counter is the one of the encrypted
record, or else of the plaintext record. -/
theorem load_spec {id : Uint256} (h : load W id db = some m) (k : CPQCPubKey) :
    m.id = id ∧ m.m_map_pqc_keys = ∅ ∧ k ∉ m.m_failed_plaintext_pqc_keys ∧
      m.m_map_crypted_pqc_keys.lookup k =
        ((db.crypted.lookup k).map fun r => ⟨r.crypted_secret, r.auth_tag⟩) ∧
      m.m_pending_plaintext_pqc_keys.lookup k =
        ((db.plaintext.lookup k).map fun r => ⟨r.privkey, r.sig_counter.getD 0⟩) ∧
      m.m_map_pqc_sig_counters.lookup k = db.sigCounter k := by
  obtain ⟨m₁, hplain, hm⟩ := Option.bind_eq_some_iff.mp h
  obtain ⟨hid₁, hkeys₁, hcrypted₁, hfailed₁, hmaps₁⟩ :=
    loadPlaintexts_spec db.plaintext.nodupKeys hplain
  obtain ⟨hid, hkeys, hpending, hfailed, hmaps⟩ :=
    loadCrypteds_spec db.crypted.nodupKeys hkeys₁ (Option.some.inj hm)
  refine ⟨hid.trans hid₁, hkeys, ?_, ?_, ?_, ?_⟩
  · rw [hfailed]
    exact fun hk => absurd (hfailed₁ hk) (Finset.notMem_empty k)
  · rw [(hmaps k).1, hcrypted₁]
    exact Option.or_none
  · rw [hpending, (hmaps₁ k).1]
    exact Option.or_none
  · rw [(hmaps k).2, (hmaps₁ k).2, sigCounter, AList.lookup, AList.lookup]
    cases db.crypted.entries.dlookup k with
    | none => exact Option.or_none
    | some r => rfl

/-- **A manager that was just loaded knows every key.** -/
theorem known_load {id : Uint256} (h : load W id db = some m) (k : CPQCPubKey) : Known k db m := by
  obtain ⟨-, hkeys, hnofailed, hlookup, hpending, hcounter⟩ := load_spec h k
  have hcrypted : k ∈ m.m_map_crypted_pqc_keys ↔ k ∈ db.crypted := by
    rw [← AList.lookup_isSome, ← AList.lookup_isSome, hlookup, Option.isSome_map]
  refine ⟨fun c hc => hcounter.trans hc, ?_, hcrypted.mpr, ?_, ?_, ?_⟩
  · intro p hp hk
    have hnone : db.crypted.lookup k = none := AList.lookup_eq_none.mpr fun h => hk (hcrypted.mpr h)
    rw [hpending] at hp
    obtain ⟨r, hr, rfl⟩ := Option.map_eq_some_iff.mp hp
    rw [hcounter, sigCounter, hnone, hr]
    rfl
  · intro hk
    rw [hkeys] at hk
    exact absurd hk (AList.notMem_empty k)
  · intro hk
    by_cases hin : k ∈ db.crypted
    · exact Or.inr (Or.inl (hcrypted.mpr hin))
    refine Or.inr (Or.inr (Or.inl ?_))
    rw [← AList.lookup_isSome, hcounter, sigCounter, AList.lookup_eq_none.mpr hin] at hk
    rw [← AList.lookup_isSome, hpending]
    simpa using hk
  · rintro (hk | hk)
    · rw [← AList.lookup_isSome, hpending, Option.isSome_map] at hk
      rw [sigCounter]
      cases db.crypted.lookup k with
      | none => simpa using hk
      | some r => rfl
    · exact absurd hk hnofailed

/-! ## Other keys -/

/-- Two managers agree on a key. -/
structure SameKey (k : CPQCPubKey) (m m' : DescriptorMan) : Prop where
  keys : k ∈ m'.m_map_pqc_keys ↔ k ∈ m.m_map_pqc_keys
  crypted : k ∈ m'.m_map_crypted_pqc_keys ↔ k ∈ m.m_map_crypted_pqc_keys
  pending : m'.m_pending_plaintext_pqc_keys.lookup k = m.m_pending_plaintext_pqc_keys.lookup k
  failed : k ∈ m'.m_failed_plaintext_pqc_keys ↔ k ∈ m.m_failed_plaintext_pqc_keys
  counters : m'.m_map_pqc_sig_counters.lookup k = m.m_map_pqc_sig_counters.lookup k

variable {db' : PQCRecords}

theorem SameKey.refl (k : CPQCPubKey) (m : DescriptorMan) : SameKey k m m :=
  ⟨Iff.rfl, Iff.rfl, rfl, Iff.rfl, rfl⟩

theorem SameKey.mem_pending (h : SameKey k m m') :
    k ∈ m'.m_pending_plaintext_pqc_keys ↔ k ∈ m.m_pending_plaintext_pqc_keys := by
  rw [← AList.lookup_isSome, ← AList.lookup_isSome, h.pending]

theorem SameKey.mem_counters (h : SameKey k m m') :
    k ∈ m'.m_map_pqc_sig_counters ↔ k ∈ m.m_map_pqc_sig_counters := by
  rw [← AList.lookup_isSome, ← AList.lookup_isSome, h.counters]

/-- What is known about a key survives what happens to the others. -/
theorem Known.of_same (hk : Known k db m) (hm : SameKey k m m')
    (hcounter : db'.sigCounter k = db.sigCounter k) (hcrypted : k ∈ db'.crypted → k ∈ db.crypted) :
    Known k db' m' where
  counter c hc := hm.counters.trans (hk.counter c (hcounter.symm.trans hc))
  pending p hp hnot :=
    hm.counters.trans (hk.pending p (hm.pending.symm.trans hp) fun h => hnot (hm.crypted.mpr h))
  crypted h := hm.crypted.mpr (hk.crypted (hcrypted h))
  exclusive h := fun h' => hk.exclusive (hm.keys.mp h) (hm.crypted.mp h')
  held h := by
    rw [hm.keys, hm.crypted, hm.mem_pending, hm.failed]
    exact hk.held (hm.mem_counters.mp h)
  stored h := by
    rw [hm.mem_pending, hm.failed] at h
    rw [hcounter]
    exact hk.stored h

/-! ## Validation -/

theorem sameKey_finishValidation (hne : k ≠ pubkey) (pending : PendingPlaintextPQCKey) :
    SameKey k m (m.finishValidation W pubkey pending) := by
  rw [finishValidation, completePendingPlaintextPQCKeyValidation,
    failPendingPlaintextPQCKeyValidation]
  have herase := AList.lookup_erase_ne (s := m.m_pending_plaintext_pqc_keys) hne
  split
  · split
    · exact ⟨Iff.rfl, Iff.rfl, rfl, Iff.rfl, rfl⟩
    · refine ⟨?_, ?_, ?_, ?_, ?_⟩
      all_goals split
      all_goals simp [hne]
  · split
    · exact ⟨Iff.rfl, Iff.rfl, rfl, Iff.rfl, rfl⟩
    · exact ⟨Iff.rfl, Iff.rfl, herase, by simp [hne], rfl⟩

theorem Known.complete (hk : Known k db m) (hin : k ∈ m.m_pending_plaintext_pqc_keys)
    {p : PendingPlaintextPQCKey} (hp : m.m_pending_plaintext_pqc_keys.lookup k = some p) :
    Known k db (m.completePendingPlaintextPQCKeyValidation k p.secret p.sig_counter) := by
  have hstored := hk.stored (Or.inl hin)
  rw [completePendingPlaintextPQCKeyValidation, if_neg (not_not_intro hin)]
  by_cases hcrypted : k ∈ m.m_map_crypted_pqc_keys
  · rw [if_pos hcrypted]
    refine ⟨hk.counter, ?_, hk.crypted, hk.exclusive, fun _ => Or.inr (Or.inl hcrypted),
      fun _ => hstored⟩
    intro p' hp'
    rw [AList.lookup_erase] at hp'
    cases hp'
  · rw [if_neg hcrypted]
    have hcounter := hk.pending p hp hcrypted
    refine ⟨fun c hc => ?_, ?_, hk.crypted, fun _ => hcrypted, fun _ => Or.inl ?_, fun _ => hstored⟩
    · rw [AList.lookup_insert, ← hcounter, hk.counter c hc]
    · intro p' hp'
      rw [AList.lookup_erase] at hp'
      cases hp'
    · simp

theorem Known.fail (hk : Known k db m) (hin : k ∈ m.m_pending_plaintext_pqc_keys) :
    Known k db (m.failPendingPlaintextPQCKeyValidation k) := by
  rw [failPendingPlaintextPQCKeyValidation, if_neg (not_not_intro hin)]
  refine ⟨hk.counter, ?_, hk.crypted, hk.exclusive, fun _ => ?_, fun _ => hk.stored (Or.inl hin)⟩
  · intro p hp
    rw [AList.lookup_erase] at hp
    cases hp
  simp

/-- **Validation keeps what is known about a key**, if the key was fetched as it is still pending. -/
theorem Known.finishValidation (hk : Known k db m) (pending : PendingPlaintextPQCKey)
    (hpending : pubkey = k → ∀ p, m.m_pending_plaintext_pqc_keys.lookup k = some p → p = pending) :
    Known k db (m.finishValidation W pubkey pending) := by
  by_cases hne : k = pubkey
  · subst hne
    by_cases hin : k ∈ m.m_pending_plaintext_pqc_keys
    · obtain ⟨p, hp⟩ := exists_lookup hin
      obtain rfl := hpending rfl p hp
      rw [DescriptorMan.finishValidation]
      split
      · exact hk.complete hin hp
      · exact hk.fail hin
    · have hsame : m.finishValidation W k pending = m := by
        rw [DescriptorMan.finishValidation, completePendingPlaintextPQCKeyValidation,
          failPendingPlaintextPQCKeyValidation, if_pos hin, if_pos hin, ite_self]
      rw [hsame]
      exact hk
  · exact hk.of_same (sameKey_finishValidation hne pending) rfl id

/-! ## Adding keys -/

/-- The key is in none of the maps that a top-up looks it up in. -/
def Absent (k : CPQCPubKey) (m : DescriptorMan) : Prop :=
  k ∉ m.m_map_pqc_keys ∧ k ∉ m.m_map_crypted_pqc_keys ∧ k ∉ m.m_pending_plaintext_pqc_keys

theorem erase_of_notMem {α : Type} {map : KeyMap α} (h : k ∉ map) : map.erase k = map :=
  AList.ext (List.kerase_of_notMem_keys h)

/-- The counters after `emplace(k, 0)`. -/
def emplaceCounter (k : CPQCPubKey) (counters : KeyMap UInt32) : KeyMap UInt32 :=
  if k ∈ counters then counters else counters.insert k 0

section Add

variable {a : PQCKeyToAdd} {ok : Bool}

/-- **What adding a key can do**: nothing, or a record with counter 0 and the key. -/
theorem addDescriptorPQCKeyWithDB_cases (h : m.addDescriptorPQCKeyWithDB W db a = (ok, db', m')) :
    (db' = db ∧ m' = m) ∨
    (Absent a.pubkey m ∧ ok = true ∧ db' = db.writeDescriptorPQCKey W a.pubkey a.key 0 ∧
      m' = { m with
        m_map_pqc_keys := m.m_map_pqc_keys.insert a.pubkey a.key
        m_map_pqc_sig_counters := emplaceCounter a.pubkey m.m_map_pqc_sig_counters }) ∨
    (Absent a.pubkey m ∧ ok = true ∧ ∃ encryption_key crypted_secret auth_tag,
      (a.has_encryption_keys = true ∧ a.encryption_key = some encryption_key ∧
        W.encryptSecret encryption_key a.key (W.getPQCKeyIV a.pubkey) = some crypted_secret ∧
        auth_tag = W.getCryptedPQCKeyAuthTag encryption_key m.id a.pubkey a.key 0) ∧
      db' = db.writeCryptedDescriptorPQCKey a.pubkey crypted_secret 0 auth_tag a.erased ∧
      m' = { m with
        m_map_crypted_pqc_keys :=
          m.m_map_crypted_pqc_keys.insert a.pubkey ⟨crypted_secret, some auth_tag⟩
        m_map_pqc_sig_counters := emplaceCounter a.pubkey m.m_map_pqc_sig_counters }) := by
  rw [addDescriptorPQCKeyWithDB] at h
  split at h
  · cases h
    simp
  next hmaps =>
  have habsent : Absent a.pubkey m :=
    ⟨fun h => hmaps (Or.inl h), fun h => hmaps (Or.inr (Or.inl h)),
      fun h => hmaps (Or.inr (Or.inr h))⟩
  split at h
  next hhas =>
    split at h
    · cases h
      simp
    next encryption_key hkey =>
    split at h
    · cases h
      exact Or.inl ⟨rfl, rfl⟩
    next crypted_secret hsecret =>
    split at h
    · cases h
      simp [erase_of_notMem habsent.2.1]
    · cases h
      exact Or.inr (Or.inr ⟨habsent, rfl, encryption_key, crypted_secret, _,
        ⟨hhas, hkey, hsecret, rfl⟩, rfl, rfl⟩)
  · split at h
    · cases h
      simp [erase_of_notMem habsent.1]
    · cases h
      exact Or.inr (Or.inl ⟨habsent, rfl, rfl, rfl⟩)

theorem lookup_emplaceCounter_ne (hne : k ≠ a.pubkey) (counters : KeyMap UInt32) :
    (emplaceCounter a.pubkey counters).lookup k = counters.lookup k := by
  rw [emplaceCounter]
  split
  · rfl
  · exact AList.lookup_insert_ne hne

theorem addDescriptorPQCKeyWithDB_ne (hne : k ≠ a.pubkey)
    (h : m.addDescriptorPQCKeyWithDB W db a = (ok, db', m')) :
    SameKey k m m' ∧ db'.sigCounter k = db.sigCounter k ∧ (k ∈ db'.crypted → k ∈ db.crypted) := by
  obtain ⟨rfl, rfl⟩ | ⟨-, -, rfl, rfl⟩ | ⟨-, -, _, secret, tag, -, rfl, rfl⟩ :=
    addDescriptorPQCKeyWithDB_cases h
  · exact ⟨.refl k _, rfl, id⟩
  · refine ⟨⟨?_, Iff.rfl, rfl, Iff.rfl, lookup_emplaceCounter_ne hne _⟩,
      sigCounter_writeDescriptorPQCKey_ne hne _ _, id⟩
    simp [hne]
  · refine ⟨⟨Iff.rfl, ?_, rfl, Iff.rfl, lookup_emplaceCounter_ne hne _⟩,
      sigCounter_writeCryptedDescriptorPQCKey_ne hne _ _ _ _, ?_⟩
    · simp [hne]
    · simp [writeCryptedDescriptorPQCKey, hne]

/-- Adding a key keeps what is known about it in relation to the records as they were. -/
theorem Known.add_aborted {db₀ : PQCRecords} (hk : Known k db₀ m)
    (h : m.addDescriptorPQCKeyWithDB W db a = (ok, db', m')) : Known k db₀ m' := by
  by_cases hne : k = a.pubkey
  · subst hne
    -- A counter that is known stays what it is.
    have hcounter (c : UInt32) (hc : db₀.sigCounter a.pubkey = some c) :
        (emplaceCounter a.pubkey m.m_map_pqc_sig_counters).lookup a.pubkey = some c := by
      have hlookup := hk.counter c hc
      rw [emplaceCounter, if_pos (mem_of_lookup hlookup), hlookup]
    obtain ⟨-, rfl⟩ | ⟨⟨-, hcrypted, hpending⟩, -, -, rfl⟩ |
        ⟨⟨hkeys, -, hpending⟩, -, _, secret, tag, -, -, rfl⟩ := addDescriptorPQCKeyWithDB_cases h
    · exact hk
    · refine ⟨hcounter, fun p hp => ?_, hk.crypted, fun _ => hcrypted, fun _ => Or.inl ?_, hk.stored⟩
      · exact absurd (mem_of_lookup hp) hpending
      · exact (AList.mem_insert _).mpr (Or.inl rfl)
    · have hin : a.pubkey ∈ m.m_map_crypted_pqc_keys.insert a.pubkey ⟨secret, some tag⟩ :=
        (AList.mem_insert _).mpr (Or.inl rfl)
      exact ⟨hcounter, fun p hp hnot => absurd hin hnot, fun _ => hin, fun h => absurd h hkeys,
        fun _ => Or.inr (Or.inl hin), hk.stored⟩
  · exact hk.of_same (addDescriptorPQCKeyWithDB_ne hne h).1 rfl id

/-- **Adding a key keeps what is known about it**, unless its validation had failed. -/
theorem Known.add_committed (hk : Known k db m)
    (h : m.addDescriptorPQCKeyWithDB W db a = (ok, db', m'))
    (hreset : a.pubkey = k → k ∈ m.m_failed_plaintext_pqc_keys → Absent k m →
      db.sigCounter k = some 0) :
    Known k db' m' ∧ NotBelow (db.sigCounter k) (db'.sigCounter k) := by
  by_cases hne : k = a.pubkey
  · subst hne
    -- Only a failed key can have a counter and be in none of the maps, and then the counter is 0.
    have hcounter (habsent : Absent a.pubkey m) :
        (emplaceCounter a.pubkey m.m_map_pqc_sig_counters).lookup a.pubkey = some 0 ∧
          ∀ c, db.sigCounter a.pubkey = some c → c = 0 := by
      rw [emplaceCounter]
      by_cases hin : a.pubkey ∈ m.m_map_pqc_sig_counters
      · obtain hkey | hcrypted | hpending | hfailed := hk.held hin
        · exact absurd hkey habsent.1
        · exact absurd hcrypted habsent.2.1
        · exact absurd hpending habsent.2.2
        · have hzero := hreset rfl hfailed habsent
          rw [if_pos hin]
          refine ⟨hk.counter 0 hzero, fun c hc => ?_⟩
          exact Option.some.inj (hc.symm.trans hzero)
      · rw [if_neg hin]
        refine ⟨AList.lookup_insert _, fun c hc => ?_⟩
        have hlookup := hk.counter c hc
        exact absurd (mem_of_lookup hlookup) hin
    obtain ⟨rfl, rfl⟩ | ⟨habsent, -, rfl, rfl⟩ | ⟨habsent, -, _, secret, tag, -, rfl, rfl⟩ :=
      addDescriptorPQCKeyWithDB_cases h
    · exact ⟨hk, NotBelow.refl _⟩
    · obtain ⟨hlookup, hzero⟩ := hcounter habsent
      have hwritten := sigCounter_writeDescriptorPQCKey (W := W)
        (fun h => habsent.2.1 (hk.crypted h)) a.key 0
      refine ⟨⟨fun c hc => ?_, fun p hp => ?_, hk.crypted, fun _ => habsent.2.1, fun _ => Or.inl ?_,
        fun _ => by rw [hwritten]; rfl⟩, fun c hc => ⟨0, hwritten, by rw [hzero c hc]⟩⟩
      · rw [hlookup, ← hwritten, hc]
      · exact absurd (mem_of_lookup hp) habsent.2.2
      · simp
    · obtain ⟨hlookup, hzero⟩ := hcounter habsent
      have hwritten : (db.writeCryptedDescriptorPQCKey a.pubkey secret 0 tag a.erased).sigCounter
          a.pubkey = some 0 := sigCounter_writeCryptedDescriptorPQCKey secret 0 tag a.erased
      have hin : a.pubkey ∈ m.m_map_crypted_pqc_keys.insert a.pubkey ⟨secret, some tag⟩ :=
        (AList.mem_insert _).mpr (Or.inl rfl)
      refine ⟨⟨fun c hc => ?_, fun p hp hnot => absurd hin hnot, fun _ => hin,
        fun h => absurd h habsent.1, fun _ => Or.inr (Or.inl hin),
        fun _ => by rw [hwritten]; rfl⟩, fun c hc => ⟨0, hwritten, by rw [hzero c hc]⟩⟩
      rw [hlookup, ← hwritten, hc]
  · obtain ⟨hsame, hcounter, hcrypted⟩ := addDescriptorPQCKeyWithDB_ne hne h
    refine ⟨hk.of_same hsame hcounter hcrypted, ?_⟩
    rw [hcounter]
    exact NotBelow.refl _

theorem Absent.of_same (habsent : Absent k m') (h : SameKey k m m') : Absent k m :=
  ⟨fun hk => habsent.1 (h.keys.mpr hk), fun hk => habsent.2.1 (h.crypted.mpr hk),
    fun hk => habsent.2.2 (h.mem_pending.mpr hk)⟩

/-- A key that is not reset by a top-up is not reset by the rest of it. -/
theorem not_reset_of_added (h : m.addDescriptorPQCKeyWithDB W db a = (ok, db', m'))
    (hreset : k ∈ m.m_failed_plaintext_pqc_keys → Absent k m → db.sigCounter k = some 0)
    (hfailed : k ∈ m'.m_failed_plaintext_pqc_keys) (habsent : Absent k m') :
    db'.sigCounter k = some 0 := by
  by_cases hne : k = a.pubkey
  · subst hne
    obtain ⟨rfl, rfl⟩ | ⟨-, -, -, rfl⟩ | ⟨-, -, _, secret, tag, -, -, rfl⟩ :=
      addDescriptorPQCKeyWithDB_cases h
    · exact hreset hfailed habsent
    · exact absurd ((AList.mem_insert _).mpr (Or.inl rfl)) habsent.1
    · exact absurd ((AList.mem_insert _).mpr (Or.inl rfl)) habsent.2.1
  · obtain ⟨hsame, hcounter, -⟩ := addDescriptorPQCKeyWithDB_ne hne h
    rw [hcounter]
    exact hreset (hsame.failed.mp hfailed) (habsent.of_same hsame)

/-- **A top-up keeps what is known about a key**, unless it resets the key. -/
theorem Known.addAll_committed (adds : List PQCKeyToAdd) (hk : Known k db m)
    (hreset : (∃ a ∈ adds, a.pubkey = k) → k ∈ m.m_failed_plaintext_pqc_keys → Absent k m →
      db.sigCounter k = some 0) :
    Known k (addDescriptorPQCKeys W db m adds).1 (addDescriptorPQCKeys W db m adds).2 ∧
      NotBelow (db.sigCounter k) ((addDescriptorPQCKeys W db m adds).1.sigCounter k) := by
  induction adds generalizing db m with
  | nil => exact ⟨hk, NotBelow.refl _⟩
  | cons a adds ih =>
    rcases hadd : m.addDescriptorPQCKeyWithDB W db a with ⟨ok, db', m'⟩
    obtain ⟨hk', hle⟩ := hk.add_committed hadd fun ha =>
      hreset ⟨a, List.mem_cons_self, ha⟩
    rw [addDescriptorPQCKeys, hadd]
    rcases ok with _ | _
    · exact ⟨hk', hle⟩
    obtain ⟨hknown, hle'⟩ := ih hk' fun ⟨a', ha', hkey⟩ =>
      not_reset_of_added hadd (hreset ⟨a', List.mem_cons_of_mem _ ha', hkey⟩)
    exact ⟨hknown, hle.trans hle'⟩

theorem Known.addAll_aborted {db₀ : PQCRecords} (adds : List PQCKeyToAdd) (hk : Known k db₀ m) :
    Known k db₀ (addDescriptorPQCKeys W db m adds).2 := by
  induction adds generalizing db m with
  | nil => exact hk
  | cons a adds ih =>
    rcases hadd : m.addDescriptorPQCKeyWithDB W db a with ⟨ok, db', m'⟩
    have hk' := hk.add_aborted hadd
    rw [addDescriptorPQCKeys, hadd]
    cases ok with
    | false => exact hk'
    | true => exact ih hk'

end Add

end Qbit
