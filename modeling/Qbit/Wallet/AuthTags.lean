import Qbit.Wallet.Counters
import Qbit.Wallet.Encryption

/-!
# Authentication tags of encrypted keys

The tag of an encrypted PQC key is computed over the secret and the signature counter.  The counter
is in a map of its own, and it changes: a reservation has to compute a new tag, in memory and in the
record, or the wallet takes its own key for a tampered one at the next unlock.

`Sealed` is what holds for a key between two steps.  All steps keep it but one: a top-up of an
encrypted wallet that adds a key with a counter other than 0, which only a key can have whose
plaintext record failed its validation.  The record and the tag are for the counter 0 then, and the
counter in memory stays what it is.
-/

namespace Qbit

open DescriptorMan CounterState

/-- The tag of an encrypted secret is the one for this counter. -/
def WalletCrypto.Authentic (W : WalletCrypto) (master_key : List UInt8) (id : Uint256)
    (k : CPQCPubKey) (crypted_secret : List UInt8) (counter : UInt32) (tag : Uint256) : Prop :=
  ∃ secret, W.decryptSecret master_key crypted_secret (W.getPQCKeyIV k) = some secret ∧
    tag = W.getCryptedPQCKeyAuthTag master_key id k secret counter

/-- **What is assumed of the cipher**: it decrypts what it has encrypted, and it does nothing in a
locked wallet, where the key is empty. -/
structure WalletCrypto.Decrypts (W : WalletCrypto) (master_key : List UInt8) : Prop where
  encrypted : ∀ {secret crypted : List UInt8} {iv : Uint256},
    W.encryptSecret master_key secret iv = some crypted →
      W.decryptSecret master_key crypted iv = some secret
  locked : ∀ (crypted : List UInt8) (iv : Uint256), W.decryptSecret [] crypted iv = none

/-- The stored tag of a key is right, if it has one. -/
def RecordSealed (W : WalletCrypto) (master_key : List UInt8) (id : Uint256) (k : CPQCPubKey)
    (db : PQCRecords) : Prop :=
  ∀ r tag, db.crypted.lookup k = some r → r.auth_tag = some tag →
    W.Authentic master_key id k r.crypted_secret (r.sig_counter.getD 0) tag

/-- **What holds for a key** between two steps. -/
structure Sealed (W : WalletCrypto) (master_key : List UInt8) (id : Uint256) (k : CPQCPubKey)
    (db : PQCRecords) (m : DescriptorMan) : Prop where
  id_eq : m.id = id
  counted : k ∈ m.m_map_pqc_keys ∨ k ∈ m.m_map_crypted_pqc_keys → k ∈ m.m_map_pqc_sig_counters
  memory : ∀ r counter tag, m.m_map_crypted_pqc_keys.lookup k = some r →
    m.m_map_pqc_sig_counters.lookup k = some counter → r.auth_tag = some tag →
      W.Authentic master_key id k r.crypted_secret counter tag
  record : RecordSealed W master_key id k db
  stored : ∀ r, db.crypted.lookup k = some r →
    k ∈ m.m_map_crypted_pqc_keys ∧ k ∉ m.m_map_pqc_keys ∧
      m.m_map_pqc_sig_counters.lookup k = some (r.sig_counter.getD 0)
  /-- A key is there in both forms only after an encryption that failed. -/
  tagged : k ∈ m.m_map_pqc_keys → ∀ r, m.m_map_crypted_pqc_keys.lookup k = some r →
    r.auth_tag ≠ none

section Steps

variable {W : WalletCrypto} {master_key : List UInt8} {id : Uint256} {k : CPQCPubKey}
  {db db' : PQCRecords} {m m' : DescriptorMan}

/-- What happens to other keys does not matter. -/
theorem Sealed.congr (h : Sealed W master_key id k db m) (hid : m'.id = m.id)
    (hkeys : k ∈ m'.m_map_pqc_keys ↔ k ∈ m.m_map_pqc_keys)
    (hcrypted : m'.m_map_crypted_pqc_keys.lookup k = m.m_map_crypted_pqc_keys.lookup k)
    (hcounters : m'.m_map_pqc_sig_counters.lookup k = m.m_map_pqc_sig_counters.lookup k)
    (hdb : db'.crypted.lookup k = db.crypted.lookup k) : Sealed W master_key id k db' m' where
  id_eq := hid.trans h.id_eq
  counted := by
    rw [hkeys, mem_congr hcrypted, mem_congr hcounters]
    exact h.counted
  memory := by
    rw [hcrypted, hcounters]
    exact h.memory
  record := by
    rw [RecordSealed, hdb]
    exact h.record
  stored := by
    rw [hdb, hkeys, hcounters, mem_congr hcrypted]
    exact h.stored
  tagged := by
    rw [hkeys, hcrypted]
    exact h.tagged

theorem Sealed.of_plaintext (hrecord : RecordSealed W master_key id k db) (hid : m.id = id)
    (hcounted : k ∈ m.m_map_pqc_sig_counters) (hcrypted : k ∉ m.m_map_crypted_pqc_keys)
    (hdb : k ∉ db.crypted) : Sealed W master_key id k db m where
  id_eq := hid
  counted _ := hcounted
  memory _ _ _ hr := absurd (mem_of_lookup hr) hcrypted
  record := hrecord
  stored _ hr := absurd (mem_of_lookup hr) hdb
  tagged _ _ hr := absurd (mem_of_lookup hr) hcrypted

variable {secret : List UInt8} {counter : UInt32} {tag : Uint256} {ok : Bool} {e e' : PQCRecords}
  {env : EncryptEnv} {m₀ : DescriptorMan} {crypted_key : CryptedPQCKeyRecord} {key : CPQCKey}
  {pubkey : CPQCPubKey}

theorem Sealed.of_tagged (hid : m.id = id)
    (hauthentic : W.Authentic master_key id k secret counter tag)
    (hcrypted : m.m_map_crypted_pqc_keys.lookup k = some ⟨secret, some tag⟩)
    (hcounter : m.m_map_pqc_sig_counters.lookup k = some counter)
    (hdb : ∀ r, db.crypted.lookup k = some r →
      r = ⟨secret, some counter, some tag⟩ ∧ k ∉ m.m_map_pqc_keys) :
    Sealed W master_key id k db m where
  id_eq := hid
  counted _ := mem_of_lookup hcounter
  memory r c t hr hc ht := by
    obtain rfl := Option.some.inj (hcrypted.symm.trans hr)
    obtain rfl := Option.some.inj (hcounter.symm.trans hc)
    obtain rfl := Option.some.inj ht
    exact hauthentic
  record r t hr ht := by
    obtain ⟨rfl, -⟩ := hdb r hr
    obtain rfl := Option.some.inj ht
    exact hauthentic
  stored r hr := by
    obtain ⟨rfl, hplain⟩ := hdb r hr
    exact ⟨mem_of_lookup hcrypted, hplain, hcounter⟩
  tagged _ r hr := by
    obtain rfl := Option.some.inj (hcrypted.symm.trans hr)
    exact nofun

theorem Sealed.notMem_crypted (h : Sealed W master_key id k db m)
    (hcrypted : k ∉ m.m_map_crypted_pqc_keys) : k ∉ db.crypted := by
  intro hin
  obtain ⟨r, hr⟩ := exists_lookup hin
  exact hcrypted (h.stored r hr).1

/-! ## Loading and validation -/

theorem sealed_load (hrecord : RecordSealed W master_key id k db) (h : load W id db = some m) :
    Sealed W master_key id k db m := by
  obtain ⟨hid, hkeys, -, hcrypted, -, hcounters⟩ := load_spec h k
  have hnot : k ∉ m.m_map_pqc_keys := by simp [hkeys]
  have hmem : k ∈ m.m_map_crypted_pqc_keys ↔ k ∈ db.crypted := by
    rw [← AList.lookup_isSome, hcrypted, Option.isSome_map, AList.lookup_isSome]
  have hcounter {r : CryptedPQCRecord} (hr : db.crypted.lookup k = some r) :
      m.m_map_pqc_sig_counters.lookup k = some (r.sig_counter.getD 0) := by
    rw [hcounters, PQCRecords.sigCounter, hr]
  refine ⟨hid, ?_, ?_, hrecord, fun r hr => ⟨hmem.mpr (mem_of_lookup hr), hnot, hcounter hr⟩,
    fun hin => absurd hin hnot⟩
  · rintro (hin | hin)
    · exact absurd hin hnot
    · obtain ⟨r, hr⟩ := exists_lookup (hmem.mp hin)
      exact mem_of_lookup (hcounter hr)
  · intro r c tag hr hc htag
    rw [hcrypted] at hr
    obtain ⟨r', hr', rfl⟩ := Option.map_eq_some_iff.mp hr
    obtain rfl := Option.some.inj ((hcounter hr').symm.trans hc)
    exact hrecord r' tag hr' htag

section Validation

variable (h : Sealed W master_key id k db m) (pubkey : CPQCPubKey)

include h

theorem Sealed.complete (key : CPQCKey) (counter : UInt32) :
    Sealed W master_key id k db
      (m.completePendingPlaintextPQCKeyValidation pubkey key counter) := by
  rw [completePendingPlaintextPQCKeyValidation]
  by_cases hpending : pubkey ∈ m.m_pending_plaintext_pqc_keys
  · rw [if_neg (not_not_intro hpending)]
    by_cases hcrypted : pubkey ∈ m.m_map_crypted_pqc_keys
    · rw [if_pos hcrypted]
      exact h.congr rfl Iff.rfl rfl rfl rfl
    rw [if_neg hcrypted]
    by_cases hk : k = pubkey
    · subst hk
      -- The key has no encrypted form, in memory or in the database.
      exact .of_plaintext h.record h.id_eq ((AList.mem_insert _).mpr (Or.inl rfl)) hcrypted
        (h.notMem_crypted hcrypted)
    · exact h.congr rfl (by simp [hk]) rfl (AList.lookup_insert_ne hk) rfl
  simp [hpending, h]

theorem Sealed.fail :
    Sealed W master_key id k db (m.failPendingPlaintextPQCKeyValidation pubkey) := by
  rw [failPendingPlaintextPQCKeyValidation]
  split
  · exact h
  · exact h.congr rfl Iff.rfl rfl rfl rfl

theorem Sealed.finishValidation (pending : PendingPlaintextPQCKey) :
    Sealed W master_key id k db (m.finishValidation W pubkey pending) := by
  rw [DescriptorMan.finishValidation]
  split
  · exact h.complete pubkey pending.secret pending.sig_counter
  · exact h.fail pubkey

end Validation

/-! ## Adding keys -/

/-- The wallet is asked to add, in encrypted form, a key that has a counter other than 0. -/
def Stale (m : DescriptorMan) (a : PQCKeyToAdd) : Prop :=
  a.has_encryption_keys = true ∧ Absent a.pubkey m ∧
    ∃ counter, m.m_map_pqc_sig_counters.lookup a.pubkey = some counter ∧ counter ≠ 0

theorem lookup_emplaceCounter {counters : KeyMap UInt32}
    (h : ∀ counter, counters.lookup k = some counter → counter = 0) :
    (emplaceCounter k counters).lookup k = some 0 := by
  rw [emplaceCounter]
  split
  next hin =>
    obtain ⟨counter, hcounter⟩ := exists_lookup hin
    rw [hcounter, h counter hcounter]
  simp

/-- **Adding a key keeps every key sealed**, whether its record stays in the database or not. -/
theorem Sealed.add {a : PQCKeyToAdd} (h : Sealed W master_key id k e m)
    (hcipher : W.Decrypts master_key) (hkey : ∀ key, a.encryption_key = some key → key = master_key)
    (hfresh : ¬Stale m a) (hadd : m.addDescriptorPQCKeyWithDB W db a = (ok, db', m'))
    (he : e' = e ∨ e = db ∧ e' = db') : Sealed W master_key id k e' m' := by
  obtain ⟨rfl, rfl⟩ | ⟨habsent, -, rfl, rfl⟩ |
    ⟨habsent, -, encryption_key, secret, tag, ⟨hhas, hek, hsecret, htag⟩, rfl, rfl⟩ :=
      addDescriptorPQCKeyWithDB_cases hadd
  · obtain rfl | ⟨rfl, rfl⟩ := he <;> exact h
  · have hdb : e'.crypted.lookup k = e.crypted.lookup k := by
      obtain rfl | ⟨rfl, rfl⟩ := he <;> rfl
    by_cases hk : k = a.pubkey
    · subst hk
      have hcounted : a.pubkey ∈ emplaceCounter a.pubkey m.m_map_pqc_sig_counters := by
        rw [emplaceCounter]
        split
        next hin => exact hin
        simp
      refine .of_plaintext ?_ h.id_eq hcounted habsent.2.1
        (mt (mem_congr hdb).mp (h.notMem_crypted habsent.2.1))
      rw [RecordSealed, hdb]
      exact h.record
    · exact h.congr rfl (by simp [hk]) rfl (lookup_emplaceCounter_ne hk _) hdb
  · obtain rfl := hkey encryption_key hek
    by_cases hk : k = a.pubkey
    · subst hk
      have hcounter := lookup_emplaceCounter fun counter hcounter =>
        not_not.mp fun hne => hfresh ⟨hhas, habsent, counter, hcounter, hne⟩
      refine .of_tagged h.id_eq ⟨a.key, hcipher.encrypted hsecret, h.id_eq ▸ htag⟩
        (AList.lookup_insert _) hcounter fun r hr => ?_
      obtain rfl | ⟨rfl, rfl⟩ := he
      · exact absurd (mem_of_lookup hr) (h.notMem_crypted habsent.2.1)
      · exact ⟨Option.some.inj (hr.symm.trans (AList.lookup_insert _)), habsent.1⟩
    · refine h.congr rfl Iff.rfl (AList.lookup_insert_ne hk) (lookup_emplaceCounter_ne hk _) ?_
      obtain rfl | ⟨rfl, rfl⟩ := he
      · rfl
      · exact AList.lookup_insert_ne hk

/-- What a top-up adds does not make a later key of it stale. -/
theorem not_stale_of_added {a a' : PQCKeyToAdd} (hfresh : ¬Stale m a')
    (hadd : m.addDescriptorPQCKeyWithDB W db a = (ok, db', m')) : ¬Stale m' a' := by
  rintro ⟨hhas, habsent, counter, hcounter, hne⟩
  by_cases hk : a'.pubkey = a.pubkey
  · obtain ⟨-, rfl⟩ | ⟨-, -, -, rfl⟩ | ⟨-, -, _, _, _, -, -, rfl⟩ :=
      addDescriptorPQCKeyWithDB_cases hadd
    · exact hfresh ⟨hhas, habsent, counter, hcounter, hne⟩
    · exact absurd ((AList.mem_insert _).mpr (Or.inl hk)) habsent.1
    · exact absurd ((AList.mem_insert _).mpr (Or.inl hk)) habsent.2.1
  · have hsame := (addDescriptorPQCKeyWithDB_ne hk hadd).1
    exact hfresh ⟨hhas, habsent.of_same hsame, counter, hsame.counters ▸ hcounter, hne⟩

/-- **A top-up keeps every key sealed**, unless it adds a stale one. -/
theorem Sealed.addAll (h : Sealed W master_key id k e m) (hcipher : W.Decrypts master_key)
    (adds : List PQCKeyToAdd)
    (hkey : ∀ a ∈ adds, ∀ key, a.encryption_key = some key → key = master_key)
    (hfresh : ∀ a ∈ adds, ¬Stale m a)
    (he : e' = e ∨ e = db ∧ e' = (addDescriptorPQCKeys W db m adds).1) :
    Sealed W master_key id k e' (addDescriptorPQCKeys W db m adds).2 := by
  induction adds generalizing db m e with
  | nil => obtain rfl | ⟨rfl, rfl⟩ := he <;> exact h
  | cons a adds ih =>
    rcases hadd : m.addDescriptorPQCKeyWithDB W db a with ⟨ok, db', m'⟩
    have hnext {e' : PQCRecords} (he : e' = e ∨ e = db ∧ e' = db') : Sealed W master_key id k e' m' :=
      h.add hcipher (hkey a List.mem_cons_self) (hfresh a List.mem_cons_self) hadd he
    rw [addDescriptorPQCKeys, hadd] at he ⊢
    rcases ok with _ | _
    · exact hnext he
    have hkey' := fun a' ha' => hkey a' (List.mem_cons_of_mem a ha')
    have hfresh' : ∀ a' ∈ adds, ¬Stale m' a' := fun a' ha' =>
      not_stale_of_added (hfresh a' (List.mem_cons_of_mem _ ha')) hadd
    obtain rfl | ⟨rfl, rfl⟩ := he
    · exact ih (hnext (Or.inl rfl)) hkey' hfresh' (Or.inl rfl)
    · exact ih (hnext (Or.inr ⟨rfl, rfl⟩)) hkey' hfresh' (Or.inr ⟨rfl, rfl⟩)

/-! ## Reservations -/

section Reserve

variable {env : ReservationEnv} {ranges : List PQCSignatureCounterRange}

/-- **A reservation keeps every key sealed.** -/
theorem Sealed.reserve (h : Sealed W master_key id k db m) (hcipher : W.Decrypts master_key)
    (hkey : env.encryption_key = master_key ∨ env.encryption_key = []) {counts : KeyMap UInt32}
    (hres : m.reservePQCSignatureCountersBatch W env db counts = some (ranges, db', m')) :
    Sealed W master_key id k db' m' := by
  obtain ⟨-, -, updates, -, -, hm'⟩ := reservePQCSignatureCountersBatch_eq_some hres
  obtain ⟨hid, hkeys, -, -, hcrypted⟩ := hm' ▸ @commitRanges_spec m updates ranges k
  obtain ⟨-, ⟨hcounter, hsame⟩, -, hdb⟩ | ⟨r, -, rfl, hr⟩ := reserve_key hres k
  · exact h.congr hid (by rw [hkeys]) hsame hcounter hdb
  cases hlookup : m.m_map_crypted_pqc_keys.lookup r.pubkey with
  | none =>
    have hnot : r.pubkey ∉ m.m_map_crypted_pqc_keys := AList.lookup_eq_none.mp hlookup
    obtain ⟨key, hplain⟩ := exists_lookup (hr.held.resolve_right hnot)
    have hdb := (hr.plaintext key hplain).2
    refine .of_plaintext ?_ (hid.trans h.id_eq) (mem_of_lookup hr.counter) (mt hcrypted.mp hnot)
      (mt (mem_congr hdb).mp (h.notMem_crypted hnot))
    rw [RecordSealed, hdb]
    exact h.record
  | some key =>
    obtain ⟨secret, tag, hsecret, -, htag, hmemory, hrecord⟩ := hr.crypted key hlookup
    -- In a locked wallet the key could not have been decrypted.
    obtain rfl | hek := hkey
    · rw [h.id_eq] at htag
      refine .of_tagged (hid.trans h.id_eq) ⟨secret, hsecret, htag⟩ hmemory hr.counter
        fun rec hrec => ?_
      have hplain : r.pubkey ∉ m.m_map_pqc_keys := fun hin => by
        obtain ⟨_, hkey⟩ := exists_lookup hin
        exact (h.stored rec ((hr.plaintext _ hkey).2 ▸ hrec)).2.1 hin
      exact ⟨Option.some.inj (hrec.symm.trans (hrecord hplain)), hkeys ▸ hplain⟩
    · rw [hek, hcipher.locked] at hsecret
      cases hsecret

end Reserve

/-! ## Encrypting the wallet -/

/-- What holds for a key during the loop of `Encrypt`, which starts without encrypted keys: the key
has the tag for its counter in both places, or is not there yet. -/
structure Encrypting (W : WalletCrypto) (master_key : List UInt8) (k : CPQCPubKey)
    (db : PQCRecords) (m₀ m : DescriptorMan) : Prop where
  id_eq : m.id = m₀.id
  keys : m.m_map_pqc_keys = m₀.m_map_pqc_keys
  counters : m.m_map_pqc_sig_counters = m₀.m_map_pqc_sig_counters
  memory : ∀ r, m.m_map_crypted_pqc_keys.lookup k = some r → k ∈ m₀.m_map_pqc_keys ∧
    ∃ tag, r.auth_tag = some tag ∧ W.Authentic master_key m₀.id k r.crypted_secret
      ((m₀.m_map_pqc_sig_counters.lookup k).getD 0) tag
  record : ∀ r, db.crypted.lookup k = some r → k ∈ m.m_map_crypted_pqc_keys ∧
    r.sig_counter = some ((m₀.m_map_pqc_sig_counters.lookup k).getD 0) ∧
    ∀ tag, r.auth_tag = some tag → W.Authentic master_key m₀.id k r.crypted_secret
      ((m₀.m_map_pqc_sig_counters.lookup k).getD 0) tag

theorem Encrypting.loop (hcipher : W.Decrypts master_key)
    {keys : List (Sigma fun _ : CPQCPubKey => CPQCKey)}
    (hkeys : ∀ e ∈ keys, e.1 ∈ m₀.m_map_pqc_keys) (h : Encrypting W master_key k db m₀ m)
    (hloop : encryptPQCKeys W master_key env db m keys = (ok, db', m')) :
    Encrypting W master_key k db' m₀ m' := by
  induction keys generalizing db m with
  | nil =>
    cases hloop
    exact h
  | cons e keys ih =>
    obtain ⟨pubkey, key⟩ := e
    rw [encryptPQCKeys] at hloop
    split at hloop
    · cases hloop
      exact h
    next crypted_secret hsecret =>
    refine ih (fun e he => hkeys e (List.mem_cons_of_mem _ he)) ?_ hloop
    rw [h.counters, h.id_eq]
    by_cases hk : k = pubkey
    · subst hk
      have hauthentic : W.Authentic master_key m₀.id k crypted_secret
          ((m₀.m_map_pqc_sig_counters.lookup k).getD 0) (W.getCryptedPQCKeyAuthTag master_key m₀.id k
            key ((m₀.m_map_pqc_sig_counters.lookup k).getD 0)) :=
        ⟨key, hcipher.encrypted hsecret, rfl⟩
      refine ⟨rfl, h.keys, rfl, fun r hr => ?_, fun r hr => ?_⟩
      · obtain rfl := Option.some.inj ((AList.lookup_insert _).symm.trans hr)
        exact ⟨hkeys _ List.mem_cons_self, _, rfl, hauthentic⟩
      · refine ⟨(AList.mem_insert _).mpr (Or.inl rfl), ?_⟩
        split at hr
        · obtain rfl := Option.some.inj ((AList.lookup_insert _).symm.trans hr)
          refine ⟨rfl, fun tag htag => ?_⟩
          obtain rfl := Option.some.inj htag
          exact hauthentic
        · exact (h.record r hr).2
    · refine ⟨rfl, h.keys, rfl, fun r hr => ?_, fun r hr => ?_⟩
      · exact h.memory r ((AList.lookup_insert_ne hk).symm.trans hr)
      · have hr' : db.crypted.lookup k = some r := by
          split at hr
          · exact (AList.lookup_insert_ne hk).symm.trans hr
          · exact hr
        obtain ⟨hin, hrest⟩ := h.record r hr'
        exact ⟨(AList.mem_insert _).mpr (Or.inr hin), hrest⟩

/-- What the loop leaves is sealed, with the keys in plaintext or without them; the records that it
has written go with the latter. -/
theorem Encrypting.sealed (he : Encrypting W master_key k db' m₀ m')
    (h : Sealed W master_key id k db m₀) (hnone : k ∉ db.crypted) :
    Sealed W master_key id k db m' ∧
      Sealed W master_key id k db { m' with m_map_pqc_keys := ∅ } ∧
      Sealed W master_key id k db' { m' with m_map_pqc_keys := ∅ } := by
  have hid : m'.id = id := he.id_eq.trans h.id_eq
  have hcounted : k ∈ m'.m_map_pqc_keys ∨ k ∈ m'.m_map_crypted_pqc_keys →
      k ∈ m'.m_map_pqc_sig_counters := by
    rw [he.keys, he.counters]
    rintro (hin | hin)
    · exact h.counted (Or.inl hin)
    · obtain ⟨r, hr⟩ := exists_lookup hin
      exact h.counted (Or.inl (he.memory r hr).1)
  have hmemory (r : CryptedPQCKeyRecord) (c : UInt32) (tag : Uint256)
      (hr : m'.m_map_crypted_pqc_keys.lookup k = some r)
      (hc : m'.m_map_pqc_sig_counters.lookup k = some c) (htag : r.auth_tag = some tag) :
      W.Authentic master_key id k r.crypted_secret c tag := by
    obtain ⟨-, tag', htag', hauthentic⟩ := he.memory r hr
    rw [← he.counters, hc, h.id_eq] at hauthentic
    obtain rfl := Option.some.inj (htag'.symm.trans htag)
    exact hauthentic
  have hstored (r : CryptedPQCRecord) (hr : db.crypted.lookup k = some r) : False :=
    hnone (mem_of_lookup hr)
  have hnot : k ∉ (∅ : KeyMap CPQCKey) := AList.notMem_empty k
  refine ⟨⟨hid, hcounted, hmemory, h.record, fun r hr => (hstored r hr).elim, ?_⟩,
    ⟨hid, fun hin => hcounted (Or.inr (hin.resolve_left hnot)), hmemory, h.record,
      fun r hr => (hstored r hr).elim, fun hin => absurd hin hnot⟩,
    ⟨hid, fun hin => hcounted (Or.inr (hin.resolve_left hnot)), hmemory, ?_, ?_,
      fun hin => absurd hin hnot⟩⟩
  · intro _ r hr
    obtain ⟨-, tag, htag, -⟩ := he.memory r hr
    exact htag ▸ nofun
  · intro r tag hr htag
    obtain ⟨-, hcounter, hauthentic⟩ := he.record r hr
    rw [hcounter, ← h.id_eq]
    exact hauthentic tag htag
  · intro r hr
    obtain ⟨hin, hcounter, -⟩ := he.record r hr
    obtain ⟨c, hc⟩ := exists_lookup (hcounted (Or.inr hin))
    refine ⟨hin, hnot, ?_⟩
    rw [hcounter, ← he.counters, hc]
    rfl

/-- **An encryption keeps every key sealed**, whether it succeeds or fails, and whether its
transaction is committed or not; a transaction whose encryption failed is not. -/
theorem Sealed.encrypt (h : Sealed W master_key id k db m) (hcipher : W.Decrypts master_key)
    (henc : m.encrypt W master_key env db = (ok, db', m')) :
    Sealed W master_key id k db m' ∧ (ok = true → Sealed W master_key id k db' m') := by
  rw [DescriptorMan.encrypt] at henc
  split at henc
  · cases henc
    exact ⟨h, nofun⟩
  split at henc
  · cases henc
    exact ⟨h, nofun⟩
  next hempty =>
  split at henc
  · cases henc
    exact ⟨h, nofun⟩
  have hcrypted : k ∉ m.m_map_crypted_pqc_keys := by
    simp only [Bool.or_eq_true, Bool.not_eq_true', not_or, Bool.not_eq_false,
      List.isEmpty_iff] at hempty
    simp [AList.mem_keys, AList.keys, hempty.2]
  have hdb := h.notMem_crypted hcrypted
  have hstart : Encrypting W master_key k db m m :=
    ⟨rfl, rfl, rfl, fun r hr => absurd (mem_of_lookup hr) hcrypted,
      fun r hr => absurd (mem_of_lookup hr) hdb⟩
  have hkeys : ∀ e ∈ m.m_map_pqc_keys.entries, e.1 ∈ m.m_map_pqc_keys := fun e he =>
    AList.mem_keys.mpr (List.mem_keys_of_mem he)
  split at henc
  next db₁ m₁ hloop =>
    cases henc
    exact ⟨((hstart.loop hcipher hkeys hloop).sealed h hdb).1, nofun⟩
  next db₁ m₁ hloop =>
    cases henc
    obtain ⟨-, hbefore, hafter⟩ := (hstart.loop hcipher hkeys hloop).sealed h hdb
    exact ⟨hbefore, fun _ => hafter⟩

/-! ## Unlocking the wallet -/

/-- Only a key without a tag gets one, which is the right one. -/
theorem decryptPQCKey_legacy
    (h : W.decryptPQCKey master_key id crypted_key k counter = some (key, some tag)) :
    crypted_key.auth_tag = none ∧
      W.Authentic master_key id k crypted_key.crypted_secret counter tag := by
  obtain ⟨secret, hsecret, h⟩ := Option.bind_eq_some_iff.mp h
  split at h
  · cases h
  dsimp only at h
  split at h
  · split at h
    · cases h
    · split at h
      · cases h
      · cases h
  next hnone =>
  split at h
  · cases h
    exact ⟨hnone, _, hsecret, rfl⟩
  · cases h

/-- A key is not rejected for a tag that is right. -/
theorem decryptPQCKey_of_authentic (htag : crypted_key.auth_tag = some tag)
    (hauthentic : W.Authentic master_key id k crypted_key.crypted_secret counter tag)
    (hsecret : W.decryptSecret master_key crypted_key.crypted_secret (W.getPQCKeyIV k) = some secret)
    (hlength : secret.length = pqcSeckeySize)
    (htail : secret.drop (pqcSeckeySize - 32) = serUint256 k) :
    W.decryptPQCKey master_key id crypted_key k counter = some (secret, none) := by
  obtain ⟨secret', hsecret', rfl⟩ := hauthentic
  obtain rfl := Option.some.inj (hsecret.symm.trans hsecret')
  simp [WalletCrypto.decryptPQCKey, hsecret, hlength, htag, htail]

theorem lookup_crypted_upgradeRecord_ne (m : DescriptorMan) (env : UnlockEnv) (db : PQCRecords)
    (hne : k ≠ pubkey) (crypted_key : CryptedPQCKeyRecord) (counter : UInt32)
    (legacy_auth_tag : Option Uint256) :
    (m.upgradeRecord env db pubkey crypted_key counter
        legacy_auth_tag).2.m_map_crypted_pqc_keys.lookup k = m.m_map_crypted_pqc_keys.lookup k ∧
      (m.upgradeRecord env db pubkey crypted_key counter legacy_auth_tag).1.crypted.lookup k =
        db.crypted.lookup k := by
  rcases legacy_auth_tag with _ | tag
  · exact ⟨rfl, rfl⟩
  rw [upgradeRecord]
  split
  · exact ⟨AList.lookup_insert_ne hne, AList.lookup_insert_ne hne⟩
  simp

theorem upgradeRecord_rest (m : DescriptorMan) (env : UnlockEnv) (db : PQCRecords)
    (pubkey : CPQCPubKey)
    (crypted_key : CryptedPQCKeyRecord) (counter : UInt32) (legacy_auth_tag : Option Uint256) :
    let m' := (m.upgradeRecord env db pubkey crypted_key counter legacy_auth_tag).2
    m'.id = m.id ∧ m'.m_map_pqc_keys = m.m_map_pqc_keys ∧
      m'.m_map_pqc_sig_counters = m.m_map_pqc_sig_counters := by
  cases legacy_auth_tag with
  | none => exact ⟨rfl, rfl, rfl⟩
  | some tag =>
    rw [upgradeRecord]
    split <;> exact ⟨rfl, rfl, rfl⟩

theorem Sealed.upgradeRecord (env : UnlockEnv) {legacy_auth_tag : Option Uint256}
    (h : Sealed W master_key id k db m)
    (hlookup : m.m_map_crypted_pqc_keys.lookup pubkey = some crypted_key)
    (hdecrypt : W.decryptPQCKey master_key m.id crypted_key pubkey
      ((m.m_map_pqc_sig_counters.lookup pubkey).getD 0) = some (key, legacy_auth_tag)) :
    Sealed W master_key id k
      (m.upgradeRecord env db pubkey crypted_key
        ((m.m_map_pqc_sig_counters.lookup pubkey).getD 0) legacy_auth_tag).1
      (m.upgradeRecord env db pubkey crypted_key
        ((m.m_map_pqc_sig_counters.lookup pubkey).getD 0) legacy_auth_tag).2 := by
  by_cases hk : k = pubkey
  · subst hk
    rcases legacy_auth_tag with _ | tag
    · exact h
    obtain ⟨hlegacy, hauthentic⟩ := decryptPQCKey_legacy hdecrypt
    have hplain : k ∉ m.m_map_pqc_keys := fun hin => h.tagged hin crypted_key hlookup hlegacy
    have hcounted := h.counted (Or.inr (mem_of_lookup hlookup))
    obtain ⟨c, hc⟩ := exists_lookup hcounted
    rw [hc, h.id_eq] at hauthentic
    rw [DescriptorMan.upgradeRecord, hc]
    split
    · refine .of_tagged h.id_eq hauthentic (AList.lookup_insert _) hc fun r hr => ?_
      exact ⟨Option.some.inj (hr.symm.trans (AList.lookup_insert _)), hplain⟩
    · exact h
  · obtain ⟨hcrypted, hdb⟩ := lookup_crypted_upgradeRecord_ne m env db hk crypted_key
      ((m.m_map_pqc_sig_counters.lookup pubkey).getD 0) legacy_auth_tag
    obtain ⟨hid, hkeys, hcounters⟩ := upgradeRecord_rest m env db pubkey crypted_key
      ((m.m_map_pqc_sig_counters.lookup pubkey).getD 0) legacy_auth_tag
    exact h.congr hid (by rw [hkeys]) hcrypted (by rw [hcounters]) hdb

theorem Sealed.checkPQCKeys (env : UnlockEnv) (legacy pass : Bool)
    {keys : List (Sigma fun _ : CPQCPubKey => CryptedPQCKeyRecord)} (hnodup : keys.NodupKeys)
    (hkeys : ∀ e ∈ keys, m.m_map_crypted_pqc_keys.lookup e.1 = some e.2)
    (h : Sealed W master_key id k db m) :
    Sealed W master_key id k (checkPQCKeys W master_key env legacy pass db m keys).2.2.1
      (checkPQCKeys W master_key env legacy pass db m keys).2.2.2 := by
  induction keys generalizing pass db m with
  | nil => exact h
  | cons e keys ih =>
    obtain ⟨pubkey, crypted_key⟩ := e
    rw [List.nodupKeys_cons] at hnodup
    rw [DescriptorMan.checkPQCKeys]
    dsimp only
    split
    · exact h
    next key legacy_auth_tag hdecrypt =>
    have hnext := h.upgradeRecord env (hkeys _ List.mem_cons_self) hdecrypt
    split
    · exact hnext
    refine ih true hnodup.2 (fun e he => ?_) hnext
    have hne : e.1 ≠ pubkey := by
      rintro rfl
      exact hnodup.1 (List.mem_keys_of_mem (s := e) he)
    rw [(lookup_crypted_upgradeRecord_ne m env db hne _ _ _).1]
    exact hkeys e (List.mem_cons_of_mem _ he)

/-- **An unlock keeps every key sealed**, whatever it answers. -/
theorem Sealed.checkDecryptionKey (h : Sealed W master_key id k db m) (env : UnlockEnv) :
    Sealed W master_key id k (m.checkDecryptionKey W master_key env db).2.1
      (m.checkDecryptionKey W master_key env db).2.2 := by
  have hloop (legacy pass : Bool) := h.checkPQCKeys env legacy pass
    m.m_map_crypted_pqc_keys.nodupKeys fun e he => AList.mem_lookup_iff.mpr he
  rw [DescriptorMan.checkDecryptionKey]
  dsimp only
  split
  · exact h
  · split
    · split <;> exact h
    · split <;> exact hloop _ _

end Steps

/-! ## Runs -/

/-- A step of the wallet that may touch the tags of a descriptor. -/
inductive SealStep where
  | wallet (t : CounterStep)
  /-- `EncryptWallet`.  If the encryption fails its transaction is aborted, and if it succeeds the
  commit may still fail.  The process ends then, which is the next step if it is a restart. -/
  | encrypt (env : EncryptEnv) (committed : Bool)
  | unlock (env : UnlockEnv)

/-- All operations are given the encryption key of the wallet, or find it locked. -/
def SealStep.UsesKey (master_key : List UInt8) : SealStep → Prop
  | .wallet (.topUp adds _) => ∀ a ∈ adds, ∀ key, a.encryption_key = some key → key = master_key
  | .wallet (.reserve env _) => env.encryption_key = master_key ∨ env.encryption_key = []
  | _ => True

/-- The step adds no stale key that stays in memory. -/
def SealStep.Fresh (s : CounterState) : SealStep → Prop
  | .wallet (.topUp adds .committed) | .wallet (.topUp adds .aborted) =>
    ∀ m, s.man = some m → ∀ a ∈ adds, ¬Stale m a
  | _ => True

namespace CounterState

variable (W : WalletCrypto) (id : Uint256) (master_key : List UInt8)

def sealStep (s : CounterState) : SealStep → CounterState
  | .wallet t => s.step W id t
  | .encrypt env committed =>
    match s.man with
    | none => s
    | some m =>
      let (ok, db, m) := m.encrypt W master_key env s.db
      { s with db := if ok && committed then db else s.db, man := some m }
  | .unlock env =>
    match s.man with
    | none => s
    | some m =>
      let (_, db, m) := m.checkDecryptionKey W master_key env s.db
      { s with db, man := some m }

def sealRun (s : CounterState) (steps : List SealStep) : CounterState :=
  steps.foldl (sealStep W id master_key) s

/-- No step of a run adds a stale key. -/
def AllFresh : CounterState → List SealStep → Prop
  | _, [] => True
  | s, t :: steps => t.Fresh s ∧ AllFresh (s.sealStep W id master_key t) steps

end CounterState

/-- The records of a key are sealed, and so is the key in memory. -/
def SealedState (W : WalletCrypto) (master_key : List UInt8) (id : Uint256) (k : CPQCPubKey)
    (s : CounterState) : Prop :=
  RecordSealed W master_key id k s.db ∧ ∀ m, s.man = some m → Sealed W master_key id k s.db m

section Runs

variable {W : WalletCrypto} {master_key : List UInt8} {id : Uint256} {k : CPQCPubKey}
  {s : CounterState}

theorem Sealed.state {db : PQCRecords} {m : DescriptorMan} (h : Sealed W master_key id k db m)
    (validating : Option (CPQCPubKey × PendingPlaintextPQCKey))
    (ranges : List PQCSignatureCounterRange) :
    SealedState W master_key id k ⟨db, some m, validating, ranges⟩ :=
  ⟨h.record, fun _ hm => Option.some.inj hm ▸ h⟩

theorem SealedState.restart (h : SealedState W master_key id k s) :
    SealedState W master_key id k { s with man := load W id s.db, validating := none } :=
  ⟨h.1, fun _ hm => sealed_load h.1 hm⟩

section Step

variable (h : SealedState W master_key id k s) (hcipher : W.Decrypts master_key)

include h hcipher

theorem SealedState.wallet {t : CounterStep} (hkey : (SealStep.wallet t).UsesKey master_key)
    (hfresh : (SealStep.wallet t).Fresh s) : SealedState W master_key id k (s.step W id t) := by
  cases hman : s.man with
  | none =>
    obtain hstep | hstep := step_of_none W id hman t
    · rw [hstep]
      exact h.restart
    simp [hstep, h]
  | some m =>
    have hsealed := h.2 m hman
    rw [step_of_some hman]
    cases t with
    | restart => exact h.restart
    | fetch => exact h
    | finish =>
      rcases hvalidating : s.validating with _ | ⟨pubkey, pending⟩
      · simp [stepMan_finish_of_none hvalidating, h]
      rw [stepMan_finish_of_some hvalidating]
      exact (hsealed.finishValidation pubkey pending).state _ _
    | topUp adds txn =>
      cases txn with
      | committed =>
        exact (hsealed.addAll hcipher adds hkey (hfresh m hman) (Or.inr ⟨rfl, rfl⟩)).state _ _
      | rolledBack => exact h
      | aborted =>
        exact (hsealed.addAll hcipher adds hkey (hfresh m hman) (Or.inl rfl)).state _ _
    | reserve env counts =>
      rw [stepMan]
      split
      · exact h
      next ranges db m' hres => exact (hsealed.reserve hcipher hkey hres).state _ _

/-- **Every step keeps every key sealed**, if it adds no stale key. -/
theorem SealedState.step {t : SealStep} (hkey : t.UsesKey master_key) (hfresh : t.Fresh s) :
    SealedState W master_key id k (s.sealStep W id master_key t) := by
  cases t with
  | wallet t => exact h.wallet hcipher hkey hfresh
  | encrypt env committed =>
    rw [sealStep]
    split
    · exact h
    next m hman =>
    rcases henc : m.encrypt W master_key env s.db with ⟨ok, db, m'⟩
    obtain ⟨hbefore, hafter⟩ := (h.2 m hman).encrypt hcipher henc
    by_cases hdone : ok = true ∧ committed = true
    · simp only [hdone.1, hdone.2]
      exact (hafter hdone.1).state _ _
    · rw [← Bool.and_eq_true] at hdone
      simp only [if_neg hdone]
      exact hbefore.state _ _
  | unlock env =>
    rw [sealStep]
    split
    · exact h
    next m hman => exact ((h.2 m hman).checkDecryptionKey env).state _ _

theorem SealedState.run {steps : List SealStep} (hkey : ∀ t ∈ steps, t.UsesKey master_key)
    (hfresh : s.AllFresh W id master_key steps) :
    SealedState W master_key id k (s.sealRun W id master_key steps) := by
  induction steps generalizing s with
  | nil => exact h
  | cons t steps ih =>
    exact ih (h.step hcipher (hkey t List.mem_cons_self) hfresh.1)
      (fun t' ht' => hkey t' (List.mem_cons_of_mem _ ht')) hfresh.2

end Step

/-- **The tags of encrypted keys stay right.**  The records that are loaded first have the right tags,
all operations use the encryption key of the wallet, and no top-up adds a stale key.  Then whatever
the steps are, and whichever of them fail, for every encrypted key in memory that has a tag: the tag
is the one for the current counter, in memory and in the record, and the key is not rejected when it
is decrypted. -/
theorem auth_tags_stay_valid (hcipher : W.Decrypts master_key) (db : PQCRecords)
    (hdb : ∀ k, RecordSealed W master_key id k db) (steps : List SealStep)
    (hkey : ∀ t ∈ steps, t.UsesKey master_key)
    (hfresh : CounterState.AllFresh W id master_key { db } steps) {m : DescriptorMan}
    (hm : (sealRun W id master_key { db } steps).man = some m) {k : CPQCPubKey}
    {r : CryptedPQCKeyRecord} {tag : Uint256} (hr : m.m_map_crypted_pqc_keys.lookup k = some r)
    (htag : r.auth_tag = some tag) :
    ∃ counter, m.m_map_pqc_sig_counters.lookup k = some counter ∧
      W.Authentic master_key id k r.crypted_secret counter tag ∧
      (∀ r' tag', (sealRun W id master_key { db } steps).db.crypted.lookup k = some r' →
        r'.auth_tag = some tag' → W.Authentic master_key id k r'.crypted_secret counter tag') ∧
      ∀ secret,
        W.decryptSecret master_key r.crypted_secret (W.getPQCKeyIV k) = some secret →
        secret.length = pqcSeckeySize → secret.drop (pqcSeckeySize - 32) = serUint256 k →
        W.decryptPQCKey master_key m.id r k counter = some (secret, none) := by
  have hstart : SealedState W master_key id k { db } := ⟨hdb k, nofun⟩
  have hsealed := (hstart.run hcipher hkey hfresh).2 m hm
  obtain ⟨counter, hcounter⟩ := exists_lookup (hsealed.counted (Or.inr (mem_of_lookup hr)))
  have hauthentic := hsealed.memory r counter tag hr hcounter htag
  refine ⟨counter, hcounter, hauthentic, fun r' tag' hr' htag' => ?_,
    fun secret hsecret hlength htail => ?_⟩
  · obtain rfl := Option.some.inj ((hsealed.stored r' hr').2.2.symm.trans hcounter)
    exact hsealed.record r' tag' hr' htag'
  · exact decryptPQCKey_of_authentic htag (hsealed.id_eq ▸ hauthentic) hsecret hlength htail

end Runs

/-! ## Two runs -/

/-- Cryptography in which a tag is the sum of what it is over, the other hashes say nothing, and
nothing can be encrypted without a key. -/
def byteSumCrypto : WalletCrypto where
  hash _ := 0
  hmacSha256 _ data := BitVec.ofNat 256 (data.map UInt8.toNat).sum
  secretKeyValidate secret := secret.head? == some 1
  encryptSecret key secret _ := if key = [] then none else some secret
  decryptSecret key secret _ := if key = [] then none else some secret

theorem decrypts_byteSumCrypto : byteSumCrypto.Decrypts [1] where
  encrypted h := by
    cases Option.some.inj h
    rfl
  locked _ _ := rfl

/-- The key 0, as a top-up adds it to a wallet that is encrypted. -/
def zeroKeyToEncrypt : PQCKeyToAdd where
  pubkey := 0
  key := 1 :: List.replicate 63 0
  has_encryption_keys := true
  encryption_key := some [1]
  written := true
  erased := true

/-- The stored secret key is invalid, and has a counter of 5.  Its validation fails, and the next
top-up adds the key in encrypted form.  Its tag is for the counter 0, and the next unlock finds the
counter 5. -/
theorem topUp_breaks_auth_tag :
    let steps : List SealStep := [.wallet .restart, .wallet .fetch, .wallet .finish,
      .wallet (.topUp [zeroKeyToEncrypt] .committed)]
    byteSumCrypto.Decrypts [1] ∧
    (∀ k, RecordSealed byteSumCrypto [1] 0 k (zeroKeyRecords 0 5)) ∧
    (∀ t ∈ steps, t.UsesKey [1]) ∧
    ∃ m r tag,
      (sealRun byteSumCrypto 0 [1] { db := zeroKeyRecords 0 5 } steps).man = some m ∧
      m.m_map_crypted_pqc_keys.lookup 0 = some r ∧ r.auth_tag = some tag ∧
      m.m_map_pqc_sig_counters.lookup 0 = some 5 ∧
      ¬byteSumCrypto.Authentic [1] 0 0 r.crypted_secret 5 tag ∧
      byteSumCrypto.decryptPQCKey [1] m.id r 0 5 = none := by
  intro steps
  have hrun : (sealRun byteSumCrypto 0 [1] { db := zeroKeyRecords 0 5 } steps).man.map
      (fun m => (m.id, m.m_map_pqc_sig_counters.lookup 0, (m.m_map_crypted_pqc_keys.lookup 0).map
        fun r => (r.crypted_secret, r.auth_tag))) =
      some (0, some 5, some (1 :: List.replicate 63 0,
        some (byteSumCrypto.getCryptedPQCKeyAuthTag [1] 0 0 (1 :: List.replicate 63 0) 0))) := by
    decide +kernel
  obtain ⟨m, hm, hmaps⟩ := Option.map_eq_some_iff.mp hrun
  obtain ⟨hid, hmaps⟩ := Prod.mk.inj hmaps
  obtain ⟨hcounter, hcrypted⟩ := Prod.mk.inj hmaps
  obtain ⟨⟨crypted_secret, auth_tag⟩, hr, hrecord⟩ := Option.map_eq_some_iff.mp hcrypted
  obtain ⟨rfl, rfl⟩ := Prod.mk.inj hrecord
  refine ⟨decrypts_byteSumCrypto, fun k r tag hr => ?_, ?_, m, _, _, hm, hr, rfl, hcounter, ?_, ?_⟩
  · cases hr
  · simp [steps, SealStep.UsesKey, zeroKeyToEncrypt]
  · rintro ⟨secret, hsecret, htag⟩
    cases Option.some.inj hsecret
    exact absurd htag (by decide +kernel)
  · rw [hid]
    decide +kernel

/-- The encryption of the wallet. -/
def encryptZeroKey : SealStep :=
  .encrypt
    { has_crypted_keys := false, keys_encrypted := true, written := fun _ => true
      erased := fun _ => true } true

/-- The reservation of two counters of the key 0 in the encrypted wallet. -/
def reserveTwoEncrypted : SealStep :=
  .wallet (.reserve
    { encryption_key := [1], txnBegin := true, written := fun _ => true, erased := fun _ => true
      txnCommit := true }
    ((∅ : KeyMap UInt32).insert 0 2))

/-- With a valid secret key, the wallet is encrypted, two counters are reserved, and the process is
restarted.  The tag is for the counter 7. -/
theorem auth_tags_stay_valid_zeroKey :
    let steps : List SealStep := [.wallet .restart, .wallet .fetch, .wallet .finish, encryptZeroKey,
      reserveTwoEncrypted, .wallet .restart]
    ∃ m r tag,
      (sealRun byteSumCrypto 0 [1] { db := zeroKeyRecords 1 5 } steps).man = some m ∧
      m.m_map_crypted_pqc_keys.lookup 0 = some r ∧ r.auth_tag = some tag ∧
      m.m_map_pqc_sig_counters.lookup 0 = some 7 ∧
      byteSumCrypto.Authentic [1] 0 0 r.crypted_secret 7 tag := by
  intro steps
  have hrun : (sealRun byteSumCrypto 0 [1] { db := zeroKeyRecords 1 5 } steps).man.map
      (fun m => (m.m_map_pqc_sig_counters.lookup 0, (m.m_map_crypted_pqc_keys.lookup 0).map
        fun r => r.auth_tag)) =
      some (some 7, some (some (byteSumCrypto.getCryptedPQCKeyAuthTag [1] 0 0
        (1 :: List.replicate 63 0) 7))) := by
    decide +kernel
  obtain ⟨m, hm, hmaps⟩ := Option.map_eq_some_iff.mp hrun
  obtain ⟨hcounter, hcrypted⟩ := Prod.mk.inj hmaps
  obtain ⟨r, hr, htag⟩ := Option.map_eq_some_iff.mp hcrypted
  have hdb (k : CPQCPubKey) : RecordSealed byteSumCrypto [1] 0 k (zeroKeyRecords 1 5) := by
    intro r tag hr
    cases hr
  have hkey : ∀ t ∈ steps, t.UsesKey [1] := by
    simp [steps, SealStep.UsesKey, encryptZeroKey, reserveTwoEncrypted]
  have hfresh : CounterState.AllFresh byteSumCrypto 0 [1] { db := zeroKeyRecords 1 5 } steps :=
    ⟨trivial, trivial, trivial, trivial, trivial, trivial, trivial⟩
  obtain ⟨counter, hcounter', hauthentic, -⟩ := auth_tags_stay_valid decrypts_byteSumCrypto
    (zeroKeyRecords 1 5) hdb steps hkey hfresh hm hr htag
  obtain rfl := Option.some.inj (hcounter.symm.trans hcounter')
  exact ⟨m, r, _, hm, hr, htag, hcounter, hauthentic⟩

end Qbit
