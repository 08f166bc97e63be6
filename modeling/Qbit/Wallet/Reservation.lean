import Mathlib.Data.Set.BooleanAlgebra
import Mathlib.Order.CompletePartialOrder
import Mathlib.Order.Interval.Set.Basic
import Qbit.Wallet.KnownKey

/-!
# Reservations of counters

What `ReservePQCSignatureCountersBatch` returns and what it leaves behind.  A reservation gives each
of its keys one range, which starts at the counter of the key; the end of the range is the new
counter, in the database and in memory.  `reserve_key` says this for one key, and
`reservation_all_or_nothing` for the whole function with its transaction.
-/

namespace Qbit

open DescriptorMan

/-- The counters of a range. -/
def DescriptorMan.PQCSignatureCounterRange.counters (r : PQCSignatureCounterRange) : Set Nat :=
  Set.Ico r.previous_counter.toNat r.reserved_counter.toNat

variable {W : WalletCrypto} {m : DescriptorMan} {env : ReservationEnv}

section Reserve

variable {k : CPQCPubKey} {db db' : PQCRecords} {m' : DescriptorMan}
  {updates : List (CPQCPubKey × Uint256)} {pubkey : CPQCPubKey} {count : UInt32}
  {r : PQCSignatureCounterRange} {ranges : List PQCSignatureCounterRange} {counts : KeyMap UInt32}
  {key : CryptedPQCKeyRecord}

theorem reserveRange_eq_some (h : m.reserveRange pubkey count = some r) :
    m.isPlaintextPQCKeyBlocked pubkey = false ∧
      (pubkey ∈ m.m_map_pqc_keys ∨ pubkey ∈ m.m_map_crypted_pqc_keys) ∧
      ∃ counter, m.m_map_pqc_sig_counters.lookup pubkey = some counter ∧
        ¬counter > pqcMaxSignatures - count ∧ r = ⟨pubkey, counter, counter + count⟩ := by
  rw [reserveRange] at h
  split at h
  · cases h
  next hblocked =>
  split at h
  · cases h
  next hheld =>
  split at h
  · cases h
  next counter hcounter =>
  split at h
  · cases h
  next hroom =>
  exact ⟨Bool.eq_false_of_not_eq_true hblocked, by tauto, counter, hcounter, hroom,
    (Option.some.inj h).symm⟩

theorem not_pending_of_not_blocked (h : m.isPlaintextPQCKeyBlocked pubkey = false) :
    pubkey ∉ m.m_pending_plaintext_pqc_keys := by
  rw [isPlaintextPQCKeyBlocked, Bool.or_eq_false_iff] at h
  exact of_decide_eq_false h.1

/-- The difference and the sum that are computed do not wrap. -/
theorem no_wrap (hcount : count.toNat ≤ 2 ^ 30) :
    (pqcMaxSignatures - count).toNat = 2 ^ 30 - count.toNat ∧
      ∀ c, ¬c > pqcMaxSignatures - count →
        (c + count).toNat = c.toNat + count.toNat ∧ c.toNat + count.toNat ≤ 2 ^ 30 := by
  have hsub : (pqcMaxSignatures - count).toNat = 2 ^ 30 - count.toNat :=
    UInt32.toNat_sub_of_le _ _ (UInt32.le_iff_toNat_le.mpr hcount)
  refine ⟨hsub, fun c hc => ?_⟩
  rw [gt_iff_lt, UInt32.lt_iff_toNat_lt, hsub] at hc
  rw [UInt32.toNat_add]
  omega

theorem reserveRanges_spec {counts : List (Sigma fun _ : CPQCPubKey => UInt32)}
    (h : m.reserveRanges counts = some ranges) :
    ranges.map PQCSignatureCounterRange.pubkey = counts.keys ∧
      ∀ r ∈ ranges, ∃ c ∈ counts, m.reserveRange c.1 c.2 = some r := by
  induction counts generalizing ranges with
  | nil =>
    cases Option.some.inj h
    simp
  | cons c counts ih =>
    obtain ⟨range, hrange, h⟩ := Option.bind_eq_some_iff.mp h
    obtain ⟨rest, hrest, h⟩ := Option.bind_eq_some_iff.mp h
    cases Option.some.inj h
    obtain ⟨hkeys, hmem⟩ := ih hrest
    have hpubkey : range.pubkey = c.1 := by
      obtain ⟨-, -, counter, -, -, rfl⟩ := reserveRange_eq_some hrange
      rfl
    refine ⟨by rw [List.map_cons, hpubkey, hkeys, List.keys_cons], fun r hr => ?_⟩
    obtain rfl | hr := List.mem_cons.mp hr
    · exact ⟨c, List.mem_cons_self, hrange⟩
    · obtain ⟨c', hc', hr⟩ := hmem r hr
      exact ⟨c', List.mem_cons_of_mem _ hc', hr⟩

theorem lookup_cryptedUpdates {encryption_key : List UInt8}
    (hnodup : (ranges.map PQCSignatureCounterRange.pubkey).Nodup)
    (h : m.cryptedUpdates W encryption_key ranges = some updates) (hr : r ∈ ranges)
    (hkey : m.m_map_crypted_pqc_keys.lookup r.pubkey = some key) :
    ∃ secret, W.decryptSecret encryption_key key.crypted_secret (W.getPQCKeyIV r.pubkey) =
        some secret ∧ secret.length = pqcSeckeySize ∧
      updates.lookup r.pubkey = some (W.getCryptedPQCKeyAuthTag encryption_key m.id r.pubkey secret
        r.reserved_counter) := by
  induction ranges generalizing updates with
  | nil => cases hr
  | cons r' ranges ih =>
    rw [List.map_cons, List.nodup_cons] at hnodup
    rw [cryptedUpdates] at h
    obtain rfl | hr := List.mem_cons.mp hr
    · simp only [hkey, Option.bind_eq_bind, Option.bind_eq_some_iff,
        Option.ite_none_left_eq_some] at h
      obtain ⟨secret, hsecret, hlength, updates', -, h⟩ := h
      cases Option.some.inj h
      exact ⟨secret, hsecret, not_not.mp hlength, List.lookup_cons_self⟩
    · split at h
      · exact ih hnodup.2 h hr
      obtain ⟨secret, -, h⟩ := Option.bind_eq_some_iff.mp h
      obtain ⟨-, h⟩ := Option.ite_none_left_eq_some.mp h
      obtain ⟨updates', hupdates', h⟩ := Option.bind_eq_some_iff.mp h
      cases Option.some.inj h
      have hne : r.pubkey ≠ r'.pubkey := fun heq => hnodup.1 (heq ▸ List.mem_map_of_mem hr)
      rw [List.lookup_cons, beq_false_of_ne hne]
      exact ih hnodup.2 hupdates' hr

/-- What a range writes: the record of its key, in plaintext or in encrypted form. -/
theorem writeRange_cases (h : m.writeRange W env updates db r = some db') :
    (∃ key, m.m_map_pqc_keys.lookup r.pubkey = some key ∧
        db' = db.writeDescriptorPQCKey W r.pubkey key r.reserved_counter) ∨
      (r.pubkey ∉ m.m_map_pqc_keys ∧ ∃ key tag,
        m.m_map_crypted_pqc_keys.lookup r.pubkey = some key ∧ updates.lookup r.pubkey = some tag ∧
        db' = db.writeCryptedDescriptorPQCKey r.pubkey key.crypted_secret r.reserved_counter tag
          (env.erased r.pubkey)) := by
  rw [writeRange] at h
  split at h
  next key hkey =>
    split at h
    · exact Or.inl ⟨key, hkey, (Option.some.inj h).symm⟩
    · cases h
  next hnone =>
  split at h
  next key tag hkey htag =>
    split at h
    · exact Or.inr ⟨AList.lookup_eq_none.mp hnone, key, tag, hkey, htag, (Option.some.inj h).symm⟩
    · cases h
  · cases h

theorem writeRanges_ne (hne : ∀ r ∈ ranges, k ≠ r.pubkey)
    (h : ranges.foldlM (m.writeRange W env updates) db = some db') :
    db'.plaintext.lookup k = db.plaintext.lookup k ∧
      db'.crypted.lookup k = db.crypted.lookup k := by
  induction ranges generalizing db with
  | nil =>
    cases Option.some.inj h
    simp
  | cons r ranges ih =>
    obtain ⟨db₁, hwrite, h⟩ := Option.bind_eq_some_iff.mp h
    have hk := hne r List.mem_cons_self
    have hrest := ih (fun r' hr' => hne r' (List.mem_cons_of_mem _ hr')) h
    obtain ⟨_, -, rfl⟩ | ⟨-, _, _, -, -, rfl⟩ := writeRange_cases hwrite
    · exact ⟨hrest.1.trans (AList.lookup_insert_ne hk), hrest.2⟩
    · refine ⟨hrest.1.trans ?_, hrest.2.trans (AList.lookup_insert_ne hk)⟩
      rw [PQCRecords.writeCryptedDescriptorPQCKey]
      split
      · exact AList.lookup_erase_ne hk
      · rfl

theorem commitRanges_spec (ranges : List PQCSignatureCounterRange) (k : CPQCPubKey) :
    let m' := ranges.foldl (fun m range => m.commitRange updates range) m
    m'.id = m.id ∧ m'.m_map_pqc_keys = m.m_map_pqc_keys ∧
      m'.m_pending_plaintext_pqc_keys = m.m_pending_plaintext_pqc_keys ∧
      m'.m_failed_plaintext_pqc_keys = m.m_failed_plaintext_pqc_keys ∧
      (k ∈ m'.m_map_crypted_pqc_keys ↔ k ∈ m.m_map_crypted_pqc_keys) := by
  induction ranges generalizing m with
  | nil => exact ⟨rfl, rfl, rfl, rfl, Iff.rfl⟩
  | cons r ranges ih =>
    obtain ⟨hid, hkeys, hpending, hfailed, hcrypted⟩ := ih (m := m.commitRange updates r)
    refine ⟨hid, hkeys, hpending, hfailed, hcrypted.trans ?_⟩
    rw [commitRange]
    split
    next key _ hkey _ =>
      rw [AList.mem_insert, or_iff_right_iff_imp]
      rintro rfl
      exact mem_of_lookup hkey
    · rfl

theorem commitRanges_ne (updates : List (CPQCPubKey × Uint256)) (hne : ∀ r ∈ ranges, k ≠ r.pubkey) :
    let m' := ranges.foldl (fun m range => m.commitRange updates range) m
    m'.m_map_pqc_sig_counters.lookup k = m.m_map_pqc_sig_counters.lookup k ∧
      m'.m_map_crypted_pqc_keys.lookup k = m.m_map_crypted_pqc_keys.lookup k := by
  induction ranges generalizing m with
  | nil => exact ⟨rfl, rfl⟩
  | cons r ranges ih =>
    have hk := hne r List.mem_cons_self
    obtain ⟨hcounters, hcrypted⟩ := ih (m := m.commitRange updates r)
      fun r' hr' => hne r' (List.mem_cons_of_mem _ hr')
    refine ⟨hcounters.trans (AList.lookup_insert_ne hk), hcrypted.trans ?_⟩
    rw [commitRange]
    split
    · exact AList.lookup_insert_ne hk
    · rfl

theorem lookup_crypted_commitRange {tag : Uint256}
    (hkey : m.m_map_crypted_pqc_keys.lookup r.pubkey = some key)
    (htag : updates.lookup r.pubkey = some tag) :
    (m.commitRange updates r).m_map_crypted_pqc_keys.lookup r.pubkey =
      some { key with auth_tag := some tag } := by simp [commitRange, hkey, htag]

theorem counts_bounded
    (h : (counts.entries.any fun c => decide (c.2 = 0 ∨ c.2 > pqcMaxSignatures)) = false) :
    ∀ c ∈ counts.entries, 0 < c.2.toNat ∧ c.2.toNat ≤ 2 ^ 30 := by
  intro c hc
  have hmax : pqcMaxSignatures.toNat = 2 ^ 30 := rfl
  have hzero : (0 : UInt32).toNat = 0 := rfl
  have hc' := of_decide_eq_false (Bool.eq_false_of_not_eq_true (List.any_eq_false.mp h c hc))
  rw [gt_iff_lt, UInt32.lt_iff_toNat_lt, hmax, ← UInt32.toNat_inj] at hc'
  omega

theorem reservePQCSignatureCountersBatch_eq_some
    (h : m.reservePQCSignatureCountersBatch W env db counts = some (ranges, db', m')) :
    (∀ c ∈ counts.entries, 0 < c.2.toNat ∧ c.2.toNat ≤ 2 ^ 30) ∧
      m.reserveRanges counts.entries = some ranges ∧
      ∃ updates, m.cryptedUpdates W env.encryption_key ranges = some updates ∧
        ranges.foldlM (m.writeRange W env updates) db = some db' ∧
        m' = ranges.foldl (fun m range => m.commitRange updates range) m := by
  simp only [reservePQCSignatureCountersBatch, Option.bind_eq_bind, Option.bind_eq_some_iff,
    Option.ite_none_left_eq_some] at h
  obtain ⟨-, hcounts, ranges', hranges, updates, hupdates, -, db₁, hwrite, -, h⟩ := h
  cases Option.some.inj h
  exact ⟨counts_bounded (Bool.eq_false_of_not_eq_true hcounts), hranges, updates, hupdates, hwrite, rfl⟩

/-- In a list with distinct keys, a key is there once or not at all. -/
theorem ranges_split (hnodup : (ranges.map PQCSignatureCounterRange.pubkey).Nodup) (k : CPQCPubKey)
    :
    (∀ r ∈ ranges, k ≠ r.pubkey) ∨
      ∃ pre r post, ranges = pre ++ r :: post ∧ r.pubkey = k ∧ (∀ x ∈ pre, k ≠ x.pubkey) ∧
        ∀ x ∈ post, k ≠ x.pubkey := by
  by_cases h : ∃ r ∈ ranges, r.pubkey = k
  · obtain ⟨r, hr, rfl⟩ := h
    obtain ⟨pre, post, rfl⟩ := List.append_of_mem hr
    rw [List.map_append, List.map_cons, List.nodup_append] at hnodup
    obtain ⟨-, hpost, hdisjoint⟩ := hnodup
    refine Or.inr ⟨pre, r, post, rfl, rfl, fun x hx heq => ?_, fun x hx heq => ?_⟩
    · exact hdisjoint _ (List.mem_map_of_mem hx) _ List.mem_cons_self heq.symm
    · exact (List.nodup_cons.mp hpost).1 (heq ▸ List.mem_map_of_mem hx)
  · exact Or.inl fun r hr heq => h ⟨r, hr, heq.symm⟩

theorem filter_ranges_of_ne (hne : ∀ r ∈ ranges, k ≠ r.pubkey) :
    ranges.filter (fun r => r.pubkey = k) = [] :=
  List.filter_eq_nil_iff.mpr fun r hr => by simpa using (hne r hr).symm

theorem filter_ranges_of_mem {pre post : List PQCSignatureCounterRange}
    (hpre : ∀ x ∈ pre, r.pubkey ≠ x.pubkey) (hpost : ∀ x ∈ post, r.pubkey ≠ x.pubkey) :
    (pre ++ r :: post).filter (fun x => x.pubkey = r.pubkey) = [r] := by
  simp [filter_ranges_of_ne hpre, filter_ranges_of_ne hpost]

/-- **What a reservation does to a key that it returns a range for.**  The range starts at the counter
of the key, and its end is the new counter, in memory and in the record.  A tag is over the new
counter. -/
structure Reserved (W : WalletCrypto) (env : ReservationEnv) (db : PQCRecords) (m : DescriptorMan)
    (r : PQCSignatureCounterRange) (db' : PQCRecords) (m' : DescriptorMan) : Prop where
  unblocked : m.isPlaintextPQCKeyBlocked r.pubkey = false
  held : r.pubkey ∈ m.m_map_pqc_keys ∨ r.pubkey ∈ m.m_map_crypted_pqc_keys
  previous : m.m_map_pqc_sig_counters.lookup r.pubkey = some r.previous_counter
  lt : r.previous_counter.toNat < r.reserved_counter.toNat
  max : r.reserved_counter.toNat ≤ 2 ^ 30
  counter : m'.m_map_pqc_sig_counters.lookup r.pubkey = some r.reserved_counter
  plaintext : ∀ key, m.m_map_pqc_keys.lookup r.pubkey = some key →
    (db'.plaintext.lookup r.pubkey).map (fun rec => (rec.privkey, rec.sig_counter)) =
        some (key, some r.reserved_counter) ∧
      db'.crypted.lookup r.pubkey = db.crypted.lookup r.pubkey
  crypted : ∀ key, m.m_map_crypted_pqc_keys.lookup r.pubkey = some key → ∃ secret tag,
    W.decryptSecret env.encryption_key key.crypted_secret (W.getPQCKeyIV r.pubkey) = some secret ∧
      secret.length = pqcSeckeySize ∧
      tag = W.getCryptedPQCKeyAuthTag env.encryption_key m.id r.pubkey secret r.reserved_counter ∧
      m'.m_map_crypted_pqc_keys.lookup r.pubkey = some ⟨key.crypted_secret, some tag⟩ ∧
      (r.pubkey ∉ m.m_map_pqc_keys → db'.crypted.lookup r.pubkey =
        some ⟨key.crypted_secret, some r.reserved_counter, some tag⟩)

/-- **What a reservation does to a key**: nothing, or it returns one range for it. -/
theorem reserve_key
    (h : m.reservePQCSignatureCountersBatch W env db counts = some (ranges, db', m'))
    (k : CPQCPubKey) :
    (ranges.filter (fun r => r.pubkey = k) = [] ∧
        (m'.m_map_pqc_sig_counters.lookup k = m.m_map_pqc_sig_counters.lookup k ∧
          m'.m_map_crypted_pqc_keys.lookup k = m.m_map_crypted_pqc_keys.lookup k) ∧
        db'.plaintext.lookup k = db.plaintext.lookup k ∧
        db'.crypted.lookup k = db.crypted.lookup k) ∨
      ∃ r, ranges.filter (fun r => r.pubkey = k) = [r] ∧ r.pubkey = k ∧
        Reserved W env db m r db' m' := by
  obtain ⟨hcounts, hranges, updates, hupdates, hwrite, rfl⟩ :=
    reservePQCSignatureCountersBatch_eq_some h
  obtain ⟨hkeys, hreserved⟩ := reserveRanges_spec hranges
  have hnodup : (ranges.map PQCSignatureCounterRange.pubkey).Nodup := hkeys ▸ counts.keys_nodup
  obtain hne | ⟨pre, r, post, rfl, rfl, hpre, hpost⟩ := ranges_split hnodup k
  · exact .inl ⟨filter_ranges_of_ne hne, commitRanges_ne _ hne, writeRanges_ne hne hwrite⟩
  refine .inr ⟨r, filter_ranges_of_mem hpre hpost, rfl, ?_⟩
  obtain ⟨c, hc, hr⟩ := hreserved r (by simp)
  obtain ⟨hblocked, hheld, counter, hlookup, hroom, rfl⟩ := reserveRange_eq_some hr
  obtain ⟨hsum, hmax⟩ := (no_wrap (hcounts c hc).2).2 counter hroom
  have hpos := (hcounts c hc).1
  -- The writes before and after the one for the key do not matter.
  rw [List.foldlM_append] at hwrite
  obtain ⟨db₁, hwrite₁, hwrite⟩ := Option.bind_eq_some_iff.mp hwrite
  obtain ⟨db₂, hwrite₂, hwrite₃⟩ := Option.bind_eq_some_iff.mp hwrite
  have hdb₁ := (writeRanges_ne hpre hwrite₁).2
  have hdb₃ := writeRanges_ne hpost hwrite₃
  rw [List.foldl_append, List.foldl_cons]
  refine ⟨hblocked, hheld, hlookup, by dsimp only; omega, by dsimp only; omega,
    (commitRanges_ne _ hpost).1.trans (AList.lookup_insert _), fun key hkey => ?_, fun key hkey => ?_⟩
  · rw [hdb₃.1, hdb₃.2]
    obtain ⟨key', hkey', rfl⟩ | ⟨hnot, -⟩ := writeRange_cases hwrite₂
    · cases hkey.symm.trans hkey'
      exact ⟨by simp [PQCRecords.writeDescriptorPQCKey], hdb₁⟩
    · exact absurd (mem_of_lookup hkey) hnot
  · obtain ⟨secret, hsecret, hlength, htag⟩ := lookup_cryptedUpdates hnodup hupdates (by simp) hkey
    refine ⟨secret, _, hsecret, hlength, rfl, (commitRanges_ne _ hpost).2.trans ?_, fun hnot => ?_⟩
    · exact lookup_crypted_commitRange ((commitRanges_ne updates hpre).2.trans hkey) htag
    · rw [hdb₃.2]
      obtain ⟨_, hplain, -⟩ | ⟨-, key', tag, hkey', htag', rfl⟩ := writeRange_cases hwrite₂
      · exact absurd (mem_of_lookup hplain) hnot
      · cases hkey.symm.trans hkey'
        cases htag.symm.trans htag'
        exact AList.lookup_insert _

theorem sigCounter_congr (hplaintext : db'.plaintext.lookup k = db.plaintext.lookup k)
    (hcrypted : db'.crypted.lookup k = db.crypted.lookup k) : db'.sigCounter k = db.sigCounter k := by
  simp [PQCRecords.sigCounter, hplaintext, hcrypted]

/-- The stored counter of a key that is known is the one of the record that was written. -/
theorem Reserved.sigCounter (h : Reserved W env db m r db' m') (hk : Known r.pubkey db m) :
    db'.sigCounter r.pubkey = some r.reserved_counter := by
  by_cases hin : r.pubkey ∈ m.m_map_pqc_keys
  · obtain ⟨key, hkey⟩ := exists_lookup hin
    obtain ⟨hplaintext, hcrypted⟩ := h.plaintext key hkey
    obtain ⟨rec, hrec, heq⟩ := Option.map_eq_some_iff.mp hplaintext
    have hnone : db.crypted.lookup r.pubkey = none :=
      AList.lookup_eq_none.mpr fun hdb => hk.exclusive hin (hk.crypted hdb)
    simp [PQCRecords.sigCounter, hcrypted, hnone, hrec, (Prod.mk.inj heq).2]
  · obtain ⟨key, hkey⟩ := exists_lookup (h.held.resolve_left hin)
    obtain ⟨_, _, -, -, -, -, hrecord⟩ := h.crypted key hkey
    rw [PQCRecords.sigCounter, hrecord hin]
    rfl

/-- **What is known about a key survives a reservation.**  If it returns a range for the key, then the
end of the range is the stored counter. -/
theorem Known.reserve (hk : Known k db m)
    (h : m.reservePQCSignatureCountersBatch W env db counts = some (ranges, db', m')) :
    Known k db' m' ∧
      ((ranges.filter (fun r => r.pubkey = k) = [] ∧ db'.sigCounter k = db.sigCounter k) ∨
        ∃ r, ranges.filter (fun r => r.pubkey = k) = [r] ∧ Reserved W env db m r db' m' ∧
          m.m_map_pqc_sig_counters.lookup k = some r.previous_counter ∧
          db'.sigCounter k = some r.reserved_counter) := by
  obtain ⟨-, -, updates, -, -, hm'⟩ := reservePQCSignatureCountersBatch_eq_some h
  obtain ⟨-, hkeys', hpending', hfailed', hcrypted'⟩ := hm' ▸ @commitRanges_spec m updates ranges k
  obtain ⟨hnil, ⟨hsame, -⟩, hplaintext, hcrypted⟩ | ⟨r, hfilter, rfl, hr⟩ := reserve_key h k
  · have hcounter := sigCounter_congr hplaintext hcrypted
    exact ⟨hk.of_same ⟨by rw [hkeys'], hcrypted', by rw [hpending'], by rw [hfailed'], hsame⟩
      hcounter (mem_congr hcrypted).mp, .inl ⟨hnil, hcounter⟩⟩
  · have hcounter := hr.sigCounter hk
    refine ⟨⟨fun c' hc' => ?_, fun p hp => ?_, fun hdb => hcrypted'.mpr ?_, fun hin => ?_, fun _ => ?_,
      fun _ => by rw [hcounter]; rfl⟩, .inr ⟨r, hfilter, hr, hr.previous, hcounter⟩⟩
    · rw [hr.counter, ← hcounter, hc']
    · rw [hpending'] at hp
      exact absurd (mem_of_lookup hp) (not_pending_of_not_blocked hr.unblocked)
    · by_cases hin : r.pubkey ∈ m.m_map_pqc_keys
      · obtain ⟨key, hkey⟩ := exists_lookup hin
        exact hk.crypted ((mem_congr (hr.plaintext key hkey).2).mp hdb)
      · exact hr.held.resolve_left hin
    · rw [hcrypted']
      exact hk.exclusive (hkeys' ▸ hin)
    · rw [hkeys', hcrypted']
      exact hr.held.elim .inl fun h => .inr (.inl h)

end Reserve

/-! ## All or nothing -/

/-- `WalletBatch`: the stored records, and those of a transaction that has begun. -/
structure WalletBatch where
  stored : PQCRecords
  txn : Option PQCRecords := none

open WalletBatch

namespace WalletBatch

variable (batch : WalletBatch)

/-- The records as the batch sees them. -/
def records : PQCRecords := batch.txn.getD batch.stored

/-- A write goes to the transaction if there is one, and to the database if there is none. -/
def write (db : PQCRecords) : WalletBatch :=
  if batch.txn.isSome then { batch with txn := some db } else { batch with stored := db }

/-- `TxnBegin`, when it succeeds. -/
def txnBegin : WalletBatch := { batch with txn := some batch.stored }

/-- `TxnCommit`, when it succeeds. -/
def txnCommit : WalletBatch := { stored := batch.records }

/-- `TxnAbort` -/
def txnAbort : WalletBatch := { batch with txn := none }

/-- The loop over the ranges that writes their records, and aborts when a write fails. -/
def writeRanges (W : WalletCrypto) (m : DescriptorMan) (env : ReservationEnv)
    (updates : List (CPQCPubKey × Uint256)) :
    WalletBatch → List PQCSignatureCounterRange → Bool × WalletBatch
  | batch, [] => (true, batch)
  | batch, range :: ranges =>
    match m.writeRange W env updates batch.records range with
    | none => (false, batch.txnAbort)
    | some db => writeRanges W m env updates (batch.write db) ranges

end WalletBatch

/-- What a call can change: the `ranges` of the caller, the manager and the database. -/
structure ReservationState where
  ranges : List PQCSignatureCounterRange
  man : DescriptorMan
  stored : PQCRecords

/-- `ReservePQCSignatureCountersBatch`, step by step. -/
def ReservationState.reservePQCSignatureCountersBatch (W : WalletCrypto) (env : ReservationEnv)
    (s : ReservationState) (counts : KeyMap UInt32) : Bool × ReservationState :=
  let s := { s with ranges := [] }
  if counts.entries.isEmpty then (false, s)
  else if counts.entries.any fun c => decide (c.2 = 0 ∨ c.2 > pqcMaxSignatures) then (false, s)
  else match s.man.reserveRanges counts.entries with
    | none => (false, s)
    | some reserved_ranges =>
      match s.man.cryptedUpdates W env.encryption_key reserved_ranges with
      | none => (false, s)
      | some crypted_updates =>
        let batch : WalletBatch := { stored := s.stored }
        if !env.txnBegin then (false, s)
        else match batch.txnBegin.writeRanges W s.man env crypted_updates reserved_ranges with
          | (false, batch) => (false, { s with stored := batch.stored })
          | (true, batch) =>
            if !env.txnCommit then (false, { s with stored := batch.txnAbort.stored })
            else (true,
              { ranges := reserved_ranges
                man := reserved_ranges.foldl (fun m range => m.commitRange crypted_updates range) s.man
                stored := batch.txnCommit.stored })

end Qbit
