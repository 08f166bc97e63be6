import Qbit.Sign.Provider
import Qbit.Wallet.Counters

/-!
# One key in several descriptors

A wallet has a manager for each of its descriptors, and every manager has counters of its own.  A
reservation goes to one manager: it is made directly or through a provider, and a merged provider
has the reserver of the first of its parts that has one.

The counters of a key are reserved at most once in the whole wallet if and only if at most one of
the managers is able to reserve counters of the key: `shared_counters_iff`.
-/

namespace Qbit

open DescriptorMan

/-! ## Reservations in a wallet -/

/-- A manager and its records. -/
structure ManagedKeys where
  db : PQCRecords
  man : DescriptorMan

/-- The managers of a wallet, and all ranges that they have returned. -/
structure SharedWallet where
  managers : List ManagedKeys
  ranges : List PQCSignatureCounterRange := []

open SharedWallet

/-- A reservation.  The reserver of a provider is given by the number of its manager. -/
inductive SharedStep where
  | direct (manager : Nat) (env : ReservationEnv) (counts : KeyMap UInt32)
  /-- `pqc_counter_reserver` of a provider. -/
  | reserver (provider : FlatSigningProvider Nat) (env : ReservationEnv) (pubkey : CPQCPubKey)
      (count : UInt32)
  /-- `pqc_counter_batch_reserver` of a provider. -/
  | batchReserver (provider : FlatSigningProvider Nat) (env : ReservationEnv)
      (counts : KeyMap UInt32)

/-- What is reserved by whom; a provider may have no reserver. -/
def SharedStep.request : SharedStep → Option (Nat × ReservationEnv × KeyMap UInt32)
  | direct manager env counts => some (manager, env, counts)
  | reserver provider env pubkey count => provider.pqc_counter_reserver.map fun manager =>
      (manager, env, (∅ : KeyMap UInt32).insert pubkey count)
  | batchReserver provider env counts => provider.pqc_counter_batch_reserver.map fun manager =>
      (manager, env, counts)

namespace SharedWallet

variable (W : WalletCrypto)

variable (w : SharedWallet)

/-- A reservation by one of the managers.  If it fails, or if the manager is no longer there, then
nothing happens. -/
def reserve (manager : Nat) (env : ReservationEnv) (counts : KeyMap UInt32) : SharedWallet :=
  match w.managers[manager]? with
  | none => w
  | some g =>
    match g.man.reservePQCSignatureCountersBatch W env g.db counts with
    | none => w
    | some (ranges, db, man) =>
      { managers := w.managers.set manager { db, man }, ranges := w.ranges ++ ranges }

def step (t : SharedStep) : SharedWallet :=
  match t.request with
  | none => w
  | some (manager, env, counts) => w.reserve W manager env counts

/-- The wallet after some reservations. -/
def run (steps : List SharedStep) : SharedWallet := steps.foldl (step W) w

/-- The ranges that were returned for a key. -/
def rangesOf (k : CPQCPubKey) : List PQCSignatureCounterRange :=
  w.ranges.filter fun r => r.pubkey = k

/-- The number of signatures that may have been made with a key. -/
def signatures (k : CPQCPubKey) : Nat :=
  ((w.rangesOf k).map fun r => r.reserved_counter.toNat - r.previous_counter.toNat).sum

end SharedWallet

/-- The manager is able to reserve counters of the key: it has the key, the key is not blocked and
not used up, and if it is encrypted then it can be decrypted. -/
structure CanReserve (W : WalletCrypto) (k : CPQCPubKey) (m : DescriptorMan) : Prop where
  unblocked : m.isPlaintextPQCKeyBlocked k = false
  held : k ∈ m.m_map_pqc_keys ∨ k ∈ m.m_map_crypted_pqc_keys
  left : ∃ c, m.m_map_pqc_sig_counters.lookup k = some c ∧ c.toNat < 2 ^ 30
  decrypts : ∀ r, m.m_map_crypted_pqc_keys.lookup k = some r → ∃ encryption_key secret,
    W.decryptSecret encryption_key r.crypted_secret (W.getPQCKeyIV k) = some secret ∧
      secret.length = pqcSeckeySize

section Reserve

variable {W : WalletCrypto} {k : CPQCPubKey} {m m' : DescriptorMan} {env : ReservationEnv}
  {db db' : PQCRecords} {counts : KeyMap UInt32} {ranges : List PQCSignatureCounterRange}

variable {r : PQCSignatureCounterRange}

theorem Reserved.canReserve (h : Reserved W env db m r db' m') : CanReserve W r.pubkey m where
  unblocked := h.unblocked
  held := h.held
  left := ⟨_, h.previous, h.lt.trans_le h.max⟩
  decrypts key hkey := by
    obtain ⟨secret, _, hsecret, hlength, -⟩ := h.crypted key hkey
    exact ⟨_, secret, hsecret, hlength⟩

/-- A reservation does not enable a manager to reserve more. -/
theorem CanReserve.of_reserve
    (h : m.reservePQCSignatureCountersBatch W env db counts = some (ranges, db', m'))
    (hcan : CanReserve W k m') : CanReserve W k m := by
  obtain ⟨-, -, updates, -, -, hm'⟩ := reservePQCSignatureCountersBatch_eq_some h
  obtain ⟨-, hkeys, hpending, hfailed, hcrypted⟩ := hm' ▸ @commitRanges_spec m updates ranges k
  obtain ⟨-, ⟨hcounters, hsame⟩, -⟩ | ⟨r, -, rfl, hr⟩ := reserve_key h k
  · obtain ⟨hunblocked, hheld, hleft, hdecrypts⟩ := hcan
    rw [isPlaintextPQCKeyBlocked, hpending, hfailed, decide_eq_decide.mpr hcrypted] at hunblocked
    rw [hkeys, hcrypted] at hheld
    rw [hcounters] at hleft
    rw [hsame] at hdecrypts
    exact ⟨hunblocked, hheld, hleft, hdecrypts⟩
  · exact hr.canReserve

/-- Where everything succeeds. -/
def DescriptorMan.ReservationEnv.succeeding (encryption_key : List UInt8) : ReservationEnv where
  encryption_key := encryption_key
  txnBegin := true
  written _ := true
  erased _ := true
  txnCommit := true

theorem CanReserve.reserveRange (hcan : CanReserve W k m) :
    ∃ count r, 0 < count.toNat ∧ count.toNat ≤ 2 ^ 30 ∧ m.reserveRange k count = some r ∧
      r.pubkey = k ∧ r.reserved_counter.toNat = 2 ^ 30 ∧
      r.previous_counter.toNat < r.reserved_counter.toNat := by
  obtain ⟨c, hc, hlt⟩ := hcan.left
  have hmax : pqcMaxSignatures.toNat = 2 ^ 30 := rfl
  have hle : c ≤ pqcMaxSignatures := UInt32.le_iff_toNat_le.mpr (by omega)
  obtain ⟨count, hcount⟩ : ∃ count, count = pqcMaxSignatures - c := ⟨_, rfl⟩
  have htoNat : count.toNat = 2 ^ 30 - c.toNat := by
    rw [hcount, UInt32.toNat_sub_of_le _ _ hle, hmax]
  have hleft : pqcMaxSignatures - count = c := UInt32.toNat_inj.mp (by
    rw [UInt32.toNat_sub_of_le _ _ (UInt32.le_iff_toNat_le.mpr (by omega)), htoNat, hmax]
    omega)
  have hend : (c + count).toNat = 2 ^ 30 := by
    rw [UInt32.toNat_add, htoNat]
    omega
  have hheld : ¬(k ∉ m.m_map_pqc_keys ∧ k ∉ m.m_map_crypted_pqc_keys) := by
    have := hcan.held
    tauto
  refine ⟨count, ⟨k, c, c + count⟩, by omega, by omega, ?_, rfl, hend, hlt.trans_eq hend.symm⟩
  simp [DescriptorMan.reserveRange, hcan.unblocked, hheld, hc, hleft]

theorem CanReserve.writeRange (hcan : CanReserve W k m) (hr : r.pubkey = k) (db : PQCRecords) :
    ∃ encryption_key updates db', m.cryptedUpdates W encryption_key [r] = some updates ∧
      m.writeRange W (ReservationEnv.succeeding encryption_key) updates db r = some db' := by
  subst hr
  cases hcrypted : m.m_map_crypted_pqc_keys.lookup r.pubkey with
  | none =>
    have hkey : r.pubkey ∈ m.m_map_pqc_keys :=
      hcan.held.resolve_right (AList.lookup_eq_none.mp hcrypted)
    obtain ⟨key, hkey⟩ := exists_lookup hkey
    refine ⟨[], [], db.writeDescriptorPQCKey W r.pubkey key r.reserved_counter, ?_, ?_⟩
    · rw [cryptedUpdates, hcrypted, cryptedUpdates]
    · rw [DescriptorMan.writeRange, hkey]
      rfl
  | some crypted_key =>
    obtain ⟨encryption_key, secret, hsecret, hlength⟩ := hcan.decrypts crypted_key hcrypted
    refine ⟨encryption_key, [(r.pubkey, W.getCryptedPQCKeyAuthTag encryption_key m.id r.pubkey secret
      r.reserved_counter)], ?_⟩
    cases hkey : m.m_map_pqc_keys.lookup r.pubkey with
    | some key =>
      refine ⟨_, ?_, by rw [DescriptorMan.writeRange, hkey]; rfl⟩
      rw [cryptedUpdates, hcrypted]
      dsimp only
      rw [hsecret, Option.bind_eq_bind, Option.bind_some, if_neg (not_not.mpr hlength)]
      rfl
    | none =>
      refine ⟨_, ?_, by
        rw [DescriptorMan.writeRange, hkey, hcrypted, List.lookup_cons_self]
        rfl⟩
      rw [cryptedUpdates, hcrypted]
      dsimp only
      rw [hsecret, Option.bind_eq_bind, Option.bind_some, if_neg (not_not.mpr hlength)]
      rfl

/-- A manager that is able to can reserve all counters that are left. -/
theorem CanReserve.reserve (hcan : CanReserve W k m) (db : PQCRecords) :
    ∃ env counts r db' m',
      m.reservePQCSignatureCountersBatch W env db counts = some ([r], db', m') ∧ r.pubkey = k ∧
        r.reserved_counter.toNat = 2 ^ 30 ∧
        r.previous_counter.toNat < r.reserved_counter.toNat := by
  obtain ⟨count, r, hpos, hle, hrange, hkey, hend, hlt⟩ := hcan.reserveRange
  obtain ⟨encryption_key, updates, db', hupdates, hwrite⟩ := hcan.writeRange hkey db
  have hentries : ((∅ : KeyMap UInt32).insert k count).entries = [⟨k, count⟩] := rfl
  have hranges : m.reserveRanges [⟨k, count⟩] = some [r] := by simp [reserveRanges, hrange]
  have hcount : ¬(count = 0 ∨ count > pqcMaxSignatures) := by
    rw [gt_iff_lt, UInt32.lt_iff_toNat_lt, ← UInt32.toNat_inj]
    have hmax : pqcMaxSignatures.toNat = 2 ^ 30 := rfl
    have hzero : (0 : UInt32).toNat = 0 := rfl
    omega
  refine ⟨ReservationEnv.succeeding encryption_key, (∅ : KeyMap UInt32).insert k count, r, db',
    m.commitRange updates r, ?_, hkey, hend, hlt⟩
  rw [reservePQCSignatureCountersBatch, hentries, hranges]
  simp only [ReservationEnv.succeeding, List.any_cons, hcount, Option.bind_eq_bind,
    Option.bind_some, hupdates, List.foldlM_cons] at hwrite ⊢
  rw [hwrite]
  rfl

end Reserve

/-! ## Runs -/

/-- **The invariant** of one key.  Only managers that were able to reserve its counters at the start
still are, and one of them has returned all ranges for the key. -/
structure SharedInv (W : WalletCrypto) (k : CPQCPubKey) (start w : SharedWallet) : Prop where
  able : ∀ (i : Nat) (g : ManagedKeys), w.managers[i]? = some g → CanReserve W k g.man →
    ∃ g₀ : ManagedKeys, start.managers[i]? = some g₀ ∧ CanReserve W k g₀.man
  owned : w.rangesOf k = [] ∨ ∃ (i : Nat) (g₀ g : ManagedKeys) (c : UInt32),
    start.managers[i]? = some g₀ ∧ CanReserve W k g₀.man ∧ w.managers[i]? = some g ∧
      g.man.m_map_pqc_sig_counters.lookup k = some c ∧
      c.toNat ≤ 2 ^ 30 ∧ (∀ r ∈ w.rangesOf k, r.reserved_counter.toNat ≤ c.toNat) ∧
      w.signatures k ≤ c.toNat
  ordered : (w.rangesOf k).Pairwise fun a b =>
    a.reserved_counter.toNat ≤ b.previous_counter.toNat

/-- At most one of the managers is able to reserve counters of the key. -/
def AtMostOneReserves (W : WalletCrypto) (k : CPQCPubKey) (w : SharedWallet) : Prop :=
  ∀ (i j : Nat) (g g' : ManagedKeys), w.managers[i]? = some g → w.managers[j]? = some g' →
    CanReserve W k g.man → CanReserve W k g'.man → i = j

section Run

variable {W : WalletCrypto} {k : CPQCPubKey} {start w : SharedWallet}

section Reserve

variable (h : SharedInv W k start w) (hone : AtMostOneReserves W k start)

include h hone

theorem SharedInv.reserve (manager : Nat) (env : ReservationEnv) (counts : KeyMap UInt32) :
    SharedInv W k start (w.reserve W manager env counts) := by
  rw [SharedWallet.reserve]
  split
  · exact h
  next g hg =>
  split
  · exact h
  next ranges db man hreserve =>
  have hmanager : (w.managers.set manager { db, man })[manager]? = some { db, man } := by
    rw [List.getElem?_set_self' , hg]
    rfl
  have hother (i : Nat) (hi : i ≠ manager) :
      (w.managers.set manager { db, man })[i]? = w.managers[i]? :=
    List.getElem?_set_ne (Ne.symm hi)
  have hable (i : Nat) (g' : ManagedKeys)
      (hg' : (w.managers.set manager { db, man })[i]? = some g') (hcan : CanReserve W k g'.man) :
      ∃ g₀, start.managers[i]? = some g₀ ∧ CanReserve W k g₀.man := by
    by_cases hi : i = manager
    · subst hi
      rw [hmanager] at hg'
      cases hg'
      exact h.able i g hg (hcan.of_reserve hreserve)
    · exact h.able i g' (hother i hi ▸ hg') hcan
  have hranges : rangesOf ⟨w.managers.set manager { db, man }, w.ranges ++ ranges⟩ k =
      w.rangesOf k ++ ranges.filter fun r => r.pubkey = k :=
    List.filter_append ..
  obtain ⟨hnil, ⟨hsame, -⟩, -⟩ | ⟨r, hfilter, rfl, hr⟩ := reserve_key hreserve k
  · -- Nothing was reserved for the key.
    rw [hnil, List.append_nil] at hranges
    refine ⟨hable, ?_, hranges ▸ h.ordered⟩
    rw [signatures, hranges]
    refine h.owned.imp_right fun ⟨i, g₀, g', c, hg₀, hcan, hg', hc, hrest⟩ => ?_
    by_cases hi : i = manager
    · subst hi
      cases hg.symm.trans hg'
      exact ⟨i, g₀, _, c, hg₀, hcan, hmanager, hsame.trans hc, hrest⟩
    · exact ⟨i, g₀, g', c, hg₀, hcan, (hother i hi).trans hg', hc, hrest⟩
  · -- The new range starts at the counter of the only manager that has reserved before.
    rw [hfilter] at hranges
    obtain ⟨g₀, hg₀, hcan⟩ := h.able manager g hg hr.canReserve
    have hbelow : (∀ x ∈ w.rangesOf r.pubkey,
        x.reserved_counter.toNat ≤ r.previous_counter.toNat) ∧
          w.signatures r.pubkey ≤ r.previous_counter.toNat := by
      obtain hnil | ⟨i, g₁, g', c, hg₁, hcan₁, hg', hc, -, hle, hsum⟩ := h.owned
      · rw [signatures, hnil]
        exact ⟨by simp, Nat.zero_le _⟩
      · obtain rfl := hone i manager g₁ g₀ hg₁ hg₀ hcan₁ hcan
        cases hg.symm.trans hg'
        cases hr.previous.symm.trans hc
        exact ⟨hle, hsum⟩
    have hlt := hr.lt
    refine ⟨hable, Or.inr ⟨manager, g₀, _, r.reserved_counter, hg₀, hcan, hmanager, hr.counter, hr.max,
      ?_, ?_⟩, ?_⟩
    · rw [hranges, List.forall_mem_append]
      exact ⟨fun x hx => (hbelow.1 x hx).trans hlt.le, by simp⟩
    · have hsum := hbelow.2
      rw [signatures] at hsum
      rw [signatures, hranges, List.map_append, List.sum_append, List.map_singleton,
        List.sum_singleton]
      omega
    · rw [hranges, List.pairwise_append]
      exact ⟨h.ordered, List.pairwise_singleton _ _, by simpa using hbelow.1⟩

theorem SharedInv.step (t : SharedStep) : SharedInv W k start (w.step W t) := by
  rw [SharedWallet.step]
  split
  · exact h
  next manager env counts _ => exact h.reserve hone manager env counts

theorem SharedInv.run (steps : List SharedStep) : SharedInv W k start (w.run W steps) := by
  induction steps generalizing w with
  | nil => exact h
  | cons t steps ih => exact ih (h.step hone t)

end Reserve

theorem not_disjoint_of_two {managers : List ManagedKeys} {i j : Nat} {g g' : ManagedKeys}
    (hi : managers[i]? = some g) (hj : managers[j]? = some g') (hcan : CanReserve W k g.man)
    (hcan' : CanReserve W k g'.man) (hne : i ≠ j) :
    ∃ steps, ¬((run W { managers } steps).rangesOf k).Pairwise
      fun a b => Disjoint a.counters b.counters := by
  obtain ⟨env, counts, r, db, man, hreserve, hkey, hend, hlt⟩ := hcan.reserve g.db
  obtain ⟨env', counts', r', db', man', hreserve', hkey', hend', hlt'⟩ := hcan'.reserve g'.db
  refine ⟨[.direct i env counts, .direct j env' counts'], fun hdisjoint => ?_⟩
  have hfirst : SharedWallet.step W { managers } (.direct i env counts) =
      { managers := managers.set i { db, man }, ranges := [r] } := by
    simp only [SharedWallet.step, SharedStep.request, reserve, hi, hreserve,
      List.nil_append]
  have hj' : (managers.set i { db, man })[j]? = some g' := (List.getElem?_set_ne hne).trans hj
  have hsecond : SharedWallet.step W { managers := managers.set i { db, man }, ranges := [r] }
      (.direct j env' counts') =
        { managers := (managers.set i { db, man }).set j { db := db', man := man' }
          ranges := [r, r'] } := by
    simp only [SharedWallet.step, SharedStep.request, reserve, hj', hreserve',
      List.cons_append, List.nil_append]
  rw [run, List.foldl_cons, List.foldl_cons, List.foldl_nil, hfirst, hsecond,
    rangesOf] at hdisjoint
  have hfilter : [r, r'].filter (fun x => x.pubkey = k) = [r, r'] := by
    simp [hkey, hkey']
  rw [hfilter, List.pairwise_pair, Set.disjoint_left] at hdisjoint
  exact hdisjoint (a := 2 ^ 30 - 1) ⟨by omega, by omega⟩ ⟨by omega, by omega⟩

theorem SharedInv.init (managers : List ManagedKeys) : SharedInv W k { managers } { managers } :=
  ⟨fun _ g hg hcan => ⟨g, hg, hcan⟩, Or.inl rfl, List.Pairwise.nil⟩

end Run

/-- **The counters of a key in a whole wallet.**  In every run the ranges that are reserved for the
key are disjoint and stand for at most 2^30 signatures, if and only if at most one of the managers
is able to reserve counters of the key. -/
theorem shared_counters_iff (W : WalletCrypto) (managers : List ManagedKeys) (k : CPQCPubKey) :
    (∀ steps, let w := run W { managers } steps
      (w.rangesOf k).Pairwise (fun a b => Disjoint a.counters b.counters) ∧
        w.signatures k ≤ 2 ^ 30) ↔ AtMostOneReserves W k { managers } := by
  constructor
  · intro h i j g g' hi hj hcan hcan'
    by_contra hne
    obtain ⟨steps, hsteps⟩ := not_disjoint_of_two hi hj hcan hcan' hne
    exact hsteps (h steps).1
  · intro hone steps
    have hinv := (SharedInv.init managers).run hone steps
    refine ⟨hinv.ordered.imp fun hab => ?_, ?_⟩
    · rw [Set.disjoint_left]
      intro n hn hn'
      exact absurd (hn.2.trans_le hab) (not_lt.mpr hn'.1)
    · obtain hnil | ⟨-, -, -, c, -, -, -, -, hmax, -, hsum⟩ := hinv.owned
      · rw [signatures, hnil]
        exact Nat.zero_le _
      · exact hsum.trans hmax

/-! ## Two descriptors with one key -/

/-- A manager that has the key 0 and has not signed yet. -/
def zeroKeyManager (id : Uint256) : ManagedKeys where
  db := {}
  man :=
    { id
      m_map_pqc_keys := (∅ : KeyMap CPQCKey).insert 0 (List.replicate 64 0)
      m_map_pqc_sig_counters := (∅ : KeyMap UInt32).insert 0 0 }

/-- The provider of one of the managers. -/
def zeroKeyProvider (manager : Nat) : FlatSigningProvider Nat where
  pqc_keys := (∅ : KeyMap CPQCKey).insert 0 (List.replicate 64 0)
  pqc_sig_counters := (∅ : KeyMap UInt32).insert 0 0
  pqc_counter_reserver := some manager
  pqc_counter_batch_reserver := some manager

/-- Two managers with the same key reserve the same counters, also through merged providers. -/
theorem merged_providers_reuse_counters :
    let counts := (∅ : KeyMap UInt32).insert 0 2
    (run firstByteCrypto { managers := [zeroKeyManager 1, zeroKeyManager 2] }
      [.batchReserver ((zeroKeyProvider 0).merge (zeroKeyProvider 1)) (.succeeding []) counts,
        .batchReserver ((zeroKeyProvider 1).merge (zeroKeyProvider 0)) (.succeeding [])
          counts]).rangesOf 0 = [⟨0, 0, 2⟩, ⟨0, 0, 2⟩] :=
  rfl

end Qbit
