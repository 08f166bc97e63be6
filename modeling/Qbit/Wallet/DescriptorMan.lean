import Mathlib.Data.List.AList
import Qbit.Script.Checker

/-!
# PQC keys of a descriptor

`DescriptorScriptPubKeyMan` of `wallet/scriptpubkeyman.cpp`, as far as it deals with PQC keys, and
the database records behind it.  A PQC key may make a bounded number of signatures.  The manager
counts them: before signatures are made, a range of counters is reserved, in the database first and
then in memory.

The database has a record for each key, with the key in plaintext or encrypted, and the counter.  A
plaintext key that was loaded is pending until it has been validated; it may not be used until then,
nor afterwards if the validation failed.

Public keys are valid ones, as arrays of 32 bytes.  Maps are association lists, whose order does not
matter.
-/

open Bytes

namespace Qbit

/-! ## Keys and records -/

/-- A valid `CPQCPubKey`. -/
abbrev CPQCPubKey := Uint256

/-- The bytes of a `CPQCKey`. -/
abbrev CPQCKey := List UInt8

/-- `std::map` -/
abbrev KeyMap (α : Type) := AList fun _ : CPQCPubKey => α

/-- `PQC_MAX_SIGNATURES` -/
def pqcMaxSignatures : UInt32 := 0x40000000

/-- `PQC_SECKEY_SIZE` -/
def pqcSeckeySize : Nat := 64

/-- The cryptography that the wallet uses for PQC keys. -/
structure WalletCrypto where
  hash : HashFn
  /-- `CHMAC_SHA256` with a key. -/
  hmacSha256 : List UInt8 → List UInt8 → Uint256
  /-- `slh_dsa_secret_key_validate`, true if the key is valid. -/
  secretKeyValidate : List UInt8 → Bool
  /-- `EncryptSecret` on the key, the secret and the initialization vector. -/
  encryptSecret : List UInt8 → List UInt8 → Uint256 → Option (List UInt8)
  /-- `DecryptSecret` -/
  decryptSecret : List UInt8 → List UInt8 → Uint256 → Option (List UInt8)

namespace WalletCrypto

variable (W : WalletCrypto)

/-- `GetPQCKeyIV` -/
def getPQCKeyIV (pubkey : CPQCPubKey) : Uint256 := W.hash (serUint256 pubkey)

/-- `GetCryptedPQCKeyAuthTag` -/
def getCryptedPQCKeyAuthTag (master_key : List UInt8) (desc_id : Uint256) (pubkey : CPQCPubKey)
    (secret : List UInt8) (sig_counter : UInt32) : Uint256 :=
  W.hmacSha256 master_key ("qbit wallet pqc ckey v1".toList.map (fun c => UInt8.ofNat c.toNat) ++
    serUint256 desc_id ++ serUint256 pubkey ++ secret ++ serUint32 sig_counter)

/-- `CPQCKey::Set` on these bytes gives a valid key with this public key, which is the tail of the
secret key. -/
def isKeyOf (secret : List UInt8) (pubkey : CPQCPubKey) : Bool :=
  secret.length == pqcSeckeySize && W.secretKeyValidate secret &&
    secret.drop (pqcSeckeySize - 32) == serUint256 pubkey

end WalletCrypto

/-- A record `WALLETDESCRIPTORPQCKEY`.  Older records have no counter. -/
structure PlaintextPQCRecord where
  privkey : List UInt8
  hash : Uint256
  sig_counter : Option UInt32

/-- A record `WALLETDESCRIPTORPQCCKEY`.  Older records have no authentication tag, or no counter
either. -/
structure CryptedPQCRecord where
  crypted_secret : List UInt8
  sig_counter : Option UInt32
  auth_tag : Option Uint256

/-- The records of one descriptor's PQC keys in the wallet database. -/
structure PQCRecords where
  plaintext : KeyMap PlaintextPQCRecord := ∅
  crypted : KeyMap CryptedPQCRecord := ∅

namespace PQCRecords

/-- The counter that is stored for a key: the one of the encrypted record, if there is one. -/
def sigCounter (db : PQCRecords) (pubkey : CPQCPubKey) : Option UInt32 :=
  match db.crypted.lookup pubkey with
  | some r => some (r.sig_counter.getD 0)
  | none => (db.plaintext.lookup pubkey).map fun r => r.sig_counter.getD 0

/-- `WriteDescriptorPQCKey`, when the write succeeds. -/
def writeDescriptorPQCKey (W : WalletCrypto) (db : PQCRecords) (pubkey : CPQCPubKey)
    (privkey : CPQCKey) (sig_counter : UInt32) : PQCRecords :=
  { db with
    plaintext := db.plaintext.insert pubkey
      { privkey
        hash := W.hash (serUint256 pubkey ++ privkey ++ serUint32 sig_counter)
        sig_counter := some sig_counter } }

/-- `WriteCryptedDescriptorPQCKey`, when the write succeeds; `erased` tells if the plaintext record
could be removed, which is not checked. -/
def writeCryptedDescriptorPQCKey (db : PQCRecords) (pubkey : CPQCPubKey) (secret : List UInt8)
    (sig_counter : UInt32) (auth_tag : Uint256) (erased : Bool) : PQCRecords where
  plaintext := if erased then db.plaintext.erase pubkey else db.plaintext
  crypted := db.crypted.insert pubkey
    { crypted_secret := secret, sig_counter := some sig_counter, auth_tag := some auth_tag }

end PQCRecords

/-! ## The manager -/

/-- `CryptedPQCKeyRecord` -/
structure CryptedPQCKeyRecord where
  crypted_secret : List UInt8
  auth_tag : Option Uint256

/-- `PendingPlaintextPQCKey` -/
structure PendingPlaintextPQCKey where
  secret : List UInt8
  sig_counter : UInt32

/-- The PQC keys of a `DescriptorScriptPubKeyMan`. -/
structure DescriptorMan where
  id : Uint256
  m_map_pqc_keys : KeyMap CPQCKey := ∅
  m_map_crypted_pqc_keys : KeyMap CryptedPQCKeyRecord := ∅
  m_pending_plaintext_pqc_keys : KeyMap PendingPlaintextPQCKey := ∅
  m_failed_plaintext_pqc_keys : Finset CPQCPubKey := ∅
  m_map_pqc_sig_counters : KeyMap UInt32 := ∅

namespace DescriptorMan

variable (W : WalletCrypto) (m : DescriptorMan)

variable (pubkey : CPQCPubKey)

/-- `IsPlaintextPQCKeyBlocked` -/
def isPlaintextPQCKeyBlocked : Bool :=
  decide (pubkey ∈ m.m_pending_plaintext_pqc_keys) ||
    (decide (pubkey ∈ m.m_failed_plaintext_pqc_keys) &&
      !decide (pubkey ∈ m.m_map_crypted_pqc_keys))

/-! ### Loading -/

/-- `AddPendingPlaintextPQCKey` -/
def addPendingPlaintextPQCKey (secret : List UInt8) (sig_counter : UInt32) : Option DescriptorMan :=
  if pubkey ∈ m.m_map_pqc_keys ∨ pubkey ∈ m.m_pending_plaintext_pqc_keys then none
  else some { m with
    m_failed_plaintext_pqc_keys := m.m_failed_plaintext_pqc_keys.erase pubkey
    m_pending_plaintext_pqc_keys :=
      m.m_pending_plaintext_pqc_keys.insert pubkey { secret, sig_counter }
    m_map_pqc_sig_counters := m.m_map_pqc_sig_counters.insert pubkey sig_counter }

/-- `AddCryptedPQCKey`; whether it fails is not looked at. -/
def addCryptedPQCKey (crypted_secret : List UInt8) (sig_counter : UInt32)
    (auth_tag : Option Uint256) : DescriptorMan :=
  if !m.m_map_pqc_keys.entries.isEmpty then m
  else { m with
    m_map_crypted_pqc_keys := m.m_map_crypted_pqc_keys.insert pubkey { crypted_secret, auth_tag }
    m_map_pqc_sig_counters := m.m_map_pqc_sig_counters.insert pubkey sig_counter }

/-- A plaintext record of `LoadDescriptorWalletRecords`; there is no answer if it is corrupt. -/
def loadPlaintext (r : PlaintextPQCRecord) : Option DescriptorMan :=
  let hashed := serUint256 pubkey ++ r.privkey ++ (r.sig_counter.map serUint32).getD []
  if r.privkey.length ≠ pqcSeckeySize then none
  else if W.hash hashed ≠ r.hash then none
  else if r.privkey.drop (r.privkey.length - 32) ≠ serUint256 pubkey then none
  else m.addPendingPlaintextPQCKey pubkey r.privkey (r.sig_counter.getD 0)

/-- `LoadDescriptorWalletRecords`: first the plaintext records, then the encrypted ones.  A corrupt
record keeps the wallet from being opened. -/
def load (id : Uint256) (db : PQCRecords) : Option DescriptorMan := do
  let m ← db.plaintext.entries.foldlM (fun m r => loadPlaintext W m r.1 r.2) { id }
  return db.crypted.entries.foldl (fun m r =>
    m.addCryptedPQCKey r.1 r.2.crypted_secret (r.2.sig_counter.getD 0) r.2.auth_tag) m

/-! ### Validation -/

/-- `GetNextPendingPlaintextPQCKey` -/
def getNextPendingPlaintextPQCKey : Option (CPQCPubKey × PendingPlaintextPQCKey) :=
  m.m_pending_plaintext_pqc_keys.entries.head?.map fun r => (r.1, r.2)

/-- `CompletePendingPlaintextPQCKeyValidation` -/
def completePendingPlaintextPQCKeyValidation (key : CPQCKey) (sig_counter : UInt32) :
    DescriptorMan :=
  if pubkey ∉ m.m_pending_plaintext_pqc_keys then m
  else
    let m := if pubkey ∈ m.m_map_crypted_pqc_keys then m
      else { m with
        m_map_pqc_keys := m.m_map_pqc_keys.insert pubkey key
        m_map_pqc_sig_counters := m.m_map_pqc_sig_counters.insert pubkey sig_counter }
    { m with
      m_pending_plaintext_pqc_keys := m.m_pending_plaintext_pqc_keys.erase pubkey
      m_failed_plaintext_pqc_keys := m.m_failed_plaintext_pqc_keys.erase pubkey }

/-- `FailPendingPlaintextPQCKeyValidation` -/
def failPendingPlaintextPQCKeyValidation : DescriptorMan :=
  if pubkey ∉ m.m_pending_plaintext_pqc_keys then m
  else { m with
    m_pending_plaintext_pqc_keys := m.m_pending_plaintext_pqc_keys.erase pubkey
    m_failed_plaintext_pqc_keys := insert pubkey m.m_failed_plaintext_pqc_keys }

/-- The second half of `RunPlaintextPQCKeyValidationStep`, on the pending key that it has fetched. -/
def finishValidation (pending : PendingPlaintextPQCKey) : DescriptorMan :=
  if W.isKeyOf pending.secret pubkey then
    m.completePendingPlaintextPQCKeyValidation pubkey pending.secret pending.sig_counter
  else m.failPendingPlaintextPQCKeyValidation pubkey

/-! ### Adding keys -/

/-- A key that a top-up adds, with what the wallet and the database say to it. -/
structure PQCKeyToAdd where
  pubkey : CPQCPubKey
  key : CPQCKey
  has_encryption_keys : Bool
  encryption_key : Option (List UInt8)
  /-- The write of the record succeeds. -/
  written : Bool
  /-- The removal of the plaintext record succeeds. -/
  erased : Bool

/-- `AddDescriptorPQCKeyWithDB`: the answer, the records and the manager. -/
def addDescriptorPQCKeyWithDB (db : PQCRecords) (a : PQCKeyToAdd) :
    Bool × PQCRecords × DescriptorMan :=
  -- `emplace` keeps the counter that is there.
  let counters := if a.pubkey ∈ m.m_map_pqc_sig_counters then m.m_map_pqc_sig_counters
    else m.m_map_pqc_sig_counters.insert a.pubkey 0
  if a.pubkey ∈ m.m_map_pqc_keys ∨ a.pubkey ∈ m.m_map_crypted_pqc_keys ∨
      a.pubkey ∈ m.m_pending_plaintext_pqc_keys then (true, db, m)
  else if a.has_encryption_keys then
    match a.encryption_key with
    | none => (false, db, m)
    | some encryption_key =>
      match W.encryptSecret encryption_key a.key (W.getPQCKeyIV a.pubkey) with
      | none => (false, db, m)
      | some crypted_secret =>
        let auth_tag := W.getCryptedPQCKeyAuthTag encryption_key m.id a.pubkey a.key 0
        if !a.written then
          (false, db,
            { m with m_map_crypted_pqc_keys := m.m_map_crypted_pqc_keys.erase a.pubkey })
        else (true, db.writeCryptedDescriptorPQCKey a.pubkey crypted_secret 0 auth_tag a.erased,
          { m with
            m_map_crypted_pqc_keys := m.m_map_crypted_pqc_keys.insert a.pubkey
              { crypted_secret, auth_tag := some auth_tag }
            m_map_pqc_sig_counters := counters })
  else if !a.written then
    (false, db, { m with m_map_pqc_keys := m.m_map_pqc_keys.erase a.pubkey })
  else (true, db.writeDescriptorPQCKey W a.pubkey a.key 0,
    { m with
      m_map_pqc_keys := m.m_map_pqc_keys.insert a.pubkey a.key
      m_map_pqc_sig_counters := counters })

/-- The keys that a top-up adds, up to the first that cannot be added. -/
def addDescriptorPQCKeys : PQCRecords → DescriptorMan → List PQCKeyToAdd →
    PQCRecords × DescriptorMan
  | db, m, [] => (db, m)
  | db, m, a :: adds =>
    match m.addDescriptorPQCKeyWithDB W db a with
    | (true, db, m) => addDescriptorPQCKeys db m adds
    | (false, db, m) => (db, m)

/-! ### Reserving counters -/

/-- `PQCSignatureCounterRange` -/
structure PQCSignatureCounterRange where
  pubkey : CPQCPubKey
  previous_counter : UInt32
  reserved_counter : UInt32
  deriving DecidableEq

/-- What the wallet and the database do during a reservation. -/
structure ReservationEnv where
  /-- `vMasterKey`, which is empty in a locked wallet. -/
  encryption_key : List UInt8
  txnBegin : Bool
  /-- The write of the key's record succeeds. -/
  written : CPQCPubKey → Bool
  /-- The removal of the key's plaintext record succeeds. -/
  erased : CPQCPubKey → Bool
  txnCommit : Bool

/-- The range that is reserved for a key. -/
def reserveRange (pubkey : CPQCPubKey) (count : UInt32) : Option PQCSignatureCounterRange :=
  if m.isPlaintextPQCKeyBlocked pubkey then none
  else if pubkey ∉ m.m_map_pqc_keys ∧ pubkey ∉ m.m_map_crypted_pqc_keys then none
  else match m.m_map_pqc_sig_counters.lookup pubkey with
    | none => none
    | some counter =>
      if counter > pqcMaxSignatures - count then none
      else some { pubkey, previous_counter := counter, reserved_counter := counter + count }

/-- The ranges that are reserved, for all keys or for none. -/
def reserveRanges : List (Sigma fun _ : CPQCPubKey => UInt32) →
    Option (List PQCSignatureCounterRange)
  | [] => some []
  | c :: counts => do
    let range ← m.reserveRange c.1 c.2
    let ranges ← reserveRanges counts
    return range :: ranges

/-- The new authentication tags of the encrypted keys among the ranges. -/
def cryptedUpdates (encryption_key : List UInt8) :
    List PQCSignatureCounterRange → Option (List (CPQCPubKey × Uint256))
  | [] => some []
  | range :: ranges =>
    match m.m_map_crypted_pqc_keys.lookup range.pubkey with
    | none => cryptedUpdates encryption_key ranges
    | some crypted_key => do
      let secret ← W.decryptSecret encryption_key crypted_key.crypted_secret
        (W.getPQCKeyIV range.pubkey)
      if secret.length ≠ pqcSeckeySize then none
      else
        let updates ← cryptedUpdates encryption_key ranges
        return (range.pubkey, W.getCryptedPQCKeyAuthTag encryption_key m.id range.pubkey secret
          range.reserved_counter) :: updates

/-- Write the record of a range. -/
def writeRange (env : ReservationEnv) (updates : List (CPQCPubKey × Uint256)) (db : PQCRecords)
    (range : PQCSignatureCounterRange) : Option PQCRecords :=
  match m.m_map_pqc_keys.lookup range.pubkey with
  | some key =>
    if env.written range.pubkey then
      some (db.writeDescriptorPQCKey W range.pubkey key range.reserved_counter)
    else none
  | none =>
    match m.m_map_crypted_pqc_keys.lookup range.pubkey, updates.lookup range.pubkey with
    | some crypted_key, some auth_tag =>
      if env.written range.pubkey then
        some (db.writeCryptedDescriptorPQCKey range.pubkey crypted_key.crypted_secret
          range.reserved_counter auth_tag (env.erased range.pubkey))
      else none
    | _, _ => none

/-- The changes in memory after the commit. -/
def commitRange (updates : List (CPQCPubKey × Uint256)) (range : PQCSignatureCounterRange) :
    DescriptorMan :=
  { m with
    m_map_pqc_sig_counters :=
      m.m_map_pqc_sig_counters.insert range.pubkey range.reserved_counter
    m_map_crypted_pqc_keys :=
      match m.m_map_crypted_pqc_keys.lookup range.pubkey, updates.lookup range.pubkey with
      | some crypted_key, some auth_tag =>
        m.m_map_crypted_pqc_keys.insert range.pubkey
          { crypted_key with auth_tag := some auth_tag }
      | _, _ => m.m_map_crypted_pqc_keys }

/-- `ReservePQCSignatureCountersBatch`.  If it fails then neither the records, whose transaction is
aborted, nor the manager have changed. -/
def reservePQCSignatureCountersBatch (env : ReservationEnv) (db : PQCRecords)
    (counts : KeyMap UInt32) :
    Option (List PQCSignatureCounterRange × PQCRecords × DescriptorMan) := do
  if counts.entries.isEmpty then none
  else if counts.entries.any fun c => decide (c.2 = 0 ∨ c.2 > pqcMaxSignatures) then none
  else
    let ranges ← m.reserveRanges counts.entries
    let updates ← m.cryptedUpdates W env.encryption_key ranges
    if !env.txnBegin then none
    else
      let db ← ranges.foldlM (m.writeRange W env updates) db
      if !env.txnCommit then none
      else return (ranges, db, ranges.foldl (fun m range => m.commitRange updates range) m)

end DescriptorMan

end Qbit
