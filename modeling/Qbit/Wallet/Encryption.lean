import Qbit.Wallet.DescriptorMan

/-!
# Encrypted PQC keys

`Encrypt` and `CheckDecryptionKey` of `DescriptorScriptPubKeyMan`, as far as they deal with PQC keys.
`Encrypt` replaces the keys in memory by encrypted ones and writes their records.  An unlock calls
`CheckDecryptionKey`, which decrypts the keys; a key whose authentication tag is wrong is rejected,
and a key of an older wallet that has no tag gets one.

The ECDSA keys of the descriptor are not modelled.  What the two functions learn from them, and what
the database answers, is in `EncryptEnv` and `UnlockEnv`.
-/

open Bytes Checked

namespace Qbit

/-- `DecryptPQCKey`: the key, and the tag for a record that has none. -/
def WalletCrypto.decryptPQCKey (W : WalletCrypto) (master_key : List UInt8) (desc_id : Uint256)
    (crypted_key : CryptedPQCKeyRecord) (pubkey : CPQCPubKey) (sig_counter : UInt32) :
    Option (CPQCKey × Option Uint256) := do
  let secret ← W.decryptSecret master_key crypted_key.crypted_secret (W.getPQCKeyIV pubkey)
  if secret.length ≠ pqcSeckeySize then none
  else
    let auth_tag := W.getCryptedPQCKeyAuthTag master_key desc_id pubkey secret sig_counter
    match crypted_key.auth_tag with
    | some tag =>
      if auth_tag ≠ tag then none
      -- `SetFromTrustedWalletRecord` does not validate the key again.
      else if secret.drop (pqcSeckeySize - 32) ≠ serUint256 pubkey then none
      else some (secret, none)
    | none => if W.isKeyOf secret pubkey then some (secret, some auth_tag) else none

namespace DescriptorMan

variable (W : WalletCrypto) (m : DescriptorMan)

/-! ## Encrypting the wallet -/

/-- What the wallet and the database do while a descriptor is encrypted. -/
structure EncryptEnv where
  /-- `m_map_crypted_keys` is not empty. -/
  has_crypted_keys : Bool
  /-- All keys of `m_map_keys` can be encrypted. -/
  keys_encrypted : Bool
  /-- The write of the key's record succeeds. -/
  written : CPQCPubKey → Bool
  /-- The removal of the key's plaintext record succeeds. -/
  erased : CPQCPubKey → Bool

/-- `HasBlockedPlaintextPQCKeys` -/
def hasBlockedPlaintextPQCKeys : Bool :=
  !m.m_pending_plaintext_pqc_keys.entries.isEmpty || decide (m.m_failed_plaintext_pqc_keys ≠ ∅)

/-- The loop of `Encrypt` over the PQC keys. -/
def encryptPQCKeys (master_key : List UInt8) (env : EncryptEnv) :
    PQCRecords → DescriptorMan → List (Sigma fun _ : CPQCPubKey => CPQCKey) →
      Bool × PQCRecords × DescriptorMan
  | db, m, [] => (true, db, m)
  | db, m, ⟨pubkey, key⟩ :: keys =>
    match W.encryptSecret master_key key (W.getPQCKeyIV pubkey) with
    | none => (false, db, m)
    | some crypted_secret =>
      let sig_counter := (m.m_map_pqc_sig_counters.lookup pubkey).getD 0
      let auth_tag := W.getCryptedPQCKeyAuthTag master_key m.id pubkey key sig_counter
      -- Whether the write succeeds is not looked at.
      let db := if env.written pubkey then
          db.writeCryptedDescriptorPQCKey pubkey crypted_secret sig_counter auth_tag
            (env.erased pubkey)
        else db
      encryptPQCKeys master_key env db
        { m with
          m_map_crypted_pqc_keys := m.m_map_crypted_pqc_keys.insert pubkey
            { crypted_secret, auth_tag := some auth_tag } } keys

/-- `Encrypt`: the answer, the records as the batch has them, and the manager. -/
def encrypt (master_key : List UInt8) (env : EncryptEnv) (db : PQCRecords) :
    Bool × PQCRecords × DescriptorMan :=
  if m.hasBlockedPlaintextPQCKeys then (false, db, m)
  else if env.has_crypted_keys || !m.m_map_crypted_pqc_keys.entries.isEmpty then (false, db, m)
  else if !env.keys_encrypted then (false, db, m)
  else
    match encryptPQCKeys W master_key env db m m.m_map_pqc_keys.entries with
    | (false, db, m) => (false, db, m)
    | (true, db, m) => (true, db, { m with m_map_pqc_keys := ∅ })

/-! ## Unlocking the wallet -/

/-- What the wallet and the database do while a key is checked. -/
structure UnlockEnv where
  /-- `m_map_keys` is not empty. -/
  has_keys : Bool
  /-- `m_map_crypted_keys` is not empty. -/
  has_crypted_keys : Bool
  /-- A key of `m_map_crypted_keys` could be decrypted. -/
  key_passed : Bool
  /-- A key of `m_map_crypted_keys` could not be decrypted. -/
  key_failed : Bool
  /-- `m_decryption_thoroughly_checked` -/
  thoroughly_checked : Bool
  /-- The write of the key's record succeeds. -/
  written : CPQCPubKey → Bool
  /-- The removal of the key's plaintext record succeeds. -/
  erased : CPQCPubKey → Bool

/-- Give a key that has no tag the one that was computed for it, if the write succeeds. -/
def upgradeRecord (env : UnlockEnv) (db : PQCRecords) (pubkey : CPQCPubKey)
    (crypted_key : CryptedPQCKeyRecord) (sig_counter : UInt32) :
    Option Uint256 → PQCRecords × DescriptorMan
  | none => (db, m)
  | some auth_tag =>
    if env.written pubkey then
      (db.writeCryptedDescriptorPQCKey pubkey crypted_key.crypted_secret sig_counter auth_tag
        (env.erased pubkey),
        { m with
          m_map_crypted_pqc_keys := m.m_map_crypted_pqc_keys.insert pubkey
            { crypted_key with auth_tag := some auth_tag } })
    else (db, m)

/-- The loop of `CheckDecryptionKey` over the PQC keys: whether a key has passed, whether one has
failed, the records and the manager. -/
def checkPQCKeys (master_key : List UInt8) (env : UnlockEnv) (has_legacy_crypted_pqc_keys : Bool) :
    Bool → PQCRecords → DescriptorMan → List (Sigma fun _ : CPQCPubKey => CryptedPQCKeyRecord) →
      Bool × Bool × PQCRecords × DescriptorMan
  | keyPass, db, m, [] => (keyPass, false, db, m)
  | keyPass, db, m, ⟨pubkey, crypted_key⟩ :: keys =>
    let sig_counter := (m.m_map_pqc_sig_counters.lookup pubkey).getD 0
    match W.decryptPQCKey master_key m.id crypted_key pubkey sig_counter with
    | none => (keyPass, true, db, m)
    | some (_, legacy_auth_tag) =>
      let (db, m) := m.upgradeRecord env db pubkey crypted_key sig_counter legacy_auth_tag
      if env.thoroughly_checked && !has_legacy_crypted_pqc_keys then (true, false, db, m)
      else checkPQCKeys master_key env has_legacy_crypted_pqc_keys true db m keys

/-- `CheckDecryptionKey`: the answer, the records and the manager.  It throws if some keys can be
decrypted and others cannot. -/
def checkDecryptionKey (master_key : List UInt8) (env : UnlockEnv) (db : PQCRecords) :
    Result Bool × PQCRecords × DescriptorMan :=
  let no_crypted_keys := !env.has_crypted_keys && m.m_map_crypted_pqc_keys.entries.isEmpty
  if env.has_keys || (!m.m_map_pqc_keys.entries.isEmpty && no_crypted_keys) then (.ok false, db, m)
  else
    let has_legacy_crypted_pqc_keys :=
      m.m_map_crypted_pqc_keys.entries.any fun entry => entry.2.auth_tag.isNone
    let keyPass := no_crypted_keys || env.key_passed
    let (keyPass, keyFail, db, m) :=
      if env.key_failed then (keyPass, true, db, m)
      else checkPQCKeys W master_key env has_legacy_crypted_pqc_keys keyPass db m
        m.m_map_crypted_pqc_keys.entries
    if keyPass && keyFail then (.error .exception, db, m)
    else (.ok (keyPass && !keyFail), db, m)

end DescriptorMan

end Qbit
