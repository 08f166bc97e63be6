import Qbit.Lib.Bytes

/-!
# Transactions and their serialization

The data model of `primitives/transaction.h` with the byte format of `serialize.h`.  Serialization
is a function to byte strings, so that `GetSerializeSize` is a length and a hash is a function of
bytes.  Double SHA-256 is a parameter of everything that hashes: `HashFn`.

`uint256` and `arith_uint256` are both `BitVec 256`; `UintToArith256` reads the 32 bytes of the
former in little-endian order, which is the reading used here throughout.
-/

open Bytes

namespace Qbit

/-- A 256-bit value: `uint256`, `arith_uint256`, `Txid` and `Wtxid`. -/
abbrev Uint256 := BitVec 256

/-- A hash of byte strings to 256 bits, in the place of `HashWriter::GetHash`. -/
abbrev HashFn := List UInt8 → Uint256

/-- A hash that is known on a few byte strings. -/
def tableHash (table : List (List UInt8 × Uint256)) : HashFn := fun bs => (table.lookup bs).getD 0

/-- `CAmount`, an amount in the smallest unit. -/
abbrev CAmount := Int64

/-! ## The byte format -/

def serUint256 (x : Uint256) : List UInt8 := leBytes 32 x.toNat

def serUint32 (x : UInt32) : List UInt8 := leBytes 4 x.toNat

def serInt32 (x : Int32) : List UInt8 := serUint32 x.toUInt32

def serInt64 (x : Int64) : List UInt8 := leBytes 8 x.toUInt64.toNat

/-- `WriteCompactSize` -/
def writeCompactSize (nSize : Nat) : List UInt8 :=
  if nSize < 253 then leBytes 1 nSize
  else if nSize ≤ 0xffff then 253 :: leBytes 2 nSize
  else if nSize ≤ 0xffffffff then 254 :: leBytes 4 nSize
  else 255 :: leBytes 8 nSize

/-- A vector is its length followed by its elements. -/
def serVector {α : Type} (ser : α → List UInt8) (v : List α) : List UInt8 :=
  writeCompactSize v.length ++ v.flatMap ser

/-- A vector of bytes. -/
def serBytes (bs : List UInt8) : List UInt8 := writeCompactSize bs.length ++ bs

@[simp] theorem length_serUint256 (x : Uint256) : (serUint256 x).length = 32 :=
  length_leBytes _ _

@[simp] theorem length_serUint32 (x : UInt32) : (serUint32 x).length = 4 := length_leBytes _ _

@[simp] theorem length_serInt32 (x : Int32) : (serInt32 x).length = 4 := length_leBytes _ _

@[simp] theorem length_serInt64 (x : Int64) : (serInt64 x).length = 8 := length_leBytes _ _

theorem serUint256_injective : Function.Injective serUint256 := by
  intro x y h
  exact BitVec.eq_of_toNat_eq (leBytes_inj (by simpa using x.isLt) (by simpa using y.isLt) h)

theorem serUint256_selfDelimiting : SelfDelimiting serUint256 id :=
  .of_length length_serUint256 fun _ _ h => serUint256_injective h

theorem serUint32_selfDelimiting : SelfDelimiting serUint32 id := by
  refine .of_length length_serUint32 fun x y h => ?_
  exact UInt32.toNat_inj.mp (leBytes_inj (by simpa using x.toNat_lt) (by simpa using y.toNat_lt) h)

theorem serInt64_selfDelimiting : SelfDelimiting serInt64 id := by
  refine .of_length length_serInt64 fun x y h => ?_
  have hnat := leBytes_inj (by simpa using x.toUInt64.toNat_lt) (by simpa using y.toUInt64.toNat_lt)
    h
  cases x
  cases y
  exact congrArg Int64.ofUInt64 (UInt64.toNat_inj.mp hnat)

theorem serUint256_ofLE {bs : List UInt8} (h : bs.length = 32) :
    serUint256 (BitVec.ofNat 256 (ofLE bs)) = bs := by
  have hlt : ofLE bs < 2 ^ 256 := by
    have := ofLE_lt bs
    rwa [h] at this
  rw [serUint256, BitVec.toNat_ofNat, Nat.mod_eq_of_lt hlt]
  exact h ▸ leBytes_ofLE bs

theorem length_writeCompactSize (n : Nat) :
    (writeCompactSize n).length =
      if n < 253 then 1 else if n ≤ 0xffff then 3 else if n ≤ 0xffffffff then 5 else 9 := by
  unfold writeCompactSize
  split_ifs <;> simp

theorem length_writeCompactSize_pos (n : Nat) : 1 ≤ (writeCompactSize n).length := by
  rw [length_writeCompactSize]
  split_ifs <;> omega

@[simp] theorem length_serBytes (bs : List UInt8) :
    (serBytes bs).length = (writeCompactSize bs.length).length + bs.length := by
  simp [serBytes]

theorem length_serVector {α : Type} (ser : α → List UInt8) (v : List α) :
    (serVector ser v).length =
      (writeCompactSize v.length).length + (v.map fun a => (ser a).length).sum := by
  simp [serVector]

/-- The number of bytes that follow a compact size's first byte. -/
def compactSizeWidth (tag : UInt8) : Nat :=
  if tag.toNat < 253 then 0 else if tag = 253 then 2 else if tag = 254 then 4 else 8

/-- Every compact size is a first byte and as many little-endian bytes as that byte announces;
with none to follow, the first byte is the number. -/
theorem writeCompactSize_eq {n : Nat} (hn : n < 2 ^ 64) :
    ∃ tag : UInt8, writeCompactSize n = tag :: leBytes (compactSizeWidth tag) n ∧
      (compactSizeWidth tag = 0 → n = tag.toNat) ∧
      (compactSizeWidth tag ≠ 0 → n < 256 ^ compactSizeWidth tag) := by
  unfold writeCompactSize
  split_ifs with h1 h2 h3
  · have htag : (UInt8.ofNat n).toNat = n := by
      rw [UInt8.toNat_ofNat']
      omega
    refine ⟨UInt8.ofNat n, ?_⟩
    simp [compactSizeWidth, htag, h1, leBytes]
  · exact ⟨253, rfl, fun h => absurd h (by decide), fun _ => by change n < 256 ^ 2; omega⟩
  · exact ⟨254, rfl, fun h => absurd h (by decide), fun _ => by change n < 256 ^ 4; omega⟩
  · exact ⟨255, rfl, fun h => absurd h (by decide), fun _ => by change n < 256 ^ 8; omega⟩

/-- **A compact size can be read back**, and what follows it as well. -/
theorem writeCompactSize_selfDelimiting :
    SelfDelimiting (fun n : Fin (2 ^ 64) => writeCompactSize n) (fun n => n) := by
  intro a b r s h
  obtain ⟨ta, ha, ha0, ha1⟩ := writeCompactSize_eq a.isLt
  obtain ⟨tb, hb, hb0, hb1⟩ := writeCompactSize_eq b.isLt
  simp only [ha, hb, List.cons_append, List.cons.injEq] at h
  obtain ⟨rfl, h⟩ := h
  obtain ⟨hbody, hrest⟩ := List.append_inj h (by simp)
  refine ⟨Fin.ext ?_, hrest⟩
  by_cases hw : compactSizeWidth ta = 0
  · rw [ha0 hw, hb0 hw]
  · exact leBytes_inj (ha1 hw) (hb1 hw) hbody

/-! ## Scripts, outpoints, inputs and outputs -/

/-- A script: a byte string.  Like every container of the source its size fits `size_t`, and the
field says so. -/
structure CScript where
  bytes : List UInt8 := []
  size_lt : bytes.length < 2 ^ 64 := by decide
  deriving DecidableEq

/-- `CScript()` -/
def CScript.empty : CScript := {}

/-- A script of the given bytes; there is none of a size that does not fit. -/
def CScript.ofBytes (bytes : List UInt8) : CScript :=
  if h : bytes.length < 2 ^ 64 then { bytes, size_lt := h } else .empty

theorem CScript.ext_bytes {a b : CScript} (h : a.bytes = b.bytes) : a = b := by
  cases a
  cases b
  cases h
  rfl

def CScript.serialize (s : CScript) : List UInt8 := serBytes s.bytes

theorem CScript.serialize_selfDelimiting : SelfDelimiting CScript.serialize id := by
  intro a b r s h
  obtain ⟨hbytes, hrest⟩ := SelfDelimiting.lengthPrefixed
    (fun a : CScript => a.size_lt) writeCompactSize_selfDelimiting h
  exact ⟨CScript.ext_bytes hbytes, hrest⟩

/-- `COutPoint::NULL_INDEX` -/
def nullIndex : UInt32 := 0xffffffff

structure COutPoint where
  hash : Uint256 := 0
  n : UInt32 := nullIndex
  deriving DecidableEq

def COutPoint.isNull (o : COutPoint) : Bool := o.hash == 0 && o.n == nullIndex

def COutPoint.serialize (o : COutPoint) : List UInt8 := serUint256 o.hash ++ serUint32 o.n

/-- The witness of an input is a stack of byte strings; only the transaction's own serialization
writes it. -/
structure CTxIn where
  prevout : COutPoint
  scriptSig : CScript := .empty
  nSequence : UInt32 := 0xffffffff
  scriptWitness : List (List UInt8) := []
  deriving DecidableEq

def CTxIn.serialize (i : CTxIn) : List UInt8 :=
  i.prevout.serialize ++ i.scriptSig.serialize ++ serUint32 i.nSequence

/-- `CTxIn::SEQUENCE_LOCKTIME_DISABLE_FLAG`, a bit of a sequence number. -/
def sequenceLocktimeDisableFlag : Nat := 1 <<< 31

/-- `CTxIn::SEQUENCE_LOCKTIME_TYPE_FLAG` -/
def sequenceLocktimeTypeFlag : Nat := 1 <<< 22

/-- `CTxIn::SEQUENCE_LOCKTIME_MASK` -/
def sequenceLocktimeMask : Nat := 0x0000ffff

structure CTxOut where
  nValue : CAmount
  scriptPubKey : CScript := .empty
  deriving DecidableEq

def CTxOut.serialize (o : CTxOut) : List UInt8 := serInt64 o.nValue ++ o.scriptPubKey.serialize

/-- The witness stack as the transaction writes it. -/
def serWitness (stack : List (List UInt8)) : List UInt8 := serVector serBytes stack

@[simp] theorem COutPoint.length_serialize (o : COutPoint) : o.serialize.length = 36 := by rfl

theorem COutPoint.serialize_selfDelimiting : SelfDelimiting COutPoint.serialize id := by
  intro a b r s h
  obtain ⟨hparts, hrest⟩ := ((serUint256_selfDelimiting.comp COutPoint.hash).append
    (serUint32_selfDelimiting.comp COutPoint.n)) h
  obtain ⟨hhash, hn⟩ := Prod.ext_iff.mp hparts
  cases a
  cases b
  cases hhash
  cases hn
  exact ⟨rfl, hrest⟩

theorem CTxOut.serialize_selfDelimiting : SelfDelimiting CTxOut.serialize id := by
  intro a b r s h
  obtain ⟨hparts, hrest⟩ := ((serInt64_selfDelimiting.comp CTxOut.nValue).append
    (CScript.serialize_selfDelimiting.comp CTxOut.scriptPubKey)) h
  obtain ⟨hvalue, hscript⟩ := Prod.ext_iff.mp hparts
  cases a
  cases b
  cases hvalue
  cases hscript
  exact ⟨rfl, hrest⟩

/-! ## Transactions -/

structure CTransaction where
  vin : List CTxIn
  vout : List CTxOut
  version : UInt32 := 2
  nLockTime : UInt32 := 0
  deriving DecidableEq

namespace CTransaction

def hasWitness (tx : CTransaction) : Bool := tx.vin.any fun i => !i.scriptWitness.isEmpty

def isCoinBase (tx : CTransaction) : Bool :=
  match tx.vin with
  | [i] => i.prevout.isNull
  | _ => false

/-- `SerializeTransaction`.  The extended form, with an empty input vector and a flag byte in front
and the witness stacks behind, is used when witnesses are allowed and there is one. -/
def serialize (allow_witness : Bool) (tx : CTransaction) : List UInt8 :=
  serUint32 tx.version ++
    (if allow_witness && tx.hasWitness then
      serVector CTxIn.serialize [] ++ [1] ++ serVector CTxIn.serialize tx.vin ++
        serVector CTxOut.serialize tx.vout ++ tx.vin.flatMap (fun i => serWitness i.scriptWitness)
    else
      serVector CTxIn.serialize tx.vin ++ serVector CTxOut.serialize tx.vout) ++
    serUint32 tx.nLockTime

/-- `CTransaction::ComputeHash` -/
def getHash (hash256 : HashFn) (tx : CTransaction) : Uint256 := hash256 (tx.serialize false)

/-- `CTransaction::ComputeWitnessHash` -/
def getWitnessHash (hash256 : HashFn) (tx : CTransaction) : Uint256 :=
  if tx.hasWitness then hash256 (tx.serialize true) else tx.getHash hash256

end CTransaction

end Qbit
