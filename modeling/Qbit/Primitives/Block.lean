import Qbit.Lib.Checked
import Qbit.Primitives.Transaction

/-!
# Headers, AuxPoW payloads and blocks

`CPureBlockHeader` is the 80-byte header, and the only part that the block hash covers.
`CBlockHeader` adds the AuxPoW payload, which is written after the 80 bytes when the version says
that there is one: `CPureBlockHeader.signalsAuxpow`.

A `CBlockHeader` in memory can signal AuxPoW and hold no payload, and serializing it then throws; a
payload can hold no coinbase transaction, and serializing it then dereferences a null pointer.
Serialization here reports both as faults.
-/

open Bytes Checked

namespace Qbit

/-! ## The version field -/

def blockVersionTopBits : Int32 := 0x20000000

def blockVersionTopMask : Int32 := 0xE0000000

def blockVersionChainIdMask : UInt32 := 0x1FFFE000

def blockVersionReservedMask : UInt32 := 0x00001E00

def blockVersionAuxpow : Int32 := 0x00000100

variable (version : Int32)

/-- `HasBIP9TopBitsShape` -/
def hasBIP9TopBitsShape : Bool :=
  version &&& blockVersionTopMask == blockVersionTopBits

/-- `BLOCK_VERSION_LAYOUT_MASK` -/
def blockVersionLayoutMask : UInt32 :=
  blockVersionTopMask.toUInt32 ||| blockVersionChainIdMask ||| blockVersionReservedMask |||
    blockVersionAuxpow.toUInt32

/-- `HasCanonicalVersionLayout` -/
def hasCanonicalVersionLayout : Bool :=
  version.toUInt32 &&& blockVersionLayoutMask == 0 || hasBIP9TopBitsShape version

/-- `ExtractChainId` -/
def extractChainId : UInt16 :=
  ((version.toUInt32 &&& blockVersionChainIdMask) >>> 13).toUInt16

/-- `IsAuxpowVersion` -/
def isAuxpowVersion : Bool :=
  hasBIP9TopBitsShape version && version &&& blockVersionAuxpow != 0

/-- `ReservedBits` -/
def reservedBits : UInt8 :=
  ((version.toUInt32 &&& blockVersionReservedMask) >>> 9).toUInt8

/-! ## The pure header -/

structure CPureBlockHeader where
  nVersion : Int32 := 0
  hashPrevBlock : Uint256 := 0
  hashMerkleRoot : Uint256 := 0
  nTime : UInt32 := 0
  nBits : UInt32 := 0
  nNonce : UInt32 := 0
  deriving DecidableEq

namespace CPureBlockHeader

variable (h : CPureBlockHeader)

def signalsAuxpow : Bool := isAuxpowVersion h.nVersion

def getChainId : UInt16 := extractChainId h.nVersion

def hasReservedVersionBits : Bool := reservedBits h.nVersion != 0

/-- `GetBlockTime` -/
def getBlockTime : Int := h.nTime.toNat

/-- The 80 bytes of the header. -/
def serializePure : List UInt8 :=
  serInt32 h.nVersion ++ serUint256 h.hashPrevBlock ++ serUint256 h.hashMerkleRoot ++
    serUint32 h.nTime ++ serUint32 h.nBits ++ serUint32 h.nNonce

/-- `CPureBlockHeader::GetHash` -/
def getHash (hash256 : HashFn) (h : CPureBlockHeader) : Uint256 := hash256 h.serializePure

@[simp] theorem length_serializePure : h.serializePure.length = 80 := by
  simp [serializePure]

end CPureBlockHeader

/-! ## The AuxPoW payload -/

/-- `CAuxPow`: the parent coinbase with its branch to the parent's Merkle root, the branch from the
block's hash to the committed chain root, and the parent header. -/
structure CAuxPow where
  coinbase_tx : Option CTransaction
  coinbase_merkle_branch : List Uint256 := []
  coinbase_branch_index : Int32 := 0
  chain_merkle_branch : List Uint256 := []
  chain_index : Int32 := 0
  parent_block : CPureBlockHeader
  deriving DecidableEq

namespace CAuxPow

/-- The bytes of a payload whose coinbase transaction is `tx`; its witness is not written. -/
def payloadBytes (a : CAuxPow) (tx : CTransaction) : List UInt8 :=
  tx.serialize false ++ serVector serUint256 a.coinbase_merkle_branch ++
    serInt32 a.coinbase_branch_index ++ serVector serUint256 a.chain_merkle_branch ++
    serInt32 a.chain_index ++ a.parent_block.serializePure

def serialize (a : CAuxPow) : Result (List UInt8) :=
  match a.coinbase_tx with
  | none => .error .nullPointer
  | some tx => .ok (a.payloadBytes tx)

def getParentBlockHash (hash256 : HashFn) (a : CAuxPow) : Uint256 := a.parent_block.getHash hash256

end CAuxPow

/-! ## Headers and blocks -/

structure CBlockHeader extends CPureBlockHeader where
  auxpow : Option CAuxPow := none
  deriving DecidableEq

namespace CBlockHeader

variable (h : CBlockHeader)

def hasAuxpow : Bool := h.auxpow.isSome

/-- The bytes that follow the 80-byte header. -/
def serializeAuxpow : Result (List UInt8) :=
  if h.signalsAuxpow then
    match h.auxpow with
    | none => .error .exception
    | some a => a.serialize
  else .ok []

def serialize : Result (List UInt8) := do
  let payload ← h.serializeAuxpow
  return h.serializePure ++ payload

/-- What the deserializer guarantees of a header: a payload, with a coinbase transaction, exactly
when the version signals one. -/
def OffWire : Prop :=
  h.auxpow.isSome = h.signalsAuxpow ∧ ∀ a, h.auxpow = some a → a.coinbase_tx.isSome

end CBlockHeader

structure CBlock extends CBlockHeader where
  vtx : List CTransaction := []
  deriving DecidableEq

namespace CBlock

/-- `CBlock::GetBlockHeader` -/
def getBlockHeader (b : CBlock) : CBlockHeader := b.toCBlockHeader

def serialize (allow_witness : Bool) (b : CBlock) : Result (List UInt8) := do
  let header ← b.toCBlockHeader.serialize
  return header ++ serVector (CTransaction.serialize allow_witness) b.vtx

end CBlock

end Qbit
