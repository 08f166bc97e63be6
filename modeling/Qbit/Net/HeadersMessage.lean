import Qbit.Primitives.Block

/-!
# The `headers` message

A `headers` message is a vector of blocks without transactions, so that each header, with its AuxPoW
payload if it has one, is followed by a zero byte for the number of transactions.  The transport
of a peer refuses a message of more than `MAX_PROTOCOL_MESSAGE_LENGTH` bytes.
-/

open Checked

namespace Qbit

/-- `MAX_PROTOCOL_MESSAGE_LENGTH` -/
def maxProtocolMessageLength : Nat := 4 * 1000 * 1000

/-- The payload bytes of a header that came from a message. -/
def CBlockHeader.auxpowSize (h : CBlockHeader) : Nat :=
  match h.auxpow with
  | none => 0
  | some a =>
    match a.coinbase_tx with
    | none => 0
    | some tx => (a.payloadBytes tx).length

theorem CBlockHeader.OffWire.serialize_ok {h : CBlockHeader} (hwire : h.OffWire) :
    ∃ bytes, h.serialize = .ok bytes ∧ bytes.length = 80 + h.auxpowSize := by
  obtain ⟨hsignal, hcoinbase⟩ := hwire
  cases hpay : h.auxpow with
  | none =>
    rw [hpay] at hsignal
    refine ⟨h.serializePure, ?_, by simp [auxpowSize, hpay]⟩
    simp [serialize, serializeAuxpow, ← hsignal]
  | some a =>
    obtain ⟨tx, htx⟩ := Option.isSome_iff_exists.mp (hcoinbase a hpay)
    refine ⟨h.serializePure ++ a.payloadBytes tx, ?_, by simp [auxpowSize, hpay, htx]⟩
    simp [serialize, serializeAuxpow, ← hsignal, hpay, CAuxPow.serialize, htx]

/-- The elements of the message: blocks that have no transactions. -/
def serializeHeaderBlocks : List CBlockHeader → Result (List UInt8)
  | [] => return []
  | h :: hs => do
    let first ← ({ toCBlockHeader := h } : CBlock).serialize true
    let rest ← serializeHeaderBlocks hs
    return first ++ rest

/-- The bytes of a `headers` message. -/
def serializeHeadersMessage (vHeaders : List CBlockHeader) : Result (List UInt8) := do
  let blocks ← serializeHeaderBlocks vHeaders
  return writeCompactSize vHeaders.length ++ blocks

/-- The payload bytes of a list of headers. -/
def payloadSize (hs : List CBlockHeader) : Nat := (hs.map CBlockHeader.auxpowSize).sum

@[simp] theorem payloadSize_cons (h : CBlockHeader) (hs : List CBlockHeader) :
    payloadSize (h :: hs) = h.auxpowSize + payloadSize hs := rfl

@[simp] theorem payloadSize_append (hs ks : List CBlockHeader) :
    payloadSize (hs ++ ks) = payloadSize hs + payloadSize ks := by
  simp [payloadSize]

theorem serializeHeaderBlocks_ok {hs : List CBlockHeader} (hwire : ∀ h ∈ hs, h.OffWire) :
    ∃ bytes, serializeHeaderBlocks hs = .ok bytes ∧
      bytes.length = 81 * hs.length + payloadSize hs := by
  induction hs with
  | nil => exact ⟨[], rfl, rfl⟩
  | cons h hs ih =>
    obtain ⟨first, hfirst, hlen⟩ := (hwire h List.mem_cons_self).serialize_ok
    obtain ⟨rest, hrest, hrestLen⟩ := ih fun k hk => hwire k (List.mem_cons_of_mem _ hk)
    refine ⟨first ++ [0] ++ rest, ?_, ?_⟩
    · simp only [serializeHeaderBlocks, CBlock.serialize, hfirst, hrest]
      rfl
    · simp only [List.length_append, List.length_cons, List.length_nil, payloadSize_cons]
      omega

/-- **The length of a `headers` message.**  Beside the payloads it is 81 bytes a header, and the
bytes that say how many there are. -/
theorem serializeHeadersMessage_ok {hs : List CBlockHeader} (hwire : ∀ h ∈ hs, h.OffWire) :
    ∃ bytes, serializeHeadersMessage hs = .ok bytes ∧
      bytes.length = (writeCompactSize hs.length).length + 81 * hs.length + payloadSize hs := by
  obtain ⟨blocks, hblocks, hlen⟩ := serializeHeaderBlocks_ok hwire
  refine ⟨writeCompactSize hs.length ++ blocks, ?_, ?_⟩
  · simp [serializeHeadersMessage, hblocks]
  · rw [List.length_append, hlen, Nat.add_assoc]

end Qbit
