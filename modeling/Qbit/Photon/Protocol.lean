import Qbit.Lib.Decode

/-!
# The Photon packet format

The wire format of `contrib/photon/src/protocol.cpp`: packets of one fixed size, the payloads they
carry, and the MAC over them.

* A `Packet` has its MAC and its payload as arrays of fixed size, so `serializePacket` has nothing
  to check; `parsePacket` reads a packet back and is where the payloads are validated.
* `SynPayload`, `BlockHeaderPayload` and `BlockChunkPayload` each have an encoder and a decoder, and
  the decoder reads back what the encoder wrote.
* The MAC is the front of an HMAC, which is a parameter, over everything in the packet but the MAC
  itself.  What is signed starts with the session id, except in the handshake.
-/

open Bytes Decode

namespace Qbit.Photon

def kPacketSize : Nat := 1232

def kMacSize : Nat := 16

def kPayloadSize : Nat := 1208

def kMacOffset : Nat := 4

def kCounterOffset : Nat := 20

def kProtocolMagic : UInt16 := 0x5142

def kProtocolVersion : UInt8 := 1

def kFecChunkSize : Nat := 1194

def kMaxChunkId : UInt8 := 254

/-- `std::array<std::uint8_t, n>` -/
abbrev ByteArr (n : Nat) := { bs : List UInt8 // bs.length = n }

/-- An array value-initialised with zeros. -/
def ByteArr.zero (n : Nat) : ByteArr n := ⟨List.replicate n 0, List.length_replicate⟩

/-- An array of zeros with the front of a byte string copied into it. -/
def ByteArr.ofFront (n : Nat) (bs : List UInt8) : ByteArr n :=
  ⟨(bs ++ List.replicate n 0).take n, by simp⟩

theorem ByteArr.val_ofFront {n : Nat} {bs : List UInt8} (h : n ≤ bs.length) :
    (ByteArr.ofFront n bs).1 = bs.take n := List.take_append_of_le_length h

inductive MessageType where
  | kSyn
  | kSynAck
  | kKeepalive
  | kDisconnect
  | kBlockHeader
  | kBlockChunk
  | kPing
  | kPong
  deriving DecidableEq, Repr

namespace MessageType

/-- The byte that stands for the type on the wire. -/
def raw : MessageType → UInt8
  | kSyn => 0x00
  | kSynAck => 0x01
  | kKeepalive => 0x02
  | kDisconnect => 0x03
  | kBlockHeader => 0x10
  | kBlockChunk => 0x11
  | kPing => 0x20
  | kPong => 0x21

/-- The type of a byte for which `IsKnownMessageType` holds. -/
def ofRaw (raw_type : UInt8) : Option MessageType :=
  [kSyn, kSynAck, kKeepalive, kDisconnect, kBlockHeader, kBlockChunk, kPing, kPong].find?
    (·.raw == raw_type)

theorem ofRaw_raw (t : MessageType) : ofRaw t.raw = some t := by
  cases t <;> rfl

theorem raw_injective : Function.Injective raw := by
  intro t u h
  have hsome : some t = some u := by
    rw [← ofRaw_raw t, h, ofRaw_raw]
  exact Option.some.inj hsome

end MessageType

/-- `IsHandshakeMessage` -/
def isHandshakeMessage (msg_type : MessageType) : Bool :=
  msg_type == .kSyn || msg_type == .kSynAck

inductive ParseError where
  | kInvalidPacketSize
  | kInvalidMagic
  | kUnsupportedVersion
  | kUnknownMessageType
  | kInvalidReservedBits
  | kInvalidVersionRange
  | kInvalidChunkId
  | kInvalidChunkLength
  deriving DecidableEq, Repr

structure Packet where
  magic : UInt16
  version : UInt8
  msg_type : MessageType
  mac : ByteArr kMacSize
  counter : UInt32
  payload : ByteArr kPayloadSize
  deriving DecidableEq

/-- `MakePacket` -/
def makePacket (msg_type : MessageType) (counter : UInt32) : Packet where
  magic := kProtocolMagic
  version := kProtocolVersion
  msg_type := msg_type
  mac := .zero kMacSize
  counter := counter
  payload := .zero kPayloadSize

/-! ## Reading numbers -/

def byte : Reader UInt8 := UInt8.ofNat <$> number 1

def loadLE16 : Reader UInt16 := UInt16.ofNat <$> number 2

def loadLE32 : Reader UInt32 := UInt32.ofNat <$> number 4

def loadLE64 : Reader UInt64 := UInt64.ofNat <$> number 8

def storeLE16 (value : UInt16) : List UInt8 := leBytes 2 value.toNat

def storeLE32 (value : UInt32) : List UInt8 := leBytes 4 value.toNat

def storeLE64 (value : UInt64) : List UInt8 := leBytes 8 value.toNat

@[simp] theorem length_storeLE16 (value : UInt16) : (storeLE16 value).length = 2 :=
  length_leBytes _ _

@[simp] theorem length_storeLE32 (value : UInt32) : (storeLE32 value).length = 4 :=
  length_leBytes _ _

@[simp] theorem length_storeLE64 (value : UInt64) : (storeLE64 value).length = 8 :=
  length_leBytes _ _

theorem storeLE64_injective : Function.Injective storeLE64 := by
  intro a b h
  exact UInt64.toNat_inj.mp (leBytes_inj a.toNat_lt b.toNat_lt h)

theorem reads_byte (b : UInt8) : Reads byte [b] b := by
  have h := (Reads.number (k := 1) b.toNat_lt).map UInt8.ofNat
  rwa [UInt8.ofNat_toNat, show leBytes 1 b.toNat = [b] by simp [leBytes]] at h

theorem reads_loadLE16 (value : UInt16) : Reads loadLE16 (storeLE16 value) value := by
  have h := (Reads.number (k := 2) value.toNat_lt).map UInt16.ofNat
  rwa [UInt16.ofNat_toNat] at h

theorem reads_loadLE32 (value : UInt32) : Reads loadLE32 (storeLE32 value) value := by
  have h := (Reads.number (k := 4) value.toNat_lt).map UInt32.ofNat
  rwa [UInt32.ofNat_toNat] at h

theorem reads_loadLE64 (value : UInt64) : Reads loadLE64 (storeLE64 value) value := by
  have h := (Reads.number (k := 8) value.toNat_lt).map UInt64.ofNat
  rwa [UInt64.ofNat_toNat] at h

/-- `IsAllZero` -/
def isAllZero (data : List UInt8) : Bool := data.all (· == 0)

/-- What is left of a payload must be zero. -/
def padding (n : Nat) : Reader Unit := do
  let rest ← take n
  check (isAllZero rest)

theorem reads_padding (n : Nat) : Reads (padding n) (List.replicate n 0) () := by
  have hzero : isAllZero (List.replicate n 0) = true := by simp [isAllZero]
  have h := (Reads.take (List.length_replicate (n := n) (a := (0 : UInt8)))).bind
    (f := fun rest => check (isAllZero rest)) (Reads.check hzero)
  rwa [List.append_nil] at h

theorem map_fst_eq_some_of_reads {α : Type} {d : Reader α} {bs : List UInt8} {a : α}
    (h : Reads d bs a) : (d.run bs).map (·.1) = some a := by
  have hrun := h []
  rw [List.append_nil] at hrun
  simp [hrun]

/-! ## Payloads -/

structure SynPayload where
  version_min : UInt8 := kProtocolVersion
  version_cur : UInt8 := kProtocolVersion
  reserved : UInt16 := 0
  session_id : UInt64 := 0
  feature_flags : UInt64 := 0
  peer_id : UInt64 := 0
  deriving DecidableEq, Repr

/-- `EncodeSynPayload` -/
def encodeSynPayload (payload : SynPayload) : ByteArr kPayloadSize :=
  ⟨[payload.version_min] ++ ([payload.version_cur] ++ (storeLE16 payload.reserved ++
    (storeLE64 payload.session_id ++ (storeLE64 payload.feature_flags ++
      (storeLE64 payload.peer_id ++ List.replicate (kPayloadSize - 28) 0))))), by
    simp only [List.length_append, List.length_singleton, length_storeLE16, length_storeLE64,
      List.length_replicate]
    rfl⟩

def readSynPayload : Reader SynPayload := do
  let version_min ← byte
  let version_cur ← byte
  let reserved ← loadLE16
  let session_id ← loadLE64
  let feature_flags ← loadLE64
  let peer_id ← loadLE64
  check (reserved = 0)
  padding (kPayloadSize - 28)
  return { version_min, version_cur, reserved, session_id, feature_flags, peer_id }

/-- `DecodeSynPayload` -/
def decodeSynPayload (payload : ByteArr kPayloadSize) : Option SynPayload :=
  (readSynPayload.run payload.1).map (·.1)

theorem decodeSynPayload_encodeSynPayload {syn : SynPayload} (h : syn.reserved = 0) :
    decodeSynPayload (encodeSynPayload syn) = some syn := by
  refine map_fst_eq_some_of_reads ?_
  refine (reads_byte _).bind ((reads_byte _).bind ((reads_loadLE16 _).bind
    ((reads_loadLE64 _).bind ((reads_loadLE64 _).bind ((reads_loadLE64 _).bind
      ((Reads.check h).bind_nil ?_))))))
  have hend := (reads_padding (kPayloadSize - 28)).bind (f := fun _ => pure syn) (Reads.pure syn)
  rwa [List.append_nil] at hend

structure BlockHeaderPayload where
  block_hash_prefix : UInt64
  original_size : UInt64
  data_chunks : UInt16
  coding_group_count : UInt16
  deriving DecidableEq, Repr

/-- `EncodeBlockHeaderPayload` -/
def encodeBlockHeaderPayload (payload : BlockHeaderPayload) : ByteArr kPayloadSize :=
  ⟨storeLE64 payload.block_hash_prefix ++ (storeLE64 payload.original_size ++
    (storeLE16 payload.data_chunks ++ (storeLE16 payload.coding_group_count ++
      List.replicate (kPayloadSize - 20) 0))), by
    simp only [List.length_append, length_storeLE16, length_storeLE64, List.length_replicate]
    rfl⟩

def readBlockHeaderPayload : Reader BlockHeaderPayload := do
  let block_hash_prefix ← loadLE64
  let original_size ← loadLE64
  let data_chunks ← loadLE16
  let coding_group_count ← loadLE16
  padding (kPayloadSize - 20)
  return { block_hash_prefix, original_size, data_chunks, coding_group_count }

/-- `DecodeBlockHeaderPayload` -/
def decodeBlockHeaderPayload (payload : ByteArr kPayloadSize) : Option BlockHeaderPayload :=
  (readBlockHeaderPayload.run payload.1).map (·.1)

theorem decodeBlockHeaderPayload_encodeBlockHeaderPayload (header : BlockHeaderPayload) :
    decodeBlockHeaderPayload (encodeBlockHeaderPayload header) = some header := by
  refine map_fst_eq_some_of_reads ?_
  refine (reads_loadLE64 _).bind ((reads_loadLE64 _).bind ((reads_loadLE16 _).bind
    ((reads_loadLE16 _).bind ?_)))
  have hend := (reads_padding (kPayloadSize - 20)).bind (f := fun _ => pure header)
    (Reads.pure header)
  rwa [List.append_nil] at hend

structure BlockChunkPayload where
  block_hash_prefix : UInt64
  coding_group_id : UInt16
  chunk_id : UInt8
  flags : UInt8
  data_len : UInt16
  chunk_data : ByteArr kFecChunkSize
  deriving DecidableEq

/-- `EncodeBlockChunkPayload` -/
def encodeBlockChunkPayload (payload : BlockChunkPayload) : ByteArr kPayloadSize :=
  ⟨storeLE64 payload.block_hash_prefix ++ (storeLE16 payload.coding_group_id ++
    ([payload.chunk_id] ++ ([payload.flags] ++ (storeLE16 payload.data_len ++
      payload.chunk_data.1)))), by
    simp only [List.length_append, List.length_singleton, length_storeLE16, length_storeLE64,
      payload.chunk_data.2]
    rfl⟩

def readBlockChunkPayload : Reader BlockChunkPayload := do
  let block_hash_prefix ← loadLE64
  let coding_group_id ← loadLE16
  let chunk_id ← byte
  let flags ← byte
  let data_len ← loadLE16
  let chunk_data ← array kFecChunkSize
  return { block_hash_prefix, coding_group_id, chunk_id, flags, data_len, chunk_data }

/-- `DecodeBlockChunkPayload` -/
def decodeBlockChunkPayload (payload : ByteArr kPayloadSize) : Option BlockChunkPayload :=
  (readBlockChunkPayload.run payload.1).map (·.1)

theorem decodeBlockChunkPayload_encodeBlockChunkPayload (chunk : BlockChunkPayload) :
    decodeBlockChunkPayload (encodeBlockChunkPayload chunk) = some chunk := by
  refine map_fst_eq_some_of_reads ?_
  refine (reads_loadLE64 _).bind ((reads_loadLE16 _).bind ((reads_byte _).bind
    ((reads_byte _).bind ((reads_loadLE16 _).bind ?_))))
  have hend := (Reads.array chunk.chunk_data).bind
    (f := fun data => pure { chunk with chunk_data := data }) (Reads.pure chunk)
  rwa [List.append_nil] at hend

/-! ## Packets -/

variable (packet : Packet)

/-- The bytes of a packet from the magic to the type. -/
def Packet.lead : List UInt8 :=
  storeLE16 packet.magic ++ [packet.version, packet.msg_type.raw]

/-- The bytes of a packet from the counter on. -/
def Packet.body : List UInt8 :=
  storeLE32 packet.counter ++ packet.payload.1

/-- `SerializePacket` -/
def serializePacket : ByteArr kPacketSize :=
  ⟨packet.lead ++ (packet.mac.1 ++ packet.body), by
    simp only [Packet.lead, Packet.body, List.length_append, List.length_cons, List.length_nil,
      length_storeLE16, length_storeLE32, packet.mac.2, packet.payload.2]
    rfl⟩

/-- `ValidatePayload`, as the error it reports. -/
def validatePayload : Option ParseError :=
  match packet.msg_type with
  | .kSyn | .kSynAck =>
    match decodeSynPayload packet.payload with
    | none => some .kInvalidReservedBits
    | some syn => if syn.version_cur < syn.version_min then some .kInvalidVersionRange else none
  | .kKeepalive | .kDisconnect =>
    if isAllZero packet.payload.1 then none else some .kInvalidReservedBits
  | .kPing | .kPong => none
  | .kBlockChunk =>
    match decodeBlockChunkPayload packet.payload with
    | none => some .kInvalidChunkLength
    | some chunk =>
      if chunk.flags ≠ 0 then some .kInvalidReservedBits
      else if kMaxChunkId < chunk.chunk_id then some .kInvalidChunkId
      else if kFecChunkSize < chunk.data_len.toNat then some .kInvalidChunkLength
      else none
  | .kBlockHeader =>
    match decodeBlockHeaderPayload packet.payload with
    | none => some .kInvalidReservedBits
    | some _ => none

/-- `WirePacketLayout`: a packet whose fields have not been looked at yet. -/
structure WirePacketLayout where
  magic : UInt16
  version : UInt8
  msg_type : UInt8
  mac : ByteArr kMacSize
  counter : UInt32
  payload : ByteArr kPayloadSize

def readLayout : Reader WirePacketLayout := do
  let magic ← loadLE16
  let version ← byte
  let msg_type ← byte
  let mac ← array kMacSize
  let counter ← loadLE32
  let payload ← array kPayloadSize
  return { magic, version, msg_type, mac, counter, payload }

/-- `ParsePacket` -/
def parsePacket (bytes : List UInt8) : Except ParseError Packet :=
  if bytes.length ≠ kPacketSize then .error .kInvalidPacketSize
  else
    match readLayout.run bytes with
    | none => .error .kInvalidPacketSize
    | some (wire, _) =>
      if wire.magic ≠ kProtocolMagic then .error .kInvalidMagic
      else if wire.version ≠ kProtocolVersion then .error .kUnsupportedVersion
      else
        match MessageType.ofRaw wire.msg_type with
        | none => .error .kUnknownMessageType
        | some msg_type =>
          let packet : Packet :=
            { magic := wire.magic, version := wire.version, msg_type, mac := wire.mac,
              counter := wire.counter, payload := wire.payload }
          match validatePayload packet with
          | some error => .error error
          | none => .ok packet

theorem run_readLayout_serializePacket (packet : Packet) :
    readLayout.run (serializePacket packet).1 =
      some ({ magic := packet.magic, version := packet.version, msg_type := packet.msg_type.raw,
              mac := packet.mac, counter := packet.counter, payload := packet.payload }, []) := by
  have hbytes : (serializePacket packet).1 =
      storeLE16 packet.magic ++ ([packet.version] ++ ([packet.msg_type.raw] ++ (packet.mac.1 ++
        (storeLE32 packet.counter ++ (packet.payload.1 ++ []))))) ++ [] := by
    simp [serializePacket, Packet.lead, Packet.body]
  rw [hbytes]
  refine (reads_loadLE16 _).bind ((reads_byte _).bind ((reads_byte _).bind
    ((Reads.array packet.mac).bind ((reads_loadLE32 _).bind ?_)))) []
  exact (Reads.array packet.payload).bind
    (f := fun payload => pure (WirePacketLayout.mk packet.magic packet.version packet.msg_type.raw
      packet.mac packet.counter payload)) (Reads.pure _)

/-- Only the bytes of a layout are read as that layout. -/
theorem eq_of_run_readLayout {bytes rest : List UInt8} {wire : WirePacketLayout}
    (h : readLayout.run bytes = some (wire, rest)) :
    bytes = storeLE16 wire.magic ++ (leBytes 1 wire.version.toNat ++
      (leBytes 1 wire.msg_type.toNat ++ (wire.mac.1 ++ (storeLE32 wire.counter ++
        (wire.payload.1 ++ rest))))) := by
  simp only [readLayout, StateT.run_bind, Option.bind_eq_bind, Option.bind_eq_some_iff] at h
  obtain ⟨_, hmagic, _, hversion, _, htype, _, hmac, _, hcounter, _, hpayload, h⟩ := h
  cases h
  have hbyte : Inverts byte fun b => leBytes 1 b.toNat :=
    inverts_number fun _ => UInt8.toNat_ofNat_of_lt
  rw [inverts_number (fun _ => UInt16.toNat_ofNat_of_lt) hmagic, hbyte hversion, hbyte htype,
    inverts_array _ hmac, inverts_number (fun _ => UInt32.toNat_ofNat_of_lt) hcounter,
    inverts_array _ hpayload]
  rfl

/-- **`ParsePacket` accepts exactly what `SerializePacket` writes of a valid packet.** -/
theorem parsePacket_eq_ok_iff {bytes : List UInt8} {packet : Packet} :
    parsePacket bytes = .ok packet ↔ bytes = (serializePacket packet).1 ∧
      packet.magic = kProtocolMagic ∧ packet.version = kProtocolVersion ∧
      validatePayload packet = none := by
  constructor
  · intro h
    simp only [parsePacket] at h
    split_ifs at h with hlen
    split at h
    · cases h
    rename_i wire rest hrun
    split_ifs at h with hmagic hversion
    cases htype : MessageType.ofRaw wire.msg_type with
    | none => simp [htype] at h
    | some msg_type =>
      simp only [htype] at h
      split at h
      · cases h
      rename_i hvalid
      cases h
      refine ⟨?_, not_not.mp hmagic, not_not.mp hversion, hvalid⟩
      -- Nothing is left after the payload, since the packet has its full length already.
      refine (List.IsPrefix.eq_of_length ⟨rest, ?_⟩
        ((serializePacket _).2.trans (not_not.mp hlen).symm)).symm
      have hraw : msg_type.raw = wire.msg_type := by simpa using List.find?_some htype
      rw [eq_of_run_readLayout hrun]
      simp [serializePacket, Packet.lead, Packet.body, hraw, leBytes]
  · rintro ⟨rfl, hmagic, hversion, hvalid⟩
    simp only [parsePacket, (serializePacket packet).2, run_readLayout_serializePacket,
      MessageType.ofRaw_raw, hmagic, hversion, ne_eq, not_true_eq_false, if_false]
    simp only [← hmagic, ← hversion, hvalid]

theorem serializePacket_injective : Function.Injective serializePacket := by
  intro p q h
  have hrun : readLayout.run (serializePacket p).1 = readLayout.run (serializePacket q).1 := by
    rw [h]
  rw [run_readLayout_serializePacket, run_readLayout_serializePacket, Option.some_inj,
    Prod.mk.injEq, WirePacketLayout.mk.injEq] at hrun
  obtain ⟨⟨hmagic, hversion, htype, hmac, hcounter, hpayload⟩, -⟩ := hrun
  obtain ⟨⟩ := p
  simp only at hmagic hversion htype hmac hcounter hpayload
  rw [hmagic, hversion, MessageType.raw_injective htype, hmac, hcounter, hpayload]

/-! ## The MAC -/

/-- `PeerConfig::hmac_key` -/
abbrev HmacKey := ByteArr 32

/-- HMAC-SHA256 of a key and a byte string. -/
abbrev HmacFn := HmacKey → List UInt8 → ByteArr 32

/-- The bytes a MAC covers: all but the MAC itself. -/
def signedBytes (packet_bytes : ByteArr kPacketSize) : List UInt8 :=
  packet_bytes.1.take 4 ++ packet_bytes.1.drop kCounterOffset

/-- What goes before them: the session id, if there is one. -/
def sessionContext (session_id : Option UInt64) : List UInt8 :=
  match session_id with
  | none => []
  | some id => storeLE64 id

variable (H : HmacFn)

/-- The front of an HMAC. -/
def truncatedHmac (key : HmacKey) (signed_data : List UInt8) : ByteArr kMacSize :=
  ⟨(H key signed_data).1.take kMacSize, by
    rw [List.length_take, (H key signed_data).2]
    rfl⟩

/-- `ComputePacketMac`, with and without a session id. -/
def computePacketMac (packet_bytes : ByteArr kPacketSize) (key : HmacKey)
    (session_id : Option UInt64) : ByteArr kMacSize :=
  truncatedHmac H key (sessionContext session_id ++ signedBytes packet_bytes)

/-- `VerifyPacketMac`, with and without a session id. -/
def verifyPacketMac (packet_bytes : ByteArr kPacketSize) (key : HmacKey)
    (session_id : Option UInt64) : Bool :=
  (computePacketMac H packet_bytes key session_id).1 ==
    (packet_bytes.1.drop kMacOffset).take kMacSize

variable (packet : Packet)

/-- `AttachPacketMac`, with and without a session id. -/
def attachPacketMac (key : HmacKey) (session_id : Option UInt64) : Packet :=
  { packet with mac := computePacketMac H (serializePacket packet) key session_id }

/-- What a packet's MAC covers, from its fields. -/
def Packet.signed : List UInt8 := packet.lead ++ packet.body

theorem Packet.length_signed : packet.signed.length = 1216 := by
  simp only [signed, body, List.length_append, length_storeLE32, packet.payload.2]
  rfl

/-- Everything but the MAC can be read off what the MAC covers. -/
theorem Packet.setMac_eq_of_signed_eq {p q : Packet} (h : p.signed = q.signed)
    (mac : ByteArr kMacSize) : { p with mac := mac } = { q with mac := mac } := by
  obtain ⟨hlead, hbody⟩ := List.append_inj h (by simp [lead])
  refine serializePacket_injective (Subtype.ext ?_)
  have hp : (serializePacket { p with mac := mac }).1 = p.lead ++ (mac.1 ++ p.body) := rfl
  have hq : (serializePacket { q with mac := mac }).1 = q.lead ++ (mac.1 ++ q.body) := rfl
  rw [hp, hq, hlead, hbody]

theorem signedBytes_serializePacket : signedBytes (serializePacket packet) = packet.signed := by
  have hlead : packet.lead.length = 4 := by simp [Packet.lead]
  have hfront : (packet.lead ++ packet.mac.1).length = kCounterOffset := by
    rw [List.length_append, hlead, packet.mac.2]
    rfl
  have htake : (serializePacket packet).1.take 4 = packet.lead := List.take_left' hlead
  have hdrop : (serializePacket packet).1.drop kCounterOffset = packet.body := by
    have hbytes : (serializePacket packet).1 = (packet.lead ++ packet.mac.1) ++ packet.body :=
      (List.append_assoc _ _ _).symm
    rw [hbytes, List.drop_left' hfront]
  rw [signedBytes, htake, hdrop, Packet.signed]

theorem verifyPacketMac_serializePacket_iff {H : HmacFn} {packet : Packet} {key : HmacKey}
    {session_id : Option UInt64} :
    verifyPacketMac H (serializePacket packet) key session_id = true ↔
      truncatedHmac H key (sessionContext session_id ++ packet.signed) = packet.mac := by
  have hlead : packet.lead.length = kMacOffset := by rfl
  have hmac : ((serializePacket packet).1.drop kMacOffset).take kMacSize = packet.mac.1 := by
    rw [serializePacket, List.drop_left' hlead, List.take_left' packet.mac.2]
  rw [verifyPacketMac, computePacketMac, signedBytes_serializePacket, hmac, beq_iff_eq,
    ← Subtype.ext_iff]

/-- A MAC that was attached verifies, with the key and the session id it was attached with. -/
theorem verifyPacketMac_attachPacketMac (key : HmacKey) (session_id : Option UInt64) :
    verifyPacketMac H (serializePacket (attachPacketMac H packet key session_id)) key session_id =
      true := by
  rw [verifyPacketMac_serializePacket_iff]
  have hsame : (attachPacketMac H packet key session_id).signed = packet.signed := rfl
  rw [hsame, attachPacketMac, computePacketMac, signedBytes_serializePacket]

end Qbit.Photon
