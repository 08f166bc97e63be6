import Qbit.Photon.Scheduler
import Qbit.Photon.PeerManager
import Mathlib.Data.Finset.Erase
import Mathlib.Data.Finset.Insert
import Mathlib.Data.List.AList

/-!
# The relay engine

`contrib/photon/src/relay_engine.cpp`: a block that is new here is encoded and pumped out to the
active peers, and a block that comes in is put together from a header and chunks, per peer, and
submitted.  Chunks that come before their header are buffered within limits.

The parameters of the encoder stand in the configuration in place of the overhead ratio they are
computed from, and are missing where that computation throws.  What the submitter answers is given
to each call, and a call to `SubmitBlock` is a result.
-/

namespace Qbit.Photon

open Fec

/-! ## Configuration -/

def kHeaderRedundancy : Nat := 3

def kDefaultMaxInboundOriginalSize : Nat := 2000000

def kDefaultMaxInboundEntries : Nat := 128

def kDefaultMaxInboundBufferedChunksPerEntry : Nat := 64

def kDefaultMaxInboundBufferedBytes : Nat := 1024 * kFecChunkSize

def kDefaultMaxInboundDecoderBytesPerEntry : Nat := 3 * 1024 * 1024

/-- Two minutes, in milliseconds. -/
def kDefaultMaxInboundAge : Int := 120000

structure RelayEngineConfig where
  fec_parameters : Option Parameters
  max_outbound_chunks_per_tick : Nat := 64
  seen_blocks_capacity : Nat := 16
  max_inbound_original_size : Nat := 2000000
  max_inbound_entries : Nat := 128
  max_inbound_buffered_chunks_per_entry : Nat := 64
  max_inbound_buffered_bytes : Nat := 1024 * kFecChunkSize
  max_inbound_decoder_bytes_per_entry : Nat := 3 * 1024 * 1024
  max_inbound_age : Int := 120000

/-- `m_config`: a configuration as the constructor leaves it. -/
structure NormalConfig extends RelayEngineConfig where
  outbound_chunks_pos : 0 < max_outbound_chunks_per_tick
  original_size_pos : 0 < max_inbound_original_size
  entries_pos : 0 < max_inbound_entries
  buffered_chunks_pos : 0 < max_inbound_buffered_chunks_per_entry
  buffered_bytes_pos : 0 < max_inbound_buffered_bytes
  decoder_bytes_pos : 0 < max_inbound_decoder_bytes_per_entry
  age_pos : 0 < max_inbound_age

/-- A size, or the default in place of zero. -/
def orDefault (default size : Nat) : Nat := if size = 0 then default else size

theorem orDefault_pos {default : Nat} (h : 0 < default) (size : Nat) :
    0 < orDefault default size := by
  rw [orDefault]
  split_ifs with hzero
  · exact h
  omega

/-- The constructor's correction of the configuration. -/
def RelayEngineConfig.normalize (config : RelayEngineConfig) : NormalConfig where
  fec_parameters := config.fec_parameters
  max_outbound_chunks_per_tick := orDefault 64 config.max_outbound_chunks_per_tick
  seen_blocks_capacity := config.seen_blocks_capacity
  max_inbound_original_size :=
    orDefault kDefaultMaxInboundOriginalSize config.max_inbound_original_size
  max_inbound_entries := orDefault kDefaultMaxInboundEntries config.max_inbound_entries
  max_inbound_buffered_chunks_per_entry :=
    orDefault kDefaultMaxInboundBufferedChunksPerEntry config.max_inbound_buffered_chunks_per_entry
  max_inbound_buffered_bytes :=
    orDefault kDefaultMaxInboundBufferedBytes config.max_inbound_buffered_bytes
  max_inbound_decoder_bytes_per_entry :=
    orDefault kDefaultMaxInboundDecoderBytesPerEntry config.max_inbound_decoder_bytes_per_entry
  max_inbound_age :=
    if config.max_inbound_age ≤ 0 then kDefaultMaxInboundAge else config.max_inbound_age
  outbound_chunks_pos := orDefault_pos (by decide) _
  original_size_pos := orDefault_pos (by decide) _
  entries_pos := orDefault_pos (by decide) _
  buffered_chunks_pos := orDefault_pos (by decide) _
  buffered_bytes_pos := orDefault_pos (by decide) _
  decoder_bytes_pos := orDefault_pos (by decide) _
  age_pos := by
    split_ifs with h
    · decide
    · exact Int.not_le.mp h

/-! ## State -/

structure RelayStats where
  blocks_relayed_out : Nat := 0
  blocks_received_in : Nat := 0
  blocks_already_known : Nat := 0
  chunks_sent : Nat := 0
  chunks_received : Nat := 0
  submit_successes : Nat := 0
  submit_failures : Nat := 0
  inbound_rejected : Nat := 0
  inbound_evictions : Nat := 0
  deriving DecidableEq, Repr

structure OutboundRelay where
  hash_prefix : UInt64
  params : Parameters
  original_size : Nat
  coding_group_count : UInt16
  scheduler : ChunkScheduler
  header_sent : Bool := false

structure InboundRelay (c : Codec) where
  params : Option Parameters := none
  decoder : Option (Decoder c) := none
  buffered_chunks : List Chunk := []
  first_seen : Int
  last_updated : Int
  buffered_bytes : Nat := 0

structure InboundRelayKey where
  hash_prefix : UInt64
  slot_index : Nat
  remote_session_id : UInt64
  remote_peer_id : UInt64
  deriving DecidableEq

structure RelayEngine (c : Codec) where
  m_stats : RelayStats := {}
  m_outbound : Option OutboundRelay := none
  m_inbound : AList fun _ : InboundRelayKey => InboundRelay c := ∅
  m_inbound_buffered_bytes : Nat := 0
  m_seen_order : List UInt64 := []
  m_seen_set : Finset UInt64 := ∅

/-- A call to `SubmitBlock` and its answer. -/
structure Submission where
  block_data : List UInt8
  accepted : Bool
  deriving DecidableEq

/-! ## Helpers -/

/-- The largest `size_t`. -/
def maxSize : Nat := 2 ^ 64 - 1

/-- `SaturatingMultiply` -/
def saturatingMultiply (left right : Nat) : Nat :=
  if left ≠ 0 ∧ maxSize / left < right then maxSize else left * right

/-- `DecoderBudgetBytes` -/
def decoderBudgetBytes (params : Parameters) (group_count group_payload_bytes : Nat) : Nat :=
  if params.data_chunks ≤ CM256_MAX_DATA_CHUNKS then
    saturatingMultiply (saturatingMultiply group_count params.data_chunks) kFecChunkSize
  else saturatingMultiply group_count group_payload_bytes

/-- `HexNibble` -/
def hexNibble (ch : Char) : Option UInt8 :=
  if '0' ≤ ch ∧ ch ≤ '9' then some (UInt8.ofNat (ch.toNat - '0'.toNat))
  else if 'a' ≤ ch ∧ ch ≤ 'f' then some (UInt8.ofNat (ch.toNat - 'a'.toNat + 10))
  else if 'A' ≤ ch ∧ ch ≤ 'F' then some (UInt8.ofNat (ch.toNat - 'A'.toNat + 10))
  else none

/-- `HashPrefixFromHex` -/
def hashPrefixFromHex (hash_hex : List Char) : UInt64 :=
  if hash_hex.length < 16 then 0
  else
    match (hash_hex.take 16).mapM hexNibble with
    | none => 0
    | some nibbles => nibbles.foldl (fun sum nibble => sum <<< 4 ||| nibble.toUInt64) 0

/-- `MakeInboundRelayKey` -/
def makeInboundRelayKey (inbound_peer : InboundPeerInfo) ( hash_prefix : UInt64) :
    InboundRelayKey where
  hash_prefix := hash_prefix
  slot_index := inbound_peer.slot_index
  remote_session_id := inbound_peer.remote_session_id
  remote_peer_id := inbound_peer.remote_peer_id

/-- `InboundRelayKeyLess` -/
def inboundRelayKeyLess (left right : InboundRelayKey) : Bool :=
  if left.hash_prefix ≠ right.hash_prefix then left.hash_prefix < right.hash_prefix
  else if left.slot_index ≠ right.slot_index then left.slot_index < right.slot_index
  else if left.remote_session_id ≠ right.remote_session_id then
    left.remote_session_id < right.remote_session_id
  else left.remote_peer_id < right.remote_peer_id

variable {c : Codec} (config : NormalConfig)

namespace RelayEngine

/-- An update of the statistics. -/
def count (f : RelayStats → RelayStats) (engine : RelayEngine c) : RelayEngine c :=
  { engine with m_stats := f engine.m_stats }

variable (engine : RelayEngine c)

/-- `++m_stats.inbound_rejected` -/
def reject : RelayEngine c :=
  engine.count fun stats => { stats with inbound_rejected := stats.inbound_rejected + 1 }

/-- `++m_stats.blocks_already_known` -/
def alreadyKnown : RelayEngine c :=
  engine.count fun stats => { stats with blocks_already_known := stats.blocks_already_known + 1 }

/-- An entry that was changed in place. -/
def store (key : InboundRelayKey) (relay : InboundRelay c) (engine : RelayEngine c) :
    RelayEngine c :=
  { engine with m_inbound := engine.m_inbound.insert key relay }

/-! ## Blocks seen before -/

/-- `IsKnown` -/
def isKnown ( hash_prefix : UInt64) (engine : RelayEngine c) : Bool :=
  hash_prefix ∈ engine.m_seen_set

/-- The loop of `RememberSeen` that makes room. -/
def forgetOldest (capacity : Nat) : List UInt64 → Finset UInt64 → List UInt64 × Finset UInt64
  | [], set => ([], set)
  | oldest :: order, set =>
    if capacity ≤ (oldest :: order).length then forgetOldest capacity order (set.erase oldest)
    else (oldest :: order, set)

/-- `RememberSeen` -/
def rememberSeen ( hash_prefix : UInt64) (engine : RelayEngine c) : RelayEngine c :=
  if config.seen_blocks_capacity = 0 then engine
  else if engine.isKnown hash_prefix then
    { engine with m_seen_order := engine.m_seen_order.erase hash_prefix ++ [ hash_prefix] }
  else
    let (order, set) :=
      forgetOldest config.seen_blocks_capacity engine.m_seen_order engine.m_seen_set
    { engine with
      m_seen_order := order ++ [ hash_prefix]
      m_seen_set := insert hash_prefix set }

/-! ## Entries -/

/-- `HasGlobalInboundBufferCapacity` -/
def hasGlobalInboundBufferCapacity : Bool :=
  kFecChunkSize ≤ config.max_inbound_buffered_bytes &&
    engine.m_inbound_buffered_bytes ≤ config.max_inbound_buffered_bytes - kFecChunkSize

/-- `ClearBufferedChunks`.  The difference of naturals is zero where the source sets zero. -/
def clearBufferedChunks (relay : InboundRelay c) : RelayEngine c × InboundRelay c :=
  ({ engine with
      m_inbound_buffered_bytes := engine.m_inbound_buffered_bytes - relay.buffered_bytes },
    { relay with buffered_bytes := 0, buffered_chunks := [] })

/-- `EraseInbound` -/
def eraseInbound (key : InboundRelayKey) (engine : RelayEngine c) : RelayEngine c :=
  match engine.m_inbound.lookup key with
  | none => engine
  | some relay =>
    { (engine.clearBufferedChunks relay).1 with m_inbound := engine.m_inbound.erase key }

/-- The loops that erase all entries of a kind. -/
def eraseEntries (erased : InboundRelayKey → InboundRelay c → Bool) (engine : RelayEngine c) :
    RelayEngine c :=
  (engine.m_inbound.entries.filter fun entry => erased entry.1 entry.2).foldl
    (fun engine entry => engine.eraseInbound entry.1) engine

/-- `EraseInboundForPrefix` -/
def eraseInboundForPrefix ( hash_prefix : UInt64) (engine : RelayEngine c) : RelayEngine c :=
  engine.eraseEntries fun key _ => key.hash_prefix == hash_prefix

/-- Not updated for too long. -/
def expired (now : Int) (relay : InboundRelay c) : Bool :=
  !(decide (now - relay.last_updated ≤ config.max_inbound_age))

/-- `EvictExpiredInbound` -/
def evictExpiredInbound (now : Int) (engine : RelayEngine c) : RelayEngine c :=
  let evicted := engine.m_inbound.entries.countP fun entry => expired config now entry.2
  (engine.eraseEntries fun _ relay => expired config now relay).count fun stats =>
    { stats with inbound_evictions := stats.inbound_evictions + evicted }

/-- The older of two entries, the smaller key where they are as old. -/
def older (oldest entry : Σ _ : InboundRelayKey, InboundRelay c) :
    Σ _ : InboundRelayKey, InboundRelay c :=
  if entry.2.first_seen < oldest.2.first_seen then entry
  else if entry.2.first_seen = oldest.2.first_seen ∧ inboundRelayKeyLess entry.1 oldest.1 then entry
  else oldest

/-- `EvictOldestInbound`; nothing where there is no entry. -/
def evictOldestInbound (engine : RelayEngine c) : Option (RelayEngine c) :=
  match engine.m_inbound.entries with
  | [] => none
  | first :: entries =>
    let oldest := entries.foldl older first
    some ((engine.eraseInbound oldest.1).count fun stats =>
      { stats with inbound_evictions := stats.inbound_evictions + 1 })

/-- The loop of `GetOrCreateInbound` that makes room; each round evicts one of `size` entries. -/
def makeRoom : Nat → RelayEngine c → Option (RelayEngine c)
  | 0, engine =>
    if config.max_inbound_entries ≤ engine.m_inbound.entries.length then none else some engine
  | size + 1, engine =>
    if config.max_inbound_entries ≤ engine.m_inbound.entries.length then
      engine.evictOldestInbound.bind (makeRoom size)
    else some engine

/-- `GetOrCreateInbound`, the entry with the engine. -/
def getOrCreateInbound (key : InboundRelayKey) (now : Int) (engine : RelayEngine c) :
    Option (InboundRelay c × RelayEngine c) :=
  match engine.m_inbound.lookup key with
  | some relay =>
    let relay := { relay with last_updated := now }
    some (relay, engine.store key relay)
  | none => do
    let engine ← engine.makeRoom config engine.m_inbound.entries.length
    let relay := { first_seen := now, last_updated := now }
    return (relay, engine.store key relay)

/-! ## Receiving -/

variable (key : InboundRelayKey) (relay : InboundRelay c)

/-- `TryFinalizeInbound` -/
def tryFinalizeInbound (submit : List UInt8 → Bool) (engine : RelayEngine c) :
    RelayEngine c × Option Submission :=
  match relay.decoder with
  | none => (engine, none)
  | some decoder =>
    if !decoder.isComplete then (engine, none)
    else
      match decoder.reconstruct with
      | none =>
        ((engine.count fun stats =>
          { stats with submit_failures := stats.submit_failures + 1 }).eraseInbound key, none)
      | some reconstructed =>
        if submit reconstructed then
          let engine := engine.count fun stats =>
            { stats with
              submit_successes := stats.submit_successes + 1
              blocks_received_in := stats.blocks_received_in + 1 }
          ((engine.rememberSeen config key.hash_prefix).eraseInboundForPrefix key.hash_prefix,
            some ⟨reconstructed, true⟩)
        else
          let engine := engine.count fun stats =>
            { stats with submit_failures := stats.submit_failures + 1 }
          (engine.eraseInbound key, some ⟨reconstructed, false⟩)

/-- The chunk a payload carries. -/
def chunkOfPayload (payload : BlockChunkPayload) : Chunk where
  coding_group_id := payload.coding_group_id
  chunk_id := payload.chunk_id
  bytes := payload.chunk_data

/-- `FeedChunk`, the entry with the engine if the entry remains. -/
def feedChunk (payload : BlockChunkPayload) (engine : RelayEngine c) :
    Option (InboundRelay c) × RelayEngine c :=
  let chunk := chunkOfPayload payload
  match relay.decoder with
  | none =>
    if config.max_inbound_buffered_chunks_per_entry ≤ relay.buffered_chunks.length then
      (some relay, engine.reject)
    else if !engine.hasGlobalInboundBufferCapacity config then (some relay, engine.reject)
    else
      let relay :=
        { relay with
          buffered_chunks := relay.buffered_chunks ++ [chunk]
          buffered_bytes := relay.buffered_bytes + kFecChunkSize }
      let engine :=
        { engine with m_inbound_buffered_bytes := engine.m_inbound_buffered_bytes + kFecChunkSize }
      (some relay, engine.store key relay)
  | some decoder =>
    let (ok, decoder) := decoder.addChunk chunk
    let relay := { relay with decoder := some decoder }
    if !ok then (none, (engine.store key relay).reject.eraseInbound key)
    else (some relay, engine.store key relay)

/-- The loop of `OnBlockHeader` over the buffered chunks; nothing where one is rejected. -/
def feedBuffered (decoder : Decoder c) : List Chunk → Option (Decoder c)
  | [] => some decoder
  | chunk :: chunks =>
    let (ok, decoder) := decoder.addChunk chunk
    if !ok then none else feedBuffered decoder chunks

/-- The end of `OnBlockHeader`, where the entry gets its decoder. -/
def startDecoder (params : Parameters) (original_size : Nat) (submit : List UInt8 → Bool)
    (engine : RelayEngine c) :
    RelayEngine c × Option Submission :=
  match (Decoder.create c params original_size).bind (feedBuffered · relay.buffered_chunks) with
  | none => (engine.reject.eraseInbound key, none)
  | some decoder =>
    let (engine, relay) :=
      engine.clearBufferedChunks { relay with params := some params, decoder := some decoder }
    (engine.store key relay).tryFinalizeInbound config key relay submit

/-- The checks of `OnBlockHeader` on the sizes in a header. -/
def headerFits (params : Parameters) (payload : BlockHeaderPayload) : Bool :=
  let original_size := payload.original_size.toNat
  let expected_group_count := divCeil original_size params.groupPayloadBytes
  !(expected_group_count > 0xffff ||
      payload.coding_group_count != UInt16.ofNat expected_group_count) &&
    !(decoderBudgetBytes params expected_group_count params.groupPayloadBytes >
      config.max_inbound_decoder_bytes_per_entry)

/-- `OnBlockHeader` -/
def onBlockHeader (inbound_peer : InboundPeerInfo) (payload : BlockHeaderPayload) (now : Int)
    (submit : List UInt8 → Bool) (engine : RelayEngine c) : RelayEngine c × Option Submission :=
  let engine := engine.evictExpiredInbound config now
  if engine.isKnown payload.block_hash_prefix then (engine.alreadyKnown, none)
  else if payload.data_chunks.toNat < 2 || payload.data_chunks.toNat ≥ FEC_TOTAL_CHUNKS then
    (engine, none)
  else if payload.original_size = 0 then (engine.reject, none)
  else if payload.original_size.toNat > config.max_inbound_original_size then (engine.reject, none)
  else
    match Parameters.fromDataChunkCount payload.data_chunks with
    | none => (engine, none)
    | some params =>
      if !headerFits config params payload then (engine.reject, none)
      else
        let key := makeInboundRelayKey inbound_peer payload.block_hash_prefix
        match engine.getOrCreateInbound config key now with
        | none => (engine.reject, none)
        | some (relay, engine) =>
          if relay.decoder.isSome then (engine, none)
          else engine.startDecoder config key relay params payload.original_size.toNat submit

/-- The end of `OnBlockChunk`, where the entry gets the chunk. -/
def feedInbound (key : InboundRelayKey) (relay : InboundRelay c) (payload : BlockChunkPayload)
    (submit : List UInt8 → Bool) (engine : RelayEngine c) : RelayEngine c × Option Submission :=
  let (relay, engine) := engine.feedChunk config key relay payload
  let engine := engine.count fun stats =>
    { stats with chunks_received := stats.chunks_received + 1 }
  match relay with
  | none => (engine, none)
  | some relay => engine.tryFinalizeInbound config key relay submit

/-- `OnBlockChunk` -/
def onBlockChunk (inbound_peer : InboundPeerInfo) (payload : BlockChunkPayload) (now : Int)
    (submit : List UInt8 → Bool) (engine : RelayEngine c) : RelayEngine c × Option Submission :=
  let engine := engine.evictExpiredInbound config now
  if engine.isKnown payload.block_hash_prefix then (engine.alreadyKnown, none)
  else
    let key := makeInboundRelayKey inbound_peer payload.block_hash_prefix
    if (engine.m_inbound.lookup key).isNone && !engine.hasGlobalInboundBufferCapacity config then
      (engine.reject, none)
    else
      match engine.getOrCreateInbound config key now with
      | none => (engine.reject, none)
      | some (relay, engine) => engine.feedInbound config key relay payload submit

/-! ## Sending -/

/-- `OnNewBlock` -/
def onNewBlock (hash_hex : List Char) (block_data : List UInt8) (engine : RelayEngine c) :
    RelayEngine c :=
  let hash_prefix := hashPrefixFromHex hash_hex
  if engine.isKnown hash_prefix then engine.alreadyKnown
  else
    match config.fec_parameters.bind (encode c · block_data) with
    | none => engine
    | some encoded =>
      let engine :=
        { engine with
          m_outbound := some
            { hash_prefix := hash_prefix
              params := encoded.params
              original_size := encoded.original_size
              coding_group_count := encoded.coding_group_count
              scheduler := ChunkScheduler.create [encoded] } }
      ((engine.rememberSeen config hash_prefix).eraseInboundForPrefix hash_prefix).count
        fun stats => { stats with blocks_relayed_out := stats.blocks_relayed_out + 1 }

end RelayEngine

/-- The header that `PumpOutbound` sends. -/
def OutboundRelay.header (outbound : OutboundRelay) : BlockHeaderPayload where
  block_hash_prefix := outbound.hash_prefix
  original_size := UInt64.ofNat outbound.original_size
  data_chunks := UInt16.ofNat outbound.params.data_chunks
  coding_group_count := outbound.coding_group_count

/-- The payload that `PumpOutbound` sends for a chunk. -/
def OutboundRelay.chunkPayload (outbound : OutboundRelay) (chunk : Chunk) : BlockChunkPayload where
  block_hash_prefix := outbound.hash_prefix
  coding_group_id := chunk.coding_group_id
  chunk_id := chunk.chunk_id
  flags := 0
  data_len := UInt16.ofNat kFecChunkSize
  chunk_data := chunk.bytes

/-- One payload to all peers, several times. -/
def sendRepeated (S : Setup) (payload : RelayPayload) (peers : List ActivePeerInfo) :
    Nat → List PeerSlot → List PeerSlot × List Sent
  | 0, slots => (slots, [])
  | n + 1, slots =>
    let (slots, sent) := sendToPeers S payload.msgType payload.encode peers slots
    let (slots, more) := sendRepeated S payload peers n slots
    (slots, sent ++ more)

/-- The loop of `PumpOutbound` over the chunks a tick may still send. -/
def pumpChunks (S : Setup) (peers : List ActivePeerInfo) :
    Nat → OutboundRelay → List PeerSlot → Option OutboundRelay × List PeerSlot × List Sent
  | 0, outbound, slots => (some outbound, slots, [])
  | n + 1, outbound, slots =>
    match outbound.scheduler.next with
    | none => (none, slots, [])
    | some (scheduled, scheduler) =>
      let payload := RelayPayload.chunk (outbound.chunkPayload scheduled.chunk)
      let (slots, sent) := sendToPeers S payload.msgType payload.encode peers slots
      let (rest, slots, more) := pumpChunks S peers n { outbound with scheduler := scheduler } slots
      (rest, slots, sent ++ more)

/-- `PumpOutbound`, with the slots of the peer manager and what goes out. -/
def RelayEngine.pumpOutbound (S : Setup) (env : Env) (engine : RelayEngine c)
    (slots : List PeerSlot) : RelayEngine c × List PeerSlot × List Sent :=
  let engine := engine.evictExpiredInbound config env.now
  match engine.m_outbound with
  | none => (engine, slots, [])
  | some outbound =>
    let active_peers := getActivePeers slots
    if active_peers.isEmpty then (engine, slots, [])
    else
      let (slots, headers) :=
        if outbound.header_sent then (slots, [])
        else sendRepeated S (.header outbound.header) active_peers kHeaderRedundancy slots
      let (rest, slots, chunks) := pumpChunks S active_peers config.max_outbound_chunks_per_tick
        { outbound with header_sent := true } slots
      let delivered := chunks.countP fun sent => env.send sent.slot_index
      ({ engine with m_outbound := rest }.count fun stats =>
          { stats with chunks_sent := stats.chunks_sent + delivered },
        slots, headers ++ chunks)

end Qbit.Photon
