import Mathlib.Data.Finset.Card
import Mathlib.Logic.Relation
import Qbit.Photon.Reassembly

/-!
# What a relay engine keeps

A relay engine keeps the chunks that came before their header, and the blocks that became known.
Both are bounded.  Every call is a chain of changes (`moves_step`): entries are written and erased,
and at most one block is remembered.

* The bytes that the engine counts are the bytes that its entries count, and those are the chunks
  they buffer (`Accounted`).  So what `ClearBufferedChunks` takes off the total is there.
* The blocks that the engine remembers are the last ones that became known (`Keeps`).
-/

namespace Qbit.Photon

open Fec

variable {c : Codec} (config : NormalConfig) {engine : RelayEngine c}

/-! ## Calls -/

/-- A call to a relay engine, with what the clock and the submitter answer. -/
inductive EngineCall
  | onNewBlock (hash_hex : List Char) (block_data : List UInt8)
  | onBlockHeader (inbound_peer : InboundPeerInfo) (payload : BlockHeaderPayload) (now : Int)
      (submit : List UInt8 → Bool)
  | onBlockChunk (inbound_peer : InboundPeerInfo) (payload : BlockChunkPayload) (now : Int)
      (submit : List UInt8 → Bool)
  | pumpOutbound (S : Setup) (env : Env) (slots : List PeerSlot)

/-- What a call did with a block: `SubmitBlock` was called for it, it became known, or both. -/
structure EngineEvent where
  hash_prefix : UInt64
  submitted : Bool
  known : Bool

/-- The blocks that became known, in this order. -/
def knownIn (events : List EngineEvent) : List UInt64 :=
  (events.filter (·.known)).map EngineEvent.hash_prefix

/-- What a delivery did. -/
def deliveryEvent ( hash_prefix : UInt64) (submission : Option Submission) : Option EngineEvent :=
  submission.map fun submission => ⟨ hash_prefix, true, submission.accepted⟩

namespace RelayEngine

def step (engine : RelayEngine c) : EngineCall → RelayEngine c × Option EngineEvent
  | .onNewBlock hash_hex block_data =>
    let hash_prefix := hashPrefixFromHex hash_hex
    (engine.onNewBlock config hash_hex block_data,
      if engine.isKnown hash_prefix then none
      else (config.fec_parameters.bind (encode c · block_data)).map fun _ =>
        ⟨ hash_prefix, false, true⟩)
  | .onBlockHeader inbound_peer payload now submit =>
    (engine.onBlockHeader config inbound_peer payload now submit).map id
      (deliveryEvent payload.block_hash_prefix)
  | .onBlockChunk inbound_peer payload now submit =>
    (engine.onBlockChunk config inbound_peer payload now submit).map id
      (deliveryEvent payload.block_hash_prefix)
  | .pumpOutbound S env slots => ((engine.pumpOutbound config S env slots).1, none)

/-- A new engine after some calls, and what happened in them. -/
def run (c : Codec) (calls : List EngineCall) : RelayEngine c × List EngineEvent :=
  calls.foldl (fun (engine, events) call =>
    ((engine.step config call).1, events ++ (engine.step config call).2.toList)) ({}, [])

/-! ## What is kept -/

/-- The bytes that an entry counts are those of its chunks, and an entry with a decoder has none. -/
structure AccountedEntry (relay : InboundRelay c) : Prop where
  bytes : relay.buffered_bytes = kFecChunkSize * relay.buffered_chunks.length
  decoding : relay.decoder.isSome = true → relay.buffered_chunks = []
  length_le : relay.buffered_chunks.length ≤ config.max_inbound_buffered_chunks_per_entry

/-- The bytes that the engine counts are those of its entries, and everything is within its
limits. -/
structure Accounted (engine : RelayEngine c) : Prop where
  total : engine.m_inbound_buffered_bytes =
    (engine.m_inbound.entries.map fun entry => entry.2.buffered_bytes).sum
  entry : ∀ entry ∈ engine.m_inbound.entries, AccountedEntry config entry.2
  bounded : engine.m_inbound_buffered_bytes ≤ config.max_inbound_buffered_bytes
  few : engine.m_inbound.entries.length ≤ config.max_inbound_entries

/-- The last of the blocks that became known, as many as the engine remembers. -/
def recent (known : List UInt64) : List UInt64 :=
  known.drop (known.length - config.seen_blocks_capacity)

/-- Of the blocks that became known the last ones are remembered. -/
structure Remembers (known : List UInt64) (engine : RelayEngine c) : Prop where
  order_eq : engine.m_seen_order = recent config known
  set_eq : engine.m_seen_set = (recent config known).toFinset
  nodup : (recent config known).Nodup

/-- What an engine keeps when some blocks became known. -/
structure Keeps (known : List UInt64) (engine : RelayEngine c) : Prop
    extends Accounted config engine, Remembers config known engine

/-- An entry can be written, and the total goes along. -/
structure Stores (key : InboundRelayKey) (relay : InboundRelay c) (bytes : Nat)
    (engine : RelayEngine c) : Prop where
  entry : AccountedEntry config relay
  total : bytes + ((engine.m_inbound.lookup key).map (·.buffered_bytes)).getD 0 =
    engine.m_inbound_buffered_bytes + relay.buffered_bytes
  bounded : bytes ≤ config.max_inbound_buffered_bytes
  few : engine.m_inbound.lookup key = none →
    engine.m_inbound.entries.length < config.max_inbound_entries

/-- One change of an engine and of the blocks that became known.  Where `ClearBufferedChunks` is
called, it does not take more off the total than there is. -/
inductive Change (s : List UInt64 × RelayEngine c) : List UInt64 × RelayEngine c → Prop
  | count (f : RelayStats → RelayStats) : Change s (s.1, s.2.count f)
  | outbound (m_outbound : Option OutboundRelay) : Change s (s.1, { s.2 with m_outbound })
  | store {key : InboundRelayKey} {relay : InboundRelay c} {bytes : Nat}
      (hstores : Stores config key relay bytes s.2) :
      Change s (s.1, { s.2 with m_inbound_buffered_bytes := bytes }.store key relay)
  | clear {key : InboundRelayKey} {old relay : InboundRelay c}
      (hold : s.2.m_inbound.lookup key = some old)
      (hbytes : relay.buffered_bytes = old.buffered_bytes)
      (hclear : relay.buffered_bytes ≤ s.2.m_inbound_buffered_bytes) :
      Change s
        (s.1, (s.2.clearBufferedChunks relay).1.store key (s.2.clearBufferedChunks relay).2)
  | erase (key : InboundRelayKey)
      (hclear : ∀ relay, s.2.m_inbound.lookup key = some relay →
        relay.buffered_bytes ≤ s.2.m_inbound_buffered_bytes) :
      Change s (s.1, s.2.eraseInbound key)
  | remember { hash_prefix : UInt64} (hnew : hash_prefix ∉ s.2.m_seen_set) :
      Change s (s.1 ++ [ hash_prefix], s.2.rememberSeen config hash_prefix)

/-- Changes lead somewhere, and what is kept there. -/
structure Moves (start : List UInt64 × RelayEngine c) (known : List UInt64)
    (engine : RelayEngine c) : Prop where
  changes : Relation.ReflTransGen (Change config) start (known, engine)
  keeps : Keeps config known engine

/-- What a delivery changes.  What is submitted was not known. -/
structure Delivers (start : List UInt64 × RelayEngine c) (known : List UInt64)
    ( hash_prefix : UInt64) (r : RelayEngine c × Option Submission) : Prop where
  moves : Moves config start (known ++ knownIn (deliveryEvent hash_prefix r.2).toList) r.1
  new : r.2.isSome = true → hash_prefix ∉ recent config known

variable {config} {key : InboundRelayKey} {relay : InboundRelay c} {known : List UInt64}
  { hash_prefix : UInt64} {start : List UInt64 × RelayEngine c} {submit : List UInt8 → Bool}

/-- A sum over the entries, with and without the one at a key. -/
theorem sum_entries (f : InboundRelay c → Nat) (key : InboundRelayKey) (engine : RelayEngine c) :
    (engine.m_inbound.entries.map fun entry => f entry.2).sum =
      ((engine.m_inbound.lookup key).map f).getD 0 +
        ((engine.m_inbound.entries.kerase key).map fun entry => f entry.2).sum := by
  cases hlookup : engine.m_inbound.lookup key with
  | none =>
    rw [List.kerase_of_notMem_keys (AList.lookup_eq_none.mp hlookup)]
    simp
  | some relay =>
    have hmem := AList.mem_lookup_iff.mp hlookup
    obtain ⟨found, l₁, l₂, -, hentries, herase⟩ := List.exists_of_kerase (List.mem_keys_of_mem hmem)
    obtain rfl : found = relay := by
      refine engine.m_inbound.nodupKeys.eq_of_mk_mem ?_ hmem
      simp [hentries]
    rw [herase, hentries]
    simp
    omega

namespace Accounted

variable (h : Accounted config engine)

include h

theorem lookup (hrelay : engine.m_inbound.lookup key = some relay) : AccountedEntry config relay :=
  h.entry ⟨key, relay⟩ (AList.mem_lookup_iff.mp hrelay)

theorem bytes_le (hrelay : engine.m_inbound.lookup key = some relay) :
    relay.buffered_bytes ≤ engine.m_inbound_buffered_bytes := by
  rw [h.total, sum_entries (·.buffered_bytes) key, hrelay]
  exact Nat.le_add_right _ _

theorem store {bytes : Nat} (hstores : Stores config key relay bytes engine) :
    Accounted config ({ engine with m_inbound_buffered_bytes := bytes }.store key relay) := by
  have htotal := h.total.trans (sum_entries (·.buffered_bytes) key engine)
  have hlength := sum_entries (fun _ => 1) key engine
  have hbytes := hstores.total
  have hfew := hstores.few
  have hle := h.few
  refine ⟨?_, ?_, hstores.bounded, ?_⟩
  · simp [RelayEngine.store]
    omega
  · simp only [RelayEngine.store, AList.entries_insert, List.forall_mem_cons]
    exact ⟨hstores.entry, fun e he => h.entry e ((List.kerase_sublist key _).subset he)⟩
  · cases hlookup : engine.m_inbound.lookup key <;>
      simp [RelayEngine.store, hlookup] at hlength hfew ⊢ <;> omega

theorem erase (key : InboundRelayKey) : Accounted config (engine.eraseInbound key) := by
  have htotal := h.total.trans (sum_entries (·.buffered_bytes) key engine)
  rw [eraseInbound]
  cases hrelay : engine.m_inbound.lookup key with
  | none => exact h
  | some relay =>
    have herase : (engine.m_inbound.erase key).entries = engine.m_inbound.entries.kerase key := rfl
    have hsub := List.kerase_sublist key engine.m_inbound.entries
    refine ⟨?_, fun e he => h.entry e (hsub.subset he), (Nat.sub_le _ _).trans h.bounded,
      hsub.length_le.trans h.few⟩
    simp [clearBufferedChunks, herase, hrelay] at htotal ⊢
    omega

end Accounted

theorem forgetOldest_eq (capacity : Nat) {order : List UInt64} (hnodup : order.Nodup) :
    forgetOldest capacity order order.toFinset =
      (order.drop (order.length + 1 - capacity),
        (order.drop (order.length + 1 - capacity)).toFinset) := by
  induction order with
  | nil => simp [forgetOldest]
  | cons oldest order ih =>
    obtain ⟨hnot, hnodup⟩ := List.nodup_cons.mp hnodup
    rw [forgetOldest]
    split_ifs with hfull
    · rw [List.length_cons] at hfull
      rw [List.toFinset_cons, Finset.erase_insert (by simpa using hnot), ih hnodup,
        List.length_cons, show order.length + 1 + 1 - capacity = order.length + 1 - capacity + 1 by
          omega, List.drop_succ_cons]
    · rw [show (oldest :: order).length + 1 - capacity = 0 by omega, List.drop_zero]

/-- The memory is a queue: what becomes known goes behind what is kept of the rest. -/
theorem recent_concat (hcapacity : config.seen_blocks_capacity ≠ 0) :
    recent config (known ++ [ hash_prefix]) =
      (recent config known).drop
        ((recent config known).length + 1 - config.seen_blocks_capacity) ++ [ hash_prefix] := by
  rw [recent, recent, List.drop_drop, List.length_drop, List.length_append, List.length_singleton,
    List.drop_append_of_le_length (by omega)]
  congr 2
  omega

namespace Keeps

theorem not_recent (h : Keeps config known engine) (hknown : ¬engine.isKnown hash_prefix = true) :
    hash_prefix ∉ recent config known := by
  simpa [isKnown, h.set_eq] using hknown

theorem remember (h : Keeps config known engine) (hnew : hash_prefix ∉ engine.m_seen_set) :
    Keeps config (known ++ [ hash_prefix]) (engine.rememberSeen config hash_prefix) := by
  have haccounted : Accounted config (engine.rememberSeen config hash_prefix) := by
    rw [rememberSeen]
    split_ifs <;> exact ⟨h.total, h.entry, h.bounded, h.few⟩
  refine ⟨haccounted, ?_⟩
  rw [rememberSeen]
  by_cases hzero : config.seen_blocks_capacity = 0
  · have hnone (known) : recent config known = [] := by simp [recent, hzero]
    rw [if_pos hzero]
    exact ⟨by rw [h.order_eq, hnone, hnone], by rw [h.set_eq, hnone, hnone], by simp [hnone]⟩
  rw [if_neg hzero, if_neg (by simpa [isKnown] using hnew), h.order_eq, h.set_eq,
    forgetOldest_eq _ h.nodup]
  refine ⟨(recent_concat hzero).symm, by ext; simp [recent_concat hzero], ?_⟩
  have hsub := List.drop_sublist
    ((recent config known).length + 1 - config.seen_blocks_capacity) (recent config known)
  rw [h.set_eq, List.mem_toFinset] at hnew
  rw [recent_concat hzero]
  exact List.concat_eq_append ▸ (h.nodup.sublist hsub).concat fun hmem => hnew (hsub.subset hmem)

/-- **Every change keeps it.** -/
theorem change {s : List UInt64 × RelayEngine c} (h : Keeps config known engine)
    (hchange : Change config (known, engine) s) : Keeps config s.1 s.2 := by
  cases hchange with
  | count | outbound =>
    exact ⟨⟨h.total, h.entry, h.bounded, h.few⟩, ⟨h.order_eq, h.set_eq, h.nodup⟩⟩
  | store hstores => exact ⟨h.store hstores, ⟨h.order_eq, h.set_eq, h.nodup⟩⟩
  | clear hold hbytes hclear =>
    refine ⟨h.store ⟨⟨rfl, fun _ => rfl, Nat.zero_le _⟩, ?_, (Nat.sub_le _ _).trans h.bounded,
      by simp [hold]⟩, ⟨h.order_eq, h.set_eq, h.nodup⟩⟩
    simp [clearBufferedChunks, hold] at hclear ⊢
    omega
  | erase key =>
    refine ⟨h.erase key, ?_⟩
    rw [eraseInbound]
    split <;> exact ⟨h.order_eq, h.set_eq, h.nodup⟩
  | remember hnew => exact h.remember hnew

end Keeps

/-! ## What a call changes -/

theorem Keeps.moves (h : Keeps config known engine) : Moves config (known, engine) known engine :=
  ⟨.refl, h⟩

namespace Moves

variable (h : Moves config start known engine)

include h

theorem change {known' : List UInt64} {engine' : RelayEngine c}
    (hchange : Change config (known, engine) (known', engine')) :
    Moves config start known' engine' := ⟨h.changes.tail hchange, h.keeps.change hchange⟩

theorem count (f : RelayStats → RelayStats) : Moves config start known (engine.count f) :=
  h.change (.count f)

theorem reject : Moves config start known engine.reject := h.count _

theorem erase (key : InboundRelayKey) : Moves config start known (engine.eraseInbound key) :=
  h.change (.erase key fun _ => h.keeps.bytes_le)

theorem eraseEntries (erased : InboundRelayKey → InboundRelay c → Bool) :
    Moves config start known (engine.eraseEntries erased) := by
  rw [RelayEngine.eraseEntries]
  generalize engine.m_inbound.entries.filter (fun entry => erased entry.1 entry.2) = entries
  induction entries generalizing engine with
  | nil => exact h
  | cons entry entries ih => exact ih (h.erase entry.1)

theorem evictExpiredInbound (now : Int) :
    Moves config start known (engine.evictExpiredInbound config now) := by
  rw [RelayEngine.evictExpiredInbound]
  exact (h.eraseEntries _).count _

theorem remember (hnew : hash_prefix ∉ recent config known) :
    Moves config start (known ++ [ hash_prefix])
      ((engine.rememberSeen config hash_prefix).eraseInboundForPrefix hash_prefix) :=
  (h.change (.remember (by simpa [h.keeps.set_eq] using hnew))).eraseEntries _

/-- An entry changes, but not what it buffers. -/
theorem update {relay' : InboundRelay c} (hrelay : engine.m_inbound.lookup key = some relay)
    (hchunks : relay'.buffered_chunks = relay.buffered_chunks)
    (hbytes : relay'.buffered_bytes = relay.buffered_bytes)
    (hdecoder : relay'.decoder.isSome = relay.decoder.isSome) :
    Moves config start known (engine.store key relay') := by
  obtain ⟨bytes, decoding, length_le⟩ := h.keeps.lookup hrelay
  exact h.change (.store ⟨⟨by rw [hbytes, hchunks, bytes], by rwa [hdecoder, hchunks],
    by rwa [hchunks]⟩, by simp [hrelay, hbytes], h.keeps.bounded, by simp [hrelay]⟩)

theorem makeRoom {room : RelayEngine c} {size : Nat}
    (hroom : engine.makeRoom config size = some room) :
    Moves config start known room ∧
      room.m_inbound.entries.length < config.max_inbound_entries := by
  induction size generalizing engine with
  | zero =>
    rw [RelayEngine.makeRoom] at hroom
    split_ifs at hroom with hfull
    obtain rfl := Option.some.inj hroom
    exact ⟨h, not_le.mp hfull⟩
  | succ size ih =>
    rw [RelayEngine.makeRoom] at hroom
    split_ifs at hroom with hfull
    · obtain ⟨next, hnext, hroom⟩ := Option.bind_eq_some_iff.mp hroom
      refine ih ?_ hroom
      rw [evictOldestInbound] at hnext
      split at hnext
      · cases hnext
      · cases hnext
        exact (h.erase _).count _
    · obtain rfl := Option.some.inj hroom
      exact ⟨h, not_le.mp hfull⟩

theorem getOrCreateInbound (key : InboundRelayKey) (now : Int) :
    ∃ relay room, engine.getOrCreateInbound config key now = some (relay, room) ∧
      Moves config start known room ∧ room.m_inbound.lookup key = some relay := by
  rw [RelayEngine.getOrCreateInbound]
  cases hentry : engine.m_inbound.lookup key with
  | some relay => exact ⟨_, _, rfl, h.update hentry rfl rfl rfl, lookup_store _ _ _⟩
  | none =>
    obtain ⟨room, hroom, hshrinks⟩ :=
      makeRoom_spec config (rfl : engine.m_inbound.entries.length = _)
    obtain ⟨hmoves, hlength⟩ := h.makeRoom hroom
    rw [hroom]
    exact ⟨_, _, rfl, hmoves.change (.store ⟨⟨rfl, by simp, Nat.zero_le _⟩,
      by rw [hshrinks.gone _ hentry]; rfl, hmoves.keeps.bounded, fun _ => hlength⟩),
      lookup_store _ _ _⟩

theorem quiet ( hash_prefix : UInt64) : Delivers config start known hash_prefix (engine, none) :=
  ⟨by simpa [deliveryEvent, knownIn] using h, nofun⟩

theorem tryFinalizeInbound (hnew : key.hash_prefix ∉ recent config known) :
    Delivers config start known key.hash_prefix
      (engine.tryFinalizeInbound config key relay submit) := by
  rw [RelayEngine.tryFinalizeInbound]
  split
  · exact h.quiet _
  split_ifs
  · exact h.quiet _
  split
  · exact ((h.count _).erase key).quiet _
  split_ifs
  · exact ⟨(h.count _).remember hnew, fun _ => hnew⟩
  · refine ⟨?_, fun _ => hnew⟩
    simpa [deliveryEvent, knownIn] using (h.count _).erase key

theorem startDecoder {params : Parameters} {original_size : Nat}
    (hnew : key.hash_prefix ∉ recent config known)
    (hrelay : engine.m_inbound.lookup key = some relay) :
    Delivers config start known key.hash_prefix
      (engine.startDecoder config key relay params original_size submit) := by
  rw [RelayEngine.startDecoder]
  split
  · exact (h.reject.erase key).quiet _
  · exact Moves.tryFinalizeInbound (h.change (.clear hrelay rfl (h.keeps.bytes_le hrelay :))) hnew

theorem feedInbound {payload : BlockChunkPayload} (hnew : key.hash_prefix ∉ recent config known)
    (hrelay : engine.m_inbound.lookup key = some relay) :
    Delivers config start known key.hash_prefix
      (engine.feedInbound config key relay payload submit) := by
  have hfeed : Moves config start known (engine.feedChunk config key relay payload).2 := by
    rw [feedChunk]
    split
    next hdecoder =>
      split_ifs with hfull hcapacity
      · exact h.reject
      · exact h.reject
      simp only [hasGlobalInboundBufferCapacity, Bool.not_eq_true', Bool.not_eq_false,
        Bool.and_eq_true, decide_eq_true_eq] at hcapacity
      refine h.change (.store ⟨⟨?_, by simp [hdecoder], by simp; omega⟩, ?_, by omega,
        by simp [hrelay]⟩)
      · simp [(h.keeps.lookup hrelay).bytes, Nat.mul_add]
      · simp [hrelay]
        omega
    next decoder hdecoder =>
      have hstore : Moves config start known (engine.store key
          { relay with decoder := some (decoder.addChunk (chunkOfPayload payload)).2 }) :=
        h.update hrelay rfl rfl (by rw [hdecoder]; rfl)
      dsimp only
      split_ifs
      · exact hstore.reject.erase key
      · exact hstore
  rw [RelayEngine.feedInbound]
  dsimp only
  split
  · exact (hfeed.count _).quiet _
  · exact (hfeed.count _).tryFinalizeInbound hnew

theorem onBlockHeader (inbound_peer : InboundPeerInfo) (payload : BlockHeaderPayload) (now : Int)
    (submit : List UInt8 → Bool) :
    Delivers config start known payload.block_hash_prefix
      (engine.onBlockHeader config inbound_peer payload now submit) := by
  have hkept := h.evictExpiredInbound now
  rw [RelayEngine.onBlockHeader]
  dsimp only
  generalize engine.evictExpiredInbound config now = kept at hkept ⊢
  split_ifs with hknown
  · exact (hkept.count _).quiet _
  · exact hkept.quiet _
  · exact hkept.reject.quiet _
  · exact hkept.reject.quiet _
  split
  · exact hkept.quiet _
  split_ifs
  · exact hkept.reject.quiet _
  obtain ⟨relay, room, hentry, hroom, hrelay⟩ := hkept.getOrCreateInbound
    (makeInboundRelayKey inbound_peer payload.block_hash_prefix) now
  rw [hentry]
  dsimp only
  split_ifs
  · exact hroom.quiet _
  · exact hroom.startDecoder (hkept.keeps.not_recent hknown) hrelay

theorem onBlockChunk (inbound_peer : InboundPeerInfo) (payload : BlockChunkPayload) (now : Int)
    (submit : List UInt8 → Bool) :
    Delivers config start known payload.block_hash_prefix
      (engine.onBlockChunk config inbound_peer payload now submit) := by
  have hkept := h.evictExpiredInbound now
  rw [RelayEngine.onBlockChunk]
  dsimp only
  generalize engine.evictExpiredInbound config now = kept at hkept ⊢
  split_ifs with hknown
  · exact (hkept.count _).quiet _
  · exact hkept.reject.quiet _
  obtain ⟨relay, room, hentry, hroom, hrelay⟩ := hkept.getOrCreateInbound
    (makeInboundRelayKey inbound_peer payload.block_hash_prefix) now
  rw [hentry]
  exact hroom.feedInbound (hkept.keeps.not_recent hknown) hrelay

end Moves

theorem Delivers.not_known {r : RelayEngine c × Option Submission}
    (h : Delivers config start known hash_prefix r) {event : EngineEvent}
    (hevent : deliveryEvent hash_prefix r.2 = some event) :
    event.hash_prefix ∉ recent config known := by
  obtain ⟨submission, hsome, rfl⟩ := Option.map_eq_some_iff.mp hevent
  exact h.new (by rw [hsome]; rfl)

/-- **What a call changes.**  A block that something is done with was not known before. -/
theorem moves_step (h : Keeps config known engine) (call : EngineCall) :
    Moves config (known, engine) (known ++ knownIn (engine.step config call).2.toList)
        (engine.step config call).1 ∧
      ∀ event, (engine.step config call).2 = some event →
        event.hash_prefix ∉ recent config known := by
  have hquiet {kept} (hkept : Moves config (known, engine) known kept) :
      Moves config (known, engine) (known ++ knownIn none.toList) kept := by
    simpa [knownIn] using hkept
  cases call with
  | onNewBlock hash_hex block_data =>
    rw [step, onNewBlock]
    dsimp only
    split_ifs with hknown
    · exact ⟨hquiet (h.moves.count _), nofun⟩
    have hnew := h.not_recent hknown
    cases config.fec_parameters.bind (encode c · block_data) with
    | none => exact ⟨hquiet h.moves, nofun⟩
    | some encoded =>
      refine ⟨((h.moves.change (.outbound _)).remember hnew).count _, ?_⟩
      rintro event ⟨⟩
      exact hnew
  | onBlockHeader inbound_peer payload now submit =>
    have hdelivers := h.moves.onBlockHeader inbound_peer payload now submit
    exact ⟨hdelivers.moves, fun event => hdelivers.not_known⟩
  | onBlockChunk inbound_peer payload now submit =>
    have hdelivers := h.moves.onBlockChunk inbound_peer payload now submit
    exact ⟨hdelivers.moves, fun event => hdelivers.not_known⟩
  | pumpOutbound S env slots =>
    refine ⟨hquiet ?_, nofun⟩
    have hkept := h.moves.evictExpiredInbound env.now
    rw [step, pumpOutbound]
    dsimp only
    generalize engine.evictExpiredInbound config env.now = kept at hkept ⊢
    split
    · exact hkept
    split_ifs
    · exact hkept
    all_goals
      dsimp only
      exact (hkept.change (.outbound _)).count _

/-! ## Runs -/

theorem keeps_run (config : NormalConfig) (calls : List EngineCall) :
    Keeps config (knownIn (run config c calls).2) (run config c calls).1 := by
  induction calls using List.reverseRecOn with
  | nil =>
    have hnone : recent config (knownIn (run config c []).2) = [] := List.drop_nil
    exact ⟨⟨rfl, by simp [run], Nat.zero_le _, Nat.zero_le _⟩, ⟨hnone.symm, by rw [hnone]; rfl,
      by simp [hnone]⟩⟩
  | append_singleton calls call ih =>
    simpa [knownIn, run] using (moves_step ih call).1.keeps

/-- Since a block that is not remembered became known, as many others did as are remembered. -/
theorem capacity_le_of_notMem {before after : List UInt64}
    (hnodup : (recent config (before ++ hash_prefix :: after)).Nodup)
    (hnew : hash_prefix ∉ recent config (before ++ hash_prefix :: after)) :
    config.seen_blocks_capacity ≤ (after.toFinset.erase hash_prefix).card := by
  have hlast : recent config (before ++ hash_prefix :: after) <:+ before ++ hash_prefix :: after :=
    List.drop_suffix _ _
  have hlength : (recent config (before ++ hash_prefix :: after)).length =
      min config.seen_blocks_capacity (before ++ hash_prefix :: after).length := by
    rw [recent, List.length_drop]
    omega
  generalize recent config (before ++ hash_prefix :: after) = order
    at hnodup hnew hlast hlength
  -- all that is remembered became known after the block
  have hafter : order <:+ after := by
    rcases List.suffix_or_suffix_of_suffix hlast (List.suffix_append _ _) with h | h
    · rcases List.suffix_cons_iff.mp h with rfl | h
      · exact absurd List.mem_cons_self hnew
      · exact h
    · exact absurd (h.subset List.mem_cons_self) hnew
  calc config.seen_blocks_capacity
      = order.toFinset.card := by
        have hle := hafter.length_le
        rw [List.length_append, List.length_cons] at hlength
        rw [List.toFinset_card_of_nodup hnodup]
        omega
    _ ≤ (after.toFinset.erase hash_prefix).card := by
        refine Finset.card_le_card fun p hp => ?_
        rw [List.mem_toFinset] at hp
        rw [Finset.mem_erase, List.mem_toFinset]
        exact ⟨fun heq => hnew (heq ▸ hp), hafter.subset hp⟩

/-- **A relayed block is submitted at most once per memory window.**  The two containers always hold
the same, within the capacity; and from where a block becomes known to a later submission for it, as
many others become known as the engine remembers. -/
theorem submitted_once_per_window (config : NormalConfig) (calls : List EngineCall) :
    ((run config c calls).1.m_seen_set = (run config c calls).1.m_seen_order.toFinset ∧
      (run config c calls).1.m_seen_order.Nodup ∧
      (run config c calls).1.m_seen_order.length ≤ config.seen_blocks_capacity) ∧
    ∀ before first mid call event, (run config c calls).2 = before ++ first :: mid →
      first.known = true → ((run config c calls).1.step config call).2 = some event →
      event.submitted = true → event.hash_prefix = first.hash_prefix →
      config.seen_blocks_capacity ≤ ((knownIn mid).toFinset.erase first.hash_prefix).card := by
  have hkeeps := keeps_run (c := c) config calls
  refine ⟨⟨by rw [hkeeps.order_eq, hkeeps.set_eq], hkeeps.order_eq ▸ hkeeps.nodup, ?_⟩, ?_⟩
  · rw [hkeeps.order_eq, recent, List.length_drop]
    omega
  rintro before first mid call event hevents hfirst hevent - hsame
  have hnew := (moves_step hkeeps call).2 event hevent
  have hknown : knownIn (run config c calls).2 =
      knownIn before ++ first.hash_prefix :: knownIn mid := by
    simp [hevents, knownIn, hfirst]
  rw [hsame, hknown] at hnew
  exact capacity_le_of_notMem (hknown ▸ hkeeps.nodup) hnew

end RelayEngine

end Qbit.Photon
