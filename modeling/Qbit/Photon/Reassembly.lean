import Qbit.Photon.RelayEngine
import Qbit.Photon.Decoding

/-!
# Putting a block together

What happens to an entry that only ever gets the header and chunks of one block.

The functions that make room in the engine leave an entry alone that is not expired, and what they
leave of the seen blocks and of the buffered bytes is `Shrinks`.  An entry is first `buffering` and
after the header `decoding` (`InboundRelay.Holds`); `Waiting` says this of the engine.  Each
delivery has an `Outcome`: the entry has what it had and what the delivery added, or the block was
submitted.
-/

namespace Qbit.Photon

open Fec

variable {c : Codec} {config : NormalConfig}

variable {engine engine' : RelayEngine c} {key : InboundRelayKey} {relay : InboundRelay c}

namespace RelayEngine

/-! ## What the engine's functions leave alone -/

@[simp] theorem m_seen_set_count (f : RelayStats → RelayStats) (engine : RelayEngine c) :
    (engine.count f).m_seen_set = engine.m_seen_set := rfl

@[simp] theorem m_outbound_count (f : RelayStats → RelayStats) (engine : RelayEngine c) :
    (engine.count f).m_outbound = engine.m_outbound := rfl

@[simp] theorem lookup_store (key : InboundRelayKey) (relay : InboundRelay c)
    (engine : RelayEngine c) : (engine.store key relay).m_inbound.lookup key = some relay :=
  AList.lookup_insert _

/-- Entries were erased: nothing is seen or forgotten, nothing goes out and the buffers only get
smaller. -/
structure Shrinks (engine engine' : RelayEngine c) : Prop where
  seen : engine'.m_seen_set = engine.m_seen_set
  outbound : engine'.m_outbound = engine.m_outbound
  bytes : engine'.m_inbound_buffered_bytes ≤ engine.m_inbound_buffered_bytes
  gone : ∀ key, engine.m_inbound.lookup key = none → engine'.m_inbound.lookup key = none

theorem Shrinks.refl (engine : RelayEngine c) : engine.Shrinks engine :=
  ⟨rfl, rfl, Nat.le_refl _, fun _ h => h⟩

theorem Shrinks.trans {a b d : RelayEngine c} (h : a.Shrinks b) (h' : b.Shrinks d) :
    a.Shrinks d where
  seen := h'.seen.trans h.seen
  outbound := h'.outbound.trans h.outbound
  bytes := h'.bytes.trans h.bytes
  gone key hkey := h'.gone key (h.gone key hkey)

theorem Shrinks.isKnown (h : engine.Shrinks engine') ( hash_prefix : UInt64) :
    engine'.isKnown hash_prefix = engine.isKnown hash_prefix := by
  simp [RelayEngine.isKnown, h.seen]

theorem Shrinks.hasCapacity (h : engine.Shrinks engine')
    (hcapacity : engine.hasGlobalInboundBufferCapacity config = true) :
    engine'.hasGlobalInboundBufferCapacity config = true := by
  simp only [hasGlobalInboundBufferCapacity, Bool.and_eq_true, decide_eq_true_eq] at hcapacity ⊢
  exact ⟨hcapacity.1, h.bytes.trans hcapacity.2⟩

theorem lookup_eraseInbound (key other : InboundRelayKey) (engine : RelayEngine c) :
    (engine.eraseInbound key).m_inbound.lookup other =
      if other = key then none else engine.m_inbound.lookup other := by
  rw [eraseInbound]
  cases hkey : engine.m_inbound.lookup key with
  | none =>
    split_ifs with heq
    · rw [heq]
      exact hkey
    · rfl
  | some relay =>
    split_ifs with heq
    · rw [heq]
      simp
    · exact AList.lookup_erase_ne heq

theorem shrinks_eraseInbound (key : InboundRelayKey) (engine : RelayEngine c) :
    engine.Shrinks (engine.eraseInbound key) := by
  have hgone : ∀ other, engine.m_inbound.lookup other = none →
      (engine.eraseInbound key).m_inbound.lookup other = none := by
    intro other hother
    rw [lookup_eraseInbound, hother, ite_self]
  rw [eraseInbound] at hgone ⊢
  cases hkey : engine.m_inbound.lookup key with
  | none => exact Shrinks.refl engine
  | some relay =>
    rw [hkey] at hgone
    exact ⟨rfl, rfl, Nat.sub_le _ _, hgone⟩

theorem lookup_foldl_eraseInbound {entries : List (Σ _ : InboundRelayKey, InboundRelay c)}
    (h : ∀ entry ∈ entries, key ≠ entry.1) (engine : RelayEngine c) :
    (entries.foldl (fun engine entry => engine.eraseInbound entry.1) engine).m_inbound.lookup key =
      engine.m_inbound.lookup key := by
  induction entries generalizing engine with
  | nil => rfl
  | cons entry entries ih =>
    rw [List.foldl_cons, ih (fun entry' hmem => h entry' (List.mem_cons_of_mem entry hmem)),
      lookup_eraseInbound, if_neg (h entry List.mem_cons_self)]

theorem shrinks_foldl_eraseInbound (entries : List (Σ _ : InboundRelayKey, InboundRelay c))
    (engine : RelayEngine c) :
    engine.Shrinks (entries.foldl (fun engine entry => engine.eraseInbound entry.1) engine) := by
  induction entries generalizing engine with
  | nil => exact Shrinks.refl engine
  | cons entry entries ih => exact (shrinks_eraseInbound entry.1 engine).trans (ih _)

theorem shrinks_eraseEntries (erased : InboundRelayKey → InboundRelay c → Bool)
    (engine : RelayEngine c) : engine.Shrinks (engine.eraseEntries erased) :=
  shrinks_foldl_eraseInbound _ _

theorem lookup_eraseEntries {erased : InboundRelayKey → InboundRelay c → Bool}
    (h : ∀ relay, engine.m_inbound.lookup key = some relay → erased key relay = false) :
    (engine.eraseEntries erased).m_inbound.lookup key = engine.m_inbound.lookup key := by
  refine lookup_foldl_eraseInbound ?_ engine
  rintro ⟨key', relay⟩ hmem rfl
  obtain ⟨hentry, herased⟩ := List.mem_filter.mp hmem
  cases (h relay (AList.mem_lookup_iff.mpr hentry)).symm.trans herased

theorem shrinks_count (f : RelayStats → RelayStats) (engine : RelayEngine c) :
    engine.Shrinks (engine.count f) := ⟨rfl, rfl, Nat.le_refl _, fun _ h => h⟩

theorem shrinks_evictExpiredInbound (now : Int) (engine : RelayEngine c) :
    engine.Shrinks (engine.evictExpiredInbound config now) := by
  rw [evictExpiredInbound]
  exact (shrinks_eraseEntries _ engine).trans (shrinks_count _ _)

/-- **An entry that is not expired stays.** -/
theorem lookup_evictExpiredInbound {now : Int}
    (h : ∀ relay, engine.m_inbound.lookup key = some relay →
      now - relay.last_updated ≤ config.max_inbound_age) :
    (engine.evictExpiredInbound config now).m_inbound.lookup key =
      engine.m_inbound.lookup key := by
  refine lookup_eraseEntries fun relay hrelay => ?_
  simp [expired, h relay hrelay]

theorem foldl_older_mem (first : Σ _ : InboundRelayKey, InboundRelay c)
    (entries : List (Σ _ : InboundRelayKey, InboundRelay c)) :
    entries.foldl older first ∈ first :: entries := by
  induction entries generalizing first with
  | nil => exact List.mem_singleton_self first
  | cons entry entries ih =>
    have holder : older first entry = first ∨ older first entry = entry := by
      rw [older]
      split_ifs
      · exact .inr rfl
      · exact .inr rfl
      · exact .inl rfl
    rw [List.foldl_cons]
    rcases List.mem_cons.mp (ih (older first entry)) with hmem | hmem
    · rw [hmem]
      rcases holder with heq | heq <;> simp [heq]
    · exact List.mem_cons_of_mem first (List.mem_cons_of_mem entry hmem)

theorem length_eraseInbound (h : engine.m_inbound.lookup key = some relay) :
    (engine.eraseInbound key).m_inbound.entries.length + 1 = engine.m_inbound.entries.length := by
  have hmem : key ∈ engine.m_inbound.keys := AList.lookup_isSome.mp (by rw [h]; rfl)
  have hkeys : ∀ map : AList fun _ : InboundRelayKey => InboundRelay c,
      map.entries.length = map.keys.length := fun map => (List.length_map _).symm
  rw [eraseInbound, h]
  rw [hkeys, hkeys, AList.keys_erase, List.length_erase_of_mem hmem]
  have hpos := List.length_pos_of_mem hmem
  omega

theorem evictOldestInbound_spec (hsize : 0 < engine.m_inbound.entries.length) :
    ∃ engine', engine.evictOldestInbound = some engine' ∧ engine.Shrinks engine' ∧
      engine'.m_inbound.entries.length + 1 = engine.m_inbound.entries.length := by
  rw [evictOldestInbound]
  rcases hentries : engine.m_inbound.entries with _ | ⟨first, entries⟩
  · rw [hentries] at hsize
    cases hsize
  have hmem : entries.foldl older first ∈ engine.m_inbound.entries :=
    hentries ▸ foldl_older_mem first entries
  refine ⟨_, rfl, (shrinks_eraseInbound _ engine).trans (shrinks_count _ _), ?_⟩
  rw [← hentries]
  exact length_eraseInbound (AList.mem_lookup_iff.mpr hmem)

theorem makeRoom_spec (config : NormalConfig) {size : Nat}
    (hsize : engine.m_inbound.entries.length = size) :
    ∃ engine', engine.makeRoom config size = some engine' ∧ engine.Shrinks engine' := by
  induction size generalizing engine with
  | zero =>
    have hroom : ¬(config.max_inbound_entries ≤ engine.m_inbound.entries.length) := by
      have hpos := config.entries_pos
      omega
    rw [makeRoom, if_neg hroom]
    exact ⟨engine, rfl, Shrinks.refl engine⟩
  | succ size ih =>
    rw [makeRoom]
    split_ifs
    · have hpos : 0 < engine.m_inbound.entries.length := by omega
      obtain ⟨next, hnext, hshrinks, hlength⟩ := evictOldestInbound_spec hpos
      have hless : next.m_inbound.entries.length = size := by omega
      obtain ⟨last, hlast, hshrinks'⟩ := ih hless
      rw [hnext, Option.bind_some, hlast]
      exact ⟨last, rfl, hshrinks.trans hshrinks'⟩
    · exact ⟨engine, rfl, Shrinks.refl engine⟩

/-- The entry that `GetOrCreateInbound` gives: the one that is there or a new one. -/
def entryAt (now : Int) (entry : Option (InboundRelay c)) : InboundRelay c :=
  match entry with
  | some relay => { relay with last_updated := now }
  | none => { first_seen := now, last_updated := now }

/-- **Getting an entry** always succeeds.  A new one may cost others their place. -/
theorem getOrCreateInbound_spec (config : NormalConfig) (key : InboundRelayKey) (now : Int)
    (engine : RelayEngine c) :
    ∃ room, engine.Shrinks room ∧
      (∀ relay, engine.m_inbound.lookup key = some relay → room = engine) ∧
      engine.getOrCreateInbound config key now =
        some (entryAt now (engine.m_inbound.lookup key),
          room.store key (entryAt now (engine.m_inbound.lookup key))) := by
  rw [getOrCreateInbound]
  cases hentry : engine.m_inbound.lookup key with
  | some relay => exact ⟨engine, Shrinks.refl engine, fun _ _ => rfl, rfl⟩
  | none =>
    obtain ⟨room, hroom, hshrinks⟩ :=
      makeRoom_spec config (rfl : engine.m_inbound.entries.length = _)
    refine ⟨room, hshrinks, fun relay h => (by cases h), ?_⟩
    rw [hroom]
    rfl

/-- **A block that is remembered is known**, unless nothing is ever remembered. -/
theorem isKnown_rememberSeen (h : config.seen_blocks_capacity ≠ 0) ( hash_prefix : UInt64)
    (engine : RelayEngine c) :
    (engine.rememberSeen config hash_prefix).isKnown hash_prefix = true := by
  rw [rememberSeen, if_neg h]
  split_ifs with hknown
  · exact hknown
  · simp [isKnown]

theorem m_outbound_rememberSeen ( hash_prefix : UInt64) (engine : RelayEngine c) :
    (engine.rememberSeen config hash_prefix).m_outbound = engine.m_outbound := by
  rw [rememberSeen]
  split_ifs <;> rfl

end RelayEngine

/-! ## An entry and what it has got -/

/-- The group and the number of a chunk. -/
def Fec.Chunk.place (chunk : Chunk) : UInt16 × UInt8 := (chunk.coding_group_id, chunk.chunk_id)

/-- An entry with what has arrived of a block: before the header in the buffer, after it in the
decoder. -/
inductive InboundRelay.Holds (params : Parameters) (block : List UInt8) :
    List (UInt16 × UInt8) → Bool → InboundRelay c → Prop
  | buffering {relay : InboundRelay c} (hdecoder : relay.decoder = none)
      (hchunks : ∀ chunk ∈ relay.buffered_chunks, IsChunkOf c params block chunk) :
      Holds params block (relay.buffered_chunks.map Chunk.place) false relay
  | decoding {relay : InboundRelay c} {arrivals : List (UInt16 × UInt8)} {decoder : Decoder c}
      (hdecoder : relay.decoder = some decoder) (hfed : decoder.Fed params block arrivals)
      (hmore : decoder.isComplete = false) : Holds params block arrivals true relay

/-- The engine waits for more of a block. -/
structure Waiting (params : Parameters) (block : List UInt8) (key : InboundRelayKey)
    (arrivals : List (UInt16 × UInt8)) (started : Bool) (engine : RelayEngine c) : Prop where
  unknown : engine.isKnown key.hash_prefix = false
  entry : ∀ relay, engine.m_inbound.lookup key = some relay →
    relay.Holds params block arrivals started
  empty : engine.m_inbound.lookup key = none → arrivals = [] ∧ started = false

/-- What can come of a delivery: it was not enough, or the block was submitted. -/
inductive Outcome (params : Parameters) (block : List UInt8) (key : InboundRelayKey)
    (arrivals : List (UInt16 × UInt8)) (started : Bool) : RelayEngine c × Option Submission → Prop
  | waits {engine : RelayEngine c} (h : Waiting params block key arrivals started engine) :
      Outcome params block key arrivals started (engine, none)
  | fails {engine : RelayEngine c} (h : Waiting params block key [] false engine) :
      Outcome params block key arrivals started (engine, some ⟨block, false⟩)
  | submits {engine : RelayEngine c} (h : engine.isKnown key.hash_prefix = true) :
      Outcome params block key arrivals started (engine, some ⟨block, true⟩)

/-- A block that an engine with this configuration takes, and remembers. -/
structure Relayable (c : Codec) (config : NormalConfig) (params : Parameters)
    (block : List UInt8) : Prop where
  nonempty : block ≠ []
  size : block.length < 2 ^ 63
  fits : block.length ≤ config.max_inbound_original_size
  groups : groupCount params block ≤ 0xffff
  budget : decoderBudgetBytes params (groupCount params block) params.groupPayloadBytes ≤
    config.max_inbound_decoder_bytes_per_entry
  codec : CodecCorrectOn c params block
  remembers : config.seen_blocks_capacity ≠ 0

variable {params : Parameters} {block : List UInt8} {arrivals : List (UInt16 × UInt8)}
  {started : Bool}

theorem InboundRelay.Holds.congr {relay' : InboundRelay c}
    (h : relay.Holds params block arrivals started) (hdecoder : relay'.decoder = relay.decoder)
    (hbuffered : relay'.buffered_chunks = relay.buffered_chunks) :
    relay'.Holds params block arrivals started := by
  cases h with
  | buffering hnone hchunks =>
    rw [← hbuffered] at hchunks ⊢
    exact .buffering (hdecoder.trans hnone) hchunks
  | decoding hsome hfed hmore => exact .decoding (hdecoder.trans hsome) hfed hmore

theorem Relayable.groupCount_pos (h : Relayable c config params block) :
    0 < groupCount params block := by
  have hpos := List.length_pos_iff.mpr h.nonempty
  have hle := length_le_groupCount_mul params h.size
  by_contra hzero
  rw [Nat.eq_zero_of_not_pos hzero, Nat.zero_mul] at hle
  omega

theorem Waiting.of_holds (hunknown : engine.isKnown key.hash_prefix = false)
    (hentry : engine.m_inbound.lookup key = some relay)
    (hholds : relay.Holds params block arrivals started) :
    Waiting params block key arrivals started engine where
  unknown := hunknown
  entry other hother := Option.some.inj (hentry.symm.trans hother) ▸ hholds
  empty hnone := by cases hentry.symm.trans hnone

theorem Waiting.congr (h : Waiting params block key arrivals started engine)
    (hseen : engine'.m_seen_set = engine.m_seen_set)
    (hentry : engine'.m_inbound.lookup key = engine.m_inbound.lookup key) :
    Waiting params block key arrivals started engine' where
  unknown := by
    rw [RelayEngine.isKnown, hseen]
    exact h.unknown
  entry relay hrelay := h.entry relay (hentry ▸ hrelay)
  empty hnone := h.empty (hentry ▸ hnone)

theorem Waiting.eraseInbound (hunknown : engine.isKnown key.hash_prefix = false) :
    Waiting params block key [] false (engine.eraseInbound key) := by
  have hgone : (engine.eraseInbound key).m_inbound.lookup key = none := by
    rw [RelayEngine.lookup_eraseInbound, if_pos rfl]
  refine ⟨((RelayEngine.shrinks_eraseInbound key engine).isKnown _).trans hunknown,
    fun relay hrelay => ?_, fun _ => ⟨rfl, rfl⟩⟩
  cases hgone.symm.trans hrelay

namespace RelayEngine

variable {decoder : Decoder c}

/-- **The end of each delivery**: a decoder that is not complete waits, a complete one gives the
block. -/
theorem outcome_tryFinalizeInbound (hrelayable : Relayable c config params block)
    (hunknown : engine.isKnown key.hash_prefix = false)
    (hentry : engine.m_inbound.lookup key = some relay) (hdecoder : relay.decoder = some decoder)
    (hfed : decoder.Fed params block arrivals) (submit : List UInt8 → Bool) :
    Outcome params block key arrivals true
      (engine.tryFinalizeInbound config key relay submit) := by
  rw [tryFinalizeInbound, hdecoder]
  dsimp only
  rcases hcomplete : decoder.isComplete with _ | _
  · exact .waits (.of_holds hunknown hentry (.decoding hdecoder hfed hcomplete))
  rw [Bool.not_true, if_neg Bool.false_ne_true, hfed.reconstruct hrelayable.size hcomplete]
  dsimp only
  cases submit block with
  | true =>
    refine .submits ?_
    rw [eraseInboundForPrefix, (shrinks_eraseEntries _ _).isKnown]
    exact isKnown_rememberSeen hrelayable.remembers _ _
  | false => exact .fails (.eraseInbound hunknown)

theorem tryFinalizeInbound_of_none (h : relay.decoder = none) (key : InboundRelayKey)
    (submit : List UInt8 → Bool) (engine : RelayEngine c) :
    engine.tryFinalizeInbound config key relay submit = (engine, none) := by
  rw [tryFinalizeInbound, h]

theorem exists_feedBuffered (hcodec : CodecCorrectOn c params block) {chunks : List Chunk}
    (hfed : decoder.Fed params block arrivals)
    (hchunks : ∀ chunk ∈ chunks, IsChunkOf c params block chunk) :
    ∃ decoder', feedBuffered decoder chunks = some decoder' ∧
      decoder'.Fed params block (arrivals ++ chunks.map Chunk.place) := by
  induction chunks generalizing decoder arrivals with
  | nil => exact ⟨decoder, rfl, by rwa [List.map_nil, List.append_nil]⟩
  | cons chunk chunks ih =>
    obtain ⟨next, hnext, hfed'⟩ := hfed.add hcodec (hchunks chunk List.mem_cons_self)
    obtain ⟨last, hlast, hfed''⟩ := ih hfed' fun chunk' hmem =>
      hchunks chunk' (List.mem_cons_of_mem chunk hmem)
    refine ⟨last, ?_, ?_⟩
    · rw [feedBuffered, hnext]
      exact hlast
    · rw [List.append_assoc] at hfed''
      exact hfed''

theorem outcome_startDecoder (hrelayable : Relayable c config params block) (relay : InboundRelay c)
    (hunknown : engine.isKnown key.hash_prefix = false)
    (hchunks : ∀ chunk ∈ relay.buffered_chunks, IsChunkOf c params block chunk)
    (submit : List UInt8 → Bool) :
    Outcome params block key (relay.buffered_chunks.map Chunk.place) true
      (engine.startDecoder config key relay params block.length submit) := by
  obtain ⟨decoder, hcreate, hfed⟩ := Decoder.exists_create hrelayable.codec hrelayable.nonempty
    hrelayable.groupCount_pos hrelayable.groups
  obtain ⟨decoder', hfeed, hfed'⟩ := exists_feedBuffered hrelayable.codec hfed hchunks
  rw [startDecoder, hcreate, Option.bind_some, hfeed]
  refine outcome_tryFinalizeInbound hrelayable ?_ (lookup_store _ _ _) ?_ hfed' submit
  · exact hunknown
  · rfl

end RelayEngine

/-! ## Deliveries -/

/-- The header of a block. -/
def headerOf ( hash_prefix : UInt64) (params : Parameters) (block : List UInt8) :
    BlockHeaderPayload where
  block_hash_prefix := hash_prefix
  original_size := UInt64.ofNat block.length
  data_chunks := UInt16.ofNat params.data_chunks
  coding_group_count := UInt16.ofNat (groupCount params block)

namespace RelayEngine

theorem headerFits_headerOf (hrelayable : Relayable c config params block) ( hash_prefix : UInt64) :
    headerFits config params (headerOf hash_prefix params block) = true := by
  have hsize : (UInt64.ofNat block.length).toNat = block.length :=
    UInt64.toNat_ofNat_of_lt' (Nat.lt_trans hrelayable.size (by decide))
  have hgroups : divCeil block.length params.groupPayloadBytes ≤ 0xffff := hrelayable.groups
  have hbudget := hrelayable.budget
  rw [groupCount] at hbudget
  simp [headerFits, headerOf, hsize, groupCount, hgroups, hbudget]

variable {inbound_peer : InboundPeerInfo} { hash_prefix : UInt64} {now : Int}
  {payload : BlockChunkPayload}

theorem onBlockHeader_headerOf (hrelayable : Relayable c config params block)
    {evicted engine' : RelayEngine c} (hevicted : engine.evictExpiredInbound config now = evicted)
    (hunknown : evicted.isKnown hash_prefix = false)
    (hget : evicted.getOrCreateInbound config (makeInboundRelayKey inbound_peer hash_prefix) now =
      some (relay, engine')) (submit : List UInt8 → Bool) :
    engine.onBlockHeader config inbound_peer (headerOf hash_prefix params block) now submit =
      if relay.decoder.isSome then (engine', none)
      else engine'.startDecoder config (makeInboundRelayKey inbound_peer hash_prefix) relay params
        block.length submit := by
  have hsize : (UInt64.ofNat block.length).toNat = block.length :=
    UInt64.toNat_ofNat_of_lt' (Nat.lt_trans hrelayable.size (by decide))
  have hdata : (UInt16.ofNat params.data_chunks).toNat = params.data_chunks :=
    UInt16.toNat_ofNat_of_lt' (Nat.lt_trans params.lt_total (by decide))
  have hchunks : ¬((decide (params.data_chunks < 2) ||
      decide (params.data_chunks ≥ FEC_TOTAL_CHUNKS)) = true) := by
    have htwo := params.two_le
    have hlt := params.lt_total
    simp only [Bool.or_eq_true, decide_eq_true_eq]
    omega
  have hzero : UInt64.ofNat block.length ≠ 0 := by
    intro hzero
    have hpos := List.length_pos_iff.mpr hrelayable.nonempty
    rw [← hsize, hzero] at hpos
    exact absurd hpos (by decide)
  have hfits : ¬(block.length > config.max_inbound_original_size) := Nat.not_lt.mpr hrelayable.fits
  have hheader :
      BlockHeaderPayload.block_hash_prefix (headerOf hash_prefix params block) = hash_prefix ∧
      (headerOf hash_prefix params block).original_size = UInt64.ofNat block.length ∧
      (headerOf hash_prefix params block).data_chunks = UInt16.ofNat params.data_chunks :=
    ⟨rfl, rfl, rfl⟩
  rw [onBlockHeader, hevicted, hheader.1, hheader.2.1, hheader.2.2]
  rw [hunknown, if_neg Bool.false_ne_true, hdata, if_neg hchunks, if_neg hzero, hsize,
    if_neg hfits, Parameters.fromDataChunkCount_ofNat]
  simp [headerFits_headerOf hrelayable, hget]

/-- **A header** starts the decoder, unless it has started. -/
theorem outcome_onBlockHeader (hrelayable : Relayable c config params block)
    (hkey : makeInboundRelayKey inbound_peer hash_prefix = key)
    (hwaiting : Waiting params block key arrivals started engine)
    (hfresh : ∀ relay, engine.m_inbound.lookup key = some relay →
      now - relay.last_updated ≤ config.max_inbound_age) (submit : List UInt8 → Bool) :
    Outcome params block key arrivals true (engine.onBlockHeader config inbound_peer
      (headerOf hash_prefix params block) now submit) := by
  have hwaiting := hwaiting.congr (shrinks_evictExpiredInbound now engine).seen
    (lookup_evictExpiredInbound hfresh)
  have hhash : key.hash_prefix = hash_prefix := hkey ▸ rfl
  generalize hevicted : engine.evictExpiredInbound config now = evicted at hwaiting
  obtain ⟨room, hshrinks, -, hget⟩ := getOrCreateInbound_spec config key now evicted
  have hunknown : ∀ relay, (room.store key relay).isKnown key.hash_prefix = false := fun _ =>
    (hshrinks.isKnown _).trans hwaiting.unknown
  rw [onBlockHeader_headerOf hrelayable hevicted (hhash ▸ hwaiting.unknown) (hkey ▸ hget), hkey]
  rcases hentry : evicted.m_inbound.lookup key with _ | relay
  · obtain ⟨rfl, -⟩ := hwaiting.empty hentry
    exact outcome_startDecoder hrelayable (entryAt now none) (hunknown _)
      (fun chunk hmem => absurd hmem List.not_mem_nil) submit
  cases hwaiting.entry relay hentry with
  | buffering hdecoder hchunks =>
    rw [if_neg (by simp [entryAt, hdecoder])]
    exact outcome_startDecoder hrelayable (entryAt now (some relay)) (hunknown _) hchunks submit
  | decoding hdecoder hfed hmore =>
    rw [if_pos (by simp [entryAt, hdecoder])]
    exact .waits (.of_holds (hunknown _) (lookup_store _ _ _) (.decoding hdecoder hfed hmore))

/-- The entry has no decoder yet and there is no room for a chunk. -/
def bufferFull (config : NormalConfig) (relay : InboundRelay c) (engine : RelayEngine c) : Bool :=
  relay.decoder.isNone &&
    (config.max_inbound_buffered_chunks_per_entry ≤ relay.buffered_chunks.length ||
      !engine.hasGlobalInboundBufferCapacity config)

theorem feedChunk_full (h : bufferFull config relay engine = true) (key : InboundRelayKey)
    (payload : BlockChunkPayload) :
    engine.feedChunk config key relay payload = (some relay, engine.reject) := by
  rw [bufferFull, Bool.and_eq_true, Option.isNone_iff_eq_none, Bool.or_eq_true] at h
  obtain ⟨hdecoder, hlimit | hcapacity⟩ := h
  · rw [feedChunk, hdecoder]
    exact if_pos (of_decide_eq_true hlimit)
  simp [feedChunk, hdecoder, hcapacity]

theorem feedChunk_buffer (hdecoder : relay.decoder = none)
    (h : ¬(bufferFull config relay engine = true)) (key : InboundRelayKey)
    (payload : BlockChunkPayload) :
    ∃ relay' engine', engine.feedChunk config key relay payload = (some relay', engine') ∧
      relay'.decoder = none ∧
      relay'.buffered_chunks = relay.buffered_chunks ++ [chunkOfPayload payload] ∧
      engine'.m_seen_set = engine.m_seen_set ∧ engine'.m_inbound.lookup key = some relay' := by
  rw [bufferFull, hdecoder, Option.isNone_none, Bool.true_and, Bool.or_eq_true, not_or,
    decide_eq_true_eq] at h
  rw [feedChunk, hdecoder]
  rw [if_neg h.1, if_neg h.2]
  exact ⟨_, _, rfl, rfl, rfl, rfl, lookup_store _ _ _⟩

theorem feedChunk_decoder {decoder decoder' : Decoder c} (hdecoder : relay.decoder = some decoder)
    (hadd : decoder.addChunk (chunkOfPayload payload) = (true, decoder')) (key : InboundRelayKey)
    (engine : RelayEngine c) :
    engine.feedChunk config key relay payload =
      (some { relay with decoder := some decoder' },
        engine.store key { relay with decoder := some decoder' }) := by
  rw [feedChunk, hdecoder]
  simp [hadd]

theorem outcome_feedInbound (hrelayable : Relayable c config params block)
    (hunknown : engine.isKnown key.hash_prefix = false)
    (hentry : engine.m_inbound.lookup key = some relay)
    (hholds : relay.Holds params block arrivals started)
    (hchunk : IsChunkOf c params block (chunkOfPayload payload)) (submit : List UInt8 → Bool) :
    Outcome params block key
      (if bufferFull config relay engine then arrivals
        else arrivals ++ [(chunkOfPayload payload).place]) started
      (engine.feedInbound config key relay payload submit) := by
  rw [feedInbound]
  cases hholds with
  | buffering hdecoder hchunks =>
    by_cases hfull : bufferFull config relay engine = true
    · rw [feedChunk_full hfull, if_pos hfull]
      dsimp only
      rw [tryFinalizeInbound_of_none hdecoder]
      exact .waits (.of_holds hunknown hentry (.buffering hdecoder hchunks))
    obtain ⟨relay', engine', hfeed, hdecoder', hbuffered, hseen, hentry'⟩ :=
      feedChunk_buffer hdecoder hfull key payload
    have hchunks' : ∀ chunk ∈ relay'.buffered_chunks, IsChunkOf c params block chunk := by
      intro chunk hmem
      rw [hbuffered] at hmem
      rcases List.mem_append.mp hmem with hmem | hmem
      · exact hchunks chunk hmem
      · exact List.mem_singleton.mp hmem ▸ hchunk
    have hholds' := InboundRelay.Holds.buffering hdecoder' hchunks'
    rw [hbuffered, List.map_append, List.map_singleton] at hholds'
    rw [hfeed, if_neg hfull]
    dsimp only
    rw [tryFinalizeInbound_of_none hdecoder']
    refine .waits (.of_holds ?_ hentry' hholds')
    rw [isKnown, m_seen_set_count, hseen]
    exact hunknown
  | decoding hdecoder hfed hmore =>
    have hfull : ¬(bufferFull config relay engine = true) := by simp [bufferFull, hdecoder]
    obtain ⟨decoder', hadd, hfed'⟩ := hfed.add hrelayable.codec hchunk
    rw [feedChunk_decoder hdecoder hadd, if_neg hfull]
    refine outcome_tryFinalizeInbound hrelayable ?_ ?_ ?_ hfed' submit
    · exact hunknown
    · exact lookup_store _ _ _
    · rfl

/-- A chunk that the limits before the header keep out. -/
def dropsChunk (config : NormalConfig) (key : InboundRelayKey) (engine : RelayEngine c) : Bool :=
  match engine.m_inbound.lookup key with
  | none => !engine.hasGlobalInboundBufferCapacity config
  | some relay => bufferFull config relay engine

/-- **A chunk** is added to the buffer or to the decoder, unless it is dropped. -/
theorem outcome_onBlockChunk (hrelayable : Relayable c config params block)
    (hkey : makeInboundRelayKey inbound_peer payload.block_hash_prefix = key)
    (hchunk : IsChunkOf c params block (chunkOfPayload payload))
    (hwaiting : Waiting params block key arrivals started engine)
    (hfresh : ∀ relay, engine.m_inbound.lookup key = some relay →
      now - relay.last_updated ≤ config.max_inbound_age) (submit : List UInt8 → Bool) :
    Outcome params block key
      (if dropsChunk config key (engine.evictExpiredInbound config now) then arrivals
        else arrivals ++ [(chunkOfPayload payload).place]) started
      (engine.onBlockChunk config inbound_peer payload now submit) := by
  have hwaiting := hwaiting.congr (shrinks_evictExpiredInbound now engine).seen
    (lookup_evictExpiredInbound hfresh)
  have hhash : key.hash_prefix = payload.block_hash_prefix := hkey ▸ rfl
  rw [onBlockChunk]
  generalize engine.evictExpiredInbound config now = evicted at hwaiting
  obtain ⟨room, hshrinks, hsame, hget⟩ := getOrCreateInbound_spec config key now evicted
  have hunknown : ∀ relay, (room.store key relay).isKnown key.hash_prefix = false := fun _ =>
    (hshrinks.isKnown _).trans hwaiting.unknown
  dsimp only
  rw [← hhash, hwaiting.unknown, if_neg Bool.false_ne_true, hhash, hkey, hget]
  cases hentry : evicted.m_inbound.lookup key with
  | none =>
    obtain ⟨rfl, rfl⟩ := hwaiting.empty hentry
    cases hcapacity : evicted.hasGlobalInboundBufferCapacity config with
    | false =>
      have hdrops : dropsChunk config key evicted = true := by
        simp [dropsChunk, hentry, hcapacity]
      rw [if_pos hdrops]
      exact .waits (hwaiting.congr rfl rfl)
    | true =>
      have hdrops : ¬(dropsChunk config key evicted = true) := by
        simp [dropsChunk, hentry, hcapacity]
      -- Making room for the entry does not take the room for the chunk.
      have hfull : ¬(bufferFull config (entryAt now none) (room.store key (entryAt now none)) =
          true) := by
        have hroom : (room.store key (entryAt now none)).hasGlobalInboundBufferCapacity config =
          true := hshrinks.hasCapacity hcapacity
        rw [bufferFull, hroom]
        simp [entryAt, config.buffered_chunks_pos.ne']
      have hfed := outcome_feedInbound hrelayable (hunknown (entryAt now none))
        (lookup_store _ _ _) (.buffering rfl fun chunk hmem => absurd hmem List.not_mem_nil) hchunk
        submit
      rw [if_neg hdrops]
      rw [if_neg hfull] at hfed
      exact hfed
  | some relay =>
    obtain rfl := hsame relay hentry
    have hholds : (entryAt now (some relay)).Holds params block arrivals started :=
      (hwaiting.entry relay hentry).congr rfl rfl
    have hdrops : dropsChunk config key room = bufferFull config (entryAt now (some relay))
        (room.store key (entryAt now (some relay))) := by
      rw [dropsChunk, hentry]
      rfl
    rw [hdrops]
    exact outcome_feedInbound hrelayable (hunknown _) (lookup_store _ _ _) hholds hchunk submit

end RelayEngine

end Qbit.Photon
