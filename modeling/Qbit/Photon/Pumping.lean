import Qbit.Photon.Fairness
import Qbit.Photon.Reassembly

/-!
# What a sender sends

A sender that was given a block sends its header and its chunks and nothing else, and what it has
not sent is left (`sends_pumps`); so when nothing is left it has sent the header and every chunk the
encoder made (`carried_of_exhausted`).

The slots of the peer manager may be any at each tick: nothing that goes out depends on them except
to whom.  What is left to send is `OutboundRelay.remaining`.
-/

namespace Qbit.Photon

open Fec RelayEngine

variable {c : Codec} {config : NormalConfig} {S : Setup}

/-! ## Payloads -/

/-- The payload of a packet, for the packets a relay engine sends. -/
def Packet.relayPayload (packet : Packet) : Option RelayPayload :=
  match packet.msg_type with
  | .kBlockHeader => (decodeBlockHeaderPayload packet.payload).map .header
  | .kBlockChunk => (decodeBlockChunkPayload packet.payload).map .chunk
  | _ => none

/-- The header or a chunk of a block. -/
def RelayPayload.IsOf (c : Codec) ( hash_prefix : UInt64) (params : Parameters)
    (block : List UInt8) : RelayPayload → Prop
  | .header payload => payload = headerOf hash_prefix params block
  | .chunk payload => payload.block_hash_prefix = hash_prefix ∧
      IsChunkOf c params block (chunkOfPayload payload)

/-- Some packet carries the payload. -/
def Carried (payload : RelayPayload) (sent : List Sent) : Prop :=
  ∃ x ∈ sent, x.packet.relayPayload = some payload

instance (payload : RelayPayload) (sent : List Sent) : Decidable (Carried payload sent) :=
  inferInstanceAs (Decidable (∃ x ∈ sent, _))

variable {payload : RelayPayload} {sent more : List Sent} {peers : List ActivePeerInfo}
  {slots : List PeerSlot} {outbound : OutboundRelay} {engine : RelayEngine c} {hash_hex : List Char}
  {encoded : EncodedBlock}

theorem Carried.mono (h : Carried payload sent) (hsub : sent ⊆ more) : Carried payload more := by
  obtain ⟨x, hmem, hx⟩ := h
  exact ⟨x, hsub hmem, hx⟩

theorem relayPayload_eq_some {packet : Packet} (htype : packet.msg_type = payload.msgType)
    (hpayload : packet.payload = payload.encode) :
    packet.relayPayload = some payload := by
  rw [Packet.relayPayload, htype, hpayload]
  cases payload with
  | header payload =>
    exact congrArg (Option.map RelayPayload.header)
      (decodeBlockHeaderPayload_encodeBlockHeaderPayload payload)
  | chunk payload =>
    exact congrArg (Option.map RelayPayload.chunk)
      (decodeBlockChunkPayload_encodeBlockChunkPayload payload)

theorem relayPayload_of_mem_sendToPeers {x : Sent}
    (h : x ∈ (sendToPeers S payload.msgType payload.encode peers slots).2) :
    x.packet.relayPayload = some payload := by
  induction peers generalizing slots with
  | nil => cases h
  | cons peer peers ih =>
    rcases List.mem_cons.mp h with rfl | h
    · exact relayPayload_eq_some rfl rfl
    · exact ih h

theorem carried_sendToPeers (S : Setup) (payload : RelayPayload) (hpeers : peers ≠ [])
    (slots : List PeerSlot) :
    Carried payload (sendToPeers S payload.msgType payload.encode peers slots).2 := by
  have hne : (sendToPeers S payload.msgType payload.encode peers slots).2 ≠ [] := by
    cases peers with
    | nil => exact absurd rfl hpeers
    | cons peer peers => exact List.cons_ne_nil _ _
  obtain ⟨x, hx⟩ := List.exists_mem_of_ne_nil _ hne
  exact ⟨x, hx, relayPayload_of_mem_sendToPeers hx⟩

theorem relayPayload_of_mem_sendRepeated {n : Nat} {x : Sent}
    (h : x ∈ (sendRepeated S payload peers n slots).2) : x.packet.relayPayload = some payload := by
  induction n generalizing slots with
  | zero => cases h
  | succ n ih =>
    rcases List.mem_append.mp h with h | h
    · exact relayPayload_of_mem_sendToPeers h
    · exact ih h

/-! ## What is left to send -/

/-- The chunks still to be sent. -/
def OutboundRelay.remaining (outbound : OutboundRelay) : List ScheduledChunk :=
  outbound.scheduler.m_schedule.drop outbound.scheduler.m_cursor

/-- An outbound relay of a block. -/
structure OutboundRelay.Carries (c : Codec) ( hash_prefix : UInt64) (params : Parameters)
    (block : List UInt8) (outbound : OutboundRelay) : Prop where
  hash_prefix_eq : outbound.hash_prefix = hash_prefix
  header : outbound.header = headerOf hash_prefix params block
  chunks : ∀ s ∈ outbound.remaining, IsChunkOf c params block s.chunk

/-- The payload for a chunk of a block. -/
def chunkPayloadOf ( hash_prefix : UInt64) (chunk : Chunk) : RelayPayload :=
  .chunk
    { block_hash_prefix := hash_prefix
      coding_group_id := chunk.coding_group_id
      chunk_id := chunk.chunk_id
      flags := 0
      data_len := UInt16.ofNat kFecChunkSize
      chunk_data := chunk.bytes }

theorem remaining_of_next_eq_none (h : outbound.scheduler.next = none) :
    outbound.remaining = [] := by
  rw [ChunkScheduler.next] at h
  cases hget : outbound.scheduler.m_schedule[outbound.scheduler.m_cursor]? with
  | none => exact List.drop_eq_nil_iff.mpr (List.getElem?_eq_none_iff.mp hget)
  | some s =>
    rw [hget] at h
    cases h

theorem remaining_of_next_eq_some {s : ScheduledChunk} {scheduler : ChunkScheduler}
    (h : outbound.scheduler.next = some (s, scheduler)) :
    outbound.remaining = s :: OutboundRelay.remaining { outbound with scheduler := scheduler } := by
  rw [ChunkScheduler.next] at h
  rcases hget : outbound.scheduler.m_schedule[outbound.scheduler.m_cursor]? with _ | next
  · rw [hget] at h
    cases h
  rw [hget] at h
  cases h
  obtain ⟨hlt, hnext⟩ := List.getElem?_eq_some_iff.mp hget
  rw [OutboundRelay.remaining, List.drop_eq_getElem_cons hlt, hnext]
  rfl

/-- What one call sends: only what is of the block, and what it does not send is left. -/
structure Sends (c : Codec) ( hash_prefix : UInt64) (params : Parameters) (block : List UInt8)
    (before : OutboundRelay) (after : Option OutboundRelay) (sent : List Sent) : Prop where
  only : ∀ x ∈ sent, ∃ payload, x.packet.relayPayload = some payload ∧
    payload.IsOf c hash_prefix params block
  carries : ∀ outbound ∈ after, outbound.Carries c hash_prefix params block
  chunks : ∀ s ∈ before.remaining, Carried (chunkPayloadOf hash_prefix s.chunk) sent ∨
    ∃ outbound ∈ after, s ∈ outbound.remaining
  header : before.header_sent = true ∨
    Carried (.header (headerOf hash_prefix params block)) sent ∨
    ∃ outbound ∈ after, outbound.header_sent = false

variable { hash_prefix : UInt64} {params : Parameters} {block : List UInt8}

/-- Nothing is sent and everything is left. -/
theorem Sends.refl (h : outbound.Carries c hash_prefix params block) :
    Sends c hash_prefix params block outbound (some outbound) [] := by
  refine ⟨fun x hx => (by cases hx), fun outbound' hmem => Option.mem_some_iff.mp hmem ▸ h,
    fun s hs => .inr ⟨outbound, rfl, hs⟩, ?_⟩
  cases hsent : outbound.header_sent with
  | true => exact .inl rfl
  | false => exact .inr (.inr ⟨outbound, rfl, hsent⟩)

theorem Sends.append {before : OutboundRelay} {mid after : Option OutboundRelay}
    (h : Sends c hash_prefix params block before mid sent)
    (hsome : ∀ outbound ∈ mid, Sends c hash_prefix params block outbound after more)
    (hnone : mid = none → after = none ∧ more = []) :
    Sends c hash_prefix params block before after (sent ++ more) := by
  have hleft := List.subset_append_left sent more
  have hright := List.subset_append_right sent more
  refine ⟨fun x hx => ?_, fun outbound hmem => ?_, fun s hs => ?_, ?_⟩
  · rcases List.mem_append.mp hx with hx | hx
    · exact h.only x hx
    cases hmid : mid with
    | none =>
      rw [(hnone hmid).2] at hx
      cases hx
    | some outbound => exact (hsome outbound hmid).only x hx
  · cases hmid : mid with
    | none =>
      rw [(hnone hmid).1] at hmem
      cases hmem
    | some outbound' => exact (hsome outbound' hmid).carries outbound hmem
  · rcases h.chunks s hs with hsent | ⟨outbound, hmid, hs⟩
    · exact .inl (hsent.mono hleft)
    · exact ((hsome outbound hmid).chunks s hs).imp_left fun hc => hc.mono hright
  · rcases h.header with hheader | hheader | ⟨outbound, hmid, hheader⟩
    · exact .inl hheader
    · exact .inr (.inl (hheader.mono hleft))
    · rcases (hsome outbound hmid).header with hsent | hsent | hleft
      · cases hheader.symm.trans hsent
      · exact .inr (.inl (hsent.mono hright))
      · exact .inr (.inr hleft)

/-- **The chunks of a tick.** -/
theorem sends_pumpChunks (S : Setup) (hpeers : peers ≠ []) (n : Nat) (slots : List PeerSlot)
    (h : outbound.Carries c hash_prefix params block) (hheader : outbound.header_sent = true) :
    Sends c hash_prefix params block outbound (pumpChunks S peers n outbound slots).1
      (pumpChunks S peers n outbound slots).2.2 := by
  induction n generalizing outbound slots with
  | zero => exact .refl h
  | succ n ih =>
    rw [pumpChunks]
    cases hnext : outbound.scheduler.next with
    | none =>
      refine ⟨fun x hx => ?_, fun outbound' hmem => ?_, fun s hs => ?_, .inl hheader⟩
      · cases hx
      · cases hmem
      · rw [remaining_of_next_eq_none hnext] at hs
        cases hs
    | some next =>
      obtain ⟨s, scheduler⟩ := next
      have hremaining := remaining_of_next_eq_some hnext
      have hchunk : IsChunkOf c params block s.chunk := h.chunks s (hremaining ▸ List.mem_cons_self)
      have hcarries : OutboundRelay.Carries c hash_prefix params block
          { outbound with scheduler := scheduler } :=
        ⟨h.hash_prefix_eq, h.header, fun s' hs' =>
          h.chunks s' (hremaining ▸ List.mem_cons_of_mem s hs')⟩
      have hpayload : RelayPayload.chunk (outbound.chunkPayload s.chunk) =
          chunkPayloadOf hash_prefix s.chunk := by
        rw [OutboundRelay.chunkPayload, h.hash_prefix_eq]
        rfl
      dsimp only
      rw [hpayload]
      have hrest := ih (sendToPeers S (chunkPayloadOf hash_prefix s.chunk).msgType
        (chunkPayloadOf hash_prefix s.chunk).encode peers slots).1 hcarries hheader
      refine ⟨fun x hx => ?_, hrest.carries, fun s' hs' => ?_, .inl hheader⟩
      · rcases List.mem_append.mp hx with hx | hx
        · exact ⟨_, relayPayload_of_mem_sendToPeers hx, rfl, hchunk⟩
        · exact hrest.only x hx
      · rw [hremaining] at hs'
        rcases List.mem_cons.mp hs' with rfl | hs'
        · exact .inl ((carried_sendToPeers S _ hpeers slots).mono (List.subset_append_left _ _))
        · exact (hrest.chunks s' hs').imp_left fun hc => hc.mono (List.subset_append_right _ _)

theorem exists_headers (S : Setup) (hpeers : peers ≠ []) (outbound : OutboundRelay)
    (slots : List PeerSlot) :
    ∃ slots' headers,
      (if outbound.header_sent then (slots, [])
        else sendRepeated S (.header outbound.header) peers kHeaderRedundancy slots) =
          (slots', headers) ∧
      (∀ x ∈ headers, x.packet.relayPayload = some (.header outbound.header)) ∧
      (outbound.header_sent = true ∨ Carried (.header outbound.header) headers) := by
  cases hsent : outbound.header_sent with
  | true => exact ⟨slots, [], rfl, fun x hx => (by cases hx), .inl rfl⟩
  | false =>
    refine ⟨(sendRepeated S (.header outbound.header) peers kHeaderRedundancy slots).1,
      (sendRepeated S (.header outbound.header) peers kHeaderRedundancy slots).2, rfl,
      fun x hx => relayPayload_of_mem_sendRepeated hx, .inr ?_⟩
    exact (carried_sendToPeers S _ hpeers slots).mono (List.subset_append_left _ _)

/-- **One tick.** -/
theorem sends_pumpOutbound (config : NormalConfig) (S : Setup) (env : Env) (slots : List PeerSlot)
    (houtbound : engine.m_outbound = some outbound)
    (h : outbound.Carries c hash_prefix params block) :
    Sends c hash_prefix params block outbound
      (engine.pumpOutbound config S env slots).1.m_outbound
      (engine.pumpOutbound config S env slots).2.2 := by
  have hkept : (engine.evictExpiredInbound config env.now).m_outbound = some outbound :=
    (shrinks_evictExpiredInbound env.now engine).outbound.trans houtbound
  rw [pumpOutbound, hkept]
  dsimp only
  by_cases hpeers : getActivePeers slots = []
  · rw [hpeers, List.isEmpty_nil, if_pos rfl]
    rw [hkept]
    exact .refl h
  have hsome : ¬((getActivePeers slots).isEmpty = true) := fun hempty =>
    hpeers (List.isEmpty_iff.mp hempty)
  obtain ⟨slots', headers, hheaders, honly, hheader⟩ := exists_headers S hpeers outbound slots
  have hstarted : OutboundRelay.Carries c hash_prefix params block
      { outbound with header_sent := true } := ⟨h.hash_prefix_eq, h.header, h.chunks⟩
  have hchunks := sends_pumpChunks S hpeers config.max_outbound_chunks_per_tick slots' hstarted rfl
  rw [if_neg hsome, hheaders]
  rw [h.header] at honly hheader
  refine ⟨fun x hx => ?_, hchunks.carries, fun s hs => ?_, ?_⟩
  · rcases List.mem_append.mp hx with hx | hx
    · exact ⟨_, honly x hx, rfl⟩
    · exact hchunks.only x hx
  · exact (hchunks.chunks s hs).imp_left fun hc => hc.mono (List.subset_append_right _ _)
  · exact hheader.imp_right fun hc => .inl (hc.mono (List.subset_append_left _ _))

theorem pumpOutbound_of_none (config : NormalConfig) (S : Setup) (env : Env) (slots : List PeerSlot)
    (h : engine.m_outbound = none) :
    (engine.pumpOutbound config S env slots).1.m_outbound = none ∧
      (engine.pumpOutbound config S env slots).2.2 = [] := by
  have hkept : (engine.evictExpiredInbound config env.now).m_outbound = none :=
    (shrinks_evictExpiredInbound env.now engine).outbound.trans h
  simp [pumpOutbound, hkept]

/-! ## Runs of a sender -/

/-- A tick of a sender: the answers from outside and the peers. -/
structure Tick where
  env : Env
  slots : List PeerSlot

/-- `PumpOutbound` in each tick, with all that goes out. -/
def pumps (config : NormalConfig) (S : Setup) :
    RelayEngine c → List Tick → RelayEngine c × List Sent
  | engine, [] => (engine, [])
  | engine, tick :: ticks =>
    let pumped := engine.pumpOutbound config S tick.env tick.slots
    let rest := pumps config S pumped.1 ticks
    (rest.1, pumped.2.2 ++ rest.2)

theorem pumps_of_none (h : engine.m_outbound = none) (ticks : List Tick) :
    (pumps config S engine ticks).1.m_outbound = none ∧ (pumps config S engine ticks).2 = [] := by
  induction ticks generalizing engine with
  | nil => exact ⟨h, rfl⟩
  | cons tick ticks ih =>
    obtain ⟨hnone, hnothing⟩ := pumpOutbound_of_none config S tick.env tick.slots h
    obtain ⟨hnone', hnothing'⟩ := ih hnone
    refine ⟨hnone', ?_⟩
    simp [pumps, hnothing, hnothing']

/-- **All ticks.** -/
theorem sends_pumps (config : NormalConfig) (S : Setup) (ticks : List Tick)
    (houtbound : engine.m_outbound = some outbound)
    (h : outbound.Carries c hash_prefix params block) :
    Sends c hash_prefix params block outbound (pumps config S engine ticks).1.m_outbound
      (pumps config S engine ticks).2 := by
  induction ticks generalizing engine outbound with
  | nil =>
    rw [pumps, houtbound]
    exact .refl h
  | cons tick ticks ih =>
    have hfirst := sends_pumpOutbound config S tick.env tick.slots houtbound h
    exact hfirst.append (fun outbound' hmem => ih hmem (hfirst.carries outbound' hmem))
      fun hnone => pumps_of_none hnone ticks

variable (hparams : config.fec_parameters = some params)
  (hunknown : engine.isKnown (hashPrefixFromHex hash_hex) = false)
  (hencode : encode c params block = some encoded)

include hparams hunknown hencode

theorem exists_outbound_onNewBlock :
    ∃ outbound, (engine.onNewBlock config hash_hex block).m_outbound = some outbound ∧
      outbound.Carries c (hashPrefixFromHex hash_hex) params block ∧
      outbound.header_sent = false ∧
      outbound.remaining = (ChunkScheduler.create [encoded]).m_schedule := by
  obtain ⟨hsame, hsize, hcount, -, hchunks⟩ := encode_eq_some hencode
  rw [onNewBlock, hparams, Option.bind_some, hencode]
  rw [hunknown, if_neg Bool.false_ne_true, m_outbound_count,
    eraseInboundForPrefix, (shrinks_eraseEntries _ _).outbound,
    m_outbound_rememberSeen]
  have hscheduled : ∀ s ∈ (ChunkScheduler.create [encoded]).m_schedule,
      IsChunkOf c params block s.chunk := fun s hs =>
    hchunks s.chunk ((mem_schedule_iff hencode).mp ⟨s, hs, rfl⟩)
  refine ⟨_, rfl, ⟨rfl, ?_, hscheduled⟩, rfl, rfl⟩
  rw [OutboundRelay.header, hsame, hsize, hcount]
  rfl

/-- **A sender that was given a block and pumped until it is done has sent the header and every
chunk.** -/
theorem carried_of_exhausted {ticks : List Tick}
    (hdone : (pumps config S (engine.onNewBlock config hash_hex block) ticks).1.m_outbound = none) :
    Carried (.header (headerOf (hashPrefixFromHex hash_hex) params block))
        (pumps config S (engine.onNewBlock config hash_hex block) ticks).2 ∧
      ∀ chunk ∈ encoded.chunks, Carried (chunkPayloadOf (hashPrefixFromHex hash_hex) chunk)
        (pumps config S (engine.onNewBlock config hash_hex block) ticks).2 := by
  obtain ⟨outbound, houtbound, hcarries, hheader, hremaining⟩ :=
    exists_outbound_onNewBlock hparams hunknown hencode
  have hsends := sends_pumps config S ticks houtbound hcarries
  rw [hdone] at hsends
  constructor
  · rcases hsends.header with hsent | hsent | ⟨outbound', hmem, -⟩
    · cases hheader.symm.trans hsent
    · exact hsent
    · cases hmem
  · intro chunk hchunk
    obtain ⟨s, hs, rfl⟩ := (mem_schedule_iff hencode).mpr hchunk
    rcases hsends.chunks s (hremaining ▸ hs) with hsent | ⟨outbound', hmem, -⟩
    · exact hsent
    · cases hmem

end Qbit.Photon
