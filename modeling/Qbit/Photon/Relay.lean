import Qbit.Photon.Pumping
import Qbit.Photon.Replay
import Qbit.Lib.Runs

/-!
# From one relay engine to another

A block that one engine sends is submitted by another that gets enough of it: the header, and of
each group chunks that are enough for the code, in any order, repeated and with losses.

A run of the receiver is `receive` over the deliveries.  `Progress` says where it stands: it waits
for more of the block with all that the buffers took, or it has tried and failed, or the block was
accepted and is known.  The last needs a receiver that remembers at least one block; one that
remembers none submits again what arrives again (`relayed_block_submitted_twice`).
-/

namespace Qbit.Photon

open Fec RelayEngine

variable {c : Codec} {config : NormalConfig}

/-! ## Runs of a receiver -/

/-- A payload that arrives, with the time and what the submitter would answer. -/
structure Delivery where
  now : Int
  submit : List UInt8 → Bool
  payload : RelayPayload

/-- The engine, the calls it made to `SubmitBlock` and the chunks that were not dropped. -/
structure Reception (c : Codec) where
  engine : RelayEngine c
  submissions : List Submission := []
  absorbed : List (UInt16 × UInt8) := []

/-- One delivery from a peer. -/
def receive (config : NormalConfig) (inbound_peer : InboundPeerInfo) (r : Reception c)
    (delivery : Delivery) : Reception c :=
  match delivery.payload with
  | .header payload =>
    let (engine, submission) :=
      r.engine.onBlockHeader config inbound_peer payload delivery.now delivery.submit
    { r with
      engine := engine
      submissions := r.submissions ++ submission.toList }
  | .chunk payload =>
    let key := makeInboundRelayKey inbound_peer payload.block_hash_prefix
    let dropped :=
      dropsChunk config key (r.engine.evictExpiredInbound config delivery.now)
    let (engine, submission) :=
      r.engine.onBlockChunk config inbound_peer payload delivery.now delivery.submit
    { engine := engine
      submissions := r.submissions ++ submission.toList
      absorbed :=
        if dropped then r.absorbed
        else r.absorbed ++ [(payload.coding_group_id, payload.chunk_id)] }

/-- All deliveries. -/
def receiveAll (config : NormalConfig) (inbound_peer : InboundPeerInfo) (engine : RelayEngine c)
    (deliveries : List Delivery) : Reception c :=
  deliveries.foldl (receive config inbound_peer) { engine := engine }

/-- The entry is not expired when something arrives. -/
def NotExpired (config : NormalConfig) (key : InboundRelayKey) (r : Reception c)
    (delivery : Delivery) : Prop :=
  ∀ relay ∈ r.engine.m_inbound.lookup key,
    delivery.now - relay.last_updated ≤ config.max_inbound_age

instance (config : NormalConfig) (key : InboundRelayKey) (r : Reception c) (delivery : Delivery) :
    Decidable (NotExpired config key r delivery) :=
  inferInstanceAs (Decidable (∀ relay ∈ r.engine.m_inbound.lookup key, _))

/-- Where a receiver stands. -/
inductive Progress (params : Parameters) (block : List UInt8) (key : InboundRelayKey)
    (started : Bool) : Reception c → Prop
  | waiting {r : Reception c} (hnone : r.submissions = [])
      (h : Waiting params block key r.absorbed started r.engine) :
      Progress params block key started r
  | retrying {r : Reception c} {arrivals : List (UInt16 × UInt8)} {again : Bool}
      (hne : r.submissions ≠ []) (hfailed : ∀ s ∈ r.submissions, s = ⟨block, false⟩)
      (h : Waiting params block key arrivals again r.engine) : Progress params block key started r
  | accepted {r : Reception c} {failed : List Submission}
      (hsubmissions : r.submissions = failed ++ [⟨block, true⟩])
      (hfailed : ∀ s ∈ failed, s = ⟨block, false⟩)
      (h : r.engine.isKnown key.hash_prefix = true) : Progress params block key started r

variable { hash_prefix : UInt64} {params : Parameters} {block : List UInt8} {key : InboundRelayKey}
  {inbound_peer : InboundPeerInfo}

/-- Whether a delivery is a header. -/
def Delivery.isHeader (delivery : Delivery) : Bool :=
  match delivery.payload with
  | .header _ => true
  | .chunk _ => false

variable {r : Reception c} {delivery : Delivery} {arrivals : List (UInt16 × UInt8)} {started : Bool}
  {payload : List UInt8}

theorem receive_of_known (config : NormalConfig)
    (hof : delivery.payload.IsOf c key.hash_prefix params block)
    (h : r.engine.isKnown key.hash_prefix = true) :
    (receive config inbound_peer r delivery).submissions = r.submissions ∧
      (receive config inbound_peer r delivery).engine.isKnown key.hash_prefix = true := by
  have hknown : (r.engine.evictExpiredInbound config delivery.now).isKnown key.hash_prefix = true :=
    ((shrinks_evictExpiredInbound delivery.now r.engine).isKnown _).trans h
  rw [receive]
  cases hpayload : delivery.payload with
  | header payload =>
    rw [hpayload] at hof
    obtain rfl := hof
    have hhash : BlockHeaderPayload.block_hash_prefix (headerOf key.hash_prefix params block) =
        key.hash_prefix := rfl
    dsimp only
    rw [onBlockHeader, hhash]
    rw [if_pos hknown]
    exact ⟨List.append_nil _, hknown⟩
  | chunk payload =>
    rw [hpayload] at hof
    dsimp only
    rw [onBlockChunk, hof.1]
    rw [if_pos hknown]
    exact ⟨List.append_nil _, hknown⟩

section Receive

variable (hrelayable : Relayable c config params block)
  (hkey : makeInboundRelayKey inbound_peer hash_prefix = key)

include hrelayable hkey

theorem exists_outcome_receive (hof : delivery.payload.IsOf c hash_prefix params block)
    (hfresh : NotExpired config key r delivery)
    (h : Waiting params block key arrivals started r.engine) :
    ∃ added result,
      Outcome params block key (arrivals ++ added) (started || delivery.isHeader) result ∧
      (receive config inbound_peer r delivery).absorbed = r.absorbed ++ added ∧
      (receive config inbound_peer r delivery).engine = result.1 ∧
      (receive config inbound_peer r delivery).submissions = r.submissions ++ result.2.toList := by
  rw [receive, Delivery.isHeader]
  cases hpayload : delivery.payload with
  | header payload =>
    rw [hpayload] at hof
    obtain rfl := hof
    refine ⟨[], _, ?_, (List.append_nil _).symm, rfl, rfl⟩
    rw [List.append_nil, Bool.or_true]
    exact outcome_onBlockHeader hrelayable hkey h hfresh delivery.submit
  | chunk payload =>
    rw [hpayload] at hof
    obtain ⟨rfl, hchunk⟩ := hof
    dsimp only
    rw [hkey]
    have houtcome :=
      outcome_onBlockChunk hrelayable hkey hchunk h hfresh delivery.submit
    cases hdrops : dropsChunk config key
        (r.engine.evictExpiredInbound config delivery.now) with
    | true =>
      refine ⟨[], _, ?_, (List.append_nil _).symm, rfl, rfl⟩
      rw [List.append_nil, Bool.or_false]
      rwa [hdrops, if_pos rfl] at houtcome
    | false =>
      refine ⟨[(payload.coding_group_id, payload.chunk_id)], _, ?_, rfl, rfl, rfl⟩
      rw [Bool.or_false]
      rwa [hdrops, if_neg Bool.false_ne_true] at houtcome

/-- **One delivery.** -/
theorem Progress.receive (hof : delivery.payload.IsOf c hash_prefix params block)
    (hfresh : NotExpired config key r delivery) (h : Progress params block key started r) :
    Progress params block key (started || delivery.isHeader)
      (Photon.receive config inbound_peer r delivery) := by
  cases h with
  | waiting hnone h =>
    obtain ⟨added, result, houtcome, habsorbed, hengine, hsubmissions⟩ :=
      exists_outcome_receive hrelayable hkey hof hfresh h
    rw [hnone, List.nil_append] at hsubmissions
    cases houtcome with
    | waits hnext => exact .waiting hsubmissions (by rwa [habsorbed, hengine])
    | fails hnext =>
      exact .retrying (by simp [hsubmissions]) (by simp [hsubmissions]) (by rwa [hengine])
    | submits hnext =>
      have hsplit : (Photon.receive config inbound_peer r delivery).submissions =
          [] ++ [⟨block, true⟩] := hsubmissions
      exact .accepted hsplit (by simp) (by rwa [hengine])
  | retrying hne hfailed h =>
    obtain ⟨added, result, houtcome, -, hengine, hsubmissions⟩ :=
      exists_outcome_receive hrelayable hkey hof hfresh h
    cases houtcome with
    | waits hnext =>
      rw [Option.toList_none, List.append_nil] at hsubmissions
      exact .retrying (by rwa [hsubmissions]) (by rwa [hsubmissions]) (by rwa [hengine])
    | fails hnext =>
      refine .retrying (by simp [hsubmissions]) (fun s hs => ?_) (by rwa [hengine])
      rw [hsubmissions] at hs
      rcases List.mem_append.mp hs with hs | hs
      · exact hfailed s hs
      · exact List.mem_singleton.mp hs
    | submits hnext => exact .accepted hsubmissions hfailed (by rwa [hengine])
  | accepted hsubmissions hfailed h =>
    have hhash : key.hash_prefix = hash_prefix := hkey ▸ rfl
    rw [← hhash] at hof
    obtain ⟨hsame, hknown⟩ := receive_of_known config hof h
    exact .accepted (hsame.trans hsubmissions) hfailed hknown

/-- **All deliveries.** -/
theorem Progress.receiveAll {deliveries : List Delivery}
    (hof : ∀ delivery ∈ deliveries, delivery.payload.IsOf c hash_prefix params block)
    (hfresh : Runs.Along (Photon.receive config inbound_peer) (NotExpired config key) r deliveries)
    (h : Progress params block key started r) :
    Progress params block key (started || deliveries.any Delivery.isHeader)
      (deliveries.foldl (Photon.receive config inbound_peer) r) := by
  induction deliveries generalizing r started with
  | nil => simp [h]
  | cons delivery deliveries ih =>
    have hnext := h.receive hrelayable hkey (hof delivery List.mem_cons_self) hfresh.1
    have hrest := ih (fun delivery' hmem => hof delivery' (List.mem_cons_of_mem delivery hmem))
      hfresh.2 hnext
    rwa [Bool.or_assoc] at hrest

end Receive

/-! ## The relay -/

/-- What a sender sends that is given a block and pumped. -/
def relayedPackets (config : NormalConfig) (S : Setup) (sender : RelayEngine c)
    (hash_hex : List Char) (block : List UInt8) (ticks : List Tick) : List Sent :=
  (pumps config S (sender.onNewBlock config hash_hex block) ticks).2

/-- What a sender sends is of the block it was given. -/
theorem isOf_of_carried {S : Setup} {sender : RelayEngine c} {hash_hex : List Char}
    {ticks : List Tick} {payload : RelayPayload} (hparams : config.fec_parameters = some params)
    (hnew : sender.isKnown (hashPrefixFromHex hash_hex) = false)
    (hencode : (encode c params block).isSome)
    (h : Carried payload (relayedPackets config S sender hash_hex block ticks)) :
    payload.IsOf c (hashPrefixFromHex hash_hex) params block := by
  obtain ⟨encoded, hencoded⟩ := Option.isSome_iff_exists.mp hencode
  obtain ⟨outbound, houtbound, hcarries, -⟩ := exists_outbound_onNewBlock hparams hnew hencoded
  obtain ⟨x, hmem, hx⟩ := h
  obtain ⟨payload', hx', hof⟩ := (sends_pumps config S ticks houtbound hcarries).only x hmem
  rwa [← Option.some.inj (hx.symm.trans hx')] at hof

/-- A receiver that has got the header and enough of each group does not wait any more. -/
theorem not_waiting_of_completes {engine : RelayEngine c}
    (h : Waiting params block key arrivals true engine) :
    ¬∀ g < groupCount params block,
      Completes c params (groupPayload params block g) (arrivalsOf g arrivals) := by
  intro henough
  cases hentry : engine.m_inbound.lookup key with
  | none => cases (h.empty hentry).2
  | some relay =>
    cases h.entry relay hentry with
    | decoding hdecoder hfed hmore => cases hmore.symm.trans (hfed.isComplete henough)

/-- Where a receiver stands that has got the header and enough of each group. -/
theorem Progress.submitted (h : Progress params block key true r)
    (henough : ∀ g < groupCount params block,
      Completes c params (groupPayload params block g) (arrivalsOf g r.absorbed)) :
    r.submissions ≠ [] ∧ (∀ s ∈ r.submissions, s.block_data = block) ∧
      r.submissions.Pairwise (fun s _ => s.accepted = false) := by
  have hpairwise : ∀ failed : List Submission, (∀ s ∈ failed, s = ⟨block, false⟩) →
      failed.Pairwise (fun s _ => s.accepted = false) := fun failed hfailed =>
    List.pairwise_of_forall_mem_list fun s hs _ _ => congrArg Submission.accepted (hfailed s hs)
  cases h with
  | waiting hnone h => exact absurd henough (not_waiting_of_completes h)
  | retrying hne hfailed h =>
    exact ⟨hne, fun s hs => congrArg Submission.block_data (hfailed s hs), hpairwise _ hfailed⟩
  | accepted hsubmissions hfailed h =>
    rw [hsubmissions]
    refine ⟨by simp, fun s hs => ?_, List.pairwise_append.mpr
      ⟨hpairwise _ hfailed, List.pairwise_singleton _ _, fun s hs _ _ =>
        congrArg Submission.accepted (hfailed s hs)⟩⟩
    rcases List.mem_append.mp hs with hs | hs
    · exact congrArg Submission.block_data (hfailed s hs)
    · exact congrArg Submission.block_data (List.mem_singleton.mp hs)

/-- **A block that is relayed is submitted, as it was, and not again once it was accepted.**  The
receiver must remember blocks; otherwise it may be in any state in which it does not know the block
and has nothing of it from the peer. -/
theorem relayed_block_submitted (sender_config receiver_config : NormalConfig) (S : Setup)
    (params : Parameters) (block : Buffer) (hash_hex : List Char) (sender receiver : RelayEngine c)
    (ticks : List Tick) (inbound_peer : InboundPeerInfo) (deliveries : List Delivery)
    (hne : block.1 ≠ [])
    (hfits : block.1.length ≤ receiver_config.max_inbound_original_size)
    (hbudget : decoderBudgetBytes params (groupCount params block.1) params.groupPayloadBytes ≤
      receiver_config.max_inbound_decoder_bytes_per_entry)
    (hremembers : 0 < receiver_config.seen_blocks_capacity)
    (hcodec : CodecCorrectOn c params block.1)
    (hparams : sender_config.fec_parameters = some params)
    (hnew : sender.isKnown (hashPrefixFromHex hash_hex) = false)
    (hencode : (encode c params block.1).isSome)
    (hunknown : receiver.isKnown (hashPrefixFromHex hash_hex) = false)
    (hentry : receiver.m_inbound.lookup
      (makeInboundRelayKey inbound_peer (hashPrefixFromHex hash_hex)) = none)
    (hdelivered : ∀ delivery ∈ deliveries, Carried delivery.payload
      (relayedPackets sender_config S sender hash_hex block.1 ticks))
    (hkept : Runs.Along (receive receiver_config inbound_peer)
      (NotExpired receiver_config (makeInboundRelayKey inbound_peer (hashPrefixFromHex hash_hex)))
      { engine := receiver } deliveries)
    (hheader : ∃ delivery ∈ deliveries, delivery.isHeader = true)
    (henough : ∀ g < groupCount params block.1,
      Completes c params (groupPayload params block.1 g)
        (arrivalsOf g (receiveAll receiver_config inbound_peer receiver deliveries).absorbed)) :
    (receiveAll receiver_config inbound_peer receiver deliveries).submissions ≠ [] ∧
      (∀ s ∈ (receiveAll receiver_config inbound_peer receiver deliveries).submissions,
        s.block_data = block.1) ∧
      (receiveAll receiver_config inbound_peer receiver deliveries).submissions.Pairwise
        (fun s _ => s.accepted = false) ∧
      ∀ s ∈ (receiveAll receiver_config inbound_peer receiver deliveries).submissions.head?,
        s.accepted = true →
          (receiveAll receiver_config inbound_peer receiver deliveries).submissions = [s] := by
  obtain ⟨encoded, hencoded⟩ := Option.isSome_iff_exists.mp hencode
  obtain ⟨-, -, -, hgroups, -⟩ := encode_eq_some hencoded
  have hrelayable : Relayable c receiver_config params block.1 :=
    ⟨hne, block.2, hfits, hgroups, hbudget, hcodec, hremembers.ne'⟩
  have hstart : Progress params block.1
      (makeInboundRelayKey inbound_peer (hashPrefixFromHex hash_hex)) false
      ({ engine := receiver } : Reception c) := by
    refine .waiting rfl ⟨hunknown, fun relay hrelay => ?_, fun _ => ⟨rfl, rfl⟩⟩
    cases hentry.symm.trans hrelay
  have hend := hstart.receiveAll hrelayable rfl
    (fun delivery hmem => isOf_of_carried hparams hnew hencode (hdelivered delivery hmem)) hkept
  rw [List.any_eq_true.mpr hheader, Bool.or_true] at hend
  obtain ⟨hsome, hblock, hlast⟩ := hend.submitted henough
  refine ⟨hsome, hblock, hlast, fun s hs haccepted => ?_⟩
  rw [receiveAll] at hs ⊢
  generalize (deliveries.foldl (receive receiver_config inbound_peer)
    { engine := receiver }).submissions = submissions at hs hlast
  rcases submissions with _ | ⟨first, rest⟩
  · cases hs
  cases hs
  cases rest with
  | nil => rfl
  | cons second rest =>
    cases ((List.pairwise_cons.mp hlast).1 second List.mem_cons_self).symm.trans haccepted

/-! ## A relay -/

theorem chunkOf_copyCodec {id : UInt8} (h : id ≠ 1) :
    chunkOf copyCodec twoChunks payload id = dataChunk payload 0 := by
  by_cases hlt : id.toNat < 2
  · have hzero : id.toNat = 0 := by
      have hone : id.toNat ≠ 1 := fun hone => h (UInt8.toNat_inj.mp hone)
      omega
    simp [chunkOf, encodeChunk, cm256Chunk, twoChunks, Parameters.useCm256, CM256_MAX_DATA_CHUNKS,
      hzero]
  · simp [chunkOf, encodeChunk, cm256Chunk, twoChunks, Parameters.useCm256, CM256_MAX_DATA_CHUNKS,
      hlt, copyCodec, originals, List.range_succ]

theorem copyCodec_correct (h : dataChunk payload 1 = .zero kFecChunkSize) :
    CodecCorrect copyCodec twoChunks payload where
  cm256 := by
    intro _ ids hnodup hlength _
    obtain ⟨a, b, rfl⟩ := List.length_eq_two.mp hlength
    have hne : a ≠ b := by simpa using hnodup
    have hfound : ∀ id rest, id ≠ 1 → copyCodec.cm256Decode 2
        ((id, chunkOf copyCodec twoChunks payload id) :: rest) =
          some [(0, dataChunk payload 0), (1, dataChunk payload 1)] := by
      intro id rest hid
      rw [chunkOf_copyCodec hid, h]
      simp [copyCodec, hid]
    refine ⟨[(0, dataChunk payload 0), (1, dataChunk payload 1)], ?_, List.Perm.refl _⟩
    by_cases ha : a = 1
    · have hb := hfound b [] (fun hb => hne (ha.trans hb.symm))
      rw [← hb]
      simp [copyCodec, ha]
    · exact hfound a _ ha
  create huse := by cases huse
  wirehair huse := by cases huse

def demoBlock : Buffer := ⟨[7], by decide⟩

def demoHash : List Char := List.replicate 64 'a'

theorem demoBlock_correct : CodecCorrectOn copyCodec twoChunks demoBlock.1 := by
  have hdata : ∀ g < groupCount twoChunks demoBlock.1,
      dataChunk (groupPayload twoChunks demoBlock.1 g) 1 = .zero kFecChunkSize := by
    decide +kernel
  exact fun g hg => copyCodec_correct (hdata g hg)

/-- A sender that sends two chunks in a tick. -/
def demoSender : NormalConfig :=
  RelayEngineConfig.normalize
    { fec_parameters := some twoChunks, max_outbound_chunks_per_tick := 2 }

def demoReceiver : NormalConfig := RelayEngineConfig.normalize { fec_parameters := some twoChunks }

/-- A receiver that remembers no blocks. -/
def forgetfulReceiver : NormalConfig :=
  RelayEngineConfig.normalize { fec_parameters := some twoChunks, seen_blocks_capacity := 0 }

/-- A tick of the sender, with one peer. -/
def senderTick : Tick where
  env := demoEnv 0
  slots :=
    [{ hmac_key := .zero 32
       state := .kActive
       resolved_addr := some demoAddr
       local_session_id := 7 }]

/-- What the sender sends in a tick. -/
def demoPackets : List Sent :=
  relayedPackets demoSender demoSetup ({} : RelayEngine copyCodec) demoHash demoBlock.1 [senderTick]

def demoHeader : RelayPayload :=
  .header (headerOf (hashPrefixFromHex demoHash) twoChunks demoBlock.1)

/-- A chunk of the only group. -/
def demoChunk (id : UInt8) : RelayPayload :=
  chunkPayloadOf (hashPrefixFromHex demoHash)
    ⟨0, id, chunkOf copyCodec twoChunks (groupPayload twoChunks demoBlock.1 0) id⟩

theorem carried_demoPackets :
    ∀ payload ∈ [demoHeader, demoChunk 0, demoChunk 1], Carried payload demoPackets := by
  decide +kernel

/-- A sender that sends all chunks in a tick. -/
def eagerSender : NormalConfig :=
  RelayEngineConfig.normalize
    { fec_parameters := some twoChunks, max_outbound_chunks_per_tick := 256 }

theorem carried_of_exhausted_eager : Carried demoHeader
    (relayedPackets eagerSender demoSetup ({} : RelayEngine copyCodec) demoHash demoBlock.1
      [senderTick]) := by
  obtain ⟨encoded, hencode⟩ : ∃ encoded, encode copyCodec twoChunks demoBlock.1 = some encoded :=
    Option.isSome_iff_exists.mp (by decide +kernel)
  exact (carried_of_exhausted rfl (by decide) hencode (by decide +kernel)).1
/-- Payloads that arrive one after another, at a submitter that accepts every block. -/
def demoDeliveries (payloads : List RelayPayload) : List Delivery :=
  payloads.mapIdx fun i payload => { now := i, submit := fun _ => true, payload := payload }

theorem carried_demoDeliveries {payloads : List RelayPayload}
    (h : payloads ⊆ [demoHeader, demoChunk 0, demoChunk 1]) :
    ∀ delivery ∈ demoDeliveries payloads, Carried delivery.payload demoPackets := by
  intro delivery hmem
  obtain ⟨i, hlt, rfl⟩ := List.mem_mapIdx.mp hmem
  exact carried_demoPackets _ (h (List.getElem_mem hlt))

/-- The last chunk comes before the header, both chunks come twice and the header once more. -/
def demoShuffled : List Delivery :=
  demoDeliveries
    [demoChunk 1, demoHeader, demoChunk 1, demoChunk 0, demoChunk 0, demoHeader]

/-- Everything comes twice. -/
def demoRepeated : List Delivery :=
  demoDeliveries
    [demoHeader, demoChunk 0, demoChunk 1, demoHeader, demoChunk 0, demoChunk 1]

theorem completes_copyCodec
    (h : ∀ g < groupCount twoChunks demoBlock.1, 2 ≤ (arrivalsOf g arrivals).eraseDups.length) :
    ∀ g < groupCount twoChunks demoBlock.1,
      Completes copyCodec twoChunks (groupPayload twoChunks demoBlock.1 g)
        (arrivalsOf g arrivals) :=
  h

theorem relayed_block_submitted_shuffled :
    (receiveAll demoReceiver {} ({} : RelayEngine copyCodec) demoShuffled).submissions =
      [⟨demoBlock.1, true⟩] := by
  have h := relayed_block_submitted demoSender demoReceiver demoSetup twoChunks demoBlock demoHash
    ({} : RelayEngine copyCodec) {} [senderTick] {} demoShuffled
    (by decide) (by decide) (by decide +kernel) (by decide) demoBlock_correct rfl (by decide)
    (by decide +kernel) (by decide) rfl (carried_demoDeliveries (by simp)) (by decide +kernel)
    (by decide +kernel) (completes_copyCodec (by decide +kernel))
  exact h.2.2.2 ⟨demoBlock.1, true⟩ (by decide +kernel) rfl

/-- **A receiver that remembers no blocks submits a block again that arrives again**, although the
first call succeeded. -/
theorem relayed_block_submitted_twice :
    demoBlock.1 ≠ [] ∧ demoBlock.1.length ≤ forgetfulReceiver.max_inbound_original_size ∧
      decoderBudgetBytes twoChunks (groupCount twoChunks demoBlock.1) twoChunks.groupPayloadBytes ≤
        forgetfulReceiver.max_inbound_decoder_bytes_per_entry ∧
      CodecCorrectOn copyCodec twoChunks demoBlock.1 ∧
      demoSender.fec_parameters = some twoChunks ∧
      (encode copyCodec twoChunks demoBlock.1).isSome ∧
      (∀ delivery ∈ demoRepeated, Carried delivery.payload
        (relayedPackets demoSender demoSetup ({} : RelayEngine copyCodec) demoHash demoBlock.1
          [senderTick])) ∧
      Runs.Along (receive forgetfulReceiver {})
        (NotExpired forgetfulReceiver (makeInboundRelayKey {} (hashPrefixFromHex demoHash)))
        { engine := ({} : RelayEngine copyCodec) } demoRepeated ∧
      (∃ delivery ∈ demoRepeated, delivery.isHeader = true) ∧
      (∀ g < groupCount twoChunks demoBlock.1,
        Completes copyCodec twoChunks (groupPayload twoChunks demoBlock.1 g)
          (arrivalsOf g (receiveAll forgetfulReceiver {} ({} : RelayEngine copyCodec)
            demoRepeated).absorbed)) ∧
      (receiveAll forgetfulReceiver {} ({} : RelayEngine copyCodec) demoRepeated).submissions =
        [⟨demoBlock.1, true⟩, ⟨demoBlock.1, true⟩] := by
  refine ⟨by decide, by decide, by decide +kernel, demoBlock_correct, rfl, by decide +kernel,
    carried_demoDeliveries (by simp), by decide +kernel, by decide +kernel,
    completes_copyCodec (by decide +kernel), by decide +kernel⟩

end Qbit.Photon
