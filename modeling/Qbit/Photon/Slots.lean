import Mathlib.Data.List.Forall2
import Qbit.Photon.PeerManager

/-!
# What a call does to a slot

Everything a peer manager does to a slot is one of two things.

* `Quiet`: the counters and identities the slot has seen from the remote end stay, the slot's own
  session id is at most created, and the packets that are sent are the slot's own (`OwnPacket`).
  Ticks, disconnects, relayed blocks and packets that are rejected are quiet.
* `Takes`: a packet is accepted.  Its MAC verified and `acceptInboundReplayState` let it through;
  what comes before and after that is quiet.

`History.step_slot` says this of each slot and each call.
-/

namespace Qbit.Photon

/-- A packet that a slot with this key and this session id of its own sends. -/
inductive OwnPacket (S : Setup) (key : HmacKey) (session_id : UInt64) : Packet → Prop
  | handshake {type : MessageType} (counter : UInt32) :
      isHandshakeMessage type = true →
      OwnPacket S key session_id (attachPacketMac S.hmac
        { makePacket type counter with
          payload := encodeSynPayload
            { session_id := session_id, peer_id := S.local_peer_id } } key none)
  | session {type : MessageType} (counter : UInt32) (payload : ByteArr kPayloadSize) :
      isHandshakeMessage type = false →
      OwnPacket S key session_id (attachPacketMac S.hmac
        { makePacket type counter with payload := payload } key (some session_id))

/-- What the remote end has done so far looks the same, and the slot's own counter does not become
zero. -/
structure SameReplay (slot slot' : PeerSlot) : Prop where
  key : slot'.hmac_key = slot.hmac_key
  last : slot'.last_inbound_counter = slot.last_inbound_counter
  remote : slot'.remote_identity = slot.remote_identity
  retired : slot'.retired_remote_identities = slot.retired_remote_identities
  replacements : slot'.stats.session_replacements = slot.stats.session_replacements
  counter : slot.next_counter ≠ 0 → slot'.next_counter ≠ 0

variable {slot' slot'' : PeerSlot}

namespace SameReplay

variable {slot : PeerSlot}

theorem refl (slot : PeerSlot) : SameReplay slot slot := ⟨rfl, rfl, rfl, rfl, rfl, id⟩

theorem trans (h : SameReplay slot slot') (h' : SameReplay slot' slot'') :
    SameReplay slot slot'' where
  key := h'.key.trans h.key
  last := h'.last.trans h.last
  remote := h'.remote.trans h.remote
  retired := h'.retired.trans h.retired
  replacements := h'.replacements.trans h.replacements
  counter := h'.counter ∘ h.counter

end SameReplay

/-- The slot's own session id stays, or is made from `fresh` if there was none. -/
def SessionKept (fresh : UInt64) (slot slot' : PeerSlot) : Prop :=
  slot'.local_session_id = slot.local_session_id ∨
    slot.local_session_id = 0 ∧ slot'.local_session_id = fresh

variable {fresh : UInt64} {slot : PeerSlot} {packet : Packet} {slots : List PeerSlot} {k i : Nat}
  {env : Env} {addr : Sockaddr} {f : Nat → PeerSlot → PeerSlot × List Sent} {x : Sent} {S : Setup}
  {sent : List Sent} {sink : Bool}

theorem SessionKept.trans (h : SessionKept fresh slot slot') (h' : SessionKept fresh slot' slot'') :
    SessionKept fresh slot slot'' := by
  rcases h with h | ⟨hzero, h⟩
  · rcases h' with h' | ⟨hzero', h'⟩
    · exact .inl (h'.trans h)
    · exact .inr ⟨h ▸ hzero', h'⟩
  · rcases h' with h' | ⟨-, h'⟩
    · exact .inr ⟨hzero, h'.trans h⟩
    · exact .inr ⟨hzero, h'⟩

/-- Nothing of the remote end is taken, and what is sent is the slot's own. -/
structure Quiet (S : Setup) (fresh : UInt64) (i : Nat) (slot slot' : PeerSlot) (sent : List Sent) :
    Prop where
  same : SameReplay slot slot'
  session : SessionKept fresh slot slot'
  own : ∀ x ∈ sent, x.slot_index = i ∧ slot'.local_session_id ≠ 0 ∧
    OwnPacket S slot'.hmac_key slot'.local_session_id x.packet ∧
    (slot.next_counter ≠ 0 → x.packet.counter ≠ 0)

namespace Quiet

variable {S : Setup} {i : Nat} {slot : PeerSlot} {sent' : List Sent}

theorem refl (slot : PeerSlot) : Quiet S fresh i slot slot [] where
  same := .refl slot
  session := .inl rfl
  own := by simp

/-- A change of anything but the fields that are looked at. -/
theorem of_same (h : SameReplay slot slot' := by exact ⟨rfl, rfl, rfl, rfl, rfl, id⟩)
    (hsession : slot'.local_session_id = slot.local_session_id := by rfl) :
    Quiet S fresh i slot slot' [] where
  same := h
  session := .inl hsession
  own := by simp

theorem trans (h : Quiet S fresh i slot slot' sent) (h' : Quiet S fresh i slot' slot'' sent') :
    Quiet S fresh i slot slot'' (sent ++ sent') where
  same := h.same.trans h'.same
  session := h.session.trans h'.session
  own := by
    intro x hx
    rcases List.mem_append.mp hx with hx | hx
    · obtain ⟨hi, hne, hown, hcounter⟩ := h.own x hx
      -- A session id that was used to send is not made anew.
      have hkept : slot''.local_session_id = slot'.local_session_id :=
        h'.session.resolve_right fun hzero => hne hzero.1
      rw [hkept, h'.same.key]
      exact ⟨hi, hne, hown, hcounter⟩
    · obtain ⟨hi, hne, hown, hcounter⟩ := h'.own x hx
      exact ⟨hi, hne, hown, hcounter ∘ h.same.counter⟩

/-- A quiet step, and then a change of anything but the fields that are looked at. -/
theorem trans_same (h : Quiet S fresh i slot slot' sent)
    (h' : SameReplay slot' slot'' := by exact ⟨rfl, rfl, rfl, rfl, rfl, id⟩)
    (hsession : slot''.local_session_id = slot'.local_session_id := by rfl) :
    Quiet S fresh i slot slot'' sent := by
  have hquiet := h.trans (of_same h' hsession)
  rwa [List.append_nil] at hquiet

/-- A quiet step after a change of anything but the fields that are looked at. -/
theorem same_trans (h : SameReplay slot slot')
    (hsession : slot'.local_session_id = slot.local_session_id)
    (h' : Quiet S fresh i slot' slot'' sent) : Quiet S fresh i slot slot'' sent :=
  (of_same h hsession).trans h'

end Quiet

namespace PeerSlot

variable (S : Setup) (env : Env) (i : Nat)

/-! ## Sending -/

theorem quiet_ensureLocalSession (slot : PeerSlot) :
    Quiet S (env.identity i).1 i slot (slot.ensureLocalSession env i) [] := by
  rw [ensureLocalSession]
  split_ifs with hzero
  · exact ⟨⟨rfl, rfl, rfl, rfl, rfl, id⟩, .inr ⟨hzero, rfl⟩, by simp⟩
  · exact .refl slot

theorem local_session_id_ensureLocalSession_ne_zero (slot : PeerSlot) :
    (slot.ensureLocalSession env i).local_session_id ≠ 0 := by
  rw [ensureLocalSession]
  split_ifs with hzero
  · exact (env.identity i).2
  · exact hzero

theorem same_consumeCounter (slot : PeerSlot) : SameReplay slot slot.consumeCounter.2 where
  key := rfl
  last := rfl
  remote := rfl
  retired := rfl
  replacements := rfl
  counter := by
    rintro -
    dsimp only [consumeCounter]
    split_ifs with hzero
    · decide
    · exact hzero

variable {slot : PeerSlot}

/-- A packet with the counter that was consumed for it goes out. -/
theorem quiet_transmit {S : Setup} (hne : slot.local_session_id ≠ 0)
    (h : OwnPacket S slot.hmac_key slot.local_session_id packet)
    (hcounter : packet.counter = slot.next_counter) :
    Quiet S fresh i slot (slot.consumeCounter.2.transmit env i packet addr).2.1
      (slot.consumeCounter.2.transmit env i packet addr).2.2 := by
  have hsame : SameReplay slot (slot.consumeCounter.2.transmit env i packet addr).2.1 := by
    refine slot.same_consumeCounter.trans ?_
    simp only [transmit]
    split_ifs <;> exact ⟨rfl, rfl, rfl, rfl, rfl, id⟩
  have hsession : (slot.consumeCounter.2.transmit env i packet addr).2.1.local_session_id =
      slot.local_session_id := by
    simp only [transmit]
    split_ifs <;> rfl
  refine ⟨hsame, .inl hsession, ?_⟩
  intro x hx
  obtain rfl := List.mem_singleton.mp hx
  rw [hsession, hsame.key, hcounter]
  exact ⟨rfl, hne, h, fun h => h⟩

/-- A control message is quiet if it is a handshake of this node, or none. -/
theorem quiet_sendSignedControlMessage (fresh : UInt64) (slot : PeerSlot) (type : MessageType)
    (payload : ByteArr kPayloadSize)
    (h : isHandshakeMessage type = true →
      slot.local_session_id ≠ 0 ∧ payload = encodeSynPayload (slot.ownSyn S)) :
    Quiet S fresh i slot (slot.sendSignedControlMessage S env i type payload).2.1
      (slot.sendSignedControlMessage S env i type payload).2.2 := by
  rw [sendSignedControlMessage]
  rcases haddr : slot.resolved_addr with _ | addr
  · exact .refl slot
  dsimp only
  by_cases htype : isHandshakeMessage type = true
  · obtain ⟨hne, rfl⟩ := h htype
    rw [if_pos htype]
    exact quiet_transmit env i hne (.handshake slot.next_counter htype) rfl
  rw [if_neg htype]
  by_cases hzero : slot.consumeCounter.2.local_session_id = 0
  · rw [if_pos hzero]
    exact .of_same slot.same_consumeCounter rfl
  · rw [if_neg hzero]
    exact quiet_transmit env i hzero (.session slot.next_counter payload (by simpa using htype)) rfl

section Quiet

variable (slot : PeerSlot)

theorem quiet_sendSynAck :
    Quiet S (env.identity i).1 i slot (slot.sendSynAck S env i).2.1
      (slot.sendSynAck S env i).2.2 := by
  have hquiet := (slot.quiet_ensureLocalSession S env i).trans
    (quiet_sendSignedControlMessage S env i _ (slot.ensureLocalSession env i) .kSynAck _
      fun _ => ⟨slot.local_session_id_ensureLocalSession_ne_zero env i, rfl⟩)
  rw [sendSynAck]
  generalize PeerSlot.sendSignedControlMessage _ _ _ _ _ _ = r at hquiet ⊢
  rcases r with ⟨_ | _, slot', sent⟩
  · exact hquiet
  · exact hquiet.trans_same

theorem quiet_keepalive (fresh : UInt64) (slot : PeerSlot) :
    Quiet S fresh i slot (slot.keepalive S env i).1 (slot.keepalive S env i).2 := by
  have hquiet := quiet_sendSignedControlMessage S env i fresh slot .kKeepalive
    (.zero kPayloadSize) (fun h => by cases h)
  rw [keepalive]
  generalize slot.sendSignedControlMessage _ _ _ _ _ = r at hquiet ⊢
  split_ifs
  · rcases r with ⟨_ | _, slot', sent⟩
    · exact hquiet
    · exact hquiet.trans_same
  · exact .refl slot

theorem quiet_connect :
    Quiet S (env.identity i).1 i slot (slot.connect S env i).1 (slot.connect S env i).2 := by
  rw [connect, resolvePeer]
  rcases env.resolve i with _ | addr
  · exact .of_same
  dsimp only
  have hsame : SameReplay slot { slot with resolved_addr := some addr } :=
    ⟨rfl, rfl, rfl, rfl, rfl, id⟩
  refine .same_trans hsame rfl ?_
  generalize { slot with resolved_addr := some addr } = slot
  have hquiet := (slot.quiet_ensureLocalSession S env i).trans
    (quiet_sendSignedControlMessage S env i _ (slot.ensureLocalSession env i) .kSyn _
      fun _ => ⟨slot.local_session_id_ensureLocalSession_ne_zero env i, rfl⟩)
  generalize PeerSlot.sendSignedControlMessage _ _ _ _ _ _ = r at hquiet ⊢
  rcases r with ⟨_ | _, slot', sent⟩ <;> exact hquiet.trans_same

theorem quiet_tick :
    Quiet S (env.identity i).1 i slot (slot.tick S env i).1 (slot.tick S env i).2 := by
  rw [tick]
  cases slot.state with
  | kDisconnected =>
    dsimp only
    split_ifs
    · exact .refl slot
    · exact slot.quiet_connect S env i
  | kConnecting =>
    dsimp only
    split_ifs
    · exact .of_same
    · exact .refl slot
  | kActive | kStale =>
    dsimp only
    split_ifs
    · exact .of_same
    · exact quiet_keepalive S env i _ slot

theorem quiet_sendDisconnect (fresh : UInt64) (slot : PeerSlot) :
    Quiet S fresh i slot (slot.sendDisconnect S env i).1 (slot.sendDisconnect S env i).2 := by
  rw [sendDisconnect]
  split_ifs
  · exact .refl slot
  · have hquiet := quiet_sendSignedControlMessage S env i fresh slot .kDisconnect
      (.zero kPayloadSize) (fun h => by cases h)
    exact hquiet.trans_same

/-! ## Accepting -/

/-- The effect of an accepted packet on the slot comes after what was seen is recorded. -/
theorem quiet_dispatch (packet : Packet) (sink : Bool) :
    Quiet S (env.identity i).1 i slot (slot.dispatch S env i packet sink).1
      (slot.dispatch S env i packet sink).2 := by
  rw [dispatch]
  cases packet.msg_type with
  | kSyn =>
    split_ifs
    · refine Quiet.same_trans ?_ ?_ (quiet_sendSynAck S env i _)
      · exact ⟨rfl, rfl, rfl, rfl, rfl, id⟩
      · rfl
    · exact .of_same
  | kSynAck | kKeepalive | kPong | kDisconnect => exact .of_same
  | kBlockHeader | kBlockChunk | kPing =>
    dsimp only
    split_ifs <;> exact .of_same

/-- The session a packet's MAC is checked for. -/
def macSession (packet : Packet) : Option UInt64 :=
  if isHandshakeMessage packet.msg_type then none
  else slot.remote_identity.map (·.session_id)

/-- The MAC of a packet that passes verifies, and only a handshake passes without a remote
identity. -/
structure Verified (slot : PeerSlot) (packet : Packet) : Prop where
  mac : verifyPacketMac S.hmac (serializePacket packet) slot.hmac_key (slot.macSession packet) = true
  remote : isHandshakeMessage packet.msg_type = false → slot.remote_identity.isSome

theorem verifyInbound_cases (packet : Packet) :
    (slot.verifyInbound S packet = (true, slot) ∧ Verified S slot packet) ∨
      ∃ slot', slot.verifyInbound S packet = (false, slot') ∧ SameReplay slot slot' ∧
        slot'.local_session_id = slot.local_session_id := by
  rw [verifyInbound]
  by_cases htype : isHandshakeMessage packet.msg_type = true
  · have hsession : slot.macSession packet = none := if_pos htype
    split_ifs with hmac
    · exact .inl ⟨rfl, by rwa [hsession], fun h => by simp [htype] at h⟩
    · exact .inr ⟨_, rfl, ⟨rfl, rfl, rfl, rfl, rfl, id⟩, rfl⟩
  simp only [if_neg htype]
  split_ifs with hstate
  · exact .inr ⟨_, rfl, .refl slot, rfl⟩
  rcases hremote : slot.remote_identity with _ | identity
  · exact .inr ⟨_, rfl, .refl slot, rfl⟩
  have hsession : slot.macSession packet = some identity.session_id := by
    simp [macSession, htype, hremote]
  dsimp only
  split_ifs with hzero hmac
  · exact .inr ⟨_, rfl, .refl slot, rfl⟩
  · exact .inl ⟨rfl, by rwa [hsession], fun _ => by rw [hremote]; rfl⟩
  · exact .inr ⟨_, rfl, ⟨rfl, rfl, rfl, rfl, rfl, id⟩, rfl⟩

end Quiet

/-- A session that begins or goes on with a counter: nothing is retired. -/
structure Counted (counter : UInt32) (identity : RemoteIdentity) (slot slot' : PeerSlot) : Prop where
  forward : ∀ last, slot.last_inbound_counter = some last →
    isForwardInboundCounter last counter = true
  remote : slot.remote_identity = none ∨ slot.remote_identity = some identity
  key : slot'.hmac_key = slot.hmac_key
  session : slot'.local_session_id = slot.local_session_id
  own_counter : slot'.next_counter = slot.next_counter
  last' : slot'.last_inbound_counter = some counter
  remote' : slot'.remote_identity = some identity
  retired' : slot'.retired_remote_identities = slot.retired_remote_identities
  replacements' : slot'.stats.session_replacements = slot.stats.session_replacements

/-- A session that is replaced by another one. -/
structure Replaced (counter : UInt32) (identity : RemoteIdentity) (slot slot' : PeerSlot) : Prop where
  remote : ∃ old, slot.remote_identity = some old ∧ old ≠ identity ∧
    slot'.retired_remote_identities = slot.retireRemoteIdentity.retired_remote_identities
  key : slot'.hmac_key = slot.hmac_key
  session : slot'.local_session_id = slot.local_session_id
  own_counter : slot'.next_counter = slot.next_counter
  last' : slot'.last_inbound_counter = some counter
  remote' : slot'.remote_identity = some identity
  replacements' : slot'.stats.session_replacements = slot.stats.session_replacements + 1

/-- What both have in common: the session is the one that is named, and at most the identity before
it is retired. -/
structure Entered (counter : UInt32) (identity : RemoteIdentity) (slot slot' : PeerSlot) : Prop where
  key : slot'.hmac_key = slot.hmac_key
  session : slot'.local_session_id = slot.local_session_id
  own_counter : slot'.next_counter = slot.next_counter
  last : slot'.last_inbound_counter = some counter
  remote : slot'.remote_identity = some identity
  retired : ∀ other ∈ slot'.retired_remote_identities,
    other ∈ slot.retired_remote_identities ∨ slot.remote_identity = some other
  replacements : slot.stats.session_replacements ≤ slot'.stats.session_replacements

/-- The identities a slot has retired are remote identities it had. -/
theorem mem_of_mem_retireRemoteIdentity {identity : RemoteIdentity}
    (h : identity ∈ slot.retireRemoteIdentity.retired_remote_identities) :
    identity ∈ slot.retired_remote_identities ∨ slot.remote_identity = some identity := by
  rw [retireRemoteIdentity] at h
  rcases hold : slot.remote_identity with _ | old
  · rw [hold] at h
    exact .inl h
  rw [hold] at h
  dsimp only at h
  split_ifs at h
  · exact .inl h
  · exact .inl h
  · rcases List.mem_append.mp h with h | h
    · exact .inl (List.mem_of_mem_tail h)
    · exact .inr (congrArg some (List.mem_singleton.mp h).symm)
  · rcases List.mem_append.mp h with h | h
    · exact .inl h
    · exact .inr (congrArg some (List.mem_singleton.mp h).symm)

section Entered

variable {counter : UInt32} {identity : RemoteIdentity}

theorem Counted.entered (h : Counted counter identity slot slot') :
    Entered counter identity slot slot' :=
  ⟨h.key, h.session, h.own_counter, h.last', h.remote', fun _ hmem => .inl (h.retired' ▸ hmem),
    h.replacements'.ge⟩

theorem Replaced.entered (h : Replaced counter identity slot slot') :
    Entered counter identity slot slot' := by
  obtain ⟨old, -, -, hretired⟩ := h.remote
  exact ⟨h.key, h.session, h.own_counter, h.last', h.remote',
    fun _ hmem => mem_of_mem_retireRemoteIdentity (hretired ▸ hmem), by simp [h.replacements']⟩

end Entered

theorem passed_of_eq_true {p : Prop} [Decidable p] {rest : Bool × PeerSlot}
    (h : (if p then (false, slot) else rest) = (true, slot')) : ¬p ∧ rest = (true, slot') := by
  by_cases hp : p
  · rw [if_pos hp] at h
    cases h
  · rw [if_neg hp] at h
    exact ⟨hp, h⟩

theorem counted_of_acceptCounter {counter : UInt32} {syn : Option SynPayload}
    {identity : RemoteIdentity} (h : slot.acceptCounter counter syn = (true, slot'))
    (hremote : slot.remote_identity = some identity ∨
      slot.remote_identity = none ∧ ∃ s, syn = some s ∧ s.identity = identity) :
    Counted counter identity slot slot' := by
  obtain ⟨hforward, h⟩ := passed_of_eq_true h
  obtain ⟨-, h⟩ := passed_of_eq_true h
  have hslot := (Prod.mk.inj h).2
  have hfwd : ∀ last, slot.last_inbound_counter = some last →
      isForwardInboundCounter last counter = true := by
    intro last hlast
    simpa [hlast] using hforward
  rcases hremote with hremote | ⟨hremote, s, rfl, rfl⟩
  · have hkeep : slot' =
        { slot with
          last_inbound_counter := some counter
          require_next_inbound_counter_after_reset :=
            slot'.require_next_inbound_counter_after_reset } := by
      subst hslot
      cases syn with
      | none => rfl
      | some s => simp [hremote]
    rw [hkeep]
    exact ⟨hfwd, .inr hremote, rfl, rfl, rfl, rfl, hremote, rfl, rfl⟩
  · have hbegin : slot' =
        { slot with
          remote_identity := some s.identity
          last_inbound_counter := some counter
          require_next_inbound_counter_after_reset :=
            slot'.require_next_inbound_counter_after_reset } := by
      subst hslot
      simp [hremote, replaceRemoteSession]
    rw [hbegin]
    exact ⟨hfwd, .inl hremote, rfl, rfl, rfl, rfl, rfl, rfl, rfl⟩

theorem replaced_replaceRemoteSession {syn : SynPayload} {old : RemoteIdentity} (counter : UInt32)
    (require_next : Bool) (hold : slot.remote_identity = some old) (hne : old ≠ syn.identity) :
    Replaced counter syn.identity slot (slot.replaceRemoteSession syn counter require_next) := by
  have hreplacing : (slot.remote_identity.isSome && !slot.sameRemoteIdentity syn) = true := by
    simp [hold, sameRemoteIdentity, hne]
  have hretire : slot.retireRemoteIdentity =
      { slot with
        retired_remote_identities := slot.retireRemoteIdentity.retired_remote_identities } := by
    unfold retireRemoteIdentity
    split
    · rfl
    · split_ifs <;> rfl
  rw [replaceRemoteSession]
  simp only [hreplacing, if_true]
  exact
    { remote := ⟨old, hold, hne, rfl⟩
      key := by rw [hretire]
      session := by rw [hretire]
      own_counter := by rw [hretire]
      last' := rfl
      remote' := rfl
      replacements' := by rw [hretire] }

section Accept

variable (h : slot.acceptInboundReplayState packet = (true, slot'))
  (hverified : isHandshakeMessage packet.msg_type = false → slot.remote_identity.isSome)

include h hverified

/-- **What is let through.**  A handshake with an identity that is not retired goes on with the
session it names, begins the first one or replaces the one there is; a SYNACK replaces a session
only while the slot is connecting.  Anything else goes on with the session there is. -/
theorem accept_cases :
    (∃ syn, isHandshakeMessage packet.msg_type = true ∧
      decodeSynPayload packet.payload = some syn ∧ hasNonZeroSynIdentity syn = true ∧
      syn.identity ∉ slot.retired_remote_identities ∧
      (Counted packet.counter syn.identity slot slot' ∨
        (packet.msg_type = .kSyn ∨ slot.state = .kConnecting) ∧
          Replaced packet.counter syn.identity slot slot')) ∨
    ∃ identity, isHandshakeMessage packet.msg_type = false ∧
      slot.remote_identity = some identity ∧ Counted packet.counter identity slot slot' := by
  obtain ⟨-, h⟩ := passed_of_eq_true h
  by_cases htype : isHandshakeMessage packet.msg_type = true
  · left
    rw [if_pos htype] at h
    rcases hsyn : decodeSynPayload packet.payload with _ | syn
    · rw [hsyn] at h
      cases h
    rw [hsyn] at h
    obtain ⟨hzero, h⟩ := passed_of_eq_true h
    obtain ⟨hretired, h⟩ := passed_of_eq_true h
    refine ⟨syn, htype, rfl, by simpa using hzero,
      by simpa [isRetiredRemoteIdentity] using hretired, ?_⟩
    by_cases hother : (slot.remote_identity.isSome && !slot.sameRemoteIdentity syn) = true
    · obtain ⟨old, hold, hne⟩ : ∃ old, slot.remote_identity = some old ∧
          old ≠ syn.identity := by
        obtain ⟨hsome, hdiff⟩ := Bool.and_eq_true_iff.mp hother
        obtain ⟨old, hold⟩ := Option.isSome_iff_exists.mp hsome
        refine ⟨old, hold, ?_⟩
        simpa [sameRemoteIdentity, hold] using hdiff
      right
      rw [if_pos hother] at h
      by_cases hreplace : (packet.msg_type = .kSyn || slot.state = .kConnecting) = true
      · rw [if_pos hreplace] at h
        refine ⟨by simpa using hreplace, ?_⟩
        rw [← (Prod.mk.inj h).2]
        exact replaced_replaceRemoteSession packet.counter true hold hne
      · rw [if_neg hreplace] at h
        cases h
    · have hremote : slot.remote_identity = some syn.identity ∨
          slot.remote_identity = none ∧
            ∃ s, some syn = some s ∧ s.identity = syn.identity := by
        cases hold : slot.remote_identity with
        | none => exact .inr ⟨rfl, syn, rfl, rfl⟩
        | some old =>
          left
          simpa [sameRemoteIdentity, hold] using hother
      rw [if_neg hother] at h
      exact .inl (counted_of_acceptCounter h hremote)
  · right
    rw [if_neg htype] at h
    have hfalse : isHandshakeMessage packet.msg_type = false := by simpa using htype
    obtain ⟨identity, hremote⟩ := Option.isSome_iff_exists.mp (hverified hfalse)
    exact ⟨identity, hfalse, hremote, counted_of_acceptCounter h (.inl hremote)⟩

theorem entered_of_accepted : ∃ identity, Entered packet.counter identity slot slot' := by
  rcases accept_cases h hverified with
    ⟨syn, -, -, -, -, hcounted | ⟨-, hreplaced⟩⟩ | ⟨identity, -, -, hcounted⟩
  · exact ⟨_, hcounted.entered⟩
  · exact ⟨_, hreplaced.entered⟩
  · exact ⟨_, hcounted.entered⟩

end Accept

theorem same_of_rejected (h : slot.acceptInboundReplayState packet = (false, slot')) :
    SameReplay slot slot' ∧ slot'.local_session_id = slot.local_session_id := by
  have hcases : slot' = slot ∨ slot' = slot.countReplayReject ∨
      slot' = slot.countReplacementReject := by
    simp only [acceptInboundReplayState, acceptCounter] at h
    grind
  rcases hcases with rfl | rfl | rfl
  · exact ⟨.refl _, rfl⟩
  · exact ⟨⟨rfl, rfl, rfl, rfl, rfl, id⟩, rfl⟩
  · exact ⟨⟨rfl, rfl, rfl, rfl, rfl, id⟩, rfl⟩

end PeerSlot

/-! ## Packets -/

/-- The slot as it is when a packet is checked: the first SYN gives it a session id. -/
structure Readied (fresh : UInt64) (packet : Packet) (slot before : PeerSlot) : Prop where
  same : SameReplay slot before
  session : SessionKept fresh slot before
  state : before.state = slot.state
  handshake : isHandshakeMessage packet.msg_type = true →
    packet.msg_type = .kSyn ∨ slot.local_session_id ≠ 0

theorem Readied.quiet {before : PeerSlot} (h : Readied fresh packet slot before) (S : Setup)
    (i : Nat) :
    Quiet S fresh i slot before [] := ⟨h.same, h.session, by simp⟩

/-- A packet is accepted. -/
def Takes (S : Setup) (fresh : UInt64) (i : Nat) (packet : Packet) (slot slot' : PeerSlot)
    (sent : List Sent) : Prop :=
  ∃ before after, Readied fresh packet slot before ∧ before.Verified S packet ∧
    before.acceptInboundReplayState packet = (true, after) ∧ Quiet S fresh i after slot' sent

theorem PeerSlot.handleInbound_cases (S : Setup) (env : Env) (i : Nat) (slot : PeerSlot)
    (packet : Packet) (sink : Bool) :
    ∃ slot' sent,
      (slot.handleInbound S env i packet sink = (none, slot', sent) ∧
        Quiet S (env.identity i).1 i slot slot' sent) ∨
      (slot.handleInbound S env i packet sink = (some (slot'.inboundPeerInfo i), slot', sent) ∧
        Takes S (env.identity i).1 i packet slot slot' sent) := by
  rw [handleInbound]
  by_cases hearly : packet.msg_type ≠ .kSyn ∧ isHandshakeMessage packet.msg_type ∧
      slot.local_session_id = 0
  · rw [if_pos hearly]
    exact ⟨slot, [], .inl ⟨rfl, .refl slot⟩⟩
  rw [if_neg hearly]
  have hready : Readied (env.identity i).1 packet slot
      (if packet.msg_type = .kSyn then slot.ensureLocalSession env i else slot) := by
    by_cases hsyn : packet.msg_type = .kSyn
    · have hquiet := slot.quiet_ensureLocalSession S env i
      rw [if_pos hsyn]
      refine ⟨hquiet.same, hquiet.session, ?_, fun _ => .inl hsyn⟩
      rw [ensureLocalSession]
      split_ifs <;> rfl
    · rw [if_neg hsyn]
      exact ⟨.refl slot, .inl rfl, rfl, fun htype => .inr fun hzero => hearly ⟨hsyn, htype, hzero⟩⟩
  dsimp only
  generalize (if packet.msg_type = .kSyn then slot.ensureLocalSession env i else slot) = before
    at hready ⊢
  have hbefore := hready.quiet S i
  rcases verifyInbound_cases S before packet with ⟨hverify, hverified⟩ | ⟨slot', hverify, hsame⟩
  · rw [hverify]
    dsimp only
    rcases haccept : before.acceptInboundReplayState packet with ⟨_ | _, after⟩
    · have hsame := same_of_rejected haccept
      exact ⟨after, [], .inl ⟨rfl, hbefore.trans_same hsame.1 hsame.2⟩⟩
    · exact ⟨_, _, .inr ⟨rfl, before, after, hready, hverified, haccept,
        after.quiet_dispatch S env i packet sink⟩⟩
  · rw [hverify]
    exact ⟨slot', [], .inl ⟨rfl, hbefore.trans_same hsame.1 hsame.2⟩⟩

/-! ## All slots -/

/-- Another address, and nothing else. -/
def Readdressed (slot slot' : PeerSlot) : Prop := ∃ a, slot' = { slot with resolved_addr := a }

theorem readdressed_resolveCandidates (env : Env) (addr : Sockaddr) (i : Nat)
    (slots : List PeerSlot) :
    List.Forall₂ Readdressed slots (resolveCandidates env addr i slots).2 := by
  induction slots generalizing i with
  | nil => exact .nil
  | cons slot rest ih =>
    rw [resolveCandidates]
    split_ifs with hsome
    · exact .cons ⟨slot.resolved_addr, rfl⟩ (ih (i + 1))
    rcases env.resolve i with _ | candidate
    · exact .cons ⟨slot.resolved_addr, rfl⟩ (ih (i + 1))
    dsimp only
    split_ifs
    · exact .cons ⟨some candidate, rfl⟩ (List.forall₂_same.mpr fun _ _ => ⟨_, rfl⟩)
    · exact .cons ⟨some candidate, rfl⟩ (ih (i + 1))

theorem readdressed_route (env : Env) (addr : Sockaddr) (slots : List PeerSlot) :
    List.Forall₂ Readdressed slots (route env slots addr).2 := by
  rw [route]
  cases findSlotByAddr slots addr with
  | some i => exact List.forall₂_same.mpr fun _ _ => ⟨_, rfl⟩
  | none => exact readdressed_resolveCandidates env addr 0 slots

theorem getElem?_route (env : Env) (addr : Sockaddr) (h : slots[k]? = some slot) :
    ∃ a, (route env slots addr).2[k]? = some { slot with resolved_addr := a } := by
  obtain ⟨hk, rfl⟩ := List.getElem?_eq_some_iff.mp h
  have hroute := readdressed_route env addr slots
  have hk' := hroute.length_eq ▸ hk
  obtain ⟨a, ha⟩ := hroute.get hk hk'
  exact ⟨a, List.getElem?_eq_some_iff.mpr ⟨hk', ha⟩⟩

theorem of_getElem?_route (h : (route env slots addr).2[k]? = some slot') :
    ∃ slot a, slots[k]? = some slot ∧ slot' = { slot with resolved_addr := a } := by
  obtain ⟨hk, -⟩ := List.getElem?_eq_some_iff.mp h
  have hslot := List.getElem?_eq_getElem ((readdressed_route env addr slots).length_eq ▸ hk)
  obtain ⟨a, ha⟩ := getElem?_route env addr hslot
  exact ⟨_, a, hslot, Option.some.inj (h.symm.trans ha)⟩

theorem getElem?_forSlots (f : Nat → PeerSlot → PeerSlot × List Sent) (h : slots[k]? = some slot) :
    (forSlots f slots).1[k]? = some (f k slot).1 := by simp [forSlots, h]

theorem length_forSlots (f : Nat → PeerSlot → PeerSlot × List Sent) (slots : List PeerSlot) :
    (forSlots f slots).1.length = slots.length := by simp [forSlots]

theorem mem_forSlots (h : x ∈ (forSlots f slots).2) :
    ∃ k slot, slots[k]? = some slot ∧ x ∈ (f k slot).2 := by
  obtain ⟨r, hr, hx⟩ := List.mem_flatMap.mp h
  obtain ⟨k, hk, rfl⟩ := List.mem_mapIdx.mp hr
  exact ⟨k, slots[k], List.getElem?_eq_getElem hk, hx⟩

theorem of_mem_getActivePeers {peer : ActivePeerInfo} (h : peer ∈ getActivePeers slots) :
    ∃ slot, slots[peer.slot_index]? = some slot ∧ slot.hmac_key = peer.hmac_key ∧
      slot.local_session_id = peer.local_session_id ∧ peer.local_session_id ≠ 0 := by
  obtain ⟨info, hinfo, hsome⟩ := List.mem_filterMap.mp h
  obtain ⟨k, hk, hpeer⟩ := List.mem_mapIdx.mp hinfo
  obtain rfl : info = some peer := hsome
  split at hpeer
  · cases hpeer
  · split_ifs at hpeer with hskip
    obtain rfl := Option.some.inj hpeer
    exact ⟨slots[k], List.getElem?_eq_getElem hk, rfl, rfl, fun hzero => hskip (.inr hzero)⟩

/-- No slot's own counter is zero. -/
def CountersSet (slots : List PeerSlot) : Prop :=
  ∀ (k : Nat) (slot : PeerSlot), slots[k]? = some slot → slot.next_counter ≠ 0

theorem getElem?_consumeCounter (i : Nat) (h : slots[k]? = some slot) :
    ∃ c, (consumeCounter slots i).2[k]? = some { slot with next_counter := c } ∧
      (slot.next_counter ≠ 0 → c ≠ 0) := by
  rw [consumeCounter]
  rcases hi : slots[i]? with _ | slot'
  · exact ⟨slot.next_counter, h, fun h => h⟩
  by_cases hik : i = k
  · subst hik
    obtain rfl := Option.some.inj (hi.symm.trans h)
    rw [List.getElem?_set_self (List.getElem?_eq_some_iff.mp h).1]
    exact ⟨_, rfl, slot'.same_consumeCounter.counter⟩
  · rw [List.getElem?_set_ne hik]
    exact ⟨slot.next_counter, h, fun h => h⟩

theorem getElem?_sendToPeers (S : Setup) (type : MessageType) (payload : ByteArr kPayloadSize)
    (peers : List ActivePeerInfo) (h : slots[k]? = some slot) :
    ∃ c, (sendToPeers S type payload peers slots).1[k]? = some { slot with next_counter := c } ∧
      (slot.next_counter ≠ 0 → c ≠ 0) := by
  induction peers generalizing slots slot with
  | nil => exact ⟨slot.next_counter, h, fun h => h⟩
  | cons peer peers ih =>
    obtain ⟨c, hc, hne⟩ := getElem?_consumeCounter peer.slot_index h
    obtain ⟨c', hc', hne'⟩ := ih hc
    exact ⟨c', hc', hne' ∘ hne⟩

theorem length_consumeCounter (slots : List PeerSlot) (i : Nat) :
    (consumeCounter slots i).2.length = slots.length := by
  rw [consumeCounter]
  cases slots[i]? with
  | none => rfl
  | some slot => exact List.length_set

theorem length_sendToPeers (S : Setup) (type : MessageType) (payload : ByteArr kPayloadSize)
    (peers : List ActivePeerInfo) (slots : List PeerSlot) :
    (sendToPeers S type payload peers slots).1.length = slots.length := by
  induction peers generalizing slots with
  | nil => rfl
  | cons peer peers ih =>
    refine (ih _).trans (length_consumeCounter slots peer.slot_index)

theorem of_mem_sendToPeers {type : MessageType} {payload : ByteArr kPayloadSize}
    {peers : List ActivePeerInfo}
    (hpeers : ∀ peer ∈ peers, ∃ slot, slots[peer.slot_index]? = some slot ∧ slot.next_counter ≠ 0)
    (h : x ∈ (sendToPeers S type payload peers slots).2) :
    ∃ peer ∈ peers, x.slot_index = peer.slot_index ∧ ∃ counter, counter ≠ 0 ∧
      x.packet = attachPacketMac S.hmac { makePacket type counter with payload := payload }
        peer.hmac_key (some peer.local_session_id) := by
  induction peers generalizing slots with
  | nil => cases h
  | cons peer peers ih =>
    rw [sendToPeers] at h
    rcases List.mem_cons.mp h with rfl | h
    · obtain ⟨slot, hslot, hne⟩ := hpeers peer List.mem_cons_self
      refine ⟨peer, List.mem_cons_self, rfl, _, ?_, rfl⟩
      rw [consumeCounter, hslot]
      exact hne
    have hpeers' : ∀ peer' ∈ peers, ∃ slot,
        (consumeCounter slots peer.slot_index).2[peer'.slot_index]? = some slot ∧
          slot.next_counter ≠ 0 := by
      intro peer' hmem
      obtain ⟨slot, hslot, hne⟩ := hpeers peer' (List.mem_cons_of_mem _ hmem)
      obtain ⟨c, hc, hne'⟩ := getElem?_consumeCounter peer.slot_index hslot
      exact ⟨_, hc, hne' hne⟩
    obtain ⟨peer', hmem, hx⟩ := ih hpeers' h
    exact ⟨peer', List.mem_cons_of_mem _ hmem, hx⟩

/-! ## Calls -/

/-- The fresh session id a slot may get in a call. -/
def Call.identity (call : Call) (k : Nat) : UInt64 := (call.env.identity k).1

/-- What was accepted from the peer of a slot. -/
def History.acceptedAt (h : History) (k : Nat) : List (InboundPeerInfo × Packet) :=
  h.accepted.filter (·.1.slot_index == k)

theorem Takes.inboundPeerInfo (h : Takes S fresh i packet slot slot' sent) :
    ∃ identity, slot'.remote_identity = some identity ∧ slot'.last_inbound_counter =
      some packet.counter ∧ slot'.inboundPeerInfo i =
        { slot_index := i
          remote_session_id := identity.session_id
          remote_peer_id := identity.peer_id } := by
  obtain ⟨before, after, -, hverified, haccept, hquiet⟩ := h
  obtain ⟨identity, hentered⟩ := PeerSlot.entered_of_accepted haccept hverified.remote
  have hremote' := hquiet.same.remote.trans hentered.remote
  refine ⟨identity, hremote', hquiet.same.last.trans hentered.last, ?_⟩
  rw [PeerSlot.inboundPeerInfo, hremote']

theorem same_setAddr (slot : PeerSlot) (a : Option Sockaddr) :
    SameReplay slot { slot with resolved_addr := a } := ⟨rfl, rfl, rfl, rfl, rfl, id⟩

theorem Takes.of_setAddr {a : Option Sockaddr}
    (h : Takes S fresh i packet { slot with resolved_addr := a } slot' sent) :
    Takes S fresh i packet slot slot' sent := by
  obtain ⟨before, after, hready, htakes⟩ := h
  exact ⟨before, after,
    ⟨(same_setAddr slot a).trans hready.same, hready.session, hready.state, hready.handshake⟩, htakes⟩

/-- No slot has the address, or one of them gets the packet. -/
theorem handleInbound_eq (S : Setup) (env : Env) (slots : List PeerSlot) (packet : Packet)
    (addr : Sockaddr) (sink : Bool) :
    handleInbound S env slots packet addr sink = (none, (route env slots addr).2, []) ∨
      ∃ i found, (route env slots addr).1 = some i ∧ (route env slots addr).2[i]? = some found ∧
        handleInbound S env slots packet addr sink =
          ((found.handleInbound S env i packet sink).1,
            (route env slots addr).2.set i (found.handleInbound S env i packet sink).2.1,
            (found.handleInbound S env i packet sink).2.2) := by
  rw [handleInbound]
  rcases route env slots addr with ⟨_ | i, slots'⟩
  · exact .inl rfl
  cases hi : slots'[i]? with
  | none => exact .inl (by simp [hi])
  | some found => exact .inr ⟨i, found, rfl, hi, by simp [hi]⟩

theorem handleInbound_slot (S : Setup) (env : Env) (packet : Packet) (addr : Sockaddr) (sink : Bool)
    (h : slots[k]? = some slot) :
    ∃ slot' sent, (handleInbound S env slots packet addr sink).2.1[k]? = some slot' ∧
      (Quiet S (env.identity k).1 k slot slot' sent ∧
          (∀ peer, (handleInbound S env slots packet addr sink).1 = some peer →
            peer.slot_index ≠ k) ∨
        (handleInbound S env slots packet addr sink).1 = some (slot'.inboundPeerInfo k) ∧
          (route env slots addr).1 = some k ∧
          Takes S (env.identity k).1 k packet slot slot' sent) := by
  obtain ⟨a, ha⟩ := getElem?_route env addr h
  have hquiet : Quiet S (env.identity k).1 k slot { slot with resolved_addr := a } [] :=
    .of_same (same_setAddr slot a) rfl
  rcases handleInbound_eq S env slots packet addr sink with heq | ⟨i, found, hroute, hi, heq⟩
  · rw [heq]
    exact ⟨_, [], ha, .inl ⟨hquiet, by simp⟩⟩
  obtain ⟨found', sent, hcases⟩ := found.handleInbound_cases S env i packet sink
  by_cases hik : i = k
  · subst hik
    obtain rfl := Option.some.inj (hi.symm.trans ha)
    have hlen := (List.getElem?_eq_some_iff.mp hi).1
    rcases hcases with ⟨hfound, hstep⟩ | ⟨hfound, hstep⟩
    · rw [heq, hfound]
      exact ⟨found', sent, List.getElem?_set_self hlen,
        .inl ⟨.same_trans (same_setAddr slot a) rfl hstep, by simp⟩⟩
    · rw [heq, hfound]
      exact ⟨found', sent, List.getElem?_set_self hlen, .inr ⟨rfl, hroute, hstep.of_setAddr⟩⟩
  · refine ⟨{ slot with resolved_addr := a }, [], ?_, .inl ⟨hquiet, ?_⟩⟩
    · rw [heq, List.getElem?_set_ne hik, ha]
    rcases hcases with ⟨hfound, -⟩ | ⟨hfound, htakes⟩
    · simp [heq, hfound]
    · obtain ⟨identity, -, -, hinfo⟩ := htakes.inboundPeerInfo
      simp [heq, hfound, hinfo, hik]

/-- What the caller of `HandleInbound` is told is what the slot of the address says. -/
theorem handleInbound_fst (hroute : (route env slots addr).1 = some k)
    (hslot : (route env slots addr).2[k]? = some slot) :
    (handleInbound S env slots packet addr sink).1 =
      (slot.handleInbound S env k packet sink).1 := by
  rw [handleInbound]
  rcases heq : route env slots addr with ⟨found, slots'⟩
  rw [heq] at hroute hslot
  obtain rfl : found = some k := hroute
  simp [hslot]

theorem slot_of_accepted {peer : InboundPeerInfo}
    (h : (handleInbound S env slots packet addr sink).1 = some peer) :
    ∃ slot, slots[peer.slot_index]? = some slot := by
  rcases handleInbound_eq S env slots packet addr sink with heq | ⟨i, found, -, hi, heq⟩
  · simp [heq] at h
  obtain ⟨slot, -, hslot, -⟩ := of_getElem?_route hi
  obtain ⟨found', sent, ⟨hfound, -⟩ | ⟨hfound, htakes⟩⟩ :=
    found.handleInbound_cases S env i packet sink
  · simp [heq, hfound] at h
  · obtain ⟨identity, -, -, hinfo⟩ := htakes.inboundPeerInfo
    simp only [heq, hfound, hinfo, Option.some.injEq] at h
    exact ⟨slot, h ▸ hslot⟩

/-- A packet was sent by a slot there is. -/
def SentBy (S : Setup) (slots : List PeerSlot) (x : Sent) : Prop :=
  ∃ slot, slots[x.slot_index]? = some slot ∧ slot.local_session_id ≠ 0 ∧
    OwnPacket S slot.hmac_key slot.local_session_id x.packet ∧ x.packet.counter ≠ 0

theorem sentBy_handleInbound (hcounters : CountersSet slots)
    (h : x ∈ (handleInbound S env slots packet addr sink).2.2) :
    SentBy S (handleInbound S env slots packet addr sink).2.1 x := by
  rcases handleInbound_eq S env slots packet addr sink with heq | ⟨i, found, -, hi, heq⟩
  · simp [heq] at h
  obtain ⟨found', sent, hcases⟩ := found.handleInbound_cases S env i packet sink
  have hown : ∃ peer s, found.handleInbound S env i packet sink = (peer, found', sent) ∧
      (found.next_counter ≠ 0 → s.next_counter ≠ 0) ∧
      Quiet S (env.identity i).1 i s found' sent := by
    rcases hcases with ⟨hf, hquiet⟩ | ⟨hf, before, after, hready, hverified, haccept, hquiet⟩
    · exact ⟨_, found, hf, fun h => h, hquiet⟩
    · obtain ⟨_, hentered⟩ := PeerSlot.entered_of_accepted haccept hverified.remote
      refine ⟨_, after, hf, fun hne => ?_, hquiet⟩
      rw [hentered.own_counter]
      exact hready.same.counter hne
  obtain ⟨peer, s, hfound, hs, hquiet⟩ := hown
  rw [heq, hfound] at h ⊢
  obtain ⟨hx, hne, hpacket, hcounter⟩ := hquiet.own x h
  refine ⟨found', ?_, hne, hpacket, hcounter (hs ?_)⟩
  · rw [hx]
    exact List.getElem?_set_self (List.getElem?_eq_some_iff.mp hi).1
  · obtain ⟨slot, a, hslot, rfl⟩ := of_getElem?_route hi
    exact hcounters i slot hslot

/-- A loop over the slots in which each is quiet. -/
theorem sentBy_forSlots {fresh : Nat → UInt64}
    (hf : ∀ k slot, Quiet S (fresh k) k slot (f k slot).1 (f k slot).2)
    (hcounters : CountersSet slots) (h : x ∈ (forSlots f slots).2) :
    SentBy S (forSlots f slots).1 x := by
  obtain ⟨k, slot, hk, hx⟩ := mem_forSlots h
  obtain ⟨hindex, hne, hpacket, hcounter⟩ := (hf k slot).own x hx
  refine ⟨(f k slot).1, ?_, hne, hpacket, hcounter (hcounters k slot hk)⟩
  rw [hindex]
  exact getElem?_forSlots f hk

theorem sentBy_sendToPeers {payload : RelayPayload} (hcounters : CountersSet slots)
    (h : x ∈ (sendToPeers S payload.msgType payload.encode (getActivePeers slots) slots).2) :
    SentBy S (sendToPeers S payload.msgType payload.encode (getActivePeers slots) slots).1 x := by
  have hpeers : ∀ peer ∈ getActivePeers slots, ∃ slot, slots[peer.slot_index]? = some slot ∧
      slot.next_counter ≠ 0 := by
    intro peer hmem
    obtain ⟨slot, hslot, -⟩ := of_mem_getActivePeers hmem
    exact ⟨slot, hslot, hcounters _ slot hslot⟩
  obtain ⟨peer, hmem, hindex, counter, hcounter, hpacket⟩ := of_mem_sendToPeers hpeers h
  obtain ⟨slot, hslot, hkey, hsession, hne⟩ := of_mem_getActivePeers hmem
  obtain ⟨c, hc, -⟩ := getElem?_sendToPeers S payload.msgType payload.encode (getActivePeers slots)
    hslot
  have htype : isHandshakeMessage payload.msgType = false := by
    cases payload <;> rfl
  rw [← hindex] at hc
  refine ⟨_, hc, hsession ▸ hne, ?_, hpacket ▸ hcounter⟩
  rw [hpacket, ← hkey, ← hsession]
  exact .session counter payload.encode htype

namespace History

variable (S : Setup) (h : History) (call : Call)

/-- **What a call does to a slot.**  It is quiet, or the call is a packet and the slot takes it. -/
theorem step_slot (hk : h.slots[k]? = some slot) :
    ∃ slot' sent, (h.step S call).slots[k]? = some slot' ∧
      (Quiet S (call.identity k) k slot slot' sent ∧
          (h.step S call).acceptedAt k = h.acceptedAt k ∨
        ∃ packet addr sink, call.action = .handleInbound packet addr sink ∧
          (route call.env h.slots addr).1 = some k ∧
          Takes S (call.identity k) k packet slot slot' sent ∧
          (h.step S call).acceptedAt k =
            h.acceptedAt k ++ [(slot'.inboundPeerInfo k, packet)]) := by
  rw [step]
  cases haction : call.action with
  | tick =>
    exact ⟨_, _, getElem?_forSlots _ hk, .inl ⟨slot.quiet_tick S call.env k, rfl⟩⟩
  | sendDisconnectAll =>
    exact ⟨_, _, getElem?_forSlots _ hk, .inl ⟨slot.quiet_sendDisconnect S call.env k _, rfl⟩⟩
  | relay payload =>
    obtain ⟨c, hc, hne⟩ := getElem?_sendToPeers S payload.msgType payload.encode
      (getActivePeers h.slots) hk
    exact ⟨_, [], hc, .inl ⟨.of_same ⟨rfl, rfl, rfl, rfl, rfl, hne⟩ rfl, rfl⟩⟩
  | handleInbound packet addr sink =>
    obtain ⟨slot', sent, hslot', hcases⟩ := handleInbound_slot S call.env packet addr sink hk
    refine ⟨slot', sent, hslot', ?_⟩
    rcases hcases with ⟨hquiet, hother⟩ | ⟨hpeer, hroute, htakes⟩
    · refine .inl ⟨hquiet, ?_⟩
      rw [acceptedAt, acceptedAt, List.filter_append, List.append_right_eq_self,
        List.filter_eq_nil_iff]
      intro a ha
      obtain ⟨peer, hpeer, rfl⟩ := Option.map_eq_some_iff.mp (Option.mem_toList.mp ha)
      simpa using hother peer hpeer
    · refine .inr ⟨packet, addr, sink, rfl, hroute, htakes, ?_⟩
      obtain ⟨identity, -, -, hinfo⟩ := htakes.inboundPeerInfo
      simp [acceptedAt, hpeer, hinfo]

theorem length_step : (h.step S call).slots.length = h.slots.length := by
  rw [step]
  cases call.action with
  | tick => exact length_forSlots _ _
  | sendDisconnectAll => exact length_forSlots _ _
  | relay payload => exact length_sendToPeers S _ _ _ _
  | handleInbound packet addr sink =>
    have hroute := (readdressed_route call.env addr h.slots).length_eq.symm
    rcases handleInbound_eq S call.env h.slots packet addr sink with heq | ⟨i, found, -, -, heq⟩
    · simp [heq, hroute]
    · simp [heq, hroute]

/-- Everything a call sends is a packet of the slot it is sent for. -/
theorem sent_step (hcounters : CountersSet h.slots) (hx : x ∈ (h.step S call).sent) :
    x ∈ h.sent ∨ SentBy S (h.step S call).slots x := by
  rw [step] at hx ⊢
  cases haction : call.action with
  | tick =>
    rw [haction] at hx
    refine (List.mem_append.mp hx).imp_right fun hnew => ?_
    exact sentBy_forSlots (fun k slot => slot.quiet_tick S call.env k) hcounters hnew
  | sendDisconnectAll =>
    rw [haction] at hx
    refine (List.mem_append.mp hx).imp_right fun hnew => ?_
    exact sentBy_forSlots (fun k slot => slot.quiet_sendDisconnect S call.env k 0) hcounters hnew
  | relay payload =>
    rw [haction] at hx
    exact (List.mem_append.mp hx).imp_right (sentBy_sendToPeers hcounters)
  | handleInbound packet addr sink =>
    rw [haction] at hx
    exact (List.mem_append.mp hx).imp_right (sentBy_handleInbound hcounters)

end History

end Qbit.Photon
