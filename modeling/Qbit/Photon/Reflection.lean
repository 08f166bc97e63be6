import Qbit.Photon.Replay
import Qbit.Lib.Runs

/-!
# Packets that come back to their sender

Somebody captures packets a node has sent and delivers them to the node itself.  The MAC of a packet
that belongs to a session is checked for the *remote* session id, which is not the node's own, so
none of those is accepted.  The MAC of a handshake says nothing about who sent it, and no identity
in a handshake is compared with the node's own: a SYN that comes back is accepted in every state,
and the node has a session with itself.

So what was sent is rejected at every step of a run exactly when no step is one in which a handshake
comes back to a slot that takes it (`reflections_rejected_iff`).
-/

namespace Qbit.Photon

open Runs History

variable {S : Setup} {own : Set UInt64} {keys : List HmacKey}

/-! ## What is known of a packet that was sent -/

/-- The packet is one the node sent before. -/
def Reflected (h : History) (packet : Packet) : Prop := ∃ x ∈ h.sent, x.packet = packet

variable {key : HmacKey} {sid fresh : UInt64} {packet : Packet} {i k : Nat} {slot slot' : PeerSlot}
  {sent : List Sent} {identity : RemoteIdentity} {counter : UInt32}
  {signed : HmacKey → Set (List UInt8)} {packets : List Packet} {h : History} {addr : Sockaddr}
  {now : Int}

/-- The handshakes of a node name the node. -/
theorem OwnPacket.decode (h : OwnPacket S key sid packet)
    (htype : isHandshakeMessage packet.msg_type = true) :
    decodeSynPayload packet.payload =
      some { session_id := sid, peer_id := S.local_peer_id } := by
  cases h with
  | handshake counter _ => exact decodeSynPayload_encodeSynPayload rfl
  | session counter payload hother => cases htype.symm.trans hother

/-- Everything else is bound to the session id of the node. -/
theorem OwnPacket.verify (h : OwnPacket S key sid packet)
    (htype : isHandshakeMessage packet.msg_type = false) :
    verifyPacketMac S.hmac (serializePacket packet) key (some sid) = true := by
  cases h with
  | handshake counter hother => cases htype.symm.trans hother
  | session counter payload _ => exact verifyPacketMac_attachPacketMac S.hmac _ key (some sid)

/-! ## The invariant -/

/-- A slot that knows the node itself as a remote end in no way. -/
structure SlotSafe (S : Setup) (own : Set UInt64) (keys : List HmacKey) (slot : PeerSlot) :
    Prop where
  key : slot.hmac_key ∈ keys
  counter : slot.next_counter ≠ 0
  session : slot.local_session_id ≠ 0 → slot.local_session_id ∈ own
  both : slot.remote_identity.isSome = slot.last_inbound_counter.isSome
  remote : ∀ identity, slot.remote_identity = some identity →
    identity.peer_id ≠ S.local_peer_id ∧ identity.session_id ∉ own
  retired : ∀ identity ∈ slot.retired_remote_identities, identity.peer_id ≠ S.local_peer_id

/-- Every slot is safe, and what was sent is the node's own. -/
structure ReflectionSafe (S : Setup) (own : Set UInt64) (keys : List HmacKey) (h : History) :
    Prop where
  slots : ∀ (k : Nat) (slot : PeerSlot), h.slots[k]? = some slot → SlotSafe S own keys slot
  sent : ∀ x ∈ h.sent, ∃ key ∈ keys, ∃ sid ∈ own, sid ≠ 0 ∧ OwnPacket S key sid x.packet ∧
    x.packet.counter ≠ 0

theorem SlotSafe.quiet (h : SlotSafe S own keys slot) (hquiet : Quiet S fresh i slot slot' sent)
    (hfresh : fresh ∈ own) : SlotSafe S own keys slot' where
  key := by
    rw [hquiet.same.key]
    exact h.key
  counter := hquiet.same.counter h.counter
  session := by
    intro hne
    rcases hquiet.session with hkept | ⟨-, hnew⟩
    · rw [hkept] at hne ⊢
      exact h.session hne
    · rw [hnew]
      exact hfresh
  both := by rw [hquiet.same.remote, hquiet.same.last, h.both]
  remote := by
    rw [hquiet.same.remote]
    exact h.remote
  retired := by
    rw [hquiet.same.retired]
    exact h.retired

theorem SlotSafe.entered (h : SlotSafe S own keys slot)
    (hentered : PeerSlot.Entered counter identity slot slot')
    (hforeign : identity.peer_id ≠ S.local_peer_id ∧ identity.session_id ∉ own) :
    SlotSafe S own keys slot' where
  key := by
    rw [hentered.key]
    exact h.key
  counter := by
    rw [hentered.own_counter]
    exact h.counter
  session := by
    rw [hentered.session]
    exact h.session
  both := by rw [hentered.remote, hentered.last]; rfl
  remote := by
    intro other hother
    obtain rfl := Option.some.inj (hentered.remote.symm.trans hother)
    exact hforeign
  retired := by
    intro other hother
    rcases hentered.retired other hother with hother | hother
    · exact h.retired other hother
    · exact (h.remote other hother).1

/-! ## Steps -/

/-- Session ids of the node are fresh, and a handshake that verifies and is not the node's own is
that of another node: it names neither this node nor one of its session ids. -/
structure Honest (S : Setup) (own : Set UInt64) (h : History) (call : Call) : Prop where
  fresh : ∀ k, call.identity k ∈ own
  foreign : ∀ packet addr sink, call.action = .handleInbound packet addr sink →
    ¬Reflected h packet → isHandshakeMessage packet.msg_type = true →
    ∀ slot ∈ h.slots, verifyPacketMac S.hmac (serializePacket packet) slot.hmac_key none = true →
    ∀ syn, decodeSynPayload packet.payload = some syn →
      syn.peer_id ≠ S.local_peer_id ∧ syn.session_id ∉ own

/-- A packet the node sent is not accepted when it comes back, and no slot takes the node for its
remote end. -/
structure RejectsReflections (S : Setup) (h : History) (call : Call) : Prop where
  rejected : ∀ packet addr sink, call.action = .handleInbound packet addr sink →
    Reflected h packet → (h.step S call).accepted = h.accepted
  notSelf : ∀ (k : Nat) (slot : PeerSlot) (identity : RemoteIdentity),
    (h.step S call).slots[k]? = some slot → slot.remote_identity = some identity →
      identity.peer_id ≠ S.local_peer_id

/-- No handshake comes back to a slot that takes it: neither a SYN, nor a SYNACK while the slot has
a session id of its own and is connecting or has no remote end yet. -/
def NoHandshakeReturns (S : Setup) (h : History) (call : Call) : Prop :=
  ∀ packet addr sink, call.action = .handleInbound packet addr sink → Reflected h packet →
    isHandshakeMessage packet.msg_type = true →
    ∀ (k : Nat) (slot : PeerSlot), (route call.env h.slots addr).1 = some k →
      h.slots[k]? = some slot →
      verifyPacketMac S.hmac (serializePacket packet) slot.hmac_key none = true →
      packet.msg_type ≠ .kSyn ∧
        (slot.local_session_id ≠ 0 → slot.remote_identity.isSome ∧ slot.state ≠ .kConnecting)

/-- A packet of the node's own that is not a handshake is bound to a session that no remote end
has. -/
theorem not_takes_session {before : PeerSlot}
    (hmac : Unforgeable S.hmac { key | key ∈ keys } signed packets) (hmem : packet ∈ packets)
    (hsafe : SlotSafe S own keys slot) (hsame : SameReplay slot before) (hkey : key ∈ keys)
    (hsid : sid ∈ own) (hown : OwnPacket S key sid packet)
    (htype : isHandshakeMessage packet.msg_type = false) : ¬before.Verified S packet := by
  intro hverified
  obtain ⟨identity, hidentity⟩ := Option.isSome_iff_exists.mp (hverified.remote htype)
  have hbefore := hverified.mac
  rw [PeerSlot.macSession, htype, hidentity, hsame.key] at hbefore
  have hsession := hmac.session_unique hmem hsafe.key hkey hbefore (hown.verify htype)
  rw [hsame.remote] at hidentity
  have heq : identity.session_id = sid := Option.some.inj hsession
  exact (hsafe.remote identity hidentity).2 (heq ▸ hsid)

/-- What a slot takes is not the node's own, unless a handshake comes back. -/
theorem not_reflected_of_takes {call : Call} {sink : Bool}
    (hmac : Unforgeable S.hmac { key | key ∈ keys } signed packets) (hmem : packet ∈ packets)
    (hsafe : ReflectionSafe S own keys h) (hcond : NoHandshakeReturns S h call)
    (haction : call.action = .handleInbound packet addr sink)
    (hroute : (route call.env h.slots addr).1 = some k) (hslot : h.slots[k]? = some slot)
    (htakes : Takes S fresh k packet slot slot' sent) : ¬Reflected h packet := by
  rintro ⟨x, hx, rfl⟩
  obtain ⟨key, hkey, sid, hsid, -, hown, -⟩ := hsafe.sent x hx
  have hslotSafe := hsafe.slots k slot hslot
  obtain ⟨before, after, hready, hverified, haccept, -⟩ := htakes
  rcases htype : isHandshakeMessage x.packet.msg_type with _ | _
  · exact not_takes_session hmac hmem hslotSafe hready.same hkey hsid hown htype hverified
  have hverify := hverified.mac
  rw [PeerSlot.macSession, if_pos htype, hready.same.key] at hverify
  obtain ⟨hnotSyn, hstate⟩ :=
    hcond x.packet addr sink haction ⟨x, hx, rfl⟩ htype k slot hroute hslot hverify
  obtain ⟨hremote, hnotConnecting⟩ := hstate ((hready.handshake htype).resolve_left hnotSyn)
  rcases PeerSlot.accept_cases haccept hverified.remote with
    ⟨syn, -, hsyn, -, -, hcounted | ⟨hreplace, -⟩⟩ | ⟨-, htype', -⟩
  · obtain ⟨identity, hidentity⟩ := Option.isSome_iff_exists.mp hremote
    rw [hown.decode htype] at hsyn
    obtain rfl := Option.some.inj hsyn
    have hsame : before.remote_identity = some identity := by rw [hready.same.remote, hidentity]
    rcases hcounted.remote with hnone | hsome
    · cases hsame.symm.trans hnone
    · obtain rfl := Option.some.inj (hsame.symm.trans hsome)
      exact (hslotSafe.remote _ hidentity).1 rfl
  · rcases hreplace with hsyn | hconnecting
    · exact hnotSyn hsyn
    · exact hnotConnecting (hready.state ▸ hconnecting)
  · cases htype.symm.trans htype'

theorem SlotSafe.takes {call : Call} {sink : Bool} (hsafe : SlotSafe S own keys slot)
    (hhonest : Honest S own h call) (haction : call.action = .handleInbound packet addr sink)
    (hforeign : ¬Reflected h packet) (hslot : h.slots[k]? = some slot) (hfresh : fresh ∈ own)
    (htakes : Takes S fresh i packet slot slot' sent) : SlotSafe S own keys slot' := by
  obtain ⟨before, after, hready, hverified, haccept, hquiet⟩ := htakes
  have hbefore : SlotSafe S own keys before := hsafe.quiet (hready.quiet S i) hfresh
  refine SlotSafe.quiet ?_ hquiet hfresh
  rcases PeerSlot.accept_cases haccept hverified.remote with
    ⟨syn, htype, hsyn, -, -, hcases⟩ | ⟨identity, -, hremote, hcounted⟩
  · have hverify := hverified.mac
    rw [PeerSlot.macSession, if_pos htype, hready.same.key] at hverify
    have hother := hhonest.foreign packet addr sink haction hforeign htype slot
      (List.mem_of_getElem? hslot) hverify syn hsyn
    rcases hcases with hcounted | ⟨-, hreplaced⟩
    · exact hbefore.entered hcounted.entered hother
    · exact hbefore.entered hreplaced.entered hother
  · exact hbefore.entered hcounted.entered (hbefore.remote identity hremote)

section Steps

variable {call : Call}

/-- The packets that a call delivers. -/
def Call.Delivers (packets : List Packet) (call : Call) : Prop :=
  ∀ packet addr sink, call.action = .handleInbound packet addr sink → packet ∈ packets

section Step

variable (hmac : Unforgeable S.hmac { key | key ∈ keys } signed packets)
  (hdelivers : call.Delivers packets) (hsafe : ReflectionSafe S own keys h)
  (hhonest : Honest S own h call) (hcond : NoHandshakeReturns S h call)

include hmac hdelivers hsafe hhonest hcond

/-- No step of the kind that is excluded: every slot stays safe, and every packet that is sent is
the node's own. -/
theorem ReflectionSafe.step : ReflectionSafe S own keys (h.step S call) := by
  have hslots : ∀ (k : Nat) (slot : PeerSlot), (h.step S call).slots[k]? = some slot →
      SlotSafe S own keys slot := by
    intro k slot hk
    obtain ⟨hlt, -⟩ := List.getElem?_eq_some_iff.mp hk
    obtain ⟨before, hbefore⟩ : ∃ before, h.slots[k]? = some before :=
      ⟨_, List.getElem?_eq_getElem (length_step S h call ▸ hlt)⟩
    obtain ⟨slot', sent, hslot', hcases⟩ := step_slot S h call hbefore
    obtain rfl := Option.some.inj (hslot'.symm.trans hk)
    rcases hcases with ⟨hquiet, -⟩ | ⟨packet, addr, sink, haction, hroute, htakes, -⟩
    · exact (hsafe.slots k before hbefore).quiet hquiet (hhonest.fresh k)
    · exact (hsafe.slots k before hbefore).takes hhonest haction
        (not_reflected_of_takes hmac (hdelivers packet addr sink haction) hsafe hcond haction hroute
          hbefore htakes) hbefore (hhonest.fresh k) htakes
  refine ⟨hslots, fun x hx => ?_⟩
  rcases sent_step S h call (fun k slot hk => (hsafe.slots k slot hk).counter) hx with
    hold | ⟨slot, hslot, hne, hown, hcounter⟩
  · exact hsafe.sent x hold
  · have hslotSafe := hslots _ slot hslot
    exact ⟨slot.hmac_key, hslotSafe.key, slot.local_session_id, hslotSafe.session hne, hne, hown,
      hcounter⟩

theorem rejectsReflections_of_noHandshakeReturns : RejectsReflections S h call where
  rejected := by
    intro packet addr sink haction hreflected
    rcases hpeer : (handleInbound S call.env h.slots packet addr sink).1 with _ | peer
    · simp [step, haction, hpeer]
    obtain ⟨slot, hslot⟩ := slot_of_accepted hpeer
    obtain ⟨slot', sent, -, ⟨-, hother⟩ | ⟨-, hroute, htakes⟩⟩ :=
      handleInbound_slot S call.env packet addr sink hslot
    · exact absurd rfl (hother peer hpeer)
    · exact absurd hreflected (not_reflected_of_takes hmac (hdelivers packet addr sink haction)
        hsafe hcond haction hroute hslot htakes)
  notSelf := by
    intro k slot identity hk hidentity
    have hnext := hsafe.step hmac hdelivers hhonest hcond
    exact ((hnext.slots k slot hk).remote identity hidentity).1

end Step

/-- A handshake with an identity that is new to the slot is let through: the first one always, a
later one if it is a SYN or the slot is connecting. -/
theorem PeerSlot.exists_accept {slot : PeerSlot} {syn : SynPayload} (hcounter : packet.counter ≠ 0)
    (htype : isHandshakeMessage packet.msg_type = true)
    (hsyn : decodeSynPayload packet.payload = some syn)
    (hnonzero : hasNonZeroSynIdentity syn = true)
    (hnot : syn.identity ∉ slot.retired_remote_identities)
    (hstate : slot.remote_identity = none ∧ slot.last_inbound_counter = none ∨
      ∃ identity, slot.remote_identity = some identity ∧ identity ≠ syn.identity ∧
        (packet.msg_type = .kSyn ∨ slot.state = .kConnecting)) :
    ∃ slot', slot.acceptInboundReplayState packet = (true, slot') := by
  have hretired : slot.isRetiredRemoteIdentity syn = false := by
    simpa [isRetiredRemoteIdentity] using hnot
  simp only [acceptInboundReplayState, if_neg hcounter, if_pos htype, hsyn, hnonzero, hretired]
  rcases hstate with ⟨hremote, hlast⟩ | ⟨identity, hremote, hne, hreplace⟩
  · simp [hremote, acceptCounter, hlast]
  · simp [hremote, sameRemoteIdentity, hne, hreplace]

/-- What a slot makes of a handshake that passes, as its caller sees it. -/
theorem PeerSlot.handleInbound_isSome (S : Setup) (env : Env) (i : Nat) (slot : PeerSlot)
    (sink : Bool) (htype : isHandshakeMessage packet.msg_type = true)
    (hready : packet.msg_type = .kSyn ∨ slot.local_session_id ≠ 0)
    (hverify : verifyPacketMac S.hmac (serializePacket packet) slot.hmac_key none = true)
    (haccept : ∀ before : PeerSlot, SameReplay slot before → before.state = slot.state →
      ∃ slot', before.acceptInboundReplayState packet = (true, slot')) :
    (slot.handleInbound S env i packet sink).1.isSome := by
  have hearly : ¬(packet.msg_type ≠ .kSyn ∧ isHandshakeMessage packet.msg_type ∧
      slot.local_session_id = 0) := by
    rintro ⟨hnot, -, hzero⟩
    exact hready.elim hnot fun hne => hne hzero
  rw [handleInbound, if_neg hearly]
  have hbefore : SameReplay slot
        (if packet.msg_type = .kSyn then slot.ensureLocalSession env i else slot) ∧
      (if packet.msg_type = .kSyn then slot.ensureLocalSession env i else slot).state =
        slot.state := by
    split_ifs
    · refine ⟨(slot.quiet_ensureLocalSession S env i).same, ?_⟩
      rw [ensureLocalSession]
      split_ifs <;> rfl
    · exact ⟨.refl slot, rfl⟩
  dsimp only
  generalize (if packet.msg_type = .kSyn then slot.ensureLocalSession env i else slot) = before
    at hbefore ⊢
  obtain ⟨hsame, hstate⟩ := hbefore
  obtain ⟨slot', hslot'⟩ := haccept before hsame hstate
  have hverified : before.verifyInbound S packet = (true, before) := by
    simp [verifyInbound, htype, hsame.key, hverify]
  rw [hverified]
  simp [hslot']

/-- A handshake of the node's own that comes back to a slot as excluded above is accepted. -/
theorem noHandshakeReturns_of_rejectsReflections (hsafe : ReflectionSafe S own keys h)
    (hrejects : RejectsReflections S h call) : NoHandshakeReturns S h call := by
  intro packet addr sink haction hreflected htype k slot hroute hslot hverify
  have hslotSafe := hsafe.slots k slot hslot
  obtain ⟨x, hx, rfl⟩ := id hreflected
  obtain ⟨key, -, sid, -, hsid, hown, hcounter⟩ := hsafe.sent x hx
  -- The packet is not accepted, so some condition for accepting it fails.
  by_contra hstate
  have hready : x.packet.msg_type = .kSyn ∨ slot.local_session_id ≠ 0 := by
    by_contra hnot
    push Not at hnot
    exact hstate ⟨hnot.1, fun hne => absurd hnot.2 hne⟩
  obtain ⟨a, ha⟩ := getElem?_route call.env addr hslot
  have haccept : ∀ before : PeerSlot, SameReplay { slot with resolved_addr := a } before →
      before.state = slot.state →
      ∃ slot', before.acceptInboundReplayState x.packet = (true, slot') := by
    intro before hsame hsameState
    have hremote : before.remote_identity = slot.remote_identity := hsame.remote
    have hlast : before.last_inbound_counter = slot.last_inbound_counter := hsame.last
    have hretired : before.retired_remote_identities = slot.retired_remote_identities :=
      hsame.retired
    refine PeerSlot.exists_accept hcounter htype (hown.decode htype) ?_ ?_ ?_
    · simp [PeerSlot.hasNonZeroSynIdentity, hsid, S.local_peer_id_ne_zero]
    · rw [hretired]
      exact fun hmem => hslotSafe.retired _ hmem rfl
    · rw [hremote, hlast, hsameState]
      cases hidentity : slot.remote_identity with
      | none =>
        have hboth := hslotSafe.both
        rw [hidentity] at hboth
        exact .inl ⟨rfl, Option.isSome_eq_false_iff.mp hboth.symm |> Option.isNone_iff_eq_none.mp⟩
      | some identity =>
        refine .inr ⟨identity, rfl, ?_, ?_⟩
        · rintro rfl
          exact (hslotSafe.remote _ hidentity).1 rfl
        · by_contra hnot
          push Not at hnot
          exact hstate ⟨hnot.1, fun _ => ⟨by rw [hidentity]; rfl, hnot.2⟩⟩
  have hsome := PeerSlot.handleInbound_isSome S call.env k { slot with resolved_addr := a } sink
    htype hready hverify haccept
  rw [← handleInbound_fst hroute ha] at hsome
  obtain ⟨peer, hpeer⟩ := Option.isSome_iff_exists.mp hsome
  have haccepted := congrArg List.length (hrejects.rejected x.packet addr sink haction hreflected)
  rw [step, haction] at haccepted
  simp [hpeer] at haccepted

end Steps

/-! ## Runs -/

theorem reflectionSafe_init (S : Setup) (own : Set UInt64) (now : Int) (keys : List HmacKey) :
    ReflectionSafe S own keys (init S now keys) where
  slots := by
    intro k slot hk
    rw [init, List.getElem?_map] at hk
    obtain ⟨key, hkey, rfl⟩ := Option.map_eq_some_iff.mp hk
    exact
      { key := List.mem_of_getElem? hkey
        counter := (by decide : (1 : UInt32) ≠ 0)
        session := fun hne => absurd rfl hne
        both := rfl
        remote := by simp [PeerSlot.init]
        retired := by simp [PeerSlot.init] }
  sent := by simp [init]

/-- **Reflected traffic.**  Along a run, packets of the node's own are rejected when they come back
and no slot takes the node for its remote end, exactly if no step is one in which a handshake comes
back to a slot that takes it. -/
theorem reflections_rejected_iff (S : Setup) (now : Int) (keys : List HmacKey) (calls : List Call)
    (own : Set UInt64) (signed : HmacKey → Set (List UInt8))
    (hmac : Unforgeable S.hmac { key | key ∈ keys } signed (delivered calls))
    (hhonest : Along (step S) (Honest S own) (init S now keys) calls) :
    Along (step S) (RejectsReflections S) (init S now keys) calls ↔
      Along (step S) (NoHandshakeReturns S) (init S now keys) calls := by
  have hdelivers : Along (step S) (fun _ call => call.Delivers (delivered calls))
      (init S now keys) calls :=
    .of_forall fun _ _ hcall _ _ _ haction => mem_delivered hcall haction
  refine along_iff (fun h call => Honest S own h call ∧ call.Delivers (delivered calls))
    (ReflectionSafe S own keys) ?_ ?_ (reflectionSafe_init S own now keys) (hhonest.and hdelivers)
  · rintro h call hsafe ⟨hhon, hdel⟩
    exact ⟨noHandshakeReturns_of_rejectsReflections hsafe,
      rejectsReflections_of_noHandshakeReturns hmac hdel hsafe hhon⟩
  · rintro h call hsafe ⟨hhon, hdel⟩ hcond
    exact hsafe.step hmac hdel hhon hcond

/-! ## The node of the example -/

instance (h : History) (packet : Packet) : Decidable (Reflected h packet) :=
  inferInstanceAs (Decidable (∃ x ∈ h.sent, x.packet = packet))

/-- A handshake message the node of the example sends. -/
def demoOwnHandshake (type : MessageType) (counter : UInt32) : Packet :=
  attachPacketMac frontHmac
    { makePacket type counter with
      payload := encodeSynPayload { session_id := 77, peer_id := 5 } } (.zero 32) none

/-- A keepalive the node of the example sends. -/
def demoOwnKeepalive (counter : UInt32) : Packet := demoKeepalive 77 counter

def demoTick (now : Int) : Call where
  env := demoEnv now
  action := .tick

theorem honest_demoInbound
    (hpacket : Reflected h packet ∨
      ∀ syn, decodeSynPayload packet.payload = some syn → syn.peer_id ≠ 5 ∧ syn.session_id ≠ 77) :
    Honest demoSetup {77} h (demoInbound now packet) where
  fresh := fun _ => rfl
  foreign := by
    intro packet' addr sink haction hforeign _ _ _ _ syn hsyn
    cases haction
    exact hpacket.resolve_left hforeign syn hsyn

theorem honest_demoTick : Honest demoSetup {77} h (demoTick now) where
  fresh := fun _ => rfl
  foreign := by
    intro packet' addr sink haction
    cases haction

theorem noHandshakeReturns_demoTick : NoHandshakeReturns demoSetup h (demoTick now) := by
  intro packet addr sink haction
  cases haction

/-- The node connects, the peer answers with a SYN of its own, and then the node's SYNACK and its
keepalive come back. -/
def demoReturns : List Call :=
  [demoTick 0, demoInbound 1 (demoSyn 7 1), demoInbound 2 (demoOwnHandshake .kSynAck 2),
    demoTick 6000, demoInbound 6001 (demoOwnKeepalive 3)]

theorem reflections_rejected_synAck :
    Along (step demoSetup) (RejectsReflections demoSetup)
      (init demoSetup 0 [.zero 32]) demoReturns := by
  refine (reflections_rejected_iff demoSetup 0 [.zero 32] demoReturns {77}
    (verifiedData frontHmac (delivered demoReturns)) ?_ ?_).mpr ?_
  · exact unforgeable_frontHmac (by decide +kernel) _
  · refine ⟨honest_demoTick, honest_demoInbound (.inr ?_), honest_demoInbound (.inl ?_),
      honest_demoTick, honest_demoInbound (.inl ?_), trivial⟩
    · intro syn hsyn
      have hdecode : decodeSynPayload (demoSyn 7 1).payload =
          some { session_id := 7, peer_id := 9 } := decodeSynPayload_encodeSynPayload rfl
      rw [hdecode] at hsyn
      obtain rfl := Option.some.inj hsyn
      decide
    · decide +kernel
    · decide +kernel
  · refine ⟨noHandshakeReturns_demoTick, ?_, ?_, noHandshakeReturns_demoTick, ?_, trivial⟩
    · rintro _ _ _ ⟨⟩ hreflected
      exact absurd hreflected (by decide +kernel)
    · rintro _ _ _ ⟨⟩ - - k slot - hslot -
      have hall : ∀ slot ∈ (step demoSetup (step demoSetup
          (init demoSetup 0 [.zero 32]) (demoTick 0)) (demoInbound 1 (demoSyn 7 1))).slots,
          slot.remote_identity.isSome ∧ slot.state ≠ .kConnecting := by
        decide +kernel
      exact ⟨by decide, fun _ => hall slot (List.mem_of_getElem? hslot)⟩
    · rintro _ _ _ ⟨⟩ - htype
      cases htype

/-- **A node that connects to itself.**  The node sends a SYN, the SYN comes back from the address it
was sent to, and the node has a session with itself. -/
theorem reflected_syn_accepted :
    Reflected ((init demoSetup 0 [.zero 32]).after demoSetup [demoTick 0])
        (demoOwnHandshake .kSyn 1) ∧
      ((init demoSetup 0 [.zero 32]).after demoSetup
        [demoTick 0, demoInbound 1 (demoOwnHandshake .kSyn 1)]).accepted =
          [({ slot_index := 0, remote_session_id := 77,
              remote_peer_id := demoSetup.local_peer_id }, demoOwnHandshake .kSyn 1)] := by
  decide +kernel

end Qbit.Photon
