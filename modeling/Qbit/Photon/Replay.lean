import Qbit.Photon.Slots
import Qbit.Lib.Epochs
import Mathlib.Data.List.Induction

/-!
# A peer slot accepts no packet twice

The packets that arrive at a slot may be chosen, repeated and reordered by anybody.  With a MAC that
cannot be forged and session ids that are not shared, no packet is accepted twice, and within one
remote session the counters of the accepted packets grow.

The argument is that of a receiver with epochs (`Epochs.Receiver`): the epochs are the remote
identities, and the history of retired identities keeps a session from coming back.  A slot is such
a receiver (`Takes.accepts`) as long as the history is not full and the counters stay away from the
wrap.
-/

namespace Qbit.Photon

open Epochs PeerSlot

/-! ## What the MAC is trusted for -/

/-- The packets that arrive in a run. -/
def delivered (calls : List Call) : List Packet :=
  calls.filterMap fun call =>
    match call.action with
    | .handleInbound packet _ _ => some packet
    | _ => none

variable {packet : Packet} {session session' : Option UInt64} {slot slot' : PeerSlot}
  {counter : UInt32} {fresh : UInt64} {i : Nat} {sent : List Sent}
  {log : List (InboundPeerInfo × Packet)}

theorem mem_delivered {calls : List Call} {call : Call} {addr : Sockaddr} {sink : Bool}
    (hcall : call ∈ calls) (h : call.action = .handleInbound packet addr sink) :
    packet ∈ delivered calls := by
  refine List.mem_filterMap.mpr ⟨call, hcall, ?_⟩
  rw [h]

/-- The MAC cannot be forged: where it verifies under one of the keys, what it covers was signed with
that key, and it tells the signed strings apart. -/
structure Unforgeable (H : HmacFn) (keys : Set HmacKey) (signed : HmacKey → Set (List UInt8))
    (packets : List Packet) : Prop where
  authentic : ∀ packet ∈ packets, ∀ key ∈ keys, ∀ session,
    verifyPacketMac H (serializePacket packet) key session = true →
      sessionContext session ++ packet.signed ∈ signed key
  unambiguous : ∀ key ∈ keys, ∀ key' ∈ keys, ∀ data ∈ signed key, ∀ data' ∈ signed key',
    truncatedHmac H key data = truncatedHmac H key' data' → data = data'

theorem sessionContext_injective : Function.Injective sessionContext := by
  intro s s' h
  have hlen := congrArg List.length h
  rcases s with _ | sid
  · cases s' with
    | none => rfl
    | some id' => simp [sessionContext] at hlen
  cases s' with
  | none => simp [sessionContext] at hlen
  | some id' => rw [storeLE64_injective h]

/-- A packet verifies for one session only. -/
theorem Unforgeable.session_unique {H : HmacFn} {keys : Set HmacKey}
    {signed : HmacKey → Set (List UInt8)} {packets : List Packet}
    (h : Unforgeable H keys signed packets) (hmem : packet ∈ packets) {key key' : HmacKey}
    (hkey : key ∈ keys) (hkey' : key' ∈ keys)
    (hmac : verifyPacketMac H (serializePacket packet) key session = true)
    (hmac' : verifyPacketMac H (serializePacket packet) key' session' = true) :
    session = session' := by
  have hdata := h.unambiguous key hkey key' hkey' _ (h.authentic packet hmem key hkey session hmac) _
    (h.authentic packet hmem key' hkey' session' hmac') ?_
  · exact sessionContext_injective (List.append_cancel_right hdata)
  · rw [verifyPacketMac_serializePacket_iff.mp hmac, verifyPacketMac_serializePacket_iff.mp hmac']

/-- A handshake that names the identity was signed. -/
def Introduced (signed : Set (List UInt8)) (identity : RemoteIdentity) : Prop :=
  ∃ (packet : Packet) (syn : SynPayload), isHandshakeMessage packet.msg_type = true ∧ packet.signed ∈ signed ∧
    decodeSynPayload packet.payload = some syn ∧ syn.identity = identity

/-- Distinct identities that were introduced use distinct session ids. -/
def DistinctSessions (signed : Set (List UInt8)) : Prop :=
  ∀ a b, Introduced signed a → Introduced signed b → a.session_id = b.session_id → a = b

/-! ## A slot is a receiver with epochs -/

/-- The remote identity with the last counter, and the identities that were retired. -/
def PeerSlot.receiver (slot : PeerSlot) : Receiver RemoteIdentity Nat where
  current :=
    match slot.remote_identity, slot.last_inbound_counter with
    | some identity, some counter => some (identity, counter.toNat)
    | _, _ => none
  past := { identity | identity ∈ slot.retired_remote_identities }

/-- The fields about the remote end fit together. -/
structure PeerSlot.Tracked (slot : PeerSlot) : Prop where
  both : slot.remote_identity.isSome = slot.last_inbound_counter.isSome
  nonzero : ∀ identity, slot.remote_identity = some identity →
    identity.session_id ≠ 0 ∧ identity.peer_id ≠ 0
  count : slot.retired_remote_identities.length ≤ slot.stats.session_replacements

theorem SameReplay.tracked (h : SameReplay slot slot') (ht : slot.Tracked) : slot'.Tracked where
  both := by rw [h.remote, h.last, ht.both]
  nonzero := by
    rw [h.remote]
    exact ht.nonzero
  count := by
    rw [h.retired, h.replacements]
    exact ht.count

theorem SameReplay.receiver (h : SameReplay slot slot') :
    slot'.receiver = slot.receiver := by simp [PeerSlot.receiver, h.remote, h.last, h.retired]

/-- Retiring keeps all that was retired, as long as there is room. -/
theorem PeerSlot.mem_retireRemoteIdentity {old : RemoteIdentity} (ht : slot.Tracked)
    (hold : slot.remote_identity = some old)
    (hroom : slot.stats.session_replacements < kRetiredRemoteIdentityHistoryLimit) :
    { identity | identity ∈ slot.retireRemoteIdentity.retired_remote_identities } =
        insert old { identity | identity ∈ slot.retired_remote_identities } ∧
      slot.retireRemoteIdentity.retired_remote_identities.length ≤
        slot.retired_remote_identities.length + 1 := by
  obtain ⟨hsession, hpeer⟩ := ht.nonzero old hold
  have hnonzero : ¬((old.session_id = 0 || old.peer_id = 0) = true) := by
    simp [hsession, hpeer]
  have hlength : ¬(slot.retired_remote_identities.length ≥ kRetiredRemoteIdentityHistoryLimit) := by
    have := ht.count
    omega
  rw [retireRemoteIdentity, hold]
  dsimp only
  rw [if_neg hnonzero]
  by_cases hmem : slot.retired_remote_identities.contains old = true
  · rw [if_pos hmem]
    refine ⟨?_, Nat.le_succ _⟩
    rw [Set.insert_eq_of_mem]
    simpa using hmem
  · rw [if_neg hmem, if_neg hlength]
    refine ⟨?_, by simp⟩
    ext identity
    simp [or_comm]

/-- The counter that a slot remembers stays away from the wrap. -/
def PeerSlot.BelowWrap (slot : PeerSlot) : Prop :=
  ∀ last, slot.last_inbound_counter = some last → last.toNat < 2 ^ 32 - 1025

theorem PeerSlot.Counted.accepts {identity : RemoteIdentity}
    (h : PeerSlot.Counted counter identity slot slot') (ht : slot.Tracked) (hwrap : slot.BelowWrap)
    (hnew : slot.remote_identity = none → identity ∉ slot.retired_remote_identities) :
    Accepts slot.receiver identity counter.toNat slot'.receiver := by
  have hboth := ht.both
  rw [receiver, receiver, h.remote', h.last', h.retired']
  rcases h.remote with hremote | hremote
  · rw [hremote] at hboth ⊢
    exact .first (hnew hremote)
  obtain ⟨last, hlast⟩ : ∃ last, slot.last_inbound_counter = some last := by
    rw [← Option.isSome_iff_exists, ← hboth, hremote]
    rfl
  rw [hremote, hlast]
  exact .next (lt_of_isForwardInboundCounter (hwrap last hlast) (h.forward last hlast))

theorem PeerSlot.Replaced.accepts {identity : RemoteIdentity}
    (h : PeerSlot.Replaced counter identity slot slot') (ht : slot.Tracked)
    (hnew : identity ∉ slot.retired_remote_identities)
    (hroom : slot'.stats.session_replacements ≤ kRetiredRemoteIdentityHistoryLimit) :
    Accepts slot.receiver identity counter.toNat slot'.receiver := by
  obtain ⟨old, hold, hne, hretired⟩ := h.remote
  obtain ⟨last, hlast⟩ : ∃ last, slot.last_inbound_counter = some last := by
    rw [← Option.isSome_iff_exists, ← ht.both, hold]
    rfl
  have hpast := (mem_retireRemoteIdentity ht hold (by have := h.replacements'; omega)).1
  rw [receiver, receiver, h.remote', h.last', hretired, hpast, hold, hlast]
  exact .enter hne.symm hnew

theorem Takes.key_eq {S : Setup} (h : Takes S fresh i packet slot slot' sent) :
    slot'.hmac_key = slot.hmac_key := by
  obtain ⟨before, after, hready, hverified, haccept, hquiet⟩ := h
  obtain ⟨_, hentered⟩ := entered_of_accepted haccept hverified.remote
  rw [hquiet.same.key, hentered.key, hready.same.key]

theorem Takes.replacements_le {S : Setup} (h : Takes S fresh i packet slot slot' sent) :
    slot.stats.session_replacements ≤ slot'.stats.session_replacements := by
  obtain ⟨before, after, hready, hverified, haccept, hquiet⟩ := h
  obtain ⟨_, hentered⟩ := entered_of_accepted haccept hverified.remote
  rw [hquiet.same.replacements, ← hready.same.replacements]
  exact hentered.replacements

section Tracked

variable {identity : RemoteIdentity} (hnonzero : identity.session_id ≠ 0 ∧ identity.peer_id ≠ 0)

include hnonzero

theorem PeerSlot.Entered.tracked (h : PeerSlot.Entered counter identity slot slot')
    (hcount : slot'.retired_remote_identities.length ≤ slot'.stats.session_replacements) :
    slot'.Tracked where
  both := by rw [h.remote, h.last]; rfl
  nonzero := by
    intro other hother
    obtain rfl := Option.some.inj (h.remote.symm.trans hother)
    exact hnonzero
  count := hcount

theorem PeerSlot.Counted.tracked (h : PeerSlot.Counted counter identity slot slot')
    (ht : slot.Tracked) : slot'.Tracked := by
  refine h.entered.tracked hnonzero ?_
  rw [h.retired', h.replacements']
  exact ht.count

theorem PeerSlot.Replaced.tracked (h : PeerSlot.Replaced counter identity slot slot')
    (ht : slot.Tracked)
    (hroom : slot'.stats.session_replacements ≤ kRetiredRemoteIdentityHistoryLimit) :
    slot'.Tracked := by
  obtain ⟨old, hold, -, hretired⟩ := h.remote
  have hlen := (mem_retireRemoteIdentity ht hold (by have := h.replacements'; omega)).2
  have hcount := ht.count
  refine h.entered.tracked hnonzero ?_
  rw [hretired, h.replacements']
  omega

end Tracked

/-- **A slot that takes a packet is a receiver that accepts.**  The epoch is the identity a handshake
names, or the one the MAC of anything else was checked for. -/
theorem Takes.accepts {S : Setup} (h : Takes S fresh i packet slot slot' sent) (ht : slot.Tracked)
    (hwrap : slot.BelowWrap)
    (hroom : slot'.stats.session_replacements ≤ kRetiredRemoteIdentityHistoryLimit) :
    ∃ identity, slot'.remote_identity = some identity ∧ slot'.Tracked ∧
      Accepts slot.receiver identity packet.counter.toNat slot'.receiver ∧
      (isHandshakeMessage packet.msg_type = true ∧
          verifyPacketMac S.hmac (serializePacket packet) slot.hmac_key none = true ∧
          (∃ syn, decodeSynPayload packet.payload = some syn ∧ syn.identity = identity) ∨
        isHandshakeMessage packet.msg_type = false ∧
          verifyPacketMac S.hmac (serializePacket packet) slot.hmac_key
            (some identity.session_id) = true ∧
          slot.remote_identity = some identity) := by
  obtain ⟨before, after, hready, hverified, haccept, hquiet⟩ := h
  have htb : before.Tracked := hready.same.tracked ht
  have hwb : before.BelowWrap := by
    rw [PeerSlot.BelowWrap, hready.same.last]
    exact hwrap
  have hra : after.stats.session_replacements ≤ kRetiredRemoteIdentityHistoryLimit := by
    rw [← hquiet.same.replacements]
    exact hroom
  have hmac := hverified.mac
  rw [hready.same.key] at hmac
  rw [← hready.same.receiver, hquiet.same.receiver, hquiet.same.remote]
  rcases accept_cases haccept hverified.remote with
    ⟨syn, htype, hsyn, hnonzero, hnot, hcounted | ⟨-, hreplaced⟩⟩ | ⟨identity, htype, hremote, hcounted⟩
  · rw [macSession, if_pos htype] at hmac
    have hne : syn.session_id ≠ 0 ∧ syn.peer_id ≠ 0 := by
      simpa [hasNonZeroSynIdentity] using hnonzero
    exact ⟨syn.identity, hcounted.remote', hquiet.same.tracked (hcounted.tracked hne htb),
      hcounted.accepts htb hwb fun _ => hnot, .inl ⟨htype, hmac, syn, hsyn, rfl⟩⟩
  · rw [macSession, if_pos htype] at hmac
    have hne : syn.session_id ≠ 0 ∧ syn.peer_id ≠ 0 := by
      simpa [hasNonZeroSynIdentity] using hnonzero
    exact ⟨syn.identity, hreplaced.remote', hquiet.same.tracked (hreplaced.tracked hne htb hra),
      hreplaced.accepts htb hnot hra, .inl ⟨htype, hmac, syn, hsyn, rfl⟩⟩
  · rw [macSession, htype, hremote] at hmac
    refine ⟨identity, hcounted.remote',
      hquiet.same.tracked (hcounted.tracked (htb.nonzero identity hremote) htb),
      hcounted.accepts htb hwb fun hnone => ?_,
      .inr ⟨htype, hmac, by rw [← hready.same.remote, hremote]⟩⟩
    cases hremote.symm.trans hnone

/-! ## Runs -/

/-- The identity the peer of an accepted packet had. -/
def InboundPeerInfo.identity (peer : InboundPeerInfo) : RemoteIdentity where
  session_id := peer.remote_session_id
  peer_id := peer.remote_peer_id

/-- An accepted packet with its epoch and its number. -/
def epochEntry (a : InboundPeerInfo × Packet) : RemoteIdentity × Nat :=
  (a.1.identity, a.2.counter.toNat)

/-- What an accepted packet is known to have passed. -/
structure Genuine (S : Setup) (key : HmacKey) (signed : Set (List UInt8)) (packets : List Packet)
    (a : InboundPeerInfo × Packet) : Prop where
  delivered : a.2 ∈ packets
  introduced : Introduced signed a.1.identity
  handshake : isHandshakeMessage a.2.msg_type = true →
    ∃ syn, decodeSynPayload a.2.payload = some syn ∧ syn.identity = a.1.identity
  session : isHandshakeMessage a.2.msg_type = false →
    verifyPacketMac S.hmac (serializePacket a.2) key (some a.1.remote_session_id) = true

/-- A slot with the packets that it accepted. -/
structure ReplaySafe (S : Setup) (key : HmacKey) (signed : Set (List UInt8))
    (packets : List Packet) (slot : PeerSlot) (log : List (InboundPeerInfo × Packet)) : Prop where
  key_eq : slot.hmac_key = key
  tracked : slot.Tracked
  records : slot.receiver.Records (log.map epochEntry)
  introduced : ∀ identity, slot.remote_identity = some identity → Introduced signed identity
  last : ∀ last, slot.last_inbound_counter = some last → ∃ a ∈ log, a.2.counter = last
  genuine : ∀ a ∈ log, Genuine S key signed packets a

variable {S : Setup} {key : HmacKey} {signed : HmacKey → Set (List UInt8)} {packets : List Packet}

theorem ReplaySafe.quiet (h : ReplaySafe S key (signed key) packets slot log)
    (hquiet : Quiet S fresh i slot slot' sent) :
    ReplaySafe S key (signed key) packets slot' log where
  key_eq := hquiet.same.key.trans h.key_eq
  tracked := hquiet.same.tracked h.tracked
  records := by
    rw [hquiet.same.receiver]
    exact h.records
  introduced := by
    rw [hquiet.same.remote]
    exact h.introduced
  last := by
    rw [hquiet.same.last]
    exact h.last
  genuine := h.genuine

/-- The slot takes a packet: it is one more item of its receiver. -/
theorem ReplaySafe.takes (hmac : Unforgeable S.hmac {key} signed packets)
    (h : ReplaySafe S key (signed key) packets slot log)
    (htakes : Takes S fresh i packet slot slot' sent) (hmem : packet ∈ packets)
    (hwrap : ∀ a ∈ log, a.2.counter.toNat < 2 ^ 32 - 1025)
    (hroom : slot'.stats.session_replacements ≤ kRetiredRemoteIdentityHistoryLimit) :
    ReplaySafe S key (signed key) packets slot'
      (log ++ [(slot'.inboundPeerInfo i, packet)]) := by
  obtain ⟨_, hremote', hlast', hinfo⟩ := htakes.inboundPeerInfo
  have hkey' : slot'.hmac_key = key := htakes.key_eq.trans h.key_eq
  have hbelow : slot.BelowWrap := by
    intro last hlast
    obtain ⟨a, ha, rfl⟩ := h.last last hlast
    exact hwrap a ha
  obtain ⟨identity, hremote, htracked, haccepts, hpassed⟩ := htakes.accepts h.tracked hbelow hroom
  obtain rfl := Option.some.inj (hremote.symm.trans hremote')
  have hidentity : (slot'.inboundPeerInfo i).identity = identity := by rw [hinfo]; rfl
  rw [h.key_eq] at hpassed
  have hintroduced : Introduced (signed key) identity := by
    rcases hpassed with ⟨htype, hverify, syn, hsyn, rfl⟩ | ⟨-, -, hold⟩
    · exact ⟨packet, syn, htype, hmac.authentic packet hmem key rfl none hverify, hsyn, rfl⟩
    · exact h.introduced identity hold
  refine ⟨hkey', htracked, ?_, ?_, ?_, ?_⟩
  · rw [List.map_append, List.map_singleton, epochEntry, hidentity]
    exact h.records.accept haccepts
  · intro other hother
    obtain rfl := Option.some.inj (hremote.symm.trans hother)
    exact hintroduced
  · intro last hlast
    obtain rfl := Option.some.inj (hlast'.symm.trans hlast)
    simp
  · intro a ha
    rcases List.mem_append.mp ha with ha | ha
    · exact h.genuine a ha
    obtain rfl := List.mem_singleton.mp ha
    refine ⟨hmem, hidentity ▸ hintroduced, fun htype => ?_, fun htype => ?_⟩
    · rcases hpassed with ⟨-, -, syn, hsyn, heq⟩ | ⟨htype', -⟩
      · exact ⟨syn, hsyn, heq.trans hidentity.symm⟩
      · cases htype.symm.trans htype'
    · rcases hpassed with ⟨htype', -⟩ | ⟨-, hverify, -⟩
      · cases htype'.symm.trans htype
      · rw [← hidentity] at hverify
        exact hverify

theorem replaySafe_init {config : PeerManagerConfig} {now : Int} :
    ReplaySafe S key (signed key) packets (init config now key) [] where
  key_eq := rfl
  tracked := ⟨rfl, by simp [init], Nat.le_refl 0⟩
  records := .init
  introduced := by simp [init]
  last := by simp [init]
  genuine := by simp

namespace History

theorem after_append (S : Setup) (h : History) (calls : List Call) (call : Call) :
    h.after S (calls ++ [call]) = (h.after S calls).step S call := by simp [after]

theorem exists_slot_after (S : Setup) {h : History} {k : Nat} (hk : h.slots[k]? = some slot)
    (calls : List Call) :
    ∃ slot', (h.after S calls).slots[k]? = some slot' := by
  induction calls using List.reverseRecOn with
  | nil => exact ⟨slot, hk⟩
  | append_singleton calls call ih =>
    obtain ⟨slot', hslot'⟩ := ih
    obtain ⟨slot'', -, hslot'', -⟩ := step_slot S (h.after S calls) call hslot'
    rw [after_append]
    exact ⟨slot'', hslot''⟩

/-- The invariant of a run, by induction on the calls.  The bounds are about the end of the run, and
hold all the way because replacements and accepted packets only become more. -/
theorem replaySafe_after {now : Int} {keys : List HmacKey} {k : Nat} {calls : List Call}
    (hkey : keys[k]? = some key) (hmac : Unforgeable S.hmac {key} signed packets)
    (hpackets : ∀ packet ∈ delivered calls, packet ∈ packets)
    (hwrap : ∀ a ∈ ((init S now keys).after S calls).acceptedAt k,
      a.2.counter.toNat < 2 ^ 32 - 1025)
    (hslot : ((init S now keys).after S calls).slots[k]? = some slot)
    (hroom : slot.stats.session_replacements ≤ kRetiredRemoteIdentityHistoryLimit) :
    ReplaySafe S key (signed key) packets slot
      (((init S now keys).after S calls).acceptedAt k) := by
  have hinit : (init S now keys).slots[k]? = some (PeerSlot.init S.config now key) := by
    simp [init, hkey]
  induction calls using List.reverseRecOn generalizing slot with
  | nil =>
    obtain rfl := Option.some.inj (hinit.symm.trans hslot)
    exact replaySafe_init
  | append_singleton calls call ih =>
    obtain ⟨before, hbefore⟩ := exists_slot_after S hinit calls
    obtain ⟨slot', sent, hslot', hcases⟩ :=
      step_slot S ((init S now keys).after S calls) call hbefore
    rw [after_append] at hslot hwrap ⊢
    obtain rfl := Option.some.inj (hslot'.symm.trans hslot)
    have hpackets' : ∀ packet ∈ delivered calls, packet ∈ packets := by
      intro packet hmem
      refine hpackets packet ?_
      rw [delivered, List.filterMap_append]
      exact List.mem_append_left _ hmem
    rcases hcases with ⟨hquiet, haccepted⟩ | ⟨packet, addr, sink, haction, -, htakes, haccepted⟩
    · rw [haccepted] at hwrap ⊢
      refine (ih hpackets' hwrap hbefore ?_).quiet hquiet
      rw [← hquiet.same.replacements]
      exact hroom
    rw [haccepted] at hwrap ⊢
    have hwrap' : ∀ a ∈ ((init S now keys).after S calls).acceptedAt k,
        a.2.counter.toNat < 2 ^ 32 - 1025 :=
      fun a ha => hwrap a (List.mem_append_left _ ha)
    refine (ih hpackets' hwrap' hbefore (htakes.replacements_le.trans hroom)).takes hmac htakes
      (hpackets packet ?_) hwrap' hroom
    exact mem_delivered (List.mem_append_right _ (List.mem_singleton_self call)) haction

end History

/-- Two accepted packets that are the same packet belong to the same session. -/
theorem Genuine.identity_eq {a b : InboundPeerInfo × Packet}
    (hmac : Unforgeable S.hmac {key} signed packets) (hids : DistinctSessions (signed key))
    (ha : Genuine S key (signed key) packets a) (hb : Genuine S key (signed key) packets b)
    (heq : a.2 = b.2) : a.1.identity = b.1.identity := by
  cases htype : isHandshakeMessage a.2.msg_type with
  | true =>
    obtain ⟨syn, hsyn, hid⟩ := ha.handshake htype
    obtain ⟨syn', hsyn', hid'⟩ := hb.handshake (heq ▸ htype)
    rw [heq, hsyn'] at hsyn
    obtain rfl := Option.some.inj hsyn
    exact hid.symm.trans hid'
  | false =>
    have hsession := hmac.session_unique ha.delivered (Set.mem_singleton key)
      (Set.mem_singleton key) (ha.session htype) (heq ▸ hb.session (heq ▸ htype))
    exact hids _ _ ha.introduced hb.introduced (Option.some.inj hsession)

/-- **Replay safety.**  Whatever arrives at a slot, no packet is accepted twice, and within one
remote session the counters of the accepted packets grow. -/
theorem accepts_no_packet_twice (S : Setup) (now : Int) (keys : List HmacKey) (calls : List Call)
    (k : Nat) (key : HmacKey) (signed : HmacKey → Set (List UInt8)) (hkey : keys[k]? = some key)
    (hmac : Unforgeable S.hmac {key} signed (delivered calls))
    (hids : DistinctSessions (signed key))
    (hwrap : ∀ a ∈ ((History.init S now keys).after S calls).acceptedAt k,
      a.2.counter.toNat < 2 ^ 32 - 1025)
    (hroom : ∀ slot, ((History.init S now keys).after S calls).slots[k]? = some slot →
      slot.stats.session_replacements ≤ kRetiredRemoteIdentityHistoryLimit) :
    ((((History.init S now keys).after S calls).acceptedAt k).map
        fun a => (serializePacket a.2).1).Nodup ∧
      (((History.init S now keys).after S calls).acceptedAt k).Pairwise fun a b =>
        a.1.remote_session_id = b.1.remote_session_id → a.2.counter < b.2.counter := by
  have hinit : (History.init S now keys).slots[k]? = some (init S.config now key) := by
    rw [History.init, List.getElem?_map, hkey, Option.map_some]
  obtain ⟨slot, hslot⟩ := History.exists_slot_after S hinit calls
  have hsafe := History.replaySafe_after hkey hmac (fun _ hmem => hmem) hwrap hslot
    (hroom slot hslot)
  have hordered := List.pairwise_map.mp hsafe.records.ordered
  refine ⟨?_, ?_⟩
  · rw [List.Nodup, List.pairwise_map]
    refine hordered.imp_of_mem fun {a b} ha hb hlt hbytes => ?_
    have heq : a.2 = b.2 := serializePacket_injective (Subtype.ext hbytes)
    have hcounter := hlt ((hsafe.genuine a ha).identity_eq hmac hids (hsafe.genuine b hb) heq)
    rw [epochEntry, epochEntry, heq] at hcounter
    exact lt_irrefl _ hcounter
  · refine hordered.imp_of_mem fun {a b} ha hb hlt hsession => ?_
    have hid : a.1.identity = b.1.identity :=
      hids _ _ (hsafe.genuine a ha).introduced (hsafe.genuine b hb).introduced hsession
    exact hlt hid

/-! ## A run with a restart of the peer -/

/-- A stand-in for HMAC that can be computed by hand: the front of the data. -/
def frontHmac : HmacFn := fun _ data =>
  ⟨(data ++ List.replicate 32 0).take 32, by simp⟩

/-- The packets of a set are told apart by their MACs, and none looks as if it began with a session
id. -/
def FrontDistinct (packets : List Packet) : Prop :=
  (∀ p ∈ packets, ∀ q ∈ packets, p.mac = q.mac → p = q) ∧
    ∀ p ∈ packets, (p.signed.drop 8).take 8 ≠ p.signed.take 8

instance (packets : List Packet) : Decidable (FrontDistinct packets) :=
  inferInstanceAs (Decidable (_ ∧ _))

/-- What verifies under a key is what was signed with it. -/
def verifiedData (H : HmacFn) (packets : List Packet) (key : HmacKey) : Set (List UInt8) :=
  { data | ∃ packet ∈ packets, ∃ session,
    verifyPacketMac H (serializePacket packet) key session = true ∧
      data = sessionContext session ++ packet.signed }

theorem truncatedHmac_frontHmac (key : HmacKey) (session : Option UInt64) (packet : Packet) :
    (truncatedHmac frontHmac key (sessionContext session ++ packet.signed)).1 =
      (sessionContext session ++ packet.signed).take kMacSize := by
  have hlen : kMacSize ≤ (sessionContext session ++ packet.signed).length := by
    rw [List.length_append, packet.length_signed, kMacSize]
    omega
  have hdef : (truncatedHmac frontHmac key (sessionContext session ++ packet.signed)).1 =
      ((sessionContext session ++ packet.signed ++ List.replicate 32 0).take 32).take kMacSize := rfl
  have hmin : min kMacSize 32 = kMacSize := rfl
  rw [hdef, List.take_take, hmin, List.take_append_of_le_length hlen]

/-- The front of a packet tells whether a session id goes before it, and which. -/
theorem session_eq_of_take_eq {data : List UInt8} (hlen : 16 ≤ data.length)
    (hdata : (data.drop 8).take 8 ≠ data.take 8)
    (h : (sessionContext session ++ data).take kMacSize =
      (sessionContext session' ++ data).take kMacSize) : session = session' := by
  have hfront : ∀ sid, (storeLE64 sid ++ data).take kMacSize = storeLE64 sid ++ data.take 8 := by
    intro sid
    rfl
  have hsplit : data.take kMacSize = data.take 8 ++ (data.drop 8).take 8 :=
    List.take_add (l := data) (i := 8) (j := 8)
  have hnone : ∀ sid, data.take kMacSize ≠ storeLE64 sid ++ data.take 8 := by
    intro sid heq
    rw [hsplit] at heq
    refine hdata (List.append_inj heq ?_).2
    rw [List.length_take, length_storeLE64]
    omega
  cases session with
  | none =>
    cases session' with
    | none => rfl
    | some id' =>
      exact absurd h (hnone id')
  | some sid =>
    cases session' with
    | none =>
      exact absurd h.symm (hnone sid)
    | some id' =>
      exact congrArg some (storeLE64_injective (List.append_cancel_right h))

theorem unforgeable_frontHmac (h : FrontDistinct packets) (keys : Set HmacKey) :
    Unforgeable frontHmac keys (verifiedData frontHmac packets) packets where
  authentic := fun packet hmem _ _ session hverify => ⟨packet, hmem, session, hverify, rfl⟩
  unambiguous := by
    rintro key - key' - _ ⟨p, hp, session, hverify, rfl⟩ _ ⟨q, hq, session', hverify', rfl⟩ htag
    have hmac := verifyPacketMac_serializePacket_iff.mp hverify
    have hmac' := verifyPacketMac_serializePacket_iff.mp hverify'
    obtain rfl := h.1 p hp q hq (by rw [← hmac, ← hmac', htag])
    have htake := congrArg Subtype.val htag
    rw [truncatedHmac_frontHmac, truncatedHmac_frontHmac] at htake
    rw [session_eq_of_take_eq (by rw [p.length_signed]; omega) (h.2 p hp) htake]

/-- A handshake that was signed looks like one of the packets. -/
theorem exists_of_introduced {H : HmacFn} {identity : RemoteIdentity}
    (h : Introduced (verifiedData H packets key) identity) :
    ∃ p ∈ packets, isHandshakeMessage p.msg_type = true ∧
      (decodeSynPayload p.payload).map SynPayload.identity = some identity := by
  obtain ⟨packet, syn, htype, ⟨p, hp, session, -, hdata⟩, hsyn, rfl⟩ := h
  have hsession : sessionContext session = [] := by
    have hlen := congrArg List.length hdata
    rw [List.length_append, packet.length_signed, p.length_signed] at hlen
    exact List.length_eq_zero_iff.mp (by omega)
  rw [hsession, List.nil_append] at hdata
  obtain ⟨-, -, htype', -, -, hpayload⟩ := Packet.mk.inj (Packet.setMac_eq_of_signed_eq hdata p.mac)
  refine ⟨p, hp, htype' ▸ htype, ?_⟩
  rw [← hpayload, hsyn, Option.map_some]

/-- A node with one peer; both ends use the key of zeros. -/
def demoSetup : Setup where
  hmac := frontHmac
  config := {}
  local_peer_id := 5
  local_peer_id_ne_zero := by decide

def demoAddr : Sockaddr := .inet 9000 ⟨[10, 0, 0, 1], rfl⟩ sizeofSockaddrIn

def demoEnv (now : Int) : Env where
  now := now
  resolve := fun _ => some demoAddr
  identity := fun _ => ⟨77, by decide⟩
  send := fun _ => true

/-- A handshake of the peer. -/
def demoSyn (session_id : UInt64) (counter : UInt32) : Packet :=
  attachPacketMac frontHmac
    { makePacket .kSyn counter with
      payload := encodeSynPayload { session_id := session_id, peer_id := 9 } } (.zero 32) none

/-- A keepalive of the peer. -/
def demoKeepalive (session_id : UInt64) (counter : UInt32) : Packet :=
  attachPacketMac frontHmac (makePacket .kKeepalive counter) (.zero 32) (some session_id)

def demoInbound (now : Int) (packet : Packet) : Call where
  env := demoEnv now
  action := .handleInbound packet demoAddr true

/-- The peer connects, sends a keepalive that arrives twice, and restarts with a new session; then
the packets of the old session arrive once more. -/
def demoRestart : List Call :=
  [{ env := demoEnv 0, action := .tick },
    demoInbound 1 (demoSyn 7 1), demoInbound 2 (demoKeepalive 7 2), demoInbound 3 (demoKeepalive 7 2),
    demoInbound 4 (demoSyn 8 1), demoInbound 5 (demoSyn 7 1), demoInbound 6 (demoKeepalive 7 2),
    demoInbound 7 (demoKeepalive 8 2)]

theorem accepts_no_packet_twice_restart :
    (((History.init demoSetup 0 [.zero 32]).after demoSetup demoRestart).acceptedAt 0).length = 4 ∧
      ((((History.init demoSetup 0 [.zero 32]).after demoSetup demoRestart).acceptedAt 0).map
        fun a => (serializePacket a.2).1).Nodup := by
  have hids : DistinctSessions (verifiedData frontHmac (delivered demoRestart) (.zero 32)) := by
    have hall : ∀ p ∈ delivered demoRestart, ∀ q ∈ delivered demoRestart,
        ((decodeSynPayload p.payload).map SynPayload.identity).map RemoteIdentity.session_id =
          ((decodeSynPayload q.payload).map SynPayload.identity).map RemoteIdentity.session_id →
        (decodeSynPayload p.payload).map SynPayload.identity =
          (decodeSynPayload q.payload).map SynPayload.identity := by
      decide +kernel
    intro a b ha hb hsession
    obtain ⟨p, hp, -, hpa⟩ := exists_of_introduced ha
    obtain ⟨q, hq, -, hqb⟩ := exists_of_introduced hb
    have hpq := hall p hp q hq (by rw [hpa, hqb, Option.map_some, Option.map_some, hsession])
    exact Option.some.inj (hpa.symm.trans (hpq.trans hqb))
  have hreplaced : ((History.init demoSetup 0 [.zero 32]).after demoSetup demoRestart).slots[0]?.map
      (·.stats.session_replacements) = some 1 := by
    decide +kernel
  refine ⟨by decide +kernel, (accepts_no_packet_twice demoSetup 0 [.zero 32] demoRestart 0 (.zero 32)
    (verifiedData frontHmac (delivered demoRestart)) rfl ?_ hids ?_ ?_).1⟩
  · exact unforgeable_frontHmac (by decide +kernel) _
  · decide +kernel
  · intro slot hslot
    rw [hslot, Option.map_some] at hreplaced
    rw [Option.some.inj hreplaced]
    decide

end Qbit.Photon
