import Qbit.Photon.Protocol

/-!
# The Photon peer manager

`contrib/photon/src/peer_manager.cpp`: one slot for each configured peer, with the state of the
handshake, the counters in both directions and the history of remote sessions.

* What a call reads from outside (the clock, the resolver, fresh identities, whether the socket
  takes a packet) is an `Env`.
* A `Call` is anything the owner of a peer manager does to it, and `History.after` runs calls one
  after another and keeps what was accepted and what was sent.

The pairs of a flag and a value of the source (`has_remote_identity`, `has_last_inbound_counter`,
`has_resolved_addr`) are options.
-/

namespace Qbit.Photon

/-! ## Addresses -/

/-- `sockaddr_storage` with its length, as far as it is looked at. -/
inductive Sockaddr where
  | inet (port : UInt16) (addr : ByteArr 4) (len : UInt32)
  | inet6 (port : UInt16) (addr : ByteArr 16) (scope_id : UInt32) (len : UInt32)
  | other (family : UInt16) (len : UInt32)
  deriving DecidableEq

/-- `sizeof(sockaddr_in)` -/
def sizeofSockaddrIn : UInt32 := 16

/-- `sizeof(sockaddr_in6)` -/
def sizeofSockaddrIn6 : UInt32 := 28

/-- `IN6_IS_ADDR_V4MAPPED` -/
def in6IsAddrV4Mapped (addr : ByteArr 16) : Bool :=
  addr.1.take 12 == List.replicate 10 0 ++ [0xff, 0xff]

/-- `ExtractIpv4Endpoint` -/
def extractIpv4Endpoint : Sockaddr → Option (List UInt8 × UInt16)
  | .inet port addr len => if len < sizeofSockaddrIn then none else some (addr.1, port)
  | .inet6 port addr _ len =>
    if len < sizeofSockaddrIn6 then none
    else if !in6IsAddrV4Mapped addr then none
    else some (addr.1.drop 12, port)
  | .other _ _ => none

/-- `SockaddrEquals` -/
def sockaddrEquals (left right : Sockaddr) : Bool :=
  match left, right with
  | .inet left_port left_addr left_len, .inet right_port right_addr right_len =>
    if left_len < sizeofSockaddrIn || right_len < sizeofSockaddrIn then false
    else left_port == right_port && left_addr == right_addr
  | .inet6 left_port left_addr left_scope left_len,
      .inet6 right_port right_addr right_scope right_len =>
    if left_len < sizeofSockaddrIn6 || right_len < sizeofSockaddrIn6 then false
    else left_port == right_port && left_scope == right_scope && left_addr == right_addr
  | left, right =>
    -- Different families, or one without addresses.
    match extractIpv4Endpoint left, extractIpv4Endpoint right with
    | some (left_v4, left_port), some (right_v4, right_port) =>
      left_port == right_port && left_v4 == right_v4
    | _, _ => false

/-! ## Slots -/

inductive PeerState where
  | kDisconnected
  | kConnecting
  | kActive
  | kStale
  deriving DecidableEq, Repr

def kRetiredRemoteIdentityHistoryLimit : Nat := 1024

/-- A session id with a peer id: the identity of a remote end, current or retired. -/
structure RemoteIdentity where
  session_id : UInt64
  peer_id : UInt64
  deriving DecidableEq, Repr

/-- The identity a handshake claims. -/
def SynPayload.identity (syn : SynPayload) : RemoteIdentity :=
  { session_id := syn.session_id, peer_id := syn.peer_id }

structure PeerStats where
  syn_sent : Nat := 0
  syn_received : Nat := 0
  synack_sent : Nat := 0
  synack_received : Nat := 0
  keepalive_sent : Nat := 0
  keepalive_received : Nat := 0
  pong_received : Nat := 0
  disconnect_received : Nat := 0
  packets_sent : Nat := 0
  packets_received : Nat := 0
  mac_failures : Nat := 0
  replay_rejects : Nat := 0
  session_replacements : Nat := 0
  session_replacement_rejects : Nat := 0
  resolve_failures : Nat := 0
  deriving DecidableEq, Repr

/-- Times and durations in milliseconds. -/
structure PeerManagerConfig where
  connect_timeout : Int := 5000
  keepalive_interval : Int := 5000
  stale_timeout : Int := 15000
  initial_backoff : Int := 1000
  max_backoff : Int := 60000
  deriving DecidableEq, Repr

structure PeerSlot where
  hmac_key : HmacKey
  state : PeerState := .kDisconnected
  stats : PeerStats := {}
  resolved_addr : Option Sockaddr := none
  next_counter : UInt32 := 1
  local_session_id : UInt64 := 0
  last_inbound_counter : Option UInt32 := none
  require_next_inbound_counter_after_reset : Bool := false
  remote_identity : Option RemoteIdentity := none
  retired_remote_identities : List RemoteIdentity := []
  reconnect_backoff : Int := 1000
  state_since : Int := 0
  last_packet_received : Int := 0
  last_syn_sent : Int := 0
  last_keepalive_sent : Int := 0
  next_connect_attempt : Int := 0
  deriving DecidableEq

/-- What stays as it is while a peer manager runs, with the HMAC it uses. -/
structure Setup where
  hmac : HmacFn
  config : PeerManagerConfig
  local_peer_id : UInt64
  local_peer_id_ne_zero : local_peer_id ≠ 0

/-- The answers one call gets from outside, for each slot where they are asked for a slot. -/
structure Env where
  now : Int
  resolve : Nat → Option Sockaddr
  identity : Nat → { id : UInt64 // id ≠ 0 }
  send : Nat → Bool

/-- A packet handed to the socket for a slot. -/
structure Sent where
  slot_index : Nat
  packet : Packet
  addr : Sockaddr
  deriving DecidableEq

structure ActivePeerInfo where
  slot_index : Nat
  addr : Sockaddr
  hmac_key : HmacKey
  local_session_id : UInt64

structure InboundPeerInfo where
  slot_index : Nat := 0
  remote_session_id : UInt64 := 0
  remote_peer_id : UInt64 := 0
  deriving DecidableEq, Repr

/-- The constructor's correction of the configured backoff. -/
def PeerManagerConfig.normalize (config : PeerManagerConfig) : PeerManagerConfig :=
  let initial_backoff := if config.initial_backoff ≤ 0 then 1000 else config.initial_backoff
  { config with
    initial_backoff := initial_backoff
    max_backoff := if config.max_backoff < initial_backoff then initial_backoff
      else config.max_backoff }

/-- The slot the constructor makes for a peer. -/
def PeerSlot.init (config : PeerManagerConfig) (now : Int) (hmac_key : HmacKey) : PeerSlot where
  hmac_key := hmac_key
  reconnect_backoff := config.initial_backoff
  state_since := now
  last_packet_received := now
  last_syn_sent := now
  last_keepalive_sent := now
  next_connect_attempt := now

/-! ## Inbound counters -/

/-- `NextInboundCounter` -/
def nextInboundCounter (counter : UInt32) : UInt32 :=
  if counter = 0xffffffff then 1 else counter + 1

def kMaxAcceptedInboundWrapGap : Nat := 1024

/-- `IsForwardInboundCounter` -/
def isForwardInboundCounter (previous current : UInt32) : Bool :=
  if current = previous then false
  else if previous < current then true
  else (0xffffffff - previous.toNat) + current.toNat ≤ kMaxAcceptedInboundWrapGap

/-- Far enough from the wrap, forward means greater. -/
theorem lt_of_isForwardInboundCounter {previous current : UInt32}
    (hprev : previous.toNat < 2 ^ 32 - 1025)
    (h : isForwardInboundCounter previous current = true) : previous.toNat < current.toNat := by
  rw [isForwardInboundCounter] at h
  split_ifs at h with heq hlt
  · exact hlt
  · have hgap := of_decide_eq_true h
    rw [kMaxAcceptedInboundWrapGap] at hgap
    omega

/-! ## Transitions of a slot -/

/-- `DoubleBackoff` -/
def doubleBackoff (current maximum : Int) : Int :=
  if maximum ≤ current then maximum
  else
    let doubled := current * 2
    if maximum < doubled then maximum else doubled

namespace PeerSlot

/-- `TransitionToDisconnected` -/
def transitionToDisconnected (S : Setup) (slot : PeerSlot) (now : Int)
    (increase_backoff : Bool) : PeerSlot :=
  { slot with
    state := .kDisconnected
    state_since := now
    next_connect_attempt := now + slot.reconnect_backoff
    reconnect_backoff :=
      if increase_backoff then doubleBackoff slot.reconnect_backoff S.config.max_backoff
      else slot.reconnect_backoff }

/-- `TransitionToStale` -/
def transitionToStale (slot : PeerSlot) (now : Int) : PeerSlot :=
  { slot with
    state := .kStale
    state_since := now }

/-- `TransitionToActive` -/
def transitionToActive (S : Setup) (slot : PeerSlot) (now : Int) : PeerSlot :=
  { slot with
    state := .kActive
    state_since := now
    last_packet_received := now
    reconnect_backoff := S.config.initial_backoff }

variable (env : Env) (i : Nat) (slot : PeerSlot)

/-- `ResolvePeer` -/
def resolvePeer : Bool × PeerSlot :=
  match env.resolve i with
  | none => (false, slot)
  | some addr => (true, { slot with resolved_addr := some addr })

/-- `EnsureLocalSession` -/
def ensureLocalSession : PeerSlot :=
  if slot.local_session_id = 0 then { slot with local_session_id := (env.identity i).1 } else slot

/-- `ConsumeCounter`, at a slot there is. -/
def consumeCounter (slot : PeerSlot) : UInt32 × PeerSlot :=
  let next := slot.next_counter + 1
  (slot.next_counter, { slot with next_counter := if next = 0 then 1 else next })

/-- The end of `SendSignedControlMessage`: the packet goes to the socket. -/
def transmit (packet : Packet) (addr : Sockaddr) : Bool × PeerSlot × List Sent :=
  let ok := env.send i
  let stats := slot.stats
  let slot := if ok then { slot with stats := { stats with packets_sent := stats.packets_sent + 1 } }
    else slot
  (ok, slot, [{ slot_index := i, packet := packet, addr := addr }])

variable (S : Setup) (env : Env) (i : Nat) (slot : PeerSlot)

/-- `SendSignedControlMessage` -/
def sendSignedControlMessage (type : MessageType) (payload : ByteArr kPayloadSize) :
    Bool × PeerSlot × List Sent :=
  match slot.resolved_addr with
  | none => (false, slot, [])
  | some addr =>
    let (counter, slot) := slot.consumeCounter
    let packet := { makePacket type counter with payload := payload }
    if isHandshakeMessage type then
      slot.transmit env i (attachPacketMac S.hmac packet slot.hmac_key none) addr
    else if slot.local_session_id = 0 then (false, slot, [])
    else
      slot.transmit env i
        (attachPacketMac S.hmac packet slot.hmac_key (some slot.local_session_id)) addr

/-- The payload of this node's own handshake messages. -/
def ownSyn (S : Setup) (slot : PeerSlot) : SynPayload :=
  { session_id := slot.local_session_id, peer_id := S.local_peer_id }

/-- `SendSynAck` -/
def sendSynAck : Bool × PeerSlot × List Sent :=
  let slot := slot.ensureLocalSession env i
  match slot.sendSignedControlMessage S env i .kSynAck (encodeSynPayload (slot.ownSyn S)) with
  | (false, slot, sent) => (false, slot, sent)
  | (true, slot, sent) =>
    let stats := slot.stats
    (true, { slot with stats := { stats with synack_sent := stats.synack_sent + 1 } }, sent)

/-! ## The clock ticks -/

/-- The keepalive of an active or stale slot. -/
def keepalive : PeerSlot × List Sent :=
  if env.now - slot.last_keepalive_sent ≥ S.config.keepalive_interval then
    match slot.sendSignedControlMessage S env i .kKeepalive (.zero kPayloadSize) with
    | (false, slot, sent) => (slot, sent)
    | (true, slot, sent) =>
      let stats := slot.stats
      ({ slot with
          stats := { stats with keepalive_sent := stats.keepalive_sent + 1 }
          last_keepalive_sent := env.now }, sent)
  else (slot, [])

/-- A connection attempt of a disconnected slot. -/
def connect : PeerSlot × List Sent :=
  match slot.resolvePeer env i with
  | (false, slot) =>
    let stats := slot.stats
    let slot :=
      { slot with stats := { stats with resolve_failures := stats.resolve_failures + 1 } }
    (slot.transitionToDisconnected S env.now true, [])
  | (true, slot) =>
    let slot := slot.ensureLocalSession env i
    match slot.sendSignedControlMessage S env i .kSyn (encodeSynPayload (slot.ownSyn S)) with
    | (false, slot, sent) => (slot.transitionToDisconnected S env.now true, sent)
    | (true, slot, sent) =>
      let stats := slot.stats
      ({ slot with
          stats := { stats with syn_sent := stats.syn_sent + 1 }
          state := .kConnecting
          state_since := env.now
          last_syn_sent := env.now }, sent)

/-- `Tick`, at one slot. -/
def tick : PeerSlot × List Sent :=
  match slot.state with
  | .kDisconnected =>
    if env.now < slot.next_connect_attempt then (slot, []) else slot.connect S env i
  | .kConnecting =>
    if env.now - slot.state_since ≥ S.config.connect_timeout then
      (slot.transitionToDisconnected S env.now true, [])
    else (slot, [])
  | .kActive =>
    if env.now - slot.last_packet_received ≥ S.config.stale_timeout then
      (slot.transitionToStale env.now, [])
    else slot.keepalive S env i
  | .kStale =>
    if env.now - slot.state_since ≥ S.config.connect_timeout then
      (slot.transitionToDisconnected S env.now true, [])
    else slot.keepalive S env i

/-- `SendDisconnectAll`, at one slot. -/
def sendDisconnect : PeerSlot × List Sent :=
  if slot.resolved_addr.isNone || slot.state = .kDisconnected then (slot, [])
  else
    let (_, slot, sent) :=
      slot.sendSignedControlMessage S env i .kDisconnect (.zero kPayloadSize)
    let slot := { slot with reconnect_backoff := S.config.initial_backoff }
    (slot.transitionToDisconnected S env.now false, sent)

/-! ## Remote sessions -/

/-- `HasNonZeroSynIdentity` -/
def hasNonZeroSynIdentity (syn : SynPayload) : Bool := syn.session_id != 0 && syn.peer_id != 0

section Remote

variable (slot : PeerSlot)

/-- `SameRemoteIdentity` -/
def sameRemoteIdentity (syn : SynPayload) : Bool :=
  slot.remote_identity == some syn.identity

/-- `IsRetiredRemoteIdentity` -/
def isRetiredRemoteIdentity (syn : SynPayload) : Bool :=
  slot.retired_remote_identities.contains syn.identity

/-- `RetireRemoteIdentity` -/
def retireRemoteIdentity : PeerSlot :=
  match slot.remote_identity with
  | none => slot
  | some identity =>
    if identity.session_id = 0 || identity.peer_id = 0 then slot
    else if slot.retired_remote_identities.contains identity then slot
    else
      let kept :=
        if slot.retired_remote_identities.length ≥ kRetiredRemoteIdentityHistoryLimit then
          slot.retired_remote_identities.tail
        else slot.retired_remote_identities
      { slot with retired_remote_identities := kept ++ [identity] }

/-- `ReplaceRemoteSession` -/
def replaceRemoteSession (syn : SynPayload) (counter : UInt32) (require_next_non_handshake : Bool) :
    PeerSlot :=
  let replacing := slot.remote_identity.isSome && !slot.sameRemoteIdentity syn
  let slot :=
    if replacing then
      let slot := slot.retireRemoteIdentity
      let stats := slot.stats
      { slot with
        stats := { stats with session_replacements := stats.session_replacements + 1 } }
    else slot
  { slot with
    remote_identity := some syn.identity
    last_inbound_counter := some counter
    require_next_inbound_counter_after_reset := require_next_non_handshake }

def countReplayReject : PeerSlot :=
  let stats := slot.stats
  { slot with stats := { stats with replay_rejects := stats.replay_rejects + 1 } }

def countReplacementReject : PeerSlot :=
  let stats := slot.stats
  { slot with
    stats := { stats with session_replacement_rejects := stats.session_replacement_rejects + 1 } }

def countMacFailure : PeerSlot :=
  let stats := slot.stats
  { slot with stats := { stats with mac_failures := stats.mac_failures + 1 } }

/-- The end of `AcceptInboundReplayState`: the counter, for a handshake or for anything else. -/
def acceptCounter (counter : UInt32) (syn : Option SynPayload) : Bool × PeerSlot :=
  let forward := match slot.last_inbound_counter with
    | none => true
    | some last => isForwardInboundCounter last counter
  if !forward then (false, slot.countReplayReject)
  else
    let must_be_next := syn.isNone && slot.require_next_inbound_counter_after_reset &&
      slot.last_inbound_counter.isSome
    if must_be_next && slot.last_inbound_counter.map nextInboundCounter != some counter then
      (false, slot.countReplayReject)
    else
      let slot := match syn with
        | none => slot
        | some syn =>
          if slot.remote_identity.isNone then slot.replaceRemoteSession syn counter false else slot
      (true,
        { slot with
          last_inbound_counter := some counter
          require_next_inbound_counter_after_reset :=
            if must_be_next then false else slot.require_next_inbound_counter_after_reset })

/-- `AcceptInboundReplayState` -/
def acceptInboundReplayState (packet : Packet) : Bool × PeerSlot :=
  if packet.counter = 0 then (false, slot.countReplayReject)
  else if isHandshakeMessage packet.msg_type then
    match decodeSynPayload packet.payload with
    | none => (false, slot)
    | some syn =>
      if !hasNonZeroSynIdentity syn then (false, slot)
      else if slot.isRetiredRemoteIdentity syn then (false, slot.countReplacementReject)
      else if slot.remote_identity.isSome && !slot.sameRemoteIdentity syn then
        if packet.msg_type = .kSyn || slot.state = .kConnecting then
          (true, slot.replaceRemoteSession syn packet.counter true)
        else (false, slot.countReplacementReject)
      else slot.acceptCounter packet.counter (some syn)
  else slot.acceptCounter packet.counter none

/-! ## A packet arrives -/

/-- The MAC check of `HandleInbound`: a handshake is not bound to a session, anything else needs
one. -/
def verifyInbound (S : Setup) (slot : PeerSlot) (packet : Packet) : Bool × PeerSlot :=
  let bytes := serializePacket packet
  if isHandshakeMessage packet.msg_type then
    if verifyPacketMac S.hmac bytes slot.hmac_key none then (true, slot)
    else (false, slot.countMacFailure)
  else if slot.state ≠ .kActive ∧ slot.state ≠ .kStale then (false, slot)
  else
    match slot.remote_identity with
    | none => (false, slot)
    | some identity =>
      if identity.session_id = 0 then (false, slot)
      else if verifyPacketMac S.hmac bytes slot.hmac_key (some identity.session_id) then
        (true, slot)
      else (false, slot.countMacFailure)

/-- What an accepted packet does to the slot. -/
def dispatch (S : Setup) (env : Env) (i : Nat) (slot : PeerSlot) (packet : Packet) (sink : Bool) :
    PeerSlot × List Sent :=
  let now := env.now
  let stats := slot.stats
  let stats := { stats with packets_received := stats.packets_received + 1 }
  let slot := { slot with last_packet_received := now }
  match packet.msg_type with
  | .kSyn =>
    let slot :=
      { slot with stats := { stats with syn_received := stats.syn_received + 1 } }
    let slot := slot.transitionToActive S now
    if sink then (slot.sendSynAck S env i).2 else (slot, [])
  | .kSynAck =>
    let slot :=
      { slot with stats := { stats with synack_received := stats.synack_received + 1 } }
    (slot.transitionToActive S now, [])
  | .kKeepalive =>
    let slot :=
      { slot with stats := { stats with keepalive_received := stats.keepalive_received + 1 } }
    (slot.transitionToActive S now, [])
  | .kPong =>
    let slot :=
      { slot with stats := { stats with pong_received := stats.pong_received + 1 } }
    (slot.transitionToActive S now, [])
  | .kDisconnect =>
    let slot :=
      { slot with
        stats := { stats with disconnect_received := stats.disconnect_received + 1 }
        reconnect_backoff := S.config.initial_backoff }
    (slot.transitionToDisconnected S now false, [])
  | .kBlockHeader | .kBlockChunk | .kPing =>
    let slot := { slot with stats := stats }
    if slot.state = .kConnecting || slot.state = .kStale then (slot.transitionToActive S now, [])
    else (slot, [])

/-- What `HandleInbound` tells its caller about the slot. -/
def inboundPeerInfo (i : Nat) : InboundPeerInfo :=
  match slot.remote_identity with
  | none => {}
  | some identity =>
    { slot_index := i
      remote_session_id := identity.session_id
      remote_peer_id := identity.peer_id }

end Remote

/-- `HandleInbound`, from where the slot is known.  A packet that is accepted gives the peer it came
from. -/
def handleInbound (S : Setup) (env : Env) (i : Nat) (slot : PeerSlot) (packet : Packet)
    (sink : Bool) : Option InboundPeerInfo × PeerSlot × List Sent :=
  if packet.msg_type ≠ .kSyn ∧ isHandshakeMessage packet.msg_type ∧ slot.local_session_id = 0 then
    (none, slot, [])
  else
    let slot := if packet.msg_type = .kSyn then slot.ensureLocalSession env i else slot
    match slot.verifyInbound S packet with
    | (false, slot) => (none, slot, [])
    | (true, slot) =>
      match slot.acceptInboundReplayState packet with
      | (false, slot) => (none, slot, [])
      | (true, slot) =>
        let (slot, sent) := slot.dispatch S env i packet sink
        (some (slot.inboundPeerInfo i), slot, sent)

end PeerSlot

/-! ## The slots together -/

/-- `FindSlotByAddr` -/
def findSlotByAddr (slots : List PeerSlot) (addr : Sockaddr) : Option Nat :=
  slots.findIdx? fun slot => slot.resolved_addr.any (sockaddrEquals · addr)

/-- The loop of `HandleInbound` over the slots that have no address yet, from slot `i` on: each is
resolved until one has the address. -/
def resolveCandidates (env : Env) (addr : Sockaddr) :
    Nat → List PeerSlot → Option Nat × List PeerSlot
  | _, [] => (none, [])
  | i, slot :: rest =>
    if slot.resolved_addr.isSome then
      let (found, rest) := resolveCandidates env addr (i + 1) rest
      (found, slot :: rest)
    else
      match env.resolve i with
      | none =>
        let (found, rest) := resolveCandidates env addr (i + 1) rest
        (found, slot :: rest)
      | some candidate =>
        let slot := { slot with resolved_addr := some candidate }
        if sockaddrEquals candidate addr then (some i, slot :: rest)
        else
          let (found, rest) := resolveCandidates env addr (i + 1) rest
          (found, slot :: rest)

/-- The slot an address belongs to. -/
def route (env : Env) (slots : List PeerSlot) (addr : Sockaddr) : Option Nat × List PeerSlot :=
  match findSlotByAddr slots addr with
  | some i => (some i, slots)
  | none => resolveCandidates env addr 0 slots

variable (S : Setup) (env : Env) (slots : List PeerSlot)

/-- `HandleInbound` -/
def handleInbound (packet : Packet) (addr : Sockaddr) (sink : Bool) :
    Option InboundPeerInfo × List PeerSlot × List Sent :=
  match route env slots addr with
  | (none, slots) => (none, slots, [])
  | (some i, slots) =>
    match slots[i]? with
    | none => (none, slots, [])
    | some slot =>
      let (inbound_peer, slot, sent) := slot.handleInbound S env i packet sink
      (inbound_peer, slots.set i slot, sent)

/-- A loop over all slots, each on its own. -/
def forSlots (f : Nat → PeerSlot → PeerSlot × List Sent) (slots : List PeerSlot) :
    List PeerSlot × List Sent :=
  let results := slots.mapIdx f
  (results.map (·.1), results.flatMap (·.2))

/-- `Tick` -/
def tick : List PeerSlot × List Sent :=
  forSlots (fun i slot => slot.tick S env i) slots

/-- `SendDisconnectAll` -/
def sendDisconnectAll : List PeerSlot × List Sent :=
  forSlots (fun i slot => slot.sendDisconnect S env i) slots

/-- `GetActivePeers` -/
def getActivePeers (slots : List PeerSlot) : List ActivePeerInfo :=
  (slots.mapIdx fun i slot =>
    match slot.resolved_addr with
    | none => none
    | some addr =>
      if slot.state ≠ .kActive ∨ slot.local_session_id = 0 then none
      else some
        { slot_index := i
          addr := addr
          hmac_key := slot.hmac_key
          local_session_id := slot.local_session_id : ActivePeerInfo }).filterMap id

/-- `ConsumeCounter` -/
def consumeCounter (slots : List PeerSlot) (i : Nat) : UInt32 × List PeerSlot :=
  match slots[i]? with
  | none => (0, slots)
  | some slot =>
    let (counter, slot) := slot.consumeCounter
    (counter, slots.set i slot)

/-- The loop of `PumpOutbound` that sends one payload to the peers that were active. -/
def sendToPeers (S : Setup) (type : MessageType) (payload : ByteArr kPayloadSize) :
    List ActivePeerInfo → List PeerSlot → List PeerSlot × List Sent
  | [], slots => (slots, [])
  | peer :: peers, slots =>
    let (counter, slots) := consumeCounter slots peer.slot_index
    let packet := { makePacket type counter with payload := payload }
    let packet := attachPacketMac S.hmac packet peer.hmac_key (some peer.local_session_id)
    let (slots, sent) := sendToPeers S type payload peers slots
    (slots, { slot_index := peer.slot_index, packet := packet, addr := peer.addr } :: sent)

/-! ## Runs -/

/-- What the relay sends: the header of a block or a chunk of one. -/
inductive RelayPayload where
  | header (payload : BlockHeaderPayload)
  | chunk (payload : BlockChunkPayload)
  deriving DecidableEq

namespace RelayPayload

def msgType : RelayPayload → MessageType
  | header _ => .kBlockHeader
  | chunk _ => .kBlockChunk

def encode : RelayPayload → ByteArr kPayloadSize
  | header payload => encodeBlockHeaderPayload payload
  | chunk payload => encodeBlockChunkPayload payload

end RelayPayload

/-- Anything that is done to a peer manager. -/
inductive Action where
  | tick
  | handleInbound (packet : Packet) (addr : Sockaddr) (sink : Bool)
  | relay (payload : RelayPayload)
  | sendDisconnectAll

/-- An action with the answers it gets from outside. -/
structure Call where
  env : Env
  action : Action

/-- The slots, the packets that were accepted with the peers they came from, and those that were
sent. -/
structure History where
  slots : List PeerSlot
  accepted : List (InboundPeerInfo × Packet) := []
  sent : List Sent := []

namespace History

def init (S : Setup) (now : Int) (keys : List HmacKey) : History where
  slots := keys.map (PeerSlot.init S.config now)

def step (S : Setup) (h : History) (call : Call) : History :=
  match call.action with
  | .tick =>
    let (slots, sent) := tick S call.env h.slots
    { h with slots := slots, sent := h.sent ++ sent }
  | .handleInbound packet addr sink =>
    let (inbound_peer, slots, sent) := handleInbound S call.env h.slots packet addr sink
    { slots := slots
      accepted := h.accepted ++ (inbound_peer.map fun peer => (peer, packet)).toList
      sent := h.sent ++ sent }
  | .relay payload =>
    let (slots, sent) :=
      sendToPeers S payload.msgType payload.encode (getActivePeers h.slots) h.slots
    { h with slots := slots, sent := h.sent ++ sent }
  | .sendDisconnectAll =>
    let (slots, sent) := sendDisconnectAll S call.env h.slots
    { h with slots := slots, sent := h.sent ++ sent }

def after (S : Setup) (h : History) (calls : List Call) : History := calls.foldl (step S) h

end History

end Qbit.Photon
