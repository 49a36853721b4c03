import Norn.Router.Header
import Norn.Session.Honest

/-!
# Traffic frames

`RouterState::handle_traffic` of `handlers.rs`: a frame whose routing tag is
ours is a handshake message or a data packet for us, every other frame is
forwarded.

What the routing layer answers while a frame is handled (greedy next hops,
cuckoo lookups, the coordinate codec) is one argument of the call, like the
clocks and the random draws.  Besides the new state a call returns what it
did, in order: the handshake messages it accepted, the packets it pushed to
the reader and the frames it handed to `send_to_peer`.
-/

namespace Norn.Router

open Foundation Session

/-- `PKT_CONTROL`. -/
def pktControl : UInt8 := 0x00

/-- `PKT_DATA`. -/
def pktData : UInt8 := 0x01

/-- `Traffic`. -/
structure Traffic where
  path : List UInt64
  fromPeer : Bytes 32
  encHeader : EncHeader
  routingTag : Bytes 16
  pktType : UInt8
  destCoord : Option (Bytes 16)
  watermark : UInt64
  payload : List UInt8
  deriving DecidableEq

/-- The data frame a node builds around a ciphertext for `dst`. -/
def dataFrame (P : Primitives) (pubKey dst : Bytes 32)
    (epkPriv : P.StaticSecret) (destCoord : Option (Bytes 16))
    (ciphertext : List UInt8) : Traffic :=
  let (encHeader, tag) := encryptHeader P pubKey dst epkPriv
  { path := []
    fromPeer := pubKey
    encHeader := encHeader
    routingTag := tag
    pktType := pktData
    destCoord := destCoord
    watermark := 0
    payload := ciphertext }

/-- `InboundPacket`. -/
structure InboundPacket where
  fromPeer : Bytes 32
  payload : List UInt8
  deriving DecidableEq

/-- What a call did, besides changing the state. -/
inductive Event where
  /-- A handshake message of `remote` was accepted on a session. -/
  | handshake (remote : Bytes 32) (cell : Nat) (signed : List UInt8)
  /-- A packet decrypted under a session was pushed to the reader. -/
  | delivered (cell : Nat) (packet : InboundPacket)
  /-- A frame was handed to `send_to_peer`. -/
  | sent (peer : Bytes 32) (traffic : Traffic)
  /-- A `PathNegative` was handed to `send_to_peer`. -/
  | pathNegative (peer : Bytes 32) (tag : Bytes 16) (ttl : UInt8)
  deriving DecidableEq

/-! ## The router -/

/-- The fields of a peer entry that traffic touches. -/
structure PeerEntry where
  lastRxTime : Instant
  rxBytes : UInt64

/-- What the routing layer answers while a frame is handled. -/
structure Routing where
  canonicalCoord : Bytes 16 → Bytes 16
  greedyNextHop : Bytes 16 → Bytes 32 → Option (Bytes 32)
  lookupByTagExcluding : Bytes 16 → Bytes 32 → Option (Bytes 32)
  lookup : Bytes 32 → Option (Bytes 32)
  convergenceActive : Bool

/-- What the handler of a frame reads from its surroundings. -/
structure FrameEnv (P : Primitives) where
  call : Surroundings P
  epkPriv : P.StaticSecret
  routing : Routing

/-- The part of `RouterState` that traffic touches. -/
structure RouterState (P : Primitives) where
  sessions : SessionManager P
  peers : AList fun _ : Bytes 32 => PeerEntry
  coordTable : AList fun _ : Bytes 32 => Bytes 16
  trafficTx : List InboundPacket

/-- The capacity of the channel behind `traffic_tx`. -/
def trafficCapacity : Nat := 1024

/-- `MAX_COORD_TABLE_SIZE`. -/
def maxCoordTableSize : Nat := 16384

/-- `MAX_FORWARD_HOPS`. -/
def maxForwardHops : UInt64 := 32

/-- `PATH_NEG_INITIAL_TTL`. -/
def pathNegInitialTtl : UInt8 := 4

/-- `u64::saturating_add(1)`. -/
def saturatingSucc (word : UInt64) : UInt64 :=
  if word = 0xffffffffffffffff then word else word + 1

namespace RouterState

variable {P : Primitives}

/-- `RouterState::pub_key`. -/
def pubKey (self : RouterState P) : Bytes 32 := self.sessions.ourPub

/-- `RouterState::signing_key`. -/
def signingKey (self : RouterState P) : P.SigningKey :=
  self.sessions.ourSigningKey

/-- Record that a frame has arrived from a peer. -/
def touchPeer (self : RouterState P) (fromPeer : Bytes 32)
    (now : Instant) (bytes : Nat) : RouterState P :=
  match self.peers.lookup fromPeer with
  | none => self
  | some peer =>
    { self with
      peers :=
        self.peers.insert fromPeer
          { peer with
            lastRxTime := now
            rxBytes := peer.rxBytes + UInt64.ofNat bytes } }

/--
`RouterState::note_peer_coord`.  A decoded coordinate is always finite, so
the check for that never fails.
-/
def notePeerCoord (self : RouterState P) (env : FrameEnv P)
    (peer : Bytes 32) (coordBytes : Bytes 16) : RouterState P :=
  let coord := env.routing.canonicalCoord coordBytes
  if maxCoordTableSize ≤ self.coordTable.keys.length ∧
      (self.coordTable.lookup peer).isNone then
    match (env.call.order.arrange self.coordTable.keys).find? fun key =>
        (self.peers.lookup key).isNone && decide (key ≠ self.pubKey) with
    | some victim =>
      { self with
        coordTable := (self.coordTable.erase victim).insert peer coord }
    | none => self
  else
    { self with coordTable := self.coordTable.insert peer coord }

/-- `RouterState::remove_peer`. -/
def removePeer (self : RouterState P) (peer : Bytes 32) :
    RouterState P :=
  { self with
    peers := self.peers.erase peer
    coordTable := self.coordTable.erase peer
    sessions := self.sessions.remove peer }

/-- `RouterState::send_traffic_to`. -/
def sendTrafficTo (self : RouterState P) (env : FrameEnv P)
    (dst : Bytes 32) (payload : List UInt8) : List Event :=
  let (encHeader, tag) := encryptHeader P self.pubKey dst env.epkPriv
  let traffic : Traffic :=
    { path := []
      fromPeer := self.pubKey
      encHeader := encHeader
      routingTag := tag
      pktType := pktControl
      destCoord := self.coordTable.lookup dst
      watermark := 0
      payload := padPayload payload }
  match env.routing.lookup dst with
  | some nextHop => [.sent nextHop traffic]
  | none => []

/-- `RouterState::send_path_negative`. -/
def sendPathNegative (toPeer : Bytes 32) (tag : Bytes 16) (ttl : UInt8) :
    List Event :=
  if ttl = 0 then [] else [.pathNegative toPeer tag ttl]

/-- The session a handshake message of `remote` was accepted on. -/
def handshakeEvent (sessions : SessionManager P) (remote : Bytes 32)
    (signed : List UInt8) : List Event :=
  ((sessions.getSession remote).map fun cell =>
    Event.handshake remote cell signed).toList

/-- The Init case of a control frame. -/
def handleInitFrame (self : RouterState P) (env : FrameEnv P)
    (raw : List UInt8) : RouterState P × List Event :=
  match self.sessions.handleInit env.call raw with
  | (.error _, sessions) => ({ self with sessions }, [])
  | (.ok ack, sessions) =>
    let self := { self with sessions }
    match HandshakeMessage.decode .init raw with
    | .error _ => (self, [])
    | .ok init =>
      let self := self.notePeerCoord env init.edPub init.senderCoord
      let answer := match Bytes.ofList 32 ((raw.drop 1).take 32) with
        | some sender => self.sendTrafficTo env sender ack
        | none => []
      (self, handshakeEvent sessions init.edPub init.signedBytes ++ answer)

/-- The Ack case of a control frame. -/
def handleAckFrame (self : RouterState P) (env : FrameEnv P)
    (raw : List UInt8) : RouterState P × List Event :=
  match self.sessions.handleAck env.call raw with
  | (.error _, sessions) => ({ self with sessions }, [])
  | (.ok _, sessions) =>
    let self := { self with sessions }
    match HandshakeMessage.decode .ack raw with
    | .error _ => (self, [])
    | .ok ack =>
      (self.notePeerCoord env ack.edPub ack.senderCoord,
        handshakeEvent sessions ack.edPub ack.signedBytes)

/-- The `PKT_CONTROL` case of `handle_traffic`. -/
def handleControl (self : RouterState P) (env : FrameEnv P)
    (payload : List UInt8) : RouterState P × List Event :=
  match unpadPayload payload with
  | .error _ => (self, [])
  | .ok raw =>
    if raw.head? = some HandshakeKind.init.magic then
      self.handleInitFrame env raw
    else if raw.head? = some HandshakeKind.ack.magic then
      self.handleAckFrame env raw
    else
      (self, [])

/-- Push a packet to the reader, unless the channel is full. -/
def push (self : RouterState P) (cell : Nat) (packet : InboundPacket) :
    RouterState P × List Event :=
  if self.trafficTx.length < trafficCapacity then
    ({ self with trafficTx := self.trafficTx ++ [packet] },
      [.delivered cell packet])
  else
    (self, [])

/--
The `PKT_DATA` case of `handle_traffic`.  It looks the session up and
decrypts under its own lock, whatever the state of the handshake.
-/
def handleData (self : RouterState P) (env : FrameEnv P)
    (traffic : Traffic) : RouterState P × List Event :=
  match decryptSourceFromHeader P traffic.encHeader self.signingKey with
  | none => (self, [])
  | some source =>
    match self.sessions.getSession source with
    | none => (self, [])
    | some cell =>
      match self.sessions.sessions.deref cell with
      | none => (self, [])
      | some info =>
        let (result, next) := info.decrypt env.call.now traffic.payload
        let self :=
          { self with
            sessions :=
              { self.sessions with
                sessions :=
                  self.sessions.sessions.update cell fun _ => next } }
        match result with
        | .error _ => (self, [])
        | .ok padded =>
          match unpadPayload padded with
          | .error _ => (self, [])
          | .ok payload => self.push cell ⟨source, payload⟩

/-- The transit case of `handle_traffic`. -/
def forward (self : RouterState P) (env : FrameEnv P)
    (fromPeer : Bytes 32) (traffic : Traffic) : List Event :=
  if maxForwardHops ≤ traffic.watermark then
    sendPathNegative fromPeer traffic.routingTag pathNegInitialTtl
  else
    let greedyHop :=
      traffic.destCoord.bind fun coord =>
        env.routing.greedyNextHop coord fromPeer
    let nextHop := match greedyHop with
      | some hop => some hop
      | none =>
        env.routing.lookupByTagExcluding traffic.routingTag fromPeer
    match nextHop with
    | some nextHop =>
      [.sent nextHop
        { traffic with
          watermark := saturatingSucc traffic.watermark
          fromPeer := self.pubKey }]
    | none =>
      if env.routing.convergenceActive then []
      else sendPathNegative fromPeer traffic.routingTag pathNegInitialTtl

/-- `RouterState::handle_traffic`. -/
def handleTraffic (self : RouterState P) (env : FrameEnv P)
    (fromPeer : Bytes 32) (traffic : Traffic) :
    RouterState P × List Event :=
  let self := self.touchPeer fromPeer env.call.now traffic.payload.length
  if traffic.routingTag = routingTag P self.pubKey then
    if traffic.pktType = pktControl then
      self.handleControl env traffic.payload
    else if traffic.pktType = pktData then
      self.handleData env traffic
    else
      (self, [])
  else
    (self, self.forward env fromPeer traffic)

variable (self : RouterState P)

@[simp]
theorem sessions_touchPeer (fromPeer : Bytes 32) (now : Instant) (bytes : Nat) :
    (self.touchPeer fromPeer now bytes).sessions = self.sessions := by
  unfold touchPeer
  cases self.peers.lookup fromPeer <;> rfl

@[simp]
theorem sessions_notePeerCoord (env : FrameEnv P) (peer : Bytes 32)
    (coordBytes : Bytes 16) :
    (self.notePeerCoord env peer coordBytes).sessions =
      self.sessions := by
  unfold notePeerCoord
  simp only
  split_ifs
  · split <;> rfl
  · rfl

theorem sessions_handleInitFrame (env : FrameEnv P) (raw : List UInt8) :
    (self.handleInitFrame env raw).1.sessions =
      (self.sessions.handleInit env.call raw).2 := by
  cases handled : self.sessions.handleInit env.call raw with
  | mk result sessions =>
    cases result with
    | error failure => simp only [handleInitFrame, handled]
    | ok ack =>
      cases decoded : HandshakeMessage.decode .init raw with
      | error failure => simp only [handleInitFrame, handled, decoded]
      | ok init =>
        simp only [handleInitFrame, handled, decoded, sessions_notePeerCoord]

theorem sessions_handleAckFrame (env : FrameEnv P) (raw : List UInt8) :
    (self.handleAckFrame env raw).1.sessions =
      (self.sessions.handleAck env.call raw).2 := by
  cases handled : self.sessions.handleAck env.call raw with
  | mk result sessions =>
    cases result with
    | error failure => simp only [handleAckFrame, handled]
    | ok key =>
      cases decoded : HandshakeMessage.decode .ack raw with
      | error failure => simp only [handleAckFrame, handled, decoded]
      | ok ack =>
        simp only [handleAckFrame, handled, decoded, sessions_notePeerCoord]

end RouterState

end Norn.Router
