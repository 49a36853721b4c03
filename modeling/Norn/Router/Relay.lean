import Norn.Router.Lookup
import Norn.Router.Wire

/-!
# Frames handed on from router to router

The branches of `dispatch` whose frames travel on: traffic, negative path
hints, path replies, hole punches and onion cells.  A router that is not the
addressee decodes such a frame, asks its tables for a next hop, and sends it
on.

The forwarding tasks of `dispatch` sleep for a moment and handle the frame
then; here a frame is handled when its task wakes.  What a router does with
an onion cell addressed to it is an argument, and so is the way it finds for
the answer to a handshake, which it looks up after it has noted the
coordinate of the peer.
-/

namespace Norn.Router

open Foundation Packet Session

/-- A router: the state that traffic touches and the lookup tables. -/
structure Node (P : Primitives) (F : Floats) where
  router : RouterState P
  routing : RoutingState F

/-- What a router sends: frames for peers. -/
abbrev Outgoing := List (Bytes 32 × List UInt8)

/-- What the handler of a relayed frame reads from its surroundings. -/
structure RelayEnv (P : Primitives) (F : Floats) where
  frame : FrameEnv P
  cacheOrder : CacheOrder
  /-- `handle_onion` and `handle_sphinx`. -/
  atHop : Node P F → Bytes 32 → List UInt8 → Node P F × Outgoing

variable {P : Primitives} {F : Floats}

/-- The frame an event of the traffic handler puts on a link. -/
def Event.outgoing : Event → Option (Bytes 32 × List UInt8)
  | .handshake _ _ _ => none
  | .delivered _ _ => none
  | .sent peer traffic => some (peer, traffic.encode)
  | .pathNegative peer routingTag ttl =>
    some (peer, PathNegative.encode { routingTag, ttl })

namespace Node

/-- `RouterState::pub_key`. -/
def pubKey (self : Node P F) : Bytes 32 := self.router.pubKey

/-- `RouterState::lookup`. -/
def lookup (self : Node P F) (dst : Bytes 32) : Option (Bytes 32) :=
  self.routing.lookup self.router.coordTable P dst

/-- What the tables answer while a traffic frame is handled. -/
def answers (self : Node P F) (env : RelayEnv P F) : Routing where
  canonicalCoord := F.canonicalCoord
  greedyNextHop coord fromPeer :=
    self.routing.greedyNextHop self.router.coordTable
      (F.canonicalCoord coord) (some fromPeer)
  lookupByTagExcluding tag fromPeer :=
    self.routing.lookupByTagExcluding env.frame.call.now tag (some fromPeer)
  lookup := env.frame.routing.lookup
  convergenceActive := self.routing.convergenceActive

/-- `handle_traffic`. -/
def handleTraffic (self : Node P F) (env : RelayEnv P F)
    (fromPeer : Bytes 32) (traffic : Traffic) : Node P F × Outgoing :=
  let handled :=
    self.router.handleTraffic
      { env.frame with routing := self.answers env } fromPeer traffic
  ({ self with router := handled.1 }, handled.2.filterMap Event.outgoing)

/-- `handle_path_negative`. -/
def handlePathNegative (self : Node P F) (env : RelayEnv P F)
    (fromPeer : Bytes 32) (negative : PathNegative) :
    Node P F × Outgoing :=
  let now := env.frame.call.now
  let routing :=
    self.routing.recordPathNegative now env.cacheOrder fromPeer
      negative.routingTag
  let next :=
    routing.lookupByTagExcluding now negative.routingTag (some fromPeer)
  let events :=
    if 1 < negative.ttl then
      match next with
      | some next =>
        RouterState.sendPathNegative next negative.routingTag (negative.ttl - 1)
      | none => []
    else
      []
  ({ router := self.router.touchPeer fromPeer now 0
     routing := routing },
    events.filterMap Event.outgoing)

/-- A reply goes to the next hop towards its addressee, if there is one. -/
def sendTowards (self : Node P F) (dst : Bytes 32)
    (encoded : List UInt8) : Outgoing :=
  match self.lookup dst with
  | some nextHop => [(nextHop, encoded)]
  | none => []

/-- The router that asked for a path drops the probe and trusts its peer. -/
def confirmProbe (self : Node P F) (id : UInt64) : Node P F :=
  match self.routing.pendingProbes.lookup id with
  | none => self
  | some (via, _) =>
    { self with
      routing :=
        { self.routing with
          pendingProbes := self.routing.pendingProbes.erase id
          peers := self.routing.peers.boost via } }

/-- `handle_path_notify`. -/
def handlePathNotify (self : Node P F) (env : RelayEnv P F)
    (fromPeer : Bytes 32) (notify : PathNotify) : Node P F × Outgoing :=
  let self :=
    { self with
      router := self.router.touchPeer fromPeer env.frame.call.now 0 }
  if notify.source = self.pubKey then
    (self.confirmProbe notify.id, [])
  else
    (self, self.sendTowards notify.source notify.encode)

/-- `handle_path_broken`. -/
def handlePathBroken (self : Node P F) (env : RelayEnv P F)
    (fromPeer : Bytes 32) (broken : PathBroken) : Node P F × Outgoing :=
  let self :=
    { self with
      router := self.router.touchPeer fromPeer env.frame.call.now 0 }
  if broken.source = self.pubKey then
    (self, [])
  else
    (self, self.sendTowards broken.source broken.encode)

/-- The freshness window of a hole punch, in milliseconds. -/
def holePunchWindowMs : UInt64 := 60000

/-- `handle_hole_punch`. -/
def handleHolePunch (self : Node P F) (env : RelayEnv P F)
    (punch : HolePunch) : Node P F × Outgoing :=
  if !P.isVerifyingKey punch.initiator then
    (self, [])
  else if !P.verifyStrict punch.initiator punch.signBytes punch.sig then
    (self, [])
  else if holePunchWindowMs <
      clockSkew env.frame.call.nowMs punch.validFromMs then
    (self, [])
  else if punch.target = self.pubKey then
    (self, [])
  else
    (self, self.sendTowards punch.target punch.encode)

/-- The forwarding task of an onion cell that is not for us. -/
def forwardCell (self : Node P F) (env : RelayEnv P F)
    (fromPeer : Bytes 32) (tag : Bytes 16) (encoded : List UInt8) :
    Outgoing :=
  match self.routing.lookupByTagExcluding env.frame.call.now tag
      (some fromPeer) with
  | some next => [(next, encoded)]
  | none =>
    (RouterState.sendPathNegative fromPeer tag
      pathNegInitialTtl).filterMap Event.outgoing

/-- An onion cell: peeled by the hop it is addressed to, or sent on. -/
def handleCell (self : Node P F) (env : RelayEnv P F)
    (fromPeer : Bytes 32) (tag : Bytes 16)
    (received encoded : List UInt8) : Node P F × Outgoing :=
  if tag = routingTag P self.pubKey then
    env.atHop self fromPeer received
  else
    (self, self.forwardCell env fromPeer tag encoded)

end Node

/-- The frames that are handed on. -/
inductive RelayFrame where
  | traffic (traffic : Traffic)
  | pathNegative (negative : PathNegative)
  | pathNotify (notify : PathNotify)
  | pathBroken (broken : PathBroken)
  | holePunch (punch : HolePunch)
  | onion (packet : OnionPacket)
  | sphinx (tag : Bytes 16)
  deriving DecidableEq

/-- The tag in the clear at the front of a Sphinx cell. -/
def sphinxTag (data : List UInt8) : Option (Bytes 16) :=
  if data.length + 1 = onionCellSize then
    Bytes.ofList 16 (data.take 16)
  else
    none

/-- The frame that `dispatch` finds behind the type byte. -/
def parseFrame : List UInt8 → Option RelayFrame
  | [] => none
  | ptype :: data =>
    if ptype = trafficType then
      (Traffic.decode data).toOption.map .traffic
    else if ptype = pathNegativeType then
      (PathNegative.decode data).toOption.map .pathNegative
    else if ptype = pathNotifyType then
      (PathNotify.decode data).toOption.map .pathNotify
    else if ptype = pathBrokenType then
      (PathBroken.decode data).toOption.map .pathBroken
    else if ptype = holePunchType then
      (HolePunch.decode data).toOption.map .holePunch
    else if ptype = onionType then
      (OnionPacket.decode data).toOption.map .onion
    else if ptype = onionSphinxType then
      (sphinxTag data).map .sphinx
    else
      none

/--
A frame that a router reads off a link: `read_frame` refuses the overlong
ones, `dispatch` hands the others to their handler.
-/
def Node.receive (env : RelayEnv P F) (self : Node P F)
    (fromPeer : Bytes 32) (frame : List UInt8) : Node P F × Outgoing :=
  if maxFrameLength < frame.length then
    (self, [])
  else
    match parseFrame frame with
    | none => (self, [])
    | some (.traffic traffic) => self.handleTraffic env fromPeer traffic
    | some (.pathNegative negative) =>
      self.handlePathNegative env fromPeer negative
    | some (.pathNotify notify) =>
      self.handlePathNotify env fromPeer notify
    | some (.pathBroken broken) =>
      self.handlePathBroken env fromPeer broken
    | some (.holePunch punch) => self.handleHolePunch env punch
    | some (.onion packet) =>
      self.handleCell env fromPeer packet.routingTag frame packet.encode
    | some (.sphinx tag) =>
      self.handleCell env fromPeer tag frame frame

theorem parseFrame_traffic {traffic : Traffic} (fits : traffic.Fits) :
    parseFrame traffic.encode = some (.traffic traffic) := by
  have decoded := Traffic.decode_encode fits
  simp only [Traffic.encode, List.tail_cons] at decoded
  simp only [Traffic.encode, parseFrame, if_pos, decoded]
  rfl

theorem parseFrame_pathNegative (negative : PathNegative) :
    parseFrame negative.encode = some (.pathNegative negative) := by
  have decoded := PathNegative.decode_encode negative
  simp only [PathNegative.encode, List.tail_cons] at decoded
  simp only [PathNegative.encode, parseFrame, decoded]
  rfl

theorem parseFrame_pathNotify {notify : PathNotify}
    (fits : PathFits notify.path) :
    parseFrame notify.encode = some (.pathNotify notify) := by
  have decoded := PathNotify.decode_encode fits
  simp only [PathNotify.encode, List.tail_cons] at decoded
  simp only [PathNotify.encode, parseFrame, decoded]
  rfl

theorem parseFrame_pathBroken (broken : PathBroken) :
    parseFrame broken.encode = some (.pathBroken broken) := by
  have decoded := PathBroken.decode_encode broken
  simp only [PathBroken.encode, List.tail_cons] at decoded
  simp only [PathBroken.encode, parseFrame, decoded]
  rfl

theorem parseFrame_holePunch {punch : HolePunch}
    (fits : (utf8 punch.endpoint).length ≤ 255) :
    parseFrame punch.encode = some (.holePunch punch) := by
  have decoded := HolePunch.decode_encode fits
  simp only [HolePunch.encode, List.tail_cons] at decoded
  simp only [HolePunch.encode, parseFrame, decoded]
  rfl

theorem parseFrame_onion {packet : OnionPacket}
    (fits : packet.aeadPayload.length ≤ onionCellSize) :
    parseFrame packet.encode = some (.onion packet) := by
  have decoded := OnionPacket.decode_encode fits
  simp only [OnionPacket.encode, OnionPacket.encodeUnpadded,
    List.cons_append, List.tail_cons] at decoded
  simp only [OnionPacket.encode, OnionPacket.encodeUnpadded, List.cons_append,
    parseFrame, decoded]
  rfl

/-- The byte at the front of a frame. -/
def RelayFrame.typeByte : RelayFrame → UInt8
  | .traffic _ => trafficType
  | .pathNegative _ => pathNegativeType
  | .pathNotify _ => pathNotifyType
  | .pathBroken _ => pathBrokenType
  | .holePunch _ => holePunchType
  | .onion _ => onionType
  | .sphinx _ => onionSphinxType

/-- The condition under which a frame survives being encoded. -/
def RelayFrame.Fits : RelayFrame → Prop
  | .traffic content => content.Fits
  | .pathNotify notify => PathFits notify.path
  | .holePunch punch => (utf8 punch.endpoint).length ≤ 255
  | .onion packet => packet.aeadPayload.length ≤ onionCellSize
  | .pathNegative _ => True
  | .pathBroken _ => True
  | .sphinx _ => True

theorem exists_ok_of_toOption {Message : Type}
    {result : Except FrameError Message} {wrap : Message → RelayFrame}
    {parsed : RelayFrame}
    (found : result.toOption.map wrap = some parsed) :
    ∃ message, result = .ok message ∧ wrap message = parsed := by
  cases result with
  | error failure => cases found
  | ok message => exact ⟨message, rfl, Option.some.inj found⟩

theorem head_of_parseFrame {frame : List UInt8} {parsed : RelayFrame}
    (found : parseFrame frame = some parsed) :
    frame.head? = some parsed.typeByte := by
  cases frame with
  | nil => cases found
  | cons ptype data =>
    simp only [parseFrame] at found
    split_ifs at found with traffic negative notify broken punch onion sphinx
    · rcases exists_ok_of_toOption found with ⟨_, _, rfl⟩
      simp [traffic, RelayFrame.typeByte]
    · rcases exists_ok_of_toOption found with ⟨_, _, rfl⟩
      simp [negative, RelayFrame.typeByte]
    · rcases exists_ok_of_toOption found with ⟨_, _, rfl⟩
      simp [notify, RelayFrame.typeByte]
    · rcases exists_ok_of_toOption found with ⟨_, _, rfl⟩
      simp [broken, RelayFrame.typeByte]
    · rcases exists_ok_of_toOption found with ⟨_, _, rfl⟩
      simp [punch, RelayFrame.typeByte]
    · rcases exists_ok_of_toOption found with ⟨_, _, rfl⟩
      simp [onion, RelayFrame.typeByte]
    · rcases Option.map_eq_some_iff.mp found with ⟨_, _, rfl⟩
      simp [sphinx, RelayFrame.typeByte]

theorem fits_of_parseFrame {frame : List UInt8} {parsed : RelayFrame}
    (short : frame.length ≤ maxFrameLength)
    (found : parseFrame frame = some parsed) : parsed.Fits := by
  cases frame with
  | nil => cases found
  | cons ptype data =>
    simp only [parseFrame] at found
    split_ifs at found
    · rcases exists_ok_of_toOption found with ⟨traffic, decoded, rfl⟩
      exact Traffic.fits_of_decode (Nat.le_of_succ_le short) decoded
    · rcases exists_ok_of_toOption found with ⟨_, _, rfl⟩
      trivial
    · rcases exists_ok_of_toOption found with ⟨notify, decoded, rfl⟩
      exact PathNotify.fits_of_decode decoded
    · rcases exists_ok_of_toOption found with ⟨_, _, rfl⟩
      trivial
    · rcases exists_ok_of_toOption found with ⟨punch, decoded, rfl⟩
      exact HolePunch.fits_of_decode decoded
    · rcases exists_ok_of_toOption found with ⟨packet, decoded, rfl⟩
      exact OnionPacket.fits_of_decode decoded
    · rcases Option.map_eq_some_iff.mp found with ⟨_, _, rfl⟩
      trivial

end Norn.Router
