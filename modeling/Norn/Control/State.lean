import Norn.Foundation.KeyedMap
import Norn.Packet.Frames
import Norn.Router.Lookup

/-!
# The control plane of a router

The part of `RouterState` that the control frames and `do_maintenance` work
on: the peers with their measurements, filters and tree announcements, the
three spanning trees, the probes, and the tables filled by gossip.

The cuckoo filter is a parameter, so that the gossip of filters can be studied
with the filter of the code and with exact sets.  Floating-point operations
and BLAKE2b come from other crates and are parameters too.  Hash maps are lists
of entries; a loop over one of them visits the keys in an order that is an
argument of the call.
-/

namespace Norn.Control

open Foundation Packet Router Session

/-- The operations the control plane takes from other crates. -/
structure Crates extends Floats where
  /-- `TRUST_INITIAL`. -/
  trustInitial : F32
  /-- `decay_trust`. -/
  decayTrust : F32 → F32
  /-- The loss rate of a new peer. -/
  lossInitial : F32
  /-- The loss rate after an answered ping. -/
  lossOnReply : F32 → F32
  /-- The loss rate after a ping without an answer. -/
  lossOnSilence : F32 → F32
  /-- `effective_cost`, on a lag in microseconds and a loss rate. -/
  effectiveCost : Nat → F32 → UInt64
  /-- A trust as the 16 bits of a report. -/
  quantise : F32 → UInt16
  /-- `ReputationReport::score`. -/
  reportScore : UInt16 → F32
  /-- An announced coordinate is finite. -/
  coordFinite : Bytes 16 → Bool
  /-- The radius of a coordinate is that of a depth, for a key. -/
  rhoFits : Bytes 16 → UInt32 → Bytes 32 → Bool
  /-- `Blake2b` with a digest of 32 bytes. -/
  blake2b256 : List UInt8 → Bytes 32

/-- A filter of routing tags, as the gossip uses it. -/
structure FilterOps where
  Filter : Type
  /-- What a filter looks like in a message. -/
  Wire : Type
  /-- The random choices of one `add`. -/
  AddDraws : Type
  /-- The random choices of one `merge`. -/
  MergeDraws : Type
  new : Filter
  add : AddDraws → Filter → Bytes 16 → Filter
  merge : MergeDraws → Filter → Filter → Filter
  contains : Filter → Bytes 16 → Bool
  encode : Filter → Wire
  decode : Wire → Filter

/-! ## Constants -/

/-- Nanoseconds of a number of seconds. -/
def seconds (count : Nat) : Instant := count * 1000000000

/-- `ANNOUNCE_EXPIRY`. -/
def announceExpiry : Instant := seconds 30

/-- `CONTROL_MIN_INTERVAL`. -/
def controlMinInterval : UInt32 := 1

/-- `CONTROL_MAX_INTERVAL`. -/
def controlMaxInterval : UInt32 := 8

/-- `PARENT_SWITCH_MARGIN_US`. -/
def parentSwitchMarginUs : UInt64 := 1000

/-- `KEEPALIVE_TICKS`. -/
def keepaliveTicks : UInt32 := 5

/-- `PEER_TIMEOUT`. -/
def peerTimeout : Instant := seconds 60

/-- `CUCKOO_GEN_TICKS`. -/
def cuckooGenTicks : UInt32 := 300

/-- `MAX_PENDING_LOOKUPS`. -/
def maxPendingLookups : Nat := 10000

/-- `ONION_KEY_ROTATION_TICKS`. -/
def onionKeyRotationTicks : UInt32 := 3600

/-- `REPUTATION_REPORT_TICKS`. -/
def reputationReportTicks : UInt32 := 60

/-- `REPUTATION_VALIDITY_MS`. -/
def reputationValidityMs : UInt64 := 60 * 60 * 1000

/-- `MAX_REPUTATION_OBSERVATIONS`. -/
def maxReputationObservations : Nat := 16384

/-- `ONION_KEY_ANNOUNCE_TICKS`. -/
def onionKeyAnnounceTicks : UInt32 := 300

/-- `ONION_KEY_VALIDITY_MS`. -/
def onionKeyValidityMs : UInt64 := 24 * 60 * 60 * 1000

/-- `MAX_REMOTE_ONION_KEYS`. -/
def maxRemoteOnionKeys : Nat := 16384

/-- `PROBE_INTERVAL_TICKS`. -/
def probeIntervalTicks : UInt32 := 15

/-- `PROBE_TIMEOUT`. -/
def probeTimeout : Instant := seconds 10

/-- How long a seen `PathLookup` is remembered. -/
def lookupTimeout : Instant := seconds 10

/-- How far in the future the time of a gossiped record may lie. -/
def futureSkewMs : UInt64 := 60000

/-- `SigReq`. -/
structure SigReq where
  treeId : UInt8
  seq : UInt64
  timestampMs : UInt64
  pubKey : Bytes 32
  deriving DecidableEq

/-- `SigRes`. -/
structure SigRes where
  treeId : UInt8
  seq : UInt64
  timestampMs : UInt64
  signature : Bytes 64
  pubKey : Bytes 32
  deriving DecidableEq

/-- `CuckooMsg`. -/
structure CuckooMsg (L : FilterOps) where
  treeId : UInt8
  generation : UInt64
  data : L.Wire

/-- `PathLookup`. -/
structure PathLookup where
  target : Bytes 32
  source : Bytes 32
  id : UInt64
  path : List UInt64
  deriving DecidableEq

/-- The frames that touch the control plane. -/
inductive ControlFrame (L : FilterOps) where
  /-- Also any other frame that is only noted as a sign of life. -/
  | keepAlive
  | sigReq (req : SigReq)
  | sigRes (res : SigRes)
  | announce (ann : Announce)
  | coordAnnounce (ann : CoordAnnounce)
  | cuckoo (msg : CuckooMsg L)
  | pathLookup (lookup : PathLookup)
  | pathNotify (notify : PathNotify)
  | onionKeyAnnounce (ann : OnionKeyAnnounce)
  | reputationReport (report : ReputationReport)

/-- Frames handed to the links of peers. -/
abbrev Sent (L : FilterOps) := List (Bytes 32 × ControlFrame L)

/-! ## State -/

/-- `TreeAnnounce`. -/
structure TreeAnnounce where
  root : Bytes 32
  pathCost : UInt64
  receivedAt : Instant
  depth : UInt32
  deriving DecidableEq

/-- `TreeState`. -/
structure TreeState where
  parent : Option (Bytes 32)
  root : Bytes 32
  rootSeq : UInt64
  parentCost : UInt64
  deriving DecidableEq

/-- `PeerData`; durations are in microseconds. -/
structure Peer (C : Crates) (L : FilterOps) where
  lag : Nat
  jitter : Nat
  lossRate : C.F32
  lastRxTime : Instant
  cuckoo : Fin treeCount → L.Filter
  peerCuckooGen : Fin treeCount → UInt64
  trees : Fin treeCount → Option TreeAnnounce
  pendingSigReqTime : Option (UInt64 × Instant)
  sigReqSeq : UInt64
  trust : C.F32

/-- The entry that `add_peer` makes. -/
def Peer.new {C : Crates} {L : FilterOps} (now : Instant) : Peer C L where
  lag := 100000
  jitter := 0
  lossRate := C.lossInitial
  lastRxTime := now
  cuckoo _ := L.new
  peerCuckooGen _ := 0
  trees _ := none
  pendingSigReqTime := none
  sigReqSeq := 0
  trust := C.trustInitial

/-- `PeerData::effective_cost`. -/
def Peer.effectiveCost {C : Crates} {L : FilterOps} (peer : Peer C L) :
    UInt64 :=
  C.effectiveCost peer.lag peer.lossRate

/-- A peer claims a tag in one of its filters. -/
def Peer.claims {C : Crates} {L : FilterOps} (peer : Peer C L)
    (tag : Bytes 16) : Bool :=
  (List.finRange treeCount).any fun tree =>
    L.contains (peer.cuckoo tree) tag

/-- `ControlDigest`. -/
structure ControlDigest where
  trees : List (Bytes 32 × UInt64 × Option (Bytes 32))
  ownDepth : UInt32
  onionEphPub : Bytes 32
  peerCount : Nat
  deriving DecidableEq

/-- `ReputationEntry`. -/
abbrev ReputationEntry (C : Crates) := UInt64 × C.F32 × Instant

/-- The observations about one peer, by observer. -/
abbrev Bucket (C : Crates) := KeyedMap (Bytes 32) (ReputationEntry C)

/-- The part of `RouterState` that belongs to the control plane. -/
structure ControlState (P : Primitives) (C : Crates) (L : FilterOps) where
  signingKey : P.SigningKey
  peers : KeyedMap (Bytes 32) (Peer C L)
  trees : Fin treeCount → TreeState
  landmarks : List (Bytes 32)
  pendingLookups : KeyedMap UInt64 Instant
  ownDepth : UInt32
  tick : UInt32
  cuckooGeneration : Fin treeCount → UInt64
  /-- The public half of the current onion key. -/
  onionEphPub : Bytes 32
  remoteOnionKeys : KeyedMap (Bytes 32) (UInt64 × Bytes 32 × Instant)
  ownOnionKeySeq : UInt64
  pendingProbes : KeyedMap UInt64 (Bytes 32 × Instant)
  reputation : KeyedMap (Bytes 32) (Bucket C)
  ownReputationSeq : UInt64
  lastControlDigest : Option ControlDigest
  lastControlTick : UInt32
  controlInterval : UInt32
  lastTopologyChangeTick : UInt32

/-- What a call of the control plane reads from its surroundings. -/
structure ControlEnv (L : FilterOps) where
  now : Instant
  /-- The system clock, in milliseconds. -/
  nowMs : UInt64
  /-- The order of the loops over the peers. -/
  order : IterationOrder
  /-- The order of the searches through the other tables. -/
  tableOrder : IterationOrder
  addDraws : Fin treeCount → L.AddDraws
  mergeDraws : Fin treeCount → Bytes 32 → L.MergeDraws
  /-- Which of the candidates is probed. -/
  probePick : Nat
  probeId : UInt64
  /-- The next onion key. -/
  newOnionPub : Bytes 32
  /-- `own_coord`, which `update_own_coord` has computed. -/
  ownCoord : Bytes 16
  /-- What `lookup` answers; it also reads coordinates and hints. -/
  nextHop : Bytes 32 → Option (Bytes 32)

/-- A tree number that came over the wire. -/
def treeIndex (treeId : UInt8) : Option (Fin treeCount) :=
  if small : treeId.toNat < treeCount then some ⟨treeId.toNat, small⟩
  else none

namespace ControlState

variable {P : Primitives} {C : Crates} {L : FilterOps}

/-- `RouterState::pub_key`. -/
def pubKey (self : ControlState P C L) : Bytes 32 :=
  P.verifyingKey self.signingKey

/-- `RouterState::new`. -/
def new (signingKey : P.SigningKey) (onionEphPub : Bytes 32) :
    ControlState P C L where
  signingKey := signingKey
  peers := .empty
  trees _ :=
    { parent := none
      root := P.verifyingKey signingKey
      rootSeq := 0
      parentCost := 0 }
  landmarks := []
  pendingLookups := .empty
  ownDepth := 0
  tick := 0
  cuckooGeneration _ := 0
  onionEphPub := onionEphPub
  remoteOnionKeys := .empty
  ownOnionKeySeq := 0
  pendingProbes := .empty
  reputation := .empty
  ownReputationSeq := 0
  lastControlDigest := none
  lastControlTick := 0
  controlInterval := controlMinInterval
  lastTopologyChangeTick := 0

/-- The keys of the peers in the order of a loop. -/
def peerKeys (self : ControlState P C L) (env : ControlEnv L) :
    List (Bytes 32) :=
  env.order.arrange self.peers.keys

/-- The entries of the peers in the order of a loop. -/
def peerEntries (self : ControlState P C L) (env : ControlEnv L) :
    List (Bytes 32 × Peer C L) :=
  (self.peerKeys env).filterMap fun key =>
    (self.peers.lookup key).map fun peer => (key, peer)

/-- `send_to_peer`; frames for strangers are dropped. -/
def sendToPeer (self : ControlState P C L) (peer : Bytes 32)
    (frame : ControlFrame L) : Sent L :=
  if (self.peers.lookup peer).isSome then [(peer, frame)] else []

/-- The same frame for every peer. -/
def sendToAll (self : ControlState P C L) (env : ControlEnv L)
    (frame : ControlFrame L) : Sent L :=
  (self.peerKeys env).map fun peer => (peer, frame)

/-- The same frame for every peer but one. -/
def sendToOthers (self : ControlState P C L) (env : ControlEnv L)
    (fromPeer : Bytes 32) (frame : ControlFrame L) : Sent L :=
  ((self.peerKeys env).filter fun peer => peer ≠ fromPeer).map
    fun peer => (peer, frame)

/-- Change the entry of a peer, if it has one. -/
def onPeer (self : ControlState P C L) (key : Bytes 32)
    (change : Peer C L → Peer C L) : ControlState P C L :=
  { self with peers := self.peers.modify key change }

/-- A frame has arrived from a peer. -/
def touch (self : ControlState P C L) (key : Bytes 32) (now : Instant) :
    ControlState P C L :=
  self.onPeer key fun peer => { peer with lastRxTime := now }

/-- `update_landmarks`. -/
def updateLandmarks (self : ControlState P C L) : ControlState P C L :=
  let own := if 2 < self.peers.keys.length then [self.pubKey] else []
  let close :=
    self.peers.entries.filter fun entry =>
      (List.finRange treeCount).any fun tree =>
        match entry.2.trees tree with
        | some ann => ann.depth ≤ 1
        | none => false
  { self with landmarks := (own ++ close.map Prod.fst).dedup }

/-- `add_peer`, for the control plane: a known peer stays as it is. -/
def addPeer (self : ControlState P C L) (env : ControlEnv L)
    (key : Bytes 32) : ControlState P C L :=
  match self.peers.lookup key with
  | some _ => self
  | none =>
    updateLandmarks
      { self with peers := self.peers.insert key (Peer.new env.now) }

/-- A tree without the parent that has left. -/
def dropParent (self : ControlState P C L) (key : Bytes 32)
    (tree : TreeState) : TreeState :=
  if tree.parent = some key then
    { tree with parent := none, root := self.pubKey, parentCost := 0 }
  else
    tree

/-- `remove_peer`, for the control plane. -/
def removePeer (self : ControlState P C L) (key : Bytes 32) :
    ControlState P C L :=
  let removed := updateLandmarks { self with peers := self.peers.erase key }
  { removed with
    trees := fun tree => self.dropParent key (self.trees tree) }

/-- The peers that `expire_peers` removes. -/
def expired (self : ControlState P C L) (env : ControlEnv L) :
    List (Bytes 32) :=
  ((self.peerEntries env).filter fun entry =>
    peerTimeout < env.now - entry.2.lastRxTime).map Prod.fst

/-- `expire_peers`. -/
def expirePeers (self : ControlState P C L) (env : ControlEnv L) :
    ControlState P C L :=
  (self.expired env).foldl removePeer self

end ControlState

/-- A part of a call: it changes the state and sends frames. -/
abbrev Phase (P : Primitives) (C : Crates) (L : FilterOps) :=
  ControlState P C L → ControlState P C L × Sent L

namespace Phase

variable {P : Primitives} {C : Crates} {L : FilterOps}

/-- A phase that sends nothing. -/
def quietly (change : ControlState P C L → ControlState P C L) :
    Phase P C L :=
  fun self => (change self, [])

/-- One phase after the other. -/
def inOrder : List (Phase P C L) → Phase P C L
  | [], self => (self, [])
  | phase :: rest, self =>
    let first := phase self
    let others := inOrder rest first.1
    (others.1, first.2 ++ others.2)

/-- A phase that is only due when a condition holds. -/
def onlyWhen (due : ControlState P C L → Bool) (phase : Phase P C L) :
    Phase P C L :=
  fun self => if due self then phase self else (self, [])

theorem inOrder_invariant {kept : ControlState P C L → Prop}
    {phases : List (Phase P C L)}
    (each : ∀ phase ∈ phases, ∀ self, kept self → kept (phase self).1)
    {self : ControlState P C L} (before : kept self) :
    kept (inOrder phases self).1 := by
  induction phases generalizing self with
  | nil => exact before
  | cons phase rest induction =>
    apply induction
    · intro later member
      exact each later (List.mem_cons_of_mem _ member)
    · exact each phase List.mem_cons_self self before

theorem inOrder_append (first second : List (Phase P C L))
    (self : ControlState P C L) :
    inOrder (first ++ second) self =
      ((inOrder second (inOrder first self).1).1,
        (inOrder first self).2 ++
          (inOrder second (inOrder first self).1).2) := by
  induction first generalizing self with
  | nil => rfl
  | cons phase rest induction =>
    simp only [List.cons_append, inOrder, induction, List.append_assoc]

end Phase

end Norn.Control
