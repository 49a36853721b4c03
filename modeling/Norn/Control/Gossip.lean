import Norn.Control.State
import Norn.Cuckoo.Filter

/-!
# What routers tell each other about others

The tables a router fills from the frames of its peers: the cuckoo filters
with the tags reachable through a peer, the onion keys of other routers, and
the reputation of peers.  Onion keys and reputation reports are flooded: a
router that sees a record for the first time hands it on to its other peers.
-/

namespace Norn.Control

open Foundation Packet Router Session

variable {P : Primitives} {C : Crates} {L : FilterOps}

/-- A tick at which something periodic is due. -/
def ControlState.everyTicks (interval : UInt32)
    (self : ControlState P C L) : Bool :=
  self.tick % interval = 0 && 0 < self.tick

/-- A record is neither too old nor too far in the future. -/
def withinWindow (nowMs validFromMs validityMs : UInt64) : Bool :=
  saturatingSub nowMs validFromMs ≤ validityMs &&
    validFromMs ≤ saturatingAdd nowMs futureSkewMs

/-! ## Filters -/

/-- `CuckooFilter`, with the hash it is built on. -/
def cuckooFilters (hash : Cuckoo.Blake2b64) : FilterOps where
  Filter := Cuckoo.CuckooFilter
  Wire := Bytes Cuckoo.filterBytes
  AddDraws := Cuckoo.Draws
  MergeDraws := Cuckoo.MergeDraws
  new := Cuckoo.CuckooFilter.new
  add draws filter tag := (filter.add hash draws tag.toList).1
  merge draws filter other := filter.merge hash draws other
  contains filter tag := filter.contains hash tag.toList
  encode := Cuckoo.CuckooFilter.encode
  decode := Cuckoo.CuckooFilter.decode

namespace ControlState

/-- The generation advances every `CUCKOO_GEN_TICKS` ticks. -/
def advanceGeneration (self : ControlState P C L)
    (tree : Fin treeCount) : ControlState P C L :=
  if self.everyTicks cuckooGenTicks then
    { self with
      cuckooGeneration := fun other =>
        if other = tree then self.cuckooGeneration tree + 1
        else self.cuckooGeneration other }
  else
    self

/-- One round of the loop that merges the filters of the peers. -/
def mergeStep (self : ControlState P C L) (env : ControlEnv L)
    (tree : Fin treeCount) (merged : L.Filter)
    (entry : Bytes 32 × Peer C L) : L.Filter :=
  if some entry.1 = (self.trees tree).parent then
    merged
  else
    L.merge (env.mergeDraws tree entry.1) merged (entry.2.cuckoo tree)

/-- The own tag and the filters of all peers but the parent. -/
def mergedFilter (self : ControlState P C L) (env : ControlEnv L)
    (tree : Fin treeCount) : L.Filter :=
  (self.peerEntries env).foldl (self.mergeStep env tree)
    (L.add (env.addDraws tree) L.new (routingTag P self.pubKey))

/-- The same with the filter of the parent. -/
def fullMerged (self : ControlState P C L) (env : ControlEnv L)
    (tree : Fin treeCount) : L.Filter :=
  let merged := self.mergedFilter env tree
  match (self.trees tree).parent with
  | none => merged
  | some parentKey =>
    match self.peers.lookup parentKey with
    | none => merged
    | some peer =>
      L.merge (env.mergeDraws tree parentKey) merged (peer.cuckoo tree)

/-- A filter as a message. -/
def cuckooMsg (self : ControlState P C L) (tree : Fin treeCount)
    (filter : L.Filter) : ControlFrame L :=
  .cuckoo
    { treeId := UInt8.ofNat tree.val
      generation := self.cuckooGeneration tree
      data := L.encode filter }

/-- The filter for the parent. -/
def sendUpstream (self : ControlState P C L) (env : ControlEnv L)
    (tree : Fin treeCount) : Sent L :=
  match (self.trees tree).parent with
  | none => []
  | some parentKey =>
    self.sendToPeer parentKey (self.cuckooMsg tree (self.mergedFilter env tree))

/-- The filter for all other peers. -/
def sendDownstream (self : ControlState P C L) (env : ControlEnv L)
    (tree : Fin treeCount) : Sent L :=
  ((self.peerKeys env).filter fun peer =>
      some peer ≠ (self.trees tree).parent).map fun peer =>
    (peer, self.cuckooMsg tree (self.fullMerged env tree))

/-- `cuckoo_do_maintenance`. -/
def cuckooDoMaintenance (env : ControlEnv L) (tree : Fin treeCount) :
    Phase P C L :=
  fun self =>
    let advanced := self.advanceGeneration tree
    (advanced,
      advanced.sendUpstream env tree ++ advanced.sendDownstream env tree)

end ControlState

/-- The entry of a peer with a new filter. -/
def Peer.setFilter (tree : Fin treeCount) (now : Instant)
    (msg : CuckooMsg L) (peer : Peer C L) : Peer C L :=
  { peer with
    lastRxTime := now
    peerCuckooGen := fun other =>
      if other = tree ∧ peer.peerCuckooGen tree < msg.generation then
        msg.generation
      else
        peer.peerCuckooGen other
    cuckoo := fun other =>
      if other = tree then L.decode msg.data else peer.cuckoo other }

namespace ControlState

/-- `handle_cuckoo`. -/
def handleCuckoo (self : ControlState P C L) (env : ControlEnv L)
    (fromPeer : Bytes 32) (msg : CuckooMsg L) : ControlState P C L :=
  match treeIndex msg.treeId with
  | none => self
  | some tree => self.onPeer fromPeer (Peer.setFilter tree env.now msg)

/-- The entry a full table gives up: one that is not about a peer. -/
def victim (self : ControlState P C L) (env : ControlEnv L)
    (keys : List (Bytes 32)) : Option (Bytes 32) :=
  (env.tableOrder.arrange keys).find? fun key =>
    (self.peers.lookup key).isNone && key ≠ self.pubKey

/-- `record_remote_onion_key`. -/
def recordRemoteOnionKey (self : ControlState P C L)
    (env : ControlEnv L) (origin : Bytes 32) (seq : UInt64)
    (eph : Bytes 32) : ControlState P C L :=
  let record := (seq, eph, env.now)
  if (self.remoteOnionKeys.lookup origin).isNone &&
      maxRemoteOnionKeys ≤ self.remoteOnionKeys.keys.length then
    match self.victim env self.remoteOnionKeys.keys with
    | none => self
    | some key =>
      { self with
        remoteOnionKeys :=
          (self.remoteOnionKeys.erase key).insert origin record }
  else
    { self with
      remoteOnionKeys := self.remoteOnionKeys.insert origin record }

/-- The announcement of the own onion key, before it is signed. -/
def unsignedOnionKey (self : ControlState P C L) (env : ControlEnv L) :
    OnionKeyAnnounce where
  origin := self.pubKey
  seq := self.ownOnionKeySeq
  validFromMs := env.nowMs
  onionEphPub := self.onionEphPub
  sig := Bytes.replicate 64 0

/-- `broadcast_onion_key_announce`. -/
def broadcastOnionKeyAnnounce (env : ControlEnv L) : Phase P C L :=
  fun self =>
    let numbered :=
      { self with ownOnionKeySeq := self.ownOnionKeySeq + 1 }
    let unsigned := numbered.unsignedOnionKey env
    let ann :=
      { unsigned with sig := P.edSign self.signingKey unsigned.signBytes }
    ({ numbered with
        remoteOnionKeys :=
          self.remoteOnionKeys.insert self.pubKey
            (numbered.ownOnionKeySeq, self.onionEphPub, env.now) },
      self.sendToAll env (.onionKeyAnnounce ann))

/-- `rotate_onion_keys_if_due`, at a tick at which it is. -/
def rotateOnionKeys (env : ControlEnv L) : Phase P C L :=
  fun self =>
    broadcastOnionKeyAnnounce env
      { self with onionEphPub := env.newOnionPub }

/-- The checks of `handle_onion_key_announce`. -/
def acceptsOnionKey (self : ControlState P C L) (env : ControlEnv L)
    (ann : OnionKeyAnnounce) : Bool :=
  ann.origin ≠ self.pubKey && P.isVerifyingKey ann.origin &&
    P.verifyStrict ann.origin ann.signBytes ann.sig &&
    withinWindow env.nowMs ann.validFromMs onionKeyValidityMs &&
    match self.remoteOnionKeys.lookup ann.origin with
    | some (previous, _, _) => previous < ann.seq
    | none => true

/-- `handle_onion_key_announce`. -/
def handleOnionKeyAnnounce (self : ControlState P C L)
    (env : ControlEnv L) (fromPeer : Bytes 32)
    (ann : OnionKeyAnnounce) : ControlState P C L × Sent L :=
  if self.acceptsOnionKey env ann then
    (self.recordRemoteOnionKey env ann.origin ann.seq ann.onionEphPub,
      self.sendToOthers env fromPeer (.onionKeyAnnounce ann))
  else
    (self, [])

/-- The observations stored about one peer. -/
def observations (self : ControlState P C L) (observed : Bytes 32) :
    Bucket C :=
  (self.reputation.lookup observed).getD .empty

/-- The number of stored observations. -/
def totalObservations (self : ControlState P C L) : Nat :=
  (self.reputation.entries.map fun entry => entry.2.keys.length).sum

/-- Store one observation. -/
def putObservation (self : ControlState P C L)
    (observer observed : Bytes 32) (record : ReputationEntry C) :
    ControlState P C L :=
  { self with
    reputation :=
      self.reputation.insert observed
        ((self.observations observed).insert observer record) }

/-- `record_reputation`. -/
def recordReputation (self : ControlState P C L) (env : ControlEnv L)
    (observer observed : Bytes 32) (record : ReputationEntry C) :
    ControlState P C L :=
  if maxReputationObservations ≤ self.totalObservations &&
      (self.reputation.lookup observed).isNone then
    match self.victim env self.reputation.keys with
    | none => self
    | some key =>
      ({ self with reputation := self.reputation.erase key }
        ).putObservation observer observed record
  else
    self.putObservation observer observed record

/-- A report about a peer, before it is signed. -/
def unsignedReport (self : ControlState P C L) (env : ControlEnv L)
    (observed : Bytes 32) (trust : C.F32) : ReputationReport where
  observer := self.pubKey
  observed := observed
  scoreQ16 := C.quantise trust
  seq := self.ownReputationSeq
  validFromMs := env.nowMs
  sig := Bytes.replicate 64 0

/-- One round of the loop of `broadcast_reputation`. -/
def reportOn (env : ControlEnv L) (observed : Bytes 32)
    (trust : C.F32) : Phase P C L :=
  fun self =>
    let numbered :=
      { self with ownReputationSeq := self.ownReputationSeq + 1 }
    let unsigned := numbered.unsignedReport env observed trust
    let report :=
      { unsigned with sig := P.edSign self.signingKey unsigned.signBytes }
    (numbered.recordReputation env report.observer observed
        (report.seq, C.reportScore report.scoreQ16, env.now),
      self.sendToAll env (.reputationReport report))

/-- `broadcast_reputation`. -/
def broadcastReputation (env : ControlEnv L) : Phase P C L :=
  fun self =>
    Phase.inOrder
      ((self.peerEntries env).map fun entry =>
        reportOn env entry.1 entry.2.trust)
      self

/-- The checks of `handle_reputation_report`. -/
def acceptsReport (self : ControlState P C L) (env : ControlEnv L)
    (report : ReputationReport) : Bool :=
  report.observer ≠ report.observed && report.observer ≠ self.pubKey &&
    P.isVerifyingKey report.observer &&
    P.verifyStrict report.observer report.signBytes report.sig &&
    withinWindow env.nowMs report.validFromMs reputationValidityMs &&
    match (self.observations report.observed).lookup report.observer with
    | some (previous, _, _) => previous < report.seq
    | none => true

/-- `handle_reputation_report`. -/
def handleReputationReport (self : ControlState P C L)
    (env : ControlEnv L) (fromPeer : Bytes 32)
    (report : ReputationReport) : ControlState P C L × Sent L :=
  if self.acceptsReport env report then
    (self.recordReputation env report.observer report.observed
        (report.seq, C.reportScore report.scoreQ16, env.now),
      self.sendToOthers env fromPeer (.reputationReport report))
  else
    (self, [])

end ControlState

end Norn.Control
