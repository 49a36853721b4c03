import Norn.Control.Gossip

/-!
# Pings and path probes

A router measures its links with signed pings (`SigReq` and `SigRes`), and it
tests what its peers claim: every few ticks it sends a `PathLookup` through
one peer for a target that this peer claims to reach.  Whatever is measured
goes into the loss rate and the trust of the peer.
-/

namespace Norn.Control

open Foundation Packet Router Session

variable {P : Primitives} {C : Crates} {L : FilterOps}

/-! ## Pings -/

/-- The entry of a peer once a ping has been sent. -/
def Peer.pinged (now : Instant) (peer : Peer C L) : Peer C L :=
  let judged :=
    if peer.pendingSigReqTime.isSome then
      { peer with
        lossRate := C.lossOnSilence peer.lossRate
        trust := C.decayTrust peer.trust }
    else
      peer
  { judged with
    sigReqSeq := peer.sigReqSeq + 1
    pendingSigReqTime := some (peer.sigReqSeq + 1, now) }

/-- Microseconds of a span of time. -/
def micros (span : Instant) : Nat := span / 1000

/-- The distance of two numbers. -/
def absDiff (first second : Nat) : Nat := (first - second) + (second - first)

/-- The measurements of a peer after an answer to the pending ping. -/
def Peer.measured (rtt : Instant) (peer : Peer C L) : Peer C L :=
  let newLag := micros (rtt / 2)
  { peer with
    jitter := peer.jitter * 7 / 8 + absDiff newLag peer.lag / 8
    lag := peer.lag * 7 / 8 + newLag / 8
    lossRate := C.lossOnReply peer.lossRate
    trust := C.boostTrust peer.trust }

/-- The entry of a peer after an answer to a ping. -/
def Peer.answered (now : Instant) (seq : UInt64) (peer : Peer C L) :
    Peer C L :=
  let heard :=
    { peer with lastRxTime := now, pendingSigReqTime := none }
  match peer.pendingSigReqTime with
  | none => heard
  | some (pendingSeq, sentTime) =>
    if pendingSeq = seq then heard.measured (now - sentTime) else heard

/-- The signature of an answer verifies under the key it names. -/
def sigResVerified (P : Primitives) (pubKey : Bytes 32) (res : SigRes) : Bool :=
  P.isVerifyingKey res.pubKey &&
    P.verifyStrict res.pubKey
      (sigResSignData res.treeId res.seq res.timestampMs pubKey)
      res.signature

namespace ControlState

/-- A ping for a peer. -/
def sigReq (self : ControlState P C L) (env : ControlEnv L)
    (peer : Peer C L) : SigReq where
  treeId := 0
  seq := peer.sigReqSeq + 1
  timestampMs := env.nowMs
  pubKey := self.pubKey

/-- `send_keepalives`. -/
def sendKeepalives (env : ControlEnv L) : Phase P C L :=
  fun self =>
    ({ self with
        peers := self.peers.mapValues fun _ peer => peer.pinged env.now },
      (self.peerEntries env).map fun entry =>
        (entry.1, .sigReq (self.sigReq env entry.2)))

/-- The answer to a ping. -/
def sigResFor (self : ControlState P C L) (env : ControlEnv L)
    (req : SigReq) : SigRes where
  treeId := req.treeId
  seq := req.seq
  timestampMs := env.nowMs
  signature :=
    P.edSign self.signingKey
      (sigResSignData req.treeId req.seq env.nowMs req.pubKey)
  pubKey := self.pubKey

/-- `handle_sig_req`. -/
def handleSigReq (self : ControlState P C L) (env : ControlEnv L)
    (fromPeer : Bytes 32) (req : SigReq) :
    ControlState P C L × Sent L :=
  let touched := self.touch fromPeer env.now
  (touched, touched.sendToPeer fromPeer (.sigRes (self.sigResFor env req)))

/-- `handle_sig_res`. -/
def handleSigRes (self : ControlState P C L) (env : ControlEnv L)
    (fromPeer : Bytes 32) (res : SigRes) : ControlState P C L :=
  if sigResVerified P self.pubKey res then
    self.onPeer fromPeer (Peer.answered env.now res.seq)
  else
    self

/-! ## Probes -/

/-- The routers a probe may ask for. -/
def knownIdentities (self : ControlState P C L) (env : ControlEnv L) :
    List (Bytes 32) :=
  (self.peerKeys env ++ env.tableOrder.arrange self.remoteOnionKeys.keys).filter
    fun identity => identity ≠ self.pubKey

/-- The pairs of a peer and a target that it claims to reach. -/
def probeCandidates (self : ControlState P C L) (env : ControlEnv L) :
    List (Bytes 32 × Bytes 32) :=
  (self.peerEntries env).flatMap fun entry =>
    ((self.knownIdentities env).filter fun target =>
        target ≠ entry.1 && entry.2.claims (routingTag P target)).map
      fun target => (entry.1, target)

/-- The candidate that is probed. -/
def probeChoice (self : ControlState P C L) (env : ControlEnv L) :
    Option (Bytes 32 × Bytes 32) :=
  let candidates := self.probeCandidates env
  candidates.drop (env.probePick % candidates.length) |>.head?

/-- The lookup that a probe sends. -/
def probeLookup (self : ControlState P C L) (env : ControlEnv L)
    (target : Bytes 32) : PathLookup where
  target := target
  source := self.pubKey
  id := env.probeId
  path := []

/-- `probe_cuckoo_claim`. -/
def probeCuckooClaim (env : ControlEnv L) : Phase P C L :=
  fun self =>
    match self.probeChoice env with
    | none => (self, [])
    | some (via, target) =>
      ({ self with
          pendingProbes :=
            self.pendingProbes.insert env.probeId (via, env.now) },
        self.sendToPeer via (.pathLookup (self.probeLookup env target)))

/-- `decay_trust` on the entry of a peer. -/
def decayTrust (self : ControlState P C L) (via : Bytes 32) :
    ControlState P C L :=
  self.onPeer via fun peer =>
    { peer with trust := C.decayTrust peer.trust }

/-- `boost_trust` on the entry of a peer. -/
def boostTrust (self : ControlState P C L) (via : Bytes 32) :
    ControlState P C L :=
  self.onPeer via fun peer =>
    { peer with trust := C.boostTrust peer.trust }

/-- A depth is far from the one a peer has announced in the first tree. -/
def depthDiffers (self : ControlState P C L) (fromPeer : Bytes 32)
    (depth : UInt32) : Bool :=
  match (self.peers.lookup fromPeer).bind fun peer =>
      peer.trees ⟨0, treeCount_pos⟩ with
  | none => false
  | some ann => 2 < absDiff ann.depth.toNat depth.toNat

/-- `handle_coord_announce`, for the control plane. -/
def handleCoordAnnounce (self : ControlState P C L)
    (fromPeer : Bytes 32) (ann : CoordAnnounce) : ControlState P C L :=
  if P.isVerifyingKey fromPeer &&
      P.verifyStrict fromPeer ann.signBytes ann.sig &&
      C.coordFinite ann.coord &&
      (!C.rhoFits ann.coord ann.treeDepth fromPeer ||
        self.depthDiffers fromPeer ann.treeDepth) then
    self.decayTrust fromPeer
  else
    self

/-- A probe that has waited too long. -/
def probeExpired (now : Instant) (entry : UInt64 × Bytes 32 × Instant) : Bool :=
  probeTimeout < now - entry.2.2

/-- One round of the loop of `cleanup_stale_probes`. -/
def dropProbe (self : ControlState P C L)
    (entry : UInt64 × Bytes 32 × Instant) : ControlState P C L :=
  ({ self with
    pendingProbes := self.pendingProbes.erase entry.1 }).decayTrust entry.2.1

/-- `cleanup_stale_probes`. -/
def cleanupStaleProbes (self : ControlState P C L)
    (env : ControlEnv L) : ControlState P C L :=
  (self.pendingProbes.entries.filter (probeExpired env.now)).foldl
    dropProbe self

/-- `cleanup_stale_lookups`. -/
def cleanupStaleLookups (self : ControlState P C L)
    (env : ControlEnv L) : ControlState P C L :=
  let stale :=
    self.pendingLookups.entries.filter fun entry =>
      lookupTimeout ≤ env.now - entry.2
  { self with
    pendingLookups :=
      stale.foldl (fun kept entry => kept.erase entry.1) self.pendingLookups }

/-- The cheapest peer that claims a tag. -/
def bestClaimant (self : ControlState P C L) (env : ControlEnv L)
    (tag : Bytes 16) : Option (Bytes 32) :=
  (((self.peerEntries env).filter fun entry => entry.2.claims tag).foldl
    (fun best entry =>
      RoutingState.improve best entry.1 entry.2.effectiveCost)
    none).map Prod.fst

/-- Where a lookup goes from here. -/
def forwardLookup (self : ControlState P C L) (env : ControlEnv L)
    (fromPeer : Bytes 32) (lookup : PathLookup) : Sent L :=
  match self.bestClaimant env (routingTag P lookup.target) with
  | some best =>
    self.sendToPeer best
      (.pathLookup { lookup with path := lookup.path ++ [0] })
  | none =>
    if self.landmarks = [] then
      self.sendToOthers env fromPeer (.pathLookup lookup)
    else
      (self.landmarks.filter fun landmark => landmark ≠ fromPeer).flatMap
        fun landmark => self.sendToPeer landmark (.pathLookup lookup)

/-- `handle_path_lookup`. -/
def handlePathLookup (self : ControlState P C L) (env : ControlEnv L)
    (fromPeer : Bytes 32) (lookup : PathLookup) :
    ControlState P C L × Sent L :=
  if (self.pendingLookups.lookup lookup.id).isSome ||
      maxPendingLookups ≤ self.pendingLookups.keys.length then
    (self, [])
  else
    let noted :=
      { self with
        pendingLookups := self.pendingLookups.insert lookup.id env.now }
    if lookup.target = self.pubKey then
      (noted,
        noted.sendToPeer fromPeer
          (.pathNotify
            { target := self.pubKey
              source := lookup.source
              id := lookup.id
              path := lookup.path }))
    else
      (noted, noted.forwardLookup env fromPeer lookup)

/-- A reply to a probe boosts the peer the probe went through. -/
def confirmProbe (self : ControlState P C L) (id : UInt64) :
    ControlState P C L :=
  match self.pendingProbes.lookup id with
  | none => self
  | some (via, _) =>
    ({ self with pendingProbes := self.pendingProbes.erase id }).boostTrust via

/-- `handle_path_notify`. -/
def handlePathNotify (self : ControlState P C L) (env : ControlEnv L)
    (fromPeer : Bytes 32) (notify : PathNotify) :
    ControlState P C L × Sent L :=
  let touched := self.touch fromPeer env.now
  if notify.source = self.pubKey then
    (touched.confirmProbe notify.id, [])
  else
    match env.nextHop notify.source with
    | none => (touched, [])
    | some next => (touched, touched.sendToPeer next (.pathNotify notify))

end ControlState

end Norn.Control
