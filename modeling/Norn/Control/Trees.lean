import Norn.Control.State
import Norn.Foundation.LayeredHeader

/-!
# Spanning trees

`fix_tree` chooses the parent of a router in a tree from the announcements of
its peers, `maybe_broadcast_control` announces the result, and
`handle_announce` stores the announcement of a peer.

Roots are compared by a metric that changes with the epoch of the tree.  The
peer with the best root wins, among peers with the same root the cheapest;
the parent so far is kept when it offers the same root at nearly the same
cost.
-/

namespace Norn.Control

open Foundation Packet Router Session

/-! ## The metric of a root -/

/-- `TREE_SEEDS`. -/
def treeSeeds : List (List UInt8) :=
  [List.replicate 8 0, asciiBytes "Verdandi", asciiBytes "Skuld___"]

/-- The seed of one tree. -/
def treeSeed (tree : Fin treeCount) : List UInt8 := treeSeeds.getD tree.val []

/-- `TREE_EPOCH_SECS`. -/
def treeEpochSecs : UInt64 := 24 * 60 * 60

/-- `current_tree_epoch`. -/
def currentTreeEpoch {L : FilterOps} (env : ControlEnv L) : UInt64 :=
  env.nowMs / 1000 / treeEpochSecs

/-- `tree_metric_at`. -/
def treeMetricAt (C : Crates) (pubKey : Bytes 32) (seed : List UInt8)
    (epoch : UInt64) : Bytes 32 :=
  pubKey.xor
    (C.blake2b256
      (asciiBytes "norn:tree-epoch" ++ seed ++ (u64ToLe epoch).toList))

/-- `metric_less`. -/
def metricLess (first second : Bytes 32) : Bool := decide (first < second)

/-- The metric of a key in a tree. -/
abbrev metricIn (C : Crates) (tree : Fin treeCount) (epoch : UInt64)
    (key : Bytes 32) : Bytes 32 :=
  treeMetricAt C key (treeSeed tree) epoch

theorem metricIn_injective (C : Crates) (tree : Fin treeCount)
    (epoch : UInt64) : Function.Injective (metricIn C tree epoch) := by
  intro first second same
  have undone := congrArg (fun metric => Bytes.xor metric
    (C.blake2b256
      (asciiBytes "norn:tree-epoch" ++ treeSeed tree ++
        (u64ToLe epoch).toList))) same
  simpa only [metricIn, treeMetricAt, Bytes.xor_xor] using undone

/-- What the announcement of a peer offers. -/
structure Candidate where
  parent : Bytes 32
  root : Bytes 32
  metric : Bytes 32
  cost : UInt64
  deriving DecidableEq

/-- The condition `better` of the loop of `fix_tree`. -/
def Candidate.better (candidate best : Candidate) : Bool :=
  if metricLess candidate.metric best.metric then
    true
  else if candidate.metric = best.metric then
    candidate.cost < best.cost
  else
    false

/-- One round of the loop of `fix_tree`. -/
def Candidate.improve (best : Option Candidate) (candidate : Candidate) :
    Option Candidate :=
  match best with
  | none => some candidate
  | some kept =>
    if candidate.better kept then some candidate else some kept

/-! ## Announcements -/

/-- The signature of an announcement verifies under the key it names. -/
def announceVerified (P : Primitives) (ann : Announce) : Bool :=
  P.isVerifyingKey ann.sender &&
    P.verifyStrict ann.sender ann.signBytes ann.signature

/-- An announcement as it is stored. -/
def storedAnnounce (now : Instant) (ann : Announce) : TreeAnnounce where
  root := ann.root
  pathCost := ann.pathCost
  receivedAt := now
  depth := ann.depth

/-- The entry of a peer with a new announcement. -/
def Peer.setAnnounce {C : Crates} {L : FilterOps} (tree : Fin treeCount)
    (now : Instant)
    (ann : Announce) (peer : Peer C L) : Peer C L :=
  { peer with
    lastRxTime := now
    trees := fun other =>
      if other = tree then some (storedAnnounce now ann)
      else peer.trees other }

namespace ControlState

variable {P : Primitives} {C : Crates} {L : FilterOps}

/-- What a peer offers in a tree, unless its announcement has expired. -/
def candidateOf (env : ControlEnv L) (tree : Fin treeCount)
    (entry : Bytes 32 × Peer C L) : Option Candidate :=
  match entry.2.trees tree with
  | none => none
  | some ann =>
    if announceExpiry < env.now - ann.receivedAt then
      none
    else
      some
        { parent := entry.1
          root := ann.root
          metric := metricIn C tree (currentTreeEpoch env) ann.root
          cost := saturatingAdd ann.pathCost entry.2.effectiveCost }

/-- The offers that `fix_tree` looks at. -/
def candidates (self : ControlState P C L) (env : ControlEnv L)
    (tree : Fin treeCount) : List Candidate :=
  (self.peerEntries env).filterMap (candidateOf env tree)

/-- The best offer. -/
def bestCandidate (self : ControlState P C L) (env : ControlEnv L)
    (tree : Fin treeCount) : Option Candidate :=
  (self.candidates env tree).foldl Candidate.improve none

/-- The offer of the parent so far. -/
def incumbent (self : ControlState P C L) (env : ControlEnv L)
    (tree : Fin treeCount) : Option Candidate :=
  (self.candidates env tree).find? fun candidate =>
    some candidate.parent = (self.trees tree).parent

/-- The parent so far stays when the best offer is hardly cheaper. -/
def damped (self : ControlState P C L) (env : ControlEnv L)
    (tree : Fin treeCount) (best : Candidate) : Candidate :=
  match self.incumbent env tree with
  | none => best
  | some current =>
    if current.metric = best.metric ∧
        some best.parent ≠ (self.trees tree).parent ∧
        current.cost ≤ saturatingAdd best.cost parentSwitchMarginUs then
      { best with parent := current.parent, cost := current.cost }
    else
      best

/-- The offer that is taken; without one the router is its own root. -/
def chosen (self : ControlState P C L) (env : ControlEnv L)
    (tree : Fin treeCount) : Option Candidate :=
  match self.bestCandidate env tree with
  | none => none
  | some best =>
    if metricLess (metricIn C tree (currentTreeEpoch env) self.pubKey)
        best.metric then
      none
    else
      some (self.damped env tree best)

/-- Replace the state of one tree. -/
def setTree (self : ControlState P C L) (tree : Fin treeCount)
    (value : TreeState) : ControlState P C L :=
  { self with
    trees := fun other => if other = tree then value else self.trees other }

/-- The router is the root of a tree. -/
def becomeRoot (self : ControlState P C L) (tree : Fin treeCount) :
    ControlState P C L :=
  let rooted :=
    self.setTree tree
      { parent := none
        root := self.pubKey
        rootSeq := (self.trees tree).rootSeq + 1
        parentCost := 0 }
  if tree.val = 0 then { rooted with ownDepth := 0 } else rooted

/-- The depth below a parent, in the first tree. -/
def depthBelow (self : ControlState P C L) (tree : Fin treeCount)
    (parent : Bytes 32) : UInt32 :=
  match (self.peers.lookup parent).bind fun peer => peer.trees tree with
  | some ann => ann.depth + 1
  | none => self.ownDepth

/-- The router takes an offer. -/
def joinTree (self : ControlState P C L) (tree : Fin treeCount)
    (candidate : Candidate) : ControlState P C L :=
  let joined :=
    self.setTree tree
      { parent := some candidate.parent
        root := candidate.root
        rootSeq := (self.trees tree).rootSeq
        parentCost := candidate.cost }
  if tree.val = 0 then
    { joined with ownDepth := self.depthBelow tree candidate.parent }
  else
    joined

/-- Note a change of the trees around. -/
def noteChange (self : ControlState P C L) (changed : Bool) :
    ControlState P C L :=
  if changed then
    { self with lastTopologyChangeTick := self.tick }
  else
    self

/-- `fix_tree`. -/
def fixTree (self : ControlState P C L) (env : ControlEnv L)
    (tree : Fin treeCount) : ControlState P C L :=
  let settled := match self.chosen env tree with
    | none => self.becomeRoot tree
    | some candidate => self.joinTree tree candidate
  settled.noteChange ((settled.trees tree).parent ≠ (self.trees tree).parent)

/-! ## Announcing -/

/-- The announcement of a router for a tree, before it is signed. -/
def unsignedAnnounce (self : ControlState P C L)
    (tree : Fin treeCount) : Announce where
  treeId := UInt8.ofNat tree.val
  root := (self.trees tree).root
  rootSeq := (self.trees tree).rootSeq
  pathCost := (self.trees tree).parentCost
  sender := self.pubKey
  signature := Bytes.replicate 64 0
  depth := if tree.val = 0 then self.ownDepth else 0

/-- The announcement of a router for a tree. -/
def ownAnnounce (self : ControlState P C L) (tree : Fin treeCount) :
    Announce :=
  { self.unsignedAnnounce tree with
    signature :=
      P.edSign self.signingKey (self.unsignedAnnounce tree).signBytes }

/-- `send_announces`. -/
def sendAnnounces (self : ControlState P C L) (env : ControlEnv L)
    (tree : Fin treeCount) : Sent L :=
  self.sendToAll env (.announce (self.ownAnnounce tree))

/-- The coordinate of a router, before it is signed. -/
def unsignedCoordAnnounce (self : ControlState P C L)
    (env : ControlEnv L) : CoordAnnounce where
  version := coordFormatV5
  coord := env.ownCoord
  treeDepth := self.ownDepth
  onionEphPub := self.onionEphPub
  sig := Bytes.replicate 64 0

/-- The announcement of the coordinate of a router. -/
def ownCoordAnnounce (self : ControlState P C L) (env : ControlEnv L) :
    CoordAnnounce :=
  { self.unsignedCoordAnnounce env with
    sig :=
      P.edSign self.signingKey (self.unsignedCoordAnnounce env).signBytes }

/-- `broadcast_coord`. -/
def broadcastCoord (self : ControlState P C L) (env : ControlEnv L) :
    Sent L :=
  self.sendToAll env (.coordAnnounce (self.ownCoordAnnounce env))

/-- `control_digest`. -/
def controlDigest (self : ControlState P C L) : ControlDigest where
  trees := (List.finRange treeCount).map fun tree =>
    ((self.trees tree).root, (self.trees tree).rootSeq,
      (self.trees tree).parent)
  ownDepth := self.ownDepth
  onionEphPub := self.onionEphPub
  peerCount := self.peers.keys.length

/-- `convergence_active`. -/
def convergenceActive (self : ControlState P C L) : Bool :=
  self.tick - self.lastTopologyChangeTick < convergenceGraceTicks

/-- The topology differs from the one announced last. -/
def controlChanged (self : ControlState P C L) : Bool :=
  self.lastControlDigest ≠ some self.controlDigest

/-- The interval between two broadcasts, once it has been adapted. -/
def nextControlInterval (self : ControlState P C L) : UInt32 :=
  if self.controlChanged || self.convergenceActive then
    controlMinInterval
  else
    min (self.controlInterval + 1) controlMaxInterval

/-- A broadcast is due. -/
def controlDue (self : ControlState P C L) : Bool :=
  self.controlChanged || self.convergenceActive ||
    self.nextControlInterval ≤ self.tick - self.lastControlTick

/-- `maybe_broadcast_control`. -/
def maybeBroadcastControl (env : ControlEnv L) : Phase P C L :=
  fun self =>
    let noted := self.noteChange self.controlChanged
    let adapted :=
      { noted with controlInterval := noted.nextControlInterval }
    if noted.controlDue then
      ({ adapted with
          lastControlDigest := some self.controlDigest
          lastControlTick := self.tick },
        (List.finRange treeCount).flatMap (adapted.sendAnnounces env) ++
          adapted.broadcastCoord env)
    else
      (adapted, [])

/-- The announcement changes the root or the depth of a peer. -/
def structuralChange (self : ControlState P C L) (fromPeer : Bytes 32)
    (tree : Fin treeCount) (ann : Announce) : Bool :=
  match self.peers.lookup fromPeer with
  | none => false
  | some peer =>
    match peer.trees tree with
    | some previous =>
      previous.root ≠ ann.root || previous.depth ≠ ann.depth
    | none => true

/-- `handle_announce`. -/
def handleAnnounce (self : ControlState P C L) (env : ControlEnv L)
    (fromPeer : Bytes 32) (ann : Announce) : ControlState P C L :=
  if !announceVerified P ann then
    self
  else
    match treeIndex ann.treeId with
    | none => self
    | some tree =>
      let stored := self.onPeer fromPeer (Peer.setAnnounce tree env.now ann)
      (stored.noteChange
        (self.structuralChange fromPeer tree ann)).updateLandmarks

end ControlState

end Norn.Control
