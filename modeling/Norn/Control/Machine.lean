import Norn.Control.Probes
import Norn.Control.Trees

/-!
# The control plane as a machine

`do_maintenance` runs the phases of one tick, `dispatch` handles one control
frame.  Together with the coming and going of peers these are the steps of a
router; whatever a step reads from its surroundings is part of its label.
-/

namespace Norn.Control

open Foundation Packet Router Session

variable {P : Primitives} {C : Crates} {L : FilterOps}

namespace ControlState

/-- The next tick. -/
def advanceTick (self : ControlState P C L) : ControlState P C L :=
  { self with tick := self.tick + 1 }

/-- The phases of one tree. -/
def treePhases (env : ControlEnv L) (tree : Fin treeCount) :
    List (Phase P C L) :=
  [Phase.quietly fun self => self.fixTree env tree,
    cuckooDoMaintenance env tree]

/-- The phases that settle the trees and announce them. -/
def topologyPhases (env : ControlEnv L) : List (Phase P C L) :=
  Phase.quietly advanceTick ::
    Phase.quietly (fun self => self.expirePeers env) ::
    (List.finRange treeCount).flatMap (treePhases env) ++
    [maybeBroadcastControl env]

/-- The phases behind them. -/
def servicePhases (env : ControlEnv L) : List (Phase P C L) :=
  [Phase.onlyWhen (fun self => self.tick % keepaliveTicks = 0)
      (sendKeepalives env),
    Phase.onlyWhen (everyTicks onionKeyRotationTicks) (rotateOnionKeys env),
    Phase.onlyWhen
      (fun self => self.tick = 1 || self.tick % onionKeyAnnounceTicks = 0)
      (broadcastOnionKeyAnnounce env),
    Phase.onlyWhen (everyTicks probeIntervalTicks) (probeCuckooClaim env),
    Phase.onlyWhen (everyTicks reputationReportTicks) (broadcastReputation env),
    Phase.quietly fun self => self.cleanupStaleProbes env,
    Phase.quietly fun self => self.cleanupStaleLookups env]

/-- `do_maintenance`, for the control plane. -/
def doMaintenance (env : ControlEnv L) : Phase P C L :=
  Phase.inOrder (topologyPhases env ++ servicePhases env)

/-- `dispatch`, for the frames of the control plane. -/
def dispatch (env : ControlEnv L) (fromPeer : Bytes 32)
    (frame : ControlFrame L) : Phase P C L :=
  fun self =>
    match frame with
    | .keepAlive => (self.touch fromPeer env.now, [])
    | .sigReq req => self.handleSigReq env fromPeer req
    | .sigRes res => (self.handleSigRes env fromPeer res, [])
    | .announce ann => (self.handleAnnounce env fromPeer ann, [])
    | .coordAnnounce ann => (self.handleCoordAnnounce fromPeer ann, [])
    | .cuckoo msg => (self.handleCuckoo env fromPeer msg, [])
    | .pathLookup lookup => self.handlePathLookup env fromPeer lookup
    | .pathNotify notify => self.handlePathNotify env fromPeer notify
    | .onionKeyAnnounce ann =>
      self.handleOnionKeyAnnounce env fromPeer ann
    | .reputationReport report =>
      self.handleReputationReport env fromPeer report

end ControlState

/-- What can happen to a router. -/
inductive ControlAction (L : FilterOps) where
  /-- `add_peer`. -/
  | attach (key : Bytes 32)
  /-- `remove_peer`. -/
  | detach (key : Bytes 32)
  /-- A frame arrives on the link of a peer. -/
  | receive (fromPeer : Bytes 32) (frame : ControlFrame L)
  /-- One tick of the maintenance task. -/
  | maintain

/-- A step of a router. -/
structure ControlStep (L : FilterOps) where
  env : ControlEnv L
  action : ControlAction L

namespace ControlState

/-- What a step does, and the frames it sends. -/
def perform (self : ControlState P C L) (step : ControlStep L) :
    ControlState P C L × Sent L :=
  match step.action with
  | .attach key => (self.addPeer step.env key, [])
  | .detach key => (self.removePeer key, [])
  | .receive fromPeer frame => dispatch step.env fromPeer frame self
  | .maintain => doMaintenance step.env self

/-- The state after a step. -/
def step (self : ControlState P C L) (step : ControlStep L) :
    ControlState P C L :=
  (self.perform step).1

end ControlState

/-- Whole numbers for floating-point ones, and a hash of one byte. -/
def sampleCrates : Crates where
  F64 := Nat
  F32 := Nat
  canonicalCoord := id
  distance _ _ := 0
  less first second := decide (first < second)
  infinity := 1
  score distance _ := distance
  blend localTrust consensus := (localTrust + consensus) / 2
  adjust cost _ := cost
  boostTrust trust := trust + 1
  trustInitial := 1
  decayTrust trust := trust / 2
  lossInitial := 0
  lossOnReply loss := loss
  lossOnSilence loss := loss + 1
  effectiveCost lag _ := UInt64.ofNat lag
  quantise trust := UInt16.ofNat trust
  reportScore score := score.toNat
  coordFinite _ := true
  rhoFits _ _ _ := true
  blake2b256 data := Bytes.replicate 32 (data.getD 23 0)

/-- Surroundings with fixed random draws. -/
def sampleEnv (addDraws : L.AddDraws) (mergeDraws : L.MergeDraws)
    (now : Instant) (nowMs : UInt64) : ControlEnv L where
  now := now
  nowMs := nowMs
  order := IterationOrder.natural
  tableOrder := IterationOrder.natural
  addDraws _ := addDraws
  mergeDraws _ _ := mergeDraws
  probePick := 0
  probeId := 0
  newOnionPub := Bytes.replicate 32 0
  ownCoord := Bytes.replicate 16 0
  nextHop _ := none

/-- Filters over a hash that is always the same. -/
abbrev sampleFilters : FilterOps := cuckooFilters fun _ => Bytes.replicate 8 0

/-- A router of the sample network. -/
abbrev SampleRouter :=
  ControlState Primitives.transparent sampleCrates sampleFilters

/-- The surroundings of the sample routers. -/
def sampleAt (now : Instant) (nowMs : UInt64) :
    ControlEnv sampleFilters :=
  sampleEnv ⟨true, fun _ => ⟨0, by decide⟩⟩
    (fun _ _ => ⟨true, fun _ => ⟨0, by decide⟩⟩) now nowMs

/-- A step of a sample router at the start of time. -/
def sampleStep (action : ControlAction sampleFilters) :
    ControlStep sampleFilters where
  env := sampleAt 0 0
  action := action

/-- The key of the root that leaves. -/
def rootKey : Bytes 32 := Bytes.replicate 32 0

/-- The router next to the root. -/
def nearKey : Bytes 32 := Bytes.replicate 32 1

/-- The router behind it. -/
def farKey : Bytes 32 := Bytes.replicate 32 2

/-- A new sample router. -/
def newRouter (key : Bytes 32) : SampleRouter :=
  .new (show Bytes 32 from key) (Bytes.replicate 32 0)

end Norn.Control
