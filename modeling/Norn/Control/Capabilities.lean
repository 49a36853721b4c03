import Norn.Control.Machine
import Norn.Packet.Announcements

/-!
# Routers that announce their capabilities

`router/capabilities.rs`, compiled with the feature `sphinx`: a router tells
the others which onion formats it can process, in a signed announcement that
is flooded like the one of its onion key.  The announcements go out in the
middle of a tick, between those of the onion keys and the probes.
-/

namespace Norn.Control

open Foundation Packet Session

/-- `CAP_ONION_SPHINX`. -/
def capOnionSphinx : UInt32 := 1

/-- `CAPABILITY_BROADCAST_TICKS`. -/
def capabilityBroadcastTicks : UInt32 := 60

/-- `CAPABILITY_VALIDITY_MS`. -/
def capabilityValidityMs : UInt64 := 24 * 60 * 60 * 1000

/-- `MAX_CAPABILITY_ENTRIES`. -/
def maxCapabilityEntries : Nat := 16384

/-- A router with its table of capabilities. -/
structure SphinxRouter (P : Primitives) (C : Crates) (L : FilterOps) where
  control : ControlState P C L
  peerCapabilities : KeyedMap (Bytes 32) (UInt32 × UInt64 × Instant)
  ownCapsSeq : UInt64

/-- The frames of the control plane and the announcements. -/
inductive SphinxFrame (L : FilterOps) where
  | control (frame : ControlFrame L)
  | capabilities (ann : CapabilityAnnounce)

/-- Frames handed to the links of peers. -/
abbrev SphinxSent (L : FilterOps) := List (Bytes 32 × SphinxFrame L)

/-- The frames of the control plane among them. -/
def Sent.frames {L : FilterOps} (sent : Sent L) : SphinxSent L :=
  sent.map fun letter => (letter.1, .control letter.2)

variable {P : Primitives} {C : Crates} {L : FilterOps}

namespace SphinxRouter

/-- `RouterState::new`. -/
def new (signingKey : P.SigningKey) (onionEphPub : Bytes 32) :
    SphinxRouter P C L where
  control := .new signingKey onionEphPub
  peerCapabilities := .empty
  ownCapsSeq := 0

/-- `RouterState::pub_key`. -/
def pubKey (self : SphinxRouter P C L) : Bytes 32 := self.control.pubKey

/-- The announcement of the own capabilities, before it is signed. -/
def unsignedCapabilities (self : SphinxRouter P C L)
    (env : ControlEnv L) : CapabilityAnnounce where
  origin := self.pubKey
  caps := capOnionSphinx
  seq := self.ownCapsSeq
  validFromMs := env.nowMs
  sig := Bytes.replicate 64 0

/-- `broadcast_capabilities`. -/
def broadcastCapabilities (self : SphinxRouter P C L)
    (env : ControlEnv L) : SphinxRouter P C L × SphinxSent L :=
  let numbered := { self with ownCapsSeq := self.ownCapsSeq + 1 }
  let unsigned := numbered.unsignedCapabilities env
  let ann :=
    { unsigned with
      sig := P.edSign self.control.signingKey unsigned.signBytes }
  ({ numbered with
      peerCapabilities :=
        self.peerCapabilities.insert self.pubKey
          (capOnionSphinx, numbered.ownCapsSeq, env.now) },
    (self.control.peerKeys env).map fun peer => (peer, .capabilities ann))

/-- `record_capability`. -/
def recordCapability (self : SphinxRouter P C L) (env : ControlEnv L)
    (origin : Bytes 32) (caps : UInt32) (seq : UInt64) :
    SphinxRouter P C L :=
  let record := (caps, seq, env.now)
  if (self.peerCapabilities.lookup origin).isNone &&
      maxCapabilityEntries ≤ self.peerCapabilities.keys.length then
    match self.control.victim env self.peerCapabilities.keys with
    | none => self
    | some key =>
      { self with
        peerCapabilities :=
          (self.peerCapabilities.erase key).insert origin record }
  else
    { self with
      peerCapabilities := self.peerCapabilities.insert origin record }

/-- The checks of `handle_capabilities`. -/
def acceptsCapabilities (self : SphinxRouter P C L) (env : ControlEnv L)
    (ann : CapabilityAnnounce) : Bool :=
  ann.origin ≠ self.pubKey && P.isVerifyingKey ann.origin &&
    P.verifyStrict ann.origin ann.signBytes ann.sig &&
    withinWindow env.nowMs ann.validFromMs capabilityValidityMs &&
    match self.peerCapabilities.lookup ann.origin with
    | some (_, previous, _) => previous < ann.seq
    | none => true

/-- `handle_capabilities`. -/
def handleCapabilities (self : SphinxRouter P C L) (env : ControlEnv L)
    (fromPeer : Bytes 32) (ann : CapabilityAnnounce) :
    SphinxRouter P C L × SphinxSent L :=
  if self.acceptsCapabilities env ann then
    (self.recordCapability env ann.origin ann.caps ann.seq,
      ((self.control.peerKeys env).filter fun peer => peer ≠ fromPeer).map
        fun peer => (peer, .capabilities ann))
  else
    (self, [])

/-- The phases of a tick before the capabilities are announced. -/
def earlyPhases (env : ControlEnv L) : List (Phase P C L) :=
  ControlState.topologyPhases env ++ (ControlState.servicePhases env).take 3

/-- The phases of a tick after that. -/
def latePhases (env : ControlEnv L) : List (Phase P C L) :=
  (ControlState.servicePhases env).drop 3

/-- The capabilities are announced in the first tick and once in a while. -/
def maybeBroadcastCapabilities (self : SphinxRouter P C L)
    (env : ControlEnv L) : SphinxRouter P C L × SphinxSent L :=
  if self.control.tick = 1 ||
      self.control.tick % capabilityBroadcastTicks = 0 then
    self.broadcastCapabilities env
  else
    (self, [])

/-- `do_maintenance`. -/
def doMaintenance (self : SphinxRouter P C L) (env : ControlEnv L) :
    SphinxRouter P C L × SphinxSent L :=
  let early := Phase.inOrder (earlyPhases env) self.control
  let announced :=
    { self with control := early.1 }.maybeBroadcastCapabilities env
  let late := Phase.inOrder (latePhases env) announced.1.control
  ({ announced.1 with control := late.1 },
    Sent.frames early.2 ++ (announced.2 ++ Sent.frames late.2))

end SphinxRouter

/-- What can happen to a router. -/
inductive SphinxAction (L : FilterOps) where
  | control (action : ControlAction L)
  /-- A capability announcement arrives on the link of a peer. -/
  | capabilities (fromPeer : Bytes 32) (ann : CapabilityAnnounce)

/-- A step of a router. -/
structure SphinxStep (L : FilterOps) where
  env : ControlEnv L
  action : SphinxAction L

namespace SphinxRouter

/-- What a step does, and the frames it sends. -/
def perform (self : SphinxRouter P C L) (step : SphinxStep L) :
    SphinxRouter P C L × SphinxSent L :=
  match step.action with
  | .control .maintain => self.doMaintenance step.env
  | .control action =>
    let done := self.control.perform ⟨step.env, action⟩
    ({ self with control := done.1 }, Sent.frames done.2)
  | .capabilities fromPeer ann =>
    self.handleCapabilities step.env fromPeer ann

/-- The state after a step. -/
def step (self : SphinxRouter P C L) (step : SphinxStep L) :
    SphinxRouter P C L :=
  (self.perform step).1

theorem control_recordCapability (self : SphinxRouter P C L)
    (env : ControlEnv L) (origin : Bytes 32) (caps : UInt32)
    (seq : UInt64) :
    (self.recordCapability env origin caps seq).control =
      self.control := by
  unfold recordCapability
  split
  · cases self.control.victim env self.peerCapabilities.keys with
    | none => rfl
    | some key => rfl
  · rfl

theorem control_step_capabilities (self : SphinxRouter P C L)
    (env : ControlEnv L) (fromPeer : Bytes 32)
    (ann : CapabilityAnnounce) :
    (self.step ⟨env, .capabilities fromPeer ann⟩).control =
      self.control := by
  simp only [step, perform, handleCapabilities]
  split
  · exact control_recordCapability self env ann.origin ann.caps ann.seq
  · rfl

end SphinxRouter

end Norn.Control
