import Norn.Foundation.RecentKeys
import Norn.Onion.Layers
import Norn.Router.Relay
import Norn.Sphinx.Cell

/-!
# Onion cells at the hop they are addressed to

`router/onion.rs`: `handle_onion` takes a packet of the layered format,
`handle_sphinx` a cell of the constant-size one.  Both look the digest of the
cell up in one cache, which drops the cells it has seen, take a layer off, and
send what they find on or deliver it.

The digest covers a part of the cell only, and it is recorded before the cell
has been authenticated.  What becomes of a cell that is not dropped is a
function of the keys, the routing tables and the cell; the handlers change
neither the keys nor the routing tables.
-/

namespace Norn.Onion

open Foundation Packet Router Sphinx
open Session (Instant)

/-- `ONION_REPLAY_CACHE_SIZE`. -/
def onionReplayCacheSize : Nat := 4096

theorem onionReplayCacheSize_pos : 0 < onionReplayCacheSize := by
  decide

/-- The digests of the cells that were seen. -/
abbrev ReplayCache := RecentKeys (Bytes 32) onionReplayCacheSize

/-- A router with what it needs to take part in onion paths. -/
structure HopNode (P : Primitives) (F : Floats) where
  node : Node P F
  onionKeys : OnionKeyChain P
  onionSeen : ReplayCache

/-- What became of a cell. -/
inductive CellOutcome where
  | replayed
  | failed
  | undecodable
  | unroutable (tag : Bytes 16)
  | forwarded (next : Bytes 32) (encoded : List UInt8)
  | delivered (traffic : Traffic)
  deriving DecidableEq

/-- The cell was forwarded or delivered. -/
def CellOutcome.passed : CellOutcome → Bool
  | .forwarded _ _ => true
  | .delivered _ => true
  | .replayed => false
  | .failed => false
  | .undecodable => false
  | .unroutable _ => false

section Digests

variable (S : SphinxCrypto)

/-- The digest of `is_onion_replay`. -/
def onionReplayDigest (packet : OnionPacket) : Bytes 32 :=
  S.blake2b256
    (asciiBytes "norn:onion-replay" ++
      (packet.epk.toList ++ packet.aeadPayload.take 16))

/-- `replay_digest`. -/
def replayDigest (cell : List UInt8) : Option (Bytes 32) :=
  if cell.length = cellSize then
    some
      (S.blake2b256
        (asciiBytes "norn:sphinx-replay" ++
          ((cell.drop offEpk).take epkLen ++ (cell.drop offBeta).take 16)))
  else
    none

end Digests

/-! ## The handlers -/

variable {P : Primitives} {F : Floats}

namespace HopNode

/-- The peer of a cell has been heard from. -/
def touch (self : HopNode P F) (fromPeer : Bytes 32) (now : Instant) :
    HopNode P F :=
  { self with
    node :=
      { self.node with
        router := self.node.router.touchPeer fromPeer now 0 } }

/-- `onion_digest_seen`. -/
def onionDigestSeen (self : HopNode P F) (digest : Bytes 32) :
    Bool × HopNode P F :=
  let answer := self.onionSeen.seen digest
  (answer.1, { self with onionSeen := answer.2 })

/-- `is_onion_replay`. -/
def isOnionReplay (S : SphinxCrypto) (self : HopNode P F)
    (packet : OnionPacket) : Bool × HopNode P F :=
  self.onionDigestSeen (onionReplayDigest S packet)

/-- A peeled cell goes to the next hop, or its tag back to the peer. -/
def sendOn (self : HopNode P F) (env : RelayEnv P F)
    (fromPeer : Bytes 32) (tag : Bytes 16) (encoded : List UInt8) :
    HopNode P F × CellOutcome × Outgoing :=
  (self,
    match self.node.routing.lookupByTagExcluding env.frame.call.now tag
        (some fromPeer) with
    | some next => .forwarded next encoded
    | none => .unroutable tag,
    self.node.forwardCell env fromPeer tag encoded)

/-- The frame in the last layer goes to the traffic handler. -/
def deliver (self : HopNode P F) (env : RelayEnv P F)
    (fromPeer : Bytes 32) (content : List UInt8) :
    HopNode P F × CellOutcome × Outgoing :=
  match content with
  | [] => (self, .undecodable, [])
  | ptype :: data =>
    if ptype = trafficType then
      match Traffic.decode data with
      | .ok traffic =>
        let handled := self.node.handleTraffic env fromPeer traffic
        ({ self with node := handled.1 }, .delivered traffic, handled.2)
      | .error _ => (self, .undecodable, [])
    else
      (self, .undecodable, [])

/-- The part of `handle_onion` behind the replay check. -/
def processOnion (self : HopNode P F) (env : RelayEnv P F)
    (fromPeer : Bytes 32) (packet : OnionPacket) :
    HopNode P F × CellOutcome × Outgoing :=
  match Onion.peel packet self.onionKeys with
  | .ok (.forward innerBytes) =>
    match OnionPacket.decode innerBytes with
    | .ok inner =>
      self.sendOn env fromPeer inner.routingTag inner.encode
    | .error _ => (self, .undecodable, [])
  | .ok (.deliver trafficBytes) => self.deliver env fromPeer trafficBytes
  | .error _ => (self, .failed, [])

/-- `handle_onion`. -/
def handleOnion (S : SphinxCrypto) (self : HopNode P F)
    (env : RelayEnv P F) (fromPeer : Bytes 32) (packet : OnionPacket) :
    HopNode P F × CellOutcome × Outgoing :=
  let touched := self.touch fromPeer env.frame.call.now
  let answer := touched.isOnionReplay S packet
  if answer.1 then
    (answer.2, .replayed, [])
  else
    answer.2.processOnion env fromPeer packet

/-- The part of `handle_sphinx` behind the replay check. -/
def processCell (S : SphinxCrypto) (self : HopNode P F)
    (env : RelayEnv P F) (fromPeer : Bytes 32) (cell : List UInt8) :
    HopNode P F × CellOutcome × Outgoing :=
  match processSphinx S cell self.onionKeys.sphinxPrivs with
  | .ok (.forward nextTag next) => self.sendOn env fromPeer nextTag next
  | .ok (.deliver trafficBytes) => self.deliver env fromPeer trafficBytes
  | .error _ => (self, .failed, [])

/-- `handle_sphinx`. -/
def handleSphinx (S : SphinxCrypto) (self : HopNode P F)
    (env : RelayEnv P F) (fromPeer : Bytes 32) (cell : List UInt8) :
    HopNode P F × CellOutcome × Outgoing :=
  let touched := self.touch fromPeer env.frame.call.now
  match replayDigest S cell with
  | none => touched.processCell S env fromPeer cell
  | some digest =>
    let answer := touched.onionDigestSeen digest
    if answer.1 then
      (answer.2, .replayed, [])
    else
      answer.2.processCell S env fromPeer cell

end HopNode

/-- What the two handlers are given. -/
inductive Cell where
  | onion (packet : OnionPacket)
  | sphinx (cell : List UInt8)
  deriving DecidableEq

/-- The digest that stands for a cell in the cache. -/
def Cell.digest (S : SphinxCrypto) : Cell → Option (Bytes 32)
  | .onion packet => some (onionReplayDigest S packet)
  | .sphinx cell => replayDigest S cell

/-- `peel` or `process_sphinx` returns a result. -/
def Cell.authentic (S : SphinxCrypto) (keys : OnionKeyChain P) : Cell → Bool
  | .onion packet => (Onion.peel packet keys).isOk
  | .sphinx cell => (processSphinx S cell keys.sphinxPrivs).isOk

/-- The cell is given to its handler. -/
def HopNode.handle (S : SphinxCrypto) (self : HopNode P F)
    (env : RelayEnv P F) (fromPeer : Bytes 32) :
    Cell → HopNode P F × CellOutcome × Outgoing
  | .onion packet => self.handleOnion S env fromPeer packet
  | .sphinx cell => self.handleSphinx S env fromPeer cell

/-- What lies behind the replay check. -/
def HopNode.process (S : SphinxCrypto) (self : HopNode P F)
    (env : RelayEnv P F) (fromPeer : Bytes 32) :
    Cell → HopNode P F × CellOutcome × Outgoing
  | .onion packet => self.processOnion env fromPeer packet
  | .sphinx cell => self.processCell S env fromPeer cell

namespace HopNode

variable (S : SphinxCrypto)

variable {self other : HopNode P F} {cell : Cell}

/-- The digest of the cell is in the cache. -/
def replays (self : HopNode P F) (cell : Cell) : Bool :=
  match cell.digest S with
  | none => false
  | some digest => (self.onionSeen.seen digest).1

/-- The cache after the digest of a cell was looked up. -/
def cacheAfter (self : HopNode P F) (cell : Cell) : ReplayCache :=
  match cell.digest S with
  | none => self.onionSeen
  | some digest => (self.onionSeen.seen digest).2

/-- The router behind the replay check. -/
def checked (self : HopNode P F) (env : RelayEnv P F)
    (fromPeer : Bytes 32) (cell : Cell) : HopNode P F :=
  { self.touch fromPeer env.frame.call.now with
    onionSeen := self.cacheAfter S cell }

theorem handle_eq (self : HopNode P F) (env : RelayEnv P F)
    (fromPeer : Bytes 32) (cell : Cell) :
    self.handle S env fromPeer cell =
      if self.replays S cell then
        (self.checked S env fromPeer cell, .replayed, [])
      else
        (self.checked S env fromPeer cell).process S env fromPeer
          cell := by
  cases cell with
  | onion packet => rfl
  | sphinx cell =>
    unfold handle handleSphinx replays checked cacheAfter Cell.digest process
    simp only
    split
    · rfl
    · rfl

/-- The frames that go out with an outcome. -/
def Emits (self : HopNode P F) (env : RelayEnv P F) (fromPeer : Bytes 32)
    (out : Outgoing) : CellOutcome → Prop
  | .forwarded next encoded => out = [(next, encoded)]
  | .unroutable tag =>
    out =
      (RouterState.sendPathNegative fromPeer tag
        pathNegInitialTtl).filterMap Event.outgoing
  | .delivered traffic =>
    out = (self.node.handleTraffic env fromPeer traffic).2
  | .replayed | .failed | .undecodable => out = []

theorem emits_sendOn (self : HopNode P F) (env : RelayEnv P F)
    (fromPeer : Bytes 32) (tag : Bytes 16) (encoded : List UInt8) :
    self.Emits env fromPeer (self.sendOn env fromPeer tag encoded).2.2
      (self.sendOn env fromPeer tag encoded).2.1 := by
  simp only [sendOn, Node.forwardCell]
  cases self.node.routing.lookupByTagExcluding _ _ _ <;> rfl

theorem emits_deliver (self : HopNode P F) (env : RelayEnv P F)
    (fromPeer : Bytes 32) (content : List UInt8) :
    self.Emits env fromPeer (self.deliver env fromPeer content).2.2
      (self.deliver env fromPeer content).2.1 := by
  unfold deliver
  repeat' split
  all_goals rfl

/-- What the handlers say about a cell is what they send. -/
theorem emits_handle (self : HopNode P F) (env : RelayEnv P F)
    (fromPeer : Bytes 32) (cell : Cell) :
    (self.checked S env fromPeer cell).Emits env fromPeer
      (self.handle S env fromPeer cell).2.2
      (self.handle S env fromPeer cell).2.1 := by
  rw [handle_eq]
  split_ifs
  · rfl
  · cases cell with
    | onion packet =>
      simp only [process, processOnion]
      repeat' split
      all_goals first
        | exact emits_sendOn ..
        | exact emits_deliver ..
        | rfl
    | sphinx cell =>
      simp only [process, processCell]
      repeat' split
      all_goals first
        | exact emits_sendOn ..
        | exact emits_deliver ..
        | rfl

/-! ## What the handlers leave alone -/

/-- The keys, the cache and the routing tables are the same. -/
structure SameRelay (before after : HopNode P F) : Prop where
  keys : after.onionKeys = before.onionKeys
  seen : after.onionSeen = before.onionSeen
  routing : after.node.routing = before.node.routing

theorem sameRelay_refl (self : HopNode P F) :
    SameRelay self self := ⟨rfl, rfl, rfl⟩

theorem sameRelay_deliver (self : HopNode P F) (env : RelayEnv P F)
    (fromPeer : Bytes 32) (content : List UInt8) :
    SameRelay self (self.deliver env fromPeer content).1 := by
  cases content with
  | nil => exact sameRelay_refl self
  | cons ptype data =>
    simp only [deliver]
    split
    · cases Traffic.decode data with
      | ok traffic => exact ⟨rfl, rfl, rfl⟩
      | error failure => exact sameRelay_refl self
    · exact sameRelay_refl self

theorem sameRelay_process (self : HopNode P F) (env : RelayEnv P F)
    (fromPeer : Bytes 32) (cell : Cell) :
    SameRelay self (self.process S env fromPeer cell).1 := by
  cases cell with
  | onion packet =>
    simp only [process, processOnion]
    split
    · split
      · exact sameRelay_refl self
      · exact sameRelay_refl self
    · exact sameRelay_deliver self env fromPeer _
    · exact sameRelay_refl self
  | sphinx cell =>
    simp only [process, processCell]
    split
    · exact sameRelay_refl self
    · exact sameRelay_deliver self env fromPeer _
    · exact sameRelay_refl self

theorem sameRelay_handle (self : HopNode P F) (env : RelayEnv P F)
    (fromPeer : Bytes 32) (cell : Cell) :
    SameRelay (self.checked S env fromPeer cell)
      (self.handle S env fromPeer cell).1 := by
  rw [handle_eq]
  split
  · exact sameRelay_refl _
  · exact sameRelay_process S _ env fromPeer cell

theorem onionKeys_handle (self : HopNode P F) (env : RelayEnv P F)
    (fromPeer : Bytes 32) (cell : Cell) :
    (self.handle S env fromPeer cell).1.onionKeys = self.onionKeys :=
  (self.sameRelay_handle S env fromPeer cell).keys

theorem routing_handle (self : HopNode P F) (env : RelayEnv P F)
    (fromPeer : Bytes 32) (cell : Cell) :
    (self.handle S env fromPeer cell).1.node.routing =
      self.node.routing :=
  (self.sameRelay_handle S env fromPeer cell).routing

theorem onionSeen_handle (self : HopNode P F) (env : RelayEnv P F)
    (fromPeer : Bytes 32) (cell : Cell) :
    (self.handle S env fromPeer cell).1.onionSeen =
      self.cacheAfter S cell :=
  (self.sameRelay_handle S env fromPeer cell).seen

theorem outcome_deliver_congr (env : RelayEnv P F) (fromPeer : Bytes 32)
    (content : List UInt8) :
    (self.deliver env fromPeer content).2.1 =
      (other.deliver env fromPeer content).2.1 := by
  cases content with
  | nil => rfl
  | cons ptype data =>
    simp only [deliver]
    split
    · cases Traffic.decode data with
      | ok traffic => rfl
      | error failure => rfl
    · rfl

theorem outcome_process_congr (keys : self.onionKeys = other.onionKeys)
    (routing : self.node.routing = other.node.routing) (env : RelayEnv P F)
    (fromPeer : Bytes 32) (cell : Cell) :
    (self.process S env fromPeer cell).2.1 =
      (other.process S env fromPeer cell).2.1 := by
  cases cell with
  | onion packet =>
    simp only [process, processOnion, keys]
    cases Onion.peel packet other.onionKeys with
    | error failure => rfl
    | ok peeled =>
      cases peeled with
      | forward inner =>
        cases decoded : OnionPacket.decode inner with
        | ok packet => simp only [decoded, sendOn, routing]
        | error failure => simp only [decoded]
      | deliver traffic =>
        exact outcome_deliver_congr env fromPeer traffic
  | sphinx cell =>
    simp only [process, processCell, keys]
    cases processSphinx S cell other.onionKeys.sphinxPrivs with
    | error failure => rfl
    | ok peeled =>
      cases peeled with
      | forward tag next => simp only [sendOn, routing]
      | deliver traffic =>
        exact outcome_deliver_congr env fromPeer traffic

theorem outcome_handle_congr (keys : self.onionKeys = other.onionKeys)
    (routing : self.node.routing = other.node.routing)
    (replays : self.replays S cell = other.replays S cell) (env : RelayEnv P F)
    (fromPeer : Bytes 32) :
    (self.handle S env fromPeer cell).2.1 =
      (other.handle S env fromPeer cell).2.1 := by
  rw [handle_eq, handle_eq, replays]
  split
  · rfl
  · apply outcome_process_congr S
    · exact keys
    · exact routing

theorem not_passed_of_not_authentic
    (failing : cell.authentic S self.onionKeys = false) (env : RelayEnv P F)
    (fromPeer : Bytes 32) :
    (self.handle S env fromPeer cell).2.1.passed = false := by
  have keys : (self.checked S env fromPeer cell).onionKeys =
      self.onionKeys :=
    rfl
  rw [handle_eq]
  split
  · rfl
  · cases cell with
    | onion packet =>
      simp only [Cell.authentic] at failing
      simp only [process, processOnion, keys]
      cases peeled : Onion.peel packet self.onionKeys with
      | error failure => rfl
      | ok content =>
        rw [peeled] at failing
        cases failing
    | sphinx cell =>
      simp only [Cell.authentic] at failing
      simp only [process, processCell, keys]
      cases peeled : processSphinx S cell self.onionKeys.sphinxPrivs with
      | error failure => rfl
      | ok content =>
        rw [peeled] at failing
        cases failing

theorem not_replays_of_passed {env : RelayEnv P F} {fromPeer : Bytes 32}
    (passed : (self.handle S env fromPeer cell).2.1.passed = true) :
    self.replays S cell = false := by
  rw [handle_eq] at passed
  split at passed
  · cases passed
  · case isFalse fresh =>
    exact Bool.eq_false_iff.mpr fresh

end HopNode

end Norn.Onion
