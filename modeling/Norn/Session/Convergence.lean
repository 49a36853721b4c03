import Norn.Session.Tracking

/-!
# When two nodes agree

Two established sessions agree exactly when the two histories adopt the same
encapsulation.  A duplicated or retransmitted Init is encapsulated to afresh,
so the nodes part ways as soon as the last Ack handled on one side does not
answer the last Init handled on the other.
-/

namespace Norn.Session

open Foundation Foundation.Run Primitives

section Convergence

variable {P : Primitives}

/--
Two nodes that pin no other post-quantum key for each other and whose rate
limits have room for a number of further Inits.
-/
structure Network.Receptive (state : Network P) (room : Side → Nat) : Prop where
  tracked : state.Tracked
  trusts :
    ∀ side, PinsAgree (state.node side).pqPins (state.peerPub side)
      (state.node side.peer).pqSigner.pubBytes
  slots :
    ∀ side,
      (state.node side).initRateLog.lookup (state.peerPub side) ≠ none ∨
        (state.node side).initRateLog.keys.length < maxInitRateLogEntries
  few :
    ∀ side,
      (attempts (state.node side).initRateLog
          (state.peerPub side)).length + room side ≤ maxInitsPerWindow

/-- A message arrives while its time stamp is still accepted. -/
def Envelope.Prompt (envelope : Envelope) (env : Surroundings P) : Prop :=
  clockSkew env.nowMs envelope.sentMs ≤ handshakeTimeWindowMs

theorem Network.Receptive.of_put {before after : Network P}
    {room : Side → Nat} (receptive : before.Receptive room)
    (tracked : after.Tracked) {side : Side} {manager : SessionManager P}
    (node : after.node = (before.put side manager).node)
    (sameNode : SameNode (before.node side) manager)
    (trusts :
      PinsAgree manager.pqPins (before.peerPub side)
        (before.node side.peer).pqSigner.pubBytes)
    (slots :
      manager.initRateLog.lookup (before.peerPub side) ≠ none ∨
        manager.initRateLog.keys.length < maxInitRateLogEntries)
    {count : Nat}
    (few :
      (attempts manager.initRateLog (before.peerPub side)).length + count ≤
        maxInitsPerWindow) :
    after.Receptive (Function.update room side count) := by
  have own : after.node side = manager := by
    simp [node, Network.put]
  have other : after.node side.peer = before.node side.peer := by
    simp [node, Network.put]
  have ownPeer : after.peerPub side = before.peerPub side := by
    rw [Network.peerPub, other]
    rfl
  have otherPeer : after.peerPub side.peer = before.peerPub side.peer := by
    rw [Network.peerPub, Network.peerPub, Side.peer_peer, own, sameNode.ourPub]
  refine ⟨tracked, ?_, ?_, ?_⟩
  · intro one
    rcases one.eq_or_eq_peer side with same | peer
    · subst same
      rw [own, other, ownPeer]
      exact trusts
    · subst peer
      have kept := receptive.trusts side.peer
      rw [Side.peer_peer] at kept ⊢
      rw [own, other, otherPeer, sameNode.pqSigner]
      exact kept
  · intro one
    rcases one.eq_or_eq_peer side with same | peer
    · subst same
      rw [own, ownPeer]
      exact slots
    · subst peer
      rw [other, otherPeer]
      exact receptive.slots side.peer
  · intro one
    rcases one.eq_or_eq_peer side with same | peer
    · subst same
      rw [own, ownPeer, Function.update_self]
      exact few
    · subst peer
      rw [other, otherPeer, Function.update_of_ne side.peer_ne]
      exact receptive.few side.peer

section Receptive

variable {state : Network P} {room : Side → Nat} {index : Nat}
  {envelope : Envelope} {env : Surroundings P}

theorem Network.Receptive.initiate (kem : P.KemCorrect)
    (receptive : state.Receptive room) {side : Side}
    (absent : (state.node side).sessions.handle (state.peerPub side) = none)
    (env : Surroundings P) :
    (networkStep state (.initiate side env)).Receptive room := by
  have next :=
    receptive.tracked.step kem
      (transition_networkStep state (.initiate side env))
  rw [networkStep_initiate absent] at next ⊢
  have kept :=
    receptive.of_put next rfl ⟨rfl, rfl, rfl, rfl⟩ (receptive.trusts side)
      (receptive.slots side)
      (receptive.few side)
  rwa [Function.update_eq_self] at kept

theorem Network.Receptive.deliver_init (signatures : P.SignaturesVerify)
    (kem : P.KemCorrect) (receptive : state.Receptive room)
    (found : state.flight[index]? = some envelope)
    (leg : envelope.leg = .init) (prompt : envelope.Prompt env)
    {count : Nat} (spare : room envelope.receiver = count + 1) :
    ∃ message log pins,
      networkStep state (.deliver index env) =
          state.afterInit envelope.receiver env message log pins
            (state.flight.eraseIdx index) ∧
        Network.Receptive
          (state.afterInit envelope.receiver env message log pins
            (state.flight.eraseIdx index))
          (Function.update room envelope.receiver count) := by
  have next :=
    receptive.tracked.step kem
      (transition_networkStep state (.deliver index env))
  cases receptive.tracked.carries envelope (List.mem_of_getElem? found) with
  | ack => cases leg
  | init receiver info nowMs held =>
    dsimp only at spare prompt ⊢
    have few := receptive.few receiver
    rw [spare] at few
    have expects :
        ExpectsInit (state.node receiver) (state.node receiver.peer)
          env nowMs :=
      ⟨receptive.slots receiver, lt_of_lt_of_le
        (Nat.lt_add_of_pos_right (Nat.succ_pos _)) few,
        prompt, receptive.trusts receiver⟩
    rcases expects.admits signatures kem info.localX25519Pub with
      ⟨log, pins, admits, ⟨logged, recorded⟩, agree⟩
    have handled :=
      SessionManager.handleInit_of_admits
        (HandshakeMessage.decode_encode (state.initTo receiver info nowMs))
          admits
    have reached :
        networkStep state (.deliver index env) =
          state.afterInit receiver env (state.initTo receiver info nowMs) log
            pins
            (state.flight.eraseIdx index) := by
      simp only [networkStep, found, Network.receive, handled, secretOf,
        HandshakeMessage.decode_encode]
      rfl
    rw [reached] at next
    refine ⟨_, log, pins, reached,
      receptive.of_put next rfl ⟨rfl, rfl, rfl, rfl⟩ agree (Or.inl logged) ?_⟩
    change (attempts log (state.peerPub receiver)).length + count ≤ _
    change (attempts log (state.peerPub receiver)).length ≤
      (attempts _ (state.peerPub receiver)).length + 1 at recorded
    omega

theorem Network.Receptive.deliver_ack (signatures : P.SignaturesVerify)
    (kem : P.KemCorrect) (receptive : state.Receptive room)
    (found : state.flight[index]? = some envelope) {number : Nat}
    (leg : envelope.leg = .ack number) (prompt : envelope.Prompt env) :
    ∃ message existing pins,
      networkStep state (.deliver index env) =
          state.afterAck envelope.receiver message existing pins number
            (state.flight.eraseIdx index) ∧
        Network.Receptive
          (state.afterAck envelope.receiver message existing pins number
            (state.flight.eraseIdx index)) room := by
  have next :=
    receptive.tracked.step kem
      (transition_networkStep state (.deliver index env))
  cases receptive.tracked.carries envelope (List.mem_of_getElem? found) with
  | init => cases leg
  | ack receiver _ info mlKemCt nowMs held awaited answers secret =>
    cases leg
    dsimp only at prompt ⊢
    rcases awaited with ⟨existing, waiting⟩
    have admitted :
        ∃ pins,
          (state.node receiver).AdmitsAck env
              (state.ackTo receiver info mlKemCt nowMs) pins existing ∧
            PinsAgree pins (state.peerPub receiver)
              (state.node receiver.peer).pqSigner.pubBytes :=
      admitsAck_create signatures waiting prompt (receptive.trusts receiver)
    rcases admitted with ⟨pins, admits, agree⟩
    have handled :=
      SessionManager.handleAck_of_admits
        (HandshakeMessage.decode_encode
          (state.ackTo receiver info mlKemCt nowMs)) admits
    have reached :
        networkStep state (.deliver index env) =
          state.afterAck receiver (state.ackTo receiver info mlKemCt nowMs)
            existing pins
            number (state.flight.eraseIdx index) := by
      simp only [networkStep, found, Network.receive, handled]
      rfl
    rw [reached] at next
    refine ⟨_, existing, pins, reached, ?_⟩
    have kept :=
      receptive.of_put next rfl ⟨rfl, rfl, rfl, rfl⟩ agree
        (receptive.slots receiver) (receptive.few receiver)
    rwa [Function.update_eq_self] at kept

end Receptive

/-- The side of the larger identity. -/
def Network.largerSide (state : Network P) : Side :=
  if state.larger .left then .left else .right

theorem Network.Tracked.larger_largerSide {state : Network P}
    (tracked : state.Tracked) :
    state.larger state.largerSide = true ∧
      state.larger state.largerSide.peer = false := by
  have flipped := tracked.larger_peer .left
  unfold Network.largerSide
  cases order : state.larger .left with
  | true => simpa [order] using flipped
  | false => simpa [order, Side.peer] using flipped

/-- The last messages the two nodes act on are one encapsulation. -/
def Network.Settled (state : Network P) : Prop :=
  Session.Settled (state.inits state.largerSide)
    (state.acks state.largerSide) (state.inits state.largerSide.peer)
    (state.acks state.largerSide.peer)

/-- Both sides adopt the same secret exactly when the history is settled. -/
theorem Network.Tracked.adopted_eq_iff {state : Network P}
    (tracked : state.Tracked) :
    state.adopted .left = state.adopted .right ↔ state.Settled := by
  have order := tracked.larger_largerSide
  have answered := tracked.answered state.largerSide.peer
  rw [Side.peer_peer] at answered
  have settled :=
    @Session.adopted_eq_iff (state.inits state.largerSide)
      (state.acks state.largerSide) (state.inits state.largerSide.peer)
      (state.acks state.largerSide.peer) answered
      (tracked.apart state.largerSide)
  have own :
      state.adopted state.largerSide =
        Session.adopted true (state.inits state.largerSide)
          (state.acks state.largerSide) := by
    rw [Network.adopted, order.1]
  have other :
      state.adopted state.largerSide.peer =
        Session.adopted false (state.inits state.largerSide.peer)
          (state.acks state.largerSide.peer) := by
    rw [Network.adopted, order.2]
  rw [← own, ← other] at settled
  unfold Network.Settled
  rw [← settled]
  cases state.largerSide with
  | left => exact Iff.rfl
  | right => exact eq_comm

theorem Network.Tracked.shared_eq_iff {state : Network P}
    (tracked : state.Tracked) (fresh : state.secrets.Nodup)
    {first second : Side}
    (chosen : (state.adopted first).isSome = true)
    (chosenToo : (state.adopted second).isSome = true) :
    state.shared first = state.shared second ↔
      state.adopted first = state.adopted second := by
  rcases Option.isSome_iff_exists.mp chosen with ⟨one, adopts⟩
  rcases Option.isSome_iff_exists.mp chosenToo with ⟨other, adoptsToo⟩
  unfold Network.shared
  rw [adopts, adoptsToo]
  simp only [Option.bind_some, Option.some.injEq]
  exact List.getElem?_inj (tracked.adopted_lt adopts) fresh

/--
In every state of every run, two established sessions hold the same secret
exactly when the last messages the nodes act on are one encapsulation.
-/
theorem pqShared_converges_iff (kem : P.KemCorrect) {start : Network P}
    (strangers : start.Strangers) (actions : List (NetworkAction P))
    {session : Side → SessionInfo P}
    (held :
      ∀ side,
        (run networkStep start actions).session side = some (session side))
    (established : ∀ side, (session side).established = true)
    (fresh : (run networkStep start actions).secrets.Nodup) :
    (session .left).pqShared = (session .right).pqShared ↔
      (run networkStep start actions).Settled := by
  have tracked := strangers.tracked_run kem actions
  have chosen (side : Side) :
      ((run networkStep start actions).adopted side).isSome = true := by
    rw [← (tracked.follows side _ (held side)).established]
    exact established side
  rw [(tracked.follows .left _ (held .left)).pqShared,
    (tracked.follows .right _ (held .right)).pqShared,
    tracked.shared_eq_iff fresh (chosen .left) (chosen .right),
    tracked.adopted_eq_iff]

end Convergence

/-! ## A duplicated Init -/

/-- Two sample nodes that have never heard of each other. -/
def sampleNetwork (left right : UInt8) : Network transparent where
  node
    | .left => sampleManager left
    | .right => sampleManager right
  flight := []
  secrets := []
  inits := fun _ => []
  acks := fun _ => []

theorem sampleNetwork_strangers : (sampleNetwork 1 2).Strangers where
  distinct := by decide
  absent := by
    intro side
    cases side <;> rfl
  flight := rfl
  secrets := rfl
  inits := fun _ => rfl
  acks := fun _ => rfl

theorem sampleNetwork_receptive {room : Side → Nat}
    (small : ∀ side, room side ≤ maxInitsPerWindow) :
    (sampleNetwork 1 2).Receptive room where
  tracked := sampleNetwork_strangers.tracked
  trusts := by
    intro side pinned found
    cases side <;> cases found
  slots := by
    intro side
    right
    cases side <;>
      simp [sampleNetwork, sampleManager, SessionManager.new,
        maxInitRateLogEntries]
  few := by
    intro side
    have fits := small side
    cases side <;>
      simpa [sampleNetwork, sampleManager, SessionManager.new, attempts]
        using fits

/-- The Init of the left node arrives twice. -/
def duplicatedInit : List (NetworkAction transparent) :=
  [.initiate .left (sampleSurroundings 10 11), .duplicate 0,
    .deliver 0 (sampleSurroundings 20 21),
    .deliver 0 (sampleSurroundings 20 22)]

/-- The Acks of a duplicated Init overtake each other. -/
def overtakingAcks : List (NetworkAction transparent) :=
  duplicatedInit ++
    [.deliver 1 (sampleSurroundings 30 31),
      .deliver 0 (sampleSurroundings 30 31)]

/-- The Acks of a duplicated Init arrive in order. -/
def orderedAcks : List (NetworkAction transparent) :=
  duplicatedInit ++
    [.deliver 0 (sampleSurroundings 30 31),
      .deliver 0 (sampleSurroundings 30 31)]

/--
Nothing is in flight, both sides are established, and of two encapsulations the
left side has adopted the one of that number and the right side the second.
-/
def EndsWith (state : Network transparent) (number : Nat) : Prop :=
  state.flight = [] ∧
    state.secrets = [Bytes.replicate 32 21, Bytes.replicate 32 22] ∧
    state.adopted .left = some number ∧ state.adopted .right = some 1 ∧
    ((state.session .left).map fun info =>
        (info.established, info.pqShared)) =
      some (true, state.secrets[number]?) ∧
    ((state.session .right).map fun info =>
        (info.established, info.pqShared)) =
      some (true, state.secrets[1]?)

instance (state : Network transparent) (number : Nat) :
    Decidable (EndsWith state number) :=
  inferInstanceAs (Decidable (_ ∧ _))

theorem duplicatedInit_ends :
    EndsWith (run networkStep (sampleNetwork 1 2) overtakingAcks) 0 ∧
      EndsWith (run networkStep (sampleNetwork 1 2) orderedAcks) 1 := by
  decide +kernel

theorem EndsWith.sessions {state : Network transparent}
    {number : Nat} (ends : EndsWith state number) :
    ∃ session : Side → SessionInfo transparent,
      (∀ side, state.session side = some (session side)) ∧
        (∀ side, (session side).established = true) ∧
        (session .left).pqShared = state.secrets[number]? ∧
        (session .right).pqShared = state.secrets[1]? := by
  rcases ends with ⟨_, _, _, _, leftHolds, rightHolds⟩
  rcases Option.map_eq_some_iff.mp leftHolds with ⟨one, oneHeld, oneIs⟩
  rcases Option.map_eq_some_iff.mp rightHolds with ⟨other, otherHeld, otherIs⟩
  rw [Prod.mk.injEq] at oneIs otherIs
  exact ⟨fun | .left => one | .right => other,
    fun | .left => oneHeld | .right => otherHeld,
    fun | .left => oneIs.1 | .right => otherIs.1, oneIs.2, otherIs.2⟩

/--
An Init arrives twice and the two Acks overtake each other: both sessions are
established, nothing is in flight, every secret is fresh, and the two nodes
hold different secrets.
-/
theorem pqShared_diverges_after_duplicate :
    (sampleNetwork 1 2).Strangers ∧
      (run networkStep (sampleNetwork 1 2) overtakingAcks).flight = [] ∧
      (run networkStep (sampleNetwork 1 2) overtakingAcks).secrets.Nodup ∧
      ∃ session : Side → SessionInfo transparent,
        (∀ side,
          (run networkStep (sampleNetwork 1 2) overtakingAcks).session
            side = some (session side)) ∧
        (∀ side, (session side).established = true) ∧
        (session .left).pqShared ≠ (session .right).pqShared := by
  have ends := duplicatedInit_ends.1
  rcases ends.sessions with ⟨session, held, established, left, right⟩
  refine ⟨sampleNetwork_strangers, ends.1, ?_, session, held, established, ?_⟩
  · rw [ends.2.1]
    decide
  · rw [left, right, ends.2.1]
    decide

/-- In order, the second Ack brings the two nodes together. -/
theorem pqShared_converges_in_order :
    ∃ session : Side → SessionInfo transparent,
      (∀ side,
        (run networkStep (sampleNetwork 1 2) orderedAcks).session side =
          some (session side)) ∧
      (∀ side, (session side).established = true) ∧
      (session .left).pqShared = (session .right).pqShared := by
  have ends := duplicatedInit_ends.2
  rcases ends.sessions with ⟨session, held, established, _⟩
  have fresh :
      (run networkStep (sampleNetwork 1 2) orderedAcks).secrets.Nodup := by
    rw [ends.2.1]
    decide
  have tracked :=
    sampleNetwork_strangers.tracked_run transparent_kemCorrect
      orderedAcks
  exact ⟨session, held, established,
    (pqShared_converges_iff transparent_kemCorrect
      sampleNetwork_strangers orderedAcks held established fresh).mpr
      (tracked.adopted_eq_iff.mp (ends.2.2.1.trans ends.2.2.2.1.symm))⟩

end Norn.Session
