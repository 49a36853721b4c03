import Norn.Session.Endpoints
import Norn.Session.Honest

/-!
# Two nodes and the messages between them

Two session managers exchange handshake messages over a network that may
lose, duplicate, delay and reorder them.  Either node may ask for a session
and retransmit its pending Init at any time.

Besides the two managers the machine keeps the messages in flight and a
history: the secrets encapsulated so far and, for each node, which Inits and
Acks it has handled.  Every encapsulation has a number, and an Ack in flight
remembers the number of the encapsulation it answers with.  Every message
remembers when it was sent.  A message a handler refuses is lost.
-/

namespace Norn.Session

open Foundation Foundation.Run

/-- A handshake message in flight; an Ack answers a numbered secret. -/
inductive Leg where
  | init
  | ack (number : Nat)
  deriving DecidableEq, Repr

/-- A message on its way to one of the two nodes. -/
structure Envelope where
  receiver : Side
  leg : Leg
  sentMs : UInt64
  bytes : List UInt8
  deriving DecidableEq

/-- Two nodes, the messages between them and the history of the run. -/
structure Network (P : Primitives) where
  node : Side → SessionManager P
  flight : List Envelope
  secrets : List (Bytes 32)
  inits : Side → List Nat
  acks : Side → List Nat

/-- What can happen in the network. -/
inductive NetworkAction (P : Primitives) where
  | initiate (side : Side) (env : Surroundings P)
  | retransmit (side : Side) (now : Instant) (nowMs : UInt64)
  | deliver (index : Nat) (env : Surroundings P)
  | lose (index : Nat)
  | duplicate (index : Nat)

section Network

variable {P : Primitives}

/-- The identity of the other node. -/
def Network.peerPub (state : Network P) (side : Side) : Bytes 32 :=
  (state.node side.peer).ourPub

/-- The session a node holds for the other one. -/
def Network.session (state : Network P) (side : Side) :
    Option (SessionInfo P) :=
  (state.node side).sessions.peek (state.peerPub side)

/-- Replace the manager of one node. -/
def Network.put (state : Network P) (side : Side)
    (manager : SessionManager P) : Network P :=
  { state with node := Function.update state.node side manager }

/-- The secret a handled Init has drawn. -/
def secretOf (env : Surroundings P) (bytes : List UInt8) : Bytes 32 :=
  match HandshakeMessage.decode .init bytes with
  | .ok init => SessionManager.drawnSecret env init
  | .error _ => Bytes.replicate 32 0

/-- The Inits of one node that are addressed to the other. -/
def addressed (side : Side) (peerPub : Bytes 32) (nowMs : UInt64)
    (out : List (Bytes 32 × List UInt8)) : List Envelope :=
  (out.filter fun entry => entry.1 = peerPub).map fun entry =>
    ⟨side.peer, .init, nowMs, entry.2⟩

/-- Hand a message to its receiver. -/
def Network.receive (state : Network P) (envelope : Envelope)
    (env : Surroundings P) : Network P :=
  let side := envelope.receiver
  match envelope.leg with
  | .init =>
    match (state.node side).handleInit env envelope.bytes with
    | (.ok ack, manager) =>
      let number := state.secrets.length
      { state.put side manager with
        flight :=
          state.flight ++ [⟨side.peer, .ack number, env.nowMs, ack⟩]
        secrets := state.secrets ++ [secretOf env envelope.bytes]
        inits :=
          Function.update state.inits side (number :: state.inits side) }
    | (.error _, manager) => state.put side manager
  | .ack number =>
    match (state.node side).handleAck env envelope.bytes with
    | (.ok _, manager) =>
      { state.put side manager with
        acks :=
          Function.update state.acks side (number :: state.acks side) }
    | (.error _, manager) => state.put side manager

/-- One step of the network. -/
def networkStep (state : Network P) : NetworkAction P → Network P
  | .initiate side env =>
    match (state.node side).getOrInitiateBytes env (state.peerPub side) with
    | (none, manager) => state.put side manager
    | (some init, manager) =>
      { state.put side manager with
        flight := state.flight ++ [⟨side.peer, .init, env.nowMs, init⟩] }
  | .retransmit side now nowMs =>
    let (out, manager) := (state.node side).pendingHandshakeInits now nowMs
    { state.put side manager with
      flight :=
        state.flight ++ addressed side (state.peerPub side) nowMs out }
  | .deliver index env =>
    match state.flight[index]? with
    | none => state
    | some envelope =>
      { state with flight := state.flight.eraseIdx index }.receive envelope env
  | .lose index => { state with flight := state.flight.eraseIdx index }
  | .duplicate index =>
    { state with
      flight := state.flight ++ state.flight[index]?.toList }

/-! ## What one step does -/

/-- Two managers of one node: same identity, same long-term keys. -/
structure SameNode (before after : SessionManager P) : Prop where
  ourSigningKey : after.ourSigningKey = before.ourSigningKey
  pqKeys : after.pqKeys = before.pqKeys
  ownCoord : after.ownCoord = before.ownCoord
  pqSigner : after.pqSigner = before.pqSigner

variable (manager : SessionManager P) (state : Network P)

theorem SameNode.refl :
    SameNode manager manager :=
  ⟨rfl, rfl, rfl, rfl⟩

theorem SameNode.ourPub {before after : SessionManager P}
    (same : SameNode before after) : after.ourPub = before.ourPub := by
  unfold SessionManager.ourPub
  rw [same.ourSigningKey]

theorem SameNode.initFor {before after : SessionManager P}
    (same : SameNode before after) (remoteEdPub localPub : Bytes 32)
    (nowMs : UInt64) :
    after.initFor remoteEdPub localPub nowMs =
      before.initFor remoteEdPub localPub nowMs := by
  unfold SessionManager.initFor
  rw [same.ourSigningKey, same.pqKeys, same.ownCoord, same.pqSigner]

/-- A session has not advanced in its handshake. -/
inductive Unadvanced :
    Option (SessionInfo P) → Option (SessionInfo P) → Prop where
  | same (session : Option (SessionInfo P)) : Unadvanced session session
  | marked (info : SessionInfo P) (now : Instant) :
      Unadvanced (some info) (some (info.markRetx now))
  | opened (info : SessionInfo P) (pending : info.established = false)
      (unset : info.pqShared = none)
      (unused :
        info.localSeq = 0 ∧ info.remoteSeqHigh = 0 ∧ info.remoteSeqWindow = 0) :
      Unadvanced none (some info)

/-- An Init one node has just sent, for the session it holds. -/
structure SentInit (manager : SessionManager P) (side : Side)
    (peerPub : Bytes 32) (envelope : Envelope) : Prop where
  receiver : envelope.receiver = side.peer
  leg : envelope.leg = .init
  content :
    ∃ info,
      manager.sessions.peek peerPub = some info ∧
        envelope.bytes =
          (manager.initFor peerPub info.localX25519Pub envelope.sentMs).encode

/-- The state after an Init has been admitted. -/
def Network.afterInit (state : Network P) (receiver : Side)
    (env : Surroundings P) (message : SessionInit) (log : RateLog)
    (pins : PinTable) (flight : List Envelope) : Network P :=
  { state.put receiver
      { state.node receiver with
        initRateLog := log
        pqPins := pins
        sessions := (state.node receiver).sessionsAfterInit env message } with
    flight :=
      flight ++
        [⟨receiver.peer, .ack state.secrets.length, env.nowMs,
          ((state.node receiver).ackFor env message).encode⟩]
    secrets := state.secrets ++ [SessionManager.drawnSecret env message]
    inits :=
      Function.update state.inits receiver
        (state.secrets.length :: state.inits receiver) }

/-- The state after an Ack has been admitted. -/
def Network.afterAck (state : Network P) (receiver : Side)
    (message : SessionAck) (existing : SessionInfo P) (pins : PinTable)
    (number : Nat) (flight : List Envelope) : Network P :=
  { state.put receiver
      { state.node receiver with
        pqPins := pins
        sessions :=
          (state.node receiver).sessionsAfterAck message existing } with
    flight := flight
    acks :=
      Function.update state.acks receiver (number :: state.acks receiver) }

/-- The three ways in which the network moves. -/
inductive Transition (state : Network P) : Network P → Prop where
  | quiet (side : Side) (manager : SessionManager P) (flight : List Envelope)
      (sameNode : SameNode (state.node side) manager)
      (unadvanced :
        Unadvanced (state.session side)
          (manager.sessions.peek (state.peerPub side)))
      (carried :
        ∀ envelope ∈ flight,
          envelope ∈ state.flight ∨
            SentInit manager side (state.peerPub side) envelope) :
      Transition state { state.put side manager with flight := flight }
  | init (envelope : Envelope) (env : Surroundings P)
      (message : SessionInit) (log : RateLog) (pins : PinTable)
      (flight : List Envelope)
      (sent : envelope ∈ state.flight)
      (leg : envelope.leg = .init)
      (decoded : HandshakeMessage.decode .init envelope.bytes = .ok message)
      (admits : (state.node envelope.receiver).AdmitsInit env message log pins)
      (carried : ∀ other ∈ flight, other ∈ state.flight) :
      Transition state
        (state.afterInit envelope.receiver env message log pins flight)
  | ack (envelope : Envelope) (number : Nat) (env : Surroundings P)
      (message : SessionAck) (pins : PinTable) (existing : SessionInfo P)
      (flight : List Envelope)
      (sent : envelope ∈ state.flight)
      (leg : envelope.leg = .ack number)
      (decoded : HandshakeMessage.decode .ack envelope.bytes = .ok message)
      (admits :
        (state.node envelope.receiver).AdmitsAck env message pins existing)
      (carried : ∀ other ∈ flight, other ∈ state.flight) :
      Transition state
        (state.afterAck envelope.receiver message existing pins number flight)

theorem Network.put_self (side : Side) :
    state.put side (state.node side) = state := by
  simp [Network.put]

theorem Transition.of_flight {flight : List Envelope}
    (carried : ∀ envelope ∈ flight, envelope ∈ state.flight) :
    Transition state { state with flight := flight } := by
  have quiet :=
    Transition.quiet Side.left (state.node .left) flight (SameNode.refl _)
      (Unadvanced.same _)
      fun envelope member => Or.inl (carried envelope member)
  rwa [Network.put_self] at quiet

theorem transition_receive {envelope : Envelope}
    (sent : envelope ∈ state.flight) (env : Surroundings P)
    {flight : List Envelope}
    (carried : ∀ other ∈ flight, other ∈ state.flight) :
    Transition state
      ({ state with flight := flight }.receive envelope env) := by
  have refused (manager : SessionManager P)
      (sameNode : SameNode (state.node envelope.receiver) manager)
      (sameSessions :
        manager.sessions = (state.node envelope.receiver).sessions) :
      Transition state
        ({ state with flight := flight }.put envelope.receiver manager) := by
    refine Transition.quiet envelope.receiver manager flight sameNode ?_
      fun other member => Or.inl (carried other member)
    rw [sameSessions]
    exact Unadvanced.same _
  unfold Network.receive
  cases leg : envelope.leg with
  | init =>
    rcases (state.node envelope.receiver).handleInit_cases env
      envelope.bytes with
      ⟨failure, log, pins, error⟩ | ⟨init, log, pins, decoded, admits⟩
    · simp only [error]
      exact refused _ ⟨rfl, rfl, rfl, rfl⟩ rfl
    · have accepted := SessionManager.handleInit_of_admits decoded admits
      simp only [accepted, secretOf, decoded]
      exact Transition.init envelope env init log pins flight sent leg decoded
        admits carried
  | ack number =>
    rcases (state.node envelope.receiver).handleAck_cases env
      envelope.bytes with
      ⟨failure, pins, error⟩ | ⟨ack, pins, existing, decoded, admits⟩
    · simp only [error]
      exact refused _ ⟨rfl, rfl, rfl, rfl⟩ rfl
    · have accepted := SessionManager.handleAck_of_admits decoded admits
      simp only [accepted]
      exact Transition.ack envelope number env ack pins existing flight
        sent leg decoded admits carried

theorem unadvanced_pendingHandshakeInits (remoteEdPub : Bytes 32)
    (now : Instant) (nowMs : UInt64) :
    Unadvanced (manager.sessions.peek remoteEdPub)
      ((manager.pendingHandshakeInits now nowMs).2.sessions.peek
        remoteEdPub) := by
  cases found : manager.sessions.handle remoteEdPub with
  | none =>
    have before := (manager.sessions.peek_eq_none_iff remoteEdPub).mpr found
    have after :=
      ((manager.pendingHandshakeInits now nowMs).2.sessions.peek_eq_none_iff
        remoteEdPub).mpr found
    rw [before, after]
    exact Unadvanced.same none
  | some cell =>
    rcases manager.sessions.deref_of_handle found with ⟨info, content⟩
    have before := (manager.sessions.peek_of_handle found).trans content
    have after :
        (manager.pendingHandshakeInits now nowMs).2.sessions.peek remoteEdPub =
          some (if info.retxDue now then info.markRetx now
            else info) := by
      simp only [SessionManager.pendingHandshakeInits,
        HandleTable.peek_updateAll _ _ found, before, Option.map_some]
    rw [before, after]
    split_ifs
    · exact Unadvanced.marked info now
    · exact Unadvanced.same (some info)

theorem Unadvanced.localX25519Pub {before after : Option (SessionInfo P)}
    (unadvanced : Unadvanced before after) {info : SessionInfo P}
    (held : before = some info) :
    ∃ later, after = some later ∧
      later.localX25519Pub = info.localX25519Pub := by
  cases unadvanced with
  | same => exact ⟨info, held, rfl⟩
  | marked =>
    cases held
    exact ⟨_, rfl, rfl⟩
  | opened => cases held

theorem sentInit_of_addressed (side : Side) (peerPub : Bytes 32) (now : Instant)
    (nowMs : UInt64) {envelope : Envelope}
    (member :
      envelope ∈
        addressed side peerPub nowMs
          (manager.pendingHandshakeInits now nowMs).1) :
    SentInit (manager.pendingHandshakeInits now nowMs).2 side peerPub
      envelope := by
  simp only [addressed, List.mem_map, List.mem_filter, decide_eq_true_eq]
    at member
  rcases member with ⟨⟨remote, bytes⟩, ⟨listed, same⟩, shape⟩
  simp only [SessionManager.pendingHandshakeInits, List.mem_filterMap] at listed
  rcases listed with ⟨entry, stored, produced⟩
  have found := manager.sessions.handle_of_mem_entries stored
  rcases manager.sessions.deref_of_handle found with ⟨info, content⟩
  have held := (manager.sessions.peek_of_handle found).trans content
  simp only [content] at produced
  split_ifs at produced
  cases produced
  dsimp only at same
  subst same
  subst shape
  rcases (unadvanced_pendingHandshakeInits manager entry.1 now
    nowMs).localX25519Pub held with
    ⟨later, kept, sameKey⟩
  refine ⟨rfl, rfl, later, kept, ?_⟩
  rw [sameKey]
  rfl

theorem networkStep_initiate {state : Network P} {side : Side}
    (absent : (state.node side).sessions.handle (state.peerPub side) = none)
    (env : Surroundings P) :
    networkStep state (.initiate side env) =
      { state.put side
          ((state.node side).initiate env (state.peerPub side)).2 with
        flight :=
          state.flight ++
            [⟨side.peer, .init, env.nowMs,
              ((state.node side).initiate env (state.peerPub side)).1⟩] } := by
  have asked :
      (state.node side).getOrInitiateBytes env (state.peerPub side) =
        (some ((state.node side).initiate env (state.peerPub side)).1,
          ((state.node side).initiate env (state.peerPub side)).2) := by
    simp [SessionManager.getOrInitiateBytes, absent]
  simp only [networkStep, asked]

/-- Every step of the network is a transition. -/
theorem transition_networkStep (action : NetworkAction P) :
    Transition state (networkStep state action) := by
  cases action with
  | initiate side env =>
    cases found : (state.node side).sessions.handle (state.peerPub side) with
    | some cell =>
      have kept :
          (state.node side).getOrInitiateBytes env
              (state.peerPub side) = (none, state.node side) := by
        simp [SessionManager.getOrInitiateBytes, found]
      simp only [networkStep, kept, Network.put_self]
      exact Transition.of_flight state fun _ member => member
    | none =>
      rw [networkStep_initiate found]
      have absent : state.session side = none :=
        (HandleTable.peek_eq_none_iff _ _).mpr found
      have created :
          ((state.node side).initiate env (state.peerPub side)).2.sessions.peek
              (state.peerPub side) =
            some (SessionInfo.new (state.peerPub side) env.newPriv
              (Bytes.replicate 32 0) env.now) :=
        HandleTable.peek_insert_self _ _ _
      refine Transition.quiet side _ _ ⟨rfl, rfl, rfl, rfl⟩ ?_ ?_
      · rw [absent, created]
        exact Unadvanced.opened _ rfl rfl ⟨rfl, rfl, rfl⟩
      · intro envelope member
        rcases List.mem_append.mp member with older | newer
        · exact Or.inl older
        · right
          rw [List.mem_singleton] at newer
          subst newer
          exact ⟨rfl, rfl, _, created, rfl⟩
  | retransmit side now nowMs =>
    refine Transition.quiet side _ _ ⟨rfl, rfl, rfl, rfl⟩
      (unadvanced_pendingHandshakeInits _ _ now nowMs) ?_
    intro envelope member
    rcases List.mem_append.mp member with older | newer
    · exact Or.inl older
    · exact Or.inr (sentInit_of_addressed _ _ _ now nowMs newer)
  | deliver index env =>
    cases found : state.flight[index]? with
    | none =>
      simp only [networkStep, found]
      exact Transition.of_flight state fun _ member => member
    | some envelope =>
      simp only [networkStep, found]
      exact transition_receive state (List.mem_of_getElem? found) env
        fun _ member => List.mem_of_mem_eraseIdx member
  | lose index =>
    exact Transition.of_flight state
      fun _ member => List.mem_of_mem_eraseIdx member
  | duplicate index =>
    refine Transition.of_flight state ?_
    intro envelope member
    rcases List.mem_append.mp member with older | copy
    · exact older
    · exact List.mem_of_getElem? (Option.mem_toList.mp copy)

end Network

end Norn.Session
