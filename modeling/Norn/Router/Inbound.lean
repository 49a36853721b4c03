import Norn.Router.Traffic

/-!
# Where inbound packets come from

A router handles frames from anyone, interleaved with local operations on its
session manager and with reads of the inbound queue.  The log of a run keeps,
latest first, which handshake messages were accepted on which session and
which packets were delivered from which session.

A delivered packet names its source in a header that anyone can build, so it
is only as trustworthy as the session it was decrypted under.  `handle_data`
does not look at the established flag of that session.  As long as every data
packet finds an established session, the session has completed a handshake
with the named source; a pending session accepts packets from whoever knows
its public key.
-/

namespace Norn.Router

open Foundation Foundation.Run Session Primitives

/-- What can happen to a router. -/
inductive RouterAction (P : Primitives) where
  | frame (env : FrameEnv P) (fromPeer : Bytes 32) (traffic : Traffic)
  | operate (op : ManagerOp P) (isLocal : op.Local)
  | readFrom

/-- A router and what it has done, latest first. -/
structure RouterTrace (P : Primitives) where
  state : RouterState P
  log : List Event

section Inbound

variable {P : Primitives}

/-- One step of a router. -/
def routerStep (trace : RouterTrace P) : RouterAction P → RouterTrace P
  | .frame env fromPeer traffic =>
    let (state, events) := trace.state.handleTraffic env fromPeer traffic
    ⟨state, events.reverse ++ trace.log⟩
  | .operate op _ =>
    { trace with
      state :=
        { trace.state with
          sessions := op.apply trace.state.sessions } }
  | .readFrom =>
    { trace with
      state :=
        { trace.state with
          trafficTx := trace.state.trafficTx.tail } }

/-- The event is a delivery. -/
def Event.IsDelivery : Event → Prop
  | .delivered _ _ => True
  | _ => False

/-- Nothing is delivered. -/
def Silent (events : List Event) : Prop := ∀ event ∈ events, ¬ event.IsDelivery

theorem silent_nil : Silent [] := by
  intro event member
  cases member

theorem silent_singleton {event : Event} (other : ¬ event.IsDelivery) :
    Silent [event] := by
  intro only member
  rw [List.mem_singleton] at member
  rw [member]
  exact other

theorem Silent.append {first second : List Event} (one : Silent first)
    (two : Silent second) : Silent (first ++ second) := by
  intro event member
  rcases List.mem_append.mp member with early | late
  · exact one event early
  · exact two event late

/-! ## What one frame does -/

/-- No session of the key has become established. -/
abbrev Quiet (before after : SessionManager P) (key : Bytes 32) : Prop :=
  HandleTable.ReflectsAt SessionInfo.Established key before.sessions
    after.sessions

/-- The three things a frame can amount to. -/
inductive TrafficMove (before : SessionManager P) (traffic : Traffic)
    (after : SessionManager P) (events : List Event) : Prop where
  | quiet (reflects : ∀ key, Quiet before after key) (silent : Silent events)
  | handshake (remote : Bytes 32) (signed : List UInt8) (signature : Bytes 64)
      (verified : P.verifyStrict remote signed signature = true)
      (recorded :
        ∀ cell, after.sessions.handle remote = some cell →
          Event.handshake remote cell signed ∈ events)
      (others : ∀ key, key ≠ remote → Quiet before after key)
      (silent : Silent events)
  | delivery (source : Bytes 32) (cell : Nat) (info : SessionInfo P)
      (payload : List UInt8)
      (ours : traffic.routingTag = routingTag P before.ourPub)
      (data : traffic.pktType = pktData)
      (opened :
        decryptSourceFromHeader P traffic.encHeader
          before.ourSigningKey = some source)
      (found : before.sessions.handle source = some cell)
      (content : before.sessions.deref cell = some info)
      (reflects : ∀ key, Quiet before after key)
      (pushed : events = [.delivered cell ⟨source, payload⟩])

theorem TrafficMove.idle {before after : SessionManager P} {traffic : Traffic}
    {events : List Event}
    (same : after.sessions = before.sessions) (silent : Silent events) :
    TrafficMove before traffic after events := by
  refine .quiet ?_ silent
  intro key
  rw [Quiet, same]
  exact HandleTable.ReflectsAt.refl _ key _

namespace RouterState

variable (self : RouterState P)

variable (env : FrameEnv P)

theorem silent_sendTrafficTo (dst : Bytes 32) (payload : List UInt8) :
    Silent (self.sendTrafficTo env dst payload) := by
  unfold sendTrafficTo
  simp only
  cases env.routing.lookup dst with
  | none => exact silent_nil
  | some nextHop => exact silent_singleton id

theorem silent_sendPathNegative (toPeer : Bytes 32) (tag : Bytes 16)
    (ttl : UInt8) : Silent (sendPathNegative toPeer tag ttl) := by
  unfold sendPathNegative
  split_ifs
  · exact silent_nil
  · exact silent_singleton id

theorem silent_forward (fromPeer : Bytes 32) (traffic : Traffic) :
    Silent (self.forward env fromPeer traffic) := by
  simp only [forward]
  split
  · exact silent_sendPathNegative _ _ _
  · split
    · exact silent_singleton id
    · split
      · exact silent_nil
      · exact silent_sendPathNegative _ _ _

theorem silent_handshakeEvent (sessions : SessionManager P)
    (remote : Bytes 32) (signed : List UInt8) :
    Silent (handshakeEvent sessions remote signed) := by
  unfold handshakeEvent
  cases sessions.getSession remote with
  | none => exact silent_nil
  | some cell => exact silent_singleton id

theorem mem_handshakeEvent {sessions : SessionManager P} {remote : Bytes 32}
    {cell : Nat}
    (found : sessions.sessions.handle remote = some cell)
    (signed : List UInt8) :
    Event.handshake remote cell signed ∈
      handshakeEvent sessions remote signed := by
  simp [handshakeEvent, SessionManager.getSession, found]

variable {self} {traffic : Traffic}

theorem move_handleInitFrame (raw : List UInt8) :
    TrafficMove self.sessions traffic (self.handleInitFrame env raw).1.sessions
      (self.handleInitFrame env raw).2 := by
  unfold handleInitFrame
  rcases self.sessions.handleInit_cases env.call raw with
    ⟨failure, log, pins, refused⟩ | ⟨init, log, pins, decoded, admits⟩
  · simp only [refused]
    exact .idle rfl silent_nil
  · have verified :=
      ((HandshakeMessage.verify_eq_ok_iff P init _ _).mp admits.verified).2.2.2
    simp only [SessionManager.handleInit_of_admits decoded admits, decoded,
      sessions_notePeerCoord]
    refine .handshake init.edPub init.signedBytes init.signature verified ?_ ?_
      ?_
    · intro cell found
      exact List.mem_append_left _ (mem_handshakeEvent found _)
    · intro key distinct
      exact reflectsAt_sessionsAfterInit _ _ _ distinct
    · refine (silent_handshakeEvent _ _ _).append ?_
      split
      · exact silent_sendTrafficTo _ _ _ _
      · exact silent_nil

theorem move_handleAckFrame (raw : List UInt8) :
    TrafficMove self.sessions traffic (self.handleAckFrame env raw).1.sessions
      (self.handleAckFrame env raw).2 := by
  unfold handleAckFrame
  rcases self.sessions.handleAck_cases env.call raw with
    ⟨failure, pins, refused⟩ | ⟨ack, pins, existing, decoded, admits⟩
  · simp only [refused]
    exact .idle rfl silent_nil
  · have verified :=
      ((HandshakeMessage.verify_eq_ok_iff P ack _ _).mp admits.verified).2.2.2
    simp only [SessionManager.handleAck_of_admits decoded admits, decoded,
      sessions_notePeerCoord]
    refine .handshake ack.edPub ack.signedBytes ack.signature verified
      ?_ ?_ (silent_handshakeEvent _ _ _)
    · intro cell found
      exact mem_handshakeEvent found _
    · intro key distinct
      exact reflectsAt_sessionsAfterAck _ _ _ distinct

theorem move_handleControl (env : FrameEnv P) (payload : List UInt8) :
    TrafficMove self.sessions traffic
      (self.handleControl env payload).1.sessions
      (self.handleControl env payload).2 := by
  unfold handleControl
  cases unpadPayload payload with
  | error failure => exact .idle rfl silent_nil
  | ok raw =>
    simp only
    split_ifs
    · exact move_handleInitFrame env raw
    · exact move_handleAckFrame env raw
    · exact .idle rfl silent_nil

theorem quiet_decrypt {manager : SessionManager P} {cell : Nat}
    {info : SessionInfo P}
    (content : manager.sessions.deref cell = some info) (now : Instant)
    (ciphertext : List UInt8) (key : Bytes 32) :
    HandleTable.ReflectsAt SessionInfo.Established key manager.sessions
      (manager.sessions.update cell fun _ =>
        (info.decrypt now ciphertext).2) := by
  apply HandleTable.reflectsAt_update
  intro value same established
  cases content.symm.trans same
  exact (info.decrypt_handshake now ciphertext).1.symm.trans established

theorem move_handleData (ours : traffic.routingTag = routingTag P self.pubKey)
    (data : traffic.pktType = pktData) :
    TrafficMove self.sessions traffic (self.handleData env traffic).1.sessions
      (self.handleData env traffic).2 := by
  cases opened : decryptSourceFromHeader P traffic.encHeader
    self.signingKey with
  | none =>
    simp only [handleData, opened]
    exact .idle rfl silent_nil
  | some source =>
    cases found : self.sessions.getSession source with
    | none =>
      simp only [handleData, opened, found]
      exact .idle rfl silent_nil
    | some cell =>
      cases content : self.sessions.sessions.deref cell with
      | none =>
        simp only [handleData, opened, found, content]
        exact .idle rfl silent_nil
      | some info =>
        have reflects := quiet_decrypt content env.call.now traffic.payload
        simp only [handleData, opened, found, content]
        split
        · exact .quiet reflects silent_nil
        · split
          · exact .quiet reflects silent_nil
          · unfold push
            split_ifs
            · exact .delivery source cell info _ ours data opened found content
                reflects rfl
            · exact .quiet reflects silent_nil

theorem move_handleTraffic (self : RouterState P) (env : FrameEnv P)
    (fromPeer : Bytes 32) (traffic : Traffic) :
    TrafficMove self.sessions traffic
      (self.handleTraffic env fromPeer traffic).1.sessions
      (self.handleTraffic env fromPeer traffic).2 := by
  have touched :=
    self.sessions_touchPeer fromPeer env.call.now traffic.payload.length
  unfold handleTraffic
  simp only
  rw [← touched]
  split_ifs with ours control data
  · exact move_handleControl env traffic.payload
  · exact move_handleData env ours data
  · exact .idle rfl silent_nil
  · exact .idle rfl (silent_forward _ _ _ _)

end RouterState

/-! ## Every run -/

section Authenticity

variable (signed : Bytes 32 → List UInt8 → Prop)

variable {trace : RouterTrace P} {log events : List Event}

/-- The session of a key has completed a handshake the key has signed. -/
def Completed (log : List Event) (remote : Bytes 32) (cell : Nat) :
    Prop :=
  ∃ message, Event.handshake remote cell message ∈ log ∧ signed remote message

/-- Every delivery comes after a handshake on the same session. -/
def Authentic (log : List Event) : Prop :=
  ∀ newer cell packet older,
    log = newer ++ .delivered cell packet :: older →
      Completed signed older packet.fromPeer cell

/-- Every established session in the table has completed a handshake. -/
def RouterTrace.Recorded (trace : RouterTrace P) : Prop :=
  ∀ remote cell info,
    trace.state.sessions.sessions.handle remote = some cell →
      trace.state.sessions.sessions.deref cell = some info →
        info.Established → Completed signed trace.log remote cell

/-- A data packet finds the session of its source established, if any. -/
def RouterTrace.FindsEstablished (trace : RouterTrace P) : RouterAction P → Prop
  | .frame _ _ traffic =>
    traffic.routingTag = routingTag P trace.state.pubKey →
      traffic.pktType = pktData →
        ∀ source info,
          decryptSourceFromHeader P traffic.encHeader
              trace.state.signingKey = some source →
            trace.state.sessions.sessions.peek source = some info →
              info.established = true
  | _ => True

theorem RouterTrace.findsEstablished_frame {env : FrameEnv P}
    {fromPeer : Bytes 32} {traffic : Traffic}
    (finds :
      ((decryptSourceFromHeader P traffic.encHeader
          trace.state.signingKey).bind
            trace.state.sessions.sessions.peek).map SessionInfo.established =
              some true) :
    trace.FindsEstablished (.frame env fromPeer traffic) := by
  intro _ _ source info opened held
  rw [opened, Option.bind_some, held] at finds
  exact Option.some.inj finds

variable {signed}

theorem Completed.append {remote : Bytes 32} {cell : Nat}
    (completed : Completed signed log remote cell) (newer : List Event) :
    Completed signed (newer ++ log) remote cell := by
  rcases completed with ⟨message, member, witness⟩
  exact ⟨message, List.mem_append_right _ member, witness⟩

theorem authentic_cons {event : Event} (authentic : Authentic signed log)
    (backed :
      ∀ cell packet, event = .delivered cell packet →
        Completed signed log packet.fromPeer cell) :
    Authentic signed (event :: log) := by
  intro newer cell packet older split
  cases newer with
  | nil =>
    cases split
    exact backed cell packet rfl
  | cons head rest =>
    cases split
    exact authentic rest cell packet older rfl

theorem Authentic.append_silent (authentic : Authentic signed log)
    (silent : Silent events) : Authentic signed (events ++ log) := by
  induction events with
  | nil => exact authentic
  | cons event rest induction =>
    refine authentic_cons (induction ?_) ?_
    · intro other member
      exact silent other (List.mem_cons_of_mem event member)
    · intro cell packet shape
      have quiet := silent event List.mem_cons_self
      rw [shape] at quiet
      exact absurd trivial quiet

theorem Silent.reverse (silent : Silent events) : Silent events.reverse :=
  fun event member => silent event (List.mem_reverse.mp member)

theorem RouterTrace.Recorded.of_quiet (recorded : trace.Recorded signed)
    {after : RouterState P} {remote : Bytes 32}
    (quiet : Quiet trace.state.sessions after.sessions remote) {cell : Nat}
    {info : SessionInfo P}
    (found : after.sessions.sessions.handle remote = some cell)
    (content : after.sessions.sessions.deref cell = some info)
    (established : info.Established) :
    Completed signed (events ++ trace.log) remote cell := by
  rcases quiet cell info found content established with
    ⟨earlier, value, stored, wasEstablished⟩
  exact (recorded remote cell value earlier stored wasEstablished).append events

/-- What holds of a router whose data packets find established sessions. -/
structure RouterTrace.Vouched (signed : Bytes 32 → List UInt8 → Prop)
    (trace : RouterTrace P) : Prop where
  recorded : trace.Recorded signed
  authentic : Authentic signed trace.log

theorem RouterTrace.Vouched.frame (sound : trace.Vouched signed)
    (unforgeable :
      ∀ key message signature, P.verifyStrict key message signature = true →
        signed key message)
    (env : FrameEnv P) (fromPeer : Bytes 32) (traffic : Traffic)
    (finds : trace.FindsEstablished (.frame env fromPeer traffic)) :
    (routerStep trace (.frame env fromPeer traffic)).Vouched signed := by
  cases trace.state.move_handleTraffic env fromPeer traffic with
  | quiet reflects silent =>
    constructor
    · intro remote cell info found content established
      exact sound.recorded.of_quiet (reflects remote) found content established
    · exact sound.authentic.append_silent silent.reverse
  | handshake remote message signature verified recorded others silent =>
    constructor
    · intro key cell info found content established
      by_cases same : key = remote
      · subst same
        refine ⟨message, List.mem_append_left _ ?_, unforgeable _ _ _ verified⟩
        exact List.mem_reverse.mpr (recorded cell found)
      · exact sound.recorded.of_quiet (others key same) found content
          established
    · exact sound.authentic.append_silent silent.reverse
  | delivery source cell info payload ours data opened found content reflects
    pushed =>
      have held : trace.state.sessions.sessions.peek source = some info :=
        (HandleTable.peek_of_handle _ found).trans content
      have established := finds ours data source info opened held
      constructor
      · intro key other later foundLater contentLater establishedLater
        exact sound.recorded.of_quiet (reflects key) foundLater contentLater
          establishedLater
      · change
          Authentic signed
            ((trace.state.handleTraffic env fromPeer traffic).2.reverse ++
              trace.log)
        rw [pushed]
        refine authentic_cons sound.authentic ?_
        intro other packet shape
        cases shape
        exact sound.recorded source cell info found content established

/-- A step whose packets find established sessions stays vouched for. -/
theorem RouterTrace.Vouched.step (sound : trace.Vouched signed)
    (unforgeable :
      ∀ key message signature, P.verifyStrict key message signature = true →
        signed key message)
    (action : RouterAction P) (finds : trace.FindsEstablished action) :
    (routerStep trace action).Vouched signed := by
  cases action with
  | frame env fromPeer traffic =>
    exact sound.frame unforgeable env fromPeer traffic finds
  | operate op isLocal =>
    refine ⟨?_, sound.authentic⟩
    intro remote cell info found content established
    have quiet := reflectsAt_apply trace.state.sessions isLocal remote
    rcases quiet cell info found content established with
      ⟨earlier, value, stored, wasEstablished⟩
    exact sound.recorded remote cell value earlier stored wasEstablished
  | readFrom => exact ⟨sound.recorded, sound.authentic⟩

end Authenticity

/--
As long as every data packet finds the session of its source established,
every delivered packet was decrypted under a session on which a handshake
message signed by that source had been accepted before.
-/
theorem inbound_after_handshake (signed : Bytes 32 → List UInt8 → Prop)
    (unforgeable :
      ∀ key message signature,
        P.verifyStrict key message signature = true → signed key message)
    {start : RouterState P}
    (fresh : ∀ key, start.sessions.sessions.handle key = none)
    {actions : List (RouterAction P)}
    (finds :
      Along routerStep RouterTrace.FindsEstablished ⟨start, []⟩ actions) :
    Authentic signed (run routerStep ⟨start, []⟩ actions).log := by
  have initial : RouterTrace.Vouched signed ⟨start, []⟩ := by
    constructor
    · intro remote cell info found
      rw [fresh remote] at found
      cases found
    · intro newer cell packet older split
      cases newer <;> cases split
  have sound :=
    invariant_run
      (fun trace action (held : trace.Vouched signed) found =>
        held.step unforgeable action found) initial finds
  exact sound.authentic
end Inbound

/-- A router without sessions whose keys derive from one byte. -/
def sampleRouter (byte : UInt8) : RouterState compact where
  sessions :=
    SessionManager.new (P := compact)
      (Bytes.replicate 32 byte) (Bytes.replicate 32 (byte + 100))
      (PqSigner.ofKey (P := compact)
        (Bytes.replicate 32 (byte + 50))) 0
  peers := ∅
  coordTable := ∅
  trafficTx := []

/-- Surroundings in which a call draws the given three bytes. -/
def sampleFrameEnv (priv seed epk : UInt8) : FrameEnv compact where
  call :=
    { now := 5
      nowMs := 1000
      order := IterationOrder.natural
      newPriv := Bytes.replicate 32 priv
      seed := Bytes.replicate 32 seed }
  epkPriv := Bytes.replicate 32 epk
  routing :=
    { canonicalCoord := id
      greedyNextHop := fun _ _ => none
      lookupByTagExcluding := fun _ _ => none
      lookup := fun _ => none
      convergenceActive := false }

/-- A session a stranger makes up, towards a public key seen on the wire. -/
def strangerSession : SessionInfo compact :=
  SessionInfo.new (P := compact) (Bytes.replicate 32 64)
    (Bytes.replicate 32 66) (Bytes.replicate 32 10) 5

/-- The ciphertext of the stranger. -/
def strangerWire : List UInt8 :=
  ((strangerSession.encrypt 5 (padPayload [1, 2, 3])).1.toOption).getD []

/-- The stranger's packet, under the name of the awaited peer. -/
def strangerFrame : Traffic :=
  dataFrame compact (Bytes.replicate 32 2)
    (Bytes.replicate 32 64) (Bytes.replicate 32 70) none strangerWire

/-- The router asks for a session, and a stranger answers with a packet. -/
def strangerRun : List (RouterAction compact) :=
  [.operate (.initiate (sampleFrameEnv 10 11 12).call (Bytes.replicate 32 2))
      trivial,
    .frame (sampleFrameEnv 20 21 22) (Bytes.replicate 32 9) strangerFrame]

/--
A stranger's packet is delivered as if it came from the peer the router is
waiting for, although no handshake message has been handled at all.
-/
theorem forged_inbound_before_handshake :
    (run routerStep ⟨sampleRouter 64, []⟩ strangerRun).log =
        [.delivered 0 ⟨Bytes.replicate 32 2, [1, 2, 3]⟩] ∧
      ∀ signed : Bytes 32 → List UInt8 → Prop,
        ¬ Authentic signed
          (run routerStep ⟨sampleRouter 64, []⟩ strangerRun).log := by
  have log :
      (run routerStep ⟨sampleRouter 64, []⟩ strangerRun).log =
        [.delivered 0 ⟨Bytes.replicate 32 2, [1, 2, 3]⟩] := by
    decide +kernel
  refine ⟨log, ?_⟩
  intro signed authentic
  rw [log] at authentic
  rcases authentic [] 0 _ [] rfl with ⟨message, member, _⟩
  cases member

/-- The Init of the peer. -/
def peerInit : SessionInit :=
  (sampleRouter 2).sessions.initFor (sampleRouter 64).pubKey
    (Bytes.replicate 32 10) 1000

/-- The Init of the peer, as the router receives it. -/
def peerInitFrame : Traffic where
  path := []
  fromPeer := Bytes.replicate 32 2
  encHeader := EncHeader.zero
  routingTag := routingTag compact (sampleRouter 64).pubKey
  pktType := pktControl
  destCoord := none
  watermark := 0
  payload := padPayload peerInit.encode

/-- The session of the peer once it has the answer of the router. -/
def peerSession : SessionInfo compact :=
  { SessionInfo.new (P := compact) (Bytes.replicate 32 64)
      (Bytes.replicate 32 10) (Bytes.replicate 32 20) 5 with
    established := true
    pqShared := some (Bytes.replicate 32 21) }

/-- The ciphertext of the peer. -/
def peerWire : List UInt8 :=
  ((peerSession.encrypt 5 (padPayload [1, 2, 3])).1.toOption).getD []

/-- A packet of the peer. -/
def peerFrame : Traffic :=
  dataFrame compact (Bytes.replicate 32 2)
    (Bytes.replicate 32 64) (Bytes.replicate 32 70) none peerWire

/-- The peer opens a session and sends a packet. -/
def peerRun : List (RouterAction compact) :=
  [.frame (sampleFrameEnv 20 21 22) (Bytes.replicate 32 9) peerInitFrame,
    .frame (sampleFrameEnv 30 31 32) (Bytes.replicate 32 9) peerFrame]

/-- The router after the Init of the peer. -/
def answeringTrace : RouterTrace compact :=
  routerStep ⟨sampleRouter 64, []⟩
    (.frame (sampleFrameEnv 20 21 22) (Bytes.replicate 32 9) peerInitFrame)

theorem peerFrame_opened :
    ((decryptSourceFromHeader compact peerFrame.encHeader
        answeringTrace.state.signingKey).bind
          answeringTrace.state.sessions.sessions.peek).map
            SessionInfo.established = some true ∧
      Event.delivered 0 ⟨Bytes.replicate 32 2, [1, 2, 3]⟩ ∈
        (run routerStep ⟨sampleRouter 64, []⟩ peerRun).log := by
  decide +kernel

/-- The packet of a peer that has shaken hands is delivered. -/
theorem inbound_after_peer_handshake :
    Event.delivered 0 ⟨Bytes.replicate 32 2, [1, 2, 3]⟩ ∈
        (run routerStep ⟨sampleRouter 64, []⟩ peerRun).log ∧
      Authentic
        (fun key message =>
          ∃ signature,
            compact.verifyStrict key message signature = true)
        (run routerStep ⟨sampleRouter 64, []⟩ peerRun).log := by
  have finds :
      answeringTrace.FindsEstablished
        (.frame (sampleFrameEnv 30 31 32) (Bytes.replicate 32 9) peerFrame) :=
    RouterTrace.findsEstablished_frame peerFrame_opened.1
  refine ⟨peerFrame_opened.2, inbound_after_handshake _ ?_ ?_ ?_⟩
  · intro key message signature verified
    exact ⟨signature, verified⟩
  · intro key
    rfl
  · exact ⟨fun _ data => (by cases data), finds, trivial⟩

end Norn.Router
