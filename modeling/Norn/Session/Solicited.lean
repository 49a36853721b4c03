import Norn.Session.Exits

/-!
# Solicited Acks

An Ack answers an Init the node has sent.  `handle_ack` keeps no record of
the Inits that wait for an answer: it takes the presence of a session entry
for one.  `AckTrace` keeps that record beside the manager, so that over every
run of the manager one can say which Acks are solicited.

A session for which no Init is waiting has completed a handshake, whichever
side began it.  An Ack that passes its checks then leaves the session as it
is only if it repeats what the session already holds.
-/

namespace Norn.Session

open Foundation Foundation.Run SessionManager

section Solicited

variable {P : Primitives}

variable {peer : Bytes 32} {info : SessionInfo P}

/-- The peer whose Ack the operation handles with success. -/
def ManagerOp.answers (op : ManagerOp P) (manager : SessionManager P) :
    Option (Bytes 32) :=
  match op with
  | .handleAck env data =>
    match HandshakeMessage.decode .ack data, (manager.handleAck env data).1 with
    | .ok ack, .ok () => some ack.edPub
    | _, _ => none
  | _ => none

/-- A manager and the number of its unanswered Inits for each peer. -/
structure AckTrace (P : Primitives) where
  manager : SessionManager P
  waiting : Bytes 32 → Nat

/-- One operation, with the record kept beside it. -/
def ackStep (trace : AckTrace P) (op : ManagerOp P) : AckTrace P where
  manager := op.apply trace.manager
  waiting := fun peer =>
    if op.initiates trace.manager = some peer then
      trace.waiting peer + 1
    else if op.answers trace.manager = some peer then
      trace.waiting peer - 1
    else
      trace.waiting peer

/-- A manager that has not done anything yet. -/
structure AckTrace.Fresh (trace : AckTrace P) : Prop where
  vacant : ∀ peer, trace.manager.sessions.peek peer = none
  idle : ∀ peer, trace.waiting peer = 0

/-! ## Sessions without a waiting Init -/

theorem keyed_sessionsAfterAck {manager : SessionManager P} {ack : SessionAck}
    {existing : SessionInfo P}
    (pending : manager.sessions.peek ack.edPub = some existing)
    (found :
      (manager.sessionsAfterAck ack existing).peek ack.edPub = some info) :
    info.Keyed := by
  rw [peek_sessionsAfterAck_self pending] at found
  cases found
  refine ⟨rfl, ?_⟩
  cases held : existing.pqShared <;>
    simp [SessionInfo.completeHandshake, adoptsAck, held]
  split_ifs <;> simp

theorem keyed_of_answers {manager : SessionManager P} {op : ManagerOp P}
    (answered : op.answers manager = some peer)
    (found : (op.apply manager).sessions.peek peer = some info) :
    info.Keyed := by
  cases op with
  | handleAck env data =>
    simp only [ManagerOp.answers, ManagerOp.apply] at answered found
    have exits := manager.ackExit_handleAck env data
    generalize manager.handleAck env data = result at exits answered found
    cases exits with
    | refused failure early => simp at answered
    | unsolicited _ _ _ _ _ => simp at answered
    | accepted ack pins existing decoded admits =>
      simp only [decoded] at answered
      cases answered
      exact keyed_sessionsAfterAck admits.pending found
  | _ => cases answered

/-- A session without a waiting Init is keyed. -/
def AckTrace.Accounted (trace : AckTrace P) : Prop :=
  ∀ peer info, trace.manager.sessions.peek peer = some info →
    trace.waiting peer = 0 → info.Keyed

theorem AckTrace.Fresh.accounted {trace : AckTrace P} (fresh : trace.Fresh) :
    trace.Accounted := by
  intro peer info found
  rw [fresh.vacant peer] at found
  cases found

/-- Every step keeps sessions without a waiting Init keyed. -/
theorem accounted_step (trace : AckTrace P) (op : ManagerOp P)
    (accounted : trace.Accounted) : (ackStep trace op).Accounted := by
  intro peer info found idle
  rcases (HandleTable.peek_eq_some_iff _ _ _).mp found with
    ⟨cell, handle, content⟩
  by_cases answered : op.answers trace.manager = some peer
  · exact keyed_of_answers answered found
  · rcases origin_apply handle content with
      ⟨before, earlier, stored, move⟩ | ⟨initiated, _⟩ | ⟨_, keyed⟩
    · apply stable_keyed.move move
      apply accounted peer earlier
      · exact (HandleTable.peek_eq_some_iff _ _ _).mpr ⟨cell, before, stored⟩
      · simp only [ackStep, if_neg answered] at idle
        split_ifs at idle
        exact idle
    · simp [ackStep, initiated] at idle
    · exact keyed

theorem accounted_run {trace : AckTrace P} (fresh : trace.Fresh)
    (ops : List (ManagerOp P)) : (run ackStep trace ops).Accounted :=
  invariant_run_of_forall accounted_step fresh.accounted

/-- The fields of a session that a handshake decides. -/
def SessionInfo.handshakeState (info : SessionInfo P) :
    Bytes 32 × Bool × Option (Bytes 32) × Option (Bytes 32) :=
  (info.remoteX25519Pub, info.established, info.pqShared, info.pqSharedFallback)

/-- The handshake state of the session held for a peer. -/
def SessionManager.handshakeState (manager : SessionManager P)
    (peer : Bytes 32) :
    Option (Bytes 32 × Bool × Option (Bytes 32) × Option (Bytes 32)) :=
  (manager.sessions.peek peer).map SessionInfo.handshakeState

/-- Handling the bytes as an Ack changes sessions with waiting Inits only. -/
def AckTrace.OnlySolicited (trace : AckTrace P) (env : Surroundings P)
    (data : List UInt8) : Prop :=
  ∀ peer, trace.waiting peer = 0 →
    (trace.manager.handleAck env data).2.handshakeState peer =
      trace.manager.handshakeState peer

/--
The Ack carries the X25519 key the session already has and, if this node is
the one that adopts the secrets of Acks, encapsulates the secrets it has.
-/
def RepeatsSession (manager : SessionManager P) (ack : SessionAck)
    (existing : SessionInfo P) : Prop :=
  ack.x25519Pub = existing.remoteX25519Pub ∧
    (manager.ourPub < ack.edPub →
      some (manager.pqKeys.decap ack.mlKem) = existing.pqShared ∧
        manager.pqKeys.decapPrev ack.mlKem = existing.pqSharedFallback)

/--
If the bytes are an Ack that passes its checks, an Init is waiting for it or
it repeats what the session holds.
-/
def AckTrace.Expects (trace : AckTrace P) (env : Surroundings P)
    (data : List UInt8) : Prop :=
  ∀ ack pins existing,
    HandshakeMessage.decode .ack data = .ok ack →
      trace.manager.AdmitsAck env ack pins existing →
        0 < trace.waiting ack.edPub ∨ RepeatsSession trace.manager ack existing

theorem handshakeState_completeHandshake_iff {manager : SessionManager P}
    {ack : SessionAck} {existing : SessionInfo P}
    (keyed : existing.Keyed) :
    (existing.completeHandshake ack.x25519Pub
        (manager.adoptsAck ack existing) (manager.pqKeys.decap ack.mlKem)
        (manager.pqKeys.decapPrev ack.mlKem)).handshakeState =
      existing.handshakeState ↔
        RepeatsSession manager ack existing := by
  rcases keyed with ⟨established, secret⟩
  have held : existing.pqShared.isNone = false :=
    Option.isNone_eq_false_iff.mpr (Option.isSome_iff_ne_none.mpr secret)
  by_cases smaller : manager.ourPub < ack.edPub
  · simp [SessionInfo.completeHandshake, SessionInfo.handshakeState,
      adoptsAck, RepeatsSession, smaller, established]
  · simp [SessionInfo.completeHandshake, SessionInfo.handshakeState,
      adoptsAck, RepeatsSession, smaller, established,
      held]

/-- An Ack changes solicited sessions only, exactly when it is expected. -/
theorem AckTrace.Accounted.onlySolicited_iff {trace : AckTrace P}
    (accounted : trace.Accounted) (env : Surroundings P)
    (data : List UInt8) :
    trace.OnlySolicited env data ↔ trace.Expects env data := by
  unfold AckTrace.OnlySolicited AckTrace.Expects
  have exits := trace.manager.ackExit_handleAck env data
  generalize trace.manager.handleAck env data = result at exits
  cases exits with
  | refused failure early =>
    constructor
    · intro _ ack pins existing decoded admits
      exact (early ack pins decoded admits.passes).elim
    · intro _ peer _
      rfl
  | unsolicited ack pins decoded passes unknown =>
    constructor
    · intro _ other otherPins existing same admits
      rw [decoded] at same
      cases same
      rw [admits.pending] at unknown
      cases unknown
    · intro _ peer _
      rfl
  | accepted ack pins existing decoded admits =>
    have after := peek_sessionsAfterAck_self admits.pending
    constructor
    · intro unchanged other otherPins otherExisting same otherAdmits
      rw [decoded] at same
      cases same
      cases admits.pending.symm.trans otherAdmits.pending
      rcases Nat.eq_zero_or_pos (trace.waiting ack.edPub) with idle | waits
      · right
        have keyed := accounted _ _ admits.pending idle
        apply (handshakeState_completeHandshake_iff keyed).mp
        have same := unchanged ack.edPub idle
        simp only [handshakeState, after, admits.pending, Option.map_some]
          at same
        exact Option.some.inj same
      · exact Or.inl waits
    · intro expected peer idle
      simp only [handshakeState]
      by_cases same : peer = ack.edPub
      · subst same
        have keyed := accounted _ _ admits.pending idle
        rcases expected ack pins existing decoded admits with waits | repeats
        · exact absurd idle (Nat.ne_of_gt waits)
        · rw [after, admits.pending]
          exact congrArg some
            ((handshakeState_completeHandshake_iff keyed).mpr repeats)
      · rw [trace.manager.peek_sessionsAfterAck_of_ne ack existing same]

/--
In every state a manager reaches, an Ack changes no session but solicited
ones if and only if it is expected.
-/
theorem only_solicited_iff (start : AckTrace P) (fresh : start.Fresh)
    (ops : List (ManagerOp P)) (env : Surroundings P)
    (data : List UInt8) :
    (run ackStep start ops).OnlySolicited env data ↔
      (run ackStep start ops).Expects env data :=
  (accounted_run fresh ops).onlySolicited_iff env data

end Solicited

/-- A sample node that has sent no Init. -/
def sampleResponder : AckTrace Primitives.transparent where
  manager := sampleManager 2
  waiting := fun _ => 0

theorem sampleResponder_fresh : sampleResponder.Fresh where
  vacant := fun peer => HandleTable.peek_empty peer
  idle := fun _ => rfl

theorem sampleResponder_admits (key : UInt8) :
    ∃ trace : AckTrace Primitives.transparent,
      run ackStep sampleResponder [sampleHandling] = trace ∧
        trace.manager.ourPub = (sampleManager 2).ourPub ∧
        (∀ peer, trace.waiting peer = 0) ∧
        ∃ pins,
          trace.manager.AdmitsAck (sampleSurroundings 20 21)
            (sampleAck key) pins (sampleSession 1) := by
  rcases sampleInit_handled 1 2 with
    ⟨after, reply, handled, found, same, expects⟩
  have reached :
      run ackStep sampleResponder [sampleHandling] = ⟨after, fun _ => 0⟩ := by
    rw [run_cons, run_nil, ackStep, sampleHandling, apply_handleInit]
    simp only [ManagerOp.initiates, ManagerOp.answers, reduceCtorEq, if_false]
    rw [sampleResponder, handled]
  rcases @admitsAck_create _ Primitives.transparent_signaturesVerify
      (sampleManager 1) after (sampleSurroundings 20 21)
      (Bytes.replicate 32 key) (Bytes.replicate mlKemCtBytes 0) 1000 _
      found (by decide)
      (expects (sampleSurroundings 20 21) rfl).agree with
    ⟨pins, admits, _⟩
  rw [same] at admits
  exact ⟨_, reached, same, fun _ => rfl, pins, admits⟩

/-- An Ack that repeats the session of a responder changes nothing. -/
theorem only_solicited_repeated :
    sampleResponder.Fresh ∧
      (run ackStep sampleResponder [sampleHandling]).OnlySolicited
        (sampleSurroundings 20 21) (sampleAck 10).encode := by
  refine ⟨sampleResponder_fresh,
    (only_solicited_iff sampleResponder sampleResponder_fresh
      [sampleHandling] _ _).mpr ?_⟩
  rcases sampleResponder_admits 10 with ⟨trace, reached, same, _, pins, admits⟩
  rw [reached]
  intro ack otherPins existing decoded otherAdmits
  rw [HandshakeMessage.decode_encode] at decoded
  cases decoded
  cases admits.pending.symm.trans otherAdmits.pending
  right
  refine ⟨rfl, ?_⟩
  rw [same]
  intro smaller
  have larger : ¬ (Bytes.replicate 32 2 : Bytes 32) < Bytes.replicate 32 1 := by
    decide
  exact (larger smaller).elim

/-- An Ack with another key changes the session of a pure responder. -/
theorem unsolicited_ack_changes_session :
    sampleResponder.Fresh ∧
      ¬ (run ackStep sampleResponder [sampleHandling]).OnlySolicited
        (sampleSurroundings 20 21) (sampleAck 11).encode := by
  refine ⟨sampleResponder_fresh, ?_⟩
  rw [(accounted_run sampleResponder_fresh [sampleHandling]).onlySolicited_iff]
  rcases sampleResponder_admits 11 with
    ⟨trace, reached, same, idle, pins, admits⟩
  rw [reached]
  intro expected
  rcases expected _ pins _ (HandshakeMessage.decode_encode _) admits with
    waits | ⟨key, _⟩
  · exact absurd (idle _) (Nat.ne_of_gt waits)
  · have keys : (Bytes.replicate 32 11 : Bytes 32) ≠ Bytes.replicate 32 10 := by
      decide
    exact keys key

end Norn.Session
