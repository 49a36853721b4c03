import Norn.Session.Rehandshake

/-!
# A handshake around an ML-KEM rotation

`maybe_rotate_pq_keys` may replace the ML-KEM key pair of a node while one of
its Inits is on the way.  The previous private key is kept for a while, and
`handle_ack` decapsulates the Ack under both: the result of the current key
becomes the primary secret, that of the previous key the fallback.

`OverlapExchange` is such a handshake, and `OverlapReady` what it leaves on
the initiator's side: the secret of the exchange in the fallback slot, and a
secret nobody else knows in the primary one.
-/

namespace Norn.Session

open Foundation Foundation.Run

section KemRotation

variable {P : Primitives}

variable {manager : SessionManager P}

/-! ## Rotation while an Init waits -/

/-- One call of `maybe_rotate_pq_keys`. -/
structure RotationTick (P : Primitives) where
  accelerate : Option UInt64
  now : Instant
  newDk : P.DecapsulationKey

/-- The key pair is old enough to be replaced by the call. -/
def RotationTick.Due (tick : RotationTick P) (keys : PqKeys P) : Prop :=
  effectiveMlKemRotationMs tick.accelerate < elapsedMs tick.now keys.rotatedAt

instance (tick : RotationTick P) (keys : PqKeys P) :
    Decidable (tick.Due keys) :=
  inferInstanceAs (Decidable (_ < _))

/-- The manager after a call. -/
def tickStep (manager : SessionManager P) (tick : RotationTick P) :
    SessionManager P :=
  (manager.maybeRotatePqKeys tick.accelerate tick.now tick.newDk).2

/-- How often a series of calls replaces the key pair. -/
def rotations (manager : SessionManager P) : List (RotationTick P) → Nat
  | [] => 0
  | tick :: rest =>
    (if tick.Due manager.pqKeys then 1 else 0) +
      rotations (tickStep manager tick) rest

theorem pqKeys_tickStep_of_due {tick : RotationTick P}
    (due : tick.Due manager.pqKeys) :
    (tickStep manager tick).pqKeys.prevDk = some manager.pqKeys.dk := by
  unfold RotationTick.Due at due
  simp only [tickStep, SessionManager.maybeRotatePqKeys, PqKeys.rotateIfDue]
  split_ifs <;> rfl

theorem pqKeys_tickStep_of_not_due {tick : RotationTick P}
    (young : ¬ tick.Due manager.pqKeys) :
    (tickStep manager tick).pqKeys.dk = manager.pqKeys.dk ∧
      ((tickStep manager tick).pqKeys.prevDk = manager.pqKeys.prevDk ∨
        (tickStep manager tick).pqKeys.prevDk = none) := by
  unfold RotationTick.Due at young
  simp only [tickStep, SessionManager.maybeRotatePqKeys, PqKeys.rotateIfDue,
    if_neg young]
  split_ifs
  · exact ⟨rfl, Or.inr rfl⟩
  · exact ⟨rfl, Or.inl rfl⟩

theorem prevDk_run_of_no_rotation {ticks : List (RotationTick P)}
    (none_due : rotations manager ticks = 0) :
    (run tickStep manager ticks).pqKeys.prevDk = manager.pqKeys.prevDk ∨
      (run tickStep manager ticks).pqKeys.prevDk = none := by
  induction ticks generalizing manager with
  | nil => exact Or.inl rfl
  | cons tick rest induction =>
    rw [rotations, Nat.add_eq_zero_iff] at none_due
    have young : ¬ tick.Due manager.pqKeys := by
      intro due
      simp [due] at none_due
    rw [run_cons]
    rcases induction none_due.2 with kept | dropped
    · rw [kept]
      exact (pqKeys_tickStep_of_not_due young).2
    · exact Or.inr dropped

theorem prevDk_run_of_one_rotation {ticks : List (RotationTick P)}
    (once : rotations manager ticks = 1) :
    (run tickStep manager ticks).pqKeys.prevDk = some manager.pqKeys.dk ∨
      (run tickStep manager ticks).pqKeys.prevDk = none := by
  induction ticks generalizing manager with
  | nil => cases once
  | cons tick rest induction =>
    rw [run_cons]
    rw [rotations] at once
    by_cases due : tick.Due manager.pqKeys
    · rw [if_pos due] at once
      have later : rotations (tickStep manager tick) rest = 0 := by
        omega
      rw [← pqKeys_tickStep_of_due due]
      exact prevDk_run_of_no_rotation later
    · rw [if_neg due, Nat.zero_add] at once
      rw [← (pqKeys_tickStep_of_not_due due).1]
      exact induction once

theorem run_tickStep (manager : SessionManager P)
    (ticks : List (RotationTick P)) :
    ∃ keys, run tickStep manager ticks = { manager with pqKeys := keys } := by
  induction ticks generalizing manager with
  | nil => exact ⟨manager.pqKeys, rfl⟩
  | cons tick rest induction =>
    rw [run_cons]
    rcases induction (tickStep manager tick) with ⟨keys, reached⟩
    exact ⟨keys, reached⟩

/--
A handshake during which the initiator's ML-KEM key pair is replaced once,
between its Init and the Ack, and the previous key is still there at the end.
-/
structure OverlapExchange (initiator responder : SessionManager P)
    (startEnv initEnv ackEnv : Surroundings P)
    (ticks : List (RotationTick P)) (ack : List UInt8)
    (initiatorAfter responderAfter : SessionManager P) : Prop where
  answered :
    responder.handleInit initEnv
        (initiator.initiate startEnv responder.ourPub).1 =
      (.ok ack, responderAfter)
  once : rotations (initiator.initiate startEnv responder.ourPub).2 ticks = 1
  retained :
    (run tickStep (initiator.initiate startEnv responder.ourPub).2
      ticks).pqKeys.prevDk ≠ none
  completed :
    (run tickStep (initiator.initiate startEnv responder.ourPub).2
        ticks).handleAck ackEnv ack = (.ok (), initiatorAfter)

/-- The secret the initiator's new private key makes of the Ack. -/
def misreadSecret (initiator responder : SessionManager P)
    (startEnv initEnv : Surroundings P) (ticks : List (RotationTick P)) :
    Bytes 32 :=
  (run tickStep (initiator.initiate startEnv responder.ourPub).2
    ticks).pqKeys.decap (P.encapsulate initiator.pqKeys.ekBytes initEnv.seed).1

/-- The secrets of the responder's old session. -/
def oldSecrets (initiator responder : SessionManager P) :
    List (Option (Bytes 32)) :=
  match responder.sessions.peek initiator.ourPub with
  | some old => old.secrets
  | none => []

/--
The secret of the exchange, the misread secret and those of the old session
are unrelated: they differ, and so do the packet keys derived from them.
-/
structure SecretsUnrelated (initiator responder : SessionManager P)
    (startEnv initEnv : Surroundings P)
    (ticks : List (RotationTick P)) : Prop where
  misread :
    misreadSecret initiator responder startEnv initEnv ticks ≠
      exchangeSecret initiator responder startEnv initEnv
  misreadNew :
    some (misreadSecret initiator responder startEnv initEnv ticks) ∉
      oldSecrets initiator responder
  fresh :
    some (exchangeSecret initiator responder startEnv initEnv) ∉
      oldSecrets initiator responder
  separate :
    PacketKeysSeparate P
      [startEnv.newPriv,
        (responderSession initiator responder startEnv initEnv).localX25519Priv]
      (some (misreadSecret initiator responder startEnv initEnv ticks) ::
        some (exchangeSecret initiator responder startEnv initEnv) ::
        oldSecrets initiator responder)

/-- What the handshake leaves behind on the initiator's side. -/
structure OverlapReady (initiator responder : SessionManager P)
    (startEnv initEnv : Surroundings P) (ticks : List (RotationTick P))
    (session : SessionInfo P) : Prop where
  established : session.established = true
  localX25519Priv : session.localX25519Priv = startEnv.newPriv
  remoteX25519Pub :
    session.remoteX25519Pub =
      (responderSession initiator responder startEnv initEnv).localX25519Pub
  pqShared :
    session.pqShared =
      some (misreadSecret initiator responder startEnv initEnv ticks)
  pqSharedFallback :
    session.pqSharedFallback =
      some (exchangeSecret initiator responder startEnv initEnv)
  localSeq : session.localSeq = 0
  remoteSeqHigh : session.remoteSeqHigh = 0
  remoteSeqWindow : session.remoteSeqWindow = 0

variable {initiator responder initiatorAfter responderAfter :
    SessionManager P}
  {startEnv initEnv ackEnv : Surroundings P}
  {ticks : List (RotationTick P)} {ack : List UInt8}

theorem OverlapExchange.initiator_ready (kem : P.KemCorrect)
    (exchange :
      OverlapExchange initiator responder startEnv initEnv ackEnv ticks ack
        initiatorAfter responderAfter) :
    initiatorAfter.ourPub = initiator.ourPub ∧
      ∃ session,
        initiatorAfter.sessions.peek responder.ourPub = some session ∧
          OverlapReady initiator responder startEnv initEnv ticks
            session := by
  rcases responder_ready_of_answered exchange.answered with ⟨_, reply, _⟩
  have completed := exchange.completed
  rw [reply] at completed
  have previous :
      (run tickStep (initiator.initiate startEnv responder.ourPub).2
        ticks).pqKeys.prevDk = some initiator.pqKeys.dk :=
    (prevDk_run_of_one_rotation exchange.once).resolve_right exchange.retained
  rcases run_tickStep (initiator.initiate startEnv responder.ourPub).2
      ticks with
    ⟨keys, reached⟩
  have decapsulated := kem.decapsulates initiator.pqKeys.dk initEnv.seed
  rw [← initiator.pqKeys.advertised] at decapsulated
  have created :
      (run tickStep (initiator.initiate startEnv responder.ourPub).2
        ticks).sessions.peek
          (responder.ackFor initEnv
            (exchangeInit initiator responder startEnv)).edPub =
        some (SessionInfo.new responder.ourPub startEnv.newPriv
          (Bytes.replicate 32 0) startEnv.now) := by
    rw [reached]
    exact HandleTable.peek_insert_self _ _ _
  rcases completed_of_handleAck created completed with ⟨same, updated⟩
  refine ⟨same.trans (by rw [reached]; rfl), _, updated, rfl, rfl, ?_, rfl, ?_,
    rfl, rfl, rfl⟩
  · exact responder.x25519Pub_ackFor initEnv _ _
      (responder.peek_sessionsAfterInit_self initEnv
        (exchangeInit initiator responder startEnv))
  · change
      (PqKeys.decapPrev _
        (P.encapsulate initiator.pqKeys.ekBytes initEnv.seed).1) = _
    rw [PqKeys.decapPrev, previous]
    exact congrArg some decapsulated

end KemRotation

/-- A rotation a little more than a day after the start. -/
def sampleRotation : RotationTick Primitives.transparent where
  accelerate := none
  now := 86400001 * 1000000
  newDk := Bytes.replicate 32 90

theorem sampleOverlap :
    ∃ ack initiatorAfter responderAfter,
      OverlapExchange (sampleManager 1) (sampleManager 2)
        (sampleSurroundings 40 0) (sampleSurroundings 50 31)
        (sampleSurroundings 0 0) [sampleRotation] ack initiatorAfter
        responderAfter := by
  have due :
      sampleRotation.Due
        ((sampleManager 1).initiate (sampleSurroundings 40 0)
          (sampleManager 2).ourPub).2.pqKeys := by
    decide
  have waits :
      (run tickStep
          ((sampleManager 1).initiate (sampleSurroundings 40 0)
            (sampleManager 2).ourPub).2
          [sampleRotation]).sessions.peek (sampleManager 2).ourPub =
        some (SessionInfo.new (sampleManager 2).ourPub
          (Bytes.replicate 32 40) (Bytes.replicate 32 0)
          (sampleSurroundings 40 0).now) :=
    HandleTable.peek_insert_self _ _ _
  rcases @exists_answered_completed _ (sampleManager 1) (sampleManager 2)
      (sampleSurroundings 40 0) (sampleSurroundings 50 31)
      (sampleSurroundings 0 0) Primitives.transparent_signaturesVerify
      Primitives.transparent_kemCorrect (sampleManager_expectsInit 1 2 _ rfl)
      (by decide) _ _ waits rfl (by intro _ found; cases found) with
    ⟨ack, initiatorAfter, responderAfter, answered, completed⟩
  refine ⟨ack, initiatorAfter, responderAfter, answered, ?_, ?_, completed⟩
  · rw [rotations, if_pos due, rotations]
  · rw [run_cons, run_nil, pqKeys_tickStep_of_due due]
    simp

end Norn.Session
