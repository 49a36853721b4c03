import Norn.Session.Honest

/-!
# Replayed Inits

`handle_init` treats a repeated `SessionInit` like a new one: it overwrites
the remote X25519 key with the one in the message and, when the sender's
identity is the smaller of the two, replaces the post-quantum secret by a
fresh one.  Replaying an Init therefore leaves the session alone exactly when
it has nothing to overwrite.
-/

namespace Norn.Session

open Foundation Foundation.Run SessionManager

section InitReplay

variable {P : Primitives}

/-- Two states of a session agree in all that an Init could disturb. -/
structure SessionInfo.SameState (before after : SessionInfo P) : Prop where
  remoteX25519Pub : after.remoteX25519Pub = before.remoteX25519Pub
  pqShared : after.pqShared = before.pqShared
  pqSharedFallback : after.pqSharedFallback = before.pqSharedFallback
  established : after.established = before.established
  remoteSeqHigh : after.remoteSeqHigh = before.remoteSeqHigh
  remoteSeqWindow : after.remoteSeqWindow = before.remoteSeqWindow

theorem SessionInfo.sameState_completeHandshake_iff
    {info : SessionInfo P} (keyed : info.Keyed) {remote : Bytes 32}
    {smaller : Bool} {secret : Bytes 32}
    (fresh : info.pqShared ≠ some secret) :
    info.SameState
        (info.completeHandshake remote (info.pqShared.isNone || smaller) secret
          none) ↔
      info.remoteX25519Pub = remote ∧ smaller = false := by
  rcases keyed with ⟨established, present⟩
  have held : info.pqShared.isNone = false := by
    cases content : info.pqShared with
    | none => exact absurd content present
    | some _ => rfl
  rw [held, Bool.false_or]
  constructor
  · intro same
    refine ⟨same.remoteX25519Pub.symm, ?_⟩
    cases smaller with
    | false => rfl
    | true => exact absurd same.pqShared.symm fresh
  · rintro ⟨sameKey, rfl⟩
    exact ⟨sameKey.symm, rfl, rfl, established.symm, rfl, rfl⟩

theorem holds_keyed_of_handleInit {manager after : SessionManager P}
    {env : Surroundings P} {data reply : List UInt8} {init : SessionInit}
    (decoded : HandshakeMessage.decode .init data = .ok init)
    (handled : manager.handleInit env data = (.ok reply, after)) :
    after.Holds init.edPub SessionInfo.Keyed := by
  rcases manager.handleInit_cases env data with
    ⟨failure, log, pins, refused⟩ | ⟨other, log, pins, parsed, admits⟩
  · rw [refused] at handled
    cases handled
  · rw [decoded] at parsed
    cases parsed
    rw [handleInit_of_admits decoded admits] at handled
    cases handled
    refine ⟨_, manager.peek_sessionsAfterInit_self env init, ?_⟩
    cases manager.sessions.peek init.edPub with
    | none => exact ⟨rfl, by simp⟩
    | some existing =>
      refine ⟨rfl, ?_⟩
      cases content : existing.pqShared with
      | none => simp [SessionInfo.completeHandshake, content]
      | some held =>
        by_cases smaller : init.edPub < manager.ourPub <;>
          simp [SessionInfo.completeHandshake, content, smaller]

/--
After an Init from some sender has been handled, and after any exchange of
packets and handshake messages, handling the same bytes again leaves the
sender's session undisturbed exactly when the session still has the Init's
X25519 key and the sender's identity is not the smaller one.
-/
theorem init_replay_undisturbed_iff {manager first after : SessionManager P}
    {firstEnv env : Surroundings P} {data firstReply reply : List UInt8}
    {init : SessionInit}
    (decoded : HandshakeMessage.decode .init data = .ok init)
    (handled : manager.handleInit firstEnv data = (.ok firstReply, first))
    (ops : List (ManagerOp P)) (exchanges : ∀ op ∈ ops, op.Exchanges)
    (replayed :
      (run ManagerOp.apply first ops).handleInit env data = (.ok reply, after))
    (fresh :
      ¬ (run ManagerOp.apply first ops).Holds init.edPub fun info =>
        info.pqShared = some (drawnSecret env init)) :
    ∃ before later,
      (run ManagerOp.apply first ops).sessions.peek init.edPub = some before ∧
        after.sessions.peek init.edPub = some later ∧
        (before.SameState later ↔
          before.remoteX25519Pub = init.x25519Pub ∧
            ¬ init.edPub < manager.ourPub) := by
  have initial := holds_keyed_of_handleInit decoded handled
  have reached :
      (run ManagerOp.apply first ops).Holds init.edPub
        SessionInfo.Keyed :=
    invariant_run (holds_apply stable_keyed) initial
      (along_of_forall_mem fun op member _ => exchanges op member)
  rcases reached with ⟨before, found, keyed⟩
  have identity : (run ManagerOp.apply first ops).ourPub = manager.ourPub := by
    rw [ourPub_run]
    have kept := ourSigningKey_apply manager (.handleInit firstEnv data)
    simp only [ManagerOp.apply, handled] at kept
    unfold ourPub
    rw [kept]
  rcases handleInit_cases _ env data with
    ⟨failure, log, pins, refused⟩ | ⟨other, log, pins, parsed, admits⟩
  · rw [refused] at replayed
    cases replayed
  · rw [decoded] at parsed
    cases parsed
    rw [handleInit_of_admits decoded admits] at replayed
    cases replayed
    have later :=
      (run ManagerOp.apply first ops).peek_sessionsAfterInit_self env init
    rw [found] at later
    refine ⟨before, _, found, later, ?_⟩
    rw [SessionInfo.sameState_completeHandshake_iff keyed
      fun same => fresh ⟨before, found, same⟩, identity]
    simp

end InitReplay

theorem sampleInit_replayed (sender receiver : UInt8) :
    ∃ first firstReply second reply,
      (sampleManager receiver).handleInit (sampleSurroundings 20 21)
          (sampleInit sender receiver).encode = (.ok firstReply, first) ∧
        first.sessions.peek (sampleInit sender receiver).edPub =
          some (sampleSession sender) ∧
        first.handleInit (sampleSurroundings 30 31)
          (sampleInit sender receiver).encode = (.ok reply, second) ∧
        second.sessions.peek (sampleInit sender receiver).edPub =
          some ((sampleSession sender).completeHandshake (Bytes.replicate 32 10)
            (decide
              ((sampleInit sender receiver).edPub <
              (sampleManager receiver).ourPub))
            (Bytes.replicate 32 31) none) := by
  rcases sampleInit_handled sender receiver with
    ⟨first, firstReply, handled, created, identity, expects⟩
  rcases (expects (sampleSurroundings 30 31) rfl).admits
    Primitives.transparent_signaturesVerify
      Primitives.transparent_kemCorrect (Bytes.replicate 32 10) with
    ⟨log, pins, admits, _, _⟩
  rw [identity] at admits
  refine ⟨first, firstReply, _, _, handled, created,
    handleInit_of_admits (HandshakeMessage.decode_encode _) admits, ?_⟩
  have updated :=
    first.peek_sessionsAfterInit_self (sampleSurroundings 30 31)
      (sampleInit sender receiver)
  rw [created, identity] at updated
  exact updated

/-- A replayed Init of a smaller identity replaces the secret. -/
theorem init_replay_replaces_secret :
    ∃ first firstReply second reply before later,
      (sampleManager 2).handleInit (sampleSurroundings 20 21)
          (sampleInit 1 2).encode = (.ok firstReply, first) ∧
        first.handleInit (sampleSurroundings 30 31)
          (sampleInit 1 2).encode = (.ok reply, second) ∧
        first.sessions.peek (sampleInit 1 2).edPub = some before ∧
        second.sessions.peek (sampleInit 1 2).edPub = some later ∧
        before.pqShared = some (Bytes.replicate 32 21) ∧
        later.pqShared = some (Bytes.replicate 32 31) := by
  rcases sampleInit_replayed 1 2 with
    ⟨first, firstReply, second, reply, handled, created, replayed, updated⟩
  have smaller :
      decide ((sampleInit 1 2).edPub < (sampleManager 2).ourPub) =
        true := by
    decide +kernel
  rw [smaller] at updated
  exact ⟨first, firstReply, second, reply, _, _, handled, replayed,
    created, updated, rfl, rfl⟩

/-- A replayed Init of a larger identity is harmless. -/
theorem init_replay_of_larger_identity :
    ∃ first firstReply second reply before later,
      (sampleManager 2).handleInit (sampleSurroundings 20 21)
          (sampleInit 3 2).encode = (.ok firstReply, first) ∧
        first.handleInit (sampleSurroundings 30 31)
          (sampleInit 3 2).encode = (.ok reply, second) ∧
        first.sessions.peek (sampleInit 3 2).edPub = some before ∧
        second.sessions.peek (sampleInit 3 2).edPub = some later ∧
        before.SameState later := by
  rcases sampleInit_replayed 3 2 with
    ⟨first, firstReply, second, reply, handled, created, replayed, _⟩
  have fresh :
      ¬ first.Holds (sampleInit 3 2).edPub fun info =>
        info.pqShared =
          some (drawnSecret (sampleSurroundings 30 31)
            (sampleInit 3 2)) := by
    rintro ⟨info, found, same⟩
    rw [created] at found
    cases found
    revert same
    decide +kernel
  rcases init_replay_undisturbed_iff
      (HandshakeMessage.decode_encode (sampleInit 3 2)) handled []
      (by simp) replayed fresh with
    ⟨before, later, found, updated, undisturbed⟩
  refine ⟨first, firstReply, second, reply, before, later, handled,
    replayed, found, updated, undisturbed.mpr ?_⟩
  change first.sessions.peek _ = some before at found
  rw [created] at found
  cases found
  exact ⟨rfl, by decide +kernel⟩

end Norn.Session
