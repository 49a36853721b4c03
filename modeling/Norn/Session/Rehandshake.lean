import Norn.Session.Endpoints
import Norn.Session.Honest

/-!
# A handshake started from nothing

One node holds no session for the other, initiates, and both handlers accept.
The responder may still hold an old session for the initiator: `handle_init`
then updates it in place, keeping its replay window and, unless the
initiator's identity is the smaller one, its old post-quantum secret.

Packets flow both ways afterwards exactly when there was no old session, or
when the old session gave up its secret and its window still has room for
number zero.
-/

namespace Norn.Session

open Foundation SessionInfo Primitives

section Rehandshake

variable {P : Primitives}

variable {sentAt receivedAt : Instant} {plaintext wire buf : List UInt8}

/-- One exchange: an initiation, its Init and its Ack, all accepted. -/
structure Exchange (initiator responder : SessionManager P)
    (startEnv initEnv ackEnv : Surroundings P) (ack : List UInt8)
    (initiatorAfter responderAfter : SessionManager P) : Prop where
  lost : initiator.sessions.handle responder.ourPub = none
  answered :
    responder.handleInit initEnv
        (initiator.initiate startEnv responder.ourPub).1 =
      (.ok ack, responderAfter)
  completed :
    (initiator.initiate startEnv responder.ourPub).2.handleAck ackEnv
        ack = (.ok (), initiatorAfter)

/-- The Init of the exchange. -/
def exchangeInit (initiator responder : SessionManager P)
    (startEnv : Surroundings P) : SessionInit :=
  initiator.initFor responder.ourPub (P.x25519Public startEnv.newPriv)
    startEnv.nowMs

/-- The secret the responder encapsulates. -/
def exchangeSecret (initiator responder : SessionManager P)
    (startEnv initEnv : Surroundings P) : Bytes 32 :=
  SessionManager.drawnSecret initEnv (exchangeInit initiator responder startEnv)

/-- The responder's session for the initiator after the exchange. -/
def responderSession (initiator responder : SessionManager P)
    (startEnv initEnv : Surroundings P) : SessionInfo P :=
  match responder.sessions.peek initiator.ourPub with
  | some existing =>
    existing.completeHandshake (P.x25519Public startEnv.newPriv)
      (existing.pqShared.isNone ||
        decide (initiator.ourPub < responder.ourPub))
      (exchangeSecret initiator responder startEnv initEnv) none
  | none =>
    { SessionInfo.new initiator.ourPub initEnv.newPriv
        (P.x25519Public startEnv.newPriv) initEnv.now with
      established := true
      pqShared := some (exchangeSecret initiator responder startEnv initEnv) }

/-- What the exchange leaves behind on the initiator's side. -/
structure InitiatorReady (initiator responder : SessionManager P)
    (startEnv initEnv : Surroundings P) (session : SessionInfo P) :
    Prop where
  established : session.established = true
  localX25519Priv : session.localX25519Priv = startEnv.newPriv
  remoteX25519Pub :
    session.remoteX25519Pub =
      (responderSession initiator responder startEnv initEnv).localX25519Pub
  pqShared :
    session.pqShared =
      some (exchangeSecret initiator responder startEnv initEnv)
  localSeq : session.localSeq = 0
  remoteSeqHigh : session.remoteSeqHigh = 0
  remoteSeqWindow : session.remoteSeqWindow = 0

variable {initiator responder initiatorAfter responderAfter :
    SessionManager P}
  {startEnv initEnv ackEnv : Surroundings P} {ack : List UInt8}

theorem responder_ready_of_answered
    (answered :
      responder.handleInit initEnv
        (initiator.initiate startEnv responder.ourPub).1 =
        (.ok ack, responderAfter)) :
    responderAfter.ourPub = responder.ourPub ∧
      ack =
        (responder.ackFor initEnv
          (exchangeInit initiator responder startEnv)).encode ∧
      responderAfter.sessions.peek initiator.ourPub =
        some (responderSession initiator responder startEnv initEnv) := by
  have decoded :
      HandshakeMessage.decode .init
        (initiator.initiate startEnv responder.ourPub).1 =
        .ok (exchangeInit initiator responder startEnv) :=
    HandshakeMessage.decode_encode _
  rcases responder.handleInit_cases initEnv
    (initiator.initiate startEnv responder.ourPub).1 with
    ⟨failure, log, pins, refused⟩ | ⟨init, log, pins, parsed, admits⟩
  · rw [refused] at answered
    cases answered
  · rw [decoded] at parsed
    cases parsed
    rw [SessionManager.handleInit_of_admits decoded admits] at answered
    rcases Prod.mk.inj answered with ⟨reply, state⟩
    rw [← state]
    exact ⟨rfl, (Except.ok.inj reply).symm,
      responder.peek_sessionsAfterInit_self initEnv
        (exchangeInit initiator responder startEnv)⟩

theorem Exchange.responder_ready
    (exchange :
      Exchange initiator responder startEnv initEnv ackEnv ack initiatorAfter
        responderAfter) :
    responderAfter.ourPub = responder.ourPub ∧
      ack =
        (responder.ackFor initEnv
          (exchangeInit initiator responder startEnv)).encode ∧
      responderAfter.sessions.peek initiator.ourPub =
        some (responderSession initiator responder startEnv initEnv) :=
  responder_ready_of_answered exchange.answered

theorem completed_of_handleAck {waiting after : SessionManager P}
    {message : SessionAck} {existing : SessionInfo P}
    (pending : waiting.sessions.peek message.edPub = some existing)
    (completed : waiting.handleAck ackEnv message.encode = (.ok (), after)) :
    after.ourPub = waiting.ourPub ∧
      after.sessions.peek message.edPub =
        some
          (existing.completeHandshake message.x25519Pub
          (waiting.adoptsAck message existing)
          (waiting.pqKeys.decap message.mlKem)
          (waiting.pqKeys.decapPrev message.mlKem)) := by
  have decoded := HandshakeMessage.decode_encode message
  rcases waiting.handleAck_cases ackEnv message.encode with
    ⟨failure, pins, refused⟩ | ⟨other, pins, held, parsed, admits⟩
  · rw [refused] at completed
    cases completed
  · rw [decoded] at parsed
    cases parsed
    cases pending.symm.trans admits.pending
    rw [SessionManager.handleAck_of_admits decoded admits] at completed
    rcases Prod.mk.inj completed with ⟨_, state⟩
    rw [← state]
    exact ⟨rfl, SessionManager.peek_sessionsAfterAck_self pending⟩

theorem Exchange.initiator_ready (kem : P.KemCorrect)
    (exchange :
      Exchange initiator responder startEnv initEnv ackEnv ack initiatorAfter
        responderAfter) :
    initiatorAfter.ourPub = initiator.ourPub ∧
      ∃ session,
        initiatorAfter.sessions.peek responder.ourPub = some session ∧
          InitiatorReady initiator responder startEnv initEnv session := by
  rcases exchange.responder_ready with ⟨_, reply, _⟩
  have completed := exchange.completed
  rw [reply] at completed
  have created :
      (initiator.initiate startEnv responder.ourPub).2.sessions.peek
          (responder.ackFor initEnv
            (exchangeInit initiator responder startEnv)).edPub =
        some (SessionInfo.new responder.ourPub startEnv.newPriv
          (Bytes.replicate 32 0) startEnv.now) :=
    HandleTable.peek_insert_self _ _ _
  rcases completed_of_handleAck created completed with ⟨same, updated⟩
  refine ⟨same, _, updated, rfl, rfl, ?_, ?_, rfl, rfl, rfl⟩
  · exact responder.x25519Pub_ackFor initEnv _ _
      (responder.peek_sessionsAfterInit_self initEnv
        (exchangeInit initiator responder startEnv))
  · have decapsulated := kem.decapsulates initiator.pqKeys.dk initEnv.seed
    rw [← initiator.pqKeys.advertised] at decapsulated
    exact congrArg some decapsulated

/-- An Init that is expected is answered, and the Ack completes the exchange. -/
theorem exists_answered_completed (signatures : P.SignaturesVerify)
    (kem : P.KemCorrect)
    (expects : ExpectsInit responder initiator initEnv startEnv.nowMs)
    (inside : clockSkew ackEnv.nowMs initEnv.nowMs ≤ handshakeTimeWindowMs)
    {waiting : SessionManager P} {existing : SessionInfo P}
    (created : waiting.sessions.peek responder.ourPub = some existing)
    (same : waiting.ourPub = initiator.ourPub)
    (agree :
      PinsAgree waiting.pqPins responder.ourPub responder.pqSigner.pubBytes) :
    ∃ ack initiatorAfter responderAfter,
      responder.handleInit initEnv
            (exchangeInit initiator responder startEnv).encode =
          (.ok ack, responderAfter) ∧
        waiting.handleAck ackEnv ack = (.ok (), initiatorAfter) := by
  rcases expects.admits signatures kem (P.x25519Public startEnv.newPriv) with
    ⟨log, pins, admits, _, _⟩
  have admitted :=
    @admitsAck_create P signatures responder _ ackEnv
      (acceptInit responder.sessions responder.ourPub
        (exchangeInit initiator responder startEnv)
        (exchangeSecret initiator responder startEnv initEnv)
        initEnv.newPriv initEnv.now).2
      (P.encapsulate initiator.pqKeys.ekBytes initEnv.seed).1
      initEnv.nowMs _ created inside agree
  rw [same] at admitted
  rcases admitted with ⟨ackPins, admitsAck, _⟩
  exact ⟨_, _, _,
    SessionManager.handleInit_of_admits (HandshakeMessage.decode_encode _)
      admits,
    SessionManager.handleAck_of_admits (HandshakeMessage.decode_encode _)
      admitsAck⟩

/-! ## Packets after the exchange -/

/-- The next packet one node sends to the other is decrypted there. -/
def Delivers (sender receiver : SessionManager P)
    (sentAt receivedAt : Instant) (plaintext : List UInt8) : Prop :=
  ∃ wire,
    (sender.encrypt receiver.ourPub sentAt plaintext).1 = .ok wire ∧
      (receiver.decrypt sender.ourPub receivedAt wire).1 = .ok plaintext

theorem delivers_iff {sender receiver : SessionManager P}
    {sending receiving : SessionInfo P}
    (outgoing : sender.sessions.peek receiver.ourPub = some sending)
    (incoming : receiver.sessions.peek sender.ourPub = some receiving)
    (ready : sending.established = true)
    (opened : receiving.established = true) :
    Delivers sender receiver sentAt receivedAt plaintext ↔
      ∃ wire, (sending.encrypt sentAt plaintext).1 = .ok wire ∧
        (receiving.decrypt receivedAt wire).1 = .ok plaintext := by
  unfold Delivers SessionManager.encrypt SessionManager.decrypt
  simp only [onSession_eq_ok_iff, SessionManager.Holds, outgoing,
    incoming, Option.some.injEq, exists_eq_left', ready, opened, true_and]

/-- The old session makes way for a new exchange. -/
def MakesWay (initiator responder : SessionManager P) : Prop :=
  ∀ old, responder.sessions.peek initiator.ourPub = some old →
    (old.pqShared = none ∨ initiator.ourPub < responder.ourPub) ∧
      old.remoteSeqHigh.toNat < 64 ∧
      windowBits old.remoteSeqWindow old.remoteSeqHigh.toNat = false

/-- The secrets a session may decrypt with. -/
def SessionInfo.secrets (session : SessionInfo P) : List (Option (Bytes 32)) :=
  session.pqShared :: session.pqSharedFallback.toList.map some

/--
The secret of an exchange is new to the responder's old session, and packet
keys derived from it differ from those of the old secrets.
-/
def SecretFresh (initiator responder : SessionManager P)
    (startEnv initEnv : Surroundings P) : Prop :=
  ∀ old, responder.sessions.peek initiator.ourPub = some old →
    some (exchangeSecret initiator responder startEnv initEnv) ∉ old.secrets ∧
      PacketKeysSeparate P [startEnv.newPriv, old.localX25519Priv]
        (some (exchangeSecret initiator responder startEnv initEnv) ::
          old.secrets)

theorem checkReplay_zero_iff (high window : UInt64) :
    checkReplay high window 0 = .ok () ↔
      high.toNat < 64 ∧ windowBits window high.toNat = false := by
  rw [checkReplay_ok_iff]
  simp

theorem MakesWay.responderSession (way : MakesWay initiator responder)
    (startEnv initEnv : Surroundings P) :
    let session := responderSession initiator responder startEnv initEnv
    session.pqShared =
        some (exchangeSecret initiator responder startEnv initEnv) ∧
      checkReplay session.remoteSeqHigh session.remoteSeqWindow 0 = .ok () := by
  simp only [Norn.Session.responderSession]
  cases found : responder.sessions.peek initiator.ourPub with
  | none => exact ⟨rfl, checkReplay_fresh 0⟩
  | some old =>
    rcases way old found with ⟨adopts, window⟩
    refine ⟨?_, (checkReplay_zero_iff _ _).mpr window⟩
    rcases adopts with unset | smaller
    · simp [completeHandshake, unset]
    · simp [completeHandshake, smaller]

theorem responderSession_facts (initiator responder : SessionManager P)
    (startEnv initEnv : Surroundings P) :
    let session := responderSession initiator responder startEnv initEnv
    session.established = true ∧
      session.remoteX25519Pub = P.x25519Public startEnv.newPriv := by
  simp only [responderSession]
  cases responder.sessions.peek initiator.ourPub with
  | none => exact ⟨rfl, rfl⟩
  | some old => exact ⟨rfl, rfl⟩

theorem accepts_of_decrypt_ok {session : SessionInfo P} {now : Instant}
    (decrypted : (session.decrypt now wire).1 = .ok buf) :
    ∃ packet pqShared high window,
      session.Accepts now wire buf packet pqShared high window := by
  rcases session.decrypt_cases now wire with
    ⟨failure, cache, refused, _⟩ |
      ⟨other, packet, pqShared, high, window, accepts⟩
  · rw [refused] at decrypted
    cases decrypted
  · rcases accepts.result with ⟨cache, result⟩
    rw [result] at decrypted
    cases decrypted
    exact ⟨packet, pqShared, high, window, accepts⟩

/--
A packet that one session sealed and another one accepted: its number passed
the window, and one of the receiver's secrets gives the sender's key.
-/
theorem accepted_of_encrypted (fixed : P.DhFixed) (ideal : P.AeadIdeal)
    {sender receiver : SessionInfo P}
    (encrypted : (sender.encrypt sentAt plaintext).1 = .ok wire)
    (decrypted : (receiver.decrypt receivedAt wire).1 = .ok buf) :
    checkReplay receiver.remoteSeqHigh
          receiver.remoteSeqWindow sender.localSeq = .ok () ∧
      ∃ salt ∈ receiver.secrets,
        derivePacketKey P
            (P.diffieHellman receiver.localX25519Priv
              sender.localX25519Pub) salt = sender.packetKey := by
  rcases sealed_of_encrypt fixed encrypted with ⟨rawCt, outcome, rfl⟩
  rcases accepts_of_decrypt_ok decrypted with
    ⟨packet, salt, high, window, accepts⟩
  have fields := eq_of_parsePacket_packetBytes accepts.parsed
  subst packet
  rcases openPayload_cases accepts.opened with ⟨candidate, opened⟩
  rw [dhShared_fst fixed] at opened
  refine ⟨accepts.passed, salt, ?_, (ideal outcome opened).1⟩
  rcases candidate with primary | ⟨fallback, present⟩
  · simp [SessionInfo.secrets, primary]
  · rcases Option.ne_none_iff_exists'.mp present with ⟨secret, held⟩
    simp [SessionInfo.secrets, fallback, held]

theorem decrypted_eq_plaintext (fixed : P.DhFixed) (correct : P.AeadCorrect)
    (ideal : P.AeadIdeal) {sender receiver : SessionInfo P}
    (encrypted : (sender.encrypt sentAt plaintext).1 = .ok wire)
    (decrypted : (receiver.decrypt receivedAt wire).1 = .ok buf) :
    buf = plaintext := by
  rcases sealed_of_encrypt fixed encrypted with ⟨rawCt, outcome, rfl⟩
  rcases accepts_of_decrypt_ok decrypted with
    ⟨packet, salt, high, window, accepts⟩
  have fields := eq_of_parsePacket_packetBytes accepts.parsed
  subst packet
  rcases openPayload_cases accepts.opened with ⟨_, opened⟩
  rcases ideal outcome opened with ⟨sameKey, sameNonce, sameData⟩
  rw [sameKey, sameNonce, sameData, correct.opens outcome] at opened
  exact (Option.some.inj opened).symm

theorem secrets_responderSession_of_kept {old : SessionInfo P}
    (found : responder.sessions.peek initiator.ourPub = some old)
    (present : old.pqShared ≠ none)
    (larger : ¬ initiator.ourPub < responder.ourPub)
    (startEnv initEnv : Surroundings P) :
    (responderSession initiator responder startEnv initEnv).secrets =
      old.secrets := by
  have held : old.pqShared.isNone = false := by
    cases content : old.pqShared with
    | none => exact absurd content present
    | some _ => rfl
  simp [responderSession, found, completeHandshake, held, larger,
    SessionInfo.secrets]

theorem localX25519Priv_responderSession {old : SessionInfo P}
    (found : responder.sessions.peek initiator.ourPub = some old)
    (startEnv initEnv : Surroundings P) :
    (responderSession initiator responder startEnv
      initEnv).localX25519Priv = old.localX25519Priv := by
  simp [responderSession, found, completeHandshake]

theorem makesWay_of_decrypted (fixed : P.DhFixed) (ideal : P.AeadIdeal)
    (fresh : SecretFresh initiator responder startEnv initEnv)
    {session : SessionInfo P}
    (ready : InitiatorReady initiator responder startEnv initEnv session)
    (encrypted : (session.encrypt sentAt plaintext).1 = .ok wire)
    (decrypted :
      ((responderSession initiator responder startEnv initEnv).decrypt
        receivedAt wire).1 = .ok buf) :
    MakesWay initiator responder := by
  intro old found
  rcases accepted_of_encrypted fixed ideal encrypted decrypted with
    ⟨passed, salt, held, sameKey⟩
  rw [ready.localSeq, checkReplay_zero_iff] at passed
  have window :
      (responderSession initiator responder startEnv initEnv).remoteSeqHigh =
          old.remoteSeqHigh ∧
        (responderSession initiator responder startEnv
          initEnv).remoteSeqWindow = old.remoteSeqWindow := by
    simp [responderSession, found, completeHandshake]
  rw [window.1, window.2] at passed
  refine ⟨?_, passed⟩
  by_contra kept
  rw [not_or] at kept
  rcases fresh old found with ⟨new, separate⟩
  rw [secrets_responderSession_of_kept found kept.1 kept.2] at held
  have localKey := localX25519Priv_responderSession found startEnv initEnv
  unfold packetKey at sameKey
  rw [ready.remoteX25519Pub, ready.pqShared, session.publicHalf,
    ready.localX25519Priv,
    (responderSession initiator responder startEnv initEnv).publicHalf,
    localKey] at sameKey
  have sameSalt :=
    (separate _ (by simp) _ (by simp) salt (by simp [held]) _ (by simp) _
      (by simp) _ (by simp) sameKey).1
  rw [sameSalt] at held
  exact new held

/--
A handshake started from nothing restores communication exactly when the
responder's old session, if there is one, gives up its secret and still has
room for number zero in its window.
-/
theorem rehandshake_restores_iff (commutes : P.DhCommutes)
    (fixed : P.DhFixed) (correct : P.AeadCorrect)
    (ideal : P.AeadIdeal) (seals : P.AeadSealsShort) (kem : P.KemCorrect)
    (exchange :
      Exchange initiator responder startEnv initEnv ackEnv ack
        initiatorAfter responderAfter)
    (fresh : SecretFresh initiator responder startEnv initEnv)
    (sentAt receivedAt : Instant) {plaintext answer : List UInt8}
    (short : plaintext.length < 2 ^ 32)
    (shortAnswer : answer.length < 2 ^ 32) :
    (Delivers initiatorAfter responderAfter sentAt receivedAt plaintext ∧
        Delivers responderAfter initiatorAfter sentAt receivedAt answer) ↔
      MakesWay initiator responder := by
  rcases exchange.responder_ready with ⟨responderId, _, incoming⟩
  rcases exchange.initiator_ready kem with
    ⟨initiatorId, session, outgoing, ready⟩
  rcases responderSession_facts initiator responder startEnv initEnv with
    ⟨opened, crossed⟩
  rw [← responderId] at outgoing
  rw [← initiatorId] at incoming
  rw [delivers_iff outgoing incoming ready.established opened,
    delivers_iff incoming outgoing opened ready.established]
  constructor
  · rintro ⟨⟨wire, encrypted, decrypted⟩, _⟩
    exact makesWay_of_decrypted fixed ideal fresh ready encrypted decrypted
  · intro way
    rcases way.responderSession startEnv initEnv with ⟨agreed, passed⟩
    have sameSecret := ready.pqShared.trans agreed.symm
    constructor
    · apply exists_delivered commutes fixed correct seals
        ready.remoteX25519Pub sameSecret _ sentAt receivedAt short
      rw [ready.localSeq]
      exact passed
    · apply exists_delivered commutes fixed correct seals _
        sameSecret.symm _ sentAt receivedAt shortAnswer
      · rw [crossed, session.publicHalf, ready.localX25519Priv]
      · rw [ready.remoteSeqHigh, ready.remoteSeqWindow]
        exact checkReplay_fresh _

end Rehandshake

/--
A restarted sample node completes a new exchange with a peer that still holds
the session of an earlier Init.
-/
theorem sampleExchange (sender receiver : UInt8) :
    ∃ responder reply ack initiatorAfter responderAfter,
      (sampleManager receiver).handleInit (sampleSurroundings 20 21)
          (sampleInit sender receiver).encode = (.ok reply, responder) ∧
        responder.ourPub = (sampleManager receiver).ourPub ∧
        responder.sessions.peek (sampleManager sender).ourPub =
          some (sampleSession sender) ∧
        Exchange (sampleManager sender) responder
          (sampleSurroundings 40 0) (sampleSurroundings 50 31)
          (sampleSurroundings 0 0) ack initiatorAfter responderAfter := by
  rcases sampleInit_handled sender receiver with
    ⟨responder, reply, handled, created, identity, expects⟩
  have waits :
      ((sampleManager sender).initiate (sampleSurroundings 40 0)
          responder.ourPub).2.sessions.peek responder.ourPub =
        some (SessionInfo.new responder.ourPub (Bytes.replicate 32 40)
          (Bytes.replicate 32 0) (sampleSurroundings 40 0).now) :=
    HandleTable.peek_insert_self _ _ _
  rcases @exists_answered_completed _ (sampleManager sender) responder
      (sampleSurroundings 40 0) (sampleSurroundings 50 31)
      (sampleSurroundings 0 0) transparent_signaturesVerify
      transparent_kemCorrect
      (expects (sampleSurroundings 50 31) rfl) (by decide) _ _ waits rfl
      (by intro _ found; cases found) with
    ⟨ack, initiatorAfter, responderAfter, answered, completed⟩
  exact ⟨responder, reply, ack, initiatorAfter, responderAfter, handled,
    identity, created, HandleTable.handle_empty _, answered, completed⟩

theorem sampleExchange_fresh (sender : UInt8)
    {responder : SessionManager transparent}
    (created :
      responder.sessions.peek (sampleManager sender).ourPub =
        some (sampleSession sender)) :
    SecretFresh (sampleManager sender) responder (sampleSurroundings 40 0)
      (sampleSurroundings 50 31) := by
  intro old found
  rw [created] at found
  cases found
  refine ⟨?_, ?_⟩
  · change some (Bytes.replicate 32 31) ∉
      [some (Bytes.replicate 32 21 : Bytes 32)]
    decide +kernel
  · change
      PacketKeysSeparate transparent
        [Bytes.replicate 32 40, Bytes.replicate 32 20]
        [some (Bytes.replicate 32 31), some (Bytes.replicate 32 21)]
    unfold PacketKeysSeparate
    decide +kernel

/-- After an exchange with a larger identity the first packet is lost. -/
theorem rehandshake_keeps_old_secret :
    ∃ responder reply ack initiatorAfter responderAfter,
      (sampleManager 2).handleInit (sampleSurroundings 20 21)
          (sampleInit 3 2).encode = (.ok reply, responder) ∧
        Exchange (sampleManager 3) responder (sampleSurroundings 40 0)
          (sampleSurroundings 50 31) (sampleSurroundings 0 0) ack
          initiatorAfter responderAfter ∧
        ∀ sentAt receivedAt plaintext,
          ¬ Delivers initiatorAfter responderAfter sentAt receivedAt
            plaintext := by
  rcases sampleExchange 3 2 with
    ⟨responder, reply, ack, initiatorAfter, responderAfter, handled,
      identity, created, exchange⟩
  refine ⟨responder, reply, ack, initiatorAfter, responderAfter, handled,
    exchange, ?_⟩
  rintro sentAt receivedAt plaintext ⟨wire, encrypted, decrypted⟩
  rcases exchange.responder_ready with ⟨responderId, _, incoming⟩
  rcases exchange.initiator_ready transparent_kemCorrect with
    ⟨initiatorId, session, outgoing, ready⟩
  rw [responderId] at encrypted
  rw [initiatorId] at decrypted
  rcases onSession_eq_ok_iff.mp encrypted with ⟨sending, found, _, sealedAs⟩
  rw [outgoing] at found
  cases found
  rcases onSession_eq_ok_iff.mp decrypted with ⟨receiving, found, _, unsealed⟩
  rw [incoming] at found
  cases found
  have way :=
    makesWay_of_decrypted transparent_dhFixed
      transparent_aeadIdeal (sampleExchange_fresh 3 created)
      ready sealedAs unsealed
  rcases (way _ created).1 with unset | smaller
  · cases unset
  · rw [identity] at smaller
    revert smaller
    decide +kernel

/-- After an exchange with a smaller identity packets flow both ways. -/
theorem rehandshake_adopts_new_secret :
    ∃ responder reply ack initiatorAfter responderAfter,
      (sampleManager 2).handleInit (sampleSurroundings 20 21)
          (sampleInit 1 2).encode = (.ok reply, responder) ∧
        Exchange (sampleManager 1) responder (sampleSurroundings 40 0)
          (sampleSurroundings 50 31) (sampleSurroundings 0 0) ack
          initiatorAfter responderAfter ∧
        Delivers initiatorAfter responderAfter 6 7 [1, 2, 3] ∧
        Delivers responderAfter initiatorAfter 6 7 [4, 5] := by
  rcases sampleExchange 1 2 with
    ⟨responder, reply, ack, initiatorAfter, responderAfter, handled,
      identity, created, exchange⟩
  refine ⟨responder, reply, ack, initiatorAfter, responderAfter, handled,
    exchange, ?_⟩
  refine
    (rehandshake_restores_iff transparent_dhCommutes
      transparent_dhFixed
      transparent_aeadCorrect transparent_aeadIdeal
      transparent_aeadSealsShort
      transparent_kemCorrect exchange
      (sampleExchange_fresh 1 created) 6 7 (by decide) (by decide)).mpr ?_
  intro old found
  rw [created] at found
  cases found
  refine ⟨Or.inr ?_, by decide, by decide⟩
  rw [identity]
  decide +kernel

end Norn.Session
