import Norn.Session.KemRotation

/-!
# The ML-KEM overlap window

After a handshake around a rotation the initiator's fallback secret is the
right one.  `decrypt` tries it and promotes it, but `encrypt` only ever uses
the primary.  So the first packets get through exactly if the responder's
packet reaches the initiator before the initiator encrypts its own.
-/

namespace Norn.Session

open Foundation Foundation.Run SessionInfo Primitives

section KemOverlap

variable {P : Primitives}
  {initiator responder initiatorAfter responderAfter : SessionManager P}
  {startEnv initEnv ackEnv : Surroundings P}
  {ticks : List (RotationTick P)} {ack : List UInt8}

variable {manager after : SessionManager P} {remote : Bytes 32}
  {session : SessionInfo P} {buf plaintext wire answer : List UInt8}
  {now sentAt receivedAt repliedAt : Instant}

/-! ## The first packets -/

/-- In which order the two first packets are encrypted and decrypted. -/
inductive PacketOrder where
  | initiatorFirst
  | crossed
  | responderFirst

/-- Both first packets are decrypted where they are sent to. -/
def FirstPacketsDecrypt (order : PacketOrder)
    (initiator responder : SessionManager P)
    (sentAt receivedAt repliedAt answeredAt : Instant)
    (plaintext answer : List UInt8) : Prop :=
  match order with
  | .initiatorFirst =>
    ∃ wire reply sent received replied answered,
      initiator.encrypt responder.ourPub sentAt plaintext = (.ok wire, sent) ∧
        responder.decrypt initiator.ourPub receivedAt wire =
          (.ok plaintext, received) ∧
        received.encrypt initiator.ourPub repliedAt answer =
          (.ok reply, replied) ∧
        sent.decrypt responder.ourPub answeredAt reply = (.ok answer, answered)
  | .crossed =>
    ∃ wire reply sent received replied answered,
      initiator.encrypt responder.ourPub sentAt plaintext = (.ok wire, sent) ∧
        responder.encrypt initiator.ourPub repliedAt answer =
          (.ok reply, replied) ∧
        replied.decrypt initiator.ourPub receivedAt wire =
          (.ok plaintext, received) ∧
        sent.decrypt responder.ourPub answeredAt reply = (.ok answer, answered)
  | .responderFirst =>
    ∃ wire reply sent received replied answered,
      responder.encrypt initiator.ourPub repliedAt answer =
          (.ok reply, replied) ∧
        initiator.decrypt responder.ourPub answeredAt reply =
          (.ok answer, answered) ∧
        answered.encrypt responder.ourPub sentAt plaintext = (.ok wire, sent) ∧
        replied.decrypt initiator.ourPub receivedAt wire =
          (.ok plaintext, received)

/-- The manager holds an established session for the peer. -/
structure SessionManager.Talks (manager : SessionManager P)
    (remote : Bytes 32) (session : SessionInfo P) : Prop where
  found : manager.sessions.peek remote = some session
  established : session.established = true

theorem SessionManager.Talks.onSession_iff
    (keeps : manager.Talks remote session)
    {operate :
      SessionInfo P → Except SessionError (List UInt8) × SessionInfo P} :
    manager.onSession remote operate = (.ok buf, after) ↔
      (operate session).1 = .ok buf ∧
        { manager with
          sessions :=
            manager.sessions.modify remote fun _ => (operate session).2 } =
              after := by
  unfold SessionManager.onSession
  simp only [keeps.found, keeps.established, Bool.not_true, Bool.false_eq_true,
    if_false]
  cases (operate session).1 <;> simp

theorem SessionManager.Talks.modify {next : SessionInfo P}
    (keeps : manager.Talks remote session) (remains : next.established = true) :
    SessionManager.Talks
      { manager with
        sessions := manager.sessions.modify remote fun _ => next }
      remote next := by
  refine ⟨?_, remains⟩
  rw [HandleTable.peek_modify_self, keeps.found, Option.map_some]

theorem SessionManager.Talks.of_encrypt (keeps : manager.Talks remote session)
    (encrypted : manager.encrypt remote now plaintext = (.ok wire, after)) :
    (session.encrypt now plaintext).1 = .ok wire ∧
      after.Talks remote (session.encrypt now plaintext).2 := by
  rcases keeps.onSession_iff.mp encrypted with ⟨result, rfl⟩
  exact ⟨result, keeps.modify
    ((session.established_encrypt now plaintext).trans keeps.established)⟩

theorem SessionManager.Talks.encrypt (keeps : manager.Talks remote session)
    (encrypted : (session.encrypt now plaintext).1 = .ok wire) :
    ∃ after,
      manager.encrypt remote now plaintext = (.ok wire, after) ∧
        after.Talks remote (session.encrypt now plaintext).2 := by
  have result : manager.encrypt remote now plaintext = (.ok wire, _) :=
    keeps.onSession_iff.mpr ⟨encrypted, rfl⟩
  exact ⟨_, result, (keeps.of_encrypt result).2⟩

theorem SessionManager.Talks.of_decrypt (keeps : manager.Talks remote session)
    {ciphertext : List UInt8}
    (decrypted : manager.decrypt remote now ciphertext = (.ok buf, after)) :
    (session.decrypt now ciphertext).1 = .ok buf ∧
      after.Talks remote (session.decrypt now ciphertext).2 := by
  rcases keeps.onSession_iff.mp decrypted with ⟨result, rfl⟩
  exact ⟨result, keeps.modify
    ((session.decrypt_handshake now ciphertext).1.trans keeps.established)⟩

theorem SessionManager.Talks.decrypt (keeps : manager.Talks remote session)
    {ciphertext : List UInt8}
    (decrypted : (session.decrypt now ciphertext).1 = .ok buf) :
    ∃ after,
      manager.decrypt remote now ciphertext = (.ok buf, after) ∧
        after.Talks remote (session.decrypt now ciphertext).2 := by
  have result : manager.decrypt remote now ciphertext = (.ok buf, _) :=
    keeps.onSession_iff.mpr ⟨decrypted, rfl⟩
  exact ⟨_, result, (keeps.of_decrypt result).2⟩

theorem encrypt_keeps (session : SessionInfo P) (now : Instant)
    (plaintext : List UInt8) :
    let after := (session.encrypt now plaintext).2
    after.secrets = session.secrets ∧ after.pqShared = session.pqShared ∧
      after.localX25519Priv = session.localX25519Priv ∧
      after.remoteSeqHigh = session.remoteSeqHigh ∧
      after.remoteSeqWindow = session.remoteSeqWindow := by
  rcases session.encrypt_snd now plaintext with ⟨cache, seq, used, after⟩
  rw [after]
  exact ⟨rfl, rfl, rfl, rfl, rfl⟩

theorem mem_secrets_of_decrypted (fixed : P.DhFixed) (ideal : P.AeadIdeal)
    {keys : List P.StaticSecret} {salts : List (Option (Bytes 32))}
    (separate : PacketKeysSeparate P keys salts)
    {sender receiver : SessionInfo P} {remote : P.StaticSecret}
    (own : sender.localX25519Priv ∈ keys) (far : remote ∈ keys)
    (target : sender.remoteX25519Pub = P.x25519Public remote)
    (mine : receiver.localX25519Priv ∈ keys) (sealing : sender.pqShared ∈ salts)
    (opening : ∀ salt ∈ receiver.secrets, salt ∈ salts)
    (encrypted : (sender.encrypt sentAt plaintext).1 = .ok wire)
    (decrypted : (receiver.decrypt receivedAt wire).1 = .ok buf) :
    sender.pqShared ∈ receiver.secrets := by
  rcases accepted_of_encrypted fixed ideal encrypted decrypted with
    ⟨_, salt, held, sameKey⟩
  unfold packetKey at sameKey
  rw [target, sender.publicHalf] at sameKey
  have sameSalt :=
    (separate _ mine _ own salt (opening salt held) _ own _ far _ sealing
      sameKey).1
  rwa [sameSalt] at held

theorem mem_secrets_responderSession {salt : Option (Bytes 32)}
    (held :
      salt ∈ (responderSession initiator responder startEnv initEnv).secrets) :
    salt = some (exchangeSecret initiator responder startEnv initEnv) ∨
      salt ∈ oldSecrets initiator responder := by
  cases found : responder.sessions.peek initiator.ourPub with
  | none =>
    left
    simpa [responderSession, found, SessionInfo.secrets, SessionInfo.new]
      using held
  | some old =>
    cases adopt :
        (old.pqShared.isNone ||
          decide (initiator.ourPub < responder.ourPub)) with
    | true =>
      left
      simpa [responderSession, found, completeHandshake,
        adopt, SessionInfo.secrets] using held
    | false =>
      right
      simpa [responderSession, oldSecrets, found,
        completeHandshake, adopt, SessionInfo.secrets]
        using held

theorem SecretsUnrelated.covers {salt : Option (Bytes 32)}
    (held :
      salt ∈ (responderSession initiator responder startEnv initEnv).secrets) :
    salt ∈
      some (misreadSecret initiator responder startEnv initEnv ticks) ::
        some (exchangeSecret initiator responder startEnv initEnv) ::
        oldSecrets initiator responder := by
  rcases mem_secrets_responderSession held with same | old
  · simp [same]
  · simp [old]

theorem SecretsUnrelated.misread_not_held
    (unrelated : SecretsUnrelated initiator responder startEnv initEnv ticks) :
    some (misreadSecret initiator responder startEnv initEnv ticks) ∉
      (responderSession initiator responder startEnv initEnv).secrets := by
  intro held
  rcases mem_secrets_responderSession held with same | old
  · exact unrelated.misread (Option.some.inj same)
  · exact unrelated.misreadNew old

theorem OverlapReady.misread_lost (fixed : P.DhFixed) (ideal : P.AeadIdeal)
    (unrelated : SecretsUnrelated initiator responder startEnv initEnv ticks)
    {receiver : SessionInfo P}
    (ready : OverlapReady initiator responder startEnv initEnv ticks session)
    (sameSecrets :
      receiver.secrets =
        (responderSession initiator responder startEnv initEnv).secrets)
    (sameKey :
      receiver.localX25519Priv =
        (responderSession initiator responder startEnv initEnv).localX25519Priv)
    (encrypted : (session.encrypt sentAt plaintext).1 = .ok wire) :
    (receiver.decrypt receivedAt wire).1 ≠ .ok buf := by
  intro decrypted
  have target :
      session.remoteX25519Pub =
        P.x25519Public
          (responderSession initiator responder startEnv
            initEnv).localX25519Priv :=
    ready.remoteX25519Pub.trans (publicHalf _)
  have shared :=
    mem_secrets_of_decrypted fixed ideal unrelated.separate
      (by simp [ready.localX25519Priv]) (by simp) target
      (by simp [sameKey]) (by simp [ready.pqShared])
      (by
        intro salt held
        rw [sameSecrets] at held
        exact SecretsUnrelated.covers held)
      encrypted decrypted
  rw [sameSecrets, ready.pqShared] at shared
  exact unrelated.misread_not_held shared

theorem OverlapReady.adopted_of_reply (fixed : P.DhFixed) (ideal : P.AeadIdeal)
    (unrelated : SecretsUnrelated initiator responder startEnv initEnv ticks)
    (ready : OverlapReady initiator responder startEnv initEnv ticks session)
    {answeredAt : Instant} {reply : List UInt8}
    (encrypted :
      ((responderSession initiator responder startEnv initEnv).encrypt
        repliedAt answer).1 = .ok reply)
    (decrypted : (session.decrypt answeredAt reply).1 = .ok buf) :
    (responderSession initiator responder startEnv initEnv).pqShared =
      some (exchangeSecret initiator responder startEnv initEnv) := by
  have primary :
      (responderSession initiator responder startEnv initEnv).pqShared ∈
        (responderSession initiator responder startEnv initEnv).secrets := by
    simp [SessionInfo.secrets]
  have target := (responderSession_facts initiator responder startEnv initEnv).2
  have shared :=
    mem_secrets_of_decrypted fixed ideal unrelated.separate
      (by simp) (by simp) target (by simp [ready.localX25519Priv])
      (SecretsUnrelated.covers primary)
      (by
        intro salt held
        simp only [SessionInfo.secrets, ready.pqShared,
          ready.pqSharedFallback, Option.toList_some, List.map_cons,
          List.map_nil, List.mem_cons, List.not_mem_nil, or_false] at held
        rcases held with same | same
        · simp [same]
        · simp [same])
      encrypted decrypted
  simp only [SessionInfo.secrets, ready.pqShared, ready.pqSharedFallback,
    Option.toList_some, List.map_cons, List.map_nil, List.mem_cons,
    List.not_mem_nil, or_false] at shared
  rcases shared with misread | adopted
  · rw [misread] at primary
    exact (unrelated.misread_not_held primary).elim
  · exact adopted

theorem openPayload_of_fallback {pqShared : Option (Bytes 32)}
    {fallback shared : Bytes 32} {packet : SessionInfo.Packet}
    {buf : List UInt8}
    (closed :
      P.aeadOpen (derivePacketKey P shared pqShared)
        (packetNonce packet.seq) packet.senderXPub packet.rawCt = none)
    (opened :
      P.aeadOpen (derivePacketKey P shared (some fallback))
        (packetNonce packet.seq) packet.senderXPub packet.rawCt = some buf) :
    openPayload P pqShared (some fallback) shared packet =
      .ok (buf, some fallback) := by
  simp only [openPayload, closed, opened]

/-- The first reply promotes the fallback secret. -/
theorem OverlapReady.promotes (commutes : P.DhCommutes) (fixed : P.DhFixed)
    (correct : P.AeadCorrect) (ideal : P.AeadIdeal)
    (unrelated : SecretsUnrelated initiator responder startEnv initEnv ticks)
    (ready : OverlapReady initiator responder startEnv initEnv ticks session)
    (adopted :
      (responderSession initiator responder startEnv initEnv).pqShared =
        some (exchangeSecret initiator responder startEnv initEnv))
    {reply : List UInt8}
    (encrypted :
      ((responderSession initiator responder startEnv initEnv).encrypt
        repliedAt answer).1 = .ok reply)
    (answeredAt : Instant) :
    (session.decrypt answeredAt reply).1 = .ok answer ∧
      (session.decrypt answeredAt reply).2.pqShared =
        some (exchangeSecret initiator responder startEnv initEnv) ∧
      (session.decrypt answeredAt reply).2.remoteX25519Pub =
        (responderSession initiator responder startEnv initEnv).localX25519Pub ∧
      (session.decrypt answeredAt reply).2.localSeq = 0 := by
  have target := (responderSession_facts initiator responder startEnv initEnv).2
  have halves :=
    (responderSession initiator responder startEnv initEnv).publicHalf
  have separate := unrelated.separate
  have different := unrelated.misread
  generalize responderSession initiator responder startEnv initEnv = other at *
  have sealing :
      other.packetKey =
        derivePacketKey P
          (P.diffieHellman session.localX25519Priv other.localX25519Pub)
          (some (exchangeSecret initiator responder startEnv initEnv)) := by
    unfold packetKey
    rw [adopted, target, halves, ready.localX25519Priv, commutes]
  rcases sealed_of_encrypt fixed encrypted with ⟨rawCt, outcome, rfl⟩
  have parsed :=
    parsePacket_packetBytes other.localX25519Pub other.localSeq
      (correct.tagged outcome)
  have opened := correct.opens outcome
  have closed :
      P.aeadOpen
          (derivePacketKey P (session.dhShared other.localX25519Pub).1
            session.pqShared)
          (packetNonce other.localSeq) other.localX25519Pub rawCt =
        none := by
    apply ideal.closed outcome
    rw [dhShared_fst fixed, ready.pqShared, sealing, halves,
      ready.localX25519Priv]
    intro sameKey
    have sameSalt :=
      (separate _ (by simp) _ (by simp) _ (by simp) _ (by simp) _ (by simp) _
        (by simp) sameKey).1
    exact different (Option.some.inj sameSalt)
  rw [sealing, ← dhShared_fst fixed] at opened
  have payload :=
    @openPayload_of_fallback P session.pqShared _ _
      ⟨other.localX25519Pub, other.localSeq, rawCt⟩ answer closed opened
  rw [← ready.pqSharedFallback] at payload
  have passed :
      checkReplay session.remoteSeqHigh
        session.remoteSeqWindow other.localSeq = .ok () := by
    rw [ready.remoteSeqHigh, ready.remoteSeqWindow]
    exact checkReplay_fresh _
  rcases session.decrypt_of_opened answeredAt parsed passed payload with
    ⟨_, high, window, _, decrypted⟩
  rw [decrypted]
  exact ⟨rfl, ready.pqSharedFallback, rfl, ready.localSeq⟩

theorem OverlapExchange.sessions (kem : P.KemCorrect)
    (exchange :
      OverlapExchange initiator responder startEnv initEnv ackEnv ticks ack
        initiatorAfter responderAfter) :
    ∃ session,
      OverlapReady initiator responder startEnv initEnv ticks session ∧
        initiatorAfter.Talks responderAfter.ourPub session ∧
        responderAfter.Talks initiatorAfter.ourPub
          (responderSession initiator responder startEnv initEnv) := by
  rcases responder_ready_of_answered exchange.answered with
    ⟨responderId, _, incoming⟩
  rcases exchange.initiator_ready kem with
    ⟨initiatorId, session, outgoing, ready⟩
  rw [← responderId] at outgoing
  rw [← initiatorId] at incoming
  exact ⟨session, ready, ⟨outgoing, ready.established⟩, incoming,
    (responderSession_facts initiator responder startEnv initEnv).1⟩

theorem SecretsUnrelated.adopts
    (unrelated : SecretsUnrelated initiator responder startEnv initEnv ticks)
    (adopted :
      (responderSession initiator responder startEnv initEnv).pqShared =
        some (exchangeSecret initiator responder startEnv initEnv))
    {old : SessionInfo P}
    (found : responder.sessions.peek initiator.ourPub = some old) :
    old.pqShared = none ∨ initiator.ourPub < responder.ourPub := by
  by_contra kept
  rw [not_or] at kept
  have held :
      (responderSession initiator responder startEnv initEnv).pqShared ∈
        (responderSession initiator responder startEnv initEnv).secrets := by
    simp [SessionInfo.secrets]
  rw [adopted, secrets_responderSession_of_kept found kept.1 kept.2] at held
  apply unrelated.fresh
  simpa [oldSecrets, found] using held

theorem window_responderSession {old : SessionInfo P}
    (found : responder.sessions.peek initiator.ourPub = some old)
    (startEnv initEnv : Surroundings P) :
    (responderSession initiator responder startEnv initEnv).remoteSeqHigh =
        old.remoteSeqHigh ∧
      (responderSession initiator responder startEnv
        initEnv).remoteSeqWindow = old.remoteSeqWindow := by
  simp [responderSession, found, completeHandshake]

theorem OverlapReady.makesWay (commutes : P.DhCommutes) (fixed : P.DhFixed)
    (correct : P.AeadCorrect) (ideal : P.AeadIdeal)
    (unrelated : SecretsUnrelated initiator responder startEnv initEnv ticks)
    (ready : OverlapReady initiator responder startEnv initEnv ticks session)
    (outgoing : initiatorAfter.Talks responderAfter.ourPub session)
    (incoming :
      responderAfter.Talks initiatorAfter.ourPub
        (responderSession initiator responder startEnv initEnv))
    {answeredAt : Instant}
    (decrypts :
      FirstPacketsDecrypt .responderFirst initiatorAfter responderAfter
        sentAt receivedAt repliedAt answeredAt plaintext answer) :
    MakesWay initiator responder := by
  rcases decrypts with
    ⟨wire, reply, sent, received, replied, answered, sealedReply, openedReply,
      encrypted, decrypted⟩
  rcases incoming.of_encrypt sealedReply with ⟨replies, later⟩
  rcases outgoing.of_decrypt openedReply with ⟨answers, promoted⟩
  have adopted := ready.adopted_of_reply fixed ideal unrelated replies answers
  have counter :=
    (ready.promotes commutes fixed correct ideal unrelated adopted replies
      answeredAt).2.2.2
  rcases accepted_of_encrypted fixed ideal
      (promoted.of_encrypt encrypted).1 (later.of_decrypt decrypted).1 with
    ⟨passed, _⟩
  rcases encrypt_keeps (responderSession initiator responder startEnv initEnv)
    repliedAt answer with
    ⟨_, _, _, high, window⟩
  rw [counter, high, window, checkReplay_zero_iff] at passed
  intro old found
  refine ⟨unrelated.adopts adopted found, ?_⟩
  rcases window_responderSession found startEnv initEnv with
    ⟨oldHigh, oldWindow⟩
  rwa [oldHigh, oldWindow] at passed

/-- If the old session makes way, both first packets get through. -/
theorem OverlapReady.responderFirst (commutes : P.DhCommutes)
    (fixed : P.DhFixed) (correct : P.AeadCorrect) (ideal : P.AeadIdeal)
    (seals : P.AeadSealsShort)
    (unrelated : SecretsUnrelated initiator responder startEnv initEnv ticks)
    (ready : OverlapReady initiator responder startEnv initEnv ticks session)
    (outgoing : initiatorAfter.Talks responderAfter.ourPub session)
    (incoming :
      responderAfter.Talks initiatorAfter.ourPub
        (responderSession initiator responder startEnv initEnv))
    (way : MakesWay initiator responder)
    (sentAt receivedAt repliedAt answeredAt : Instant)
    (short : plaintext.length < 2 ^ 32) (shortAnswer : answer.length < 2 ^ 32) :
    FirstPacketsDecrypt .responderFirst initiatorAfter responderAfter
      sentAt receivedAt repliedAt answeredAt plaintext answer := by
  rcases way.responderSession startEnv initEnv with ⟨adopted, passed⟩
  rcases exists_encrypted fixed seals
      (responderSession initiator responder startEnv initEnv) repliedAt
      shortAnswer with
    ⟨reply, replies⟩
  rcases incoming.encrypt replies with ⟨replied, sealedReply, later⟩
  rcases ready.promotes commutes fixed correct ideal unrelated adopted replies
    answeredAt with
    ⟨answers, agreed, crossed, counter⟩
  rcases outgoing.decrypt answers with ⟨answered, openedReply, promoted⟩
  rcases encrypt_keeps (responderSession initiator responder startEnv initEnv)
    repliedAt answer with
    ⟨_, sameSecret, sameKey, high, window⟩
  rcases exists_encrypted fixed seals (session.decrypt answeredAt reply).2
    sentAt short with
    ⟨wire, sends⟩
  rcases promoted.encrypt sends with ⟨sent, encrypted, _⟩
  have receives :
      (((responderSession initiator responder startEnv initEnv).encrypt
        repliedAt answer).2.decrypt receivedAt wire).1 = .ok plaintext := by
    refine decrypt_encrypt commutes fixed correct ?_ ?_ ?_ sends
    · rw [crossed, publicHalf, publicHalf, sameKey]
    · rw [agreed, sameSecret, adopted]
    · rw [counter, high, window]
      exact passed
  rcases later.decrypt receives with ⟨received, decrypted, _⟩
  exact ⟨wire, reply, sent, received, replied, answered, sealedReply,
    openedReply, encrypted, decrypted⟩

/--
After a handshake during which the initiator's ML-KEM key pair was replaced,
both first packets are decrypted exactly if the responder's packet reaches
the initiator before the initiator encrypts its own, and the responder's old
session, if there is one, makes way.
-/
theorem first_packets_decrypt_iff (commutes : P.DhCommutes)
    (fixed : P.DhFixed) (correct : P.AeadCorrect)
    (ideal : P.AeadIdeal) (seals : P.AeadSealsShort) (kem : P.KemCorrect)
    (exchange :
      OverlapExchange initiator responder startEnv initEnv ackEnv ticks ack
        initiatorAfter responderAfter)
    (unrelated : SecretsUnrelated initiator responder startEnv initEnv ticks)
    (order : PacketOrder)
    (sentAt receivedAt repliedAt answeredAt : Instant)
    {plaintext answer : List UInt8}
    (short : plaintext.length < 2 ^ 32)
    (shortAnswer : answer.length < 2 ^ 32) :
    FirstPacketsDecrypt order initiatorAfter responderAfter sentAt
        receivedAt repliedAt answeredAt plaintext answer ↔
      order = .responderFirst ∧ MakesWay initiator responder := by
  rcases exchange.sessions kem with ⟨session, ready, outgoing, incoming⟩
  constructor
  · intro decrypts
    cases order with
    | initiatorFirst =>
      rcases decrypts with
        ⟨wire, reply, sent, received, replied, answered, encrypted,
          decrypted, _⟩
      exact (ready.misread_lost fixed ideal unrelated rfl rfl
        (outgoing.of_encrypt encrypted).1
        (incoming.of_decrypt decrypted).1).elim
    | crossed =>
      rcases decrypts with
        ⟨wire, reply, sent, received, replied, answered, encrypted,
          sealedReply, decrypted, _⟩
      have later := (incoming.of_encrypt sealedReply).2
      rcases encrypt_keeps
          (responderSession initiator responder startEnv initEnv)
          repliedAt answer with
        ⟨sameSecrets, _, sameKey, _⟩
      exact (ready.misread_lost fixed ideal unrelated sameSecrets
        sameKey (outgoing.of_encrypt encrypted).1
        (later.of_decrypt decrypted).1).elim
    | responderFirst =>
      exact ⟨rfl, ready.makesWay commutes fixed correct ideal
        unrelated outgoing incoming decrypts⟩
  · rintro ⟨rfl, way⟩
    exact ready.responderFirst commutes fixed correct ideal seals
      unrelated outgoing incoming way sentAt receivedAt repliedAt
      answeredAt short shortAnswer

end KemOverlap

theorem sampleOverlap_unrelated :
    SecretsUnrelated (sampleManager 1) (sampleManager 2)
      (sampleSurroundings 40 0) (sampleSurroundings 50 31)
      [sampleRotation] where
  misread := by decide +kernel
  misreadNew := by decide +kernel
  fresh := by decide +kernel
  separate := by
    unfold PacketKeysSeparate
    decide +kernel

theorem sampleOverlap_makesWay :
    MakesWay (sampleManager 1) (sampleManager 2) := by
  intro old found
  cases found

/-- A sample exchange across a rotation in which the responder speaks first. -/
theorem first_packets_decrypt_responder_first :
    ∃ ack initiatorAfter responderAfter,
      OverlapExchange (sampleManager 1) (sampleManager 2)
          (sampleSurroundings 40 0) (sampleSurroundings 50 31)
          (sampleSurroundings 0 0) [sampleRotation] ack initiatorAfter
          responderAfter ∧
        FirstPacketsDecrypt .responderFirst initiatorAfter responderAfter
          6 7 8 9 [1, 2, 3] [4, 5] := by
  rcases sampleOverlap with ⟨ack, initiatorAfter, responderAfter, exchange⟩
  refine ⟨ack, initiatorAfter, responderAfter, exchange, ?_⟩
  exact
    (first_packets_decrypt_iff transparent_dhCommutes
      transparent_dhFixed
      transparent_aeadCorrect transparent_aeadIdeal
      transparent_aeadSealsShort
      transparent_kemCorrect exchange sampleOverlap_unrelated
      .responderFirst 6 7 8 9 (by decide) (by decide)).mpr
      ⟨rfl, sampleOverlap_makesWay⟩

/-- The initiator's packet is lost if it is the first one. -/
theorem initiator_first_packet_lost :
    ∃ ack initiatorAfter responderAfter,
      OverlapExchange (sampleManager 1) (sampleManager 2)
          (sampleSurroundings 40 0) (sampleSurroundings 50 31)
          (sampleSurroundings 0 0) [sampleRotation] ack initiatorAfter
          responderAfter ∧
        ∀ sentAt receivedAt repliedAt answeredAt plaintext answer,
          ¬ FirstPacketsDecrypt .initiatorFirst initiatorAfter
            responderAfter sentAt receivedAt repliedAt answeredAt
            plaintext answer := by
  rcases sampleOverlap with ⟨ack, initiatorAfter, responderAfter, exchange⟩
  refine ⟨ack, initiatorAfter, responderAfter, exchange, ?_⟩
  rintro sentAt receivedAt repliedAt answeredAt plaintext answer
    ⟨wire, reply, sent, received, replied, answered, encrypted, decrypted, _⟩
  rcases exchange.sessions transparent_kemCorrect with
    ⟨session, ready, outgoing, incoming⟩
  exact ready.misread_lost transparent_dhFixed
    transparent_aeadIdeal sampleOverlap_unrelated rfl rfl
    (outgoing.of_encrypt encrypted).1 (incoming.of_decrypt decrypted).1

end Norn.Session
