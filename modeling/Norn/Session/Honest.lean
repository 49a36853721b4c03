import Norn.Session.Operations

/-!
# Handshakes between honest nodes

An Init or Ack built by an honest node passes every check of the handler it
is addressed to, as long as the clocks agree within the time window, the rate
limit has room and the receiver has not pinned another post-quantum key for
the sender.  Two sessions that hold each other's X25519 keys and the same
post-quantum secret decrypt each other's packets.
-/

namespace Norn.Session

open Foundation SessionInfo

section Honest

variable {P : Primitives}

variable {sender receiver : SessionInfo P} {plaintext : List UInt8}

/-- No other ML-DSA key is pinned for the identity. -/
def PinsAgree (pins : PinTable) (edPub : Bytes 32)
    (mlDsaPub : Bytes mlDsaPubBytes) : Prop :=
  ∀ pinned, pins.lookup edPub = some pinned → pinned = mlDsaPub

theorem pqVerifyAndPin_of_agree (order : IterationOrder) {pins : PinTable}
    {edPub : Bytes 32}
    {mlDsaPub : Bytes mlDsaPubBytes} {signed : List UInt8}
    {signature : Bytes mlDsaSigBytes}
    (agree : PinsAgree pins edPub mlDsaPub)
    (verified : pqVerify P mlDsaPub signed signature = true) :
    ∃ after,
      pqVerifyAndPin P pins order edPub mlDsaPub signed signature = .ok after ∧
        after.lookup edPub = some mlDsaPub := by
  cases found : pins.lookup edPub with
  | none =>
    simp only [pqVerifyAndPin, found, verified, Option.any_none,
      Option.isSome_none, Bool.not_true, Bool.false_eq_true, if_false]
    exact ⟨_, rfl, AList.lookup_insert _⟩
  | some pinned =>
    have same := agree pinned found
    subst pinned
    refine ⟨pins, ?_, found⟩
    simp [pqVerifyAndPin, found, verified]

theorem rateLimited_of_room {log : RateLog} {source : Bytes 32}
    (now : Instant) (order : IterationOrder)
    (room : log.lookup source ≠ none ∨ log.keys.length < maxInitRateLogEntries)
    (few : ((log.lookup source).getD []).length < maxInitsPerWindow) :
    rateLimited log now order source =
      (false,
        log.insert source
          (((log.lookup source).getD []).filter
              (fun attempt => rateCutoff now ≤ attempt) ++ [now])) := by
  have uncrowded :
      ¬ ((log.lookup source).isNone = true ∧
        maxInitRateLogEntries ≤ log.keys.length) := by
    rintro ⟨absent, full⟩
    rcases room with present | short
    · exact present (Option.isNone_iff_eq_none.mp absent)
    · exact absurd full (Nat.not_le.mpr short)
  have under :
      ¬ maxInitsPerWindow ≤
        (((log.lookup source).getD []).filter
          fun attempt => rateCutoff now ≤ attempt).length := by
    have shorter :=
      List.length_filter_le (fun attempt => rateCutoff now ≤ attempt)
        ((log.lookup source).getD [])
    exact Nat.not_le.mpr (lt_of_le_of_lt shorter few)
  simp only [rateLimited, if_neg uncrowded, if_neg under]

/-- The attempts of a source the rate log remembers. -/
def attempts (log : RateLog) (source : Bytes 32) : List Instant :=
  (log.lookup source).getD []

/--
The receiver is prepared for an Init of the sender: the rate limit has room,
the clocks agree and no other post-quantum key is pinned for the sender.
-/
structure ExpectsInit (receiver sender : SessionManager P)
    (env : Surroundings P) (stampMs : UInt64) : Prop where
  room :
    receiver.initRateLog.lookup sender.ourPub ≠ none ∨
      receiver.initRateLog.keys.length < maxInitRateLogEntries
  few :
    (attempts receiver.initRateLog sender.ourPub).length < maxInitsPerWindow
  inside : clockSkew env.nowMs stampMs ≤ handshakeTimeWindowMs
  agree : PinsAgree receiver.pqPins sender.ourPub sender.pqSigner.pubBytes

theorem ExpectsInit.of_unused {receiver : SessionManager P}
    (unlogged : receiver.initRateLog = ∅) (unpinned : receiver.pqPins = ∅)
    (sender : SessionManager P) {env : Surroundings P} {stampMs : UInt64}
    (inside : clockSkew env.nowMs stampMs ≤ handshakeTimeWindowMs) :
    ExpectsInit receiver sender env stampMs where
  room := by
    right
    rw [unlogged]
    simp [maxInitRateLogEntries]
  few := by
    rw [unlogged]
    simp [attempts, maxInitsPerWindow]
  inside := inside
  agree := by
    intro pinned found
    rw [unpinned] at found
    cases found

/-- An honest Init that is expected passes every check. -/
theorem ExpectsInit.admits (signatures : P.SignaturesVerify)
    (kem : P.KemCorrect) {sender receiver : SessionManager P}
    {env : Surroundings P} {stampMs : UInt64}
    (expects : ExpectsInit receiver sender env stampMs)
    (localPub : Bytes 32) :
    ∃ log pins,
      receiver.AdmitsInit env (sender.initFor receiver.ourPub localPub stampMs)
        log pins ∧
        (log.lookup sender.ourPub ≠ none ∧
          (attempts log sender.ourPub).length ≤
            (attempts receiver.initRateLog sender.ourPub).length + 1) ∧
        PinsAgree pins sender.ourPub sender.pqSigner.pubBytes := by
  have signed :=
    @HandshakeMessage.pqVerify_create .init P signatures
      sender.ourSigningKey localPub receiver.ourPub sender.pqKeys.ekBytes
      sender.ownCoord sender.pqSigner stampMs
  rcases pqVerifyAndPin_of_agree env.order expects.agree signed with
    ⟨pins, pinned, known⟩
  have unlimited :=
    rateLimited_of_room env.now env.order expects.room expects.few
  refine ⟨_, pins, ⟨unlimited, ?_, pinned, ?_⟩, ⟨?_, ?_⟩, ?_⟩
  · exact HandshakeMessage.verify_create signatures _ _ _ _ _ _ expects.inside
  · change P.isEncapsulationKey sender.pqKeys.ekBytes = true
    rw [sender.pqKeys.advertised]
    exact kem.validKey _
  · rw [AList.lookup_insert]
    simp
  · simp only [attempts, AList.lookup_insert, Option.getD_some,
      List.length_append, List.length_singleton]
    exact Nat.add_le_add_right (List.length_filter_le _ _) 1
  · intro other found
    rw [known] at found
    exact (Option.some.inj found).symm

theorem admitsAck_create (signatures : P.SignaturesVerify)
    {sender receiver : SessionManager P} {env : Surroundings P}
    {localPub : Bytes 32} {mlKemCt : Bytes mlKemCtBytes}
    {stampMs : UInt64} {existing : SessionInfo P}
    (pending : receiver.sessions.peek sender.ourPub = some existing)
    (inside : clockSkew env.nowMs stampMs ≤ handshakeTimeWindowMs)
    (agree : PinsAgree receiver.pqPins sender.ourPub sender.pqSigner.pubBytes) :
    ∃ pins,
      receiver.AdmitsAck env
          (HandshakeMessage.create sender.ourSigningKey localPub
            receiver.ourPub mlKemCt sender.ownCoord sender.pqSigner
            stampMs) pins existing ∧
        PinsAgree pins sender.ourPub sender.pqSigner.pubBytes := by
  have signed :=
    @HandshakeMessage.pqVerify_create .ack P signatures
      sender.ourSigningKey localPub receiver.ourPub mlKemCt
      sender.ownCoord sender.pqSigner stampMs
  rcases pqVerifyAndPin_of_agree env.order agree signed with
    ⟨pins, pinned, known⟩
  refine ⟨pins, ⟨?_, pinned, pending⟩, ?_⟩
  · exact HandshakeMessage.verify_create signatures _ _ _ _ _ _ inside
  · intro other found
    rw [known] at found
    exact (Option.some.inj found).symm

theorem packetKey_eq (commutes : P.DhCommutes)
    (crossed : sender.remoteX25519Pub = receiver.localX25519Pub)
    (agreed : sender.pqShared = receiver.pqShared) :
    sender.packetKey =
      derivePacketKey P
        (P.diffieHellman receiver.localX25519Priv sender.localX25519Pub)
        receiver.pqShared := by
  unfold packetKey
  rw [crossed, receiver.publicHalf, sender.publicHalf, agreed,
    commutes sender.localX25519Priv receiver.localX25519Priv]

theorem decrypt_encrypt (commutes : P.DhCommutes) (fixed : P.DhFixed)
    (correct : P.AeadCorrect) {sentAt receivedAt : Instant} {wire : List UInt8}
    (crossed : sender.remoteX25519Pub = receiver.localX25519Pub)
    (agreed : sender.pqShared = receiver.pqShared)
    (passed :
      checkReplay receiver.remoteSeqHigh
        receiver.remoteSeqWindow sender.localSeq = .ok ())
    (encrypted : (sender.encrypt sentAt plaintext).1 = .ok wire) :
    (receiver.decrypt receivedAt wire).1 = .ok plaintext := by
  rcases sealed_of_encrypt fixed encrypted with ⟨rawCt, outcome, rfl⟩
  have parsed :=
    parsePacket_packetBytes sender.localX25519Pub
      sender.localSeq (correct.tagged outcome)
  have opened := correct.opens outcome
  rw [packetKey_eq commutes crossed agreed, ← dhShared_fst fixed] at opened
  rcases receiver.decrypt_of_opened receivedAt parsed passed
      (openPayload_of_primary opened) with
    ⟨_, high, window, _, decrypted⟩
  rw [decrypted]

theorem exists_encrypted (fixed : P.DhFixed) (seals : P.AeadSealsShort)
    (session : SessionInfo P) (now : Instant)
    (short : plaintext.length < 2 ^ 32) :
    ∃ wire, (session.encrypt now plaintext).1 = .ok wire := by
  have sealable :=
    seals session.packetKey (packetNonce session.localSeq)
      session.localX25519Pub plaintext short
  rcases Option.isSome_iff_exists.mp sealable with ⟨rawCt, wrapped⟩
  rcases encrypt_of_sealed fixed session now wrapped with ⟨cache, encrypted⟩
  exact ⟨_, by rw [encrypted]⟩

theorem exists_delivered (commutes : P.DhCommutes) (fixed : P.DhFixed)
    (correct : P.AeadCorrect) (seals : P.AeadSealsShort)
    (crossed : sender.remoteX25519Pub = receiver.localX25519Pub)
    (agreed : sender.pqShared = receiver.pqShared)
    (passed :
      checkReplay receiver.remoteSeqHigh
        receiver.remoteSeqWindow sender.localSeq = .ok ())
    (sentAt receivedAt : Instant) (short : plaintext.length < 2 ^ 32) :
    ∃ wire, (sender.encrypt sentAt plaintext).1 = .ok wire ∧
      (receiver.decrypt receivedAt wire).1 = .ok plaintext := by
  rcases exists_encrypted fixed seals sender sentAt short with ⟨wire, encrypted⟩
  exact ⟨wire, encrypted, decrypt_encrypt commutes fixed correct crossed agreed
    passed encrypted⟩

theorem checkReplay_fresh (seq : UInt64) : checkReplay 0 0 seq = .ok () := by
  rw [checkReplay_ok_iff]
  refine ⟨?_, ?_⟩
  · simp
  · intro _
    simp

end Honest

theorem sampleManager_expectsInit (sender receiver : UInt8)
    (env : Surroundings Primitives.transparent)
    (clock : env.nowMs = 1000) :
    ExpectsInit (sampleManager receiver) (sampleManager sender) env
      1000 := by
  refine .of_unused rfl rfl _ ?_
  rw [clock]
  decide

/-- The Init a sample node sends to another one. -/
def sampleInit (sender receiver : UInt8) : SessionInit :=
  (sampleManager sender).initFor (sampleManager receiver).ourPub
    (Bytes.replicate 32 10) 1000

/-- The session a sample node creates for the sender of an Init. -/
def sampleSession (sender : UInt8) : SessionInfo Primitives.transparent :=
  { SessionInfo.new (P := Primitives.transparent)
      (Bytes.replicate 32 sender) (Bytes.replicate 32 20)
      (Bytes.replicate 32 10) 5 with
    established := true
    pqShared := some (Bytes.replicate 32 21) }

/--
A sample node that has handled the Init of another one has created a session
for it and expects further Inits.
-/
theorem sampleInit_handled (sender receiver : UInt8) :
    ∃ after reply,
      (sampleManager receiver).handleInit (sampleSurroundings 20 21)
          (sampleInit sender receiver).encode = (.ok reply, after) ∧
        after.sessions.peek (sampleInit sender receiver).edPub =
          some (sampleSession sender) ∧
        after.ourPub = (sampleManager receiver).ourPub ∧
        ∀ env : Surroundings Primitives.transparent, env.nowMs = 1000 →
          ExpectsInit after (sampleManager sender) env 1000 := by
  rcases (sampleManager_expectsInit sender receiver (sampleSurroundings 20 21)
    rfl).admits
      Primitives.transparent_signaturesVerify
      Primitives.transparent_kemCorrect (Bytes.replicate 32 10) with
    ⟨log, pins, admits, ⟨room, few⟩, agree⟩
  refine ⟨_, _,
    SessionManager.handleInit_of_admits
      (HandshakeMessage.decode_encode (sampleInit sender receiver)) admits,
    (sampleManager receiver).peek_sessionsAfterInit_self _ _, rfl, ?_⟩
  intro env clock
  refine ⟨Or.inl room, lt_of_le_of_lt few (show 0 + 1 < 4 by omega), ?_, agree⟩
  rw [clock]
  decide

end Norn.Session
