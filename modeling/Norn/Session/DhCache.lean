import Norn.Session.Honest

/-!
# The memoised secret

A session keeps the last X25519 secret it has computed, with the two public
keys it was computed from.  The cache is never emptied: a rotation of the own
key and a new key of the peer leave it as it is, and the next call compares
the fingerprints.

What the calls on a session return is compared here with what they would
return if every call computed the secret anew.  The two agree over every
sequence of calls, and the sessions differ in nothing but the cache.
-/

namespace Norn.Session

open Foundation Foundation.Run

/-- The calls that read or change the keys of a session. -/
inductive SessionOp (P : Primitives) where
  | encrypt (now : Instant) (plaintext : List UInt8)
  | decrypt (now : Instant) (ciphertext : List UInt8)
  | rotateLocalKey (newPriv : P.StaticSecret)
  | completeHandshake (remoteX25519Pub : Bytes 32) (adopt : Bool)
      (pqShared : Bytes 32) (fallback : Option (Bytes 32))

section DhCache

variable {P : Primitives}

/-- What a call returns, if anything, and the session it leaves behind. -/
def SessionOp.apply (session : SessionInfo P) :
    SessionOp P → Option (Except SessionError (List UInt8)) × SessionInfo P
  | .encrypt now plaintext =>
    (session.encrypt now plaintext).map some id
  | .decrypt now ciphertext =>
    (session.decrypt now ciphertext).map some id
  | .rotateLocalKey newPriv => (none, session.rotateLocalKey newPriv)
  | .completeHandshake remoteX25519Pub adopt pqShared fallback =>
    (none, session.completeHandshake remoteX25519Pub adopt pqShared fallback)

namespace SessionInfo

/-- `encrypt` without the cache. -/
def encryptAnew (self : SessionInfo P) (now : Instant)
    (plaintext : List UInt8) :
    Except SessionError (List UInt8) × SessionInfo P :=
  let x25519Shared := computeKey self.localX25519Priv self.remoteX25519Pub
  let key := derivePacketKey P x25519Shared self.pqShared
  match P.aeadSeal key (packetNonce self.localSeq) self.localX25519Pub
      plaintext with
  | none => (.error .encryptError, self)
  | some buf =>
    (.ok (packetBytes self.localX25519Pub self.localSeq buf),
      { self with localSeq := self.localSeq + 1, lastUsed := now })

/-- `decrypt` without the cache. -/
def decryptAnew (self : SessionInfo P) (now : Instant)
    (ciphertext : List UInt8) :
    Except SessionError (List UInt8) × SessionInfo P :=
  match parsePacket ciphertext with
  | .error failure => (.error failure, self)
  | .ok packet =>
    let x25519Shared := computeKey self.localX25519Priv packet.senderXPub
    match checkReplay self.remoteSeqHigh self.remoteSeqWindow packet.seq with
    | .error failure => (.error failure, self)
    | .ok () =>
      match openPayload P self.pqShared self.pqSharedFallback
          x25519Shared packet with
      | .error failure => (.error failure, self)
      | .ok (buf, pqShared) =>
        match advanceWindow self.remoteSeqHigh self.remoteSeqWindow
            packet.seq with
        | .error failure => (.error failure, self)
        | .ok (high, window) =>
          (.ok buf,
            self.acceptPacket now pqShared packet.senderXPub high window)

/-- The session with an empty cache. -/
def uncached (self : SessionInfo P) : SessionInfo P :=
  { self with cachedDh := none }

end SessionInfo

/-- A call that computes the secret anew. -/
def SessionOp.applyAnew (session : SessionInfo P) :
    SessionOp P → Option (Except SessionError (List UInt8)) × SessionInfo P
  | .encrypt now plaintext =>
    (session.encryptAnew now plaintext).map some id
  | .decrypt now ciphertext =>
    (session.decryptAnew now ciphertext).map some id
  | .rotateLocalKey newPriv => (none, session.rotateLocalKey newPriv)
  | .completeHandshake remoteX25519Pub adopt pqShared fallback =>
    (none, session.completeHandshake remoteX25519Pub adopt pqShared fallback)

/-! ## One call -/

/-- Two outcomes are equal but for the cache of the session. -/
def AgreeButCache {Result : Type}
    (left right : Result × SessionInfo P) : Prop :=
  left.1 = right.1 ∧ left.2.uncached = right.2.uncached

namespace SessionInfo

theorem encrypt_agrees (fixed : P.DhFixed)
    (self : SessionInfo P) (now : Instant) (plaintext : List UInt8) :
    AgreeButCache (self.encrypt now plaintext)
      (self.encryptAnew now plaintext) := by
  unfold encryptAnew
  cases sealedAs :
      P.aeadSeal self.packetKey (packetNonce self.localSeq) self.localX25519Pub
        plaintext with
  | none =>
    rcases encrypt_of_refused fixed self now sealedAs with ⟨cache, refused⟩
    unfold packetKey at sealedAs
    simp only [computeKey, sealedAs, refused]
    exact ⟨rfl, rfl⟩
  | some buf =>
    rcases encrypt_of_sealed fixed self now sealedAs with ⟨cache, returned⟩
    unfold packetKey at sealedAs
    simp only [computeKey, sealedAs, returned]
    exact ⟨rfl, rfl⟩

theorem decrypt_agrees (fixed : P.DhFixed)
    (self : SessionInfo P) (now : Instant) (ciphertext : List UInt8) :
    AgreeButCache (self.decrypt now ciphertext)
      (self.decryptAnew now ciphertext) := by
  unfold decrypt decryptAnew
  cases parsePacket ciphertext with
  | error failure =>
    exact ⟨rfl, rfl⟩
  | ok packet =>
    rcases self.dhShared_snd packet.senderXPub with ⟨cache, frame⟩
    simp only [frame, dhShared_fst fixed, computeKey]
    cases checkReplay self.remoteSeqHigh self.remoteSeqWindow packet.seq with
    | error failure =>
      exact ⟨rfl, rfl⟩
    | ok passed =>
      cases openPayload P self.pqShared self.pqSharedFallback
          (P.diffieHellman self.localX25519Priv packet.senderXPub)
          packet with
      | error failure =>
        exact ⟨rfl, rfl⟩
      | ok opened =>
        cases advanceWindow self.remoteSeqHigh self.remoteSeqWindow
          packet.seq with
        | error failure =>
          exact ⟨rfl, rfl⟩
        | ok advanced =>
          exact ⟨rfl, rfl⟩

end SessionInfo

theorem apply_agrees (fixed : P.DhFixed)
    (session : SessionInfo P) (op : SessionOp P) :
    AgreeButCache (op.apply session) (op.applyAnew session) := by
  cases op with
  | encrypt now plaintext =>
    rcases session.encrypt_agrees fixed now plaintext with ⟨result, left⟩
    exact ⟨congrArg some result, left⟩
  | decrypt now ciphertext =>
    rcases session.decrypt_agrees fixed now ciphertext with ⟨result, left⟩
    exact ⟨congrArg some result, left⟩
  | rotateLocalKey newPriv =>
    exact ⟨rfl, rfl⟩
  | completeHandshake remoteX25519Pub adopt pqShared fallback =>
    exact ⟨rfl, rfl⟩

theorem applyAnew_uncached (session : SessionInfo P) (op : SessionOp P) :
    AgreeButCache (op.applyAnew session) (op.applyAnew session.uncached) := by
  cases op with
  | encrypt now plaintext =>
    simp only [SessionOp.applyAnew, SessionInfo.encryptAnew,
      SessionInfo.uncached]
    cases P.aeadSeal _ _ _ plaintext with
    | none =>
      exact ⟨rfl, rfl⟩
    | some buf =>
      exact ⟨rfl, rfl⟩
  | decrypt now ciphertext =>
    simp only [SessionOp.applyAnew, SessionInfo.decryptAnew,
      SessionInfo.uncached]
    cases SessionInfo.parsePacket ciphertext with
    | error failure =>
      exact ⟨rfl, rfl⟩
    | ok packet =>
      simp only
      cases SessionInfo.checkReplay session.remoteSeqHigh
        session.remoteSeqWindow packet.seq with
      | error failure =>
        exact ⟨rfl, rfl⟩
      | ok passed =>
        cases SessionInfo.openPayload P session.pqShared
          session.pqSharedFallback
            (SessionInfo.computeKey session.localX25519Priv packet.senderXPub)
              packet with
        | error failure =>
          exact ⟨rfl, rfl⟩
        | ok opened =>
          cases SessionInfo.advanceWindow session.remoteSeqHigh
              session.remoteSeqWindow packet.seq with
          | error failure =>
            exact ⟨rfl, rfl⟩
          | ok advanced =>
            exact ⟨rfl, rfl⟩
  | rotateLocalKey newPriv =>
    exact ⟨rfl, rfl⟩
  | completeHandshake remoteX25519Pub adopt pqShared fallback =>
    exact ⟨rfl, rfl⟩

theorem apply_agrees_of_uncached (fixed : P.DhFixed)
    {session other : SessionInfo P}
    (same : session.uncached = other.uncached) (op : SessionOp P) :
    AgreeButCache (op.apply session) (op.applyAnew other) := by
  have first := apply_agrees fixed session op
  have second := applyAnew_uncached session op
  have third := applyAnew_uncached other op
  rw [same] at second
  exact
    ⟨first.1.trans (second.1.trans third.1.symm), first.2.trans
      (second.2.trans third.2.symm)⟩

/-- A session and what its calls have returned, the last one first. -/
structure Served (P : Primitives) where
  session : SessionInfo P
  results : List (Option (Except SessionError (List UInt8)))

/-- A call by the given rules. -/
def Served.call
    (rules :
      SessionInfo P → SessionOp P →
        Option (Except SessionError (List UInt8)) × SessionInfo P)
    (state : Served P) (op : SessionOp P) : Served P where
  session := (rules state.session op).2
  results := (rules state.session op).1 :: state.results

/--
A decryption that fails leaves everything but the cache as it was.  Over
every sequence of calls a session returns what it would return if every call
computed the secret anew, and is left in the same state but for the cache.
-/
theorem decrypt_atomic_and_cache_transparent (fixed : P.DhFixed) :
    (∀ (session : SessionInfo P) (now : Instant)
        (ciphertext : List UInt8) (failure : SessionError),
      (session.decrypt now ciphertext).1 = .error failure →
        ∃ cache,
          (session.decrypt now ciphertext).2 =
            { session with cachedDh := cache }) ∧
      ∀ (session : SessionInfo P) (ops : List (SessionOp P)),
        let cached := run (Served.call SessionOp.apply) ⟨session, []⟩ ops
        let anew := run (Served.call SessionOp.applyAnew) ⟨session, []⟩ ops
        cached.results = anew.results ∧
          cached.session.uncached = anew.session.uncached := by
  constructor
  · intro session now ciphertext failure fails
    rcases session.decrypt_cases now ciphertext with
      ⟨_, cache, refused, _⟩ | ⟨_, _, _, _, _, accepts⟩
    · rw [refused]
      exact ⟨cache, rfl⟩
    · rcases accepts.result with ⟨cache, accepted⟩
      rw [accepted] at fails
      cases fails
  · intro session ops
    have simulates :
        ∀ (state other : Served P) (op : SessionOp P),
          state.results = other.results ∧
              state.session.uncached = other.session.uncached →
            (state.call SessionOp.apply op).results =
                (other.call SessionOp.applyAnew op).results ∧
              (state.call SessionOp.apply op).session.uncached =
                (other.call SessionOp.applyAnew op).session.uncached := by
      rintro state other op ⟨results, same⟩
      rcases apply_agrees_of_uncached fixed same op with ⟨result, left⟩
      exact ⟨congrArg₂ List.cons result results, left⟩
    exact simulation_run simulates ops ⟨rfl, rfl⟩

end DhCache

/-- A packet, a rotation, a handshake with a new key, and two more packets. -/
def rotatingOps : List (SessionOp Primitives.transparent) :=
  [.encrypt 1 [1, 2], .rotateLocalKey (Bytes.replicate 32 30),
    .encrypt 2 [3], .completeHandshake (Bytes.replicate 32 31) false
      (Bytes.replicate 32 0) none,
    .encrypt 3 [4], .decrypt 4 [5, 6]]

/-- Calls across a key rotation get the answers they get without the cache. -/
theorem rotatingOps_transparent :
    (run (Served.call SessionOp.apply) ⟨sampleSession 1, []⟩
        rotatingOps).results =
      (run (Served.call SessionOp.applyAnew) ⟨sampleSession 1, []⟩
        rotatingOps).results :=
  ((decrypt_atomic_and_cache_transparent
      Primitives.transparent_dhFixed).2 (sampleSession 1)
    rotatingOps).1

end Norn.Session
