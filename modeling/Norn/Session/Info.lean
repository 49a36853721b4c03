import Norn.Primitives
import Norn.Foundation.SlidingWindow

/-!
# Per-session state

`SessionInfo` of `session.rs`: the X25519 ratchet, the packet cipher, the
64-slot anti-replay window and the memoised Diffie-Hellman secret.

Every function takes the values the code draws from its surroundings (the
monotonic clock, fresh private keys) as arguments.  A mutating method returns
its result together with the state it leaves behind, also when it fails.
Machine arithmetic follows the release build: `local_seq` wraps, and every
operation that could abort is checked.
-/

namespace Norn.Session

open Foundation

/-- A reading of the monotonic clock, in nanoseconds since its origin. -/
abbrev Instant := Nat

/-- The errors of `SessionInfo::encrypt` and `SessionInfo::decrypt`. -/
inductive SessionError where
  | ciphertextTooShort (length : Nat)
  | replayTooOld (seq high : UInt64)
  | replayAlreadySeen (seq : UInt64)
  | aeadFailedBoth
  | aeadFailed
  | encryptError
  | panicked (reason : Panic)
  deriving DecidableEq, Repr

/-- `derive_packet_key`: mix the X25519 secret with the ML-KEM secret. -/
def derivePacketKey (P : Primitives)
    (x25519Shared : Bytes 32) (pqShared : Option (Bytes 32)) : Bytes 32 :=
  P.hkdfSha256 (pqShared.map Bytes.toList) x25519Shared.toList
    (asciiBytes "norn:session-key:v3")

/-- The 12-byte nonce of a packet: its sequence number, then zeros. -/
def packetNonce (seq : UInt64) : Bytes 12 :=
  ⟨(u64ToLe seq).toList ++ List.replicate 4 0, by simp⟩

theorem packetNonce_injective : Function.Injective packetNonce := by
  intro left right equal
  have lists := congrArg Bytes.toList equal
  have words := (List.append_inj lists (by simp)).1
  exact u64ToLe_injective (Bytes.ext words)

/-! ## The session record -/

/--
A memoised X25519 secret.  The two fingerprints name the public keys it was
derived from; `derived` records that some private key with the local
fingerprint computed it.
-/
structure CachedDh (P : Primitives) where
  localFp : Bytes 32
  remoteFp : Bytes 32
  shared : Bytes 32
  derived :
    ∃ secret : P.StaticSecret,
      P.x25519Public secret = localFp ∧ shared = P.diffieHellman secret remoteFp

/--
`SessionInfo`.  The local public key is the public half of the local private
key in every value of this type.
-/
structure SessionInfo (P : Primitives) where
  remoteEdPub : Bytes 32
  localX25519Priv : P.StaticSecret
  localX25519Pub : Bytes 32
  publicHalf : localX25519Pub = P.x25519Public localX25519Priv
  remoteX25519Pub : Bytes 32
  localSeq : UInt64
  remoteSeqHigh : UInt64
  remoteSeqWindow : UInt64
  established : Bool
  lastUsed : Instant
  lastInitSent : Instant
  initRetxCount : UInt32
  pqShared : Option (Bytes 32)
  pqSharedFallback : Option (Bytes 32)
  cachedDh : Option (CachedDh P)

namespace SessionInfo

variable {P : Primitives}

variable {plaintext rawCt : List UInt8}

/-- `SessionInfo::new`. -/
def new (remoteEdPub : Bytes 32) (localX25519Priv : P.StaticSecret)
    (remoteX25519Pub : Bytes 32) (now : Instant) : SessionInfo P where
  remoteEdPub := remoteEdPub
  localX25519Priv := localX25519Priv
  localX25519Pub := P.x25519Public localX25519Priv
  publicHalf := rfl
  remoteX25519Pub := remoteX25519Pub
  localSeq := 0
  remoteSeqHigh := 0
  remoteSeqWindow := 0
  established := false
  lastUsed := now
  lastInitSent := now
  initRetxCount := 0
  pqShared := none
  pqSharedFallback := none
  cachedDh := none

/-- `SessionInfo::compute_key`. -/
def computeKey (localPriv : P.StaticSecret) (remotePub : Bytes 32) :
    Bytes 32 :=
  P.diffieHellman localPriv remotePub

/-- `SessionInfo::dh_shared`: the memoised X25519 secret. -/
def dhShared (self : SessionInfo P) (remote : Bytes 32) :
    Bytes 32 × SessionInfo P :=
  let hit := self.cachedDh.filter fun entry =>
    decide (entry.localFp = self.localX25519Pub) &&
      decide (entry.remoteFp = remote)
  match hit with
  | some entry => (entry.shared, self)
  | none =>
    let shared := computeKey self.localX25519Priv remote
    (shared,
      { self with
        cachedDh := some
          { localFp := self.localX25519Pub
            remoteFp := remote
            shared := shared
            derived := ⟨self.localX25519Priv, self.publicHalf.symm, rfl⟩ } })

/-- `SessionInfo::encrypt`. -/
def encrypt (self : SessionInfo P) (now : Instant) (plaintext : List UInt8) :
    Except SessionError (List UInt8) × SessionInfo P :=
  let senderXPub := self.localX25519Pub
  let (x25519Shared, self) := self.dhShared self.remoteX25519Pub
  let key := derivePacketKey P x25519Shared self.pqShared
  let nonce := packetNonce self.localSeq
  match P.aeadSeal key nonce senderXPub plaintext with
  | none => (.error .encryptError, self)
  | some buf =>
    (.ok (senderXPub.toList ++ ((u64ToLe self.localSeq).toList ++ buf)),
      { self with localSeq := self.localSeq + 1, lastUsed := now })

/-- `SessionInfo::rotate_local_key`, drawing `newPriv`. -/
def rotateLocalKey (self : SessionInfo P) (newPriv : P.StaticSecret) :
    SessionInfo P :=
  { self with
    localX25519Priv := newPriv
    localX25519Pub := P.x25519Public newPriv
    publicHalf := rfl }

/-- `WINDOW` of `SessionInfo::decrypt`. -/
def replayWindow : UInt64 := 64

/-- The replay check of `SessionInfo::decrypt`. -/
def checkReplay (remoteSeqHigh remoteSeqWindow seq : UInt64) :
    Except SessionError Unit := do
  if replayWindow ≤ saturatingSub remoteSeqHigh seq then
    throw (.replayTooOld seq remoteSeqHigh)
  if seq ≤ remoteSeqHigh then
    let offset ← (checkedSub remoteSeqHigh seq).mapError .panicked
    let bit ← (checkedShl 1 offset).mapError .panicked
    if remoteSeqWindow &&& bit ≠ 0 then
      throw (.replayAlreadySeen seq)

/-- The window update of `SessionInfo::decrypt`: new high and new mask. -/
def advanceWindow (remoteSeqHigh remoteSeqWindow seq : UInt64) :
    Except SessionError (UInt64 × UInt64) := do
  if remoteSeqHigh < seq then
    let shift ← (checkedSub seq remoteSeqHigh).mapError .panicked
    if replayWindow ≤ shift then
      return (seq, 1)
    else
      let shifted ← (checkedShl remoteSeqWindow shift).mapError .panicked
      return (seq, shifted ||| 1)
  else
    let offset ← (checkedSub remoteSeqHigh seq).mapError .panicked
    let bit ← (checkedShl 1 offset).mapError .panicked
    return (remoteSeqHigh, remoteSeqWindow ||| bit)

/-- The fields of a packet: sender key, sequence number, sealed bytes. -/
structure Packet where
  senderXPub : Bytes 32
  seq : UInt64
  rawCt : List UInt8

/-- Split a ciphertext into its fields. -/
def parsePacket (ciphertext : List UInt8) : Except SessionError Packet := do
  if ciphertext.length < 32 + 8 + 16 then
    throw (.ciphertextTooShort ciphertext.length)
  let senderXPub ← (Bytes.sliceAt ciphertext 0 32).mapError .panicked
  let seqBytes ← (Bytes.sliceAt ciphertext 32 8).mapError .panicked
  return ⟨senderXPub, u64FromLe seqBytes, ciphertext.drop 40⟩

/--
Open the sealed bytes, first with the primary and then with the fallback
post-quantum secret.  Returns the plaintext and the secret that is primary
from now on; the fallback slot is emptied in both cases.
-/
def openPayload (P : Primitives) (pqShared pqSharedFallback : Option (Bytes 32))
    (x25519Shared : Bytes 32) (packet : Packet) :
    Except SessionError (List UInt8 × Option (Bytes 32)) :=
  let nonce := packetNonce packet.seq
  let primaryKey := derivePacketKey P x25519Shared pqShared
  match P.aeadOpen primaryKey nonce packet.senderXPub packet.rawCt with
  | some buf => .ok (buf, pqShared)
  | none =>
    match pqSharedFallback with
    | none => .error .aeadFailed
    | some fallback =>
      let fallbackKey := derivePacketKey P x25519Shared (some fallback)
      match P.aeadOpen fallbackKey nonce packet.senderXPub packet.rawCt with
      | some buf => .ok (buf, some fallback)
      | none => .error .aeadFailedBoth

/-- The session after a packet has been opened and its number recorded. -/
def acceptPacket (self : SessionInfo P) (now : Instant)
    (pqShared : Option (Bytes 32)) (senderXPub : Bytes 32)
    (high window : UInt64) : SessionInfo P :=
  { self with
    pqShared := pqShared
    pqSharedFallback := none
    remoteSeqHigh := high
    remoteSeqWindow := window
    remoteX25519Pub := senderXPub
    lastUsed := now }

/-- `SessionInfo::decrypt`. -/
def decrypt (self : SessionInfo P) (now : Instant) (ciphertext : List UInt8) :
    Except SessionError (List UInt8) × SessionInfo P :=
  match parsePacket ciphertext with
  | .error failure => (.error failure, self)
  | .ok packet =>
    let (x25519Shared, self) := self.dhShared packet.senderXPub
    match checkReplay self.remoteSeqHigh self.remoteSeqWindow packet.seq with
    | .error failure => (.error failure, self)
    | .ok () =>
      match openPayload P self.pqShared self.pqSharedFallback
          x25519Shared packet with
      | .error failure => (.error failure, self)
      | .ok (buf, pqShared) =>
        match advanceWindow self.remoteSeqHigh self.remoteSeqWindow
            packet.seq with
        | .error failure => (.error failure, self)
        | .ok (high, window) =>
          (.ok buf,
            self.acceptPacket now pqShared packet.senderXPub high window)

/-! ## What the operations compute -/

theorem dhShared_snd (self : SessionInfo P) (remote : Bytes 32) :
    ∃ cache, (self.dhShared remote).2 = { self with cachedDh := cache } := by
  unfold dhShared
  cases self.cachedDh.filter _ with
  | none => exact ⟨_, rfl⟩
  | some entry => exact ⟨self.cachedDh, rfl⟩

theorem dhShared_fst (fixed : P.DhFixed) (self : SessionInfo P)
    (remote : Bytes 32) :
    (self.dhShared remote).1 = P.diffieHellman self.localX25519Priv remote := by
  unfold dhShared
  cases hit : self.cachedDh.filter _ with
  | none => rfl
  | some entry =>
    rw [Option.filter_eq_some_iff] at hit
    obtain ⟨_, matching⟩ := hit
    simp only [Bool.and_eq_true, decide_eq_true_eq] at matching
    obtain ⟨localSame, remoteSame⟩ := matching
    obtain ⟨secret, fingerprint, computed⟩ := entry.derived
    have sameKey :
        P.x25519Public secret = P.x25519Public self.localX25519Priv := by
      rw [fingerprint, localSame, self.publicHalf]
    change entry.shared = _
    rw [computed, fixed sameKey, remoteSame]

/-- The AEAD key under which the session currently encrypts. -/
def packetKey (self : SessionInfo P) : Bytes 32 :=
  derivePacketKey P (P.diffieHellman self.localX25519Priv self.remoteX25519Pub)
    self.pqShared

/-- The wire form of a packet. -/
def packetBytes (senderXPub : Bytes 32) (seq : UInt64)
    (rawCt : List UInt8) : List UInt8 :=
  senderXPub.toList ++ ((u64ToLe seq).toList ++ rawCt)

theorem encrypt_of_sealed (fixed : P.DhFixed) (self : SessionInfo P)
    (now : Instant)
    (sealedAs :
      P.aeadSeal self.packetKey (packetNonce self.localSeq)
        self.localX25519Pub plaintext = some rawCt) :
    ∃ cache,
      self.encrypt now plaintext =
        (.ok (packetBytes self.localX25519Pub self.localSeq rawCt),
          { self with
            cachedDh := cache
            localSeq := self.localSeq + 1
            lastUsed := now }) := by
  obtain ⟨cache, frame⟩ := self.dhShared_snd self.remoteX25519Pub
  have shared := dhShared_fst fixed self self.remoteX25519Pub
  refine ⟨cache, ?_⟩
  unfold encrypt
  simp only [frame, shared]
  unfold packetKey at sealedAs
  rw [sealedAs]
  rfl

theorem encrypt_of_refused (fixed : P.DhFixed) (self : SessionInfo P)
    (now : Instant)
    (refused :
      P.aeadSeal self.packetKey (packetNonce self.localSeq) self.localX25519Pub
        plaintext = none) :
    ∃ cache,
      self.encrypt now plaintext =
        (.error .encryptError, { self with cachedDh := cache }) := by
  obtain ⟨cache, frame⟩ := self.dhShared_snd self.remoteX25519Pub
  have shared := dhShared_fst fixed self self.remoteX25519Pub
  refine ⟨cache, ?_⟩
  unfold encrypt
  simp only [frame, shared]
  unfold packetKey at refused
  rw [refused]

theorem sealed_of_encrypt (fixed : P.DhFixed) {self : SessionInfo P}
    {now : Instant} {wire : List UInt8}
    (encrypted : (self.encrypt now plaintext).1 = .ok wire) :
    ∃ rawCt,
      P.aeadSeal self.packetKey (packetNonce self.localSeq)
          self.localX25519Pub plaintext = some rawCt ∧
        packetBytes self.localX25519Pub self.localSeq rawCt = wire := by
  cases outcome :
      P.aeadSeal self.packetKey (packetNonce self.localSeq) self.localX25519Pub
        plaintext with
  | none =>
    rcases encrypt_of_refused fixed self now outcome with ⟨cache, refused⟩
    rw [refused] at encrypted
    cases encrypted
  | some rawCt =>
    rcases encrypt_of_sealed fixed self now outcome with ⟨cache, result⟩
    rw [result] at encrypted
    exact ⟨rawCt, rfl, Except.ok.inj encrypted⟩

theorem encrypt_snd (self : SessionInfo P) (now : Instant)
    (plaintext : List UInt8) :
    ∃ cache seq used,
      (self.encrypt now plaintext).2 =
        { self with
          cachedDh := cache
          localSeq := seq
          lastUsed := used } := by
  obtain ⟨cache, frame⟩ := self.dhShared_snd self.remoteX25519Pub
  unfold encrypt
  simp only [frame]
  cases P.aeadSeal _ _ _ _ with
  | none => exact ⟨cache, self.localSeq, self.lastUsed, rfl⟩
  | some rawCt => exact ⟨cache, self.localSeq + 1, now, rfl⟩

theorem parsePacket_packetBytes (senderXPub : Bytes 32) (seq : UInt64)
    (tagged : 16 ≤ rawCt.length) :
    parsePacket (packetBytes senderXPub seq rawCt) =
      .ok ⟨senderXPub, seq, rawCt⟩ := by
  have long : ¬ (packetBytes senderXPub seq rawCt).length < 32 + 8 + 16 := by
    simp only [packetBytes, List.length_append, Bytes.length_toList]
    omega
  have sender :
      Bytes.sliceAt (packetBytes senderXPub seq rawCt) 0 32 = .ok senderXPub :=
    Bytes.sliceAt_append [] senderXPub _ rfl
  have counter :
      Bytes.sliceAt (packetBytes senderXPub seq rawCt) 32 8 =
        .ok (u64ToLe seq) :=
    Bytes.sliceAt_append senderXPub.toList (u64ToLe seq) rawCt (by simp)
  have body : (packetBytes senderXPub seq rawCt).drop 40 = rawCt := by
    have front :
        packetBytes senderXPub seq rawCt =
          (senderXPub.toList ++ (u64ToLe seq).toList) ++ rawCt := by
      simp [packetBytes]
    rw [front, List.drop_left' (by simp)]
  simp only [parsePacket, if_neg long, sender, counter, body]
  simp

theorem eq_of_parsePacket_packetBytes {senderXPub : Bytes 32} {seq : UInt64}
    {packet : Packet}
    (parsed : parsePacket (packetBytes senderXPub seq rawCt) = .ok packet) :
    packet = ⟨senderXPub, seq, rawCt⟩ := by
  by_cases tagged : 16 ≤ rawCt.length
  · rw [parsePacket_packetBytes senderXPub seq tagged] at parsed
    cases parsed
    rfl
  · have short : (packetBytes senderXPub seq rawCt).length < 32 + 8 + 16 := by
      simp only [packetBytes, List.length_append, Bytes.length_toList]
      omega
    simp [parsePacket, short] at parsed

theorem parsePacket_of_length {ciphertext : List UInt8}
    (long : 32 + 8 + 16 ≤ ciphertext.length) :
    ∃ packet, parsePacket ciphertext = .ok packet := by
  have notShort : ¬ ciphertext.length < 32 + 8 + 16 := by omega
  obtain ⟨sender, senderRead, _⟩ :=
    Bytes.sliceAt_of_le (show 0 + 32 ≤ ciphertext.length by omega)
  obtain ⟨counter, counterRead, _⟩ :=
    Bytes.sliceAt_of_le (show 32 + 8 ≤ ciphertext.length by omega)
  refine ⟨⟨sender, u64FromLe counter, ciphertext.drop 40⟩, ?_⟩
  simp only [parsePacket, if_neg notShort, senderRead, counterRead]
  simp

end SessionInfo

end Norn.Session
