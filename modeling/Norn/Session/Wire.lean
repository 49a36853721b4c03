import Norn.Session.Info

/-!
# Handshake messages

`SessionInit` and `SessionAck` of `session.rs`.  The two messages have the
same fields and the same functions; they differ in the magic byte, in the
width of the ML-KEM field (an encapsulation key in an Init, a ciphertext in an
Ack) and in the name their errors carry.  `HandshakeKind` collects what
differs, and each function is written once over it.
-/

namespace Norn.Session

open Foundation

/-! ## Constants -/

/-- `ML_KEM_PUB_BYTES`. -/
abbrev mlKemPubBytes : Nat := 1184

/-- `ML_KEM_CT_BYTES`. -/
abbrev mlKemCtBytes : Nat := 1088

/-- `ML_DSA_PUB_BYTES`. -/
abbrev mlDsaPubBytes : Nat := 1952

/-- `ML_DSA_SIG_BYTES`. -/
abbrev mlDsaSigBytes : Nat := 3309

/-- `HANDSHAKE_TIME_WINDOW_MS`. -/
def handshakeTimeWindowMs : UInt64 := 5 * 60 * 1000

/-- The two handshake messages. -/
inductive HandshakeKind where
  | init
  | ack
  deriving DecidableEq, Repr

/-- `SESSION_INIT_MAGIC` and `SESSION_ACK_MAGIC`. -/
def HandshakeKind.magic : HandshakeKind → UInt8
  | .init => 0x74
  | .ack => 0x62

/-- The width of the ML-KEM field. -/
abbrev HandshakeKind.kemBytes : HandshakeKind → Nat
  | .init => mlKemPubBytes
  | .ack => mlKemCtBytes

/-- `SESSION_INIT_WIRE_BYTES` and `SESSION_ACK_WIRE_BYTES`. -/
def HandshakeKind.wireBytes (kind : HandshakeKind) : Nat :=
  1 + 32 + 64 + 32 + 8 + 32 + kind.kemBytes + mlDsaPubBytes + mlDsaSigBytes + 16

/-- The errors of the handshake and of the session manager. -/
inductive HandshakeError where
  | invalidMagic (kind : HandshakeKind)
  | tooShort (kind : HandshakeKind) (length : Nat)
  | notAddressedToUs (kind : HandshakeKind)
  | timestampOutside (kind : HandshakeKind) (skew : UInt64)
  | invalidVerifyingKey
  | invalidSignature
  | rateLimited (source : Bytes 32)
  | pinViolation (edPub : Bytes 32)
  | invalidMlDsaSignature (edPub : Bytes 32)
  | invalidEncapsulationKey
  | unsolicitedAck (edPub : Bytes 32)
  | noSession
  | notEstablished
  | session (failure : SessionError)
  | panicked (reason : Panic)
  deriving DecidableEq

/-! ## The messages -/

/-- The fields of a handshake message, in wire order. -/
structure HandshakeMessage (kind : HandshakeKind) where
  edPub : Bytes 32
  signature : Bytes 64
  x25519Pub : Bytes 32
  timestampMs : UInt64
  recipientEdPub : Bytes 32
  mlKem : Bytes kind.kemBytes
  mlDsaPub : Bytes mlDsaPubBytes
  mlDsaSig : Bytes mlDsaSigBytes
  senderCoord : Bytes 16
  deriving DecidableEq

/-- `SessionInit`; its `mlKem` field is `ml_kem_pub`. -/
abbrev SessionInit := HandshakeMessage .init

/-- `SessionAck`; its `mlKem` field is `ml_kem_ct`. -/
abbrev SessionAck := HandshakeMessage .ack

/-- `PqSigner`: the ML-DSA identity of a node. -/
structure PqSigner (P : Primitives) where
  sk : P.MlDsaKey
  pubBytes : Bytes mlDsaPubBytes
  publicHalf : pubBytes = P.mlDsaPublic sk

/-- `PqSigner::from_seed`, for the key the seed expands to. -/
def PqSigner.ofKey {P : Primitives} (sk : P.MlDsaKey) : PqSigner P :=
  ⟨sk, P.mlDsaPublic sk, rfl⟩

/-- `pq_sign::verify`. -/
def pqVerify (P : Primitives) (pubBytes : Bytes mlDsaPubBytes)
    (message : List UInt8) (signature : Bytes mlDsaSigBytes) : Bool :=
  match P.mlDsaDecodeSignature signature with
  | none => false
  | some decoded => P.mlDsaVerifies pubBytes message decoded

/-- `build_init_sign_bytes` and `build_ack_sign_bytes`. -/
def buildSignBytes (kind : HandshakeKind) (edPub x25519Pub : Bytes 32)
    (timestampMs : UInt64) (recipientEdPub : Bytes 32)
    (mlKem : Bytes kind.kemBytes) (mlDsaPub : Bytes mlDsaPubBytes) :
    List UInt8 :=
  kind.magic :: (edPub.toList ++ (x25519Pub.toList ++
    ((u64ToLe timestampMs).toList ++ (recipientEdPub.toList ++
      (mlKem.toList ++ mlDsaPub.toList)))))

/-- The skew of two wall-clock readings, in 64-bit arithmetic. -/
def clockSkew (now timestamp : UInt64) : UInt64 :=
  UInt64.ofNat (now.toInt64 - timestamp.toInt64).toInt.natAbs

namespace HandshakeMessage

variable {kind : HandshakeKind}

/-- `SessionInit::signed_bytes` and `SessionAck::signed_bytes`. -/
def signedBytes (self : HandshakeMessage kind) : List UInt8 :=
  buildSignBytes kind self.edPub self.x25519Pub self.timestampMs
    self.recipientEdPub self.mlKem self.mlDsaPub

/-- `SessionInit::create` and `SessionAck::create`. -/
def create {P : Primitives} (signingKey : P.SigningKey)
    (x25519Pub recipientEdPub : Bytes 32) (mlKem : Bytes kind.kemBytes)
    (senderCoord : Bytes 16) (pqSigner : PqSigner P) (nowMs : UInt64) :
    HandshakeMessage kind :=
  let edPub := P.verifyingKey signingKey
  let signData :=
    buildSignBytes kind edPub x25519Pub nowMs recipientEdPub mlKem
      pqSigner.pubBytes
  { edPub := edPub
    signature := P.edSign signingKey signData
    x25519Pub := x25519Pub
    timestampMs := nowMs
    recipientEdPub := recipientEdPub
    mlKem := mlKem
    mlDsaPub := pqSigner.pubBytes
    mlDsaSig := P.mlDsaSign pqSigner.sk signData
    senderCoord := senderCoord }

/-- `SessionInit::encode` and `SessionAck::encode`. -/
def encode (self : HandshakeMessage kind) : List UInt8 :=
  kind.magic :: (self.edPub.toList ++ (self.signature.toList ++
    (self.x25519Pub.toList ++ ((u64ToLe self.timestampMs).toList ++
      (self.recipientEdPub.toList ++ (self.mlKem.toList ++
        (self.mlDsaPub.toList ++ (self.mlDsaSig.toList ++
          self.senderCoord.toList))))))))

/-- Read the fields that follow the magic byte, in wire order. -/
def readFields (kind : HandshakeKind) (data : List UInt8) :
    Except Panic (HandshakeMessage kind) := do
  let (edPub, data) ← Bytes.read 32 data
  let (signature, data) ← Bytes.read 64 data
  let (x25519Pub, data) ← Bytes.read 32 data
  let (timestampBytes, data) ← Bytes.read 8 data
  let (recipientEdPub, data) ← Bytes.read 32 data
  let (mlKem, data) ← Bytes.read kind.kemBytes data
  let (mlDsaPub, data) ← Bytes.read mlDsaPubBytes data
  let (mlDsaSig, data) ← Bytes.read mlDsaSigBytes data
  let (senderCoord, _) ← Bytes.read 16 data
  return {
    edPub, signature, x25519Pub
    timestampMs := u64FromLe timestampBytes
    recipientEdPub, mlKem, mlDsaPub, mlDsaSig, senderCoord }

/-- `SessionInit::decode` and `SessionAck::decode`. -/
def decode (kind : HandshakeKind) (data : List UInt8) :
    Except HandshakeError (HandshakeMessage kind) :=
  match data with
  | [] => .error (.invalidMagic kind)
  | magic :: body =>
    if magic ≠ kind.magic then
      .error (.invalidMagic kind)
    else if data.length < kind.wireBytes then
      .error (.tooShort kind data.length)
    else
      (readFields kind body).mapError .panicked

/-- `SessionInit::verify` and `SessionAck::verify`. -/
def verify (P : Primitives) (self : HandshakeMessage kind)
    (expectedRecipient : Bytes 32) (nowMs : UInt64) :
    Except HandshakeError Unit := do
  if self.recipientEdPub ≠ expectedRecipient then
    throw (.notAddressedToUs kind)
  let skew := clockSkew nowMs self.timestampMs
  if handshakeTimeWindowMs < skew then
    throw (.timestampOutside kind skew)
  if !P.isVerifyingKey self.edPub then
    throw .invalidVerifyingKey
  if !P.verifyStrict self.edPub self.signedBytes self.signature then
    throw .invalidSignature

theorem length_encode (self : HandshakeMessage kind) :
    self.encode.length = kind.wireBytes := by
  simp only [encode, HandshakeKind.wireBytes, List.length_cons,
    List.length_append, Bytes.length_toList]
  omega

theorem readFields_encode (self : HandshakeMessage kind) :
    ∃ body, self.encode = kind.magic :: body ∧
      readFields kind body = .ok self := by
  refine ⟨_, rfl, ?_⟩
  have last :
      Bytes.read 16 self.senderCoord.toList = .ok (self.senderCoord, []) := by
    have padded := Bytes.read_append self.senderCoord []
    rwa [List.append_nil] at padded
  simp only [readFields, Bytes.read_append, last, ok_bind, u64FromLe_u64ToLe,
    pure_eq_ok]

@[simp]
theorem decode_encode (self : HandshakeMessage kind) :
    decode kind self.encode = .ok self := by
  rcases self.readFields_encode with ⟨body, shape, fields⟩
  have long : ¬ (kind.magic :: body).length < kind.wireBytes := by
    rw [← shape, self.length_encode]
    exact lt_irrefl _
  rw [shape]
  simp only [decode, ne_eq, not_true_eq_false, if_false, if_neg long, fields,
    mapError_ok]

theorem verify_eq_ok_iff (P : Primitives) (self : HandshakeMessage kind)
    (expectedRecipient : Bytes 32) (nowMs : UInt64) :
    self.verify P expectedRecipient nowMs = .ok () ↔
      self.recipientEdPub = expectedRecipient ∧
        clockSkew nowMs self.timestampMs ≤ handshakeTimeWindowMs ∧
        P.isVerifyingKey self.edPub = true ∧
        P.verifyStrict self.edPub self.signedBytes self.signature =
          true := by
  unfold verify
  by_cases addressed : self.recipientEdPub = expectedRecipient
  · by_cases late : handshakeTimeWindowMs < clockSkew nowMs self.timestampMs
    · have outside := UInt64.not_le.mpr late
      simp [addressed, late, outside]
    · have inside := UInt64.not_lt.mp late
      cases key : P.isVerifyingKey self.edPub <;>
        cases signed :
          P.verifyStrict self.edPub self.signedBytes self.signature <;>
            simp [addressed, late, inside]
  · simp [addressed]

theorem verify_create {P : Primitives} (signatures : P.SignaturesVerify)
    (signingKey : P.SigningKey) (x25519Pub recipientEdPub : Bytes 32)
    (mlKem : Bytes kind.kemBytes) (senderCoord : Bytes 16)
    (pqSigner : PqSigner P) {stampMs nowMs : UInt64}
    (inside : clockSkew nowMs stampMs ≤ handshakeTimeWindowMs) :
    (create signingKey x25519Pub recipientEdPub mlKem senderCoord pqSigner
        stampMs).verify P recipientEdPub nowMs = .ok () := by
  rw [verify_eq_ok_iff]
  refine ⟨rfl, inside, signatures.validKey signingKey, ?_⟩
  exact signatures.ed25519 signingKey _

theorem pqVerify_create {P : Primitives} (signatures : P.SignaturesVerify)
    (signingKey : P.SigningKey) (x25519Pub recipientEdPub : Bytes 32)
    (mlKem : Bytes kind.kemBytes) (senderCoord : Bytes 16)
    (pqSigner : PqSigner P) (stampMs : UInt64) :
    let message : HandshakeMessage kind :=
      create signingKey x25519Pub recipientEdPub mlKem senderCoord pqSigner
        stampMs
    pqVerify P message.mlDsaPub message.signedBytes message.mlDsaSig =
      true := by
  intro message
  rcases signatures.mlDsa pqSigner.sk message.signedBytes with
    ⟨signature, decoded, verifies⟩
  have signed :
      message.mlDsaSig = P.mlDsaSign pqSigner.sk message.signedBytes :=
    rfl
  have known : message.mlDsaPub = P.mlDsaPublic pqSigner.sk :=
    pqSigner.publicHalf
  simp only [pqVerify, signed, decoded, known, verifies]

end HandshakeMessage

end Norn.Session
