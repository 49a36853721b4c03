import Norn.Session.Info

/-!
# Hiding who talks to whom

`header.rs`: payloads are padded to a multiple of 256 bytes, and the
identities of source and destination travel in a header that only the
destination can open.  The header key is an X25519 exchange between an
ephemeral key and the destination's identity key, converted from Ed25519.

Anyone can build a header: nothing in it proves that the sender holds the
private key of the source it names.
-/

namespace Norn.Router

open Foundation
open Session (packetNonce)

/-- The ways in which the header helpers fail. -/
inductive HeaderError where
  | invalidPublicKey
  | unpadTooShort
  | unpadLength (field available : Nat)
  deriving DecidableEq, Repr

/-- `PAD_BLOCK`. -/
def padBlock : Nat := 256

/-- `u16::MAX`, the largest length the padding header can write. -/
def maxPadded : Nat := 65535

/-- `pad_payload` of a release build: an over-long payload is cut. -/
def padPayload (data : List UInt8) : List UInt8 :=
  let origLen := min data.length maxPadded
  let out := littleEndian 2 origLen ++ data.take origLen
  let target := (out.length + (padBlock - 1)) / padBlock * padBlock
  out ++ List.replicate (target - out.length) 0

/-- `unpad_payload`. -/
def unpadPayload (padded : List UInt8) : Except HeaderError (List UInt8) :=
  match padded with
  | low :: high :: rest =>
    let origLen := littleEndianValue [low, high]
    if rest.length < origLen then
      .error (.unpadLength origLen rest.length)
    else
      .ok (rest.take origLen)
  | _ => .error .unpadTooShort

theorem unpadPayload_padPayload (data : List UInt8) :
    unpadPayload (padPayload data) = .ok (data.take maxPadded) := by
  have value :
      littleEndianValue (littleEndian 2 (min data.length maxPadded)) =
        min data.length maxPadded := by
    rw [littleEndianValue_littleEndian]
    apply Nat.mod_eq_of_lt
    have bound := Nat.min_le_right data.length maxPadded
    unfold maxPadded at bound ⊢
    omega
  have taken : data.take (min data.length maxPadded) = data.take maxPadded := by
    rw [List.take_eq_take_iff]
    omega
  simp only [littleEndian] at value
  simp only [padPayload, littleEndian, List.cons_append, List.nil_append,
    unpadPayload, value, taken]
  have width : (data.take maxPadded).length = min data.length maxPadded := by
    rw [List.length_take, Nat.min_comm]
  rw [if_neg, List.take_left' width]
  rw [List.length_append, width]
  omega

theorem length_padPayload_le (data : List UInt8) :
    (padPayload data).length ≤ maxPadded + 2 + padBlock := by
  simp only [padPayload, List.length_append, List.length_replicate,
    length_littleEndian, List.length_take]
  unfold maxPadded padBlock
  omega

section Header

variable {P : Primitives}

/-- `ed25519_priv_to_x25519`: hash and clamp. -/
def ed25519PrivToX25519 (P : Primitives) (edPrivBytes : Bytes 32) :
    P.StaticSecret :=
  let hash := P.sha512 edPrivBytes.toList
  let scalar : Bytes 32 :=
    ⟨hash.toList.take 32, by
      rw [List.length_take, hash.length_toList]; rfl⟩
  P.secretFromBytes
    ((scalar.modify 0 fun byte => byte &&& 248).modify 31 fun byte =>
      byte &&& 127 ||| 64)

/-- `ed25519_pub_to_x25519`. -/
def ed25519PubToX25519 (P : Primitives) (edPubBytes : Bytes 32) :
    Except HeaderError (Bytes 32) :=
  match P.edwardsToMontgomery edPubBytes with
  | some montgomery => .ok montgomery
  | none => .error .invalidPublicKey

/--
The two conversions fit together for a key: the X25519 private key has the
converted identity as its public half.
-/
def ConversionsAgree (P : Primitives) (key : P.SigningKey) : Prop :=
  ed25519PubToX25519 P (P.verifyingKey key) =
    .ok (P.x25519Public (ed25519PrivToX25519 P (P.signingKeyBytes key)))

/-! ## Headers -/

/--
The 128 bytes of `enc_header`: the ephemeral key and the two sealed
identities.
-/
structure EncHeader where
  epk : Bytes 32
  source : Bytes 48
  dest : Bytes 48
  deriving DecidableEq

/-- `[0u8; 128]`. -/
def EncHeader.zero : EncHeader :=
  ⟨Bytes.replicate 32 0, Bytes.replicate 48 0, Bytes.replicate 48 0⟩

/-- `routing_tag`. -/
def routingTag (P : Primitives) (pubKey : Bytes 32) : Bytes 16 :=
  P.blake2b128 (asciiBytes "norn:route" ++ pubKey.toList)

/-- Seal one identity; the cipher appends a tag of 16 bytes. -/
def sealIdentity (P : Primitives) (shared : Bytes 32) (nonce : Bytes 12)
    (epk identity : Bytes 32) : Option (Bytes 48) :=
  (P.aeadSeal shared nonce epk identity.toList).bind (Bytes.ofList 48)

/-- Open one sealed identity. -/
def openIdentity (P : Primitives) (shared : Bytes 32) (nonce : Bytes 12)
    (epk : Bytes 32) (field : Bytes 48) : Option (Bytes 32) :=
  (P.aeadOpen shared nonce epk field.toList).bind (Bytes.ofList 32)

/-- `encrypt_header`, drawing `epkPriv`. -/
def encryptHeader (P : Primitives) (sourceEdPub destEdPub : Bytes 32)
    (epkPriv : P.StaticSecret) : EncHeader × Bytes 16 :=
  match ed25519PubToX25519 P destEdPub with
  | .error _ => (.zero, Bytes.replicate 16 0)
  | .ok destX =>
    let epkPub := P.x25519Public epkPriv
    let shared := P.diffieHellman epkPriv destX
    match sealIdentity P shared (packetNonce 0) epkPub sourceEdPub with
    | none => (.zero, Bytes.replicate 16 0)
    | some source =>
      match sealIdentity P shared (packetNonce 1) epkPub destEdPub with
      | none => (.zero, Bytes.replicate 16 0)
      | some dest => (⟨epkPub, source, dest⟩, routingTag P destEdPub)

/-- The header key of the node that holds `mySk`. -/
def headerKey (P : Primitives) (header : EncHeader)
    (mySk : P.SigningKey) : Bytes 32 :=
  P.diffieHellman (ed25519PrivToX25519 P (P.signingKeyBytes mySk)) header.epk

/-- `decrypt_source_from_header`. -/
def decryptSourceFromHeader (P : Primitives) (header : EncHeader)
    (mySk : P.SigningKey) : Option (Bytes 32) :=
  openIdentity P (headerKey P header mySk) (packetNonce 0) header.epk
    header.source

/-- `decrypt_dest_from_header`. -/
def decryptDestFromHeader (P : Primitives) (header : EncHeader)
    (mySk : P.SigningKey) : Option (Bytes 32) :=
  openIdentity P (headerKey P header mySk) (packetNonce 1) header.epk
    header.dest

theorem openIdentity_of_seal (correct : P.AeadCorrect) (ideal : P.AeadIdeal)
    {shared : Bytes 32} {nonce : Bytes 12} {epk identity : Bytes 32}
    {field : Bytes 48}
    (wrapped : sealIdentity P shared nonce epk identity = some field)
    (key : Bytes 32) :
    openIdentity P key nonce epk field =
      if key = shared then some identity else none := by
  rcases Option.bind_eq_some_iff.mp wrapped with ⟨bytes, wrappedBytes, sized⟩
  unfold openIdentity
  rw [Bytes.toList_of_ofList sized]
  split_ifs with same
  · rw [same, correct.opens wrappedBytes]
    exact Bytes.ofList_toList identity
  · rw [ideal.closed wrappedBytes same]
    rfl

/--
A header carries the tag of its destination.  It opens to the two identities
it was built for at the nodes that derive the destination's header key from
it, and stays closed at all others.
-/
theorem decrypt_encryptHeader (commutes : P.DhCommutes)
    (correct : P.AeadCorrect) (ideal : P.AeadIdeal) {key : P.SigningKey}
    (agree : ConversionsAgree P key) (sourceEdPub : Bytes 32)
    {epkPriv : P.StaticSecret}
    (sealable :
      ∀ nonce identity,
        (sealIdentity P
          (P.diffieHellman (ed25519PrivToX25519 P (P.signingKeyBytes key))
            (P.x25519Public epkPriv))
          nonce (P.x25519Public epkPriv) identity).isSome = true)
    (mySk : P.SigningKey) :
    let built := encryptHeader P sourceEdPub (P.verifyingKey key) epkPriv
    let opens := headerKey P built.1 mySk = headerKey P built.1 key
    built.2 = routingTag P (P.verifyingKey key) ∧
      decryptSourceFromHeader P built.1 mySk =
        (if opens then some sourceEdPub else none) ∧
      decryptDestFromHeader P built.1 mySk =
        if opens then some (P.verifyingKey key) else none := by
  rcases Option.isSome_iff_exists.mp (sealable (packetNonce 0) sourceEdPub) with
    ⟨source, wrappedSource⟩
  rcases Option.isSome_iff_exists.mp
    (sealable (packetNonce 1) (P.verifyingKey key)) with
    ⟨dest, wrappedDest⟩
  have built :
      encryptHeader P sourceEdPub (P.verifyingKey key) epkPriv =
        (⟨P.x25519Public epkPriv, source, dest⟩, routingTag P
          (P.verifyingKey key)) := by
    unfold encryptHeader
    rw [show ed25519PubToX25519 P (P.verifyingKey key) = _ from agree]
    simp only [commutes epkPriv, wrappedSource, wrappedDest]
  rw [built]
  exact
    ⟨rfl, openIdentity_of_seal correct ideal wrappedSource _,
      openIdentity_of_seal correct ideal wrappedDest _⟩

/-- One node opens the header made for it, and another does not. -/
theorem decrypt_encryptHeader_compact :
    let header :=
      (encryptHeader Primitives.compact (Bytes.replicate 32 1)
        (Bytes.replicate 32 64)
        (Bytes.replicate 32 2)).1
    decryptSourceFromHeader Primitives.compact header (Bytes.replicate 32 64) =
        some (Bytes.replicate 32 1) ∧
      decryptSourceFromHeader Primitives.compact header
        (Bytes.replicate 32 72) = none := by
  have opened :=
    @decrypt_encryptHeader Primitives.compact Primitives.compact_dhCommutes
      Primitives.compact_aeadCorrect Primitives.compact_aeadIdeal
        (Bytes.replicate 32 64) rfl
      (Bytes.replicate 32 1) (Bytes.replicate 32 2) fun nonce identity => by
        rcases Primitives.compact_seals 66 2 nonce identity.toList with
          ⟨tag, width, wrapped⟩
        refine (congrArg (fun made => (made.bind (Bytes.ofList 48)).isSome)
          wrapped).trans ?_
        rw [Option.bind_some, Bytes.ofList, dif_pos (by simp [width])]
        rfl
  exact
    ⟨(opened (Bytes.replicate 32 64)).2.1.trans (if_pos rfl),
      (opened (Bytes.replicate 32 72)).2.1.trans (if_neg (by decide +kernel))⟩

end Header

end Norn.Router
