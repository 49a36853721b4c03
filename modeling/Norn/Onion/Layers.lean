import Norn.Packet.Frames
import Norn.Router.Header

/-!
# Layers of an onion packet

`onion.rs`: the sender wraps a traffic frame in one sealed layer for each node
of the path, the innermost one for the destination.  A node opens its layer
with one of the keys of its chain and finds the next packet or the frame.

A layer is sealed under the shared secret of a key drawn for it and the key
the node has advertised.  Whatever key a node opens a layer with, it finds
what was sealed there.
-/

namespace Norn.Onion

open Foundation Packet
open Router (routingTag)
open Session (Instant)

/-- `ONION_FORWARD`. -/
def onionForward : UInt8 := 0x01

/-- `ONION_DELIVER`. -/
def onionDeliver : UInt8 := 0x00

/-- The errors of building and peeling. -/
inductive OnionError where
  | encryptLayer
  | notAuthentic
  | emptyPayload
  | forwardTruncated
  | deliverTruncated
  | unknownType (byte : UInt8)
  | frame (failure : FrameError)
  deriving DecidableEq

/-! ## Keys -/

/-- `OnionKeyChain`; `current_pub` belongs to `current_priv`. -/
structure OnionKeyChain (P : Primitives) where
  currentPriv : P.StaticSecret
  previousPriv : Option P.StaticSecret
  rotatedAt : Instant
  identityXPriv : Option P.StaticSecret

section Layers

variable {P : Primitives}

variable {target : OnionHop} {epkPriv priv : P.StaticSecret} {layerType : UInt8}
  {content plaintext aeadPayload : List UInt8} {packet : OnionPacket}
  {key epk : Bytes 32} {keys : OnionKeyChain P}

namespace OnionKeyChain

/-- `OnionKeyChain::new`, with the key it draws. -/
def new (currentPriv : P.StaticSecret) (now : Instant) : OnionKeyChain P where
  currentPriv
  previousPriv := none
  rotatedAt := now
  identityXPriv := none

/-- `OnionKeyChain::pub_key`. -/
def pubKey (self : OnionKeyChain P) : Bytes 32 :=
  P.x25519Public self.currentPriv

/-- `OnionKeyChain::rotate`, with the key it draws. -/
def rotate (self : OnionKeyChain P) (newPriv : P.StaticSecret)
    (now : Instant) : OnionKeyChain P :=
  { self with
    currentPriv := newPriv
    previousPriv := some self.currentPriv
    rotatedAt := now }

/-- `OnionKeyChain::sphinx_privs`: the keys in the order they are tried. -/
def sphinxPrivs (self : OnionKeyChain P) : List P.StaticSecret :=
  self.currentPriv :: (self.previousPriv.toList ++ self.identityXPriv.toList)

/-- A layer opened with one key. -/
def openWith (epk : Bytes 32) (aeadPayload : List UInt8)
    (priv : P.StaticSecret) : Option (List UInt8) :=
  P.aeadOpen (P.diffieHellman priv epk) (Bytes.replicate 12 0) epk aeadPayload

/-- `OnionKeyChain::try_decrypt`. -/
def tryDecrypt (self : OnionKeyChain P) (epk : Bytes 32)
    (aeadPayload : List UInt8) : Except OnionError (List UInt8) :=
  match self.sphinxPrivs.findSome? (openWith epk aeadPayload) with
  | some buf => .ok buf
  | none => .error .notAuthentic

end OnionKeyChain

/-- `PeeledOnion`. -/
inductive PeeledOnion where
  | forward (inner : List UInt8)
  | deliver (traffic : List UInt8)
  deriving DecidableEq

/--
The content of a layer behind its type byte.  The end of the content is
computed in machine words.
-/
def readContent (truncated : OnionError) (data : List UInt8) :
    Except OnionError (List UInt8) := do
  let (length, consumed) ← (decodeUvarint data).mapError .frame
  let stop := (1 + consumed + length.toNat) % 2 ^ 64
  if data.length + 1 < stop then
    .error truncated
  else if stop < 1 + consumed then
    .error (.frame (.panicked .sliceOutOfRange))
  else
    .ok ((data.drop consumed).take (stop - (1 + consumed)))

/-- `OnionPacket::peel`. -/
def peel (packet : OnionPacket) (keys : OnionKeyChain P) :
    Except OnionError PeeledOnion := do
  let buf ← keys.tryDecrypt packet.epk packet.aeadPayload
  match buf with
  | [] => .error .emptyPayload
  | layerType :: data =>
    if layerType = onionForward then do
      let inner ← readContent .forwardTruncated data
      .ok (.forward inner)
    else if layerType = onionDeliver then do
      let traffic ← readContent .deliverTruncated data
      .ok (.deliver traffic)
    else
      .error (.unknownType layerType)

/-- `OnionHop`. -/
structure OnionHop where
  identityEdPub : Bytes 32
  ephemeralXPub : Bytes 32
  deriving DecidableEq

/-- What is sealed in a layer. -/
def layerPlaintext (layerType : UInt8) (content : List UInt8) :
    List UInt8 :=
  layerType :: (encodeUvarint (UInt64.ofNat content.length) ++ content)

/-- `build_layer`, with the key it draws. -/
def buildLayer (target : OnionHop) (epkPriv : P.StaticSecret)
    (layerType : UInt8) (content : List UInt8) :
    Except OnionError OnionPacket :=
  match P.aeadSeal (P.diffieHellman epkPriv target.ephemeralXPub)
      (Bytes.replicate 12 0) (P.x25519Public epkPriv)
      (layerPlaintext layerType content) with
  | none => .error .encryptLayer
  | some aeadPayload =>
    .ok
      { routingTag := routingTag P target.identityEdPub
        epk := P.x25519Public epkPriv
        aeadPayload }

/-- `OnionPacket::encode_inner`. -/
def encodeInner (packet : OnionPacket) : List UInt8 :=
  packet.encodeUnpadded.tail

/-- A node of the path and the key drawn for its layer. -/
structure LayerDraw (P : Primitives) where
  hop : OnionHop
  epkPriv : P.StaticSecret

/-- `build_onion`: the loop goes over the relays from the last one. -/
def buildOnion (dest : LayerDraw P) (traffic : List UInt8) :
    List (LayerDraw P) → Except OnionError OnionPacket
  | [] => buildLayer dest.hop dest.epkPriv onionDeliver traffic
  | relay :: relays => do
      let inner ← buildOnion dest traffic relays
      buildLayer relay.hop relay.epkPriv onionForward (encodeInner inner)

theorem buildLayer_eq_ok
    (built : buildLayer target epkPriv layerType content = .ok packet) :
    P.aeadSeal (P.diffieHellman epkPriv target.ephemeralXPub)
      (Bytes.replicate 12 0) packet.epk
        (layerPlaintext layerType content) = some packet.aeadPayload ∧
      packet.epk = P.x25519Public epkPriv ∧
      packet.routingTag = routingTag P target.identityEdPub := by
  unfold buildLayer at built
  split at built
  · cases built
  · case h_2 aeadPayload wrapped =>
    cases built
    exact ⟨wrapped, rfl, rfl⟩

theorem openWith_eq (correct : P.AeadCorrect) (ideal : P.AeadIdeal)
    (wrapped :
      P.aeadSeal key (Bytes.replicate 12 0) epk plaintext = some aeadPayload)
    (priv : P.StaticSecret) :
    OnionKeyChain.openWith epk aeadPayload priv = none ∨
      OnionKeyChain.openWith epk aeadPayload priv = some plaintext := by
  unfold OnionKeyChain.openWith
  cases opened :
      P.aeadOpen (P.diffieHellman priv epk) (Bytes.replicate 12 0) epk
        aeadPayload with
  | none => exact Or.inl rfl
  | some buf =>
    have same := (ideal wrapped opened).1
    rw [same, correct.opens wrapped] at opened
    exact Or.inr opened.symm

theorem tryDecrypt_eq_of_ok (correct : P.AeadCorrect) (ideal : P.AeadIdeal)
    {buf : List UInt8}
    (wrapped :
      P.aeadSeal key (Bytes.replicate 12 0) epk plaintext = some aeadPayload)
    (opened : keys.tryDecrypt epk aeadPayload = .ok buf) :
    buf = plaintext := by
  unfold OnionKeyChain.tryDecrypt at opened
  split at opened
  · case h_1 found hit =>
    cases opened
    rcases List.exists_of_findSome?_eq_some hit with ⟨priv, _, first⟩
    rcases openWith_eq correct ideal wrapped priv with none | some
    · rw [none] at first
      cases first
    · rw [some] at first
      exact (Option.some.inj first).symm
  · cases opened

theorem tryDecrypt_eq_ok (correct : P.AeadCorrect) (ideal : P.AeadIdeal)
    (member : priv ∈ keys.sphinxPrivs)
    (wrapped :
      P.aeadSeal (P.diffieHellman priv epk) (Bytes.replicate 12 0) epk
        plaintext = some aeadPayload) :
    keys.tryDecrypt epk aeadPayload = .ok plaintext := by
  cases result : keys.tryDecrypt epk aeadPayload with
  | ok buf => rw [tryDecrypt_eq_of_ok correct ideal wrapped result]
  | error failure =>
    exfalso
    unfold OnionKeyChain.tryDecrypt at result
    split at result
    · cases result
    · case h_2 missed =>
      have closed := List.findSome?_eq_none_iff.mp missed priv member
      unfold OnionKeyChain.openWith at closed
      rw [correct.opens wrapped] at closed
      cases closed

theorem readContent_eq_ok (truncated : OnionError)
    (short : content.length < 2 ^ 63) :
    readContent truncated
      (encodeUvarint (UInt64.ofNat content.length) ++ content) =
      .ok content := by
  have written : (UInt64.ofNat content.length).toNat = content.length := by
    rw [UInt64.toNat_ofNat']
    omega
  have consumed := length_encodeUvarint_le (UInt64.ofNat content.length)
  have whole :
      (1 + (encodeUvarint (UInt64.ofNat content.length)).length +
        content.length) % 2 ^ 64 =
        1 + (encodeUvarint (UInt64.ofNat content.length)).length +
          content.length := by
    apply Nat.mod_eq_of_lt
    omega
  simp only [readContent, decodeUvarint_encodeUvarint, mapError_ok, ok_bind,
    written, whole]
  rw [if_neg, if_neg, List.drop_left]
  · have rest :
        1 + (encodeUvarint (UInt64.ofNat content.length)).length +
          content.length -
          (1 + (encodeUvarint (UInt64.ofNat content.length)).length) =
          content.length := by
      omega
    rw [rest, List.take_length]
  · omega
  · rw [List.length_append]
    omega

theorem peel_eq (correct : P.AeadCorrect) (ideal : P.AeadIdeal)
    (short : content.length < 2 ^ 63)
    (wrapped :
      P.aeadSeal key (Bytes.replicate 12 0) packet.epk
        (layerPlaintext layerType content) = some packet.aeadPayload)
    (keys : OnionKeyChain P) {peeled : PeeledOnion}
    (opened : peel packet keys = .ok peeled) :
    (layerType = onionForward ∧ peeled = .forward content) ∨
      (layerType = onionDeliver ∧ peeled = .deliver content) := by
  rcases (bind_eq_ok_iff _ _ _).mp opened with ⟨buf, decrypted, opened⟩
  cases tryDecrypt_eq_of_ok correct ideal wrapped decrypted
  simp only [layerPlaintext, readContent_eq_ok _ short, ok_bind] at opened
  split_ifs at opened with relay exit
  · cases opened
    exact Or.inl ⟨relay, rfl⟩
  · cases opened
    exact Or.inr ⟨exit, rfl⟩

theorem peel_forward (correct : P.AeadCorrect) (ideal : P.AeadIdeal)
    (short : content.length < 2 ^ 63) (member : priv ∈ keys.sphinxPrivs)
    (wrapped :
      P.aeadSeal (P.diffieHellman priv packet.epk) (Bytes.replicate 12 0)
        packet.epk (layerPlaintext onionForward content) =
          some packet.aeadPayload) :
    peel packet keys = .ok (.forward content) := by
  simp only [peel, tryDecrypt_eq_ok correct ideal member wrapped, ok_bind,
    layerPlaintext, if_true, readContent_eq_ok _ short]

theorem peel_deliver (correct : P.AeadCorrect) (ideal : P.AeadIdeal)
    (short : content.length < 2 ^ 63) (member : priv ∈ keys.sphinxPrivs)
    (wrapped :
      P.aeadSeal (P.diffieHellman priv packet.epk) (Bytes.replicate 12 0)
        packet.epk (layerPlaintext onionDeliver content) =
          some packet.aeadPayload) :
    peel packet keys = .ok (.deliver content) := by
  have other : onionDeliver ≠ onionForward := by
    decide
  simp only [peel, tryDecrypt_eq_ok correct ideal member wrapped, ok_bind,
    layerPlaintext, if_neg other, if_true, readContent_eq_ok _ short]

theorem length_encodeUnpadded (packet : OnionPacket) :
    packet.encodeUnpadded.length =
      49 + (encodeUvarint (UInt64.ofNat packet.aeadPayload.length)).length +
        packet.aeadPayload.length := by
  simp only [OnionPacket.encodeUnpadded, List.length_cons, List.length_append,
    Bytes.length_toList]
  omega

theorem length_encodeInner (packet : OnionPacket) :
    (encodeInner packet).length + 1 = packet.encodeUnpadded.length := by
  simp [encodeInner, OnionPacket.encodeUnpadded]

theorem length_aeadPayload (tags : P.AeadTags)
    (built : buildLayer target epkPriv layerType content = .ok packet) :
    packet.aeadPayload.length =
      17 + (encodeUvarint (UInt64.ofNat content.length)).length +
        content.length := by
  rw [tags (buildLayer_eq_ok built).1]
  simp only [layerPlaintext, List.length_cons, List.length_append]
  omega

theorem length_content_lt (tags : P.AeadTags)
    (built : buildLayer target epkPriv layerType content = .ok packet) :
    content.length + 66 < packet.encodeUnpadded.length := by
  have sealed := length_aeadPayload tags built
  have one := length_encodeUvarint_pos (UInt64.ofNat content.length)
  have other :=
    length_encodeUvarint_pos (UInt64.ofNat packet.aeadPayload.length)
  rw [length_encodeUnpadded]
  omega

theorem buildOnion_cons_eq_ok {dest : LayerDraw P} {traffic : List UInt8}
    {relay : LayerDraw P} {relays : List (LayerDraw P)}
    (built : buildOnion dest traffic (relay :: relays) = .ok packet) :
    ∃ inner,
      buildOnion dest traffic relays = .ok inner ∧
        buildLayer relay.hop relay.epkPriv onionForward (encodeInner inner) =
          .ok packet :=
  (bind_eq_ok_iff _ _ _).mp built

theorem decode_encode_of_fits
    (fits : packet.encodeUnpadded.length ≤ onionCellSize) :
    OnionPacket.decode packet.encode.tail = .ok packet := by
  apply OnionPacket.decode_encode
  rw [length_encodeUnpadded] at fits
  omega

theorem decode_encodeInner_of_fits
    (fits : packet.encodeUnpadded.length ≤ onionCellSize) :
    OnionPacket.decode (encodeInner packet) = .ok packet := by
  have payload : packet.aeadPayload.length ≤ onionCellSize := by
    rw [length_encodeUnpadded] at fits
    omega
  have read := OnionPacket.decode_unpadded_append payload []
  rwa [List.append_nil] at read

end Layers

end Norn.Onion
