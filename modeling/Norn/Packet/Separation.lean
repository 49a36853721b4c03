import Norn.Packet.Messages
import Norn.Session.Wire
import Norn.Transport.Handshake

/-!
# Separation of the signed byte strings

One Ed25519 key signs ten kinds of messages.  A signature made for one can be
taken for another exactly when their signed byte strings coincide, so this
module compares the ten encodings with each other and each with itself.

Only the session handshakes and the stream handshake begin with a tag; the
others are separated by their lengths or not at all.  The lengths of each
kind fill an interval.  Kinds whose intervals are disjoint never meet, and a
kind determines its fields, apart from hole punches whose endpoint is cut
off.  Every other pair of kinds has two messages with the same signed bytes.
-/

namespace Norn.Packet

open Foundation
open Primitives (fit)
open Session (HandshakeKind buildSignBytes mlDsaPubBytes)
open Transport (handshakeSigBytes)

/-- The fields a signature is meant to cover, for each kind of message. -/
inductive SignedContent where
  | sigRes (treeId : UInt8) (seq timestampMs : UInt64) (reqPubKey : Bytes 32)
  | announce (treeId : UInt8) (root : Bytes 32)
      (rootSeq pathCost : UInt64) (sender : Bytes 32) (depth : UInt32)
  | coordAnnounce (version : UInt8) (coord : Bytes 16)
      (treeDepth : UInt32) (onionEphPub : Bytes 32)
  | onionKeyAnnounce (origin : Bytes 32) (seq validFromMs : UInt64)
      (onionEphPub : Bytes 32)
  | capabilityAnnounce (origin : Bytes 32) (caps : UInt32)
      (seq validFromMs : UInt64)
  | reputationReport (observer observed : Bytes 32) (scoreQ16 : UInt16)
      (seq validFromMs : UInt64)
  | holePunch (initiator target : Bytes 32) (validFromMs : UInt64)
      (endpoint : String)
  | session (kind : HandshakeKind) (edPub x25519Pub : Bytes 32)
      (timestampMs : UInt64) (recipientEdPub : Bytes 32)
      (mlKem : Bytes kind.kemBytes) (mlDsaPub : Bytes mlDsaPubBytes)
  | transport (ourNonce theirNonce ourPub theirPub : Bytes 32)
  deriving DecidableEq

/--
The bytes that are signed: those of the message before its signature is put
in, which is where the code leaves zeros.
-/
def SignedContent.signBytes : SignedContent → List UInt8
  | .sigRes treeId seq timestampMs reqPubKey =>
    sigResSignData treeId seq timestampMs reqPubKey
  | .announce treeId root rootSeq pathCost sender depth =>
    Announce.signBytes
      { treeId, root, rootSeq, pathCost, sender, depth
        signature := Bytes.replicate 64 0 }
  | .coordAnnounce version coord treeDepth onionEphPub =>
    CoordAnnounce.signBytes
      { version, coord, treeDepth, onionEphPub
        sig := Bytes.replicate 64 0 }
  | .onionKeyAnnounce origin seq validFromMs onionEphPub =>
    OnionKeyAnnounce.signBytes
      { origin, seq, validFromMs, onionEphPub
        sig := Bytes.replicate 64 0 }
  | .capabilityAnnounce origin caps seq validFromMs =>
    CapabilityAnnounce.signBytes
      { origin, caps, seq, validFromMs, sig := Bytes.replicate 64 0 }
  | .reputationReport observer observed scoreQ16 seq validFromMs =>
    ReputationReport.signBytes
      { observer, observed, scoreQ16, seq, validFromMs
        sig := Bytes.replicate 64 0 }
  | .holePunch initiator target validFromMs endpoint =>
    HolePunch.signBytes
      { initiator, target, validFromMs, endpoint
        sig := Bytes.replicate 64 0 }
  | .session kind edPub x25519Pub timestampMs recipientEdPub mlKem mlDsaPub =>
      buildSignBytes kind edPub x25519Pub timestampMs recipientEdPub mlKem
        mlDsaPub
  | .transport ourNonce theirNonce ourPub theirPub =>
    handshakeSigBytes ourNonce theirNonce ourPub theirPub

/-! ## Messages and their signed fields

What a receiver checks a signature against are the signed bytes of the
message it decoded, whatever that message's signature.
-/

/-- The signed fields of a tree announcement. -/
def Announce.content (ann : Announce) : SignedContent :=
  .announce ann.treeId ann.root ann.rootSeq ann.pathCost ann.sender ann.depth

/-- The signed fields of a coordinate announcement. -/
def CoordAnnounce.content (ann : CoordAnnounce) : SignedContent :=
  .coordAnnounce ann.version ann.coord ann.treeDepth ann.onionEphPub

/-- The signed fields of an onion key announcement. -/
def OnionKeyAnnounce.content (ann : OnionKeyAnnounce) : SignedContent :=
  .onionKeyAnnounce ann.origin ann.seq ann.validFromMs ann.onionEphPub

/-- The signed fields of a capability announcement. -/
def CapabilityAnnounce.content (ann : CapabilityAnnounce) :
    SignedContent :=
  .capabilityAnnounce ann.origin ann.caps ann.seq ann.validFromMs

/-- The signed fields of a reputation report. -/
def ReputationReport.content (report : ReputationReport) : SignedContent :=
  .reputationReport report.observer report.observed report.scoreQ16
    report.seq report.validFromMs

/-- The signed fields of a hole punch. -/
def HolePunch.content (punch : HolePunch) : SignedContent :=
  .holePunch punch.initiator punch.target punch.validFromMs punch.endpoint

/--
The kinds of signed byte strings; hole punches whose endpoint is cut off are
a kind of their own.
-/
inductive SignedKind where
  | sigRes
  | announce
  | coordAnnounce
  | onionKeyAnnounce
  | capabilityAnnounce
  | reputationReport
  | holePunch
  | longHolePunch
  | sessionInit
  | sessionAck
  | transport
  deriving DecidableEq

/-- The kind of a session handshake message. -/
def SignedKind.ofHandshake : HandshakeKind → SignedKind
  | .init => .sessionInit
  | .ack => .sessionAck

/-- The kind of a message. -/
def SignedContent.kind : SignedContent → SignedKind
  | .sigRes .. => .sigRes
  | .announce .. => .announce
  | .coordAnnounce .. => .coordAnnounce
  | .onionKeyAnnounce .. => .onionKeyAnnounce
  | .capabilityAnnounce .. => .capabilityAnnounce
  | .reputationReport .. => .reputationReport
  | .holePunch _ _ _ endpoint =>
    if (utf8 endpoint).length ≤ 255 then .holePunch else .longHolePunch
  | .session kind .. => .ofHandshake kind
  | .transport .. => .transport

/-- The least and the greatest length of each kind. -/
def SignedKind.lengths : SignedKind → Nat × Nat
  | .sigRes => (35, 53)
  | .announce => (68, 90)
  | .coordAnnounce => (53, 53)
  | .onionKeyAnnounce => (80, 80)
  | .capabilityAnnounce => (52, 52)
  | .reputationReport => (82, 82)
  | .holePunch => (73, 328)
  | .longHolePunch => (328, 328)
  | .sessionInit => (3241, 3241)
  | .sessionAck => (3145, 3145)
  | .transport => (145, 145)

/-- The signed bytes of each kind have a length within its interval. -/
theorem SignedContent.length_signBytes (content : SignedContent) :
    content.kind.lengths.1 ≤ content.signBytes.length ∧
      content.signBytes.length ≤ content.kind.lengths.2 := by
  cases content with
  | sigRes treeId seq timestampMs reqPubKey =>
    have seqLeast := length_encodeUvarint_pos seq
    have seqMost := length_encodeUvarint_le seq
    have stampLeast := length_encodeUvarint_pos timestampMs
    have stampMost := length_encodeUvarint_le timestampMs
    simp only [kind, signBytes, SignedKind.lengths, sigResSignData,
      List.length_cons, List.length_append, Bytes.length_toList]
    omega
  | announce treeId root rootSeq pathCost sender depth =>
    have seqLeast := length_encodeUvarint_pos rootSeq
    have seqMost := length_encodeUvarint_le rootSeq
    have costLeast := length_encodeUvarint_pos pathCost
    have costMost := length_encodeUvarint_le pathCost
    have depthLeast := length_encodeUvarint_pos depth.toUInt64
    have depthMost := length_encodeUvarint_toUInt64_le depth
    simp only [kind, signBytes, SignedKind.lengths, Announce.signBytes,
      List.length_cons, List.length_append, Bytes.length_toList]
    omega
  | coordAnnounce version coord treeDepth onionEphPub =>
    simp [kind, signBytes, SignedKind.lengths, CoordAnnounce.signBytes]
  | onionKeyAnnounce origin seq validFromMs onionEphPub =>
    simp [kind, signBytes, SignedKind.lengths, OnionKeyAnnounce.signBytes]
  | capabilityAnnounce origin caps seq validFromMs =>
    simp [kind, signBytes, SignedKind.lengths, CapabilityAnnounce.signBytes]
  | reputationReport observer observed scoreQ16 seq validFromMs =>
    simp [kind, signBytes, SignedKind.lengths, ReputationReport.signBytes]
  | holePunch initiator target validFromMs endpoint =>
    have total :
        (holePunch initiator target validFromMs endpoint).signBytes.length =
          73 + min (utf8 endpoint).length 255 := by
      simp only [signBytes, HolePunch.signBytes, List.length_append,
        Bytes.length_toList, length_clampedEndpoint]
      omega
    rw [total]
    by_cases fits : (utf8 endpoint).length ≤ 255
    · simp only [kind, if_pos fits, SignedKind.lengths]
      omega
    · simp only [kind, if_neg fits, SignedKind.lengths]
      omega
  | session kind edPub x25519Pub timestampMs recipientEdPub mlKem mlDsaPub =>
      cases kind <;>
        simp [SignedContent.kind, signBytes, SignedKind.ofHandshake,
          SignedKind.lengths, buildSignBytes, HandshakeKind.kemBytes,
          Norn.Session.mlKemPubBytes, Norn.Session.mlKemCtBytes,
          mlDsaPubBytes]
  | transport ourNonce theirNonce ourPub theirPub =>
    have tag : Norn.Transport.handshakeSigTag.length = 17 := by
      decide
    simp [kind, signBytes, SignedKind.lengths, handshakeSigBytes, tag]

theorem SignedContent.signBytes_ne_of_lengths {first second : SignedContent}
    (apart :
      first.kind.lengths.2 < second.kind.lengths.1 ∨
        second.kind.lengths.2 < first.kind.lengths.1) :
    first.signBytes ≠ second.signBytes := by
  intro same
  have firstLength := first.length_signBytes
  have secondLength := second.length_signBytes
  rw [same] at firstLength
  omega

/-! ## Each kind determines its fields -/

section Determined

theorem sigResSignData_inj {treeId treeId' : UInt8}
    {seq seq' timestampMs timestampMs' : UInt64}
    {reqPubKey reqPubKey' : Bytes 32}
    (same :
      sigResSignData treeId seq timestampMs reqPubKey =
        sigResSignData treeId' seq' timestampMs' reqPubKey') :
    treeId = treeId' ∧ seq = seq' ∧ timestampMs = timestampMs' ∧
      reqPubKey = reqPubKey' := by
  rcases List.cons.inj same with ⟨tree, rest⟩
  rcases encodeUvarint_append_inj rest with ⟨number, rest⟩
  rcases encodeUvarint_append_inj rest with ⟨stamp, rest⟩
  exact ⟨tree, number, stamp, Bytes.ext rest⟩

theorem uInt32_toUInt64_injective : Function.Injective UInt32.toUInt64 := by
  intro first second equal
  apply UInt32.toNat_inj.mp
  have values := congrArg UInt64.toNat equal
  rwa [UInt32.toNat_toUInt64, UInt32.toNat_toUInt64] at values

theorem encodeUvarint_injective : Function.Injective encodeUvarint := by
  intro first second equal
  have padded : encodeUvarint first ++ [] = encodeUvarint second ++ [] := by
    rw [equal]
  exact (encodeUvarint_append_inj padded).1

theorem Announce.content_eq_of_signBytes {first second : Announce}
    (same : first.signBytes = second.signBytes) :
    first.content = second.content := by
  rcases List.cons.inj same with ⟨tree, rest⟩
  rcases Bytes.append_inj rest with ⟨root, rest⟩
  rcases encodeUvarint_append_inj rest with ⟨rootSeq, rest⟩
  rcases encodeUvarint_append_inj rest with ⟨pathCost, rest⟩
  rcases Bytes.append_inj rest with ⟨sender, rest⟩
  have depth := uInt32_toUInt64_injective (encodeUvarint_injective rest)
  simp only [content, tree, root, rootSeq, pathCost, sender, depth]

theorem CoordAnnounce.content_eq_of_signBytes {first second : CoordAnnounce}
    (same : first.signBytes = second.signBytes) :
    first.content = second.content := by
  rcases List.cons.inj same with ⟨version, rest⟩
  rcases Bytes.append_inj rest with ⟨coord, rest⟩
  rcases Bytes.append_inj rest with ⟨depth, rest⟩
  simp only [content, version, coord, u32ToLe_injective depth, Bytes.ext rest]

theorem OnionKeyAnnounce.content_eq_of_signBytes
    {first second : OnionKeyAnnounce}
    (same : first.signBytes = second.signBytes) :
    first.content = second.content := by
  rcases Bytes.append_inj same with ⟨origin, rest⟩
  rcases Bytes.append_inj rest with ⟨seq, rest⟩
  rcases Bytes.append_inj rest with ⟨validFrom, rest⟩
  simp only [content, origin, u64ToLe_injective seq,
    u64ToLe_injective validFrom, Bytes.ext rest]

theorem CapabilityAnnounce.content_eq_of_signBytes
    {first second : CapabilityAnnounce}
    (same : first.signBytes = second.signBytes) :
    first.content = second.content := by
  rcases Bytes.append_inj same with ⟨origin, rest⟩
  rcases Bytes.append_inj rest with ⟨caps, rest⟩
  rcases Bytes.append_inj rest with ⟨seq, rest⟩
  simp only [content, origin, u32ToLe_injective caps,
    u64ToLe_injective seq, u64ToLe_injective (Bytes.ext rest)]

theorem ReputationReport.content_eq_of_signBytes
    {first second : ReputationReport}
    (same : first.signBytes = second.signBytes) :
    first.content = second.content := by
  rcases Bytes.append_inj same with ⟨observer, rest⟩
  rcases Bytes.append_inj rest with ⟨observed, rest⟩
  rcases Bytes.append_inj rest with ⟨score, rest⟩
  rcases Bytes.append_inj rest with ⟨seq, rest⟩
  simp only [content, observer, observed, u16ToLe_injective score,
    u64ToLe_injective seq, u64ToLe_injective (Bytes.ext rest)]

theorem HolePunch.content_eq_of_signBytes {first second : HolePunch}
    (firstFits : (utf8 first.endpoint).length ≤ 255)
    (secondFits : (utf8 second.endpoint).length ≤ 255)
    (same : first.signBytes = second.signBytes) :
    first.content = second.content := by
  rcases Bytes.append_inj same with ⟨initiator, rest⟩
  rcases Bytes.append_inj rest with ⟨target, rest⟩
  rcases Bytes.append_inj rest with ⟨validFrom, rest⟩
  simp only [content, initiator, target, u64ToLe_injective validFrom,
    clampedEndpoint_inj firstFits secondFits rest]

theorem session_eq_of_signBytes {kind : HandshakeKind}
    {edPub edPub' x25519Pub x25519Pub' : Bytes 32}
    {timestampMs timestampMs' : UInt64}
    {recipientEdPub recipientEdPub' : Bytes 32}
    {mlKem mlKem' : Bytes kind.kemBytes}
    {mlDsaPub mlDsaPub' : Bytes mlDsaPubBytes}
    (same :
      buildSignBytes kind edPub x25519Pub timestampMs recipientEdPub mlKem
        mlDsaPub =
        buildSignBytes kind edPub' x25519Pub' timestampMs' recipientEdPub'
          mlKem' mlDsaPub') :
    SignedContent.session kind edPub x25519Pub timestampMs recipientEdPub mlKem
      mlDsaPub =
      SignedContent.session kind edPub' x25519Pub' timestampMs'
        recipientEdPub' mlKem' mlDsaPub' := by
  rcases List.cons.inj same with ⟨_, rest⟩
  rcases Bytes.append_inj rest with ⟨edPub, rest⟩
  rcases Bytes.append_inj rest with ⟨x25519Pub, rest⟩
  rcases Bytes.append_inj rest with ⟨timestamp, rest⟩
  rcases Bytes.append_inj rest with ⟨recipient, rest⟩
  rcases Bytes.append_inj rest with ⟨mlKem, rest⟩
  rw [edPub, x25519Pub, u64ToLe_injective timestamp, recipient, mlKem,
    Bytes.ext rest]

theorem SignedContent.ctorIdx_eq_of_kind {first second : SignedContent}
    (sameKind : first.kind = second.kind) :
    first.ctorIdx = second.ctorIdx := by
  have form : ∀ content : SignedContent,
      content.ctorIdx = match content.kind with
        | .sigRes => 0
        | .announce => 1
        | .coordAnnounce => 2
        | .onionKeyAnnounce => 3
        | .capabilityAnnounce => 4
        | .reputationReport => 5
        | .holePunch | .longHolePunch => 6
        | .sessionInit | .sessionAck => 7
        | .transport => 8 := by
    intro content
    cases content with
    | holePunch initiator target validFromMs endpoint =>
      by_cases fits : (utf8 endpoint).length ≤ 255
      · simp only [kind, if_pos fits]
        rfl
      · simp only [kind, if_neg fits]
        rfl
    | session kind => cases kind <;> rfl
    | _ => rfl
  rw [form first, form second, sameKind]

theorem SignedContent.endpoint_fits {initiator target : Bytes 32}
    {validFromMs : UInt64}
    {endpoint : String}
    (whole :
      (holePunch initiator target validFromMs endpoint).kind ≠ .longHolePunch) :
    (utf8 endpoint).length ≤ 255 := by
  by_contra long
  exact whole (if_neg long)

/-- Within a kind the signed bytes determine the content. -/
theorem SignedContent.eq_of_signBytes {first second : SignedContent}
    (sameKind : first.kind = second.kind)
    (whole : first.kind ≠ .longHolePunch)
    (same : first.signBytes = second.signBytes) :
    first = second := by
  have form := ctorIdx_eq_of_kind sameKind
  cases first with
  | sigRes treeId seq timestampMs reqPubKey =>
    cases second with
    | sigRes =>
      rcases sigResSignData_inj same with ⟨rfl, rfl, rfl, rfl⟩
      rfl
    | _ => cases form
  | announce treeId root rootSeq pathCost sender depth =>
    cases second with
    | announce =>
      have determined := Announce.content_eq_of_signBytes same
      exact determined
    | _ => cases form
  | coordAnnounce version coord treeDepth onionEphPub =>
    cases second with
    | coordAnnounce =>
      have determined := CoordAnnounce.content_eq_of_signBytes same
      exact determined
    | _ => cases form
  | onionKeyAnnounce origin seq validFromMs onionEphPub =>
    cases second with
    | onionKeyAnnounce =>
      have determined := OnionKeyAnnounce.content_eq_of_signBytes same
      exact determined
    | _ => cases form
  | capabilityAnnounce origin caps seq validFromMs =>
    cases second with
    | capabilityAnnounce =>
      have determined := CapabilityAnnounce.content_eq_of_signBytes same
      exact determined
    | _ => cases form
  | reputationReport observer observed scoreQ16 seq validFromMs =>
    cases second with
    | reputationReport =>
      have determined := ReputationReport.content_eq_of_signBytes same
      exact determined
    | _ => cases form
  | holePunch initiator target validFromMs endpoint =>
    cases second with
    | holePunch =>
      have secondWhole := whole
      rw [sameKind] at secondWhole
      have determined :=
        HolePunch.content_eq_of_signBytes (endpoint_fits whole)
          (endpoint_fits secondWhole) same
      exact determined
    | _ => cases form
  | session kind edPub x25519Pub timestampMs recipientEdPub mlKem mlDsaPub =>
      cases second with
      | session otherKind =>
        have kinds : kind = otherKind := by
          cases kind <;> cases otherKind <;>
            first
            | rfl
            | cases sameKind
        subst kinds
        exact session_eq_of_signBytes same
      | _ => cases form
  | transport ourNonce theirNonce ourPub theirPub =>
    cases second with
    | transport =>
      rcases Norn.Transport.handshakeSigBytes_injective same with
        ⟨rfl, rfl, rfl, rfl⟩
      rfl
    | _ => cases form

end Determined

/-! ## Which kinds overlap -/

/-- The pairs of kinds that share a signed byte string. -/
def overlapping : List (SignedKind × SignedKind) :=
  [(.sigRes, .coordAnnounce), (.sigRes, .capabilityAnnounce),
    (.announce, .onionKeyAnnounce),
    (.announce, .reputationReport),
    (.announce, .holePunch),
    (.onionKeyAnnounce, .holePunch),
    (.reputationReport, .holePunch),
    (.holePunch, .transport),
    (.holePunch, .longHolePunch),
    (.longHolePunch, .longHolePunch)]

/-- Two kinds overlap, in either order. -/
def Overlap (first second : SignedKind) : Prop :=
  (first, second) ∈ overlapping ∨ (second, first) ∈ overlapping

instance (first second : SignedKind) : Decidable (Overlap first second) :=
  inferInstanceAs (Decidable (_ ∨ _))

theorem apart_of_not_overlap {first second : SignedKind}
    (separate : ¬ Overlap first second) :
    (first.lengths.2 < second.lengths.1 ∨ second.lengths.2 < first.lengths.1) ∨
      (first = second ∧ first ≠ .longHolePunch) := by
  revert separate
  cases first <;> cases second <;> decide

/--
The tree announcement of a node whose key begins with a zero byte: what it
signs is also what it would sign for a hole punch of its own.
-/
def sampleAnnounce : Announce where
  treeId := 0
  root := fit 32 (List.replicate 30 0 ++ [1])
  rootSeq := 0x200000
  pathCost := 0x200000
  sender := fit 32 (List.replicate 31 0 ++ [1])
  signature := Bytes.replicate 64 0
  depth := 58

/-- The hole punch that `sampleAnnounce` is taken for. -/
def sampleHolePunch : HolePunch where
  initiator := fit 32 (List.replicate 31 0 ++ [1])
  target := fit 32 [0, 0x80, 0x80, 0x80, 1, 0x80, 0x80, 0x80, 1]
  validFromMs := 0
  endpoint := ":"
  sig := Bytes.replicate 64 0

/-- One pair of messages with the same signed bytes for each overlap. -/
def collisions : List (SignedContent × SignedContent) :=
  [(.sigRes 5 0xffffffffffffffff 0xffffffffffffffff (fit 32 []),
      .coordAnnounce 5
        (fit 16 (List.replicate 9 0xff ++ (1 :: List.replicate 6 0xff)))
        0x01ffffff (fit 32 [])),
    (.sigRes 0 0x7fffffffffffffff 0xffffffffffffffff (fit 32 []),
      .capabilityAnnounce
        (fit 32
          (0 :: (List.replicate 8 0xff ++
            (0x7f :: (List.replicate 9 0xff ++ [1])))))
        0 0 0),
    (.announce 0 (fit 32 []) 0xffffffffffffffff 0x200000 (fit 32 []) 0,
      .onionKeyAnnounce (fit 32 []) 0xffffffffffffff00
        0x000180808001ffff (fit 32 [])),
    (.announce 0 (fit 32 []) 0xffffffffffffffff 0x800000000 (fit 32 []) 0,
      .reputationReport (fit 32 [])
        (fit 32
          (0 :: (List.replicate 9 0xff ++
            (1 :: (List.replicate 5 0x80 ++ [1])))))
        0 0 0),
    (sampleAnnounce.content, sampleHolePunch.content),
    (.onionKeyAnnounce (fit 32 []) 0 0
        (fit 32 (List.replicate 24 0 ++ [7, 49, 46, 50, 58, 52, 48, 48])),
      .holePunch (fit 32 []) (fit 32 []) 0 "1.2:400"),
    (.reputationReport (fit 32 []) (fit 32 []) 0
        0x3109000000000000 0x303030343a322e32,
      .holePunch (fit 32 []) (fit 32 []) 0 "12.2:4000"),
    (.holePunch (fit 32 Norn.Transport.handshakeSigTag) (fit 32 []) 0
        (String.ofList (List.replicate 72 (Char.ofNat 0))),
      .transport (fit 32 []) (fit 32 (List.replicate 23 0 ++ [72]))
        (fit 32 []) (fit 32 [])),
    (.holePunch (fit 32 []) (fit 32 []) 0
        (String.ofList (List.replicate 255 '1')),
      .holePunch (fit 32 []) (fit 32 []) 0
        (String.ofList (List.replicate 256 '1'))),
    (.holePunch (fit 32 []) (fit 32 []) 0
        (String.ofList (List.replicate 256 '1')),
      .holePunch (fit 32 []) (fit 32 []) 0
        (String.ofList (List.replicate 257 '1')))]

theorem collisions_signBytes :
    ∀ pair ∈ collisions, pair.1 ≠ pair.2 ∧
      pair.1.signBytes = pair.2.signBytes := by
  decide +kernel

theorem collisions_kinds :
    collisions.map (fun pair => (pair.1.kind, pair.2.kind)) =
      overlapping := by
  decide +kernel

theorem exists_collision {first second : SignedKind}
    (listed : (first, second) ∈ overlapping) :
    ∃ one two : SignedContent,
      one.kind = first ∧ two.kind = second ∧ one ≠ two ∧
        one.signBytes = two.signBytes := by
  rw [← collisions_kinds] at listed
  rcases List.mem_map.mp listed with ⟨pair, member, kinds⟩
  rcases Prod.mk.inj kinds with ⟨firstKind, secondKind⟩
  rcases collisions_signBytes pair member with ⟨different, same⟩
  exact ⟨pair.1, pair.2, firstKind, secondKind, different, same⟩

/--
Signed byte strings of two kinds, or of one kind twice, determine the signed
fields exactly when the kinds are not among those that overlap.
-/
theorem signBytes_separate_iff (first second : SignedKind) :
    (∀ one two : SignedContent,
        one.kind = first → two.kind = second →
          one.signBytes = two.signBytes → one = two) ↔
      ¬ Overlap first second := by
  constructor
  · intro separate overlap
    cases overlap with
    | inl listed =>
      rcases exists_collision listed with
        ⟨one, two, oneKind, twoKind, different, same⟩
      exact different (separate one two oneKind twoKind same)
    | inr listed =>
      rcases exists_collision listed with
        ⟨one, two, oneKind, twoKind, different, same⟩
      exact different (separate two one twoKind oneKind same.symm).symm
  · rintro separate one two rfl rfl same
    cases apart_of_not_overlap separate with
    | inl apart =>
      exact absurd same (SignedContent.signBytes_ne_of_lengths apart)
    | inr oneKind =>
      exact SignedContent.eq_of_signBytes oneKind.1 oneKind.2 same

/-- A signature on a tree announcement passes as one on a hole punch. -/
theorem announce_verifies_as_holePunch :
    sampleAnnounce.signBytes = sampleHolePunch.signBytes ∧
      ∀ (P : Primitives) (signature : Bytes 64),
        P.verifyStrict sampleAnnounce.sender sampleAnnounce.signBytes
            signature = true →
          P.verifyStrict sampleHolePunch.initiator
            sampleHolePunch.signBytes signature = true := by
  have same : sampleAnnounce.signBytes = sampleHolePunch.signBytes := by
    decide +kernel
  refine ⟨same, ?_⟩
  intro P signature verified
  rw [same] at verified
  exact verified

end Norn.Packet
