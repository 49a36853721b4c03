import Mathlib.Data.Set.Finite.Lemmas
import Norn.Session.DhCache

/-!
# The key of the peer

A packet carries the X25519 key of its sender, and a session that accepts it
stores this key for its own next packets.  Packets may arrive out of order
within the replay window, and the sender may have rotated between them.

The session is observed together with the packets it has accepted since the
last handshake update.  The stored key is the one of the packet with the
highest number exactly as long as every accepted packet is either above all
the others or carries the key that is already stored.
-/

namespace Norn.Session

open Foundation Foundation.Run

section PeerKey

variable {P : Primitives}

namespace SessionInfo

/-- The packet that a call of `decrypt` accepts. -/
def acceptedPacket (self : SessionInfo P) (now : Instant)
    (ciphertext : List UInt8) : Option Packet :=
  match (self.decrypt now ciphertext).1 with
  | .ok _ => (parsePacket ciphertext).toOption
  | .error _ => none

/-- The packet passes the replay check and opens under the session's keys. -/
def Valid (self : SessionInfo P) (ciphertext : List UInt8)
    (packet : Packet) : Prop :=
  parsePacket ciphertext = .ok packet ∧
    checkReplay self.remoteSeqHigh self.remoteSeqWindow packet.seq = .ok () ∧
    ∃ opened,
      openPayload P self.pqShared self.pqSharedFallback
        (P.diffieHellman self.localX25519Priv packet.senderXPub) packet =
          .ok opened

theorem acceptedPacket_cases (self : SessionInfo P) (now : Instant)
    (ciphertext : List UInt8) :
    self.acceptedPacket now ciphertext = none ∧
        (self.decrypt now ciphertext).2.remoteX25519Pub = self.remoteX25519Pub ∨
      ∃ packet,
        self.acceptedPacket now ciphertext = some packet ∧
          (self.decrypt now ciphertext).2.remoteX25519Pub =
            packet.senderXPub := by
  unfold acceptedPacket
  rcases self.decrypt_cases now ciphertext with
    ⟨_, cache, refused, _⟩ | ⟨_, packet, _, _, _, accepts⟩
  · rw [refused]
    exact .inl ⟨rfl, rfl⟩
  · rcases accepts.result with ⟨cache, accepted⟩
    rw [accepted, accepts.parsed]
    exact .inr ⟨packet, rfl, rfl⟩

theorem acceptedPacket_eq_some_iff (fixed : P.DhFixed)
    (self : SessionInfo P) (now : Instant) (ciphertext : List UInt8)
    (packet : Packet) :
    self.acceptedPacket now ciphertext = some packet ↔
      self.Valid ciphertext packet := by
  unfold acceptedPacket Valid
  constructor
  · intro found
    rcases self.decrypt_cases now ciphertext with
      ⟨_, cache, refused, _⟩ | ⟨buf, fields, _, _, _, accepts⟩
    · rw [refused] at found
      cases found
    · rcases accepts.result with ⟨cache, accepted⟩
      rw [accepted, accepts.parsed] at found
      cases found
      have opened := accepts.opened
      rw [dhShared_fst fixed] at opened
      exact ⟨accepts.parsed, accepts.passed, _, opened⟩
  · rintro ⟨parsed, passed, ⟨buf, pqShared⟩, opened⟩
    rw [← dhShared_fst fixed] at opened
    rcases decrypt_of_opened self now parsed passed opened with
      ⟨cache, high, window, _, accepted⟩
    rw [accepted, parsed]
    rfl

end SessionInfo

/-! ## A session under observation -/

/--
A session and the packets it has accepted since the last handshake update,
the last one first.
-/
structure Observed (P : Primitives) where
  session : SessionInfo P
  accepted : List SessionInfo.Packet

namespace Observed

/-- Observation begins, or begins anew. -/
def start (session : SessionInfo P) : Observed P := ⟨session, []⟩

/-- The accepted packets after a call. -/
def acceptedAfter (state : Observed P) : SessionOp P → List SessionInfo.Packet
  | .encrypt _ _ => state.accepted
  | .decrypt now ciphertext =>
    (state.session.acceptedPacket now ciphertext).toList ++ state.accepted
  | .rotateLocalKey _ => state.accepted
  | .completeHandshake _ _ _ _ => []

/-- One call. -/
def step (state : Observed P) (op : SessionOp P) : Observed P where
  session := (op.apply state.session).2
  accepted := state.acceptedAfter op

/-- The packet is accepted and no other one has a higher number. -/
def IsHighest (state : Observed P) (packet : SessionInfo.Packet) : Prop :=
  packet ∈ state.accepted ∧ ∀ other ∈ state.accepted, other.seq ≤ packet.seq

/-- The stored key is the one of the packet with the highest number. -/
def RemembersLatest (state : Observed P) : Prop :=
  ∀ packet, state.IsHighest packet →
    state.session.remoteX25519Pub = packet.senderXPub

/--
Whatever is encrypted next is sealed under the key of the packet with the
highest number.
-/
def TargetsLatest (state : Observed P) : Prop :=
  ∀ packet, state.IsHighest packet →
    ∀ now plaintext wire,
      (state.session.encrypt now plaintext).1 = .ok wire →
        ∃ rawCt,
          P.aeadSeal
              (derivePacketKey P
                (P.diffieHellman state.session.localX25519Priv
                  packet.senderXPub)
                state.session.pqShared)
              (packetNonce state.session.localSeq)
              state.session.localX25519Pub plaintext =
            some rawCt ∧
          SessionInfo.packetBytes state.session.localX25519Pub
            state.session.localSeq rawCt = wire

/--
A valid packet is above all that have been accepted since the last handshake
update, or it carries the key that is stored.
-/
def InKeyOrder (state : Observed P) : SessionOp P → Prop
  | .encrypt _ _ => True
  | .decrypt _ ciphertext =>
    ∀ packet, state.session.Valid ciphertext packet →
      (∀ other ∈ state.accepted, other.seq < packet.seq) ∨
        packet.senderXPub = state.session.remoteX25519Pub
  | .rotateLocalKey _ => True
  | .completeHandshake _ _ _ _ => True

variable {state : Observed P}

theorem RemembersLatest.targetsLatest (fixed : P.DhFixed)
    (remembers : state.RemembersLatest) : state.TargetsLatest := by
  intro packet highest now plaintext wire encrypted
  rcases SessionInfo.sealed_of_encrypt fixed encrypted with
    ⟨rawCt, sealedAs, wired⟩
  unfold SessionInfo.packetKey at sealedAs
  rw [remembers packet highest] at sealedAs
  exact ⟨rawCt, sealedAs, wired⟩

theorem exists_isHighest (some : state.accepted ≠ []) :
    ∃ packet, state.IsHighest packet := by
  rcases Set.exists_max_image {packet | packet ∈ state.accepted}
      (fun packet => packet.seq.toNat) (List.finite_toSet state.accepted)
      (List.exists_mem_of_ne_nil _ some) with
    ⟨packet, member, highest⟩
  refine ⟨packet, member, fun other otherMember => ?_⟩
  exact UInt64.le_iff_toNat_le.mpr (highest other otherMember)

theorem remembersLatest_of_above {packet : SessionInfo.Packet}
    {session : SessionInfo P} {accepted : List SessionInfo.Packet}
    (stored : session.remoteX25519Pub = packet.senderXPub)
    (above : ∀ other ∈ accepted, other.seq < packet.seq) :
    RemembersLatest ⟨session, packet :: accepted⟩ := by
  rintro highest ⟨member, highestOf⟩
  rcases List.mem_cons.mp member with rfl | earlier
  · exact stored
  · exact
      absurd (highestOf packet List.mem_cons_self)
        (UInt64.not_le.mpr (above highest earlier))

/-- A step keeps the latest key remembered exactly when it is in key order. -/
theorem remembersLatest_step_iff (fixed : P.DhFixed)
    (remembers : state.RemembersLatest) (op : SessionOp P) :
    (state.step op).RemembersLatest ↔ state.InKeyOrder op := by
  cases op with
  | encrypt now plaintext =>
    rcases state.session.encrypt_snd now plaintext with ⟨cache, seq, used, left⟩
    apply iff_of_true _ trivial
    intro packet highest
    change (state.session.encrypt now plaintext).2.remoteX25519Pub = _
    rw [left]
    exact remembers packet highest
  | decrypt now ciphertext =>
    have valid := state.session.acceptedPacket_eq_some_iff fixed now ciphertext
    rcases state.session.acceptedPacket_cases now ciphertext with
      ⟨refused, kept⟩ | ⟨packet, accepted, stored⟩
    · have after :
          state.acceptedAfter (.decrypt now ciphertext) =
            state.accepted := by
        rw [acceptedAfter, refused]
        rfl
      apply iff_of_true
      · rintro packet highest
        unfold step IsHighest at highest
        rw [after] at highest
        exact kept.trans (remembers packet highest)
      · intro packet accepted
        rw [← valid, refused] at accepted
        cases accepted
    · have after :
          state.step (.decrypt now ciphertext) =
            ⟨(state.session.decrypt now ciphertext).2, packet ::
              state.accepted⟩ := by
        change Observed.mk _ (Option.toList _ ++ _) = _
        rw [accepted]
        rfl
      rw [after]
      constructor
      · intro latest other otherValid
        rw [← valid, accepted] at otherValid
        cases otherValid
        by_cases above : ∀ other ∈ state.accepted, other.seq < packet.seq
        · exact .inl above
        · right
          push Not at above
          rcases above with ⟨later, member, notBelow⟩
          rcases exists_isHighest (List.ne_nil_of_mem member) with
            ⟨highest, highestOf⟩
          have still :
              IsHighest
                ⟨(state.session.decrypt now ciphertext).2, packet ::
                  state.accepted⟩ highest := by
            refine ⟨List.mem_cons_of_mem _ highestOf.1, ?_⟩
            intro other otherMember
            rcases List.mem_cons.mp otherMember with rfl | earlier
            · exact
                UInt64.le_trans (UInt64.not_lt.mp notBelow)
                  (highestOf.2 later member)
            · exact highestOf.2 other earlier
          exact
            (stored.symm.trans (latest highest still)).trans
              (remembers highest highestOf).symm
      · intro inOrder
        rcases inOrder packet ((valid packet).mp accepted) with above | same
        · exact remembersLatest_of_above stored above
        · rintro highest ⟨member, highestOf⟩
          rcases List.mem_cons.mp member with rfl | earlier
          · exact stored
          · have before : state.IsHighest highest :=
              ⟨earlier,
                fun other otherMember =>
                  highestOf other (List.mem_cons_of_mem _ otherMember)⟩
            exact (stored.trans same).trans (remembers highest before)
  | rotateLocalKey newPriv =>
    exact iff_of_true remembers trivial
  | completeHandshake remoteX25519Pub adopt pqShared fallback =>
    apply iff_of_true _ trivial
    rintro packet ⟨member, _⟩
    cases member

/--
In every state of a run the stored key, and the key that the next packet is
sealed under, is the one of the accepted packet with the highest number since
the last handshake update, if and only if the packets come in key order.
-/
theorem latest_key_wins_iff (fixed : P.DhFixed)
    (session : SessionInfo P) (ops : List (SessionOp P)) :
    (∀ front rest, ops = front ++ rest →
      (run step (start session) front).RemembersLatest ∧
        (run step (start session) front).TargetsLatest) ↔
      Along step InKeyOrder (start session) ops := by
  have initial : (start session).RemembersLatest := by
    rintro packet ⟨member, _⟩
    cases member
  rw [← @invariant_throughout_iff _ _ step InKeyOrder RemembersLatest
    (fun _ op remembers => remembersLatest_step_iff fixed remembers op)
    (start session) initial ops]
  constructor
  · intro both front rest split
    exact (both front rest split).1
  · intro throughout front rest split
    have remembers := throughout front rest split
    exact ⟨remembers, remembers.targetsLatest fixed⟩

end Observed

end PeerKey

/-- The session of a sender. -/
def rotatingSender : SessionInfo Primitives.transparent :=
  { SessionInfo.new (P := Primitives.transparent) (Bytes.replicate 32 2)
      (Bytes.replicate 32 10) (Bytes.replicate 32 20) 5 with
    established := true
    pqShared := some (Bytes.replicate 32 21) }

/-- The session of its receiver. -/
def lateReceiver : SessionInfo Primitives.transparent :=
  { SessionInfo.new (P := Primitives.transparent) (Bytes.replicate 32 1)
      (Bytes.replicate 32 20) (Bytes.replicate 32 10) 5 with
    established := true
    pqShared := some (Bytes.replicate 32 21) }

/-- The sender's session after its first packet and a rotation. -/
def rotatedSender : SessionInfo Primitives.transparent :=
  (rotatingSender.encrypt 6 [1]).2.rotateLocalKey (Bytes.replicate 32 11)

/-- The bytes of an encrypted packet. -/
def wireOf (session : SessionInfo Primitives.transparent)
    (plaintext : List UInt8) : List UInt8 :=
  (session.encrypt 6 plaintext).1.toOption.getD []

/-- The packet from before the rotation. -/
def firstPacket : List UInt8 := wireOf rotatingSender [1]

/-- The packet from after the rotation. -/
def secondPacket : List UInt8 := wireOf rotatedSender [2]

/-- In the order of sending the new key is the one that stays. -/
theorem packets_in_order_keep_latest :
    (run Observed.step (Observed.start lateReceiver)
      [.decrypt 7 firstPacket, .decrypt 8 secondPacket]
      ).RemembersLatest := by
  have along :
      Along Observed.step Observed.InKeyOrder (Observed.start lateReceiver)
        [.decrypt 7 firstPacket, .decrypt 8 secondPacket] := by
    refine ⟨?_, ?_, trivial⟩
    · intro packet _
      exact .inl (fun _ member => nomatch member)
    · rintro packet ⟨parsed, _⟩
      have numbered :
          (SessionInfo.parsePacket secondPacket).toOption.map
              SessionInfo.Packet.seq =
            some 1 := by
        decide +kernel
      have earlier :
          ((Observed.start lateReceiver).step
              (.decrypt 7 firstPacket)).accepted.map
            SessionInfo.Packet.seq = [0] := by
        decide +kernel
      rw [parsed] at numbered
      have one : packet.seq = 1 := Option.some.inj numbered
      refine .inl fun other member => ?_
      have zero : other.seq ∈ [(0 : UInt64)] := by
        rw [← earlier]
        exact List.mem_map_of_mem member
      rw [List.mem_singleton.mp zero, one]
      decide
  exact
    (((Observed.latest_key_wins_iff
          Primitives.transparent_dhFixed lateReceiver
          [.decrypt 7 firstPacket, .decrypt 8 secondPacket]).mpr along)
        [.decrypt 7 firstPacket, .decrypt 8 secondPacket] [] rfl).1

/--
If the packet from before the rotation is late, both are accepted and the
receiver falls back to the old key.
-/
theorem late_packet_reverts_key :
    ((run Observed.step (Observed.start lateReceiver)
          [.decrypt 7 secondPacket, .decrypt 8 firstPacket]).accepted.map
        fun packet => (packet.seq, packet.senderXPub)) =
        [(0, Bytes.replicate 32 10), (1, Bytes.replicate 32 11)] ∧
      (run Observed.step (Observed.start lateReceiver)
          [.decrypt 7 secondPacket, .decrypt 8 firstPacket]
        ).session.remoteX25519Pub = Bytes.replicate 32 10 ∧
      rotatedSender.localX25519Pub = Bytes.replicate 32 11 := by
  refine ⟨?_, ?_, ?_⟩
  · decide +kernel
  · decide +kernel
  · decide +kernel

end Norn.Session
