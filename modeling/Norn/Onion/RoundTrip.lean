import Norn.Onion.Layers

/-!
# An onion packet reaches its destination

Every node of a path decodes the cell it receives, opens its layer with a key
chain that may have been rotated once since the key was advertised, and sends
on the packet it finds, padded again.  If the outermost packet fits the cell,
so do all others, and the destination finds the traffic.  At the second
rotation a key is given up.
-/

namespace Norn.Onion

open Foundation Packet Primitives
open Router (routingTag)
open Session (Instant)

section RoundTrip

variable {P : Primitives}

/-- The chain advertised the key of the hop, and was rotated at most once. -/
def OnionKeyChain.Serves (keys : OnionKeyChain P) (hop : OnionHop) : Prop :=
  ∃ before : OnionKeyChain P,
    hop.ephemeralXPub = before.pubKey ∧
      (keys = before ∨ ∃ newPriv now, keys = before.rotate newPriv now)

/-- A node of the path, the key drawn for its layer, and its own keys. -/
structure PathNode (P : Primitives) extends LayerDraw P where
  keys : OnionKeyChain P
  serves : keys.Serves hop

/--
A packet is passed from node to node: each decodes what comes over the wire
and peels it; a relay finds the packet for the next node, the destination the
traffic.
-/
def PacketTravels (dest : PathNode P) (traffic : List UInt8) :
    List (PathNode P) → OnionPacket → Prop
  | [], packet =>
    packet.routingTag = routingTag P dest.hop.identityEdPub ∧
      ∃ received,
        OnionPacket.decode packet.encode.tail = .ok received ∧
          peel received dest.keys = .ok (.deliver traffic)
  | relay :: relays, packet =>
    packet.routingTag = routingTag P relay.hop.identityEdPub ∧
      ∃ received inner next,
        OnionPacket.decode packet.encode.tail = .ok received ∧
          peel received relay.keys = .ok (.forward inner) ∧
          OnionPacket.decode inner = .ok next ∧
          PacketTravels dest traffic relays next

theorem OnionKeyChain.Serves.exists_priv {keys : OnionKeyChain P}
    {hop : OnionHop} (serves : keys.Serves hop) :
    ∃ priv ∈ keys.sphinxPrivs, hop.ephemeralXPub = P.x25519Public priv := by
  rcases serves with ⟨before, advertised, rfl | ⟨newPriv, now, rfl⟩⟩
  · exact ⟨keys.currentPriv, by simp [sphinxPrivs], advertised⟩
  · exact ⟨before.currentPriv, by simp [sphinxPrivs, rotate], advertised⟩

theorem PathNode.exists_sealed (dh : P.DhCommutes) (node : PathNode P)
    {layerType : UInt8} {content : List UInt8} {packet : OnionPacket}
    (built : buildLayer node.hop node.epkPriv layerType content = .ok packet) :
    ∃ priv ∈ node.keys.sphinxPrivs,
      P.aeadSeal (P.diffieHellman priv packet.epk) (Bytes.replicate 12 0)
        packet.epk (layerPlaintext layerType content) =
          some packet.aeadPayload := by
  rcases buildLayer_eq_ok built with ⟨wrapped, drawn, _⟩
  rcases node.serves.exists_priv with ⟨priv, member, advertised⟩
  refine ⟨priv, member, ?_⟩
  rw [advertised, dh node.epkPriv priv, ← drawn] at wrapped
  exact wrapped

variable (dh : P.DhCommutes) (correct : P.AeadCorrect)
  (ideal : P.AeadIdeal) (tags : P.AeadTags)

include dh correct ideal tags

/--
A packet of `build_onion` that fits the cell is forwarded by every relay to
the next node and delivered by the destination.
-/
theorem onion_reaches_destination (relays : List (PathNode P))
    (dest : PathNode P) (traffic : List UInt8) (packet : OnionPacket)
    (built :
      buildOnion dest.toLayerDraw traffic
        (relays.map PathNode.toLayerDraw) = .ok packet)
    (fits : packet.encodeUnpadded.length ≤ onionCellSize) :
    PacketTravels dest traffic relays packet := by
  induction relays generalizing packet with
  | nil =>
    have short := length_content_lt tags built
    rcases dest.exists_sealed dh built with ⟨priv, member, wrapped⟩
    refine ⟨(buildLayer_eq_ok built).2.2, packet,
      decode_encode_of_fits fits, ?_⟩
    apply peel_deliver correct ideal _ member wrapped
    unfold onionCellSize at fits
    omega
  | cons relay relays induction =>
    rcases buildOnion_cons_eq_ok built with ⟨inner, innerBuilt, layer⟩
    have short := length_content_lt tags layer
    have shift := length_encodeInner inner
    have innerFits : inner.encodeUnpadded.length ≤ onionCellSize := by
      omega
    rcases relay.exists_sealed dh layer with ⟨priv, member, wrapped⟩
    refine ⟨(buildLayer_eq_ok layer).2.2, packet, encodeInner inner,
      inner, decode_encode_of_fits fits, ?_,
      decode_encodeInner_of_fits innerFits,
      induction inner innerBuilt innerFits⟩
    apply peel_forward correct ideal _ member wrapped
    unfold onionCellSize at fits
    omega

end RoundTrip

/-- A node of the sample path whose chain was rotated since. -/
def sampleNode (byte : UInt8) : PathNode compact where
  hop :=
    { identityEdPub := Bytes.replicate 32 byte
      ephemeralXPub := Bytes.replicate 32 byte }
  epkPriv := Bytes.replicate 32 (byte + 100)
  keys :=
    (OnionKeyChain.new (Bytes.replicate 32 byte) 0).rotate
      (Bytes.replicate 32 (byte + 50)) 1
  serves :=
    ⟨OnionKeyChain.new (Bytes.replicate 32 byte) 0, rfl,
      Or.inr ⟨Bytes.replicate 32 (byte + 50), 1, rfl⟩⟩

/-- The packet for the sample path. -/
def samplePacket : Except OnionError OnionPacket :=
  buildOnion (sampleNode 3).toLayerDraw [9, 7, 5]
    ([sampleNode 1, sampleNode 2].map PathNode.toLayerDraw)

/-- An onion through two nodes delivers its traffic at the third. -/
theorem sample_onion_reaches_destination :
    ∃ packet, samplePacket = .ok packet ∧
      PacketTravels (sampleNode 3) [9, 7, 5] [sampleNode 1, sampleNode 2]
        packet := by
  have small :
      samplePacket.toOption.any fun packet =>
        packet.encodeUnpadded.length ≤ onionCellSize := by
    decide +kernel
  cases built : samplePacket with
  | error failure =>
    rw [built] at small
    cases small
  | ok packet =>
    rw [built] at small
    exact ⟨packet, rfl,
      onion_reaches_destination compact_dhCommutes
        compact_aeadCorrect compact_aeadIdeal
        compact_aeadTags [sampleNode 1, sampleNode 2]
        (sampleNode 3) [9, 7, 5] packet built
        (of_decide_eq_true small)⟩

section Rotations

variable {P : Primitives}

/-- `rotate_onion_keys_if_due` at a tick, with the key it draws. -/
def OnionKeyChain.rotateOnionKeysIfDue (self : OnionKeyChain P)
    (interval tick : Nat)
    (draw : P.StaticSecret × Instant) : OnionKeyChain P :=
  if tick % interval = 0 ∧ 0 < tick then self.rotate draw.1 draw.2 else self

/-- The chain so many ticks after a tick; the counter of ticks has 32 bits. -/
def OnionKeyChain.afterTicks (self : OnionKeyChain P) (interval start : Nat)
    (draws : Nat → P.StaticSecret × Instant) : Nat → OnionKeyChain P
  | 0 => self
  | count + 1 =>
    (self.afterTicks interval start draws count).rotateOnionKeysIfDue interval
      ((start + (count + 1)) % 2 ^ 32) (draws count)

theorem OnionKeyChain.afterTicks_spec (self : OnionKeyChain P)
    (interval start : Nat) (draws : Nat → P.StaticSecret × Instant)
    {count : Nat} (short : start + count < 2 ^ 32) :
    let after := self.afterTicks interval start draws count
    after.identityXPriv = self.identityXPriv ∧
      ∃ rotations, (start + count) / interval = start / interval + rotations ∧
        match rotations with
        | 0 => after.currentPriv = self.currentPriv
        | 1 =>
          after.previousPriv = some self.currentPriv ∧
            ∃ tick, after.currentPriv = (draws tick).1
        | _ + 2 =>
          (∃ tick, after.previousPriv = some (draws tick).1) ∧
            ∃ tick, after.currentPriv = (draws tick).1 := by
  induction count with
  | zero => exact ⟨rfl, 0, rfl, rfl⟩
  | succ count induction =>
    rcases induction (by omega) with ⟨identity, rotations, passed, keys⟩
    simp only [afterTicks, rotateOnionKeysIfDue]
    rw [Nat.mod_eq_of_lt short, ← Nat.add_assoc, Nat.succ_div, passed]
    split_ifs with due multiple multiple
    · refine ⟨identity, rotations + 1, rfl, ?_⟩
      match rotations, keys with
      | 0, current => exact ⟨congrArg some current, count, rfl⟩
      | 1, ⟨_, tick, current⟩ =>
        exact ⟨⟨tick, congrArg some current⟩, count, rfl⟩
      | _ + 2, ⟨_, tick, current⟩ =>
        exact ⟨⟨tick, congrArg some current⟩, count, rfl⟩
    · exact (multiple (Nat.dvd_of_mod_eq_zero due.1)).elim
    · exact (due ⟨Nat.mod_eq_zero_of_dvd multiple, Nat.succ_pos _⟩).elim
    · exact ⟨identity, rotations, rfl, keys⟩

/--
A layer for the key that a chain advertises opens until the second rotation
after that.  Then the key is gone, and the layer stays closed if the other keys
of the chain share other secrets with its builder.
-/
theorem layer_opens_until_second_rotation (dh : P.DhCommutes)
    (correct : P.AeadCorrect) (ideal : P.AeadIdeal) (keys : OnionKeyChain P)
    (identityEdPub : Bytes 32) (epkPriv : P.StaticSecret)
    (layerType : UInt8) (content : List UInt8) (packet : OnionPacket)
    (built :
      buildLayer ⟨identityEdPub, keys.pubKey⟩ epkPriv layerType content =
        .ok packet)
    (interval start count : Nat) (short : start + count < 2 ^ 32)
    (draws : Nat → P.StaticSecret × Instant) :
    let after := keys.afterTicks interval start draws count
    ((start + count) / interval ≤ start / interval + 1 →
        after.tryDecrypt packet.epk packet.aeadPayload =
          .ok (layerPlaintext layerType content)) ∧
      (start / interval + 1 < (start + count) / interval →
        (∀ priv,
          (∃ tick, priv = (draws tick).1) ∨ keys.identityXPriv = some priv →
            P.diffieHellman priv packet.epk ≠
              P.diffieHellman keys.currentPriv packet.epk) →
          after.tryDecrypt packet.epk packet.aeadPayload =
            .error .notAuthentic) := by
  rcases buildLayer_eq_ok built with ⟨wrapped, drawn, _⟩
  rw [show keys.pubKey = P.x25519Public keys.currentPriv from rfl,
    dh epkPriv, ← drawn] at wrapped
  rcases keys.afterTicks_spec interval start draws short with
    ⟨identity, rotations, passed, held⟩
  rw [passed]
  match rotations, held with
  | 0, current =>
    refine ⟨fun _ => ?_, fun late => by omega⟩
    exact tryDecrypt_eq_ok correct ideal (current ▸ List.mem_cons_self) wrapped
  | 1, ⟨previous, _⟩ =>
    refine ⟨fun _ => ?_, fun late => by omega⟩
    exact tryDecrypt_eq_ok correct ideal
      (by simp [OnionKeyChain.sphinxPrivs, previous]) wrapped
  | _ + 2, ⟨⟨tick, previous⟩, last, current⟩ =>
    refine ⟨fun early => by omega, fun _ others => ?_⟩
    rw [OnionKeyChain.tryDecrypt, List.findSome?_eq_none_iff.mpr]
    intro priv member
    apply ideal.closed wrapped
    apply others
    rw [OnionKeyChain.sphinxPrivs, identity, previous, current] at member
    rcases List.mem_cons.mp member with rfl | member
    · exact .inl ⟨last, rfl⟩
    · rcases List.mem_cons.mp member with rfl | member
      · exact .inl ⟨tick, rfl⟩
      · exact .inr (Option.mem_toList.mp member)

end Rotations

/-- The second rotation after tick 1 is at tick 4, of every second tick. -/
theorem sample_layer_closes :
    ∃ packet,
      @buildLayer compact (sampleNode 1).hop
          (Bytes.replicate 32 2) 0 [9] = .ok packet ∧
        ((OnionKeyChain.new (P := compact) (Bytes.replicate 32 1)
            0).afterTicks 2 1 (fun _ => (Bytes.replicate 32 7, 0))
          3).tryDecrypt packet.epk packet.aeadPayload =
            .error .notAuthentic := by
  refine ⟨_, rfl, ?_⟩
  apply (layer_opens_until_second_rotation compact_dhCommutes
    compact_aeadCorrect compact_aeadIdeal
    (OnionKeyChain.new (Bytes.replicate 32 1) 0) (Bytes.replicate 32 1)
    (Bytes.replicate 32 2) 0 [9] _ rfl 2 1 3 (by decide) _).2 (by decide)
  rintro _ (⟨_, rfl⟩ | ⟨⟨⟩⟩)
  dsimp only
  decide +kernel

end Norn.Onion
