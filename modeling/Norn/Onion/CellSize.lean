import Mathlib.Logic.Function.Iterate
import Mathlib.Logic.Relation
import Norn.Onion.Layers

/-!
# The size of onion cells

`OnionPacket::encode` pads a packet to `ONION_CELL_SIZE` and leaves a longer
one as it is; `build_onion` takes traffic of any length and any number of
relays.  Every layer adds the tag, a key, two lengths, the type and the
authentication tag, which makes 69 bytes once lengths take two bytes each.

So all cells of a path have the same size exactly when the traffic leaves room
for the layers of its relays.
-/

namespace Norn.Onion

open Foundation Packet

theorem length_encodeUvarint_of_lt {number : Nat} (small : number < 128) :
    (encodeUvarint (UInt64.ofNat number)).length = 1 := by
  have written : (UInt64.ofNat number).toNat = number := by
    rw [UInt64.toNat_ofNat']
    omega
  have last : UInt64.ofNat number >>> 7 = 0 := by
    rw [shift_eq_zero_iff, written]
    exact small
  simp [encodeUvarint, encodeUvarintLoop, last]

theorem length_encodeUvarint_of_ge {number : Nat} (large : 128 ≤ number)
    (bounded : number < 16384) :
    (encodeUvarint (UInt64.ofNat number)).length = 2 := by
  have written : (UInt64.ofNat number).toNat = number := by
    rw [UInt64.toNat_ofNat']
    omega
  have more : ¬ UInt64.ofNat number >>> 7 = 0 := by
    rw [shift_eq_zero_iff, written]
    omega
  have last : UInt64.ofNat number >>> 7 >>> 7 = 0 := by
    rw [shift_eq_zero_iff, toNat_shift, written]
    omega
  simp only [encodeUvarint, encodeUvarintLoop, if_neg more, if_pos last,
    List.length_cons, List.length_nil]

/-! ## The length of nested layers -/

/-- The length of a layer without its type byte, by that of its content. -/
def layerLength (content : Nat) : Nat :=
  let aeadPayload :=
    17 + (encodeUvarint (UInt64.ofNat content)).length + content
  48 + (encodeUvarint (UInt64.ofNat aeadPayload)).length + aeadPayload

theorem layerLength_of_small {content : Nat} (small : content < 110) :
    layerLength content = content + 67 := by
  simp only [layerLength]
  rw [@length_encodeUvarint_of_lt content (by omega),
    length_encodeUvarint_of_lt (by omega)]
  omega

theorem layerLength_of_middle {content : Nat} (large : 110 ≤ content)
    (small : content < 128) : layerLength content = content + 68 := by
  simp only [layerLength]
  rw [@length_encodeUvarint_of_lt content small,
    length_encodeUvarint_of_ge (by omega) (by omega)]
  omega

theorem layerLength_of_large {content : Nat} (large : 128 ≤ content)
    (bounded : content ≤ 1280) : layerLength content = content + 69 := by
  simp only [layerLength]
  rw [@length_encodeUvarint_of_ge content large (by omega),
    length_encodeUvarint_of_ge (by omega) (by omega)]
  omega

theorem le_layerLength (content : Nat) : content ≤ layerLength content := by
  simp only [layerLength]
  omega

theorem iterate_layerLength_le_iff {content : Nat} (large : 128 ≤ content)
    (layers : Nat) :
    layerLength^[layers] content ≤ 1279 ↔ content + 69 * layers ≤ 1279 := by
  induction layers generalizing content with
  | zero => rfl
  | succ layers induction =>
    have grown := le_layerLength content
    rw [Function.iterate_succ_apply, induction (by omega)]
    by_cases bounded : content ≤ 1280
    · rw [layerLength_of_large large bounded]
      omega
    · omega

/--
The traffic leaves room for the layers of so many relays and of the
destination.
-/
def RoomFor (relays traffic : Nat) : Prop :=
  (relays ≤ 15 ∧ traffic + 69 * relays ≤ 1210) ∨
    (relays = 16 ∧ traffic ≤ 108) ∨ (relays = 17 ∧ traffic ≤ 41)

instance (relays traffic : Nat) : Decidable (RoomFor relays traffic) :=
  inferInstanceAs (Decidable (_ ∨ _))

/-- Layers around the traffic fit into a cell exactly when there is room. -/
theorem layers_fit_iff (relays traffic : Nat) :
    1 + layerLength^[relays + 1] traffic ≤ onionCellSize ↔
      RoomFor relays traffic := by
  have cell :
      1 + layerLength^[relays + 1] traffic ≤ onionCellSize ↔
        layerLength^[relays + 1] traffic ≤ 1279 := by
    unfold onionCellSize
    omega
  rw [cell]
  unfold RoomFor
  by_cases large : 128 ≤ traffic
  · rw [iterate_layerLength_le_iff large]
    omega
  · rw [Function.iterate_succ_apply]
    by_cases middle : 110 ≤ traffic
    · have first := layerLength_of_middle middle (Nat.not_le.mp large)
      rw [first, iterate_layerLength_le_iff (by omega)]
      omega
    · have first := layerLength_of_small (Nat.not_le.mp middle)
      rw [first]
      by_cases long : 61 ≤ traffic
      · rw [iterate_layerLength_le_iff (by omega)]
        omega
      · cases relays with
        | zero =>
          rw [Function.iterate_zero_apply]
          omega
        | succ relays =>
          rw [Function.iterate_succ_apply]
          by_cases near : 110 ≤ traffic + 67
          · rw [layerLength_of_middle near (by omega),
              iterate_layerLength_le_iff (by omega)]
            omega
          · rw [layerLength_of_small (Nat.not_le.mp near),
              iterate_layerLength_le_iff (by omega)]
            omega

section Sizes

variable {P : Primitives}

theorem length_buildOnion (tags : P.AeadTags) {dest : LayerDraw P}
    {traffic : List UInt8} {relays : List (LayerDraw P)}
    {packet : OnionPacket}
    (built : buildOnion dest traffic relays = .ok packet) :
    packet.encodeUnpadded.length =
      1 + layerLength^[relays.length + 1] traffic.length := by
  induction relays generalizing packet with
  | nil =>
    rw [length_encodeUnpadded, length_aeadPayload tags built]
    simp only [List.length_nil, Nat.zero_add, Function.iterate_one, layerLength]
    omega
  | cons relay relays induction =>
    rcases buildOnion_cons_eq_ok built with ⟨inner, innerBuilt, layer⟩
    have content := length_encodeInner inner
    rw [induction innerBuilt] at content
    have same :
        (encodeInner inner).length =
          layerLength^[relays.length + 1] traffic.length := by
      omega
    rw [length_encodeUnpadded, length_aeadPayload tags layer, same,
      List.length_cons, Function.iterate_succ_apply' layerLength
        (relays.length + 1)]
    simp only [layerLength]
    omega

theorem length_encode (packet : OnionPacket) :
    packet.encode.length = max packet.encodeUnpadded.length onionCellSize := by
  rw [OnionPacket.encode, List.length_append, List.length_replicate]
  omega

/-- A relay finds the next packet in the one it has received. -/
def Reencodes (P : Primitives) (packet next : OnionPacket) : Prop :=
  ∃ (keys : OnionKeyChain P) (received : OnionPacket) (inner : List UInt8),
    OnionPacket.decode packet.encode.tail = .ok received ∧
      peel received keys = .ok (.forward inner) ∧
      OnionPacket.decode inner = .ok next

/-- The packet itself and those that relays re-encode along its path. -/
def OnPath (P : Primitives) : OnionPacket → OnionPacket → Prop :=
  Relation.ReflTransGen (Reencodes P)

theorem layer_of_onPath (correct : P.AeadCorrect) (ideal : P.AeadIdeal)
    (tags : P.AeadTags) {dest : LayerDraw P} {traffic : List UInt8}
    {relays : List (LayerDraw P)} {packet later : OnionPacket}
    (built : buildOnion dest traffic relays = .ok packet)
    (fits : packet.encodeUnpadded.length ≤ onionCellSize)
    (onPath : OnPath P packet later) :
    ∃ inside, buildOnion dest traffic inside = .ok later ∧
      later.encodeUnpadded.length ≤ onionCellSize := by
  induction onPath with
  | refl => exact ⟨relays, built, fits⟩
  | @tail current next _ reencodes induction =>
    rcases induction with ⟨inside, currentBuilt, currentFits⟩
    rcases reencodes with ⟨keys, received, inner, decoded, opened, found⟩
    rw [decode_encode_of_fits currentFits] at decoded
    cases decoded
    have cell : current.encodeUnpadded.length ≤ 1280 := currentFits
    cases inside with
    | nil =>
      exfalso
      have short := length_content_lt tags currentBuilt
      have different : onionDeliver ≠ onionForward := by
        decide
      rcases peel_eq correct ideal (by omega) (buildLayer_eq_ok currentBuilt).1
        keys opened with
        ⟨relay, _⟩ | ⟨_, delivered⟩
      · exact different relay
      · cases delivered
    | cons relay rest =>
      rcases buildOnion_cons_eq_ok currentBuilt with
        ⟨content, contentBuilt, layer⟩
      have short := length_content_lt tags layer
      have shift := length_encodeInner content
      have contentFits : content.encodeUnpadded.length ≤ onionCellSize := by
        omega
      have forward : onionForward ≠ onionDeliver := by
        decide
      rcases peel_eq correct ideal (by omega) (buildLayer_eq_ok layer).1 keys
        opened with
        ⟨_, forwarded⟩ | ⟨exit, _⟩
      · cases forwarded
        rw [decode_encodeInner_of_fits contentFits] at found
        cases found
        exact ⟨rest, contentBuilt, contentFits⟩
      · exact absurd exit forward

/--
The packet of `build_onion` and all packets that relays re-encode on its path
are cells of the fixed size that the next node decodes, exactly if the traffic
leaves room for the layers.
-/
theorem cells_constant_iff_room (correct : P.AeadCorrect)
    (ideal : P.AeadIdeal) (tags : P.AeadTags)
    (relays : List (LayerDraw P)) (dest : LayerDraw P)
    (traffic : List UInt8) (packet : OnionPacket)
    (built : buildOnion dest traffic relays = .ok packet) :
    (∀ later, OnPath P packet later →
        later.encode.length = onionCellSize ∧
          OnionPacket.decode later.encode.tail = .ok later) ↔
      RoomFor relays.length traffic.length := by
  rw [← layers_fit_iff, ← length_buildOnion tags built]
  constructor
  · intro constant
    have outermost := (constant packet Relation.ReflTransGen.refl).1
    rw [length_encode] at outermost
    omega
  · intro fits later onPath
    rcases layer_of_onPath correct ideal tags built fits onPath with
      ⟨_, _, laterFits⟩
    refine ⟨?_, decode_encode_of_fits laterFits⟩
    rw [length_encode]
    omega

end Sizes

/-- A node that advertises a key made of one byte. -/
def plainDraw (byte : UInt8) : LayerDraw Primitives.compact where
  hop :=
    { identityEdPub := Bytes.replicate 32 byte
      ephemeralXPub := Bytes.replicate 32 byte }
  epkPriv := Bytes.replicate 32 (byte + 100)

/-- Three bytes through one hop leave room in every cell. -/
theorem short_traffic_makes_cells :
    ∃ packet,
      buildOnion (plainDraw 2) [1, 2, 3] [plainDraw 1] = .ok packet ∧
        ((∀ later, OnPath Primitives.compact packet later →
            later.encode.length = onionCellSize ∧
              OnionPacket.decode later.encode.tail = .ok later) ↔
          RoomFor 1 3) ∧ RoomFor 1 3 := by
  have ready :
      (buildOnion (plainDraw 2) [1, 2, 3]
        [plainDraw 1]).toOption.isSome = true := by
    decide +kernel
  cases built : buildOnion (plainDraw 2) [1, 2, 3] [plainDraw 1] with
  | error failure =>
    rw [built] at ready
    cases ready
  | ok packet =>
    exact ⟨packet, rfl,
      cells_constant_iff_room Primitives.compact_aeadCorrect
        Primitives.compact_aeadIdeal Primitives.compact_aeadTags
        [plainDraw 1] (plainDraw 2) [1, 2, 3] packet built,
      by decide⟩

/-- Traffic of 1300 bytes makes a packet that the next node refuses. -/
theorem long_traffic_breaks_cell :
    ∃ packet,
      buildOnion (plainDraw 2) (List.replicate 1300 0) [plainDraw 1] =
          .ok packet ∧
        packet.encode.length ≠ onionCellSize ∧
        OnionPacket.decode packet.encode.tail =
          .error (.onionTooLong 1388) := by
  have outcome :
      (buildOnion (plainDraw 2) (List.replicate 1300 0)
          [plainDraw 1]).toOption.any (fun packet =>
        decide (packet.encode.length ≠ onionCellSize ∧
          OnionPacket.decode packet.encode.tail =
            .error (.onionTooLong 1388))) = true := by
    decide +kernel
  cases built :
      buildOnion (plainDraw 2) (List.replicate 1300 0) [plainDraw 1] with
  | error failure =>
    rw [built] at outcome
    cases outcome
  | ok packet =>
    rw [built] at outcome
    exact ⟨packet, rfl, of_decide_eq_true outcome⟩

end Norn.Onion
