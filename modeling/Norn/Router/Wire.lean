import Norn.Packet.Frames
import Norn.Router.Traffic

/-!
# Traffic frames on the wire

`Traffic::encode` and `Traffic::decode` of `packet.rs`.  A frame that was
decoded, changed in its hop counter and its sender and encoded again is read
by the next hop as exactly that.
-/

namespace Norn.Router

open Foundation Packet

/-- `read_frame` takes no frame longer than this. -/
def maxFrameLength : Nat := 1024 * 1024

namespace Traffic

variable {traffic : Traffic} {data : List UInt8}

/-- The presence byte and the coordinate behind it. -/
def encodeCoord : Option (Bytes 16) → List UInt8
  | some coord => 1 :: coord.toList
  | none => [0]

/-- `Traffic::encode`. -/
def encode (traffic : Traffic) : List UInt8 :=
  trafficType :: (encodePath traffic.path ++ (traffic.fromPeer.toList ++
    (traffic.encHeader.epk.toList ++ (traffic.encHeader.source.toList ++
      (traffic.encHeader.dest.toList ++ (traffic.routingTag.toList ++
        (traffic.pktType :: (encodeCoord traffic.destCoord ++
          (encodeUvarint traffic.watermark ++
            (encodeUvarint (UInt64.ofNat traffic.payload.length) ++
              traffic.payload))))))))))

/-- The coordinate of a frame, if its presence byte says there is one. -/
def decodeCoord (data : List UInt8) :
    Except FrameError (Option (Bytes 16) × List UInt8) :=
  match data with
  | [] => .error .trafficNoPresence
  | present :: data =>
    if present ≠ 0 then
      if data.length < 16 then
        .error (.trafficCoordTruncated data.length)
      else do
        let (coord, data) ← readField 16 data
        .ok (some coord, data)
    else
      .ok (none, data)

/-- `Traffic::decode`. -/
def decode (data : List UInt8) : Except FrameError Traffic := do
  let (path, rest) ← decodePath data
  if rest.length < 177 then
    .error (.trafficTooShort rest.length)
  else
    let (fromPeer, rest) ← readField 32 rest
    let (epk, rest) ← readField 32 rest
    let (source, rest) ← readField 48 rest
    let (dest, rest) ← readField 48 rest
    let (routingTag, rest) ← readField 16 rest
    let (pktType, rest) ← readByte rest
    let (destCoord, rest) ← decodeCoord rest
    let (watermark, rest) ← readUvarint rest
    let (payloadLen, rest) ← readUvarint rest
    if 2 ^ 64 ≤ data.length - rest.length + payloadLen.toNat then
      .error .trafficPayloadOverflow
    else if rest.length < payloadLen.toNat then
      .error (.trafficPayloadTruncated payloadLen.toNat rest.length)
    else
      .ok
        { path, fromPeer, encHeader := { epk, source, dest }, routingTag
          pktType, destCoord, watermark
          payload := rest.take payloadLen.toNat }

theorem decodeCoord_append (coord : Option (Bytes 16)) (rest : List UInt8) :
    decodeCoord (encodeCoord coord ++ rest) = .ok (coord, rest) := by
  cases coord with
  | none => rfl
  | some coord =>
    have long : ¬ (coord.toList ++ rest).length < 16 := by
      simp
    simp only [encodeCoord, List.cons_append, decodeCoord, if_neg long,
      readField_append, ok_bind]
    rfl

/-- The frames that survive being encoded. -/
def Fits (traffic : Traffic) : Prop :=
  PathFits traffic.path ∧ traffic.payload.length ≤ maxFrameLength

theorem length_encodePath_le {path : List UInt64}
    (bounded : path.length ≤ maxPathHops) :
    (encodePath path).length ≤ 10 * maxPathHops + 1 := by
  have hops :
      (path.flatMap fun hop => encodeUvarint (hop + 1)).length ≤
        10 * path.length := by
    induction path with
    | nil => simp
    | cons hop path induction =>
      have first := length_encodeUvarint_le (hop + 1)
      have later := induction (Nat.le_of_succ_le bounded)
      simp only [List.flatMap_cons, List.length_append, List.length_cons]
      omega
  simp only [encodePath, List.length_append, List.length_singleton]
  omega

theorem length_encodeCoord_le (coord : Option (Bytes 16)) :
    (encodeCoord coord).length ≤ 17 := by
  cases coord with
  | none => simp [encodeCoord]
  | some coord => simp [encodeCoord]

theorem decode_encode_of_length_lt (fits : PathFits traffic.path)
    (bounded : traffic.payload.length < 2 ^ 63) :
    decode traffic.encode.tail = .ok traffic := by
  have written :
      (UInt64.ofNat traffic.payload.length).toNat =
        traffic.payload.length := by
    rw [UInt64.toNat_ofNat']
    omega
  have pathLength := length_encodePath_le fits.1
  have coordLength := length_encodeCoord_le traffic.destCoord
  have markLength := length_encodeUvarint_le traffic.watermark
  have countLength :=
    length_encodeUvarint_le (UInt64.ofNat traffic.payload.length)
  simp only [encode, List.tail_cons, decode, decodePath_encodePath fits,
    ok_bind]
  rw [if_neg]
  · simp only [readField_append, ok_bind, readByte_cons,
      decodeCoord_append, readUvarint_append, written]
    rw [if_neg, if_neg (Nat.lt_irrefl _), List.take_length]
    simp only [List.length_append, List.length_cons, Bytes.length_toList]
    unfold maxPathHops at pathLength
    omega
  · simp only [List.length_append, List.length_cons, Bytes.length_toList]
    have coordPositive : 1 ≤ (encodeCoord traffic.destCoord).length := by
      cases traffic.destCoord <;> simp [encodeCoord]
    omega

theorem decode_encode (fits : traffic.Fits) :
    decode traffic.encode.tail = .ok traffic := by
  apply decode_encode_of_length_lt fits.1
  have bounded := fits.2
  unfold maxFrameLength at bounded
  omega

theorem length_le_of_decodeCoord {rest : List UInt8} {coord : Option (Bytes 16)}
    (decoded : decodeCoord data = .ok (coord, rest)) :
    rest.length ≤ data.length := by
  cases data with
  | nil => cases decoded
  | cons present data =>
    simp only [decodeCoord] at decoded
    split_ifs at decoded
    · rcases (bind_eq_ok_iff _ _ _).mp decoded with ⟨_, read, decoded⟩
      cases decoded
      have shorter := length_le_of_readField read
      exact shorter.trans (Nat.le_succ _)
    · cases decoded
      simp

theorem bounds_of_decode (decoded : decode data = .ok traffic) :
    PathFits traffic.path ∧ traffic.payload.length ≤ data.length := by
  rcases (bind_eq_ok_iff _ _ _).mp decoded with
    ⟨⟨path, rest⟩, pathRead, decoded⟩
  have pathFits := pathFits_of_decodePath pathRead
  have shrunk := length_le_of_decodePath pathRead
  simp only at decoded
  split_ifs at decoded
  rcases (bind_eq_ok_iff _ _ _).mp decoded with ⟨_, fromRead, decoded⟩
  rcases (bind_eq_ok_iff _ _ _).mp decoded with ⟨_, epkRead, decoded⟩
  rcases (bind_eq_ok_iff _ _ _).mp decoded with ⟨_, sourceRead, decoded⟩
  rcases (bind_eq_ok_iff _ _ _).mp decoded with ⟨_, destRead, decoded⟩
  rcases (bind_eq_ok_iff _ _ _).mp decoded with ⟨_, tagRead, decoded⟩
  rcases (bind_eq_ok_iff _ _ _).mp decoded with ⟨_, typeRead, decoded⟩
  rcases (bind_eq_ok_iff _ _ _).mp decoded with ⟨_, coordRead, decoded⟩
  rcases (bind_eq_ok_iff _ _ _).mp decoded with ⟨_, markRead, decoded⟩
  rcases (bind_eq_ok_iff _ _ _).mp decoded with ⟨_, countRead, decoded⟩
  split_ifs at decoded
  cases decoded
  have chain :=
    (length_le_of_readUvarint countRead).trans
      ((length_le_of_readUvarint markRead).trans
        ((length_le_of_decodeCoord coordRead).trans
          ((length_le_of_readByte typeRead).trans
            ((length_le_of_readField tagRead).trans
              ((length_le_of_readField destRead).trans
                ((length_le_of_readField sourceRead).trans
                  ((length_le_of_readField epkRead).trans
                    ((length_le_of_readField fromRead).trans shrunk))))))))
  refine ⟨pathFits, ?_⟩
  rw [List.length_take]
  omega

theorem fits_of_decode (short : data.length ≤ maxFrameLength)
    (decoded : decode data = .ok traffic) : traffic.Fits :=
  ⟨(bounds_of_decode decoded).1, (bounds_of_decode decoded).2.trans short⟩

end Traffic

end Norn.Router
