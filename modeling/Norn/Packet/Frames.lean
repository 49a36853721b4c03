import Norn.Packet.Messages

/-!
# Frames that travel from node to node

Encoders and decoders of `packet.rs` and `onion.rs` for the frames a router
hands on: path replies, negative path hints, hole punches and onion packets.
A decoder gets the bytes behind the type byte.

Decoding what was encoded returns the message.  The side conditions are met
by every message that was itself decoded, so a frame that is decoded and
encoded again at each hop is the same message all along its way.
-/

namespace Norn.Packet

open Foundation

variable {data rest : List UInt8} {path : List UInt64} {packet : OnionPacket}

/-- `PATH_NOTIFY`. -/
def pathNotifyType : UInt8 := 7

/-- `PATH_BROKEN`. -/
def pathBrokenType : UInt8 := 8

/-- `TRAFFIC`. -/
def trafficType : UInt8 := 9

/-- `TYPE_ONION`. -/
def onionType : UInt8 := 11

/-- `TYPE_HOLE_PUNCH`. -/
def holePunchType : UInt8 := 14

/-- `TYPE_PATH_NEGATIVE`. -/
def pathNegativeType : UInt8 := 15

/-- `TYPE_ONION_SPHINX`. -/
def onionSphinxType : UInt8 := 0x10

/-! ## Reading off the front of a frame -/

/-- A slice of fixed length; running past the end is a panic. -/
def readField (count : Nat) (data : List UInt8) :
    Except FrameError (Bytes count × List UInt8) :=
  (Bytes.read count data).mapError .panicked

/-- One byte; running past the end is a panic. -/
def readByte : List UInt8 → Except FrameError (UInt8 × List UInt8)
  | [] => .error (.panicked .sliceOutOfRange)
  | byte :: rest => .ok (byte, rest)

/-- A variable-length integer and what follows it. -/
def readUvarint (data : List UInt8) :
    Except FrameError (UInt64 × List UInt8) := do
  let (value, consumed) ← decodeUvarint data
  return (value, data.drop consumed)

@[simp]
theorem readField_append {count : Nat} (field : Bytes count)
    (rest : List UInt8) :
    readField count (field.toList ++ rest) = .ok (field, rest) := by
  simp [readField]

@[simp]
theorem readField_toList {count : Nat} (field : Bytes count) :
    readField count field.toList = .ok (field, []) := by
  have read := readField_append field []
  rwa [List.append_nil] at read

@[simp]
theorem readByte_cons (byte : UInt8) (rest : List UInt8) :
    readByte (byte :: rest) = .ok (byte, rest) :=
  rfl

@[simp]
theorem readUvarint_append (value : UInt64) (rest : List UInt8) :
    readUvarint (encodeUvarint value ++ rest) = .ok (value, rest) := by
  simp [readUvarint, decodeUvarint_encodeUvarint]

@[simp]
theorem readUvarint_encodeUvarint (value : UInt64) :
    readUvarint (encodeUvarint value) = .ok (value, []) := by
  have read := readUvarint_append value []
  rwa [List.append_nil] at read

/-! What is left after a read is no longer than what was there. -/

theorem length_le_of_readField {count : Nat} {field : Bytes count}
    (read : readField count data = .ok (field, rest)) :
    rest.length ≤ data.length := by
  unfold readField at read
  cases result : Bytes.read count data with
  | error failure =>
    rw [result] at read
    cases read
  | ok pair =>
    rw [result] at read
    cases read
    rw [Bytes.eq_append_of_read result, List.length_append]
    omega

theorem length_le_of_readByte {byte : UInt8}
    (read : readByte data = .ok (byte, rest)) :
    rest.length ≤ data.length := by
  cases data with
  | nil => cases read
  | cons first others =>
    cases read
    simp

theorem length_le_of_readUvarint {value : UInt64}
    (read : readUvarint data = .ok (value, rest)) :
    rest.length ≤ data.length := by
  rcases (bind_eq_ok_iff _ _ _).mp read with ⟨_, _, read⟩
  cases read
  rw [List.length_drop]
  omega

/-! ## Paths -/

/-- The largest number of hops a path is decoded with. -/
def maxPathHops : Nat := 1024

/-- `encode_path`. -/
def encodePath (path : List UInt64) : List UInt8 :=
  path.flatMap (fun hop => encodeUvarint (hop + 1)) ++ [0]

/-- The loop of `decode_path`, with room for so many further hops. -/
def decodePathLoop (room : Nat) (data : List UInt8) :
    Except FrameError (List UInt64 × List UInt8) :=
  if data = [] then
    .error .pathNotTerminated
  else do
    let (value, consumed) ← decodeUvarint data
    if consumed = 0 then
      .error .nothingConsumed
    else if value = 0 then
      .ok ([], data.drop consumed)
    else
      match room with
      | 0 => .error .pathTooLong
      | room + 1 => do
          let (path, rest) ← decodePathLoop room (data.drop consumed)
          .ok ((value - 1) :: path, rest)

/-- `decode_path`: the path and what follows it. -/
def decodePath (data : List UInt8) :
    Except FrameError (List UInt64 × List UInt8) :=
  decodePathLoop maxPathHops data

/-- The paths that survive being encoded: no hop overflows. -/
def PathFits (path : List UInt64) : Prop :=
  path.length ≤ maxPathHops ∧ ∀ hop ∈ path, hop + 1 ≠ 0

theorem encodeUvarint_ne_nil (value : UInt64) : encodeUvarint value ≠ [] := by
  intro empty
  have positive := length_encodeUvarint_pos value
  rw [empty] at positive
  exact absurd positive (by decide)

theorem decodePathLoop_append (room : Nat) (value : UInt64)
    (rest : List UInt8) :
    decodePathLoop room (encodeUvarint value ++ rest) =
      if value = 0 then
        .ok ([], rest)
      else
        (match room with
        | 0 => .error .pathTooLong
        | room + 1 => do
            let (path, rest) ← decodePathLoop room rest
            .ok ((value - 1) :: path, rest)) := by
  have nonempty : encodeUvarint value ++ rest ≠ [] := by
    simp [encodeUvarint_ne_nil]
  have positive := length_encodeUvarint_pos value
  rw [decodePathLoop.eq_def, if_neg nonempty, decodeUvarint_encodeUvarint]
  simp only [ok_bind, List.drop_left]
  rw [if_neg (by omega)]

theorem decodePathLoop_encodePath {room : Nat} (bounded : path.length ≤ room)
    (fits : ∀ hop ∈ path, hop + 1 ≠ 0) (rest : List UInt8) :
    decodePathLoop room (encodePath path ++ rest) = .ok (path, rest) := by
  induction path generalizing room with
  | nil =>
    have round := decodePathLoop_append room 0 rest
    rw [if_pos rfl] at round
    exact round
  | cons hop path induction =>
    cases room with
    | zero => cases bounded
    | succ room =>
      have later :=
        @induction room (Nat.le_of_succ_le_succ bounded)
          (fun other member => fits other (by simp [member]))
      have split :
          encodePath (hop :: path) ++ rest =
            encodeUvarint (hop + 1) ++ (encodePath path ++ rest) := by
        simp [encodePath]
      rw [split, decodePathLoop_append, if_neg (fits hop (by simp))]
      simp only [later, ok_bind]
      simp

@[simp]
theorem decodePath_encodePath (fits : PathFits path) (rest : List UInt8) :
    decodePath (encodePath path ++ rest) = .ok (path, rest) :=
  decodePathLoop_encodePath fits.1 fits.2 rest

theorem decodePathLoop_fits {room : Nat}
    (decoded : decodePathLoop room data = .ok (path, rest)) :
    path.length ≤ room ∧ (∀ hop ∈ path, hop + 1 ≠ 0) ∧
      rest.length ≤ data.length := by
  induction room generalizing data path rest with
  | zero =>
    rw [decodePathLoop.eq_def] at decoded
    split_ifs at decoded
    rcases (bind_eq_ok_iff _ _ _).mp decoded with
      ⟨⟨value, consumed⟩, _, decoded⟩
    simp only at decoded
    split_ifs at decoded
    cases decoded
    simp
  | succ room induction =>
    rw [decodePathLoop.eq_def] at decoded
    split_ifs at decoded
    rcases (bind_eq_ok_iff _ _ _).mp decoded with
      ⟨⟨value, consumed⟩, _, decoded⟩
    simp only at decoded
    split_ifs at decoded with _ last
    · cases decoded
      simp
    · rcases (bind_eq_ok_iff _ _ _).mp decoded with
        ⟨⟨tail, after⟩, decodedTail, decoded⟩
      cases decoded
      rcases induction decodedTail with ⟨bounded, fits, shorter⟩
      rw [List.length_drop] at shorter
      refine ⟨Nat.succ_le_succ bounded, ?_, shorter.trans (Nat.sub_le _ _)⟩
      rintro hop (_ | ⟨_, member⟩)
      · intro wrapped
        apply last
        rw [← wrapped]
        simp
      · exact fits hop member

theorem length_le_of_decodePath (decoded : decodePath data = .ok (path, rest)) :
    rest.length ≤ data.length :=
  (decodePathLoop_fits decoded).2.2

theorem pathFits_of_decodePath (decoded : decodePath data = .ok (path, rest)) :
    PathFits path :=
  ⟨(decodePathLoop_fits decoded).1, (decodePathLoop_fits decoded).2.1⟩

/-! ## Path replies -/

/-- `PathNotify`. -/
structure PathNotify where
  target : Bytes 32
  source : Bytes 32
  id : UInt64
  path : List UInt64
  deriving DecidableEq

/-- `PathNotify::encode`. -/
def PathNotify.encode (notify : PathNotify) : List UInt8 :=
  pathNotifyType :: (notify.target.toList ++ (notify.source.toList ++
    (encodeUvarint notify.id ++ encodePath notify.path)))

/-- `PathNotify::decode`. -/
def PathNotify.decode (data : List UInt8) :
    Except FrameError PathNotify := do
  if data.length < 64 then
    .error .pathNotifyTooShort
  else
    let (target, data) ← readField 32 data
    let (source, data) ← readField 32 data
    let (id, data) ← readUvarint data
    let (path, _) ← decodePath data
    return { target, source, id, path }

theorem PathNotify.decode_encode {notify : PathNotify}
    (fits : PathFits notify.path) :
    PathNotify.decode notify.encode.tail = .ok notify := by
  have whole := decodePath_encodePath fits []
  rw [List.append_nil] at whole
  have long : ¬ notify.encode.tail.length < 64 := by
    simp only [encode, List.tail_cons, List.length_append, Bytes.length_toList]
    omega
  simp only [decode, if_neg long]
  simp [encode, whole]

theorem PathNotify.fits_of_decode {notify : PathNotify}
    (decoded : decode data = .ok notify) :
    PathFits notify.path := by
  unfold decode at decoded
  split_ifs at decoded
  rcases (bind_eq_ok_iff _ _ _).mp decoded with ⟨_, _, decoded⟩
  rcases (bind_eq_ok_iff _ _ _).mp decoded with ⟨_, _, decoded⟩
  rcases (bind_eq_ok_iff _ _ _).mp decoded with ⟨_, _, decoded⟩
  rcases (bind_eq_ok_iff _ _ _).mp decoded with ⟨_, read, decoded⟩
  cases decoded
  exact pathFits_of_decodePath read

/-- `PathBroken`. -/
structure PathBroken where
  target : Bytes 32
  source : Bytes 32
  id : UInt64
  deriving DecidableEq

/-- `PathBroken::encode`. -/
def PathBroken.encode (broken : PathBroken) : List UInt8 :=
  pathBrokenType :: (broken.target.toList ++ (broken.source.toList ++
    encodeUvarint broken.id))

/-- `PathBroken::decode`. -/
def PathBroken.decode (data : List UInt8) :
    Except FrameError PathBroken := do
  if data.length < 64 then
    .error .pathBrokenTooShort
  else
    let (target, data) ← readField 32 data
    let (source, data) ← readField 32 data
    let (id, _) ← readUvarint data
    return { target, source, id }

theorem PathBroken.decode_encode (broken : PathBroken) :
    PathBroken.decode broken.encode.tail = .ok broken := by
  have long : ¬ broken.encode.tail.length < 64 := by
    simp only [encode, List.tail_cons, List.length_append, Bytes.length_toList]
    omega
  simp only [decode, if_neg long]
  simp [encode]

/-- `PathNegative`. -/
structure PathNegative where
  routingTag : Bytes 16
  ttl : UInt8
  deriving DecidableEq

/-- `PathNegative::encode`. -/
def PathNegative.encode (negative : PathNegative) : List UInt8 :=
  pathNegativeType :: (negative.routingTag.toList ++ [negative.ttl])

/-- `PathNegative::decode`. -/
def PathNegative.decode (data : List UInt8) :
    Except FrameError PathNegative := do
  if data.length < 17 then
    .error .pathNegativeTooShort
  else
    let (routingTag, data) ← readField 16 data
    let (ttl, _) ← readByte data
    return { routingTag, ttl }

theorem PathNegative.decode_encode (negative : PathNegative) :
    PathNegative.decode negative.encode.tail = .ok negative := by
  have long : ¬ negative.encode.tail.length < 17 := by
    simp [encode]
  simp only [decode, if_neg long]
  simp [encode]

/-- `HolePunch::encode`. -/
def HolePunch.encode (punch : HolePunch) : List UInt8 :=
  holePunchType :: (punch.initiator.toList ++ (punch.target.toList ++
    ((u64ToLe punch.validFromMs).toList ++
      (clampedEndpoint punch.endpoint ++ punch.sig.toList))))

/-- `std::str::from_utf8`. -/
def fromUtf8 (bytes : List UInt8) : Option String := String.fromUTF8? ⟨⟨bytes⟩⟩

@[simp]
theorem fromUtf8_utf8 (text : String) :
    fromUtf8 (utf8 text) = some text := dif_pos text.isValidUTF8

theorem utf8_of_fromUtf8 {bytes : List UInt8} {text : String}
    (converted : fromUtf8 bytes = some text) : utf8 text = bytes := by
  unfold fromUtf8 String.fromUTF8? at converted
  split_ifs at converted
  cases converted
  rfl

/-- `HolePunch::decode`. -/
def HolePunch.decode (data : List UInt8) :
    Except FrameError HolePunch := do
  if data.length < 137 then
    .error (.holePunchTooShort data.length)
  else
    let (initiator, data) ← readField 32 data
    let (target, data) ← readField 32 data
    let (validFrom, data) ← readField 8 data
    let (endpointLen, data) ← readByte data
    if data.length < endpointLen.toNat + 64 then
      .error (.holePunchTruncated endpointLen.toNat data.length)
    else
      match fromUtf8 (data.take endpointLen.toNat) with
      | none => .error .holePunchNotUtf8
      | some endpoint =>
        let (sig, _) ← readField 64 (data.drop endpointLen.toNat)
        .ok
          { initiator, target, validFromMs := u64FromLe validFrom
            endpoint, sig }

theorem HolePunch.decode_encode {punch : HolePunch}
    (fits : (utf8 punch.endpoint).length ≤ 255) :
    HolePunch.decode punch.encode.tail = .ok punch := by
  have long : ¬ punch.encode.tail.length < 137 := by
    simp only [encode, List.tail_cons, List.length_append,
      Bytes.length_toList, length_clampedEndpoint]
    omega
  have written :
      (UInt8.ofNat (utf8 punch.endpoint).length).toNat =
        (utf8 punch.endpoint).length := by
    rw [UInt8.toNat_ofNat']
    omega
  simp only [decode, if_neg long]
  simp [encode, clampedEndpoint, Nat.min_eq_left fits, written]

theorem HolePunch.fits_of_decode {punch : HolePunch}
    (decoded : decode data = .ok punch) :
    (utf8 punch.endpoint).length ≤ 255 := by
  unfold decode at decoded
  split_ifs at decoded
  rcases (bind_eq_ok_iff _ _ _).mp decoded with ⟨_, _, decoded⟩
  rcases (bind_eq_ok_iff _ _ _).mp decoded with ⟨_, _, decoded⟩
  rcases (bind_eq_ok_iff _ _ _).mp decoded with ⟨_, _, decoded⟩
  rcases (bind_eq_ok_iff _ _ _).mp decoded with
    ⟨⟨endpointLen, after⟩, _, decoded⟩
  simp only at decoded
  split_ifs at decoded
  cases converted : fromUtf8 (after.take endpointLen.toNat) with
  | none =>
    rw [converted] at decoded
    cases decoded
  | some endpoint =>
    rw [converted] at decoded
    rcases (bind_eq_ok_iff _ _ _).mp decoded with ⟨_, _, decoded⟩
    cases decoded
    have bound := endpointLen.toNat_lt
    rw [utf8_of_fromUtf8 converted, List.length_take]
    omega

/-- `ONION_CELL_SIZE`. -/
def onionCellSize : Nat := 1280

/-- `OnionPacket`. -/
structure OnionPacket where
  routingTag : Bytes 16
  epk : Bytes 32
  aeadPayload : List UInt8
  deriving DecidableEq

/-- `OnionPacket::encode_unpadded`, with the type byte. -/
def OnionPacket.encodeUnpadded (packet : OnionPacket) : List UInt8 :=
  onionType :: (packet.routingTag.toList ++ (packet.epk.toList ++
    (encodeUvarint (UInt64.ofNat packet.aeadPayload.length) ++
      packet.aeadPayload)))

/-- `OnionPacket::encode`. -/
def OnionPacket.encode (packet : OnionPacket) : List UInt8 :=
  packet.encodeUnpadded ++
    List.replicate (onionCellSize - packet.encodeUnpadded.length) 0

/-- `OnionPacket::decode`. -/
def OnionPacket.decode (data : List UInt8) :
    Except FrameError OnionPacket := do
  if data.length < 48 then
    .error (.onionTooShort data.length)
  else
    let (routingTag, rest) ← readField 16 data
    let (epk, rest) ← readField 32 rest
    let (aeadLen, rest) ← readUvarint rest
    if onionCellSize < aeadLen.toNat then
      .error (.onionTooLong aeadLen.toNat)
    else if 2 ^ 64 ≤ data.length - rest.length + aeadLen.toNat then
      .error .onionOverflow
    else if rest.length < aeadLen.toNat then
      .error .onionTruncated
    else
      .ok { routingTag, epk, aeadPayload := rest.take aeadLen.toNat }

theorem OnionPacket.decode_unpadded_append
    (fits : packet.aeadPayload.length ≤ onionCellSize) (filler : List UInt8) :
    OnionPacket.decode (packet.encodeUnpadded.tail ++ filler) = .ok packet := by
  have written :
      (UInt64.ofNat packet.aeadPayload.length).toNat =
        packet.aeadPayload.length := by
    rw [UInt64.toNat_ofNat']
    unfold onionCellSize at fits
    omega
  have numberLength :=
    length_encodeUvarint_le (UInt64.ofNat packet.aeadPayload.length)
  have layout :
      packet.encodeUnpadded.tail ++ filler =
        packet.routingTag.toList ++ (packet.epk.toList ++
          (encodeUvarint (UInt64.ofNat packet.aeadPayload.length) ++
            (packet.aeadPayload ++ filler))) := by
    simp [encodeUnpadded]
  have long :
      ¬ (packet.routingTag.toList ++ (packet.epk.toList ++
          (encodeUvarint (UInt64.ofNat packet.aeadPayload.length) ++
            (packet.aeadPayload ++ filler)))).length < 48 := by
    simp only [List.length_append, Bytes.length_toList]
    omega
  simp only [decode, layout, if_neg long, readField_append, ok_bind,
    readUvarint_append, written, if_neg (Nat.not_lt.mpr fits)]
  rw [if_neg, if_neg (by simp), List.take_left' rfl]
  simp only [List.length_append, Bytes.length_toList]
  unfold onionCellSize at fits
  omega

theorem OnionPacket.decode_encode
    (fits : packet.aeadPayload.length ≤ onionCellSize) :
    OnionPacket.decode packet.encode.tail = .ok packet :=
  OnionPacket.decode_unpadded_append fits _

theorem OnionPacket.fits_of_decode (decoded : decode data = .ok packet) :
    packet.aeadPayload.length ≤ onionCellSize := by
  unfold decode at decoded
  split_ifs at decoded
  rcases (bind_eq_ok_iff _ _ _).mp decoded with ⟨_, _, decoded⟩
  rcases (bind_eq_ok_iff _ _ _).mp decoded with ⟨_, _, decoded⟩
  rcases (bind_eq_ok_iff _ _ _).mp decoded with ⟨_, _, decoded⟩
  simp only at decoded
  split_ifs at decoded
  cases decoded
  rw [List.length_take]
  omega

end Norn.Packet
