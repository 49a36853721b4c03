import Norn.Packet.Frames

/-!
# Announcements on the wire

Encoders and decoders of `packet.rs` for the announcements of the spanning
trees, of coordinates, of onion keys and capabilities, and for reputation
reports.  A decoder gets the bytes behind the type byte; `CoordAnnounce` is
written without one.

All fields but the numbers of an `Announce` have a fixed width, so what is
encoded is read back, whatever the values.
-/

namespace Norn.Packet

open Foundation

/-- `ANNOUNCE`. -/
def announceType : UInt8 := 4

/-- `TYPE_ONION_KEY_ANNOUNCE`. -/
def onionKeyAnnounceType : UInt8 := 12

/-- `TYPE_REPUTATION_REPORT`. -/
def reputationReportType : UInt8 := 13

/-- `TYPE_CAPABILITIES`. -/
def capabilitiesType : UInt8 := 0x11

/-- `Announce::encode`. -/
def Announce.encode (ann : Announce) : List UInt8 :=
  announceType :: ann.treeId :: (ann.root.toList ++
    (encodeUvarint ann.rootSeq ++ (encodeUvarint ann.pathCost ++
      (ann.sender.toList ++ (ann.signature.toList ++
        encodeUvarint ann.depth.toUInt64)))))

/-- The depth at the end of an `Announce`; a missing one is zero. -/
def Announce.decodeDepth (data : List UInt8) : Except FrameError UInt32 :=
  if data = [] then
    .ok 0
  else do
    let (depth, _) ← readUvarint data
    return depth.toUInt32

/-- `Announce::decode`. -/
def Announce.decode (data : List UInt8) : Except FrameError Announce := do
  if data.length < 33 then
    .error .announceTooShort
  else
    let (treeId, data) ← readByte data
    let (root, data) ← readField 32 data
    let (rootSeq, data) ← readUvarint data
    let (pathCost, data) ← readUvarint data
    if data.length < 96 then
      .error .announceNoSender
    else
      let (sender, data) ← readField 32 data
      let (signature, data) ← readField 64 data
      let depth ← Announce.decodeDepth data
      return { treeId, root, rootSeq, pathCost, sender, signature, depth }

theorem Announce.decodeDepth_encode (depth : UInt32) :
    Announce.decodeDepth (encodeUvarint depth.toUInt64) = .ok depth := by
  simp [decodeDepth, encodeUvarint_ne_nil]

theorem Announce.decode_encode (ann : Announce) :
    Announce.decode ann.encode.tail = .ok ann := by
  have long : ¬ ann.encode.tail.length < 33 := by
    simp only [encode, List.tail_cons, List.length_cons, List.length_append,
      Bytes.length_toList]
    omega
  have keyed :
      ¬ (ann.sender.toList ++ (ann.signature.toList ++
          encodeUvarint ann.depth.toUInt64)).length < 96 := by
    simp only [List.length_append, Bytes.length_toList]
    omega
  simp only [decode, if_neg long]
  simp only [encode, List.tail_cons, readByte_cons, readField_append,
    readUvarint_append, ok_bind, if_neg keyed, decodeDepth_encode]
  rfl

/-- `CoordAnnounce::encode_into`, into an empty buffer. -/
def CoordAnnounce.encodeInto (ann : CoordAnnounce) : List UInt8 :=
  ann.version :: (ann.coord.toList ++ ((u32ToLe ann.treeDepth).toList ++
    (ann.onionEphPub.toList ++ ann.sig.toList)))

/-- `CoordAnnounce::decode`. -/
def CoordAnnounce.decode (data : List UInt8) :
    Except FrameError CoordAnnounce := do
  if data.length < 117 then
    .error (.coordTooShort data.length)
  else
    let (version, data) ← readByte data
    if version ≠ coordFormatV5 then
      .error (.coordVersion version)
    else
      let (coord, data) ← readField 16 data
      let (treeDepth, data) ← readField 4 data
      let (onionEphPub, data) ← readField 32 data
      let (sig, _) ← readField 64 data
      .ok
        { version, coord, treeDepth := u32FromLe treeDepth, onionEphPub
          sig }

theorem CoordAnnounce.decode_encodeInto {ann : CoordAnnounce}
    (current : ann.version = coordFormatV5) :
    CoordAnnounce.decode ann.encodeInto = .ok ann := by
  have long : ¬ ann.encodeInto.length < 117 := by
    simp only [encodeInto, List.length_cons, List.length_append,
      Bytes.length_toList]
    omega
  simp only [decode, if_neg long]
  simp only [encodeInto, readByte_cons, ok_bind, current, ne_eq,
    not_true_eq_false, if_false, readField_append, readField_toList,
    u32FromLe_u32ToLe]
  rw [← current]

theorem CoordAnnounce.version_of_decode {data : List UInt8}
    {ann : CoordAnnounce} (decoded : decode data = .ok ann) :
    ann.version = coordFormatV5 := by
  unfold decode at decoded
  split_ifs at decoded
  rcases (bind_eq_ok_iff _ _ _).mp decoded with ⟨⟨version, after⟩, _, decoded⟩
  simp only at decoded
  split_ifs at decoded with other
  rcases (bind_eq_ok_iff _ _ _).mp decoded with ⟨_, _, decoded⟩
  rcases (bind_eq_ok_iff _ _ _).mp decoded with ⟨_, _, decoded⟩
  rcases (bind_eq_ok_iff _ _ _).mp decoded with ⟨_, _, decoded⟩
  rcases (bind_eq_ok_iff _ _ _).mp decoded with ⟨_, _, decoded⟩
  cases decoded
  exact not_not.mp other

/-- `OnionKeyAnnounce::encode`. -/
def OnionKeyAnnounce.encode (ann : OnionKeyAnnounce) : List UInt8 :=
  onionKeyAnnounceType :: (ann.origin.toList ++
    ((u64ToLe ann.seq).toList ++ ((u64ToLe ann.validFromMs).toList ++
      (ann.onionEphPub.toList ++ ann.sig.toList))))

/-- `OnionKeyAnnounce::decode`. -/
def OnionKeyAnnounce.decode (data : List UInt8) :
    Except FrameError OnionKeyAnnounce := do
  if data.length < 144 then
    .error (.onionKeyTooShort data.length)
  else
    let (origin, data) ← readField 32 data
    let (seq, data) ← readField 8 data
    let (validFrom, data) ← readField 8 data
    let (onionEphPub, data) ← readField 32 data
    let (sig, _) ← readField 64 data
    .ok
      { origin, seq := u64FromLe seq, validFromMs := u64FromLe validFrom
        onionEphPub, sig }

theorem OnionKeyAnnounce.decode_encode (ann : OnionKeyAnnounce) :
    OnionKeyAnnounce.decode ann.encode.tail = .ok ann := by
  have long : ¬ ann.encode.tail.length < 144 := by
    simp only [encode, List.tail_cons, List.length_append, Bytes.length_toList]
    omega
  simp only [decode, if_neg long]
  simp [encode]

/-- `CapabilityAnnounce::encode`. -/
def CapabilityAnnounce.encode (ann : CapabilityAnnounce) : List UInt8 :=
  capabilitiesType :: (ann.origin.toList ++ ((u32ToLe ann.caps).toList ++
    ((u64ToLe ann.seq).toList ++ ((u64ToLe ann.validFromMs).toList ++
      ann.sig.toList))))

/-- `CapabilityAnnounce::decode`. -/
def CapabilityAnnounce.decode (data : List UInt8) :
    Except FrameError CapabilityAnnounce := do
  if data.length < 116 then
    .error (.capabilityTooShort data.length)
  else
    let (origin, data) ← readField 32 data
    let (caps, data) ← readField 4 data
    let (seq, data) ← readField 8 data
    let (validFrom, data) ← readField 8 data
    let (sig, _) ← readField 64 data
    .ok
      { origin, caps := u32FromLe caps, seq := u64FromLe seq
        validFromMs := u64FromLe validFrom, sig }

theorem CapabilityAnnounce.decode_encode (ann : CapabilityAnnounce) :
    CapabilityAnnounce.decode ann.encode.tail = .ok ann := by
  have long : ¬ ann.encode.tail.length < 116 := by
    simp only [encode, List.tail_cons, List.length_append, Bytes.length_toList]
    omega
  simp only [decode, if_neg long]
  simp [encode]

/-- `ReputationReport::encode`. -/
def ReputationReport.encode (report : ReputationReport) : List UInt8 :=
  reputationReportType :: (report.observer.toList ++
    (report.observed.toList ++ ((u16ToLe report.scoreQ16).toList ++
      ((u64ToLe report.seq).toList ++
        ((u64ToLe report.validFromMs).toList ++ report.sig.toList)))))

/-- `ReputationReport::decode`. -/
def ReputationReport.decode (data : List UInt8) :
    Except FrameError ReputationReport := do
  if data.length < 146 then
    .error (.reputationTooShort data.length)
  else
    let (observer, data) ← readField 32 data
    let (observed, data) ← readField 32 data
    let (score, data) ← readField 2 data
    let (seq, data) ← readField 8 data
    let (validFrom, data) ← readField 8 data
    let (sig, _) ← readField 64 data
    .ok
      { observer, observed, scoreQ16 := u16FromLe score
        seq := u64FromLe seq, validFromMs := u64FromLe validFrom, sig }

theorem ReputationReport.decode_encode (report : ReputationReport) :
    ReputationReport.decode report.encode.tail = .ok report := by
  have long : ¬ report.encode.tail.length < 146 := by
    simp only [encode, List.tail_cons, List.length_append, Bytes.length_toList]
    omega
  simp only [decode, if_neg long]
  simp [encode]

end Norn.Packet
