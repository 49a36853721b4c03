import Norn.Control.Gossip
import Norn.Packet.Announcements

/-!
# Control frames on the wire

Encoders and decoders of `packet.rs` for the frames of link measurement,
filter gossip and path lookups.  A decoder gets the bytes behind the type
byte.
-/

namespace Norn.Control

open Foundation Packet

/-- `SIG_REQ`. -/
def sigReqType : UInt8 := 2

/-- `SIG_RES`. -/
def sigResType : UInt8 := 3

/-- `CUCKOO_FILTER`. -/
def cuckooFilterType : UInt8 := 5

/-- `PATH_LOOKUP`. -/
def pathLookupType : UInt8 := 6

/-! ## Link measurement -/

/-- `SigReq::encode`. -/
def SigReq.encode (req : SigReq) : List UInt8 :=
  sigReqType :: req.treeId :: (encodeUvarint req.seq ++
    (encodeUvarint req.timestampMs ++ req.pubKey.toList))

/-- `SigReq::decode`. -/
def SigReq.decode (data : List UInt8) : Except FrameError SigReq := do
  if data.length < 2 then
    .error .sigReqTooShort
  else
    let (treeId, data) ← readByte data
    let (seq, data) ← readUvarint data
    let (timestampMs, data) ← readUvarint data
    if data.length < 32 then
      .error .sigReqNoPubKey
    else
      let (pubKey, _) ← readField 32 data
      return { treeId, seq, timestampMs, pubKey }

theorem SigReq.decode_encode (req : SigReq) :
    SigReq.decode req.encode.tail = .ok req := by
  have long : ¬ req.encode.tail.length < 2 := by
    simp only [encode, List.tail_cons, List.length_cons, List.length_append,
      Bytes.length_toList]
    omega
  simp only [decode, if_neg long]
  simp [encode]

/-- `SigRes::encode`. -/
def SigRes.encode (res : SigRes) : List UInt8 :=
  sigResType :: res.treeId :: (encodeUvarint res.seq ++
    (encodeUvarint res.timestampMs ++ (res.signature.toList ++
      res.pubKey.toList)))

/-- `SigRes::decode`. -/
def SigRes.decode (data : List UInt8) : Except FrameError SigRes := do
  if data.length < 2 then
    .error .sigResTooShort
  else
    let (treeId, data) ← readByte data
    let (seq, data) ← readUvarint data
    let (timestampMs, data) ← readUvarint data
    if data.length < 96 then
      .error .sigResNoKey
    else
      let (signature, data) ← readField 64 data
      let (pubKey, _) ← readField 32 data
      return { treeId, seq, timestampMs, signature, pubKey }

theorem SigRes.decode_encode (res : SigRes) :
    SigRes.decode res.encode.tail = .ok res := by
  have long : ¬ res.encode.tail.length < 2 := by
    simp only [encode, List.tail_cons, List.length_cons, List.length_append,
      Bytes.length_toList]
    omega
  simp only [decode, if_neg long]
  simp [encode]

section Filters

variable {hash : Cuckoo.Blake2b64}

/-- `CuckooMsg::encode`. -/
def CuckooMsg.encode (msg : CuckooMsg (cuckooFilters hash)) : List UInt8 :=
  cuckooFilterType :: msg.treeId :: (encodeUvarint msg.generation ++
    Bytes.toList msg.data)

/-- `CuckooMsg::decode`. -/
def CuckooMsg.decode (hash : Cuckoo.Blake2b64) (data : List UInt8) :
    Except FrameError (CuckooMsg (cuckooFilters hash)) := do
  if data = [] then
    .error .cuckooTooShort
  else
    let (treeId, data) ← readByte data
    let (generation, data) ← readUvarint data
    if data.length < Cuckoo.filterBytes then
      .error (.cuckooDataTooShort data.length)
    else
      let (filter, _) ← readField Cuckoo.filterBytes data
      return { treeId, generation, data := filter }

theorem CuckooMsg.decode_encode (msg : CuckooMsg (cuckooFilters hash)) :
    CuckooMsg.decode hash msg.encode.tail = .ok msg := by
  have whole : ¬ (Bytes.toList msg.data).length < Cuckoo.filterBytes :=
    Nat.not_lt.mpr (Bytes.length_toList msg.data).ge
  have read :
      readField Cuckoo.filterBytes (Bytes.toList msg.data) =
        .ok (msg.data, []) :=
    @readField_toList Cuckoo.filterBytes msg.data
  simp only [decode, encode, List.tail_cons, if_neg (List.cons_ne_nil _ _),
    readByte_cons, readUvarint_append, ok_bind, if_neg whole]
  rw [read]
  rfl

end Filters

/-- `PathLookup::encode`. -/
def PathLookup.encode (lookup : PathLookup) : List UInt8 :=
  pathLookupType :: (lookup.target.toList ++ (lookup.source.toList ++
    (encodeUvarint lookup.id ++ encodePath lookup.path)))

/-- `PathLookup::decode`. -/
def PathLookup.decode (data : List UInt8) :
    Except FrameError PathLookup := do
  if data.length < 64 then
    .error .pathLookupTooShort
  else
    let (target, data) ← readField 32 data
    let (source, data) ← readField 32 data
    let (id, data) ← readUvarint data
    let (path, _) ← decodePath data
    return { target, source, id, path }

theorem PathLookup.decode_encode {lookup : PathLookup}
    (fits : PathFits lookup.path) :
    PathLookup.decode lookup.encode.tail = .ok lookup := by
  have whole := decodePath_encodePath fits []
  rw [List.append_nil] at whole
  have long : ¬ lookup.encode.tail.length < 64 := by
    simp only [encode, List.tail_cons, List.length_append, Bytes.length_toList]
    omega
  simp only [decode, if_neg long]
  simp [encode, whole]

theorem PathLookup.fits_of_decode {data : List UInt8}
    {lookup : PathLookup} (decoded : decode data = .ok lookup) :
    PathFits lookup.path := by
  unfold decode at decoded
  split_ifs at decoded
  rcases (bind_eq_ok_iff _ _ _).mp decoded with ⟨_, _, decoded⟩
  rcases (bind_eq_ok_iff _ _ _).mp decoded with ⟨_, _, decoded⟩
  rcases (bind_eq_ok_iff _ _ _).mp decoded with ⟨_, _, decoded⟩
  rcases (bind_eq_ok_iff _ _ _).mp decoded with ⟨_, read, decoded⟩
  cases decoded
  exact pathFits_of_decodePath read

end Norn.Control
