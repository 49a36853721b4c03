import Norn.Packet.Varint

/-!
# Signed messages of the wire format

The messages of `packet.rs` that carry an Ed25519 signature, with the bytes
the signature covers.  The bytes signed for a `SigRes` are put together in
`handle_sig_req` and once more in `handle_sig_res`.
-/

namespace Norn.Packet

open Foundation

/-- The bytes of a string, as `as_bytes` gives them. -/
def utf8 (text : String) : List UInt8 := text.toUTF8.data.toList

theorem utf8_injective : Function.Injective utf8 := by
  intro left right equal
  apply String.toByteArray_inj.mp
  apply ByteArray.ext
  exact Array.toList_inj.mp equal

/-- The bytes signed for a `SigRes` answering the key `reqPubKey`. -/
def sigResSignData (treeId : UInt8) (seq timestampMs : UInt64)
    (reqPubKey : Bytes 32) : List UInt8 :=
  treeId :: (encodeUvarint seq ++
    (encodeUvarint timestampMs ++ reqPubKey.toList))

/-- `Announce`. -/
structure Announce where
  treeId : UInt8
  root : Bytes 32
  rootSeq : UInt64
  pathCost : UInt64
  sender : Bytes 32
  signature : Bytes 64
  depth : UInt32
  deriving DecidableEq

/-- `Announce::sign_bytes`. -/
def Announce.signBytes (ann : Announce) : List UInt8 :=
  ann.treeId :: (ann.root.toList ++ (encodeUvarint ann.rootSeq ++
    (encodeUvarint ann.pathCost ++ (ann.sender.toList ++
      encodeUvarint ann.depth.toUInt64))))

/-- `CoordAnnounce`. -/
structure CoordAnnounce where
  version : UInt8
  coord : Bytes 16
  treeDepth : UInt32
  onionEphPub : Bytes 32
  sig : Bytes 64
  deriving DecidableEq

/-- `COORD_FORMAT_V5`. -/
def coordFormatV5 : UInt8 := 5

/-- `CoordAnnounce::sign_bytes`. -/
def CoordAnnounce.signBytes (ann : CoordAnnounce) : List UInt8 :=
  ann.version :: (ann.coord.toList ++
    ((u32ToLe ann.treeDepth).toList ++ ann.onionEphPub.toList))

/-- `OnionKeyAnnounce`. -/
structure OnionKeyAnnounce where
  origin : Bytes 32
  seq : UInt64
  validFromMs : UInt64
  onionEphPub : Bytes 32
  sig : Bytes 64
  deriving DecidableEq

/-- `OnionKeyAnnounce::sign_bytes`. -/
def OnionKeyAnnounce.signBytes (ann : OnionKeyAnnounce) : List UInt8 :=
  ann.origin.toList ++ ((u64ToLe ann.seq).toList ++
    ((u64ToLe ann.validFromMs).toList ++ ann.onionEphPub.toList))

/-- `CapabilityAnnounce`. -/
structure CapabilityAnnounce where
  origin : Bytes 32
  caps : UInt32
  seq : UInt64
  validFromMs : UInt64
  sig : Bytes 64
  deriving DecidableEq

/-- `CapabilityAnnounce::sign_bytes`. -/
def CapabilityAnnounce.signBytes (ann : CapabilityAnnounce) : List UInt8 :=
  ann.origin.toList ++ ((u32ToLe ann.caps).toList ++
    ((u64ToLe ann.seq).toList ++ (u64ToLe ann.validFromMs).toList))

/-- `ReputationReport`. -/
structure ReputationReport where
  observer : Bytes 32
  observed : Bytes 32
  scoreQ16 : UInt16
  seq : UInt64
  validFromMs : UInt64
  sig : Bytes 64
  deriving DecidableEq

/-- `ReputationReport::sign_bytes`. -/
def ReputationReport.signBytes (report : ReputationReport) : List UInt8 :=
  report.observer.toList ++ (report.observed.toList ++
    ((u16ToLe report.scoreQ16).toList ++ ((u64ToLe report.seq).toList ++
      (u64ToLe report.validFromMs).toList)))

/-- `HolePunch`. -/
structure HolePunch where
  initiator : Bytes 32
  target : Bytes 32
  validFromMs : UInt64
  endpoint : String
  sig : Bytes 64
  deriving DecidableEq

/-- The length byte and the endpoint behind it, cut off after 255 bytes. -/
def clampedEndpoint (endpoint : String) : List UInt8 :=
  let len := min (utf8 endpoint).length 255
  UInt8.ofNat len :: (utf8 endpoint).take len

/-- `HolePunch::sign_bytes`. -/
def HolePunch.signBytes (punch : HolePunch) : List UInt8 :=
  punch.initiator.toList ++ (punch.target.toList ++
    ((u64ToLe punch.validFromMs).toList ++ clampedEndpoint punch.endpoint))

theorem length_clampedEndpoint (endpoint : String) :
    (clampedEndpoint endpoint).length = 1 + min (utf8 endpoint).length 255 := by
  simp only [clampedEndpoint, List.length_cons, List.length_take]
  omega

theorem clampedEndpoint_inj {first second : String}
    (firstFits : (utf8 first).length ≤ 255)
    (secondFits : (utf8 second).length ≤ 255)
    (same : clampedEndpoint first = clampedEndpoint second) :
    first = second := by
  simp only [clampedEndpoint, Nat.min_eq_left firstFits,
    Nat.min_eq_left secondFits, List.take_length] at same
  exact utf8_injective (List.cons.inj same).2

end Norn.Packet
