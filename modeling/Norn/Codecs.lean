import Norn.Control.Wire
import Norn.Router.Wire

/-!
# The wire formats

The sixteen messages of `packet.rs` and `session.rs` that nodes exchange, each
with its encoder without the type byte, its decoder and the values that
survive being encoded.

A decoder takes more than the encoder writes: numbers may have redundant
groups, the coordinate of a `Traffic` may be marked by any byte but zero, the
depth of an `Announce` may be missing, and bytes may follow.  Whatever it
takes, the value can be encoded again and is read back.
-/

namespace Norn.Codecs

open Foundation Packet Control Router Session

/-- How a message is written and read, and which messages are written. -/
structure Codec where
  Message : Type
  Failure : Type
  /-- The encoding, without the type byte where there is one. -/
  body : Message → List UInt8
  decode : List UInt8 → Except Failure Message
  Fits : Message → Prop

/-- `isize::MAX`: no slice and no vector holds more bytes. -/
def sliceLimit : Nat := 2 ^ 63 - 1

/-- What was written is read back. -/
def Codec.Faithful (codec : Codec) : Prop :=
  ∀ message, codec.Fits message →
    codec.decode (codec.body message) = .ok message

/-- What is read can be written. -/
def Codec.Accepting (codec : Codec) : Prop :=
  ∀ data message, data.length ≤ sliceLimit →
    codec.decode data = .ok message → codec.Fits message

/-- The messages. -/
inductive WireKind where
  | sigReq
  | sigRes
  | announce
  | cuckooMsg
  | pathLookup
  | pathNotify
  | pathBroken
  | pathNegative
  | traffic
  | onionKeyAnnounce
  | holePunch
  | reputationReport
  | coordAnnounce
  | capabilityAnnounce
  | sessionInit
  | sessionAck
  deriving DecidableEq

/--
The codec of a message.  Paths have at most 1024 hops, none of them the
largest word; endpoints have at most 255 bytes; coordinates are announced in
the current format; a payload is a vector of bytes.
-/
def WireKind.codec (hash : Cuckoo.Blake2b64) : WireKind → Codec
  | .sigReq =>
    { Message := SigReq
      Failure := FrameError
      body := fun req => req.encode.tail
      decode := SigReq.decode
      Fits := fun _ => True }
  | .sigRes =>
    { Message := SigRes
      Failure := FrameError
      body := fun res => res.encode.tail
      decode := SigRes.decode
      Fits := fun _ => True }
  | .announce =>
    { Message := Announce
      Failure := FrameError
      body := fun ann => ann.encode.tail
      decode := Announce.decode
      Fits := fun _ => True }
  | .cuckooMsg =>
    { Message := CuckooMsg (cuckooFilters hash)
      Failure := FrameError
      body := fun msg => msg.encode.tail
      decode := CuckooMsg.decode hash
      Fits := fun _ => True }
  | .pathLookup =>
    { Message := PathLookup
      Failure := FrameError
      body := fun lookup => lookup.encode.tail
      decode := PathLookup.decode
      Fits := fun lookup => PathFits lookup.path }
  | .pathNotify =>
    { Message := PathNotify
      Failure := FrameError
      body := fun notify => notify.encode.tail
      decode := PathNotify.decode
      Fits := fun notify => PathFits notify.path }
  | .pathBroken =>
    { Message := PathBroken
      Failure := FrameError
      body := fun broken => broken.encode.tail
      decode := PathBroken.decode
      Fits := fun _ => True }
  | .pathNegative =>
    { Message := PathNegative
      Failure := FrameError
      body := fun negative => negative.encode.tail
      decode := PathNegative.decode
      Fits := fun _ => True }
  | .traffic =>
    { Message := Traffic
      Failure := FrameError
      body := fun traffic => traffic.encode.tail
      decode := Traffic.decode
      Fits := fun traffic =>
        PathFits traffic.path ∧ traffic.payload.length ≤ sliceLimit }
  | .onionKeyAnnounce =>
    { Message := OnionKeyAnnounce
      Failure := FrameError
      body := fun ann => ann.encode.tail
      decode := OnionKeyAnnounce.decode
      Fits := fun _ => True }
  | .holePunch =>
    { Message := HolePunch
      Failure := FrameError
      body := fun punch => punch.encode.tail
      decode := HolePunch.decode
      Fits := fun punch => (utf8 punch.endpoint).length ≤ 255 }
  | .reputationReport =>
    { Message := ReputationReport
      Failure := FrameError
      body := fun report => report.encode.tail
      decode := ReputationReport.decode
      Fits := fun _ => True }
  | .coordAnnounce =>
    { Message := CoordAnnounce
      Failure := FrameError
      body := CoordAnnounce.encodeInto
      decode := CoordAnnounce.decode
      Fits := fun ann => ann.version = coordFormatV5 }
  | .capabilityAnnounce =>
    { Message := CapabilityAnnounce
      Failure := FrameError
      body := fun ann => ann.encode.tail
      decode := CapabilityAnnounce.decode
      Fits := fun _ => True }
  | .sessionInit =>
    { Message := SessionInit
      Failure := HandshakeError
      body := HandshakeMessage.encode
      decode := HandshakeMessage.decode .init
      Fits := fun _ => True }
  | .sessionAck =>
    { Message := SessionAck
      Failure := HandshakeError
      body := HandshakeMessage.encode
      decode := HandshakeMessage.decode .ack
      Fits := fun _ => True }

theorem faithful (hash : Cuckoo.Blake2b64) (kind : WireKind) :
    (kind.codec hash).Faithful := by
  intro message fits
  cases kind with
  | sigReq => exact SigReq.decode_encode message
  | sigRes => exact SigRes.decode_encode message
  | announce => exact Announce.decode_encode message
  | cuckooMsg => exact CuckooMsg.decode_encode message
  | pathLookup => exact PathLookup.decode_encode fits
  | pathNotify => exact PathNotify.decode_encode fits
  | pathBroken => exact PathBroken.decode_encode message
  | pathNegative => exact PathNegative.decode_encode message
  | traffic =>
    exact Traffic.decode_encode_of_length_lt fits.1
      (Nat.lt_of_le_of_lt fits.2 (by decide))
  | onionKeyAnnounce => exact OnionKeyAnnounce.decode_encode message
  | holePunch => exact HolePunch.decode_encode fits
  | reputationReport => exact ReputationReport.decode_encode message
  | coordAnnounce => exact CoordAnnounce.decode_encodeInto fits
  | capabilityAnnounce => exact CapabilityAnnounce.decode_encode message
  | sessionInit => exact HandshakeMessage.decode_encode message
  | sessionAck => exact HandshakeMessage.decode_encode message

theorem accepting (hash : Cuckoo.Blake2b64) (kind : WireKind) :
    (kind.codec hash).Accepting := by
  intro data message short decoded
  cases kind with
  | pathLookup => exact PathLookup.fits_of_decode decoded
  | pathNotify => exact PathNotify.fits_of_decode decoded
  | traffic =>
    have bounds := Traffic.bounds_of_decode decoded
    exact ⟨bounds.1, bounds.2.trans short⟩
  | holePunch => exact HolePunch.fits_of_decode decoded
  | coordAnnounce => exact CoordAnnounce.version_of_decode decoded
  | _ => trivial

/--
Every message within the limits of its format is decoded from its encoding;
whatever is decoded from any bytes is within the limits, so that it is decoded
from its own encoding as well.
-/
theorem wire_formats_round_trip (hash : Cuckoo.Blake2b64) (kind : WireKind) :
    (∀ message, (kind.codec hash).Fits message →
      (kind.codec hash).decode ((kind.codec hash).body message) = .ok message) ∧
    ∀ data message, data.length ≤ sliceLimit →
      (kind.codec hash).decode data = .ok message →
        (kind.codec hash).Fits message ∧
          (kind.codec hash).decode ((kind.codec hash).body message) =
            .ok message := by
  constructor
  · exact faithful hash kind
  · intro data message short decoded
    have fits := accepting hash kind data message short decoded
    exact ⟨fits, faithful hash kind message fits⟩

end Norn.Codecs
