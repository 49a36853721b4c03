import Norn.Address
import Norn.Foundation.KeyedMap
import Norn.Foundation.Run
import Norn.Router.Payloads

/-!
# The TUN adapter

`tun.rs` bridges IPv6 packets between the kernel and the overlay.  One loop
reads packets from the device, checks that they are IPv6 packets for an
address of the overlay and writes them to the node that has the address.  The
other loop writes every payload that arrives from the overlay to the device.

`address.rs` derives the address of a node from the hash of its key, which is
an argument here.  A hash with too many leading ones makes the derivation
panic; the loop in which that happens ends, and the lock of the key store is
poisoned if it was held.
-/

namespace Norn.Tun

open Foundation Foundation.Run Router Session
open Address (addrFromHash)

/-- `address_from_key`. -/
def addressFromKey (keyHash : Bytes 32 → Bytes 64) (pubKey : Bytes 32) :
    Option (Bytes 16) :=
  addrFromHash (keyHash pubKey)

/-- `KeyStore`, which a panic under its lock poisons. -/
structure KeyStore where
  addrToKey : KeyedMap (Bytes 16) (Bytes 32)
  poisoned : Bool

namespace KeyStore

/-- `KeyStore::new`. -/
def new : KeyStore where
  addrToKey := .empty
  poisoned := false

/-- `KeyStore::register` under the lock; without an address it panics. -/
def register (keyHash : Bytes 32 → Bytes 64) (self : KeyStore)
    (pubKey : Bytes 32) : Option (Bytes 16) × KeyStore :=
  if self.poisoned then (none, self)
  else
    match addressFromKey keyHash pubKey with
    | none => (none, { self with poisoned := true })
    | some addr =>
      (some addr,
        { self with addrToKey := self.addrToKey.insert addr pubKey })

/-- `KeyStore::key_for_addr`. -/
def keyForAddr (self : KeyStore) (addr : Bytes 16) : Option (Bytes 32) :=
  self.addrToKey.lookup addr

end KeyStore

/-- The big-endian words of a byte string; a last byte is a high one. -/
def bigEndianWords : List UInt8 → List Nat
  | [] => []
  | [high] => [high.toNat * 256]
  | high :: low :: rest =>
    (high.toNat * 256 + low.toNat) :: bigEndianWords rest

/-- The carries of a sum are added to it until none is left. -/
def foldCarries (sum : Nat) : Nat :=
  if sum < 65536 then sum else foldCarries (sum % 65536 + sum / 65536)
termination_by sum
decreasing_by omega

/-- `internet_checksum`. -/
def internetChecksum (data : List UInt8) : Nat :=
  65535 - foldCarries (bigEndianWords data).sum

/-- A number as two bytes, the high one first. -/
def twoBytes (value : Nat) : List UInt8 :=
  [UInt8.ofNat (value / 256), UInt8.ofNat value]

/-- `icmpv6_dest_unreachable`. -/
def icmpv6DestUnreachable (ourAddr : Bytes 16) (origPkt : List UInt8) :
    Option (List UInt8) :=
  if origPkt.length < 40 then none
  else
    let origSrc := (origPkt.drop 8).take 16
    let orig := origPkt.take (1280 - 40 - 8)
    let icmpv6Len := 8 + orig.length
    let header :=
      0x60 :: 0 :: 0 :: 0 :: (twoBytes icmpv6Len ++
        (58 :: 64 :: (ourAddr.toList ++ origSrc)))
    let body (checksum : List UInt8) :=
      1 :: 0 :: (checksum ++ (0 :: 0 :: 0 :: 0 :: orig))
    let pseudo :=
      ourAddr.toList ++ (origSrc ++ (twoBytes (icmpv6Len / 65536) ++
        (twoBytes icmpv6Len ++ [0, 0, 0, 58])))
    let checksum := internetChecksum (pseudo ++ body [0, 0])
    some (header ++ body (twoBytes checksum))

/-! ## The adapter -/

/-- What the two loops of `start` share. -/
structure TunAdapter where
  ourAddr : Bytes 16
  keyStore : KeyStore
  /-- The loop from the device to the overlay runs. -/
  outbound : Bool
  /-- The loop from the overlay to the device runs. -/
  inbound : Bool

/-- What a loop does. -/
inductive TunOutput where
  /-- A call of `write_to`. -/
  | writeTo (pkt : List UInt8) (key : Bytes 32)
  /-- An answer is written to the device. -/
  | unreachable (reply : List UInt8)
  /-- The payload of a packet is written to the device. -/
  | device (packet : InboundPacket)
  deriving DecidableEq

/--
What happens: the device is read while the given peers are connected, a packet
arrives from the overlay, `read_from` fails, other code registers a key.
-/
inductive TunEvent where
  | read (bytes : List UInt8) (peerKeys : List (Bytes 32))
  | packet (packet : InboundPacket)
  | closed
  | register (key : Bytes 32)

/-- A packet as it was read, without a packet information header. -/
def ipv6Part (bytes : List UInt8) : Option (List UInt8) :=
  if bytes.headD 0 >>> 4 = 6 then some bytes
  else if 4 < bytes.length ∧ (bytes.drop 4).headD 0 >>> 4 = 6 then
    some (bytes.drop 4)
  else none

/-- The search among the connected peers; without a result it panics. -/
def findPeer (keyHash : Bytes 32 → Bytes 64) (dest : Bytes 16) :
    List (Bytes 32) → Option (Option (Bytes 32))
  | [] => some none
  | key :: rest =>
    match addressFromKey keyHash key with
    | none => none
    | some addr =>
      if addr = dest then some (some key)
      else findPeer keyHash dest rest

namespace TunAdapter

variable (keyHash : Bytes 32 → Bytes 64)

/-- The key of a destination, from the store or among the peers. -/
def resolve (self : TunAdapter) (dest : Bytes 16) (peerKeys : List (Bytes 32)) :
    Option (Option (Bytes 32)) × TunAdapter :=
  if self.keyStore.poisoned then (none, self)
  else
    match self.keyStore.keyForAddr dest with
    | some key => (some (some key), self)
    | none =>
      match findPeer keyHash dest peerKeys with
      | some (some key) =>
        (some (some key),
          { self with
            keyStore := (self.keyStore.register keyHash key).2 })
      | found => (found, self)

/-- One round of the loop from the device to the overlay. -/
def forward (self : TunAdapter) (bytes : List UInt8)
    (peerKeys : List (Bytes 32)) : TunAdapter × List TunOutput :=
  if bytes.isEmpty then ({ self with outbound := false }, [])
  else
    match ipv6Part bytes with
    | none => (self, [])
    | some pkt =>
      if pkt.length < 40 then (self, [])
      else
        match Bytes.sliceAt pkt 24 16 with
        | .error _ => ({ self with outbound := false }, [])
        | .ok dest =>
          if dest.toList.headD 0 ≠ 0x02 then (self, [])
          else
            match self.resolve keyHash dest peerKeys with
            | (none, self) => ({ self with outbound := false }, [])
            | (some (some key), self) => (self, [.writeTo pkt key])
            | (some none, self) =>
              (self,
                (icmpv6DestUnreachable self.ourAddr
                  pkt).toList.map .unreachable)

/-- One round of the loop from the overlay to the device. -/
def deliver (self : TunAdapter) (packet : InboundPacket) :
    TunAdapter × List TunOutput :=
  match self.keyStore.register keyHash packet.fromPeer with
  | (none, keyStore) => ({ self with keyStore, inbound := false }, [])
  | (some _, keyStore) => ({ self with keyStore }, [.device packet])

/-- What an event does. -/
def perform (self : TunAdapter) : TunEvent → TunAdapter × List TunOutput
  | .read bytes peerKeys =>
    if self.outbound then self.forward keyHash bytes peerKeys
    else (self, [])
  | .packet packet =>
    if self.inbound then self.deliver keyHash packet else (self, [])
  | .closed => ({ self with inbound := false }, [])
  | .register key =>
    ({ self with
       keyStore := (self.keyStore.register keyHash key).2 }, [])

end TunAdapter

/-- An adapter and what it has done, latest first. -/
structure TunTrace where
  adapter : TunAdapter
  outputs : List TunOutput

/-- One step of the adapter. -/
def tunStep (keyHash : Bytes 32 → Bytes 64) (trace : TunTrace)
    (event : TunEvent) : TunTrace where
  adapter := (trace.adapter.perform keyHash event).1
  outputs := (trace.adapter.perform keyHash event).2.reverse ++ trace.outputs

/-! ## Authentic packets -/

/-- The source address of an IPv6 packet. -/
def sourceAddress (pkt : List UInt8) : Option (Bytes 16) :=
  (Bytes.sliceAt pkt 8 16).toOption

/-- An IPv6 packet, by its version and its length. -/
def IsIpv6 (pkt : List UInt8) : Prop := pkt.headD 0 >>> 4 = 6 ∧ 40 ≤ pkt.length

instance (pkt : List UInt8) : Decidable (IsIpv6 pkt) :=
  inferInstanceAs (Decidable (_ ∧ _))

/-- A packet from the address of its sender. -/
def Authentic (keyHash : Bytes 32 → Bytes 64) (packet : InboundPacket) :
    Prop :=
  IsIpv6 packet.payload ∧
    sourceAddress packet.payload = addressFromKey keyHash packet.fromPeer

instance (keyHash : Bytes 32 → Bytes 64) (packet : InboundPacket) :
    Decidable (Authentic keyHash packet) :=
  inferInstanceAs (Decidable (_ ∧ _))

/--
A packet that the adapter of its sender has read from a device: the kernel
there had put the address of the node into it, the adapter wrote it to the
overlay, and the frame of this write was delivered.
-/
def Relayed (P : Primitives) (keyHash : Bytes 32 → Bytes 64)
    (packet : InboundPacket) : Prop :=
  ∃ (sender : TunAdapter) (bytes : List UInt8)
    (peerKeys : List (Bytes 32)) (pkt : List UInt8) (dst : Bytes 32),
    addressFromKey keyHash packet.fromPeer = some sender.ourAddr ∧
      TunOutput.writeTo pkt dst ∈
        (sender.perform keyHash (.read bytes peerKeys)).2 ∧
      sourceAddress pkt = some sender.ourAddr ∧
      ∃ (caller : Caller) (hop : Bytes 32) (frame : Traffic)
        (receiver : RouterState P) (env : FrameEnv P)
        (fromPeer : Bytes 32) (cell : Nat),
        Becomes pkt dst (.sending caller hop frame : Task P) ∧
          Event.delivered cell packet ∈
            (receiver.handleTraffic env fromPeer frame).2

section Adapter

variable {P : Primitives} {keyHash : Bytes 32 → Bytes 64}

variable {bytes pkt : List UInt8} {packet : InboundPacket}

theorem isIpv6_of_ipv6Part (found : ipv6Part bytes = some pkt) :
    pkt.headD 0 >>> 4 = 6 := by
  unfold ipv6Part at found
  split_ifs at found with plain shifted
  · cases found
    exact plain
  · cases found
    exact shifted.2

theorem outputs_forward {sender : TunAdapter} {peerKeys : List (Bytes 32)}
    {output : TunOutput}
    (member : output ∈ (sender.forward keyHash bytes peerKeys).2) :
    (∃ pkt key, output = .writeTo pkt key ∧ IsIpv6 pkt) ∨
      ∃ reply, output = .unreachable reply := by
  unfold TunAdapter.forward at member
  split_ifs at member
  · exact (List.not_mem_nil member).elim
  · split at member
    · exact (List.not_mem_nil member).elim
    · rename_i pkt found
      split_ifs at member with short
      · exact (List.not_mem_nil member).elim
      · split at member
        · exact (List.not_mem_nil member).elim
        · split_ifs at member
          · exact (List.not_mem_nil member).elim
          · split at member
            · exact (List.not_mem_nil member).elim
            · rw [List.mem_singleton] at member
              exact
                .inl
                  ⟨_, _, member, isIpv6_of_ipv6Part found, Nat.not_lt.mp short⟩
            · rcases List.mem_map.mp member with ⟨reply, _, same⟩
              exact .inr ⟨reply, same.symm⟩

theorem isIpv6_of_written {sender : TunAdapter} {peerKeys : List (Bytes 32)}
    {dst : Bytes 32}
    (written :
      TunOutput.writeTo pkt dst ∈
        (sender.perform keyHash (.read bytes peerKeys)).2) :
    IsIpv6 pkt := by
  simp only [TunAdapter.perform] at written
  split_ifs at written
  · rcases outputs_forward written with ⟨other, key, same, ipv6⟩ | ⟨reply, same⟩
    · cases same
      exact ipv6
    · cases same
  · exact (List.not_mem_nil written).elim

theorem header_take (ipv6 : IsIpv6 pkt) :
    IsIpv6 (pkt.take maxPadded) ∧
      sourceAddress (pkt.take maxPadded) = sourceAddress pkt := by
  rcases ipv6 with ⟨version, long⟩
  have inside : 8 + 16 ≤ maxPadded := by
    decide
  constructor
  · constructor
    · rw [← version]
      cases pkt with
      | nil =>
        rfl
      | cons first rest =>
        rfl
    · rw [List.length_take]
      exact Nat.le_min.mpr ⟨by decide, long⟩
  · rw [sourceAddress, Bytes.sliceAt_take inside, sourceAddress]

theorem authentic_of_relayed (fixed : P.DhFixed) (correct : P.AeadCorrect)
    (ideal : P.AeadIdeal) (relayed : Relayed P keyHash packet) :
    Authentic keyHash packet := by
  rcases relayed with
    ⟨sender, bytes, peerKeys, pkt, dst, own, written, source, caller,
      hop, frame, receiver, env, fromPeer, cell, sends, delivered⟩
  have arrived : packet.payload = pkt.take maxPadded :=
    delivered_payload_eq fixed correct ideal sends.holds delivered
  rcases header_take (isIpv6_of_written written) with ⟨ipv6, same⟩
  rw [Authentic, arrived, own, same, source]
  exact ⟨ipv6, rfl⟩

theorem arrived_of_device {adapter : TunAdapter} {event : TunEvent}
    (written : TunOutput.device packet ∈ (adapter.perform keyHash event).2) :
    event = .packet packet := by
  cases event with
  | read bytes peerKeys =>
    simp only [TunAdapter.perform] at written
    split_ifs at written
    · rcases outputs_forward written with ⟨pkt, key, same, _⟩ | ⟨reply, same⟩
      · cases same
      · cases same
    · exact (List.not_mem_nil written).elim
  | packet arrived =>
    simp only [TunAdapter.perform] at written
    split_ifs at written
    · unfold TunAdapter.deliver at written
      split at written
      · exact (List.not_mem_nil written).elim
      · rw [List.mem_singleton] at written
        cases written
        rfl
    · exact (List.not_mem_nil written).elim
  | closed =>
    exact (List.not_mem_nil written).elim
  | register key =>
    exact (List.not_mem_nil written).elim

theorem arrived_of_outputs {events : List TunEvent} {trace : TunTrace}
    (written :
      TunOutput.device packet ∈ (run (tunStep keyHash) trace events).outputs) :
    TunOutput.device packet ∈ trace.outputs ∨
      TunEvent.packet packet ∈ events := by
  induction events generalizing trace with
  | nil =>
    exact .inl written
  | cons event events inductionHypothesis =>
    rcases inductionHypothesis written with before | after
    · rcases List.mem_append.mp before with now | earlier
      · rw [arrived_of_device (List.mem_reverse.mp now)]
        exact .inr (List.mem_cons_self ..)
      · exact .inl earlier
    · exact .inr (List.mem_cons_of_mem _ after)

/--
While the senders are adapters whose kernels use the addresses of their nodes,
every packet that the loop writes to the device is an IPv6 packet from the
address of the key that the session layer has authenticated.
-/
theorem written_to_device_authentic (fixed : P.DhFixed)
    (correct : P.AeadCorrect) (ideal : P.AeadIdeal)
    (adapter : TunAdapter) (events : List TunEvent)
    (relayed :
      ∀ packet, TunEvent.packet packet ∈ events → Relayed P keyHash packet)
    {packet : InboundPacket}
    (written :
      TunOutput.device packet ∈
        (run (tunStep keyHash) ⟨adapter, []⟩ events).outputs) :
    Authentic keyHash packet := by
  rcases arrived_of_outputs written with before | arrived
  · exact (List.not_mem_nil before).elim
  · exact authentic_of_relayed fixed correct ideal (relayed packet arrived)

end Adapter

/-! ## A packet from a peer and one in the name of another node -/

/-- Sample hash: the key, twice. -/
def twice (key : Bytes 32) : Bytes 64 := ⟨key.toList ++ key.toList, by simp⟩

/-- The address of a sample key. -/
def sampleAddress (byte : UInt8) : Bytes 16 :=
  (addressFromKey twice (Bytes.replicate 32 byte)).getD (Bytes.replicate 16 0)

/-- An IPv6 packet without a payload. -/
def emptyPacket (source destination : Bytes 16) : List UInt8 :=
  0x60 :: 0 :: 0 :: 0 :: 0 :: 0 :: 59 :: 64 ::
    (source.toList ++ destination.toList)

/-- The adapter of a sample node. -/
def sampleAdapter (byte : UInt8) : TunAdapter where
  ourAddr := sampleAddress byte
  keyStore := .new
  outbound := true
  inbound := true

theorem payload_arrives (payload : List UInt8)
    (short : payload.length ≤ maxPadded) :
    ∃ (frame : Traffic) (receiver : RouterState Primitives.compact),
      Becomes payload (Bytes.replicate 32 64)
          (.sending .writeTo (Bytes.replicate 32 9) frame : Task
            Primitives.compact) ∧
        Event.delivered 0 ⟨Bytes.replicate 32 2, payload⟩ ∈
          (receiver.handleTraffic (sampleFrameEnv 30 31 32)
            (Bytes.replicate 32 9) frame).2 := by
  have encrypted := peerSession_encrypts_any payload
  have delivered := answeringRouter_delivers encrypted
  rw [List.take_of_length_le short] at delivered
  refine ⟨_, answeringRouter, becomes_writtenFrame encrypted, ?_⟩
  rw [delivered]
  exact List.mem_singleton_self _

/-- The packet of the peer, from its own address. -/
def ownPacket : InboundPacket where
  fromPeer := Bytes.replicate 32 2
  payload := emptyPacket (sampleAddress 2) (sampleAddress 64)

theorem ownPacket_relayed : Relayed Primitives.compact twice ownPacket := by
  rcases payload_arrives ownPacket.payload (by decide +kernel) with
    ⟨frame, receiver, sends, delivered⟩
  refine
    ⟨sampleAdapter 2, ownPacket.payload, [Bytes.replicate 32 64],
      ownPacket.payload, Bytes.replicate 32 64, ?_, ?_, ?_, .writeTo,
      Bytes.replicate 32 9, frame, receiver, sampleFrameEnv 30 31 32,
      Bytes.replicate 32 9, 0, sends, delivered⟩
  · decide +kernel
  · decide +kernel
  · decide +kernel

/-- A packet from the address of its sender is written to the device. -/
theorem ownPacket_authentic :
    TunOutput.device ownPacket ∈
        (run (tunStep twice) ⟨sampleAdapter 64, []⟩
          [.packet ownPacket]).outputs ∧
      Authentic twice ownPacket := by
  have written :
      TunOutput.device ownPacket ∈
        (run (tunStep twice) ⟨sampleAdapter 64, []⟩
          [.packet ownPacket]).outputs := by
    decide +kernel
  refine ⟨written, ?_⟩
  refine
    written_to_device_authentic Primitives.compact_dhFixed
      Primitives.compact_aeadCorrect Primitives.compact_aeadIdeal
      (sampleAdapter 64) [.packet ownPacket] ?_ written
  intro packet member
  rw [List.mem_singleton] at member
  cases member
  exact ownPacket_relayed

/-- The packet of the peer, in the name of another node. -/
def spoofedPacket : InboundPacket where
  fromPeer := Bytes.replicate 32 2
  payload := emptyPacket (sampleAddress 3) (sampleAddress 64)

/-- Three bytes, which are no packet at all. -/
def shortPacket : InboundPacket where
  fromPeer := Bytes.replicate 32 2
  payload := [1, 2, 3]

/--
The payload arrives in the name of its sender, the loop writes it to the
device, and it is no packet from an address of the sender.
-/
def Misleads (packet : InboundPacket) : Prop :=
  (∃ (frame : Traffic) (receiver : RouterState Primitives.compact),
    Becomes packet.payload (Bytes.replicate 32 64)
        (.sending .writeTo (Bytes.replicate 32 9) frame :
          Task Primitives.compact) ∧
      Event.delivered 0 packet ∈
        (receiver.handleTraffic (sampleFrameEnv 30 31 32)
          (Bytes.replicate 32 9) frame).2) ∧
    TunOutput.device packet ∈
      (run (tunStep twice) ⟨sampleAdapter 64, []⟩
        [.packet spoofedPacket, .packet shortPacket]).outputs ∧
    ¬ Authentic twice packet

theorem misleads_of_mem {packet : InboundPacket}
    (member : packet ∈ [spoofedPacket, shortPacket]) :
    Misleads packet := by
  have facts :
      packet.fromPeer = Bytes.replicate 32 2 ∧
        packet.payload.length ≤ maxPadded ∧
        TunOutput.device packet ∈
          (run (tunStep twice) ⟨sampleAdapter 64, []⟩
            [.packet spoofedPacket, .packet shortPacket]).outputs ∧
        ¬ Authentic twice packet := by
    revert packet
    decide +kernel
  rcases facts with ⟨sender, short, written, spoofed⟩
  rcases payload_arrives packet.payload short with
    ⟨frame, receiver, sends, delivered⟩
  rw [← sender] at delivered
  exact ⟨⟨frame, receiver, sends, delivered⟩, written, spoofed⟩

/-- Both payloads arrive, and the loop writes them to the device. -/
theorem spoofed_packet_written :
    Misleads spoofedPacket ∧ Misleads shortPacket :=
  ⟨misleads_of_mem List.mem_cons_self,
    misleads_of_mem (List.mem_cons_of_mem _ List.mem_cons_self)⟩

end Norn.Tun
