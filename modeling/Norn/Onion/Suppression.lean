import Norn.Onion.Handlers
import Norn.Router.HopBound
import Norn.Sphinx.RoundTrip

/-!
# Cells that fail authentication and the cells that do not

Two sequences of cells that differ by cells which fail authentication.  The
handlers record the digest of a cell before they look at anything else, so
such a cell may take the place of an authentic one in the replay cache: it may
have the digest of an authentic cell, which covers the first bytes of the
payload only, and it may push the digest of an authentic cell out of the
cache.

Where it does neither, the authentic cells fare the same in both runs.  Each
run is compared with the run of the cells that both sequences have: its cache
holds the digests of those cells, with more digests recorded after them.
-/

namespace Norn.Onion

open Foundation Packet Router Sphinx HopNode

variable {interest : Bytes 32 → Prop}

/-- A cell, the peer it comes from and the surroundings it is handled in. -/
structure Arrival (P : Primitives) (F : Floats) where
  env : RelayEnv P F
  fromPeer : Bytes 32
  cell : Cell

/-- One of the two sequences. -/
inductive Side where
  | first
  | second
  deriving DecidableEq

/-- The sequences that an arrival belongs to. -/
inductive Mark where
  | shared
  | extra (side : Side)
  deriving DecidableEq

/-- The arrivals of one of the sequences. -/
def Side.takes (side : Side) : Mark → Bool
  | .shared => true
  | .extra other => side = other

/-- The arrivals of both sequences. -/
def takesShared : Mark → Bool
  | .shared => true
  | .extra _ => false

variable {P : Primitives} {F : Floats} (S : SphinxCrypto)

/-- The arrival is given to its handler. -/
def HopNode.receive (self : HopNode P F) (arrival : Arrival P F) :
    HopNode P F × CellOutcome × Outgoing :=
  self.handle S arrival.env arrival.fromPeer arrival.cell

/-- Which of the arrivals are forwarded or delivered in a run. -/
def passedOn (takes : Mark → Bool) :
    HopNode P F → List (Mark × Arrival P F) → List Bool
  | _, [] => []
  | hop, (mark, arrival) :: rest =>
    if takes mark then
      let result := hop.receive S arrival
      result.2.1.passed :: passedOn takes result.1 rest
    else
      false :: passedOn takes hop rest

/-- The digest is that of a shared cell. -/
def Awaited (arrivals : List (Mark × Arrival P F)) (digest : Bytes 32) :
    Prop :=
  ∃ arrival, (Mark.shared, arrival) ∈ arrivals ∧
    digest ∈ arrival.cell.digest S

/--
In the run with the extra cells of a side, none of them records the digest of
a shared cell that is still to come, and no shared cell comes again after they
have pushed its digest out of the cache: the run with them has it if the run
without them does.
-/
def Harmless (side : Side) :
    HopNode P F → HopNode P F → List (Mark × Arrival P F) → Prop
  | _, _, [] => True
  | base, hop, (.shared, arrival) :: rest =>
    (∀ digest ∈ arrival.cell.digest S,
      digest ∈ base.onionSeen.keys → digest ∈ hop.onionSeen.keys) ∧
      Harmless side (base.receive S arrival).1 (hop.receive S arrival).1 rest
  | base, hop, (.extra other, arrival) :: rest =>
    if side = other then
      (∀ digest ∈ arrival.cell.digest S,
        digest ∉ hop.onionSeen.keys → ¬ Awaited S rest digest) ∧
        Harmless side base (hop.receive S arrival).1 rest
    else
      Harmless side base hop rest

/-- A node that has handled extra cells beside one that has not. -/
structure Shadows (interest : Bytes 32 → Prop) (base hop : HopNode P F) :
    Prop where
  keys : hop.onionKeys = base.onionKeys
  routing : hop.node.routing = base.node.routing
  covers : RecentKeys.Covers interest hop.onionSeen base.onionSeen

theorem Shadows.mono {narrower : Bytes 32 → Prop} {base hop : HopNode P F}
    (shadows : Shadows interest base hop)
    (narrows : ∀ digest, narrower digest → interest digest) :
    Shadows narrower base hop :=
  ⟨shadows.keys, shadows.routing, shadows.covers.mono narrows⟩

theorem Shadows.extra {base hop : HopNode P F}
    (shadows : Shadows interest base hop) {arrival : Arrival P F}
    (boring :
      ∀ digest ∈ arrival.cell.digest S,
        digest ∉ hop.onionSeen.keys → ¬ interest digest) :
    Shadows interest base (hop.receive S arrival).1 where
  keys := (hop.onionKeys_handle S _ _ _).trans shadows.keys
  routing := (hop.routing_handle S _ _ _).trans shadows.routing
  covers := by
    unfold HopNode.receive
    rw [onionSeen_handle]
    unfold cacheAfter
    cases digested : arrival.cell.digest S with
    | none => exact shadows.covers
    | some digest =>
      exact shadows.covers.seen_longer (boring digest digested)

theorem Shadows.replays {base hop : HopNode P F}
    (shadows : Shadows interest base hop) {cell : Cell}
    (interesting : ∀ digest ∈ cell.digest S, interest digest)
    (retained :
      ∀ digest ∈ cell.digest S, digest ∈ base.onionSeen.keys →
        digest ∈ hop.onionSeen.keys) :
    hop.replays S cell = base.replays S cell ∧
      RecentKeys.Covers interest (hop.cacheAfter S cell)
        (base.cacheAfter S cell) := by
  unfold HopNode.replays cacheAfter
  cases digested : cell.digest S with
  | none => exact ⟨rfl, shadows.covers⟩
  | some digest =>
    exact shadows.covers.seen_both (interesting digest digested)
      (retained digest digested)

theorem Shadows.shared {base hop : HopNode P F}
    (shadows : Shadows interest base hop) {arrival : Arrival P F}
    (interesting : ∀ digest ∈ arrival.cell.digest S, interest digest)
    (retained :
      ∀ digest ∈ arrival.cell.digest S,
        digest ∈ base.onionSeen.keys → digest ∈ hop.onionSeen.keys) :
    (hop.receive S arrival).2.1 = (base.receive S arrival).2.1 ∧
      Shadows interest (base.receive S arrival).1
        (hop.receive S arrival).1 := by
  rcases shadows.replays S interesting retained with ⟨replays, covers⟩
  refine ⟨?_, ?_, ?_, ?_⟩
  · exact outcome_handle_congr S shadows.keys shadows.routing
      replays arrival.env arrival.fromPeer
  · rw [HopNode.receive, HopNode.receive, onionKeys_handle,
      onionKeys_handle, shadows.keys]
  · rw [HopNode.receive, HopNode.receive, routing_handle,
      routing_handle, shadows.routing]
  · rw [HopNode.receive, HopNode.receive, onionSeen_handle, onionSeen_handle]
    exact covers

/-- Harmless extra cells leave the fate of the shared ones as it is. -/
theorem passedOn_eq_shared {side : Side}
    {arrivals : List (Mark × Arrival P F)} {base hop : HopNode P F}
    (shadows : Shadows (Awaited S arrivals) base hop)
    (failing :
      ∀ other arrival, (Mark.extra other, arrival) ∈ arrivals →
        arrival.cell.authentic S hop.onionKeys = false)
    (harmless : Harmless S side base hop arrivals) :
    passedOn S side.takes hop arrivals =
      passedOn S takesShared base arrivals := by
  -- Only the digests of the shared cells that are still to come matter.
  induction arrivals generalizing base hop with
  | nil => rfl
  | cons head rest induction =>
    rcases head with ⟨mark, arrival⟩
    have narrows (digest : Bytes 32) (later : Awaited S rest digest) :
        Awaited S ((mark, arrival) :: rest) digest := by
      rcases later with ⟨awaited, member, digested⟩
      exact ⟨awaited, List.mem_cons_of_mem _ member, digested⟩
    have failingLater :
        ∀ other later, (Mark.extra other, later) ∈ rest →
          later.cell.authentic S hop.onionKeys = false :=
      fun other later member =>
        failing other later (List.mem_cons_of_mem _ member)
    have keys : (hop.receive S arrival).1.onionKeys = hop.onionKeys :=
      hop.onionKeys_handle S arrival.env arrival.fromPeer arrival.cell
    cases mark with
    | shared =>
      rcases harmless with ⟨here, later⟩
      rcases shadows.shared S
          (fun digest digested => ⟨arrival, List.mem_cons_self, digested⟩)
          here with ⟨same, after⟩
      have onward := induction (after.mono narrows) (by rwa [keys]) later
      simp only [passedOn, Side.takes, takesShared, if_true, same, onward]
    | extra other =>
      have stopped : (hop.receive S arrival).2.1.passed = false :=
        not_passed_of_not_authentic S
          (failing other arrival List.mem_cons_self) arrival.env
          arrival.fromPeer
      have remaining := shadows.mono narrows
      simp only [Harmless] at harmless
      by_cases mine : side = other
      · rw [if_pos mine] at harmless
        have onward :=
          induction (remaining.extra S harmless.1) (by rwa [keys]) harmless.2
        simp [passedOn, Side.takes, takesShared, mine, stopped, ← onward]
      · rw [if_neg mine] at harmless
        have onward := induction remaining failingLater harmless
        simp [passedOn, Side.takes, takesShared, mine, ← onward]

/--
Two sequences of cells that differ only by cells which fail authentication:
the same cells are forwarded or delivered in both runs, provided that no extra
cell records the digest of a shared one that comes after it, and that no
shared cell comes again after the extra cells have pushed its digest out of
the cache.
-/
theorem extra_cells_suppress_nothing (hop : HopNode P F)
    (arrivals : List (Mark × Arrival P F))
    (failing :
      ∀ side arrival, (Mark.extra side, arrival) ∈ arrivals →
        arrival.cell.authentic S hop.onionKeys = false)
    (harmless : ∀ side, Harmless S side hop hop arrivals) :
    passedOn S Side.first.takes hop arrivals =
      passedOn S Side.second.takes hop arrivals := by
  have alone (side : Side) :
      passedOn S side.takes hop arrivals =
        passedOn S takesShared hop arrivals :=
    passedOn_eq_shared S
      ⟨rfl, rfl, RecentKeys.covers_refl _ hop.onionSeen⟩ failing
      (harmless side)
  rw [alone, alone]

/-! ## Sample cells -/

/-- A node that opens layers with one key. -/
def sampleHop (onionSeen : ReplayCache) :
    HopNode Primitives.transparent sampleFloats where
  node := sampleLeaf 1 2 true
  onionKeys := OnionKeyChain.new (P := Primitives.transparent) (sampleKey 20) 0
  onionSeen

/-- A packet for the node, with a traffic frame in its layer. -/
def genuinePacket : OnionPacket where
  routingTag := routingTag Primitives.transparent (sampleKey 1)
  epk := sampleKey 3
  aeadPayload :=
    (sampleKey 23).toList ++
      (List.replicate 12 0 ++
        ((sampleKey 3).toList ++
          layerPlaintext onionDeliver sampleTraffic.encode))

/-- A packet with the same key and the same first bytes of the payload. -/
def forgedPacket : OnionPacket :=
  { genuinePacket with
    aeadPayload := genuinePacket.aeadPayload.modify 20 (· + 1) }

/-- A packet that has nothing in common with the genuine one. -/
def strayPacket : OnionPacket :=
  { genuinePacket with epk := sampleKey 4, aeadPayload := [] }

/-- A packet arrives from a stranger. -/
def packetArrival (packet : OnionPacket) :
    Arrival Primitives.transparent sampleFloats where
  env := sampleRelayEnv
  fromPeer := sampleKey 9
  cell := .onion packet

/--
A stray packet before the genuine one, and a forged one with its digest that
comes too late.
-/
def lateForgery :
    List (Mark × Arrival Primitives.transparent sampleFloats) :=
  [(.extra .first, packetArrival strayPacket),
    (.shared, packetArrival genuinePacket),
    (.extra .second, packetArrival forgedPacket)]

theorem digest_strayPacket_ne :
    (packetArrival strayPacket).cell.digest sampleSphinxCrypto ≠
      (packetArrival genuinePacket).cell.digest sampleSphinxCrypto := by
  decide +kernel

/-- Neither the stray packet nor the late forgery harms the genuine one. -/
theorem late_forgery_suppresses_nothing :
    (packetArrival forgedPacket).cell.digest sampleSphinxCrypto =
        (packetArrival genuinePacket).cell.digest sampleSphinxCrypto ∧
      passedOn sampleSphinxCrypto Side.first.takes
          (sampleHop (RecentKeys.empty onionReplayCacheSize_pos))
          lateForgery =
        passedOn sampleSphinxCrypto Side.second.takes
          (sampleHop (RecentKeys.empty onionReplayCacheSize_pos))
          lateForgery := by
  refine ⟨by decide +kernel, extra_cells_suppress_nothing _ _ _ ?_ ?_⟩
  · intro side arrival member
    simp only [lateForgery, List.mem_cons, Prod.mk.injEq, List.not_mem_nil,
      or_false, reduceCtorEq, false_and, false_or] at member
    rcases member with ⟨_, rfl⟩ | ⟨_, rfl⟩ <;> decide +kernel
  · intro side
    cases side with
    | first =>
      refine ⟨?_, ?_, trivial⟩
      · rintro digest digested - ⟨arrival, member, same⟩
        simp only [List.mem_cons, Prod.mk.injEq, List.not_mem_nil, or_false,
          reduceCtorEq, false_and, true_and] at member
        subst member
        exact digest_strayPacket_ne (digested.trans same.symm)
      · intro digest _ held
        exact absurd held List.not_mem_nil
    | second =>
      refine ⟨?_, ?_, trivial⟩
      · intro digest _ held
        exact held
      · rintro digest - - ⟨arrival, member, _⟩
        cases member

/-- The digests of other cells. -/
def otherDigest (index : Nat) : Bytes 32 :=
  Primitives.fit 32 [1, UInt8.ofNat (index / 256), UInt8.ofNat index]

theorem otherDigest_inj {left right : Nat} (small : left < 65536)
    (smallRight : right < 65536)
    (same : otherDigest left = otherDigest right) : left = right := by
  have shape :
      ∀ index, (otherDigest index).toList =
        1 :: UInt8.ofNat (index / 256) :: UInt8.ofNat index ::
          List.replicate 29 0 :=
    fun _ => rfl
  have bytes := congrArg Bytes.toList same
  simp only [shape, List.cons.injEq] at bytes
  rcases bytes with ⟨_, high, low, _⟩
  have highNat := congrArg UInt8.toNat high
  have lowNat := congrArg UInt8.toNat low
  simp only [UInt8.toNat_ofNat'] at highNat lowNat
  omega

/-- The digest of the genuine packet and those of cells that came later. -/
def laterDigests : List (Bytes 32) :=
  onionReplayDigest sampleSphinxCrypto genuinePacket ::
    (List.range 4095).map otherDigest

theorem laterDigests_nodup : laterDigests.Nodup := by
  refine List.nodup_cons.mpr ⟨?_, ?_⟩
  · intro member
    rcases List.mem_map.mp member with ⟨index, _, same⟩
    have front :
        (onionReplayDigest sampleSphinxCrypto genuinePacket).toList.head? =
          some 23 := by
      decide +kernel
    rw [← same] at front
    cases front
  · apply List.Nodup.map_on _ List.nodup_range
    intro left member right memberRight same
    rw [List.mem_range] at member memberRight
    exact otherDigest_inj (by omega) (by omega) same

theorem length_laterDigests : laterDigests.length ≤ onionReplayCacheSize := by
  simp [laterDigests, onionReplayCacheSize]

/-- A full cache, with the digest of the genuine packet as the oldest. -/
def fullCache : ReplayCache where
  keys := laterDigests
  distinct := laterDigests_nodup
  bounded := length_laterDigests
  room := onionReplayCacheSize_pos

/--
A forged packet with the digest of the genuine one suppresses it, and a packet
that pushes its digest out of the cache lets it pass a second time.
-/
theorem forged_packets_decide :
    ((packetArrival forgedPacket).cell.authentic sampleSphinxCrypto
          (sampleHop fullCache).onionKeys = false ∧
        passedOn sampleSphinxCrypto Side.first.takes
            (sampleHop (RecentKeys.empty onionReplayCacheSize_pos))
            [(.extra .first, packetArrival forgedPacket),
              (.shared, packetArrival genuinePacket)] =
          [false, false] ∧
        passedOn sampleSphinxCrypto Side.second.takes
            (sampleHop (RecentKeys.empty onionReplayCacheSize_pos))
            [(.extra .first, packetArrival forgedPacket),
              (.shared, packetArrival genuinePacket)] =
          [false, true]) ∧
      ((packetArrival strayPacket).cell.authentic sampleSphinxCrypto
            (sampleHop fullCache).onionKeys = false ∧
        passedOn sampleSphinxCrypto Side.first.takes (sampleHop fullCache)
            [(.extra .first, packetArrival strayPacket),
              (.shared, packetArrival genuinePacket)] =
          [false, true] ∧
        passedOn sampleSphinxCrypto Side.second.takes (sampleHop fullCache)
            [(.extra .first, packetArrival strayPacket),
              (.shared, packetArrival genuinePacket)] =
          [false, false]) := by
  refine ⟨⟨?_, ?_, ?_⟩, ?_, ?_, ?_⟩
  · decide +kernel
  · decide +kernel
  · decide +kernel
  · decide +kernel
  · decide +kernel
  · decide +kernel

end Norn.Onion
