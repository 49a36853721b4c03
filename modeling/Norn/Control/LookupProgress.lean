import Norn.Control.Advertising

/-!
# Where a path lookup goes on

A router hands a `PathLookup` on to the cheapest peer that claims the target.
Without such a peer it goes to the landmarks, and without landmarks to all
peers.  The last two leave out the peer that the lookup came from, but the
first does not, so a lookup can go straight back; and the landmarks may hold
nobody but that peer and the router itself, so a lookup can go nowhere.
-/

namespace Norn.Control

open Foundation Foundation.Run Packet Router Session

variable {P : Primitives} {C : Crates} {L : FilterOps}

namespace ControlState

variable (self : ControlState P C L) (env : ControlEnv L)

theorem connected_of_bestClaimant {tag : Bytes 16} {best : Bytes 32}
    (chosen : self.bestClaimant env tag = some best) :
    best ∈ self.peers.keys := by
  rcases Option.map_eq_some_iff.mp chosen with ⟨pair, kept, rfl⟩
  simp only [RoutingState.improve_eq_keep] at kept
  rw [← List.foldl_map (f := fun entry : Bytes 32 × Peer C L =>
    (entry.1, entry.2.effectiveCost))] at kept
  have unbeaten :=
    Selection.unbeaten_select RoutingState.weakOrder_cheaper
      (((self.peerEntries env).filter fun entry =>
          entry.2.claims tag).map
        fun entry => (entry.1, entry.2.effectiveCost))
  rw [kept] at unbeaten
  rcases List.mem_map.mp unbeaten.1 with ⟨entry, member, rfl⟩
  exact KeyedMap.mem_keys_of_lookup
    (mem_peerEntries.mp (List.mem_of_mem_filter member))

/-- The lookup is transmitted to another peer than it came from. -/
def PassesOn (fromPeer : Bytes 32) (lookup : PathLookup)
    (sends : Sent L) : Prop :=
  ∃ out ∈ sends,
    out.1 ≠ fromPeer ∧ out.1 ∈ self.peers.keys ∧
      ∃ path, out.2 = .pathLookup { lookup with path := path }

/--
The chosen claimant is not the sender; or nobody claims the target, and there
are no landmarks or one of them is another peer than the sender.
-/
def HasOnwardPeer (fromPeer : Bytes 32) (lookup : PathLookup) : Prop :=
  match self.bestClaimant env (routingTag P lookup.target) with
  | some best => best ≠ fromPeer
  | none =>
    self.landmarks = [] ∨
      ∃ landmark ∈ self.landmarks,
        landmark ≠ fromPeer ∧ landmark ∈ self.peers.keys

variable {self} {fromPeer : Bytes 32} {lookup : PathLookup}

theorem passesOn_sendToPeer {peer : Bytes 32} {path : List UInt64}
    (connected : peer ∈ self.peers.keys) (other : peer ≠ fromPeer) :
    self.PassesOn fromPeer lookup
      (self.sendToPeer peer (.pathLookup { lookup with path := path })) := by
  rcases KeyedMap.exists_lookup_of_mem_keys connected with ⟨entry, found⟩
  refine ⟨(peer, _), ?_, other, connected, path, rfl⟩
  rw [sendToPeer, found]
  exact List.mem_singleton_self _

/-- A lookup is passed on exactly when there is an onward peer. -/
theorem passesOn_forwardLookup_iff
    (others : ∃ key ∈ self.peers.keys, key ≠ fromPeer) :
    self.PassesOn fromPeer lookup (self.forwardLookup env fromPeer lookup) ↔
      self.HasOnwardPeer env fromPeer lookup := by
  unfold forwardLookup HasOnwardPeer
  cases chosen : self.bestClaimant env (routingTag P lookup.target) with
  | some best =>
    constructor
    · rintro ⟨out, member, other, _⟩
      rwa [eq_of_mem_sendToPeer member] at other
    · exact passesOn_sendToPeer (self.connected_of_bestClaimant env chosen)
  | none =>
    dsimp only
    split_ifs with empty
    · refine ⟨fun _ => Or.inl empty, fun _ => ?_⟩
      rcases others with ⟨key, connected, other⟩
      refine ⟨(key, _), ?_, other, connected, lookup.path, rfl⟩
      refine List.mem_map.mpr ⟨key, ?_, rfl⟩
      exact List.mem_filter.mpr
        ⟨mem_peerKeys.mpr connected, decide_eq_true other⟩
    · constructor
      · rintro ⟨out, member, other, connected, _⟩
        rcases List.mem_flatMap.mp member with ⟨landmark, kept, sent⟩
        rw [eq_of_mem_sendToPeer sent] at other connected
        exact Or.inr ⟨landmark, List.mem_of_mem_filter kept, other, connected⟩
      · rintro (none | ⟨landmark, member, other, connected⟩)
        · exact (empty none).elim
        · have onward :
              self.PassesOn fromPeer lookup
                (self.sendToPeer landmark (.pathLookup lookup)) :=
            passesOn_sendToPeer connected other
          rcases onward with ⟨out, sent, rest⟩
          refine ⟨out, List.mem_flatMap.mpr ⟨landmark, ?_, sent⟩, rest⟩
          exact List.mem_filter.mpr ⟨member, decide_eq_true other⟩

/--
A router with another peer than the sender passes on a new lookup for someone
else exactly if the claimant that it chooses, or one of its landmarks, is such
a peer, or it has neither.
-/
theorem lookup_passes_on_iff (router : ControlState P C L)
    (surroundings : ControlEnv L) {sender : Bytes 32}
    {sought : PathLookup}
    (others : ∃ key ∈ router.peers.keys, key ≠ sender)
    (unseen : router.pendingLookups.lookup sought.id = none)
    (room : router.pendingLookups.keys.length < maxPendingLookups)
    (foreign : sought.target ≠ router.pubKey) :
    router.PassesOn sender sought
        (router.handlePathLookup surroundings sender sought).2 ↔
      router.HasOnwardPeer surroundings sender sought := by
  have accepted :
      ((router.pendingLookups.lookup sought.id).isSome ||
        decide (maxPendingLookups ≤
          router.pendingLookups.keys.length)) = false := by
    simp [unseen, room]
  unfold handlePathLookup
  rw [accepted, if_neg Bool.false_ne_true, if_neg foreign]
  exact passesOn_forwardLookup_iff surroundings others

end ControlState

/-- A lookup for a router that nobody knows. -/
def strangerLookup : PathLookup where
  target := Bytes.replicate 32 9
  source := nearKey
  id := 7
  path := []

/-- A router to which peers have attached. -/
def attachedRouter (keys : List (Bytes 32)) : SampleRouter :=
  run ControlState.step (newRouter rootKey)
    (keys.map fun key => sampleStep (.attach key))

/--
With three peers the only landmark is the router itself, and the lookup of
one of them is not passed on to the others.
-/
theorem lookup_ends_at_own_landmark :
    let router := attachedRouter [nearKey, farKey, Bytes.replicate 32 3]
    (∃ key ∈ router.peers.keys, key ≠ nearKey) ∧
      router.pendingLookups.lookup strangerLookup.id = none ∧
        router.pendingLookups.keys.length < maxPendingLookups ∧
          strangerLookup.target ≠ router.pubKey ∧
            ¬router.PassesOn nearKey strangerLookup
              (router.handlePathLookup (sampleAt 0 0) nearKey
                strangerLookup).2 := by
  refine ⟨by decide +kernel, by decide +kernel, by decide +kernel,
    by decide +kernel, ?_⟩
  rintro ⟨out, member, _⟩
  have silent :
      ((attachedRouter [nearKey, farKey,
          Bytes.replicate 32 3]).handlePathLookup (sampleAt 0 0) nearKey
        strangerLookup).2.length = 0 := by
    decide +kernel
  rw [List.length_eq_zero_iff.mp silent] at member
  exact List.not_mem_nil member

/-- With two peers there is no landmark, and the lookup goes to the other. -/
theorem lookup_reaches_second_peer :
    (attachedRouter [nearKey, farKey]).PassesOn nearKey strangerLookup
      ((attachedRouter [nearKey, farKey]).handlePathLookup (sampleAt 0 0)
        nearKey strangerLookup).2 := by
  refine (ControlState.lookup_passes_on_iff _ _ (by decide +kernel)
    (by decide +kernel) (by decide +kernel) (by decide +kernel)).mpr ?_
  have unclaimed :
      (attachedRouter [nearKey, farKey]).bestClaimant (sampleAt 0 0)
        (routingTag Primitives.transparent strangerLookup.target) =
          none := by
    decide +kernel
  rw [ControlState.HasOnwardPeer, unclaimed]
  exact Or.inl (by decide +kernel)

end Norn.Control
