import Norn.Router.Lookup

/-!
# Paths of greedy hops

`greedy_next_hop` ranks the neighbours by their distance to the destination
divided by a trust, but it only ranks those that are strictly closer than the
router itself.  So however the trusts rank them, every hop comes closer, and
as long as the routers know the coordinates of their neighbours no path of
hops meets a router twice.
-/

namespace Norn.Router

open Foundation Session

/-- Distances are linearly ordered, and ranking scores are finite. -/
structure Floats.Ordered (F : Floats) where
  order : LinearOrder F.F64
  less_iff : ∀ one other, F.less one other = true ↔ one < other
  finite :
    ∀ left right trust,
      F.less (F.score (F.distance left right) trust) F.infinity = true

/-- The part of a router that greedy hops depend on. -/
structure GreedyRouter (F : Floats) where
  routing : RoutingState F
  coordTable : AList fun _ : Bytes 32 => Bytes 16

namespace GreedyRouter

variable {F : Floats} (self : GreedyRouter F) (dstCoord : Bytes 16)
  (exclude : Option (Bytes 32))

/-- `greedy_next_hop`. -/
def nextHop : Option (Bytes 32) :=
  self.routing.greedyNextHop self.coordTable dstCoord exclude

def peerKeys : List (Bytes 32) := self.routing.peers.entries.map Prod.fst

/-- The distance of a router to the destination. -/
def ownDistance : F.F64 := F.distance self.routing.ownCoord dstCoord

/-- A key whose coordinate is known and strictly closer. -/
def Closer (peerKey : Bytes 32) : Prop :=
  exclude ≠ some peerKey ∧
    ∃ coord, self.coordTable.lookup peerKey = some coord ∧
      F.less (F.distance coord dstCoord) (self.ownDistance dstCoord) = true

/-- The neighbours and coordinates of another, with any trusts in them. -/
def SameButTrust (other : GreedyRouter F) : Prop :=
  self.routing.ownCoord = other.routing.ownCoord ∧
    self.coordTable = other.coordTable ∧ self.peerKeys = other.peerKeys

variable {self dstCoord exclude}

theorem greedyStep_cases (best : Option (Bytes 32) × F.F64)
    (entry : Bytes 32 × PeerData F) :
    (¬self.Closer dstCoord exclude entry.1 ∧
        self.routing.greedyStep self.coordTable dstCoord exclude best entry =
          best) ∨
      self.Closer dstCoord exclude entry.1 ∧
        ∃ coord trust,
          self.routing.greedyStep self.coordTable dstCoord exclude best entry =
            if F.less (F.score (F.distance coord dstCoord) trust) best.2 then
              (some entry.1, F.score (F.distance coord dstCoord) trust)
            else
              best := by
  unfold Closer RoutingState.greedyStep ownDistance
  by_cases excluded : exclude = some entry.1
  · exact Or.inl ⟨fun closer => closer.1 excluded, if_pos excluded⟩
  · rw [if_neg excluded]
    cases known : self.coordTable.lookup entry.1 with
    | none => exact Or.inl ⟨by simp, rfl⟩
    | some coord =>
      by_cases closer :
          F.less (F.distance coord dstCoord)
            (F.distance self.routing.ownCoord dstCoord) = true
      · refine Or.inr ⟨⟨excluded, coord, rfl, closer⟩, coord,
          self.routing.combinedTrust entry.1 entry.2.trust, ?_⟩
        simp only [closer, if_true]
      · exact Or.inl
          ⟨by simpa [excluded] using closer, by simp only [if_neg closer]⟩

theorem closer_of_foldl {entries : List (Bytes 32 × PeerData F)}
    {best : Option (Bytes 32) × F.F64} {peerKey : Bytes 32}
    (chosen :
      (entries.foldl (self.routing.greedyStep self.coordTable dstCoord exclude)
        best).1 = some peerKey) :
    best.1 = some peerKey ∨
      ∃ peer, (peerKey, peer) ∈ entries ∧
        self.Closer dstCoord exclude peerKey := by
  induction entries generalizing best with
  | nil => exact Or.inl chosen
  | cons entry entries induction =>
    rcases induction chosen with earlier | ⟨peer, member, closer⟩
    · rcases @greedyStep_cases F self dstCoord exclude best entry with
        ⟨_, same⟩ | ⟨closer, coord, trust, ranked⟩
      · rw [same] at earlier
        exact Or.inl earlier
      · rw [ranked] at earlier
        split_ifs at earlier
        · cases earlier
          exact Or.inr ⟨entry.2, by simp, closer⟩
        · exact Or.inl earlier
    · exact Or.inr ⟨peer, by simp [member], closer⟩

theorem foldl_isSome (ordered : F.Ordered)
    {entries : List (Bytes 32 × PeerData F)}
    {best : Option (Bytes 32) × F.F64}
    (someone :
      best.1.isSome = true ∨
        best.2 = F.infinity ∧
          ∃ entry ∈ entries, self.Closer dstCoord exclude entry.1) :
    (entries.foldl (self.routing.greedyStep self.coordTable dstCoord exclude)
      best).1.isSome = true := by
  induction entries generalizing best with
  | nil => simpa using someone
  | cons entry entries induction =>
    apply induction
    rcases @greedyStep_cases F self dstCoord exclude best entry with
      ⟨further, same⟩ | ⟨closer, coord, trust, ranked⟩
    · rw [same]
      rcases someone with already | ⟨start, other, member, closer⟩
      · exact Or.inl already
      · rcases List.mem_cons.mp member with rfl | later
        · exact absurd closer further
        · exact Or.inr ⟨start, other, later, closer⟩
    · rw [ranked]
      left
      rcases someone with already | ⟨start, _⟩
      · split_ifs
        · rfl
        · exact already
      · rw [start, if_pos (ordered.finite coord dstCoord trust)]
        rfl

theorem closer_of_nextHop {peerKey : Bytes 32}
    (chosen : self.nextHop dstCoord exclude = some peerKey) :
    ∃ peer, (peerKey, peer) ∈ self.routing.peers.entries ∧
      self.Closer dstCoord exclude peerKey := by
  rcases closer_of_foldl chosen with start | found
  · cases start
  · exact found

end GreedyRouter

/-! ## Networks -/

/-- Routers by their keys. -/
abbrev GreedyNetwork (F : Floats) := AList fun _ : Bytes 32 => GreedyRouter F

namespace GreedyNetwork

variable {F : Floats} (network : GreedyNetwork F) (dstCoord : Bytes 16)

/-- What routers store for their neighbours are the neighbours' own. -/
def Informed : Prop :=
  ∀ router ∈ network.entries,
    ∀ peerKey ∈ router.2.peerKeys, ∀ coord,
      router.2.coordTable.lookup peerKey = some coord →
        ∀ neighbour, network.lookup peerKey = some neighbour →
          coord = neighbour.routing.ownCoord

instance : Decidable network.Informed := by
  unfold Informed
  infer_instance

/--
A router picks a next hop, by the trusts and reputations of the moment and
with some peer excluded or none.
-/
def Hops (source target : Bytes 32) : Prop :=
  ∃ (router now : GreedyRouter F) (exclude : Option (Bytes 32)),
    network.lookup source = some router ∧
    now.SameButTrust router ∧ now.nextHop dstCoord exclude = some target

/-- Where a hop leads is closer to the destination. -/
def Approaches (source target : Bytes 32) : Prop :=
  ∃ router, network.lookup source = some router ∧
    ∀ next, network.lookup target = some next →
      F.less (next.ownDistance dstCoord) (router.ownDistance dstCoord) = true

variable {network dstCoord}

theorem approaches_of_hops (informed : network.Informed)
    {source target : Bytes 32} (hops : network.Hops dstCoord source target) :
    network.Approaches dstCoord source target := by
  rcases hops with
    ⟨router, now, exclude, here, ⟨sameCoord, sameTable, sameKeys⟩, chosen⟩
  refine ⟨router, here, ?_⟩
  intro next there
  rcases GreedyRouter.closer_of_nextHop chosen with
    ⟨peer, member, _, coord, known, closer⟩
  have neighbour : target ∈ now.peerKeys := List.mem_map_of_mem member
  rw [sameKeys] at neighbour
  rw [sameTable] at known
  unfold GreedyRouter.ownDistance at closer ⊢
  rw [sameCoord, informed ⟨source, router⟩ (AList.mem_lookup_iff.mp here)
    target neighbour coord known next there] at closer
  exact closer

theorem approaches_trans (ordered : F.Ordered) {first second third : Bytes 32}
    (one : network.Approaches dstCoord first second)
    (two : network.Approaches dstCoord second third) :
    network.Approaches dstCoord first third := by
  rcases one with ⟨router, here, closer⟩
  rcases two with ⟨middle, there, closest⟩
  refine ⟨router, here, ?_⟩
  intro last found
  let _ := ordered.order
  exact (ordered.less_iff _ _).mpr
    (lt_trans ((ordered.less_iff _ _).mp (closest last found))
      ((ordered.less_iff _ _).mp (closer middle there)))

theorem ne_of_approaches (ordered : F.Ordered) {source target : Bytes 32}
    (approaches : network.Approaches dstCoord source target) :
    source ≠ target := by
  rintro rfl
  rcases approaches with ⟨router, here, closer⟩
  let _ := ordered.order
  exact lt_irrefl _ ((ordered.less_iff _ _).mp (closer router here))

end GreedyNetwork

/--
No path of greedy hops meets a router twice, whatever the trusts and whichever
peers are excluded; and a router with a closer neighbour has a next hop.
-/
theorem greedy_paths_do_not_loop {F : Floats} (ordered : F.Ordered)
    (network : GreedyNetwork F) (informed : network.Informed)
    (dstCoord : Bytes 16) :
    (∀ path : List (Bytes 32),
      path.IsChain (network.Hops dstCoord) → path.Nodup) ∧
      ∀ (router : GreedyRouter F) (exclude : Option (Bytes 32)),
        (∃ entry ∈ router.routing.peers.entries,
          router.Closer dstCoord exclude entry.1) →
          ∃ next, router.nextHop dstCoord exclude = some next := by
  constructor
  · intro path chain
    have approaching : path.IsChain (network.Approaches dstCoord) :=
      chain.imp fun _ _ hops =>
        GreedyNetwork.approaches_of_hops informed hops
    have transitive : IsTrans (Bytes 32) (network.Approaches dstCoord) :=
      ⟨fun _ _ _ => GreedyNetwork.approaches_trans ordered⟩
    exact (List.isChain_iff_pairwise.mp approaching).imp fun approaches =>
      GreedyNetwork.ne_of_approaches ordered approaches
  · rintro router exclude ⟨entry, member, closer⟩
    apply Option.isSome_iff_exists.mp
    exact GreedyRouter.foldl_isSome ordered
      (Or.inr ⟨rfl, entry, member, closer⟩)

/-- Coordinates on a line. -/
def lineFloats : Floats where
  F64 := Nat
  F32 := Nat
  canonicalCoord := id
  distance left right := (left.toList.headD 0 - right.toList.headD 0).toNat
  less left right := decide (left < right)
  infinity := 256
  score distance _ := distance
  blend localTrust _ := localTrust
  adjust cost _ := cost
  boostTrust := id

/-- The order of the numbers. -/
def lineOrdered : lineFloats.Ordered where
  order := inferInstanceAs (LinearOrder Nat)
  less_iff (one other : Nat) := @decide_eq_true_iff (one < other) _
  finite left right _ :=
    @decide_eq_true ((left.toList.headD 0 - right.toList.headD 0).toNat < 256) _
      (UInt8.toNat_lt _)

/-- A router on the line with one neighbour. -/
def lineRouter (place : UInt8) : GreedyRouter lineFloats where
  routing :=
    { ownCoord := Bytes.replicate 16 place
      peers :=
        ⟨[(Bytes.replicate 32 (place - 1), ⟨fun _ _ => false, 0, (0 : Nat)⟩)],
          List.nodup_singleton _⟩
      consensusTrust := fun _ => none
      pathNegativeCache := ∅
      pendingProbes := ∅
      tick := 0
      lastTopologyChangeTick := 0 }
  coordTable :=
    AList.singleton (Bytes.replicate 32 (place - 1))
      (Bytes.replicate 16 (place - 1))

/-- Two routers on the line. -/
def lineNetwork : GreedyNetwork lineFloats :=
  (AList.singleton (Bytes.replicate 32 1) (lineRouter 1)).insert
    (Bytes.replicate 32 2) (lineRouter 2)

theorem informed_lineNetwork : lineNetwork.Informed := by
  decide +kernel

/-- A path of two hops along the line. -/
theorem line_path_does_not_loop :
    [Bytes.replicate 32 2, Bytes.replicate 32 1,
      Bytes.replicate 32 0].IsChain (lineNetwork.Hops (Bytes.replicate 16 0)) ∧
      [Bytes.replicate 32 2, Bytes.replicate 32 1,
        Bytes.replicate 32 (0 : UInt8)].Nodup := by
  have chain :
      [Bytes.replicate 32 2, Bytes.replicate 32 1,
        Bytes.replicate 32 0].IsChain
          (lineNetwork.Hops (Bytes.replicate 16 0)) :=
    .cons_cons
      ⟨lineRouter 2, lineRouter 2, none, rfl, ⟨rfl, rfl, rfl⟩,
        by decide +kernel⟩
      (.cons_cons
        ⟨lineRouter 1, lineRouter 1, none, rfl, ⟨rfl, rfl, rfl⟩,
          by decide +kernel⟩
        (.singleton _))
  exact ⟨chain,
    (greedy_paths_do_not_loop lineOrdered lineNetwork informed_lineNetwork
      (Bytes.replicate 16 0)).1 _ chain⟩

end Norn.Router
