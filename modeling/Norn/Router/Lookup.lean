import Norn.Foundation.Selection
import Norn.Router.Traffic

/-!
# Next hops

The part of the router state that decides where a frame goes next, and the
three ways of reading it: `greedy_next_hop` follows the coordinates,
`lookup_by_tag_excluding` the cuckoo filters of the peers, and `lookup` tries
the coordinates, then the filters, then the distance of the keys.

Floating-point numbers are an argument of the model.  The peer map is given
in its order of iteration, so ties are broken as the loops break them.  Of a
cuckoo filter only the answers of `contains` are kept.
-/

namespace Norn.Router

open Foundation Session

/-- The floating-point operations the lookups use. -/
structure Floats where
  /-- `f64`. -/
  F64 : Type
  /-- `f32`. -/
  F32 : Type
  /-- `HypCoord::decode`, on encodings. -/
  canonicalCoord : Bytes 16 → Bytes 16
  /-- `HypCoord::distance`. -/
  distance : Bytes 16 → Bytes 16 → F64
  less : F64 → F64 → Bool
  infinity : F64
  /-- A distance divided by a trust clamped to its bounds. -/
  score : F64 → F32 → F64
  /-- The mean of the local trust and the consensus. -/
  blend : F32 → F32 → F32
  /-- `trust_adjusted_cost_with`, on an effective cost. -/
  adjust : UInt64 → F32 → UInt64
  /-- `boost_trust`. -/
  boostTrust : F32 → F32

/-- `K`, the number of trees. -/
def treeCount : Nat := 3

theorem treeCount_pos : 0 < treeCount := by
  decide

/-- `PATH_NEG_TTL`. -/
def pathNegTtl : Instant := 60 * 1000000000

/-- `MAX_PATH_NEG_CACHE`. -/
def maxPathNegCache : Nat := 16384

/-- `CONVERGENCE_GRACE_TICKS`. -/
def convergenceGraceTicks : UInt32 := 8

/-- The fields of a peer entry that the lookups read. -/
structure PeerData (F : Floats) where
  cuckoo : Fin treeCount → Bytes 16 → Bool
  effectiveCost : UInt64
  trust : F.F32

/-- A peer claims a tag in one of its filters. -/
def PeerData.claims {F : Floats} (peer : PeerData F) (tag : Bytes 16) :
    Bool :=
  (List.finRange treeCount).any fun tree => peer.cuckoo tree tag

/-- The peer map in its order of iteration; keys are unique. -/
structure PeerMap (F : Floats) where
  entries : List (Bytes 32 × PeerData F)
  distinct : (entries.map Prod.fst).Nodup

/-- `boost_trust` on the entry of one peer, if there is one. -/
def PeerMap.boost {F : Floats} (peers : PeerMap F) (via : Bytes 32) :
    PeerMap F where
  entries :=
    peers.entries.map fun entry =>
      if entry.1 = via then
        (entry.1,
          { entry.2 with trust := F.boostTrust entry.2.trust })
      else
        entry
  distinct := by
    have keys :
        ∀ entry : Bytes 32 × PeerData F,
          (if entry.1 = via then
              (entry.1,
                { entry.2 with trust := F.boostTrust entry.2.trust })
            else
              entry).1 = entry.1 := by
      intro entry
      split_ifs <;> rfl
    rw [List.map_map]
    simpa only [Function.comp_def, keys] using peers.distinct

/-- The order in which the negative cache is iterated over. -/
structure CacheOrder where
  arrange : List (Bytes 32 × Bytes 16) → List (Bytes 32 × Bytes 16)
  perm : ∀ keys, (arrange keys).Perm keys

/-- The part of `RouterState` that the lookups read. -/
structure RoutingState (F : Floats) where
  ownCoord : Bytes 16
  peers : PeerMap F
  /-- `consensus_trust`, as the reputation table has it. -/
  consensusTrust : Bytes 32 → Option F.F32
  pathNegativeCache : AList fun _ : Bytes 32 × Bytes 16 => Instant
  pendingProbes : AList fun _ : UInt64 => Bytes 32 × Instant
  tick : UInt32
  lastTopologyChangeTick : UInt32

namespace RoutingState

variable {F : Floats}

/-- `RouterState::convergence_active`. -/
def convergenceActive (self : RoutingState F) : Bool :=
  self.tick - self.lastTopologyChangeTick < convergenceGraceTicks

/-- `RouterState::combined_trust`. -/
def combinedTrust (self : RoutingState F) (peerKey : Bytes 32)
    (localTrust : F.F32) : F.F32 :=
  match self.consensusTrust peerKey with
  | some consensus => F.blend localTrust consensus
  | none => localTrust

/-- The trust-adjusted cost of a peer. -/
def cost (self : RoutingState F) (peerKey : Bytes 32)
    (peer : PeerData F) : UInt64 :=
  F.adjust peer.effectiveCost (self.combinedTrust peerKey peer.trust)

/-- `RouterState::is_path_negative`. -/
def isPathNegative (self : RoutingState F) (now : Instant)
    (peer : Bytes 32) (tag : Bytes 16) : Bool :=
  match self.pathNegativeCache.lookup (peer, tag) with
  | some time => now - time < pathNegTtl
  | none => false

/-- The entry a full negative cache gives up: an expired one, or any. -/
def negativeVictim (self : RoutingState F) (now : Instant)
    (order : CacheOrder) : Option (Bytes 32 × Bytes 16) :=
  let cutoff := if pathNegTtl ≤ now then now - pathNegTtl else now
  let keys := order.arrange self.pathNegativeCache.keys
  let expired :=
    keys.find? fun key =>
      match self.pathNegativeCache.lookup key with
      | some time => time < cutoff
      | none => false
  match expired with
  | some key => some key
  | none => keys.head?

/-- `RouterState::record_path_negative`. -/
def recordPathNegative (self : RoutingState F) (now : Instant)
    (order : CacheOrder) (peer : Bytes 32) (tag : Bytes 16) :
    RoutingState F :=
  let kept :=
    if maxPathNegCache ≤ self.pathNegativeCache.keys.length then
      match self.negativeVictim now order with
      | some victim => self.pathNegativeCache.erase victim
      | none => self.pathNegativeCache
    else
      self.pathNegativeCache
  { self with pathNegativeCache := kept.insert (peer, tag) now }

/-- Keep the cheaper of two peers, and the earlier one on a tie. -/
def improve (best : Option (Bytes 32 × UInt64)) (peerKey : Bytes 32)
    (cost : UInt64) : Option (Bytes 32 × UInt64) :=
  match best with
  | none => some (peerKey, cost)
  | some (_, bestCost) =>
    if cost < bestCost then some (peerKey, cost) else best

/-- One round of the loop of `lookup_by_tag_excluding`. -/
def tagStep (self : RoutingState F) (now : Instant) (tag : Bytes 16)
    (exclude : Option (Bytes 32))
    (found : Option (Bytes 32 × UInt64) × Option (Bytes 32 × UInt64))
    (entry : Bytes 32 × PeerData F) :
    Option (Bytes 32 × UInt64) × Option (Bytes 32 × UInt64) :=
  if exclude = some entry.1 then
    found
  else if !entry.2.claims tag then
    found
  else
    let cost := self.cost entry.1 entry.2
    if self.isPathNegative now entry.1 tag then
      (found.1, improve found.2 entry.1 cost)
    else
      (improve found.1 entry.1 cost, found.2)

/--
`RouterState::lookup_by_tag_excluding`: the cheapest peer that claims the tag
and has not sent a negative hint for it, otherwise the cheapest that has.
-/
def lookupByTagExcluding (self : RoutingState F) (now : Instant)
    (tag : Bytes 16) (exclude : Option (Bytes 32)) : Option (Bytes 32) :=
  let (best, bestNeg) :=
    self.peers.entries.foldl (self.tagStep now tag exclude) (none, none)
  (best.or bestNeg).map Prod.fst

section Coordinates

variable (coordTable : AList fun _ : Bytes 32 => Bytes 16)

/-- One round of the loop of `greedy_next_hop`. -/
def greedyStep (self : RoutingState F) (dstCoord : Bytes 16)
    (exclude : Option (Bytes 32)) (best : Option (Bytes 32) × F.F64)
    (entry : Bytes 32 × PeerData F) : Option (Bytes 32) × F.F64 :=
  if exclude = some entry.1 then
    best
  else
    match coordTable.lookup entry.1 with
    | none => best
    | some peerCoord =>
      let d := F.distance peerCoord dstCoord
      if F.less d (F.distance self.ownCoord dstCoord) then
        let score := F.score d (self.combinedTrust entry.1 entry.2.trust)
        if F.less score best.2 then (some entry.1, score) else best
      else
        best

/-- `RouterState::greedy_next_hop`. -/
def greedyNextHop (self : RoutingState F) (dstCoord : Bytes 16)
    (exclude : Option (Bytes 32)) : Option (Bytes 32) :=
  (self.peers.entries.foldl (self.greedyStep coordTable dstCoord exclude)
    (none, F.infinity)).1

/-- The distance of two keys. -/
def xorDistance (left right : Bytes 32) : Bytes 32 :=
  ⟨List.zipWith (fun one other => one ^^^ other) left.toList right.toList,
    by simp⟩

/-- The cheapest peer that claims the tag of the destination. -/
def cuckooHop (self : RoutingState F) (dstTag : Bytes 16) :
    Option (Bytes 32 × UInt64) :=
  self.peers.entries.foldl
    (fun best entry =>
      if entry.2.claims dstTag then
        improve best entry.1 (self.cost entry.1 entry.2)
      else
        best)
    none

/-- One round of the last resort of `lookup`. -/
def xorStep (self : RoutingState F) (dst : Bytes 32)
    (best : Option (Bytes 32 × Bytes 32 × UInt64))
    (entry : Bytes 32 × PeerData F) :
    Option (Bytes 32 × Bytes 32 × UInt64) :=
  let dist := xorDistance entry.1 dst
  let cost := self.cost entry.1 entry.2
  match best with
  | none => some (entry.1, dist, cost)
  | some (_, bestDist, bestCost) =>
    if dist < bestDist ∨ (dist = bestDist ∧ cost < bestCost) then
      some (entry.1, dist, cost)
    else
      best

/-- `RouterState::lookup`. -/
def lookup (self : RoutingState F) (P : Primitives) (dst : Bytes 32) :
    Option (Bytes 32) :=
  let greedy :=
    (coordTable.lookup dst).bind fun dstCoord =>
      self.greedyNextHop coordTable dstCoord none
  match greedy with
  | some peer => some peer
  | none =>
    match self.cuckooHop (routingTag P dst) with
    | some (peer, _) => some peer
    | none =>
      (self.peers.entries.foldl (self.xorStep dst) none).map Prod.fst

end Coordinates

/-! ## What a lookup by tag can answer -/

section ByTag

variable {self : RoutingState F} {now : Instant} {tag : Bytes 16}
variable {exclude : Option (Bytes 32)}

/-- A peer that claims the tag and is not the excluded one. -/
def Claimer (self : RoutingState F) (tag : Bytes 16)
    (exclude : Option (Bytes 32)) (peerKey : Bytes 32) : Prop :=
  ∃ peer, (peerKey, peer) ∈ self.peers.entries ∧
    exclude ≠ some peerKey ∧ peer.claims tag = true

/-- The comparison of the loop, on peers with their costs. -/
def cheaper (one other : Bytes 32 × UInt64) : Bool := one.2 < other.2

theorem weakOrder_cheaper : Selection.WeakOrder cheaper where
  irreflexive item := by
    simp [cheaper]
  asymmetric one other less := by
    simp only [cheaper, decide_eq_true_eq, decide_eq_false_iff_not,
      UInt64.not_lt] at less ⊢
    exact UInt64.le_of_lt less
  chained one two three first second := by
    simp only [cheaper, decide_eq_false_iff_not, UInt64.not_lt]
      at first second ⊢
    exact UInt64.le_trans first second

theorem improve_eq_keep (best : Option (Bytes 32 × UInt64)) (peerKey : Bytes 32)
    (cost : UInt64) :
    improve best peerKey cost =
      Selection.keep cheaper best (peerKey, cost) := by
  cases best with
  | none => rfl
  | some pair => simp [improve, Selection.keep, cheaper]

variable (self now tag exclude) in
/-- The claimers with a live negative hint, or those without, and costs. -/
def candidates (negative : Bool)
    (entries : List (Bytes 32 × PeerData F)) : List (Bytes 32 × UInt64) :=
  (entries.filter fun entry =>
      exclude ≠ some entry.1 && entry.2.claims tag &&
        self.isPathNegative now entry.1 tag == negative).map
    fun entry => (entry.1, self.cost entry.1 entry.2)

theorem mem_candidates {negative : Bool}
    {entries : List (Bytes 32 × PeerData F)}
    {candidate : Bytes 32 × UInt64} :
    candidate ∈ self.candidates now tag exclude negative entries ↔
      ∃ peer, (candidate.1, peer) ∈ entries ∧ exclude ≠ some candidate.1 ∧
        peer.claims tag = true ∧
        self.isPathNegative now candidate.1 tag = negative ∧
        self.cost candidate.1 peer = candidate.2 := by
  simp only [candidates, List.mem_map, List.mem_filter, Bool.and_eq_true,
    decide_eq_true_eq, beq_iff_eq]
  constructor
  · rintro ⟨⟨key, peer⟩, ⟨member, ⟨other, claims⟩, hinted⟩, rfl⟩
    exact ⟨peer, member, other, claims, hinted, rfl⟩
  · rintro ⟨peer, member, other, claims, hinted, cost⟩
    exact ⟨(candidate.1, peer), ⟨member, ⟨other, claims⟩, hinted⟩,
      Prod.ext rfl cost⟩

theorem candidate_of_mem {entries : List (Bytes 32 × PeerData F)}
    {peerKey : Bytes 32} {peer : PeerData F}
    (member : (peerKey, peer) ∈ entries)
    (other : exclude ≠ some peerKey) (claims : peer.claims tag = true) :
    (peerKey, self.cost peerKey peer) ∈
      self.candidates now tag exclude (self.isPathNegative now peerKey tag)
        entries :=
  mem_candidates.mpr ⟨peer, member, other, claims, rfl, rfl⟩

/-- The loop selects in each class on its own. -/
theorem foldl_tagStep (entries : List (Bytes 32 × PeerData F))
    (found : Option (Bytes 32 × UInt64) × Option (Bytes 32 × UInt64)) :
    entries.foldl (self.tagStep now tag exclude) found =
      ((self.candidates now tag exclude false entries).foldl
        (Selection.keep cheaper) found.1,
        (self.candidates now tag exclude true entries).foldl
          (Selection.keep cheaper) found.2) := by
  induction entries generalizing found with
  | nil => rfl
  | cons entry entries induction =>
    rw [List.foldl_cons, induction]
    by_cases other : exclude = some entry.1
    · simp [tagStep, candidates, other]
    · by_cases claims : entry.2.claims tag = true
      · by_cases negative : self.isPathNegative now entry.1 tag = true
        · simp [tagStep, candidates, other, claims, negative, improve_eq_keep]
        · simp [tagStep, candidates, other, claims, negative, improve_eq_keep]
      · simp [tagStep, candidates, other, claims]

/-- Either nobody claims the tag, or the cheapest of a class is chosen. -/
theorem lookupByTagExcluding_cases :
    (self.lookupByTagExcluding now tag exclude = none ∧
        ∀ negative,
          self.candidates now tag exclude negative self.peers.entries = []) ∨
      ∃ negative best,
        self.lookupByTagExcluding now tag exclude = some best.1 ∧
          best ∈ self.candidates now tag exclude negative self.peers.entries ∧
          (∀ other ∈
            self.candidates now tag exclude negative self.peers.entries,
            cheaper other best = false) ∧
          (negative = true →
            self.candidates now tag exclude false self.peers.entries = []) := by
  have first :=
    Selection.unbeaten_select weakOrder_cheaper
      (self.candidates now tag exclude false self.peers.entries)
  have second :=
    Selection.unbeaten_select weakOrder_cheaper
      (self.candidates now tag exclude true self.peers.entries)
  simp only [lookupByTagExcluding, foldl_tagStep]
  revert first second
  cases (self.candidates now tag exclude false
      self.peers.entries).foldl (Selection.keep cheaper) none with
  | some best =>
    intro first _
    exact Or.inr ⟨false, best, rfl, first.1, first.2, nofun⟩
  | none =>
    cases (self.candidates now tag exclude true
        self.peers.entries).foldl (Selection.keep cheaper) none with
    | some best =>
      intro first second
      exact Or.inr ⟨true, best, rfl, second.1, second.2, fun _ => first⟩
    | none =>
      intro first second
      exact Or.inl ⟨rfl, Bool.forall_bool.mpr ⟨first, second⟩⟩

theorem claimer_of_lookupByTagExcluding {peerKey : Bytes 32}
    (answer : self.lookupByTagExcluding now tag exclude = some peerKey) :
    self.Claimer tag exclude peerKey := by
  rcases @lookupByTagExcluding_cases F self now tag exclude with
    ⟨nobody, _⟩ | ⟨negative, best, found, member, _, _⟩
  · rw [nobody] at answer
    cases answer
  · rw [found] at answer
    cases answer
    rcases mem_candidates.mp member with ⟨peer, inside, other, claims, _⟩
    exact ⟨peer, inside, other, claims⟩

theorem lookupByTagExcluding_ne_none {peerKey : Bytes 32}
    (claimer : self.Claimer tag exclude peerKey) :
    self.lookupByTagExcluding now tag exclude ≠ none := by
  rcases claimer with ⟨peer, member, other, claims⟩
  rcases @lookupByTagExcluding_cases F self now tag exclude with
    ⟨_, nobody⟩ | ⟨negative, best, found, _⟩
  · have listed :=
      @candidate_of_mem F self now tag exclude _ _ _ member other claims
    rw [nobody] at listed
    cases listed
  · rw [found]
    exact Option.some_ne_none _

/--
A lookup by tag answers nothing just when nobody claims the tag; otherwise it
answers a claimer, without a live negative hint if there is one, and of its
class the cheapest.
-/
theorem lookup_by_tag_is_cheapest (self : RoutingState F) (now : Instant)
    (tag : Bytes 16) (exclude : Option (Bytes 32)) :
    (self.lookupByTagExcluding now tag exclude = none ↔
        ∀ peerKey, ¬self.Claimer tag exclude peerKey) ∧
      ∀ peerKey,
        self.lookupByTagExcluding now tag exclude = some peerKey →
          self.Claimer tag exclude peerKey ∧
            ((∃ other, self.Claimer tag exclude other ∧
                self.isPathNegative now other tag = false) →
              self.isPathNegative now peerKey tag = false) ∧
            ∃ peer, (peerKey, peer) ∈ self.peers.entries ∧
              ∀ other otherPeer,
                (other, otherPeer) ∈ self.peers.entries →
                  exclude ≠ some other → otherPeer.claims tag = true →
                    self.isPathNegative now other tag =
                        self.isPathNegative now peerKey tag →
                      self.cost peerKey peer ≤
                        self.cost other otherPeer := by
  constructor
  · constructor
    · intro nothing peerKey claimer
      exact lookupByTagExcluding_ne_none claimer nothing
    · intro nobody
      cases answer : self.lookupByTagExcluding now tag exclude with
      | none => rfl
      | some peerKey =>
        exact absurd (claimer_of_lookupByTagExcluding answer) (nobody peerKey)
  · intro peerKey answer
    refine ⟨claimer_of_lookupByTagExcluding answer, ?_⟩
    rcases @lookupByTagExcluding_cases F self now tag exclude with
      ⟨nobody, _⟩ | ⟨negative, best, found, member, unbeaten, last⟩
    · rw [nobody] at answer
      cases answer
    · rw [found] at answer
      cases answer
      rcases mem_candidates.mp member with ⟨peer, inside, _, _, hinted, cost⟩
      constructor
      · rintro ⟨other, ⟨otherPeer, listed, different, claims⟩, fresh⟩
        rw [hinted]
        by_contra negative
        have candidate :=
          @candidate_of_mem F self now tag exclude _ _ _ listed different claims
        rw [fresh, last (by simpa using negative)] at candidate
        cases candidate
      · refine ⟨peer, inside, ?_⟩
        intro other otherPeer listed different claims sameClass
        have candidate :=
          @candidate_of_mem F self now tag exclude _ _ _ listed different claims
        rw [sameClass, hinted] at candidate
        have costs := unbeaten _ candidate
        rw [cost]
        simpa [cheaper] using costs

end ByTag

end RoutingState

end Norn.Router
