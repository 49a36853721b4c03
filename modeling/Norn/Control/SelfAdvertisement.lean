import Norn.Control.Advertising
import Norn.Cuckoo.Merge

/-!
# Whether a router advertises itself

`cuckoo_do_maintenance` starts a filter with the tag of the router and merges
the filters of its peers into it.  `merge` bounds its chains of kicks, and a
chain that runs out drops the fingerprint it has in hand; filters crowded
enough can make that the fingerprint of the router itself.

As long as no chain ends with that fingerprint, the tag is in every message.
-/

namespace Norn.Control

open Foundation Packet Router Session Cuckoo
open Cuckoo (tailHash crowdDraws firstBucket crowdedFilter)

variable {P : Primitives} {C : Crates} {L : FilterOps}

/--
When a merge keeps a tag: `spares filter other draws` says so of the merge of
`other` into `filter`.
-/
structure Keeping (L : FilterOps) (tag : Bytes 16) where
  spares : L.Filter → L.Filter → L.MergeDraws → Prop
  contains_add_new : ∀ draws, L.contains (L.add draws L.new tag) tag = true
  contains_merge :
    ∀ filter other draws, L.contains filter tag = true →
      spares filter other draws →
        L.contains (L.merge draws filter other) tag = true
  decode_encode : ∀ filter, L.decode (L.encode filter) = filter

/-- Cuckoo filters keep a tag that no chain of kicks ends with. -/
def cuckooKeeping (hash : Cuckoo.Blake2b64) (tag : Bytes 16) :
    Keeping (cuckooFilters hash) tag where
  spares filter other draws := Cuckoo.Spares hash tag.toList filter other draws
  contains_add_new draws := by
    dsimp only [cuckooFilters]
    rw [contains_iff,
      total_add hash _ (add_new hash draws tag.toList),
      keyWeight_keyCopies]
    exact Nat.succ_pos _
  contains_merge filter other draws held spares := by
    dsimp only [cuckooFilters] at held ⊢
    exact Cuckoo.contains_merge held spares
  decode_encode := Cuckoo.CuckooFilter.decode_encode

namespace ControlState

section Messages

variable (router : ControlState P C L)
  (keeping : Keeping L (routingTag P router.pubKey))
  (env : ControlEnv L) (tree : Fin treeCount)

/-- Merging the filter of a peer keeps the tag of the router. -/
def MergeKeeps (merged : L.Filter) (entry : Bytes 32 × Peer C L) : Prop :=
  some entry.1 ≠ (router.trees tree).parent →
    keeping.spares merged (entry.2.cuckoo tree) (env.mergeDraws tree entry.1)

/-- The merges behind the filter for the parent keep the own tag. -/
def UpstreamKeeps : Prop :=
  Run.Along (router.mergeStep env tree) (router.MergeKeeps keeping env tree)
    (L.add (env.addDraws tree) L.new (routingTag P router.pubKey))
    (router.peerEntries env)

/-- So does the merge of the filter of the parent. -/
def ParentKeeps : Prop :=
  ∀ parentKey peer, (router.trees tree).parent = some parentKey →
    router.peers.lookup parentKey = some peer →
      keeping.spares (router.mergedFilter env tree) (peer.cuckoo tree)
        (env.mergeDraws tree parentKey)

/-- All merges behind the message for a peer keep the own tag. -/
def KeepsOwnTag (peer : Bytes 32) : Prop :=
  router.UpstreamKeeps keeping env tree ∧
    (some peer ≠ (router.trees tree).parent →
      router.ParentKeeps keeping env tree)

variable {router keeping env tree}

theorem contains_mergedFilter (keeps : router.UpstreamKeeps keeping env tree) :
    L.contains (router.mergedFilter env tree) (routingTag P router.pubKey) =
      true := by
  refine
    @Run.invariant_run _ _ (router.mergeStep env tree)
      (router.MergeKeeps keeping env tree)
      (fun merged =>
        L.contains merged (routingTag P router.pubKey) = true)
      ?_ _ _ (keeping.contains_add_new _) keeps
  intro merged entry held kept
  unfold mergeStep
  split_ifs with isParent
  · exact held
  · exact keeping.contains_merge _ _ _ held (kept isParent)

theorem contains_fullMerged (upstream : router.UpstreamKeeps keeping env tree)
    (parent : router.ParentKeeps keeping env tree) :
    L.contains (router.fullMerged env tree) (routingTag P router.pubKey) =
      true := by
  have merged := contains_mergedFilter upstream
  unfold fullMerged
  cases known : (router.trees tree).parent with
  | none => exact merged
  | some parentKey =>
    cases found : router.peers.lookup parentKey with
    | none =>
      simp only [found]
      exact merged
    | some peer =>
      simp only [found]
      exact keeping.contains_merge _ _ _ merged
        (parent parentKey peer known found)

theorem contains_advertised {peer : Bytes 32}
    (keeps : router.KeepsOwnTag keeping env tree peer) :
    L.contains (router.advertised env tree peer) (routingTag P router.pubKey) =
      true := by
  unfold advertised
  split_ifs with isParent
  · exact contains_mergedFilter keeps.1
  · exact contains_fullMerged keeps.1 (keeps.2 isParent)

theorem advertised_of_root {key : Bytes 32} {peer : Peer C L}
    (root : (router.trees tree).parent = none)
    (entries : router.peerEntries env = [(key, peer)]) :
    router.advertised env tree key =
      L.merge (env.mergeDraws tree key)
        (L.add (env.addDraws tree) L.new (routingTag P router.pubKey))
        (peer.cuckoo tree) := by
  simp only [advertised, fullMerged, mergedFilter, mergeStep, root, entries,
    List.foldl_cons, List.foldl_nil, reduceCtorEq, if_false]

end Messages

end ControlState

/--
Every message of `cuckoo_do_maintenance` contains the tag of its router, unless
a chain of kicks in the merges behind it ends with the fingerprint of that tag
in hand.
-/
theorem own_tag_advertised_unless_kicked_out (hash : Cuckoo.Blake2b64)
    (router : ControlState P C (cuckooFilters hash))
    (env : ControlEnv (cuckooFilters hash)) (tree : Fin treeCount)
    (peer : Bytes 32) (msg : CuckooMsg (cuckooFilters hash))
    (sent :
      (peer, .cuckoo msg) ∈
        (ControlState.cuckooDoMaintenance env tree router).2)
    (kept :
      router.KeepsOwnTag
        (cuckooKeeping hash (routingTag P router.pubKey)) env tree
        peer) :
    (cuckooFilters hash).contains ((cuckooFilters hash).decode msg.data)
      (routingTag P router.pubKey) = true := by
  rcases ControlState.mem_cuckooDoMaintenance.mp sent with ⟨_, same⟩
  cases same
  rw [ControlState.advertisement,
    (cuckooKeeping hash (routingTag P router.pubKey)).decode_encode]
  exact ControlState.contains_advertised kept

/-! ## A crowded bucket -/

/-- The surroundings of the routers below. -/
def crowdEnv : ControlEnv (cuckooFilters tailHash) :=
  sampleEnv crowdDraws (fun _ _ => crowdDraws) 0 0

/-- The slots of the first bucket. -/
def firstSlots : List (Fin numBuckets × Fin slotsPerBucket) :=
  (List.finRange slotsPerBucket).map fun slot => (firstBucket, slot)

/-- The key of a router whose tag belongs into the first bucket. -/
def crowdedKey : Bytes 32 := ⟨[0, 0, 0, 2] ++ List.replicate 28 0, rfl⟩

/-- A router with one peer. -/
def linkedRouter :
    ControlState Primitives.transparent sampleCrates (cuckooFilters tailHash) :=
  Run.run ControlState.step
    (.new (show Bytes 32 from crowdedKey) (Bytes.replicate 32 0))
    [⟨crowdEnv, .attach nearKey⟩]

/-- The crowded filter, as the peer sends it. -/
def crowdedMsg : CuckooMsg (cuckooFilters tailHash) where
  treeId := 0
  generation := 1
  data := crowdedFilter.encode

/-- The router once the peer has sent the crowded filter. -/
def crowdedRouter :
    ControlState Primitives.transparent sampleCrates (cuckooFilters tailHash) :=
  linkedRouter.step ⟨crowdEnv, .receive nearKey (.cuckoo crowdedMsg)⟩

/-- The tag of the router, as a key of a filter. -/
def crowdedTag : List UInt8 :=
  (routingTag Primitives.transparent crowdedKey).toList

/-- The filter of the router before the last fingerprint is merged. -/
def crowdedMerge (draws : Cuckoo.Draws) : Cuckoo.CuckooFilter :=
  Run.run (mergePlace tailHash (fun _ _ => draws) crowdedFilter)
    (Cuckoo.CuckooFilter.new.add tailHash crowdDraws crowdedTag).1
    (firstSlots.take 3)

/-- Chains of kicks that leave the first slot alone. -/
def sparingDraws : Cuckoo.Draws where
  coin := true
  slot _ := ⟨1, one_lt_slotsPerBucket⟩

theorem buckets_crowdedMerge {draws : Cuckoo.Draws}
    (either : draws = crowdDraws ∨ draws = sparingDraws)
    (slot : Fin slotsPerBucket) :
    (crowdedMerge draws).buckets firstBucket slot =
      UInt16.ofNat (512 * (slot.val + 1)) := by
  rcases either with rfl | rfl
  · revert slot
    decide +kernel
  · revert slot
    decide +kernel

theorem crowded_crowdedMerge {draws : Cuckoo.Draws}
    (either : draws = crowdDraws ∨ draws = sparingDraws) :
    Cuckoo.Crowded tailHash firstBucket ⟨0, slotsPerBucket_pos⟩ 512
        (crowdedMerge draws).buckets 2560 ∧
      ∀ slot, (crowdedMerge draws).buckets firstBucket slot ≠ 2560 := by
  have settled :
      ∀ slot : Fin (slotsPerBucket + 1),
        Cuckoo.SoleBucket tailHash firstBucket
          (UInt16.ofNat (512 * (slot.val + 1))) := by
    unfold Cuckoo.SoleBucket
    decide +kernel
  have held := buckets_crowdedMerge either
  refine ⟨⟨?_, ?_, by decide, settled (Fin.last _)⟩, ?_⟩
  · intro slot behind
    rw [held]
    revert slot
    decide
  · intro slot
    rw [held]
    exact settled slot.castSucc
  · intro slot
    rw [held]
    revert slot
    decide

theorem usedSlots_crowdedFilter :
    usedSlots crowdedFilter = firstSlots := by
  decide +kernel

theorem firstSlots_eq :
    firstSlots =
      firstSlots.take 3 ++ [(firstBucket, Fin.last 3)] :=
  rfl

theorem not_contains_crowded :
    ((Cuckoo.CuckooFilter.new.add tailHash crowdDraws crowdedTag).1.merge
        tailHash (fun _ _ => crowdDraws) crowdedFilter).contains tailHash
      crowdedTag = false := by
  have bucket : Cuckoo.bucket1 tailHash crowdedTag = firstBucket := by
    decide +kernel
  have own : Cuckoo.fingerprint tailHash crowdedTag = 512 := by
    decide +kernel
  have alone : Cuckoo.bucket2 tailHash firstBucket 512 = firstBucket := by
    decide +kernel
  rcases crowded_crowdedMerge (Or.inl rfl) with ⟨crowded, new⟩
  rw [merge_eq_run_used, usedSlots_crowdedFilter, firstSlots_eq,
    Run.run_append]
  change
    ((crowdedMerge crowdDraws).mergeSlot tailHash crowdDraws firstBucket
      2560).contains tailHash crowdedTag = false
  rw [← bucket] at crowded new alone ⊢
  rw [← own] at crowded alone
  apply crowded.not_contains_mergeSlot alone new rfl
  intro kick
  simp [crowdDraws]

/-- What the router keeps about its peer. -/
def crowdedPeer : Peer sampleCrates (cuckooFilters tailHash) :=
  (Peer.new 0).setFilter ⟨0, treeCount_pos⟩ 0 crowdedMsg

/-- A message of the router that lacks its own tag. -/
theorem own_tag_is_kicked_out :
    ∃ msg : CuckooMsg (cuckooFilters tailHash),
      (nearKey, .cuckoo msg) ∈
          (ControlState.cuckooDoMaintenance crowdEnv ⟨0, by decide⟩
            crowdedRouter).2 ∧
        (cuckooFilters tailHash).contains
            ((cuckooFilters tailHash).decode msg.data)
            (routingTag Primitives.transparent crowdedRouter.pubKey) =
          false := by
  have merged :=
    @ControlState.advertised_of_root _ _ _ crowdedRouter crowdEnv
      ⟨0, by decide⟩ nearKey crowdedPeer rfl rfl
  have received : crowdedPeer.cuckoo ⟨0, by decide⟩ = crowdedFilter :=
    Cuckoo.CuckooFilter.decode_encode crowdedFilter
  rw [received] at merged
  refine
    ⟨crowdedRouter.advertisement crowdEnv ⟨0, by decide⟩ nearKey,
      ControlState.mem_cuckooDoMaintenance.mpr
        ⟨List.mem_singleton_self nearKey, rfl⟩, ?_⟩
  rw [ControlState.advertisement,
    (cuckooKeeping tailHash (Bytes.replicate 16 0)).decode_encode, merged]
  dsimp only [cuckooFilters]
  exact not_contains_crowded

/-- The same surroundings, with other draws for the merges. -/
def sparingEnv : ControlEnv (cuckooFilters tailHash) :=
  sampleEnv crowdDraws (fun _ _ => sparingDraws) 0 0

theorem spares_crowdedTag :
    Cuckoo.Spares tailHash crowdedTag
      (Cuckoo.CuckooFilter.new.add tailHash crowdDraws crowdedTag).1
      crowdedFilter (fun _ _ => sparingDraws) := by
  apply spares_of_used
  rw [usedSlots_crowdedFilter, firstSlots_eq, Run.along_append]
  rcases crowded_crowdedMerge (Or.inr rfl) with ⟨crowded, new⟩
  have elsewhere (kick : Nat) :
      sparingDraws.slot kick ≠ ⟨0, slotsPerBucket_pos⟩ :=
    show (⟨1, _⟩ : Fin slotsPerBucket) ≠ _ by decide
  rcases crowded.mergeLoss_elsewhere new elsewhere with ⟨left, other, ended⟩
  refine ⟨by decide +kernel, ?_, trivial⟩
  intro lost dropped copy
  cases ended.symm.trans dropped
  exact other (copy.1.trans (by decide +kernel))

/--
The crowded filter is merged and a chain of kicks runs out, but it ends with
another fingerprint.
-/
theorem own_tag_survives_crowded_merge :
    (cuckooFilters tailHash).contains
        ((cuckooFilters tailHash).decode
          (crowdedRouter.advertisement sparingEnv ⟨0, by decide⟩
            nearKey).data)
        (routingTag Primitives.transparent crowdedRouter.pubKey) =
      true := by
  have received : crowdedPeer.cuckoo ⟨0, by decide⟩ = crowdedFilter :=
    Cuckoo.CuckooFilter.decode_encode crowdedFilter
  apply own_tag_advertised_unless_kicked_out tailHash crowdedRouter sparingEnv
    ⟨0, by decide⟩ nearKey
  · exact
      ControlState.mem_cuckooDoMaintenance.mpr
        ⟨List.mem_singleton_self nearKey, rfl⟩
  · constructor
    · refine ⟨fun _ => ?_, trivial⟩
      change
        Cuckoo.Spares tailHash crowdedTag _ (crowdedPeer.cuckoo _) _
      rw [received]
      exact spares_crowdedTag
    · intro _ parentKey peer known
      cases known

end Norn.Control
