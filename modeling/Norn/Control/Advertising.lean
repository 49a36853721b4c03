import Norn.Control.Tables

/-!
# What `cuckoo_do_maintenance` sends

Every peer gets one filter: the parent the one without its own tags, the other
peers the one with all tags.
-/

namespace Norn.Control

open Foundation Packet Router Session

variable {P : Primitives} {C : Crates} {L : FilterOps}

namespace ControlState

variable {env : ControlEnv L} {tree : Fin treeCount} {self : ControlState P C L}

variable {peer : Bytes 32} {frame : ControlFrame L}

theorem mem_peerKeys {key : Bytes 32} :
    key ∈ self.peerKeys env ↔ key ∈ self.peers.keys :=
  (env.order.perm _).mem_iff

theorem mem_peerEntries {key : Bytes 32} {peer : Peer C L} :
    (key, peer) ∈ self.peerEntries env ↔ self.peers.lookup key = some peer := by
  simp only [peerEntries, List.mem_filterMap, Option.map_eq_some_iff,
    Prod.mk.injEq, mem_peerKeys]
  constructor
  · rintro ⟨_, _, _, found, rfl, rfl⟩
    exact found
  · intro found
    exact ⟨key, KeyedMap.mem_keys_of_lookup found, peer, found, rfl, rfl⟩

/-- Two states with the same key, peers and trees. -/
structure SameLinks (before after : ControlState P C L) : Prop where
  signingKey : after.signingKey = before.signingKey
  peers : after.peers = before.peers
  trees : after.trees = before.trees

theorem SameLinks.refl (self : ControlState P C L) :
    SameLinks self self := ⟨rfl, rfl, rfl⟩

theorem sameLinks_advanceGeneration (self : ControlState P C L)
    (tree : Fin treeCount) :
    SameLinks self (self.advanceGeneration tree) := by
  unfold advanceGeneration
  split_ifs
  · exact ⟨rfl, rfl, rfl⟩
  · exact SameLinks.refl self

variable {after : ControlState P C L}

theorem SameLinks.mergedFilter (same : SameLinks self after) :
    after.mergedFilter env tree = self.mergedFilter env tree := by
  unfold ControlState.mergedFilter mergeStep peerEntries peerKeys pubKey
  rw [same.signingKey, same.peers, same.trees]

theorem SameLinks.fullMerged (same : SameLinks self after) :
    after.fullMerged env tree = self.fullMerged env tree := by
  unfold ControlState.fullMerged
  rw [same.mergedFilter, same.peers, same.trees]

/-- The filter in the message for a peer. -/
def advertised (self : ControlState P C L) (env : ControlEnv L)
    (tree : Fin treeCount) (peer : Bytes 32) : L.Filter :=
  if some peer = (self.trees tree).parent then
    self.mergedFilter env tree
  else
    self.fullMerged env tree

/-- The message for a peer. -/
def advertisement (self : ControlState P C L) (env : ControlEnv L)
    (tree : Fin treeCount) (peer : Bytes 32) : CuckooMsg L where
  treeId := UInt8.ofNat tree.val
  generation := (self.advanceGeneration tree).cuckooGeneration tree
  data := L.encode (self.advertised env tree peer)

theorem mem_sendUpstream :
    (peer, frame) ∈ self.sendUpstream env tree ↔
      some peer = (self.trees tree).parent ∧ peer ∈ self.peers.keys ∧
        frame = self.cuckooMsg tree (self.mergedFilter env tree) := by
  unfold sendUpstream
  cases known : (self.trees tree).parent with
  | none => simp
  | some parentKey =>
    dsimp only
    unfold sendToPeer
    split_ifs with present
    · rw [List.mem_singleton, Prod.mk.injEq, Option.some.injEq]
      rcases Option.isSome_iff_exists.mp present with ⟨_, found⟩
      have listed := KeyedMap.mem_keys_of_lookup found
      constructor
      · rintro ⟨rfl, rfl⟩
        exact ⟨rfl, listed, rfl⟩
      · rintro ⟨rfl, _, rfl⟩
        exact ⟨rfl, rfl⟩
    · constructor
      · intro member
        exact (List.not_mem_nil member).elim
      · rintro ⟨same, listed, _⟩
        cases same
        rcases KeyedMap.exists_lookup_of_mem_keys listed with ⟨_, found⟩
        rw [found] at present
        exact (present rfl).elim

theorem mem_sendDownstream :
    (peer, frame) ∈ self.sendDownstream env tree ↔
      some peer ≠ (self.trees tree).parent ∧ peer ∈ self.peers.keys ∧
        frame = self.cuckooMsg tree (self.fullMerged env tree) := by
  simp only [sendDownstream, List.mem_map, List.mem_filter, mem_peerKeys,
    decide_eq_true_eq, Prod.mk.injEq]
  constructor
  · rintro ⟨_, ⟨listed, other⟩, rfl, rfl⟩
    exact ⟨other, listed, rfl⟩
  · rintro ⟨other, listed, rfl⟩
    exact ⟨peer, ⟨listed, other⟩, rfl, rfl⟩

theorem mem_cuckooDoMaintenance :
    (peer, frame) ∈ (cuckooDoMaintenance env tree self).2 ↔
      peer ∈ self.peers.keys ∧
        frame = .cuckoo (self.advertisement env tree peer) := by
  have same := sameLinks_advanceGeneration self tree
  simp only [cuckooDoMaintenance, List.mem_append, mem_sendUpstream,
    mem_sendDownstream, same.trees, same.peers, same.mergedFilter,
    same.fullMerged, cuckooMsg, advertisement, advertised]
  by_cases isParent : some peer = (self.trees tree).parent
  · simp [isParent]
  · simp [isParent]

end ControlState

end Norn.Control
