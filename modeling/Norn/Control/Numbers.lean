import Norn.Control.Capabilities
import Norn.Control.Tables

/-!
# The numbered records of a router

Onion keys, capabilities and reputation reports carry the sequence numbers of
the routers that sign them.  Of all that a router does, few parts touch the
numbers it stores or its own counters: the three handlers that record what
others announce, and the phases in which it announces its own.
-/

namespace Norn.Control

open Foundation Packet Router Session

variable {P : Primitives} {C : Crates} {L : FilterOps}

/-- The numbered records of the control plane, the own counters and keys. -/
structure Numbers (P : Primitives) (C : Crates) where
  signingKey : P.SigningKey
  tick : UInt32
  onionEphPub : Bytes 32
  remoteOnionKeys : KeyedMap (Bytes 32) (UInt64 × Bytes 32 × Instant)
  ownOnionKeySeq : UInt64
  reputation : KeyedMap (Bytes 32) (Bucket C)
  ownReputationSeq : UInt64

namespace ControlState

/-- The numbered records of a router. -/
def numbers (self : ControlState P C L) : Numbers P C where
  signingKey := self.signingKey
  tick := self.tick
  onionEphPub := self.onionEphPub
  remoteOnionKeys := self.remoteOnionKeys
  ownOnionKeySeq := self.ownOnionKeySeq
  reputation := self.reputation
  ownReputationSeq := self.ownReputationSeq

variable (env : ControlEnv L) (self : ControlState P C L)

theorem numbers_fixTree (tree : Fin treeCount) :
    (self.fixTree env tree).numbers = self.numbers := by
  unfold fixTree noteChange
  cases self.chosen env tree with
  | none =>
    dsimp only
    unfold becomeRoot
    split_ifs <;> rfl
  | some candidate =>
    dsimp only
    unfold joinTree
    split_ifs <;> rfl

theorem numbers_cuckoo (tree : Fin treeCount) :
    (cuckooDoMaintenance env tree self).1.numbers = self.numbers := by
  simp only [cuckooDoMaintenance, advanceGeneration]
  split_ifs <;> rfl

theorem numbers_expirePeers :
    (self.expirePeers env).numbers = self.numbers := by
  unfold expirePeers
  generalize self.expired env = keys
  induction keys generalizing self with
  | nil => rfl
  | cons key rest induction => exact induction (self.removePeer key)

theorem numbers_maybeBroadcastControl :
    (maybeBroadcastControl env self).1.numbers = self.numbers := by
  simp only [maybeBroadcastControl, noteChange]
  split_ifs <;> rfl

theorem numbers_addPeer (key : Bytes 32) :
    (self.addPeer env key).numbers = self.numbers := by
  unfold addPeer
  split <;> rfl

theorem numbers_of_mem_tail_topologyPhases {phase : Phase P C L}
    (member : phase ∈ (topologyPhases env).tail) :
    (phase self).1.numbers = self.numbers := by
  simp only [topologyPhases, List.cons_append, List.tail_cons,
    List.mem_cons, List.mem_append, List.mem_flatMap, treePhases,
    List.not_mem_nil, or_false] at member
  rcases member with rfl | ⟨tree, _, rfl | rfl⟩ | rfl
  · exact numbers_expirePeers env self
  · exact numbers_fixTree env self tree
  · exact numbers_cuckoo env self tree
  · exact numbers_maybeBroadcastControl env self

theorem numbers_topologyPhases :
    (Phase.inOrder (topologyPhases env) self).1.numbers =
      self.advanceTick.numbers := by
  refine
    @Phase.inOrder_invariant P C L
      (fun later => later.numbers = self.advanceTick.numbers)
      (topologyPhases env).tail ?_ self.advanceTick rfl
  intro phase member later same
  rw [numbers_of_mem_tail_topologyPhases env later member, same]

theorem numbers_onlyWhen {due : ControlState P C L → Bool} {phase : Phase P C L}
    (kept : ∀ later, (phase later).1.numbers = later.numbers) :
    (Phase.onlyWhen due phase self).1.numbers = self.numbers := by
  unfold Phase.onlyWhen
  split
  · exact kept self
  · rfl

end ControlState

end Norn.Control
