import Norn.Control.Tables
import Norn.Control.Topology

/-!
# One tick of maintenance, as the trees see it

A tick settles every tree on the best offer of the peers, and it announces the
result to every peer unless the last broadcast is less than
`CONTROL_MAX_INTERVAL` ticks ago.  Nothing else that a tick sends is an
announcement.
-/

namespace Norn.Control

open Foundation Packet Router Session

variable {P : Primitives} {C : Crates} {L : FilterOps}

/-! ## Announcements among the frames -/

/-- The announcement in a frame. -/
def ControlFrame.announced : ControlFrame L → Option Announce
  | .announce ann => some ann
  | _ => none

/-- The announcements among the frames that are sent. -/
def announcesOf (sent : Sent L) : List (Bytes 32 × Announce) :=
  sent.filterMap fun frame =>
    frame.2.announced.map fun ann => (frame.1, ann)

@[simp]
theorem announcesOf_append (first second : Sent L) :
    announcesOf (first ++ second) = announcesOf first ++ announcesOf second :=
  List.filterMap_append

theorem announcesOf_eq_nil {sent : Sent L}
    (other : ∀ frame ∈ sent, frame.2.announced = none) :
    announcesOf sent = [] := by
  apply List.filterMap_eq_nil_iff.mpr
  intro frame member
  rw [other frame member]
  rfl

theorem announcesOf_of_sendsOnly {kinds : List FrameKind}
    {phase : Phase P C L} (sends : SendsOnly kinds phase)
    (other : FrameKind.announce ∉ kinds) (self : ControlState P C L) :
    announcesOf (phase self).2 = [] := by
  apply announcesOf_eq_nil
  intro frame member
  have kind := sends self frame member
  rcases frame with ⟨peer, frame⟩
  cases frame with
  | announce ann => exact (other kind).elim
  | _ => rfl

namespace ControlState

variable (env : ControlEnv L) (self : ControlState P C L)

theorem sendsOnly_servicePhases :
    SendsOnly [.sigReq, .onionKeyAnnounce, .pathLookup, .reputationReport]
      (Phase.inOrder (servicePhases env) : Phase P C L) := by
  apply SendsOnly.inOrder
  intro phase member
  simp only [servicePhases, List.mem_cons, List.not_mem_nil, or_false] at member
  rcases member with rfl | rfl | rfl | rfl | rfl | rfl | rfl
  · exact ((sendsOnly_sendKeepalives env).mono (by simp)).onlyWhen
  · exact ((sendsOnly_rotateOnionKeys env).mono (by simp)).onlyWhen
  · exact ((sendsOnly_broadcastOnionKeyAnnounce env).mono (by simp)).onlyWhen
  · exact ((sendsOnly_probeCuckooClaim env).mono (by simp)).onlyWhen
  · exact ((sendsOnly_broadcastReputation env).mono (by simp)).onlyWhen
  · exact SendsOnly.quietly _
  · exact SendsOnly.quietly _

/-- Ticks since the last broadcast. -/
def idle : Nat := (self.tick - self.lastControlTick).toNat

theorem nextControlInterval_le :
    self.nextControlInterval.toNat ≤ controlMaxInterval.toNat := by
  unfold nextControlInterval
  split_ifs
  · decide
  · exact UInt32.le_iff_toNat_le.mp Std.min_le_right

theorem maybeBroadcastControl_keeps :
    (maybeBroadcastControl env self).1.signingKey = self.signingKey ∧
      (maybeBroadcastControl env self).1.peers = self.peers ∧
      (maybeBroadcastControl env self).1.trees = self.trees ∧
      (maybeBroadcastControl env self).1.tick = self.tick := by
  simp only [maybeBroadcastControl, noteChange]
  split_ifs <;> exact ⟨rfl, rfl, rfl, rfl⟩

/-- The router at the next tick, without the peers that have expired. -/
def startTick : ControlState P C L := self.advanceTick.expirePeers env

/-- The same with its trees settled. -/
def settleTrees : ControlState P C L :=
  (Phase.inOrder ((List.finRange treeCount).flatMap (treePhases env))
    (self.startTick env)).1

theorem startTick_ticks :
    (self.startTick env).tick = self.tick + 1 ∧
      (self.startTick env).lastBroadcast = self.lastBroadcast := by
  have removes :
      ∀ (keys : List (Bytes 32)) (router : ControlState P C L),
        (keys.foldl removePeer router).tick = router.tick ∧
          (keys.foldl removePeer router).lastBroadcast =
            router.lastBroadcast := by
    intro keys
    induction keys with
    | nil => exact fun _ => ⟨rfl, rfl⟩
    | cons key rest induction =>
      exact fun router => induction (router.removePeer key)
  exact removes _ self.advanceTick

theorem doMaintenance_eq :
    (doMaintenance env self).1 =
        (Phase.inOrder (servicePhases env)
          (maybeBroadcastControl env (self.settleTrees env)).1).1 ∧
      announcesOf (doMaintenance env self).2 =
        announcesOf (maybeBroadcastControl env (self.settleTrees env)).2 := by
  have silentTrees :
      ∀ router : ControlState P C L,
        announcesOf
          (Phase.inOrder ((List.finRange treeCount).flatMap (treePhases env))
            router).2 = [] :=
    announcesOf_of_sendsOnly (sendsOnly_treePhases env _) (by decide)
  have silentServices :
      ∀ router : ControlState P C L,
        announcesOf (Phase.inOrder (servicePhases env) router).2 = [] :=
    announcesOf_of_sendsOnly (sendsOnly_servicePhases env) (by decide)
  simp only [doMaintenance, topologyPhases, List.cons_append,
    Phase.inOrder, Phase.inOrder_append, Phase.quietly,
    List.nil_append, announcesOf_append, silentTrees, silentServices,
    List.append_nil]
  exact ⟨rfl, rfl⟩

end ControlState

/-- A frame that is not an announcement. -/
structure OtherFrame (L : FilterOps) where
  env : ControlEnv L
  fromPeer : Bytes 32
  frame : ControlFrame L
  other : frame.announced = none

theorem OtherFrame.undisturbed (other : OtherFrame L)
    (self : ControlState P C L) :
    Undisturbed other.env.now self
      (ControlState.dispatch other.env other.fromPeer other.frame self).1 := by
  apply ControlState.undisturbed_dispatch
  intro ann same
  have announced := other.other
  rw [same] at announced
  cases announced

end Norn.Control
