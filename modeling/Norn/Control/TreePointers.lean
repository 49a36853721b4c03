import Norn.Control.TreeChoice

/-!
# The parents of the trees

Peers come and go, and `fix_tree` takes another parent or keeps the one it
has.  Whatever happens to a router, a parent that it has in a tree is one of
its peers, and in a tree without a parent it is the root at no cost.
-/

namespace Norn.Control

open Foundation Foundation.Run Packet Router Session

variable {P : Primitives} {C : Crates} {L : FilterOps}

namespace ControlState

/-- Each tree hangs below a peer, or the router is its root. -/
def Anchored (self : ControlState P C L) : Prop :=
  ∀ tree,
    (∀ parent, (self.trees tree).parent = some parent →
      parent ∈ self.peers.keys) ∧
      ((self.trees tree).parent = none →
        (self.trees tree).root = self.pubKey ∧ (self.trees tree).parentCost = 0)

theorem anchored_new (signingKey : P.SigningKey) (onionEphPub : Bytes 32) :
    (new signingKey onionEphPub : ControlState P C L).Anchored :=
  fun _ => ⟨nofun, fun _ => ⟨rfl, rfl⟩⟩

variable {self : ControlState P C L}

/-- Nothing happens to the trees, and all peers stay. -/
theorem Anchored.of_same {after : ControlState P C L} (anchored : self.Anchored)
    (signingKey : after.signingKey = self.signingKey)
    (trees : after.trees = self.trees)
    (peers : ∀ key ∈ self.peers.keys, key ∈ after.peers.keys) :
    after.Anchored := by
  intro tree
  rw [trees, pubKey, signingKey]
  exact
    ⟨fun parent known => peers parent ((anchored tree).1 parent known),
      (anchored tree).2⟩

theorem Anchored.of_undisturbed {after : ControlState P C L}
    {now : Instant} (anchored : self.Anchored)
    (undisturbed : Undisturbed now self after) : after.Anchored := by
  apply anchored.of_same undisturbed.signingKey undisturbed.trees
  rw [undisturbed.peers.keys]
  exact fun _ member => member

theorem anchored_addPeer (anchored : self.Anchored) (env : ControlEnv L)
    (key : Bytes 32) : (self.addPeer env key).Anchored := by
  unfold addPeer
  cases self.peers.lookup key with
  | some peer => exact anchored
  | none =>
    refine anchored.of_same rfl rfl ?_
    exact fun other member => KeyedMap.mem_keys_insert.mpr (Or.inl member)

theorem anchored_removePeer (anchored : self.Anchored) (key : Bytes 32) :
    (self.removePeer key).Anchored := by
  intro tree
  change
    (∀ parent,
      (self.dropParent key (self.trees tree)).parent = some parent →
        parent ∈ (self.peers.erase key).keys) ∧
      ((self.dropParent key (self.trees tree)).parent = none →
        (self.dropParent key (self.trees tree)).root = self.pubKey ∧
          (self.dropParent key (self.trees tree)).parentCost = 0)
  unfold dropParent
  split_ifs with lost
  · exact ⟨nofun, fun _ => ⟨rfl, rfl⟩⟩
  · refine ⟨?_, (anchored tree).2⟩
    intro parent known
    have other : parent ≠ key := by
      rintro rfl
      exact lost known
    exact KeyedMap.mem_keys_erase.mpr ⟨(anchored tree).1 parent known, other⟩

theorem anchored_fixTree (anchored : self.Anchored) (env : ControlEnv L)
    (tree : Fin treeCount) : (self.fixTree env tree).Anchored := by
  rcases treePhase_fixTree env self tree with ⟨phase, others⟩
  intro other
  rw [phase.peers, pubKey, phase.signingKey]
  by_cases same : other = tree
  · rw [same, tree_fixTree]
    cases chosen : self.chosen env tree with
    | none =>
      refine ⟨?_, fun _ => ⟨rfl, rfl⟩⟩
      intro parent known
      cases known
    | some candidate =>
      rcases (chosen_offers env self chosen).1 with
        ⟨ann, ⟨⟨peer, found, _⟩, _⟩, _⟩
      constructor
      · rintro parent ⟨⟩
        exact KeyedMap.mem_keys_of_lookup found
      · intro absent
        cases absent
  · rw [others other same]
    exact anchored other

theorem anchored_topologyPhases (anchored : self.Anchored)
    (env : ControlEnv L) :
    (Phase.inOrder (topologyPhases env) self).1.Anchored := by
  refine @Phase.inOrder_invariant _ _ _ Anchored _ ?_ _ anchored
  intro phase member router before
  simp only [topologyPhases, List.cons_append, List.mem_cons,
    List.mem_append, List.mem_flatMap, treePhases, List.not_mem_nil,
    or_false] at member
  rcases member with rfl | rfl | ⟨tree, _, rfl | rfl⟩ | rfl
  · exact before.of_same rfl rfl fun _ member => member
  · change ((router.expired env).foldl removePeer router).Anchored
    generalize router.expired env = keys
    induction keys generalizing router with
    | nil => exact before
    | cons key keys induction =>
      exact induction _ (anchored_removePeer before key)
  · exact anchored_fixTree before env tree
  · rcases treePhase_cuckoo env router tree with ⟨phase, trees⟩
    apply before.of_same phase.signingKey trees
    rw [phase.peers]
    exact fun _ member => member
  · simp only [maybeBroadcastControl, noteChange]
    split_ifs <;> exact before.of_same rfl rfl fun _ member => member

theorem anchored_dispatch (anchored : self.Anchored)
    (env : ControlEnv L) (fromPeer : Bytes 32) (frame : ControlFrame L) :
    (dispatch env fromPeer frame self).1.Anchored := by
  by_cases announces : ∃ ann, frame = .announce ann
  · rcases announces with ⟨ann, rfl⟩
    rcases handleAnnounce_cases env self fromPeer ann with
      ⟨signingKey, trees, _⟩
    have keys := keys_dispatch env self fromPeer (.announce ann)
    refine anchored.of_same signingKey trees ?_
    exact fun other member => keys ▸ member
  · exact anchored.of_undisturbed
      (undisturbed_dispatch env self fun ann same =>
        announces ⟨ann, same⟩)

/-- Every step keeps each tree below a peer or rooted in the router. -/
theorem anchored_step (anchored : self.Anchored)
    (step : ControlStep L) : (self.step step).Anchored := by
  unfold ControlState.step perform
  cases step.action with
  | attach key => exact anchored_addPeer anchored step.env key
  | detach key => exact anchored_removePeer anchored key
  | receive fromPeer frame =>
    exact anchored_dispatch anchored step.env fromPeer frame
  | maintain =>
    dsimp only [doMaintenance]
    rw [Phase.inOrder_append]
    exact (anchored_topologyPhases anchored step.env).of_undisturbed
      (undisturbed_servicePhases step.env _)

/--
Whatever happens to a router, a parent in a tree is one of its peers, and
without a parent the router is the root of the tree at no cost.
-/
theorem tree_pointers_coherent (signingKey : P.SigningKey)
    (onionEphPub : Bytes 32) (steps : List (ControlStep L))
    (tree : Fin treeCount) :
    let router : ControlState P C L :=
      run ControlState.step (.new signingKey onionEphPub) steps
    (∀ parent, (router.trees tree).parent = some parent →
      parent ∈ router.peers.keys) ∧
      ((router.trees tree).parent = none →
        (router.trees tree).root = router.pubKey ∧
          (router.trees tree).parentCost = 0) :=
  @invariant_run_of_forall _ _ ControlState.step Anchored
    (fun _ step anchored => anchored_step anchored step) _ _
    (anchored_new signingKey onionEphPub) tree

end ControlState

end Norn.Control
