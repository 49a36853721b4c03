import Norn.Control.Authenticity
import Norn.Control.TreeChoice

/-!
# Roots across a network

Routers gain and lose peers and take steps in any order.  Announcements are
lost, repeated, held back and handed in over any link, and other frames may be
anything; but an announcement with a valid signature was made by a router.

Then no root is made up: what a router has or has been told for the root of a
tree is the key of a router, so the least of their keys is never outbid.  A
router that is told of it takes it at its next tick and tells its peers.
-/

namespace Norn.Control

open Foundation Foundation.Run Packet Router Session

variable {P : Primitives} {C : Crates} {L : FilterOps}

theorem treeIndex_ofNat (tree : Fin treeCount) :
    treeIndex (UInt8.ofNat tree.val) = some tree := by
  revert tree
  decide

namespace ControlState

section Tick

variable (env : ControlEnv L) (self : ControlState P C L)

theorem trees_doMaintenance :
    (doMaintenance env self).1.trees = (self.settleTrees env).trees := by
  rw [(doMaintenance_eq env self).1, (undisturbed_servicePhases env _).trees]
  exact (maybeBroadcastControl_keeps env _).2.2.1

theorem settled_doMaintenance (tree : Fin treeCount) :
    BestRoot env (self.startTick env) tree
      ((doMaintenance env self).1.trees tree).root := by
  rw [trees_doMaintenance]
  exact (settled_treePhases env _ _).2.1 tree (List.mem_finRange tree)

theorem pubKey_startTick : (self.startTick env).pubKey = self.pubKey :=
  congrArg P.verifyingKey
    (signingKey_foldl_removePeer (self.advanceTick.expired env)
      self.advanceTick)

theorem exists_of_mem_announced {out : Bytes 32 × Announce}
    (member : out ∈ announcesOf (doMaintenance env self).2) :
    ∃ tree, treeIndex out.2.treeId = some tree ∧
      out.2.root = ((doMaintenance env self).1.trees tree).root ∧
      (P.SignaturesVerify → announceVerified P out.2 = true) := by
  rw [trees_doMaintenance]
  rw [(doMaintenance_eq env self).2] at member
  rcases List.mem_filterMap.mp member with ⟨frame, sent, shown⟩
  simp only [maybeBroadcastControl] at sent
  split_ifs at sent
  · rcases List.mem_append.mp sent with announced | coordinate
    · rcases List.mem_flatMap.mp announced with ⟨tree, _, inTree⟩
      rcases List.mem_map.mp inTree with ⟨peer, _, rfl⟩
      cases shown
      refine ⟨tree, treeIndex_ofNat tree, ?_, fun signatures =>
        Bool.and_eq_true_iff.mpr
          ⟨signatures.validKey _, signatures.ed25519 _ _⟩⟩
      unfold noteChange
      split_ifs <;> rfl
    · rcases List.mem_map.mp coordinate with ⟨peer, _, rfl⟩
      cases shown
  · cases sent

end Tick

/-- All roots that a router has or has been told of. -/
structure RootsIn (known : Bytes 32 → Prop) (router : ControlState P C L) :
    Prop where
  trees : ∀ tree, known (router.trees tree).root
  told :
    ∀ key peer tree ann, router.peers.lookup key = some peer →
      peer.trees tree = some ann → known ann.root

variable {self : ControlState P C L} {known : Bytes 32 → Prop}

theorem RootsIn.settled (roots : RootsIn known self) (own : known self.pubKey)
    {env : ControlEnv L} {tree : Fin treeCount} {root : Bytes 32}
    (settled : BestRoot env (self.startTick env) tree root) : known root := by
  rcases settled.origin with same | ⟨candidate, member, same⟩
  · rw [same, pubKey_startTick]
    exact own
  · rcases (mem_candidates_iff_offers env _).mp member with
      ⟨ann, ⟨⟨peer, found, shown, _⟩, _⟩, told, _⟩
    rw [same, told]
    exact roots.told _ peer tree ann
      (@lookup_foldl_removePeer _ _ _ _ self.advanceTick _ _ found) shown

/-- A step brings in no root beyond those of verified announcements. -/
theorem RootsIn.step (roots : RootsIn known self) (own : known self.pubKey)
    (step : ControlStep L)
    (heard :
      ∀ fromPeer ann, step.action = .receive fromPeer (.announce ann) →
        announceVerified P ann = true → known ann.root) :
    RootsIn known (self.step step) := by
  rcases step with ⟨env, action⟩
  constructor
  · intro tree
    cases action with
    | attach key =>
      simp only [ControlState.step, perform, addPeer]
      split <;> exact roots.trees tree
    | detach key =>
      change known (self.dropParent key (self.trees tree)).root
      unfold dropParent
      split_ifs
      · exact own
      · exact roots.trees tree
    | receive fromPeer frame =>
      dsimp only [ControlState.step, perform]
      rw [(reaches_dispatch env self fromPeer frame).rest]
      exact roots.trees tree
    | maintain =>
      dsimp only [ControlState.step, perform]
      exact roots.settled own (settled_doMaintenance env self tree)
  · intro key peer tree ann found shown
    by_cases announced :
      ∃ fromPeer ann, action = .receive fromPeer (.announce ann)
    · rcases announced with ⟨fromPeer, carried, rfl⟩
      change (self.handleAnnounce env fromPeer carried).peers.lookup key =
        _ at found
      rcases lookup_handleAnnounce found with
        ⟨before, _⟩ | ⟨_, verified, stored, old, _, before, rfl⟩
      · exact roots.told key peer tree ann before shown
      · by_cases sameTree : tree = stored
        · rw [sameTree, Peer.trees_setAnnounce_self] at shown
          cases shown
          exact heard fromPeer carried rfl verified
        · rw [Peer.trees_setAnnounce_ne sameTree] at shown
          exact roots.told key old tree ann before shown
    · have other : ∀ fromPeer ann, action ≠ .receive fromPeer (.announce ann) :=
        fun fromPeer ann same => announced ⟨fromPeer, ann, same⟩
      rcases lookup_step other found with empty | ⟨old, before, kept⟩
      · rw [empty tree] at shown
        cases shown
      · rw [kept] at shown
        exact roots.told key old tree ann before shown

end ControlState

/-- Routers, and the announcements they have made so far. -/
structure TreeNetwork (P : Primitives) (C : Crates) (L : FilterOps)
    (Node : Type) where
  routers : Node → ControlState P C L
  made : List Announce

namespace TreeNetwork

variable {Node : Type} [DecidableEq Node]

/-- New routers that have announced nothing. -/
def new (keys : Node → P.SigningKey) (onionEphPubs : Node → Bytes 32) :
    TreeNetwork P C L Node where
  routers node := .new (keys node) (onionEphPubs node)
  made := []

/-- A step of one of the routers; only a tick makes announcements. -/
def step (net : TreeNetwork P C L Node) (action : Node × ControlStep L) :
    TreeNetwork P C L Node where
  routers :=
    Function.update net.routers action.1 ((net.routers action.1).step action.2)
  made :=
    match action.2.action with
    | .maintain =>
      net.made ++
        (announcesOf
          (ControlState.doMaintenance action.2.env
          (net.routers action.1)).2).map
          Prod.snd
    | _ => net.made

/-- An announcement with a valid signature has been made by a router. -/
def Genuine (net : TreeNetwork P C L Node) (action : Node × ControlStep L) :
    Prop :=
  ∀ fromPeer ann, action.2.action = .receive fromPeer (.announce ann) →
    announceVerified P ann = true → ann ∈ net.made

/-- What a network of new routers can come to. -/
def Reached (keys : Node → P.SigningKey) (net : TreeNetwork P C L Node) :
    Prop :=
  ∃ onionEphPubs actions,
    Along step Genuine (new keys onionEphPubs : TreeNetwork P C L Node)
      actions ∧
      run step (new keys onionEphPubs) actions = net

/-- The key of one of the routers. -/
def IsRouter (keys : Node → P.SigningKey) (key : Bytes 32) : Prop :=
  ∃ node, key = P.verifyingKey (keys node)

/-- Every root in a network is the key of one of the routers. -/
structure Rooted (keys : Node → P.SigningKey) (net : TreeNetwork P C L Node) :
    Prop where
  own : ∀ node, (net.routers node).pubKey = P.verifyingKey (keys node)
  routers : ∀ node, (net.routers node).RootsIn (IsRouter keys)
  made : ∀ ann ∈ net.made, IsRouter keys ann.root

variable {keys : Node → P.SigningKey} {net : TreeNetwork P C L Node}

/-- A genuine step keeps every root the key of a router. -/
theorem Rooted.step (rooted : Rooted keys net) (action : Node × ControlStep L)
    (genuine : Genuine net action) : Rooted keys (net.step action) := by
  rcases action with ⟨actor, step⟩
  have roots :=
    (rooted.routers actor).step ⟨actor, rooted.own actor⟩ step
      fun fromPeer ann received verified =>
        rooted.made ann (genuine fromPeer ann received verified)
  have own :=
    congrArg P.verifyingKey
      (ControlState.signingKey_step (net.routers actor) step)
  refine
    ⟨(Function.forall_update_iff net.routers
      fun node router => router.pubKey = _).mpr
        ⟨own.trans (rooted.own actor), fun node _ => rooted.own node⟩,
      (Function.forall_update_iff net.routers
        fun _ router => router.RootsIn _).mpr
        ⟨roots, fun node _ => rooted.routers node⟩, ?_⟩
  rcases step with ⟨env, action⟩
  dsimp only [TreeNetwork.step]
  cases action with
  | maintain =>
    intro ann member
    rcases List.mem_append.mp member with old | fresh
    · exact rooted.made ann old
    · rcases List.mem_map.mp fresh with ⟨out, sent, rfl⟩
      rcases ControlState.exists_of_mem_announced env _ sent with
        ⟨tree, _, root, _⟩
      dsimp only [ControlState.step, ControlState.perform] at roots
      rw [root]
      exact roots.trees tree
  | _ => exact rooted.made

theorem Reached.rooted (reached : Reached keys net) : Rooted keys net := by
  rcases reached with ⟨onionEphPubs, actions, genuine, rfl⟩
  refine
    @invariant_run _ _ step Genuine (Rooted keys)
      (fun _ action rooted genuine => rooted.step action genuine) _ _ ?_ genuine
  refine ⟨fun _ => rfl, fun node => ⟨fun tree => ⟨node, rfl⟩, ?_⟩, ?_⟩
  · intro key peer tree ann found
    cases found
  · intro ann member
    cases member

/--
Whatever happens in a network, the root that a router has in a tree, and
every root it has been told of, is the key of one of the routers.
-/
theorem roots_are_routers (reached : Reached keys net) (node : Node) :
    (net.routers node).RootsIn (IsRouter keys) :=
  reached.rooted.routers node

/--
The router with the least key, and every router with an unexpired offer of
that key, has it as root after its next tick.  What it announces there names
that root, and whoever has the router as a peer stores the announcement.
-/
theorem least_root_spreads (reached : Reached keys net)
    (signatures : P.SignaturesVerify) (env : ControlEnv L)
    (tree : Fin treeCount) (best node : Node)
    (least :
      ∀ other,
        ¬ metricIn C tree (currentTreeEpoch env) (P.verifyingKey (keys other)) <
          metricIn C tree (currentTreeEpoch env) (P.verifyingKey (keys best)))
    (told :
      node = best ∨
        ∃ key ann cost,
          ControlState.Offers env ((net.routers node).startTick env) tree key
            ann cost ∧
            ann.root = P.verifyingKey (keys best)) :
    let after := ControlState.doMaintenance env (net.routers node)
    (after.1.trees tree).root = P.verifyingKey (keys best) ∧
      ∀ out ∈ announcesOf after.2, treeIndex out.2.treeId = some tree →
        out.2.root = P.verifyingKey (keys best) ∧
        ∀ (peerEnv : ControlEnv L) (peer : ControlState P C L) key entry,
          peer.peers.lookup key = some entry →
            (peer.handleAnnounce peerEnv key out.2).peers.lookup key =
              some (entry.setAnnounce tree peerEnv.now out.2) := by
  intro after
  have rooted := reached.rooted
  have settled := ControlState.settled_doMaintenance env (net.routers node) tree
  have root : (after.1.trees tree).root = P.verifyingKey (keys best) := by
    rcases (rooted.routers node).settled ⟨node, rooted.own node⟩ settled with
      ⟨owner, same⟩
    apply metricIn_injective C tree (currentTreeEpoch env)
    apply Bytes.eq_of_not_lt
    · rw [same]
      exact least owner
    · rcases told with rfl | ⟨key, ann, cost, offers, told⟩
      · rw [← rooted.own, ← ControlState.pubKey_startTick env]
        exact settled.own
      · rw [← told]
        exact settled.best ⟨key, ann.root, _, cost⟩
          ((ControlState.mem_candidates_iff_offers env _).mpr
            ⟨ann, offers, rfl, rfl⟩)
  refine ⟨root, fun out member index => ?_⟩
  rcases ControlState.exists_of_mem_announced env _ member with
    ⟨settledTree, sameTree, announced, verified⟩
  rw [index, Option.some.injEq] at sameTree
  subst sameTree
  refine ⟨announced.trans root, fun peerEnv peer key entry found => ?_⟩
  rw [ControlState.peers_handleAnnounce peerEnv peer _ (verified signatures)
    index,
    KeyedMap.lookup_modify_self, found]
  rfl

end TreeNetwork

/-- The keys of two routers, one of them that of a root. -/
def pairKeys (near : Bool) : Primitives.transparent.SigningKey :=
  show Bytes 32 from if near then nearKey else rootKey

/-- The routers become peers, and the root announces itself to the other. -/
def announcedPair :
    TreeNetwork Primitives.transparent sampleCrates sampleFilters Bool :=
  run TreeNetwork.step (.new pairKeys fun _ => rootKey)
    [(false, sampleStep (.attach nearKey)),
      (true, sampleStep (.attach rootKey)),
      (false, sampleStep .maintain)]

/-- The other router has received the announcement. -/
def toldPair :
    TreeNetwork Primitives.transparent sampleCrates sampleFilters Bool :=
  announcedPair.step
    (true,
      sampleStep
        (.receive rootKey
          (.announce (announcedPair.made.headD foreignAnnounce))))

theorem reached_toldPair : TreeNetwork.Reached pairKeys toldPair := by
  refine ⟨fun _ => rootKey, [_, _, _, _], ⟨?_, ?_, ?_, ?_, trivial⟩, rfl⟩
  all_goals rintro _ _ ⟨⟩
  intro _
  decide +kernel

/--
A router that was told about its neighbour knows roots of the network only.
-/
theorem toldPair_roots_are_routers :
    (toldPair.routers true).RootsIn (TreeNetwork.IsRouter pairKeys) :=
  TreeNetwork.roots_are_routers reached_toldPair true

/-- The router told about the least key takes it for its root. -/
theorem toldPair_takes_least_root :
    (((ControlState.doMaintenance (sampleAt 0 0)
      (toldPair.routers true)).1.trees
      ⟨0, treeCount_pos⟩).root) = rootKey := by
  have offered :
      ((((toldPair.routers true).startTick (sampleAt 0 0)).peers.lookup
        rootKey).bind fun peer =>
        peer.trees ⟨0, treeCount_pos⟩).any
          fun ann => ann.root = rootKey ∧ ann.receivedAt = 0 := by
    decide +kernel
  rcases (Option.any_eq_true _ _).mp offered with ⟨ann, shown, fresh⟩
  rcases Option.bind_eq_some_iff.mp shown with ⟨peer, found, stored⟩
  have fresh := of_decide_eq_true fresh
  refine (TreeNetwork.least_root_spreads reached_toldPair
    Primitives.transparent_signaturesVerify
    (sampleAt 0 0) ⟨0, treeCount_pos⟩ false true (by decide +kernel)
    (.inr ⟨rootKey, ann, _, ⟨⟨peer, found, stored, rfl⟩, ?_⟩, fresh.1⟩)).1
  rw [fresh.2]
  decide

end Norn.Control
