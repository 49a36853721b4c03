import Norn.Control.Machine

/-!
# What the steps of a router do to its trees

Most of what a router does leaves the trees alone: it changes measurements
and tables, and notes when a peer was last heard of.  `Undisturbed` says so
once for all of it.  What is left are the announcements of peers and the
phases of `do_maintenance` that settle the trees and announce them.
-/

namespace Norn.Control

open Foundation Packet Router Session

variable {P : Primitives} {C : Crates} {L : FilterOps}

/-- A peer keeps its announcements; it may have been heard of. -/
structure Peer.Undisturbed (now : Instant) (old new : Peer C L) : Prop where
  trees : new.trees = old.trees
  heard : new.lastRxTime = old.lastRxTime ∨ new.lastRxTime = now

theorem Peer.Undisturbed.refl (now : Instant) (peer : Peer C L) :
    Peer.Undisturbed now peer peer :=
  ⟨rfl, Or.inl rfl⟩

theorem Peer.Undisturbed.trans {now : Instant} {first second third : Peer C L}
    (one : Peer.Undisturbed now first second)
    (two : Peer.Undisturbed now second third) :
    Peer.Undisturbed now first third where
  trees := two.trees.trans one.trees
  heard := by
    rcases two.heard with same | recent
    · rw [same]
      exact one.heard
    · exact Or.inr recent

/-- What is remembered of the last broadcast: its tick and its topology. -/
def ControlState.lastBroadcast (self : ControlState P C L) :
    UInt32 × Option ControlDigest :=
  (self.lastControlTick, self.lastControlDigest)

/-- The trees, the cadence and the announcements stay as they are. -/
structure Undisturbed (now : Instant)
    (before after : ControlState P C L) : Prop where
  signingKey : after.signingKey = before.signingKey
  trees : after.trees = before.trees
  tick : after.tick = before.tick
  lastBroadcast : after.lastBroadcast = before.lastBroadcast
  peers : KeyedMap.Related (Peer.Undisturbed now) before.peers after.peers

namespace Undisturbed

variable {now : Instant} {before middle after : ControlState P C L}

theorem of_eq (signingKey : after.signingKey = before.signingKey)
    (trees : after.trees = before.trees) (tick : after.tick = before.tick)
    (lastBroadcast : after.lastBroadcast = before.lastBroadcast)
    (peers : after.peers = before.peers) :
    Undisturbed now before after where
  signingKey := signingKey
  trees := trees
  tick := tick
  lastBroadcast := lastBroadcast
  peers := by
    rw [peers]
    exact KeyedMap.Related.refl (Peer.Undisturbed.refl now) _

theorem refl (now : Instant) (self : ControlState P C L) :
    Undisturbed now self self :=
  of_eq rfl rfl rfl rfl rfl

theorem trans (first : Undisturbed now before middle)
    (second : Undisturbed now middle after) :
    Undisturbed now before after where
  signingKey := second.signingKey.trans first.signingKey
  trees := second.trees.trans first.trees
  tick := second.tick.trans first.tick
  lastBroadcast := second.lastBroadcast.trans first.lastBroadcast
  peers :=
    KeyedMap.Related.trans Peer.Undisturbed.trans first.peers second.peers

theorem onPeer {key : Bytes 32} {change : Peer C L → Peer C L}
    (changed : ∀ peer, Peer.Undisturbed now peer (change peer))
    (self : ControlState P C L) :
    Undisturbed now self (self.onPeer key change) where
  signingKey := rfl
  trees := rfl
  tick := rfl
  lastBroadcast := rfl
  peers := KeyedMap.Related.modify (Peer.Undisturbed.refl now) changed

theorem inOrder {phases : List (Phase P C L)}
    (each : ∀ phase ∈ phases, ∀ self, Undisturbed now self (phase self).1)
    (self : ControlState P C L) :
    Undisturbed now self (Phase.inOrder phases self).1 := by
  refine @Phase.inOrder_invariant _ _ _ (Undisturbed now self) _ ?_ _ ?_
  · intro phase member middle before
    exact before.trans (each phase member middle)
  · exact refl now self

theorem onlyWhen {due : ControlState P C L → Bool} {phase : Phase P C L}
    (always : ∀ self, Undisturbed now self (phase self).1)
    (self : ControlState P C L) :
    Undisturbed now self (Phase.onlyWhen due phase self).1 := by
  unfold Phase.onlyWhen
  split_ifs
  · exact always self
  · exact refl now self

end Undisturbed

/-! ## Peers under measurement -/

theorem Peer.undisturbed_pinged (now : Instant) (peer : Peer C L) :
    Peer.Undisturbed now peer (peer.pinged now) := by
  unfold Peer.pinged
  split_ifs
  · exact ⟨rfl, Or.inl rfl⟩
  · exact ⟨rfl, Or.inl rfl⟩

theorem Peer.undisturbed_answered (now : Instant) (seq : UInt64)
    (peer : Peer C L) :
    Peer.Undisturbed now peer (peer.answered now seq) := by
  unfold Peer.answered
  cases peer.pendingSigReqTime with
  | none => exact ⟨rfl, Or.inr rfl⟩
  | some pending =>
    dsimp only
    split_ifs
    · exact ⟨rfl, Or.inr rfl⟩
    · exact ⟨rfl, Or.inr rfl⟩

namespace ControlState

variable (env : ControlEnv L) (self : ControlState P C L)

theorem undisturbed_touch (key : Bytes 32) (now : Instant) :
    Undisturbed now self (self.touch key now) := by
  apply Undisturbed.onPeer
  intro peer
  exact ⟨rfl, Or.inr rfl⟩

theorem undisturbed_decayTrust (via : Bytes 32) (now : Instant) :
    Undisturbed now self (self.decayTrust via) := by
  apply Undisturbed.onPeer
  intro peer
  exact ⟨rfl, Or.inl rfl⟩

theorem undisturbed_boostTrust (via : Bytes 32) (now : Instant) :
    Undisturbed now self (self.boostTrust via) := by
  apply Undisturbed.onPeer
  intro peer
  exact ⟨rfl, Or.inl rfl⟩

theorem undisturbed_recordRemoteOnionKey (now : Instant)
    (origin : Bytes 32) (seq : UInt64) (eph : Bytes 32) :
    Undisturbed now self (self.recordRemoteOnionKey env origin seq eph) := by
  unfold recordRemoteOnionKey
  split_ifs
  · cases self.victim env self.remoteOnionKeys.keys with
    | none => exact Undisturbed.refl now self
    | some key => exact Undisturbed.of_eq rfl rfl rfl rfl rfl
  · exact Undisturbed.of_eq rfl rfl rfl rfl rfl

theorem undisturbed_recordReputation (now : Instant)
    (observer observed : Bytes 32) (record : ReputationEntry C) :
    Undisturbed now self
      (self.recordReputation env observer observed record) := by
  unfold recordReputation
  split_ifs
  · cases self.victim env self.reputation.keys with
    | none => exact Undisturbed.refl now self
    | some key => exact Undisturbed.of_eq rfl rfl rfl rfl rfl
  · exact Undisturbed.of_eq rfl rfl rfl rfl rfl

theorem undisturbed_confirmProbe (now : Instant) (id : UInt64) :
    Undisturbed now self (self.confirmProbe id) := by
  unfold confirmProbe
  cases self.pendingProbes.lookup id with
  | none => exact Undisturbed.refl now self
  | some probe =>
    refine Undisturbed.trans ?_ (undisturbed_boostTrust _ probe.1 now)
    exact Undisturbed.of_eq rfl rfl rfl rfl rfl

theorem undisturbed_reportOn (now : Instant) (observed : Bytes 32)
    (trust : C.F32) :
    Undisturbed now self (reportOn env observed trust self).1 := by
  refine Undisturbed.trans ?_ (undisturbed_recordReputation env _ now _ _ _)
  exact Undisturbed.of_eq rfl rfl rfl rfl rfl

theorem undisturbed_cleanupStaleProbes (now : Instant) :
    Undisturbed now self (self.cleanupStaleProbes env) := by
  unfold cleanupStaleProbes
  generalize self.pendingProbes.entries.filter (probeExpired env.now) = stale
  induction stale generalizing self with
  | nil => exact Undisturbed.refl now self
  | cons entry rest induction =>
    have dropped : Undisturbed now self (self.dropProbe entry) := by
      refine Undisturbed.trans ?_ (undisturbed_decayTrust _ entry.2.1 now)
      exact Undisturbed.of_eq rfl rfl rfl rfl rfl
    exact dropped.trans (induction (self.dropProbe entry))

/-- Only an announcement changes the announcements of the peers. -/
theorem undisturbed_dispatch {fromPeer : Bytes 32} {frame : ControlFrame L}
    (other : ∀ ann, frame ≠ .announce ann) :
    Undisturbed env.now self (dispatch env fromPeer frame self).1 := by
  cases frame with
  | keepAlive => exact undisturbed_touch self fromPeer env.now
  | sigReq req => exact undisturbed_touch self fromPeer env.now
  | sigRes res =>
    simp only [dispatch, handleSigRes]
    split_ifs
    · exact Undisturbed.onPeer (Peer.undisturbed_answered env.now res.seq) self
    · exact Undisturbed.refl env.now self
  | announce ann => exact (other ann rfl).elim
  | coordAnnounce ann =>
    simp only [dispatch, handleCoordAnnounce]
    split_ifs
    · exact undisturbed_decayTrust self fromPeer env.now
    · exact Undisturbed.refl env.now self
  | cuckoo msg =>
    simp only [dispatch, handleCuckoo]
    cases treeIndex msg.treeId with
    | none => exact Undisturbed.refl env.now self
    | some tree =>
      apply Undisturbed.onPeer
      intro peer
      exact ⟨rfl, Or.inr rfl⟩
  | pathLookup lookup =>
    simp only [dispatch, handlePathLookup]
    split_ifs
    · exact Undisturbed.refl env.now self
    · exact Undisturbed.of_eq rfl rfl rfl rfl rfl
    · exact Undisturbed.of_eq rfl rfl rfl rfl rfl
  | pathNotify notify =>
    have touched := undisturbed_touch self fromPeer env.now
    simp only [dispatch, handlePathNotify]
    split_ifs
    · exact touched.trans (undisturbed_confirmProbe _ env.now notify.id)
    · cases env.nextHop notify.source with
      | none => exact touched
      | some next => exact touched
  | onionKeyAnnounce ann =>
    simp only [dispatch, handleOnionKeyAnnounce]
    split_ifs
    · exact undisturbed_recordRemoteOnionKey env self env.now _ _ _
    · exact Undisturbed.refl env.now self
  | reputationReport report =>
    simp only [dispatch, handleReputationReport]
    split_ifs
    · exact undisturbed_recordReputation env self env.now _ _ _
    · exact Undisturbed.refl env.now self

theorem undisturbed_servicePhases :
    Undisturbed env.now self (Phase.inOrder (servicePhases env) self).1 := by
  apply Undisturbed.inOrder
  intro phase member self
  simp only [servicePhases, List.mem_cons, List.not_mem_nil, or_false] at member
  rcases member with rfl | rfl | rfl | rfl | rfl | rfl | rfl
  · apply Undisturbed.onlyWhen
    intro self
    exact
      { signingKey := rfl
        trees := rfl
        tick := rfl
        lastBroadcast := rfl
        peers :=
          KeyedMap.Related.mapValues fun _ peer =>
            Peer.undisturbed_pinged env.now peer }
  · exact
      Undisturbed.onlyWhen (fun self => Undisturbed.of_eq rfl rfl rfl rfl rfl)
        self
  · exact
      Undisturbed.onlyWhen (fun self => Undisturbed.of_eq rfl rfl rfl rfl rfl)
        self
  · apply Undisturbed.onlyWhen
    intro self
    unfold probeCuckooClaim
    cases self.probeChoice env with
    | none => exact Undisturbed.refl env.now self
    | some choice => exact Undisturbed.of_eq rfl rfl rfl rfl rfl
  · apply Undisturbed.onlyWhen
    intro self
    apply Undisturbed.inOrder
    intro phase member self
    rcases List.mem_map.mp member with ⟨entry, _, rfl⟩
    exact undisturbed_reportOn env self env.now entry.1 entry.2.trust
  · exact undisturbed_cleanupStaleProbes env self env.now
  · exact Undisturbed.of_eq rfl rfl rfl rfl rfl

end ControlState

namespace ControlState

variable (env : ControlEnv L) (self : ControlState P C L)

variable (fromPeer : Bytes 32)

/-- An announcement is dropped, or stored with the peer that sent it. -/
theorem handleAnnounce_cases (ann : Announce) :
    (self.handleAnnounce env fromPeer ann).signingKey = self.signingKey ∧
      (self.handleAnnounce env fromPeer ann).trees = self.trees ∧
      (self.handleAnnounce env fromPeer ann).tick = self.tick ∧
      (self.handleAnnounce env fromPeer ann).lastBroadcast =
        self.lastBroadcast ∧
      ((self.handleAnnounce env fromPeer ann).peers = self.peers ∨
        announceVerified P ann = true ∧
          ∃ tree, treeIndex ann.treeId = some tree ∧
            (self.handleAnnounce env fromPeer ann).peers =
              self.peers.modify fromPeer
                (Peer.setAnnounce tree env.now ann)) := by
  unfold handleAnnounce noteChange
  cases verified : announceVerified P ann with
  | false => exact ⟨rfl, rfl, rfl, rfl, Or.inl rfl⟩
  | true =>
    cases index : treeIndex ann.treeId with
    | none => exact ⟨rfl, rfl, rfl, rfl, Or.inl rfl⟩
    | some tree =>
      simp only [Bool.not_true, Bool.false_eq_true, if_false]
      split_ifs <;>
        exact ⟨rfl, rfl, rfl, rfl, Or.inr ⟨trivial, tree, rfl, rfl⟩⟩

theorem peers_handleAnnounce {ann : Announce} {tree : Fin treeCount}
    (verified : announceVerified P ann = true)
    (index : treeIndex ann.treeId = some tree) :
    (self.handleAnnounce env fromPeer ann).peers =
      self.peers.modify fromPeer (Peer.setAnnounce tree env.now ann) := by
  unfold handleAnnounce noteChange
  rw [verified, index]
  simp only [Bool.not_true, Bool.false_eq_true, if_false]
  split_ifs <;> rfl

theorem keys_dispatch (frame : ControlFrame L) :
    (dispatch env fromPeer frame self).1.peers.keys =
      self.peers.keys := by
  by_cases announces : ∃ ann, frame = .announce ann
  · rcases announces with ⟨ann, rfl⟩
    rcases (handleAnnounce_cases env self fromPeer ann).2.2.2.2 with
      same | ⟨_, tree, _, changed⟩
    · exact congrArg KeyedMap.keys same
    · exact (congrArg KeyedMap.keys changed).trans (KeyedMap.keys_modify _)
  · exact
      (undisturbed_dispatch env self
        fun ann same => announces ⟨ann, same⟩).peers.keys

end ControlState

/-! ## The best offer -/

/-- The best of the offers seen so far. -/
def BestOf (seen : List Candidate) : Option Candidate → Prop
  | none => seen = []
  | some best =>
    best ∈ seen ∧ ∀ candidate ∈ seen, ¬ candidate.metric < best.metric

theorem Candidate.better_eq_false_iff {candidate best : Candidate} :
    candidate.better best = false ↔
      ¬ candidate.metric < best.metric ∧
        (candidate.metric = best.metric →
          best.cost.toNat ≤ candidate.cost.toNat) := by
  unfold Candidate.better metricLess
  by_cases below : candidate.metric < best.metric
  · simp [below]
  · by_cases same : candidate.metric = best.metric
    · simp [same, UInt64.le_iff_toNat_le]
    · simp [below, same]

theorem Candidate.weakOrder_better : Selection.WeakOrder Candidate.better where
  irreflexive candidate :=
    better_eq_false_iff.mpr
      ⟨fun below => Bytes.lt_asymm below below, fun _ => Nat.le_refl _⟩
  asymmetric first second wins := by
    rw [better_eq_false_iff]
    unfold Candidate.better metricLess at wins
    by_cases below : first.metric < second.metric
    · refine ⟨Bytes.lt_asymm below, fun same => ?_⟩
      rw [same] at below
      exact (Bytes.lt_asymm below below).elim
    · by_cases same : first.metric = second.metric
      · simp only [below, decide_false, Bool.false_eq_true, if_false,
          if_pos same, decide_eq_true_eq] at wins
        refine ⟨?_, fun _ => ?_⟩
        · rw [← same]
          exact fun own => Bytes.lt_asymm own own
        · exact Nat.le_of_lt (UInt64.lt_iff_toNat_lt.mp wins)
      · simp [below, same] at wins
  chained first second third low high := by
    rw [better_eq_false_iff] at low high ⊢
    refine ⟨Bytes.not_lt_trans low.1 high.1, fun same => ?_⟩
    have level : second.metric = first.metric := by
      apply Bytes.eq_of_not_lt low.1
      rw [← same]
      exact high.1
    exact (low.2 level).trans (high.2 (same.trans level.symm))

theorem Candidate.improve_eq_keep :
    Candidate.improve = Selection.keep Candidate.better := by
  funext best candidate
  cases best <;> rfl

namespace ControlState

variable (env : ControlEnv L) (self : ControlState P C L)

variable (tree : Fin treeCount)

theorem unbeaten_bestCandidate :
    Selection.Unbeaten Candidate.better (self.candidates env tree)
      (self.bestCandidate env tree) := by
  unfold bestCandidate
  rw [Candidate.improve_eq_keep]
  exact Selection.unbeaten_select Candidate.weakOrder_better _

theorem bestOf_bestCandidate :
    BestOf (self.candidates env tree) (self.bestCandidate env tree) := by
  have unbeaten := unbeaten_bestCandidate env self tree
  cases offered : self.bestCandidate env tree with
  | none =>
    rw [offered] at unbeaten
    exact unbeaten
  | some best =>
    rw [offered] at unbeaten
    refine ⟨unbeaten.1, fun candidate member => ?_⟩
    exact (Candidate.better_eq_false_iff.mp (unbeaten.2 candidate member)).1

theorem mem_candidates {tree : Fin treeCount} {candidate : Candidate} :
    candidate ∈ self.candidates env tree ↔
      ∃ key peer, self.peers.lookup key = some peer ∧
        candidateOf env tree (key, peer) = some candidate := by
  simp only [candidates, peerEntries, peerKeys, List.mem_filterMap,
    Option.map_eq_some_iff]
  constructor
  · rintro ⟨_, ⟨key, _, peer, found, rfl⟩, offered⟩
    exact ⟨key, peer, found, offered⟩
  · rintro ⟨key, peer, found, offered⟩
    have member : key ∈ env.order.arrange self.peers.keys :=
      (env.order.perm _).mem_iff.mpr (KeyedMap.mem_keys_of_lookup found)
    exact ⟨(key, peer), ⟨key, member, peer, found, rfl⟩, offered⟩

theorem metric_of_mem_candidates {tree : Fin treeCount} {candidate : Candidate}
    (member : candidate ∈ self.candidates env tree) :
    candidate.metric =
      metricIn C tree (currentTreeEpoch env) candidate.root := by
  rcases (mem_candidates env self).mp member with ⟨key, peer, _, offered⟩
  unfold candidateOf at offered
  cases stored : peer.trees tree with
  | none => simp [stored] at offered
  | some ann =>
    simp only [stored] at offered
    split_ifs at offered
    rw [Option.some.injEq] at offered
    rw [← offered]

/-- A root is the best of the offers and the router itself. -/
structure BestRoot (env : ControlEnv L) (router : ControlState P C L)
    (tree : Fin treeCount) (root : Bytes 32) : Prop where
  origin :
    root = router.pubKey ∨
      ∃ candidate ∈ router.candidates env tree, root = candidate.root
  own :
    ¬ metricIn C tree (currentTreeEpoch env) router.pubKey <
      metricIn C tree (currentTreeEpoch env) root
  best :
    ∀ candidate ∈ router.candidates env tree,
      ¬ candidate.metric < metricIn C tree (currentTreeEpoch env) root

theorem BestRoot.congr {env : ControlEnv L}
    {router other : ControlState P C L} {tree : Fin treeCount}
    {root : Bytes 32} (settled : BestRoot env router tree root)
    (signingKey : other.signingKey = router.signingKey)
    (peers : other.peers = router.peers) :
    BestRoot env other tree root := by
  have sameKey : other.pubKey = router.pubKey := by
    rw [pubKey, pubKey, signingKey]
  have sameOffers : other.candidates env tree = router.candidates env tree := by
    simp only [candidates, peerEntries, peerKeys, peers]
  constructor
  · rw [sameKey, sameOffers]
    exact settled.origin
  · rw [sameKey]
    exact settled.own
  · rw [sameOffers]
    exact settled.best

theorem root_damped (best : Candidate) :
    (self.damped env tree best).root = best.root := by
  unfold damped
  cases self.incumbent env tree with
  | none => rfl
  | some current =>
    dsimp only
    split_ifs <;> rfl

/-- The candidate chosen has the best root on offer. -/
theorem settled_chosen :
    BestRoot env self tree (match self.chosen env tree with
      | none => self.pubKey
      | some candidate => candidate.root) := by
  have irreflexive : ∀ metric : Bytes 32, ¬ metric < metric :=
    fun _ below => Bytes.lt_asymm below below
  have bestOf := bestOf_bestCandidate env self tree
  unfold chosen
  cases offered : self.bestCandidate env tree with
  | none =>
    rw [offered] at bestOf
    refine ⟨Or.inl rfl, irreflexive _, ?_⟩
    rw [show self.candidates env tree = [] from bestOf]
    exact fun _ member => (List.not_mem_nil member).elim
  | some best =>
    rw [offered] at bestOf
    have metric := metric_of_mem_candidates env self bestOf.1
    dsimp only
    split_ifs with ownBest
    · refine ⟨Or.inl rfl, irreflexive _, ?_⟩
      intro candidate member
      exact
        Bytes.not_lt_trans (Bytes.lt_asymm (of_decide_eq_true ownBest))
          (bestOf.2 candidate member)
    · dsimp only
      rw [root_damped]
      refine ⟨Or.inr ⟨best, bestOf.1, rfl⟩, ?_, ?_⟩
      · rw [← metric]
        exact fun below => ownBest (decide_eq_true below)
      · rw [← metric]
        exact bestOf.2

/-- Everything a tree phase leaves alone, but the trees. -/
structure TreePhase (before after : ControlState P C L) : Prop where
  signingKey : after.signingKey = before.signingKey
  peers : after.peers = before.peers
  tick : after.tick = before.tick
  lastBroadcast : after.lastBroadcast = before.lastBroadcast

theorem TreePhase.trans {first second third : ControlState P C L}
    (one : TreePhase first second) (two : TreePhase second third) :
    TreePhase first third where
  signingKey := two.signingKey.trans one.signingKey
  peers := two.peers.trans one.peers
  tick := two.tick.trans one.tick
  lastBroadcast := two.lastBroadcast.trans one.lastBroadcast

theorem treePhase_fixTree :
    TreePhase self (self.fixTree env tree) ∧
      ∀ other, other ≠ tree →
        (self.fixTree env tree).trees other = self.trees other := by
  have elsewhere :
      ∀ (value : TreeState) other, other ≠ tree →
        (self.setTree tree value).trees other = self.trees other := by
    intro value other different
    exact if_neg different
  unfold fixTree noteChange
  cases self.chosen env tree with
  | none =>
    dsimp only
    unfold becomeRoot
    split_ifs <;> exact ⟨⟨rfl, rfl, rfl, rfl⟩, elsewhere _⟩
  | some candidate =>
    dsimp only
    unfold joinTree
    split_ifs <;> exact ⟨⟨rfl, rfl, rfl, rfl⟩, elsewhere _⟩

theorem root_fixTree :
    ((self.fixTree env tree).trees tree).root = match self.chosen env tree with
      | none => self.pubKey
      | some candidate => candidate.root := by
  have here :
      ∀ value : TreeState, (self.setTree tree value).trees tree = value :=
    fun value => if_pos rfl
  unfold fixTree noteChange
  cases self.chosen env tree with
  | none =>
    dsimp only
    unfold becomeRoot
    split_ifs <;> simp only [here]
  | some candidate =>
    dsimp only
    unfold joinTree
    split_ifs <;> simp only [here]

theorem treePhase_cuckoo :
    TreePhase self (cuckooDoMaintenance env tree self).1 ∧
      (cuckooDoMaintenance env tree self).1.trees = self.trees := by
  simp only [cuckooDoMaintenance, advanceGeneration]
  split_ifs
  · exact ⟨⟨rfl, rfl, rfl, rfl⟩, rfl⟩
  · exact ⟨⟨rfl, rfl, rfl, rfl⟩, rfl⟩

theorem treePhases_spec :
    TreePhase self (Phase.inOrder (treePhases env tree) self).1 ∧
      BestRoot env self tree
        ((Phase.inOrder (treePhases env tree) self).1.trees tree).root ∧
      ∀ other, other ≠ tree →
        (Phase.inOrder (treePhases env tree) self).1.trees other =
          self.trees other := by
  have fixed := treePhase_fixTree env self tree
  have gossiped := treePhase_cuckoo env (self.fixTree env tree) tree
  have settled := settled_chosen env self tree
  rw [← root_fixTree] at settled
  have phases :
      (Phase.inOrder (treePhases env tree) self).1 =
        (cuckooDoMaintenance env tree (self.fixTree env tree)).1 :=
    rfl
  rw [phases, gossiped.2]
  exact ⟨fixed.1.trans gossiped.1, settled, fixed.2⟩

/-- Maintenance settles each tree on its best root and leaves the others. -/
theorem settled_treePhases (trees : List (Fin treeCount)) :
    TreePhase self (Phase.inOrder (trees.flatMap (treePhases env)) self).1 ∧
      (∀ tree ∈ trees,
        BestRoot env self tree
          ((Phase.inOrder (trees.flatMap (treePhases env)) self).1.trees
            tree).root) ∧
      ∀ tree, tree ∉ trees →
        (Phase.inOrder (trees.flatMap (treePhases env)) self).1.trees tree =
          self.trees tree := by
  induction trees generalizing self with
  | nil =>
    exact
      ⟨⟨rfl, rfl, rfl, rfl⟩,
        fun _ member => (List.not_mem_nil member).elim, fun _ _ => rfl⟩
  | cons tree rest induction =>
    have first := treePhases_spec env self tree
    have others := induction (Phase.inOrder (treePhases env tree) self).1
    rw [List.flatMap_cons, Phase.inOrder_append]
    refine ⟨first.1.trans others.1, ?_, ?_⟩
    · intro settled member
      by_cases later : settled ∈ rest
      · exact
          (others.2.1 settled later).congr first.1.signingKey.symm
            first.1.peers.symm
      · rcases List.mem_cons.mp member with same | inRest
        · subst same
          rw [others.2.2 settled later]
          exact first.2.1
        · exact (later inRest).elim
    · intro other absent
      rw [List.mem_cons, not_or] at absent
      rw [others.2.2 other absent.2]
      exact first.2.2 other absent.1

end ControlState

end Norn.Control
