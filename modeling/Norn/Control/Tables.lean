import Norn.Control.Machine

/-!
# What the phases of a tick send and leave alone

Each phase of `do_maintenance` sends frames of one kind, and only two of them
touch the probes and the reputation table.
-/

namespace Norn.Control

open Foundation Packet Router Session

variable {P : Primitives} {C : Crates} {L : FilterOps}

/-! ## Kinds of frames -/

/-- The kinds of control frames. -/
inductive FrameKind where
  | keepAlive
  | sigReq
  | sigRes
  | announce
  | coordAnnounce
  | cuckoo
  | pathLookup
  | pathNotify
  | onionKeyAnnounce
  | reputationReport
  deriving DecidableEq

/-- The kind of a frame. -/
def ControlFrame.kind : ControlFrame L → FrameKind
  | .keepAlive => .keepAlive
  | .sigReq _ => .sigReq
  | .sigRes _ => .sigRes
  | .announce _ => .announce
  | .coordAnnounce _ => .coordAnnounce
  | .cuckoo _ => .cuckoo
  | .pathLookup _ => .pathLookup
  | .pathNotify _ => .pathNotify
  | .onionKeyAnnounce _ => .onionKeyAnnounce
  | .reputationReport _ => .reputationReport

/-- All frames that a phase sends are of these kinds. -/
def SendsOnly (kinds : List FrameKind) (phase : Phase P C L) : Prop :=
  ∀ self, ∀ frame ∈ (phase self).2, frame.2.kind ∈ kinds

namespace SendsOnly

variable {kinds more : List FrameKind} {phase : Phase P C L}

theorem mono (sends : SendsOnly kinds phase) (included : kinds ⊆ more) :
    SendsOnly more phase :=
  fun self frame member => included (sends self frame member)

theorem inOrder {phases : List (Phase P C L)}
    (each : ∀ phase ∈ phases, SendsOnly kinds phase) :
    SendsOnly kinds (Phase.inOrder phases) := by
  induction phases with
  | nil => exact fun _ _ member => (List.not_mem_nil member).elim
  | cons phase rest induction =>
    intro self frame member
    rcases List.mem_append.mp member with first | later
    · exact each phase List.mem_cons_self self frame first
    · refine induction ?_ _ frame later
      exact fun other inRest => each other (List.mem_cons_of_mem _ inRest)

theorem quietly (change : ControlState P C L → ControlState P C L) :
    SendsOnly kinds (Phase.quietly change) :=
  fun _ _ member => (List.not_mem_nil member).elim

theorem onlyWhen {due : ControlState P C L → Bool}
    (sends : SendsOnly kinds phase) :
    SendsOnly kinds (Phase.onlyWhen due phase) := by
  intro self frame member
  unfold Phase.onlyWhen at member
  split_ifs at member
  · exact sends self frame member
  · exact (List.not_mem_nil member).elim

end SendsOnly

namespace ControlState

variable (env : ControlEnv L)

theorem eq_of_mem_sendToAll {self : ControlState P C L} {content frame}
    (member : frame ∈ self.sendToAll env content) :
    frame.2 = content := by
  rcases List.mem_map.mp member with ⟨_, _, rfl⟩
  rfl

theorem eq_of_mem_sendToPeer {self : ControlState P C L} {peer : Bytes 32}
    {content frame}
    (member : frame ∈ self.sendToPeer peer content) :
    frame = (peer, content) := by
  unfold sendToPeer at member
  split_ifs at member
  · exact List.mem_singleton.mp member
  · exact (List.not_mem_nil member).elim

theorem mem_keys_of_mem_sendToPeer {self : ControlState P C L} {peer : Bytes 32}
    {content frame}
    (member : frame ∈ self.sendToPeer peer content) :
    frame.1 ∈ self.peers.keys := by
  unfold sendToPeer at member
  split_ifs at member with known
  · rcases Option.isSome_iff_exists.mp known with ⟨entry, found⟩
    rw [List.mem_singleton.mp member]
    exact KeyedMap.mem_keys_of_lookup found
  · exact (List.not_mem_nil member).elim

theorem sendsOnly_cuckoo (tree : Fin treeCount) :
    SendsOnly [.cuckoo] (cuckooDoMaintenance env tree : Phase P C L) := by
  intro self frame member
  rw [List.mem_singleton]
  rcases List.mem_append.mp member with upstream | downstream
  · unfold sendUpstream at upstream
    split at upstream
    · exact (List.not_mem_nil upstream).elim
    · rw [eq_of_mem_sendToPeer upstream]
      rfl
  · rcases List.mem_map.mp downstream with ⟨_, _, rfl⟩
    rfl

theorem sendsOnly_maybeBroadcastControl :
    SendsOnly [.announce, .coordAnnounce]
      (maybeBroadcastControl env : Phase P C L) := by
  intro self frame member
  simp only [maybeBroadcastControl] at member
  split_ifs at member
  · rcases List.mem_append.mp member with announced | coordinate
    · rcases List.mem_flatMap.mp announced with ⟨tree, _, sent⟩
      rw [eq_of_mem_sendToAll env sent]
      exact List.mem_cons_self
    · rw [eq_of_mem_sendToAll env coordinate]
      exact List.mem_cons_of_mem _ List.mem_cons_self
  · exact (List.not_mem_nil member).elim

theorem sendsOnly_sendKeepalives :
    SendsOnly [.sigReq] (sendKeepalives env : Phase P C L) := by
  intro self frame member
  rcases List.mem_map.mp member with ⟨_, _, rfl⟩
  exact List.mem_singleton.mpr rfl

theorem sendsOnly_broadcastOnionKeyAnnounce :
    SendsOnly [.onionKeyAnnounce]
      (broadcastOnionKeyAnnounce env : Phase P C L) := by
  intro self frame member
  rw [eq_of_mem_sendToAll env member]
  exact List.mem_singleton.mpr rfl

theorem sendsOnly_rotateOnionKeys :
    SendsOnly [.onionKeyAnnounce] (rotateOnionKeys env : Phase P C L) :=
  fun _ => sendsOnly_broadcastOnionKeyAnnounce env _

theorem sendsOnly_probeCuckooClaim :
    SendsOnly [.pathLookup] (probeCuckooClaim env : Phase P C L) := by
  intro self frame member
  unfold probeCuckooClaim at member
  split at member
  · exact (List.not_mem_nil member).elim
  · rw [eq_of_mem_sendToPeer member]
    exact List.mem_singleton.mpr rfl

theorem sendsOnly_broadcastReputation :
    SendsOnly [.reputationReport] (broadcastReputation env : Phase P C L) := by
  intro self
  apply SendsOnly.inOrder
  intro phase member self frame sent
  rcases List.mem_map.mp member with ⟨entry, _, rfl⟩
  rw [eq_of_mem_sendToAll env sent]
  exact List.mem_singleton.mpr rfl

theorem sendsOnly_treePhases (trees : List (Fin treeCount)) :
    SendsOnly [.cuckoo]
      (Phase.inOrder (trees.flatMap (treePhases env)) : Phase P C L) := by
  apply SendsOnly.inOrder
  intro phase member
  rcases List.mem_flatMap.mp member with ⟨tree, _, inTree⟩
  simp only [treePhases, List.mem_cons, List.not_mem_nil, or_false] at inTree
  rcases inTree with rfl | rfl
  · exact SendsOnly.quietly _
  · exact sendsOnly_cuckoo env tree

end ControlState

/-- The probes and the reputation table stay as they are. -/
structure SameTables (before after : ControlState P C L) : Prop where
  pendingProbes : after.pendingProbes = before.pendingProbes
  reputation : after.reputation = before.reputation

theorem SameTables.trans {first second third : ControlState P C L}
    (one : SameTables first second) (two : SameTables second third) :
    SameTables first third where
  pendingProbes := two.pendingProbes.trans one.pendingProbes
  reputation := two.reputation.trans one.reputation

namespace ControlState

variable (env : ControlEnv L) (self : ControlState P C L)

theorem sameTables_fixTree (tree : Fin treeCount) :
    SameTables self (self.fixTree env tree) := by
  unfold fixTree noteChange
  cases self.chosen env tree with
  | none =>
    dsimp only
    unfold becomeRoot
    split_ifs <;> exact ⟨rfl, rfl⟩
  | some candidate =>
    dsimp only
    unfold joinTree
    split_ifs <;> exact ⟨rfl, rfl⟩

theorem sameTables_cuckoo (tree : Fin treeCount) :
    SameTables self (cuckooDoMaintenance env tree self).1 := by
  simp only [cuckooDoMaintenance, advanceGeneration]
  split_ifs <;> exact ⟨rfl, rfl⟩

theorem sameTables_expirePeers : SameTables self (self.expirePeers env) := by
  unfold expirePeers
  generalize self.expired env = keys
  induction keys generalizing self with
  | nil => exact ⟨rfl, rfl⟩
  | cons key rest induction =>
    have removed : SameTables self (self.removePeer key) := ⟨rfl, rfl⟩
    exact removed.trans (induction (self.removePeer key))

theorem sameTables_maybeBroadcastControl :
    SameTables self (maybeBroadcastControl env self).1 := by
  simp only [maybeBroadcastControl, noteChange]
  split_ifs <;> exact ⟨rfl, rfl⟩

theorem sameTables_of_mem_topologyPhases {phase : Phase P C L}
    (member : phase ∈ topologyPhases env) :
    SameTables self (phase self).1 := by
  simp only [topologyPhases, List.cons_append, List.mem_cons,
    List.mem_append, List.mem_flatMap, treePhases, List.not_mem_nil,
    or_false] at member
  rcases member with rfl | rfl | ⟨tree, _, rfl | rfl⟩ | rfl
  · exact ⟨rfl, rfl⟩
  · exact sameTables_expirePeers env self
  · exact sameTables_fixTree env self tree
  · exact sameTables_cuckoo env self tree
  · exact sameTables_maybeBroadcastControl env self

theorem sendsOnly_of_mem_topologyPhases {phase : Phase P C L}
    (member : phase ∈ topologyPhases env) :
    SendsOnly [.cuckoo, .announce, .coordAnnounce] phase := by
  simp only [topologyPhases, List.cons_append, List.mem_cons,
    List.mem_append, List.mem_flatMap, treePhases, List.not_mem_nil,
    or_false] at member
  rcases member with rfl | rfl | ⟨tree, _, rfl | rfl⟩ | rfl
  · exact SendsOnly.quietly _
  · exact SendsOnly.quietly _
  · exact SendsOnly.quietly _
  · exact (sendsOnly_cuckoo env tree).mono (by simp)
  · exact (sendsOnly_maybeBroadcastControl env).mono (by simp)

/-- Storing an onion key changes the table of onion keys only. -/
theorem recordRemoteOnionKey_eq (origin : Bytes 32) (seq : UInt64)
    (eph : Bytes 32) :
    self.recordRemoteOnionKey env origin seq eph =
      { self with
        remoteOnionKeys :=
          (self.recordRemoteOnionKey env origin seq eph).remoteOnionKeys } := by
  unfold recordRemoteOnionKey
  split_ifs
  · cases self.victim env self.remoteOnionKeys.keys with
    | none => rfl
    | some key => rfl
  · rfl

/-- Storing an observation changes the reputation table only. -/
theorem recordReputation_eq (observer observed : Bytes 32)
    (record : ReputationEntry C) :
    self.recordReputation env observer observed record =
      { self with
        reputation :=
          (self.recordReputation env observer observed record).reputation
            } := by
  unfold recordReputation
  split_ifs
  · cases self.victim env self.reputation.keys with
    | none => rfl
    | some key => rfl
  · rfl

theorem pendingProbes_broadcastReputation :
    (broadcastReputation env self).1.pendingProbes =
      self.pendingProbes := by
  refine
    @Phase.inOrder_invariant P C L
      (fun router => router.pendingProbes = self.pendingProbes) _ ?_ self rfl
  intro phase member router same
  rcases List.mem_map.mp member with ⟨entry, _, rfl⟩
  rw [reportOn, recordReputation_eq]
  exact same

/--
What a frame of a kind leaves alone: all but the peers and the tables of its
kind.
-/
structure Reaches (kind : FrameKind) (before after : ControlState P C L) :
    Prop where
  rest :
    after =
      { before with
        peers := after.peers
        landmarks := after.landmarks
        lastTopologyChangeTick := after.lastTopologyChangeTick
        pendingLookups := after.pendingLookups
        pendingProbes := after.pendingProbes
        remoteOnionKeys := after.remoteOnionKeys
        reputation := after.reputation }
  landmarks : kind ≠ .announce → after.landmarks = before.landmarks
  topology :
    kind ≠ .announce →
      after.lastTopologyChangeTick = before.lastTopologyChangeTick
  lookups : kind ≠ .pathLookup → after.pendingLookups = before.pendingLookups
  probes : kind ≠ .pathNotify → after.pendingProbes = before.pendingProbes
  onionKeys :
    kind ≠ .onionKeyAnnounce → after.remoteOnionKeys = before.remoteOnionKeys
  reports : kind ≠ .reputationReport → after.reputation = before.reputation

theorem Reaches.withPeers {before : ControlState P C L}
    (kind : FrameKind) (peers : KeyedMap (Bytes 32) (Peer C L)) :
    Reaches kind before { before with peers := peers } := by
  constructor <;> intros <;> rfl

theorem reaches_handleAnnounce (fromPeer : Bytes 32) (ann : Announce) :
    Reaches .announce self (self.handleAnnounce env fromPeer ann) := by
  simp only [handleAnnounce, noteChange]
  split_ifs
  · exact .withPeers _ self.peers
  · cases treeIndex ann.treeId with
    | none => exact .withPeers _ self.peers
    | some tree =>
      dsimp only
      split_ifs <;>
        exact
          ⟨rfl, fun other => (other rfl).elim,
            fun other => (other rfl).elim, fun _ => rfl, fun _ => rfl,
            fun _ => rfl, fun _ => rfl⟩

theorem reaches_handlePathNotify (fromPeer : Bytes 32) (notify : PathNotify) :
    Reaches .pathNotify self (self.handlePathNotify env fromPeer notify).1 := by
  simp only [handlePathNotify]
  split_ifs
  · unfold confirmProbe
    cases (self.touch fromPeer env.now).pendingProbes.lookup notify.id with
    | none => exact .withPeers _ _
    | some probe =>
      exact
        ⟨rfl, fun _ => rfl, fun _ => rfl, fun _ => rfl,
          fun other => (other rfl).elim, fun _ => rfl, fun _ => rfl⟩
  · cases env.nextHop notify.source with
    | none => exact .withPeers _ _
    | some next => exact .withPeers _ _

/-- Each frame leaves all but the tables of its kind alone. -/
theorem reaches_dispatch (fromPeer : Bytes 32) (frame : ControlFrame L) :
    Reaches frame.kind self (dispatch env fromPeer frame self).1 := by
  cases frame with
  | keepAlive => exact .withPeers _ _
  | sigReq req => exact .withPeers _ _
  | sigRes res =>
    simp only [dispatch, handleSigRes]
    split_ifs
    · exact .withPeers _ _
    · exact .withPeers _ self.peers
  | announce ann => exact reaches_handleAnnounce env self fromPeer ann
  | coordAnnounce ann =>
    simp only [dispatch, handleCoordAnnounce]
    split_ifs
    · exact .withPeers _ _
    · exact .withPeers _ self.peers
  | cuckoo msg =>
    simp only [dispatch, handleCuckoo]
    cases treeIndex msg.treeId with
    | none => exact .withPeers _ self.peers
    | some tree => exact .withPeers _ _
  | pathLookup lookup =>
    simp only [dispatch, handlePathLookup]
    split_ifs <;>
      exact
        ⟨rfl,
          fun _ => rfl,
          fun _ => rfl,
          fun other => (other rfl).elim, fun _ => rfl, fun _ => rfl,
          fun _ => rfl⟩
  | pathNotify notify =>
    exact reaches_handlePathNotify env self fromPeer notify
  | onionKeyAnnounce ann =>
    simp only [dispatch, handleOnionKeyAnnounce]
    split_ifs
    · dsimp only
      rw [recordRemoteOnionKey_eq]
      exact
        ⟨rfl, fun _ => rfl, fun _ => rfl, fun _ => rfl, fun _ => rfl,
          fun other => (other rfl).elim, fun _ => rfl⟩
    · exact .withPeers _ self.peers
  | reputationReport report =>
    simp only [dispatch, handleReputationReport]
    split_ifs
    · dsimp only
      rw [recordReputation_eq]
      exact
        ⟨rfl, fun _ => rfl, fun _ => rfl, fun _ => rfl, fun _ => rfl,
          fun _ => rfl, fun other => (other rfl).elim⟩
    · exact .withPeers _ self.peers

end ControlState

end Norn.Control
