import Norn.Control.Authenticity
import Norn.Control.TreeChoice
import Norn.Packet.Announcements

/-!
# Depths in the first tree

A router below a parent is one deeper than the parent says.  The depth of a
parent is a variable-length integer on the wire, is cast to 32 bits by the
decoder, and is incremented without a check by `fix_tree`.  The router is
therefore one below its parent just when the number on the wire, plus one,
fits into 32 bits.
-/

namespace Norn.Packet

open Foundation

/-- The depth of an `Announce` as it stands on the wire. -/
def Announce.wireDepth (data : List UInt8) :
    Except FrameError UInt64 := do
  let (_, data) ← readByte data
  let (_, data) ← readField 32 data
  let (_, data) ← readUvarint data
  let (_, data) ← readUvarint data
  let (_, data) ← readField 32 data
  let (_, data) ← readField 64 data
  if data = [] then
    .ok 0
  else do
    let (depth, _) ← readUvarint data
    return depth

theorem Announce.wireDepth_of_decode {data : List UInt8} {ann : Announce}
    (decoded : Announce.decode data = .ok ann) :
    ∃ depth, Announce.wireDepth data = .ok depth ∧
      ann.depth = depth.toUInt32 := by
  unfold Announce.decode at decoded
  split_ifs at decoded
  rcases (bind_eq_ok_iff _ _ _).mp decoded with ⟨_, one, decoded⟩
  rcases (bind_eq_ok_iff _ _ _).mp decoded with ⟨_, two, decoded⟩
  rcases (bind_eq_ok_iff _ _ _).mp decoded with ⟨_, three, decoded⟩
  rcases (bind_eq_ok_iff _ _ _).mp decoded with ⟨_, four, decoded⟩
  simp only at two three four decoded
  split_ifs at decoded
  rcases (bind_eq_ok_iff _ _ _).mp decoded with ⟨_, five, decoded⟩
  rcases (bind_eq_ok_iff _ _ _).mp decoded with ⟨⟨_, rest⟩, six, decoded⟩
  rcases (bind_eq_ok_iff _ _ _).mp decoded with ⟨depth, last, decoded⟩
  cases decoded
  simp only [Announce.wireDepth, one, two, three, four, five, six, ok_bind]
  unfold Announce.decodeDepth at last
  split_ifs at last ⊢ with ended
  · cases last
    exact ⟨0, rfl, rfl⟩
  · rcases (bind_eq_ok_iff _ _ _).mp last with ⟨⟨wide, _⟩, read, cast⟩
    cases cast
    rw [read]
    exact ⟨wide, rfl, rfl⟩

end Norn.Packet

namespace Norn.Control

open Foundation Packet Router Session

variable {P : Primitives} {C : Crates} {L : FilterOps}

/-- The tree whose depths are announced. -/
abbrev urd : Fin treeCount := ⟨0, treeCount_pos⟩

/-- A router, and the depths that its peers have put on the wire. -/
structure Sounded (P : Primitives) (C : Crates) (L : FilterOps) where
  router : ControlState P C L
  /-- The depth in the last `Announce` that was stored for a peer. -/
  announced : Bytes 32 → Option UInt64

/-- What can happen to the router. -/
inductive DepthAction (L : FilterOps) where
  | attach (key : Bytes 32)
  | detach (key : Bytes 32)
  /-- The bytes behind the type byte of an `Announce` arrive. -/
  | announce (fromPeer : Bytes 32) (data : List UInt8)
  /-- Any other frame arrives. -/
  | receive (fromPeer : Bytes 32) (frame : ControlFrame L)
      (other : frame.announced = none)
  | maintain
  /-- `fix_tree(0)`. -/
  | fixTree

/-- A step of the router. -/
structure DepthStep (L : FilterOps) where
  env : ControlEnv L
  action : DepthAction L

namespace Sounded

/-- A new router. -/
def new (signingKey : P.SigningKey) (onionEphPub : Bytes 32) :
    Sounded P C L where
  router := .new signingKey onionEphPub
  announced _ := none

/-- Note the depth of a frame that is stored for the first tree. -/
def noteDepth (self : Sounded P C L) (fromPeer : Bytes 32)
    (data : List UInt8) (ann : Announce) (key : Bytes 32) :
    Option UInt64 :=
  if key = fromPeer ∧
      self.router.storesFor fromPeer ann = some urd then
    (Announce.wireDepth data).toOption
  else
    self.announced key

/-- A step. -/
def step (self : Sounded P C L) (step : DepthStep L) : Sounded P C L :=
  let perform (action : ControlAction L) : Sounded P C L :=
    { self with router := self.router.step ⟨step.env, action⟩ }
  match step.action with
  | .attach key => perform (.attach key)
  | .detach key => perform (.detach key)
  | .announce fromPeer data =>
    match Announce.decode data with
    | .error _ => self
    | .ok ann =>
      { router := self.router.handleAnnounce step.env fromPeer ann
        announced := self.noteDepth fromPeer data ann }
  | .receive fromPeer frame _ => perform (.receive fromPeer frame)
  | .maintain => perform .maintain
  | .fixTree =>
    { self with router := self.router.fixTree step.env urd }

end Sounded

/-- Every stored depth is the cast of the one on the wire. -/
def Recorded (state : Sounded P C L) : Prop :=
  ∀ key peer stored, state.router.peers.lookup key = some peer →
    peer.trees urd = some stored →
      ∃ depth, state.announced key = some depth ∧ stored.depth = depth.toUInt32

namespace Sounded

theorem recorded_perform {self : Sounded P C L} (recorded : Recorded self)
    {step : ControlStep L}
    (other : ∀ fromPeer ann, step.action ≠ .receive fromPeer (.announce ann)) :
    Recorded { self with router := self.router.step step } := by
  intro key peer stored found shown
  rcases ControlState.lookup_step other found with empty | ⟨old, before, kept⟩
  · rw [empty urd] at shown
    cases shown
  · rw [kept] at shown
    exact recorded key old stored before shown

theorem recorded_announce {self : Sounded P C L} (recorded : Recorded self)
    (env : ControlEnv L)
    {fromPeer : Bytes 32} {data : List UInt8} {ann : Announce}
    (decoded : Announce.decode data = .ok ann) :
    Recorded
      { router := self.router.handleAnnounce env fromPeer ann
        announced := self.noteDepth fromPeer data ann } := by
  intro key peer stored found shown
  have unchanged :
      ∀ {old : Peer C L}, self.router.peers.lookup key = some old →
        old.trees urd = some stored →
        (key = fromPeer → self.router.storesFor fromPeer ann ≠ some urd) →
        ∃ depth, self.noteDepth fromPeer data ann key = some depth ∧
          stored.depth = depth.toUInt32 := by
    intro old before oldShown elsewhere
    rw [noteDepth, if_neg fun both => elsewhere both.1 both.2]
    exact recorded key old stored before oldShown
  rcases ControlState.lookup_handleAnnounce found with
    ⟨before, elsewhere⟩ | ⟨same, _, tree, old, stores, before, rfl⟩
  · apply unchanged before shown
    intro here
    rw [elsewhere here]
    exact (Option.some_ne_none urd).symm
  · by_cases sameTree : urd = tree
    · subst sameTree
      rw [Peer.trees_setAnnounce_self, Option.some.injEq] at shown
      rcases Announce.wireDepth_of_decode decoded with ⟨depth, wire, cast⟩
      refine ⟨depth, ?_, ?_⟩
      · change self.noteDepth fromPeer data ann key = some depth
        rw [noteDepth, if_pos ⟨same, stores⟩, wire]
        rfl
      · rw [← shown]
        exact cast
    · rw [Peer.trees_setAnnounce_ne sameTree] at shown
      apply unchanged before shown
      intro _ again
      rw [stores, Option.some.injEq] at again
      exact sameTree again.symm

/-- Every step keeps the stored depths recorded. -/
theorem recorded_step {self : Sounded P C L} (recorded : Recorded self)
    (step : DepthStep L) :
    Recorded (self.step step) := by
  rcases step with ⟨env, action⟩
  cases action with
  | attach key =>
    exact recorded_perform recorded fun _ _ action => by cases action
  | detach key =>
    exact recorded_perform recorded fun _ _ action => by cases action
  | announce fromPeer data =>
    simp only [Sounded.step]
    cases decoded : Announce.decode data with
    | error failure => exact recorded
    | ok ann => exact recorded_announce recorded env decoded
  | receive fromPeer frame other =>
    apply recorded_perform recorded
    intro _ ann action
    cases action
    cases other
  | maintain =>
    exact recorded_perform recorded fun _ _ action => by cases action
  | fixTree =>
    intro key peer stored found shown
    have peers : (self.router.fixTree env urd).peers = self.router.peers :=
      (ControlState.treePhase_fixTree env self.router urd).1.peers
    have foundRouter :
        (self.router.fixTree env urd).peers.lookup key = some peer :=
      found
    rw [peers] at foundRouter
    exact recorded key peer stored foundRouter shown

theorem recorded_run (signingKey : P.SigningKey)
    (onionEphPub : Bytes 32) (steps : List (DepthStep L)) :
    Recorded
      (Run.run step (.new signingKey onionEphPub : Sounded P C L) steps) :=
  @Run.invariant_run_of_forall _ _ step Recorded
    (fun _ step recorded => recorded_step recorded step) _ _
    (fun _ _ _ found => by cases found)

end Sounded

theorem ControlState.ownDepth_fixTree {env : ControlEnv L}
    {router : ControlState P C L} {parent : Bytes 32}
    (below : ((router.fixTree env urd).trees urd).parent = some parent) :
    ∃ peer stored, router.peers.lookup parent = some peer ∧
      peer.trees urd = some stored ∧
      (router.fixTree env urd).ownDepth = stored.depth + 1 := by
  rw [tree_fixTree] at below
  cases chosen : router.chosen env urd with
  | none =>
    rw [chosen] at below
    cases below
  | some candidate =>
    rw [chosen] at below
    cases below
    rcases (chosen_offers env router chosen).1 with
      ⟨stored, ⟨⟨peer, found, shown, _⟩, _⟩, _⟩
    refine ⟨peer, stored, found, shown, ?_⟩
    simp only [fixTree, chosen, joinTree, noteChange, depthBelow, found,
      Option.bind_some, shown]
    split_ifs <;> rfl

theorem toNat_succ_cast_iff (depth : UInt64) :
    (depth.toUInt32 + 1).toNat = depth.toNat + 1 ∧
        depth.toUInt32.toNat + 1 < 2 ^ 32 ↔
      depth.toNat + 1 < 2 ^ 32 := by
  rw [UInt32.toNat_add, UInt64.toNat_toUInt32]
  change (depth.toNat % 2 ^ 32 + 1) % 2 ^ 32 = depth.toNat + 1 ∧ _ ↔ _
  omega

/--
Right after `fix_tree(0)` a router with a parent is one deeper than the parent
has announced, and the addition does not overflow, just when the announced
depth plus one fits into 32 bits.
-/
theorem ownDepth_eq_succ_iff (signingKey : P.SigningKey)
    (onionEphPub : Bytes 32) (steps : List (DepthStep L))
    (env : ControlEnv L) (parent : Bytes 32) :
    let state :=
      Run.run Sounded.step (.new signingKey onionEphPub : Sounded P C L) steps
    let settled := state.router.fixTree env urd
    (settled.trees urd).parent = some parent →
      ∃ peer stored depth,
        state.router.peers.lookup parent = some peer ∧
          peer.trees urd = some stored ∧
          state.announced parent = some depth ∧
          (settled.ownDepth.toNat = depth.toNat + 1 ∧
              stored.depth.toNat + 1 < 2 ^ 32 ↔
            depth.toNat + 1 < 2 ^ 32) := by
  intro state settled below
  rcases ControlState.ownDepth_fixTree below with
    ⟨peer, stored, found, shown, deeper⟩
  rcases Sounded.recorded_run signingKey onionEphPub steps parent peer
      stored found shown with
    ⟨depth, announced, cast⟩
  refine ⟨peer, stored, depth, found, shown, announced, ?_⟩
  rw [deeper, cast]
  exact toNat_succ_cast_iff depth

/-- The announcement of the sample parent, at a depth of its choice. -/
def announceAtDepth (depth : UInt32) : Announce :=
  let unsigned : Announce :=
    { (newRouter nearKey).unsignedAnnounce urd with depth := depth }
  { unsigned with
    signature :=
      Primitives.transparent.edSign (newRouter nearKey).signingKey
        unsigned.signBytes }

/-- The same on the wire, with a number that is cast to this depth. -/
def frameAtDepth (wire : UInt64) : List UInt8 :=
  let ann := announceAtDepth wire.toUInt32
  ann.treeId :: (ann.root.toList ++ (encodeUvarint ann.rootSeq ++
    (encodeUvarint ann.pathCost ++ (ann.sender.toList ++
      (ann.signature.toList ++ encodeUvarint wire)))))

/-- The parent comes and announces itself. -/
def joinAtDepth (wire : UInt64) : List (DepthStep sampleFilters) :=
  [⟨sampleAt 0 0, .attach nearKey⟩,
    ⟨sampleAt 0 0, .announce nearKey (frameAtDepth wire)⟩]

/-- The router after that. -/
def belowDepth (wire : UInt64) :
    Sounded Primitives.transparent sampleCrates sampleFilters :=
  Run.run Sounded.step (.new (show Bytes 32 from farKey) (Bytes.replicate 32 0))
    (joinAtDepth wire)

/--
Below a parent at the largest depth a router takes itself for the root, and
below one whose depth does not fit the cast it is at a wrong depth, too.
-/
theorem depth_wraps_below_deep_parent :
    ((belowDepth 0xffffffff).announced nearKey = some 0xffffffff ∧
      (((belowDepth 0xffffffff).router.fixTree (sampleAt 0 0) urd
        ).trees urd).parent = some nearKey ∧
      ((belowDepth 0xffffffff).router.fixTree (sampleAt 0 0) urd
        ).ownDepth = 0) ∧
    ((belowDepth 0x100000000).announced nearKey = some 0x100000000 ∧
      (((belowDepth 0x100000000).router.fixTree (sampleAt 0 0) urd
        ).trees urd).parent = some nearKey ∧
      ((belowDepth 0x100000000).router.fixTree (sampleAt 0 0) urd
        ).ownDepth = 1) := by
  refine ⟨⟨?_, ?_, ?_⟩, ⟨?_, ?_, ?_⟩⟩
  all_goals decide +kernel

/-- Below a parent at depth five a router is at depth six. -/
theorem depth_below_parent_at_five :
    (((belowDepth 5).router.fixTree (sampleAt 0 0) urd).trees urd
        ).parent = some nearKey ∧
      ∃ peer stored depth,
        (belowDepth 5).router.peers.lookup nearKey = some peer ∧
          peer.trees urd = some stored ∧
          (belowDepth 5).announced nearKey = some depth ∧
          (((belowDepth 5).router.fixTree (sampleAt 0 0) urd
                ).ownDepth.toNat = depth.toNat + 1 ∧
              stored.depth.toNat + 1 < 2 ^ 32 ↔
            depth.toNat + 1 < 2 ^ 32) := by
  have below :
      (((belowDepth 5).router.fixTree (sampleAt 0 0) urd).trees urd
        ).parent = some nearKey := by
    decide +kernel
  refine ⟨below, ?_⟩
  rw [belowDepth] at below ⊢
  exact
    @ownDepth_eq_succ_iff Primitives.transparent sampleCrates
      sampleFilters (show Bytes 32 from farKey) (Bytes.replicate 32 0)
      (joinAtDepth 5) (sampleAt 0 0) nearKey below

end Norn.Control
