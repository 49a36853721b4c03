import Norn.Control.Numbers
import Norn.Control.Cadence

/-!
# Announcements after a restart

A router that restarts keeps its identity, draws a new onion key and numbers
its announcements from one again.  Another router takes them for old ones if
it has stored a number from the life before: it keeps the onion key that the
restarted router no longer has.

The announcements of the first tick are described first, and then what it
takes for another router to accept them.
-/

namespace Norn.Control

open Foundation Foundation.Run Packet Router Session ControlState

variable {P : Primitives} {C : Crates} {L : FilterOps}

variable {signingKey : P.SigningKey} {onionEphPub : Bytes 32}
  {router : SphinxRouter P C L} {ann : OnionKeyAnnounce}

/-- A router that has announced no onion key, at some tick. -/
structure Beginning (signingKey : P.SigningKey) (onionEphPub : Bytes 32)
    (tick : UInt32) (router : ControlState P C L) : Prop where
  key : router.signingKey = signingKey
  eph : router.onionEphPub = onionEphPub
  tick : router.tick = tick
  onionKeys : router.ownOnionKeySeq = 0

theorem Beginning.of_numbers {tick : UInt32} {before after : ControlState P C L}
    (begins : Beginning signingKey onionEphPub tick before)
    (same : after.numbers = before.numbers) :
    Beginning signingKey onionEphPub tick after where
  key := (congrArg Numbers.signingKey same).trans begins.key
  eph := (congrArg Numbers.onionEphPub same).trans begins.eph
  tick := (congrArg Numbers.tick same).trans begins.tick
  onionKeys := (congrArg Numbers.ownOnionKeySeq same).trans begins.onionKeys

/-- A router that has not ticked yet. -/
structure JustStarted (signingKey : P.SigningKey) (onionEphPub : Bytes 32)
    (router : SphinxRouter P C L) : Prop where
  control : Beginning signingKey onionEphPub 0 router.control
  capabilities : router.ownCapsSeq = 0

theorem justStarted_new (signingKey : P.SigningKey) (onionEphPub : Bytes 32) :
    JustStarted signingKey onionEphPub
      (.new signingKey onionEphPub : SphinxRouter P C L) :=
  ⟨⟨rfl, rfl, rfl, rfl⟩, rfl⟩

/-- A router stays as it started until its first tick. -/
theorem JustStarted.step (started : JustStarted signingKey onionEphPub router)
    {step : SphinxStep L} (waits : step.action ≠ .control .maintain) :
    JustStarted signingKey onionEphPub (router.step step) := by
  rcases step with ⟨env, action⟩
  cases action with
  | capabilities fromPeer ann =>
    simp only [SphinxRouter.step, SphinxRouter.perform,
      SphinxRouter.handleCapabilities]
    split
    · unfold SphinxRouter.recordCapability
      split
      · cases router.control.victim env router.peerCapabilities.keys with
        | none => exact started
        | some key => exact ⟨started.control, started.capabilities⟩
      · exact ⟨started.control, started.capabilities⟩
    · exact started
  | control action =>
    cases action with
    | maintain => exact (waits rfl).elim
    | attach key =>
      have same := numbers_addPeer env router.control key
      exact ⟨started.control.of_numbers same, started.capabilities⟩
    | detach key =>
      exact ⟨started.control.of_numbers rfl, started.capabilities⟩
    | receive fromPeer frame =>
      have reached :=
        reaches_dispatch env router.control fromPeer frame
      refine ⟨?_, started.capabilities⟩
      change Beginning _ _ _ (ControlState.dispatch _ _ _ _).1
      rw [reached.rest]
      exact { started.control with }

/-- A router that has only waited is as it started. -/
theorem justStarted_run (signingKey : P.SigningKey)
    (onionEphPub : Bytes 32) {steps : List (SphinxStep L)}
    (waits : ∀ step ∈ steps, step.action ≠ .control .maintain) :
    JustStarted signingKey onionEphPub
      (run SphinxRouter.step (.new signingKey onionEphPub : SphinxRouter P C L)
        steps) := by
  refine
    @invariant_run _ _ SphinxRouter.step
      (fun _ step => step.action ≠ .control .maintain)
      (JustStarted signingKey onionEphPub) ?_ _ steps
      (justStarted_new signingKey onionEphPub) ?_
  · intro router step started waitsHere
    exact started.step waitsHere
  · exact along_of_forall_mem fun step member _ => waits step member

/-! ## The first tick -/

/-- The first announcement of an onion key. -/
def firstOnionKey (signingKey : P.SigningKey) (onionEphPub : Bytes 32)
    (nowMs : UInt64) : OnionKeyAnnounce :=
  let unsigned : OnionKeyAnnounce :=
    { origin := P.verifyingKey signingKey
      seq := 1
      validFromMs := nowMs
      onionEphPub
      sig := Bytes.replicate 64 0 }
  { unsigned with sig := P.edSign signingKey unsigned.signBytes }

/-- The first announcement of capabilities. -/
def firstCapabilities (signingKey : P.SigningKey) (nowMs : UInt64) :
    CapabilityAnnounce :=
  let unsigned : CapabilityAnnounce :=
    { origin := P.verifyingKey signingKey
      caps := capOnionSphinx
      seq := 1
      validFromMs := nowMs
      sig := Bytes.replicate 64 0 }
  { unsigned with sig := P.edSign signingKey unsigned.signBytes }

variable (env : ControlEnv L)

theorem Beginning.rotates_nothing {router : ControlState P C L}
    (first : Beginning signingKey onionEphPub 1 router) :
    Phase.onlyWhen (everyTicks onionKeyRotationTicks)
        (rotateOnionKeys env) router =
      (router, []) := by
  apply if_neg
  unfold everyTicks
  rw [first.tick]
  decide

theorem firstTick_kept (started : JustStarted signingKey onionEphPub router) :
    Beginning signingKey onionEphPub 1
      (Phase.onlyWhen (fun later => later.tick % keepaliveTicks = 0)
        (sendKeepalives env)
        (Phase.inOrder (topologyPhases env) router.control).1).1 := by
  have topology := numbers_topologyPhases env router.control
  generalize
    (Phase.inOrder (topologyPhases env) router.control).1 = settled at topology
  have pinged :
      (Phase.onlyWhen (fun later => later.tick % keepaliveTicks = 0)
        (sendKeepalives env) settled).1.numbers =
        settled.numbers :=
    numbers_onlyWhen settled fun _ => rfl
  have ticked : Beginning signingKey onionEphPub 1 router.control.advanceTick :=
    ⟨started.control.key, started.control.eph,
      congrArg (· + 1) started.control.tick, started.control.onionKeys⟩
  exact ticked.of_numbers (pinged.trans topology)

theorem Beginning.announces {router : ControlState P C L}
    (first : Beginning signingKey onionEphPub 1 router) :
    Phase.onlyWhen
        (fun later =>
          later.tick = 1 || later.tick % onionKeyAnnounceTicks = 0)
        (broadcastOnionKeyAnnounce env) router =
      broadcastOnionKeyAnnounce env router := by
  apply if_pos
  dsimp only
  rw [first.tick]
  rfl

/-- The first tick broadcasts the first onion key. -/
theorem earlyPhases_firstTick
    (started : JustStarted signingKey onionEphPub router) :
    ∃ announcing : ControlState P C L,
      Beginning signingKey onionEphPub 1 announcing ∧
        (Phase.inOrder (SphinxRouter.earlyPhases env) router.control).1 =
          (broadcastOnionKeyAnnounce env announcing).1 ∧
        ∀ letter ∈
          (Phase.inOrder (SphinxRouter.earlyPhases env) router.control).2,
          letter.2.kind ∈
              [FrameKind.cuckoo, .announce, .coordAnnounce, .sigReq] ∨
            letter ∈ (broadcastOnionKeyAnnounce env announcing).2 := by
  have first := firstTick_kept env started
  have topology :
      SendsOnly [.cuckoo, .announce, .coordAnnounce, .sigReq]
        (Phase.inOrder (topologyPhases env) : Phase P C L) :=
    SendsOnly.inOrder fun phase member =>
      (sendsOnly_of_mem_topologyPhases env member).mono (by simp)
  have pinged :
      SendsOnly [.cuckoo, .announce, .coordAnnounce, .sigReq]
        (Phase.onlyWhen (fun later => later.tick % keepaliveTicks = 0)
          (sendKeepalives env) : Phase P C L) :=
    ((sendsOnly_sendKeepalives env).mono (by simp)).onlyWhen
  refine ⟨_, first, ?_, ?_⟩
  · unfold SphinxRouter.earlyPhases
    rw [Phase.inOrder_append]
    simp only [servicePhases, List.take_succ_cons,
      List.take_zero, Phase.inOrder, first.rotates_nothing env,
      first.announces env]
  · intro letter member
    unfold SphinxRouter.earlyPhases at member
    rw [Phase.inOrder_append] at member
    simp only [servicePhases, List.take_succ_cons,
      List.take_zero, Phase.inOrder, first.rotates_nothing env,
      first.announces env, List.nil_append, List.append_nil,
      List.mem_append] at member
    rcases member with inTrees | inPings | announced
    · exact Or.inl (topology router.control letter inTrees)
    · exact Or.inl (pinged _ letter inPings)
    · exact Or.inr announced

theorem onionKey_of_mem_firstTick
    (started : JustStarted signingKey onionEphPub router) {peer : Bytes 32}
    (member :
      (peer, SphinxFrame.control (.onionKeyAnnounce ann)) ∈
        (router.doMaintenance env).2) :
    ann = firstOnionKey signingKey onionEphPub env.nowMs := by
  rcases earlyPhases_firstTick env started with ⟨announcing, first, _, early⟩
  simp only [SphinxRouter.doMaintenance, List.mem_append] at member
  rcases member with inEarly | inCapabilities | inLate
  · rcases List.mem_map.mp inEarly with ⟨letter, sent, same⟩
    have content : letter.2 = .onionKeyAnnounce ann :=
      SphinxFrame.control.inj (Prod.mk.inj same).2
    rcases early letter sent with kind | announced
    · rw [content] at kind
      simp [ControlFrame.kind] at kind
    · have frame := eq_of_mem_sendToAll env announced
      rw [content] at frame
      have equal := ControlFrame.onionKeyAnnounce.inj frame
      rw [equal]
      simp only [unsignedOnionKey, pubKey,
        first.key, first.eph, first.onionKeys]
      rfl
  · exfalso
    unfold SphinxRouter.maybeBroadcastCapabilities at inCapabilities
    split at inCapabilities
    · rcases List.mem_map.mp inCapabilities with ⟨_, _, same⟩
      cases same
    · cases inCapabilities
  · exfalso
    have late :
        SendsOnly [.pathLookup, .reputationReport]
          (Phase.inOrder (SphinxRouter.latePhases env) : Phase P C L) := by
      apply SendsOnly.inOrder
      intro phase inPhases
      simp only [SphinxRouter.latePhases, servicePhases,
        List.drop_succ_cons, List.drop_zero, List.mem_cons,
        List.not_mem_nil, or_false] at inPhases
      rcases inPhases with rfl | rfl | rfl | rfl
      · exact (SendsOnly.onlyWhen (sendsOnly_probeCuckooClaim env)).mono
          (by simp)
      · exact (SendsOnly.onlyWhen (sendsOnly_broadcastReputation env)).mono
          (by simp)
      · exact SendsOnly.quietly _
      · exact SendsOnly.quietly _
    rcases List.mem_map.mp inLate with ⟨letter, sent, same⟩
    have content : letter.2 = .onionKeyAnnounce ann :=
      SphinxFrame.control.inj (Prod.mk.inj same).2
    have kind := late _ letter sent
    rw [content] at kind
    simp [ControlFrame.kind] at kind

theorem capabilities_of_mem_firstTick
    (started : JustStarted signingKey onionEphPub router) {peer : Bytes 32}
    {ann : CapabilityAnnounce}
    (member :
      (peer, SphinxFrame.capabilities ann) ∈ (router.doMaintenance env).2) :
    ann = firstCapabilities signingKey env.nowMs := by
  rcases earlyPhases_firstTick env started with ⟨announcing, first, reached, _⟩
  have key :
      (Phase.inOrder (SphinxRouter.earlyPhases env)
        router.control).1.signingKey = signingKey := by
    rw [reached]
    exact first.key
  simp only [SphinxRouter.doMaintenance, List.mem_append] at member
  rcases member with inEarly | inCapabilities | inLate
  · rcases List.mem_map.mp inEarly with ⟨_, _, same⟩
    cases same
  · unfold SphinxRouter.maybeBroadcastCapabilities at inCapabilities
    split at inCapabilities
    · rcases List.mem_map.mp inCapabilities with ⟨_, _, same⟩
      have equal := SphinxFrame.capabilities.inj (Prod.mk.inj same).2
      rw [← equal]
      simp only [SphinxRouter.unsignedCapabilities, SphinxRouter.pubKey,
        pubKey, key, started.capabilities]
      rfl
    · cases inCapabilities
  · rcases List.mem_map.mp inLate with ⟨_, _, same⟩
    cases same

/-- No announcement of a router is stored, or only some numbered zero. -/
structure Unheard (origin : Bytes 32) (receiver : SphinxRouter P C L) :
    Prop where
  onionKey :
    ∀ record, receiver.control.remoteOnionKeys.lookup origin = some record →
      record.1 = 0
  capability :
    ∀ record, receiver.peerCapabilities.lookup origin = some record →
      record.2.1 = 0

/-- The table of onion keys can take an origin. -/
def CanStore (origin : Bytes 32) (receiver : ControlState P C L) : Prop :=
  (receiver.remoteOnionKeys.lookup origin).isSome = true ∨
    receiver.remoteOnionKeys.keys.length < maxRemoteOnionKeys ∨
    (receiver.victim env receiver.remoteOnionKeys.keys).isSome = true

section Receiver

variable (signs : P.SignaturesVerify) {signingKey : P.SigningKey}
  {onionEphPub : Bytes 32} {nowMs : UInt64}

include signs

/-- The first onion key is accepted where no later one is recorded. -/
theorem acceptsOnionKey_first_iff {receiver : ControlState P C L}
    (stranger : receiver.pubKey ≠ P.verifyingKey signingKey)
    (timely : withinWindow env.nowMs nowMs onionKeyValidityMs = true) :
    receiver.acceptsOnionKey env (firstOnionKey signingKey onionEphPub nowMs) =
        true ↔
      ∀ record,
        receiver.remoteOnionKeys.lookup (P.verifyingKey signingKey) =
            some record →
          record.1 = 0 := by
  have valid := signs.validKey signingKey
  have signed :
      P.verifyStrict (P.verifyingKey signingKey)
        (firstOnionKey signingKey onionEphPub nowMs).signBytes
        (firstOnionKey signingKey onionEphPub nowMs).sig = true :=
    signs.ed25519 signingKey _
  simp only [acceptsOnionKey, Bool.and_eq_true, decide_eq_true_eq]
  constructor
  · rintro ⟨_, newer⟩ record found
    have origin :
        (firstOnionKey signingKey onionEphPub nowMs).origin =
          P.verifyingKey signingKey :=
      rfl
    rw [origin, found] at newer
    exact UInt64.lt_one_iff.mp (decide_eq_true_eq.mp newer)
  · intro zero
    refine ⟨⟨⟨⟨stranger.symm, valid⟩, signed⟩, timely⟩, ?_⟩
    split
    · case h_1 found =>
      exact decide_eq_true (UInt64.lt_one_iff.mpr (zero _ found))
    · rfl

/-- The first capabilities are accepted where no later ones are recorded. -/
theorem acceptsCapabilities_first_iff {receiver : SphinxRouter P C L}
    (stranger : receiver.pubKey ≠ P.verifyingKey signingKey)
    (timely : withinWindow env.nowMs nowMs capabilityValidityMs = true) :
    receiver.acceptsCapabilities env (firstCapabilities signingKey nowMs) =
        true ↔
      ∀ record,
        receiver.peerCapabilities.lookup (P.verifyingKey signingKey) =
            some record →
          record.2.1 = 0 := by
  have valid := signs.validKey signingKey
  have signed :
      P.verifyStrict (P.verifyingKey signingKey)
        (firstCapabilities signingKey nowMs).signBytes
        (firstCapabilities signingKey nowMs).sig = true :=
    signs.ed25519 signingKey _
  simp only [SphinxRouter.acceptsCapabilities, Bool.and_eq_true,
    decide_eq_true_eq]
  constructor
  · rintro ⟨_, newer⟩ record found
    have origin :
        (firstCapabilities signingKey nowMs).origin =
          P.verifyingKey signingKey :=
      rfl
    rw [origin, found] at newer
    exact UInt64.lt_one_iff.mp (decide_eq_true_eq.mp newer)
  · intro zero
    refine ⟨⟨⟨⟨stranger.symm, valid⟩, signed⟩, timely⟩, ?_⟩
    split
    · case h_1 found =>
      exact decide_eq_true (UInt64.lt_one_iff.mpr (zero _ found))
    · rfl

end Receiver

theorem recorded_iff_canStore (receiver : ControlState P C L)
    (origin : Bytes 32) (seq : UInt64) (eph : Bytes 32) :
    ((receiver.recordRemoteOnionKey env origin seq
        eph).remoteOnionKeys.lookup origin).map (fun record => record.2.1) =
        some eph ↔
      CanStore env origin receiver := by
  unfold recordRemoteOnionKey CanStore
  split
  · case isTrue full =>
    rw [Bool.and_eq_true, decide_eq_true_eq, Option.isNone_iff_eq_none] at full
    rcases full with ⟨unknown, long⟩
    cases receiver.victim env receiver.remoteOnionKeys.keys with
    | none => simp [unknown, Nat.not_lt.mpr long]
    | some key => simp [KeyedMap.lookup_insert_self]
  · case isFalse roomy =>
    rw [Bool.and_eq_true, decide_eq_true_eq, not_and_or, Nat.not_le,
      Bool.not_eq_true, Option.isNone_eq_false_iff] at roomy
    rw [KeyedMap.lookup_insert_self]
    constructor
    · intro _
      rcases roomy with known | short
      · exact Or.inl known
      · exact Or.inr (Or.inl short)
    · intro _
      rfl

theorem control_step_onionKey {env : ControlEnv L}
    {receiver : SphinxRouter P C L} {fromPeer : Bytes 32}
    (accepted : receiver.control.acceptsOnionKey env ann = true) :
    (receiver.step
      ⟨env, .control (.receive fromPeer (.onionKeyAnnounce ann))⟩).control =
      receiver.control.recordRemoteOnionKey env ann.origin ann.seq
        ann.onionEphPub := by
  change (receiver.control.handleOnionKeyAnnounce env fromPeer ann).1 = _
  rw [handleOnionKeyAnnounce, if_pos accepted]

/-- A router takes the announcements in and has the new onion key. -/
def Recovers (receiver : SphinxRouter P C L)
    (keyEnv capsEnv : ControlEnv L) (fromPeer alsoFrom : Bytes 32)
    (ann : OnionKeyAnnounce) (caps : CapabilityAnnounce)
    (origin onionEphPub : Bytes 32) : Prop :=
  let informed :=
    receiver.step ⟨keyEnv, .control (.receive fromPeer (.onionKeyAnnounce ann))⟩
  let done := informed.step ⟨capsEnv, .capabilities alsoFrom caps⟩
  receiver.control.acceptsOnionKey keyEnv ann = true ∧
    informed.acceptsCapabilities capsEnv caps = true ∧
    (done.control.remoteOnionKeys.lookup origin).map
        (fun record => record.2.1) =
      some onionEphPub

/--
A router restarts with its identity and ticks for the first time.  Another one
that gets the announcements of this tick in time accepts them and has the new
onion key exactly if it has no announcement of the earlier life stored and a
place for the key.
-/
theorem restart_recovers_iff_unheard (signs : P.SignaturesVerify)
    (signingKey : P.SigningKey) (onionEphPub : Bytes 32)
    (steps : List (SphinxStep L))
    (waits : ∀ step ∈ steps, step.action ≠ .control .maintain)
    (receiver : SphinxRouter P C L) (keyEnv capsEnv : ControlEnv L)
    (fromPeer alsoFrom peer other : Bytes 32) (ann : OnionKeyAnnounce)
    (caps : CapabilityAnnounce)
    (sentKey :
      (peer, SphinxFrame.control (.onionKeyAnnounce ann)) ∈
        ((run SphinxRouter.step
          (.new signingKey onionEphPub : SphinxRouter P C L)
          steps).doMaintenance env).2)
    (sentCaps :
      (other, SphinxFrame.capabilities caps) ∈
        ((run SphinxRouter.step
          (.new signingKey onionEphPub : SphinxRouter P C L)
          steps).doMaintenance env).2)
    (stranger : receiver.pubKey ≠ P.verifyingKey signingKey)
    (keyTimely : withinWindow keyEnv.nowMs env.nowMs onionKeyValidityMs = true)
    (capsTimely :
      withinWindow capsEnv.nowMs env.nowMs capabilityValidityMs = true) :
    Recovers receiver keyEnv capsEnv fromPeer alsoFrom ann caps
        (P.verifyingKey signingKey) onionEphPub ↔
      Unheard (P.verifyingKey signingKey) receiver ∧
        CanStore keyEnv (P.verifyingKey signingKey) receiver.control := by
  have started := @justStarted_run P C L signingKey onionEphPub steps waits
  have key := onionKey_of_mem_firstTick env started sentKey
  have capabilities := capabilities_of_mem_firstTick env started sentCaps
  subst key
  subst capabilities
  have keyAccepted :=
    @acceptsOnionKey_first_iff P C L keyEnv signs signingKey onionEphPub
      env.nowMs receiver.control stranger keyTimely
  have informedKey :
      (receiver.step
        ⟨keyEnv,
          .control
            (.receive fromPeer
              (.onionKeyAnnounce
                (firstOnionKey signingKey onionEphPub env.nowMs)))⟩
        ).pubKey ≠ P.verifyingKey signingKey := by
    have reached :=
      reaches_dispatch keyEnv receiver.control fromPeer
        (.onionKeyAnnounce (firstOnionKey signingKey onionEphPub env.nowMs))
    change P.verifyingKey (ControlState.dispatch _ _ _ _).1.signingKey ≠ _
    rw [reached.rest]
    exact stranger
  have capsAccepted :=
    acceptsCapabilities_first_iff capsEnv signs informedKey capsTimely
  have stored :=
    recorded_iff_canStore keyEnv receiver.control
      (P.verifyingKey signingKey) 1 onionEphPub
  unfold Recovers
  dsimp only
  rw [SphinxRouter.control_step_capabilities, keyAccepted, capsAccepted]
  constructor
  · rintro ⟨noKey, noCapability, found⟩
    refine ⟨⟨noKey, noCapability⟩, stored.mp ?_⟩
    rw [control_step_onionKey (keyAccepted.mpr noKey)] at found
    exact found
  · rintro ⟨unheard, room⟩
    refine ⟨unheard.onionKey, unheard.capability, ?_⟩
    rw [control_step_onionKey (keyAccepted.mpr unheard.onionKey)]
    exact stored.mpr room

/-! ## A router that remembers -/

/-- A router with the feature. -/
abbrev SampleSphinxRouter :=
  SphinxRouter Primitives.transparent sampleCrates sampleFilters

/-- A life of the near router, in which the far one is its peer. -/
def nearLife (onionEphPub : Bytes 32) : SampleSphinxRouter :=
  run SphinxRouter.step (.new (show Bytes 32 from nearKey) onionEphPub)
    [⟨sampleAt 0 0, .control (.attach farKey)⟩]

/-- The first announcement of the onion key of such a life. -/
def nearOnionKey (onionEphPub : Bytes 32) : OnionKeyAnnounce :=
  firstOnionKey (P := Primitives.transparent)
    (show Bytes 32 from nearKey) onionEphPub 0

/-- The first announcement of capabilities. -/
def nearCapabilities : CapabilityAnnounce :=
  firstCapabilities (P := Primitives.transparent) (show Bytes 32 from nearKey) 0

/-- The far router, when it is new. -/
def newFar : SampleSphinxRouter :=
  .new (show Bytes 32 from farKey) (Bytes.replicate 32 9)

/-- The far router, when it has heard of the first life. -/
def informedFar : SampleSphinxRouter :=
  run SphinxRouter.step newFar
    [⟨sampleAt 0 0,
        .control
          (.receive nearKey
            (.onionKeyAnnounce (nearOnionKey (Bytes.replicate 32 7))))⟩,
      ⟨sampleAt 0 0, .capabilities nearKey nearCapabilities⟩]

/-- The far router is sent an announcement of an onion key. -/
def sendsOnionKey (sent : SphinxSent sampleFilters)
    (ann : OnionKeyAnnounce) : Bool :=
  sent.any fun letter =>
    match letter.2 with
    | .control (.onionKeyAnnounce other) =>
      letter.1 = farKey && other = ann
    | _ => false

/-- The far router is sent an announcement of capabilities. -/
def sendsCapabilities (sent : SphinxSent sampleFilters)
    (ann : CapabilityAnnounce) : Bool :=
  sent.any fun letter =>
    match letter.2 with
    | .capabilities other => letter.1 = farKey && other = ann
    | _ => false

theorem mem_of_sendsOnionKey {sent : SphinxSent sampleFilters}
    (sends : sendsOnionKey sent ann = true) :
    (farKey, SphinxFrame.control (.onionKeyAnnounce ann)) ∈ sent := by
  rcases List.any_eq_true.mp sends with ⟨⟨peer, frame⟩, member, found⟩
  split at found
  · case h_1 other same =>
    rw [Bool.and_eq_true, decide_eq_true_eq, decide_eq_true_eq] at found
    rcases found with ⟨rfl, rfl⟩
    cases same
    exact member
  · cases found

theorem mem_of_sendsCapabilities {sent : SphinxSent sampleFilters}
    {ann : CapabilityAnnounce}
    (sends : sendsCapabilities sent ann = true) :
    (farKey, SphinxFrame.capabilities ann) ∈ sent := by
  rcases List.any_eq_true.mp sends with ⟨⟨peer, frame⟩, member, found⟩
  split at found
  · case h_1 other same =>
    rw [Bool.and_eq_true, decide_eq_true_eq, decide_eq_true_eq] at found
    rcases found with ⟨rfl, rfl⟩
    cases same
    exact member
  · cases found

/-- A new router takes in what a restarted one announces. -/
theorem new_router_hears_restarted :
    Recovers newFar (sampleAt 0 0) (sampleAt 0 0) nearKey nearKey
      (nearOnionKey (Bytes.replicate 32 8)) nearCapabilities nearKey
      (Bytes.replicate 32 8) := by
  refine
    (restart_recovers_iff_unheard (sampleAt 0 0)
      Primitives.transparent_signaturesVerify (show Bytes 32 from nearKey)
      (Bytes.replicate 32 8) [⟨sampleAt 0 0, .control (.attach farKey)⟩]
      ?_ newFar (sampleAt 0 0) (sampleAt 0 0) nearKey nearKey farKey farKey
      (nearOnionKey (Bytes.replicate 32 8)) nearCapabilities ?_ ?_ ?_ ?_
      ?_).mpr ⟨⟨?_, ?_⟩, ?_⟩
  · intro step member
    cases List.mem_singleton.mp member
    intro same
    cases same
  · apply mem_of_sendsOnionKey
    decide +kernel
  · apply mem_of_sendsCapabilities
    decide +kernel
  · decide
  · decide
  · decide
  · intro record found
    cases found
  · intro record found
    cases found
  · right
    left
    decide

/--
The far router has heard the announcements of the first life; it refuses those
of the second and keeps the old onion key.
-/
theorem restarted_router_is_refused :
    sendsOnionKey
          ((nearLife (Bytes.replicate 32 7)).doMaintenance (sampleAt 0 0)).2
          (nearOnionKey (Bytes.replicate 32 7)) = true ∧
      sendsCapabilities
          ((nearLife (Bytes.replicate 32 7)).doMaintenance (sampleAt 0 0)).2
          nearCapabilities = true ∧
      sendsOnionKey
          ((nearLife (Bytes.replicate 32 8)).doMaintenance (sampleAt 0 0)).2
          (nearOnionKey (Bytes.replicate 32 8)) = true ∧
      ¬ Recovers informedFar (sampleAt 0 0) (sampleAt 0 0) nearKey
        nearKey (nearOnionKey (Bytes.replicate 32 8)) nearCapabilities
        nearKey (Bytes.replicate 32 8) ∧
      (informedFar.control.remoteOnionKeys.lookup nearKey).map
          (fun record => record.2.1) =
        some (Bytes.replicate 32 7) := by
  refine ⟨?_, ?_, ?_, ?_, ?_⟩
  · decide +kernel
  · decide +kernel
  · decide +kernel
  · rintro ⟨accepted, _⟩
    revert accepted
    decide +kernel
  · decide +kernel

end Norn.Control
