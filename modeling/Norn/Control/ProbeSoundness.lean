import Norn.Control.Authenticity

/-!
# Which answers count for a probe

A probe is known to its router by its number only: the table of pending probes
keeps the peer the probe went through and the time, not the target.  A
`PathNotify` with the number of a pending probe boosts the trust of that peer,
whichever peer it comes from and whatever target it names.

What holds is that nothing else boosts a peer, and that every probe counts
once.
-/

namespace Norn.Control

open Foundation Packet Router Session

variable {P : Primitives} {C : Crates} {L : FilterOps}

/-- The lookup in a frame. -/
def ControlFrame.lookup : ControlFrame L → Option PathLookup
  | .pathLookup lookup => some lookup
  | _ => none

/-- The lookups among the frames that are sent. -/
def lookupsOf (sent : Sent L) : List (Bytes 32 × PathLookup) :=
  sent.filterMap fun frame =>
    frame.2.lookup.map fun lookup => (frame.1, lookup)

/-- The lookups that a step sends as probes: those of a tick. -/
def probesOf (router : ControlState P C L) (step : ControlStep L) :
    List (Bytes 32 × PathLookup) :=
  match step.action with
  | .maintain => lookupsOf (router.perform step).2
  | _ => []

/-- The probes of a run, with the peers that they were sent through. -/
def probesSent :
    ControlState P C L → List (ControlStep L) → List (Bytes 32 × PathLookup)
  | _, [] => []
  | router, step :: rest =>
    probesOf router step ++ probesSent (router.step step) rest

/-- The trust in a peer. -/
def ControlState.trustOf (self : ControlState P C L) (key : Bytes 32) :
    Option C.F32 :=
  (self.peers.lookup key).map Peer.trust

/--
A frame changes the trust in a peer, and it is neither the answer to a ping
nor the coordinate of the peer.
-/
def Boosts (router : ControlState P C L) (step : ControlStep L)
    (key : Bytes 32) : Prop :=
  ∃ fromPeer frame, step.action = .receive fromPeer frame ∧
    frame.kind ≠ .sigRes ∧ frame.kind ≠ .coordAnnounce ∧
    (router.step step).trustOf key ≠ router.trustOf key

open Classical in
/-- How often a peer is boosted in a run. -/
noncomputable def boostCount (key : Bytes 32) :
    ControlState P C L → List (ControlStep L) → Nat
  | _, [] => 0
  | router, step :: rest =>
    (if Boosts router step key then 1 else 0) +
      boostCount key (router.step step) rest

/-- Pending probes and boosts are covered by the probes that were sent. -/
structure Accounted (pending : KeyedMap UInt64 (Bytes 32 × Instant))
    (probed : List (Bytes 32 × PathLookup)) (boosted : Bytes 32 → Nat) :
    Prop where
  known :
    ∀ id via sentAt, pending.lookup id = some (via, sentAt) →
      ∃ lookup, (via, lookup) ∈ probed ∧ lookup.id = id
  counted :
    ∀ peer,
      boosted peer + pending.entries.countP (fun entry => entry.2.1 = peer) ≤
        probed.countP fun probe => probe.1 = peer

namespace Accounted

variable {pending : KeyedMap UInt64 (Bytes 32 × Instant)}
  {probed : List (Bytes 32 × PathLookup)} {boosted : Bytes 32 → Nat}

theorem nothing : Accounted .empty [] (fun _ => 0) where
  known _ _ _ found := by
    cases found
  counted _ := Nat.le_refl _

theorem erase (accounted : Accounted pending probed boosted)
    (id : UInt64) : Accounted (pending.erase id) probed boosted where
  known other via sentAt found := by
    by_cases same : other = id
    · subst same
      rw [KeyedMap.lookup_erase_self] at found
      cases found
    · rw [KeyedMap.lookup_erase_ne same] at found
      exact accounted.known other via sentAt found
  counted peer := by
    have fewer :
        (pending.erase id).entries.countP (fun entry => entry.2.1 = peer) ≤
          pending.entries.countP fun entry => entry.2.1 = peer :=
      List.filter_sublist.countP_le
    exact (Nat.add_le_add_left fewer _).trans (accounted.counted peer)

theorem insert (accounted : Accounted pending probed boosted)
    (via : Bytes 32) (sentAt : Instant) (lookup : PathLookup) :
    Accounted (pending.insert lookup.id (via, sentAt))
      (probed ++ [(via, lookup)]) boosted where
  known id peer time found := by
    by_cases same : id = lookup.id
    · subst same
      rw [KeyedMap.lookup_insert_self, Option.some.injEq, Prod.mk.injEq]
        at found
      rcases found with ⟨rfl, _⟩
      exact ⟨lookup, List.mem_append_right _ (List.mem_singleton_self _), rfl⟩
    · rw [KeyedMap.lookup_insert_ne same] at found
      rcases accounted.known id peer time found with ⟨earlier, member, matched⟩
      exact ⟨earlier, List.mem_append_left _ member, matched⟩
  counted peer := by
    have rest := (accounted.erase lookup.id).counted peer
    rw [(KeyedMap.entries_insert_perm pending lookup.id
        (via, sentAt)).countP_eq, List.countP_cons, List.countP_append,
      List.countP_singleton]
    dsimp only
    omega

open Classical in
theorem confirm (accounted : Accounted pending probed boosted)
    {id : UInt64} {boosts : Bytes 32 → Prop}
    (waiting :
      ∀ peer, boosts peer → ∃ sentAt, pending.lookup id = some (peer, sentAt)) :
    Accounted (pending.erase id) probed
      fun peer => boosted peer + if boosts peer then 1 else 0 where
  known := (accounted.erase id).known
  counted peer := by
    split_ifs with counts
    · rcases waiting peer counts with ⟨sentAt, found⟩
      have all := accounted.counted peer
      rw [(KeyedMap.entries_perm_erase found).countP_eq, List.countP_cons]
        at all
      simp only [decide_true, if_true] at all
      omega
    · exact (accounted.erase id).counted peer

end Accounted

/-! ## The phases of a tick -/

@[simp]
theorem lookupsOf_append (first second : Sent L) :
    lookupsOf (first ++ second) = lookupsOf first ++ lookupsOf second :=
  List.filterMap_append

/-- A phase notes the probes it sends. -/
def KeepsAccount (phase : Phase P C L) : Prop :=
  ∀ self probed boosted,
    Accounted self.pendingProbes probed boosted →
      Accounted (phase self).1.pendingProbes
        (probed ++ lookupsOf (phase self).2) boosted

namespace KeepsAccount

variable {phase : Phase P C L}

theorem inOrder {phases : List (Phase P C L)}
    (each : ∀ phase ∈ phases, KeepsAccount phase) :
    KeepsAccount (Phase.inOrder phases) := by
  induction phases with
  | nil =>
    intro self probed boosted accounted
    rw [show lookupsOf (Phase.inOrder [] self).2 = [] from rfl, List.append_nil]
    exact accounted
  | cons phase rest induction =>
    intro self probed boosted accounted
    have first := each phase List.mem_cons_self self probed boosted accounted
    have others :=
      induction (fun other member => each other (List.mem_cons_of_mem _ member))
        _ _ _ first
    simp only [Phase.inOrder, lookupsOf_append]
    rw [← List.append_assoc]
    exact others

theorem of_unchanged {kinds : List FrameKind}
    (sends : SendsOnly kinds phase) (other : .pathLookup ∉ kinds)
    (same : ∀ self, (phase self).1.pendingProbes = self.pendingProbes) :
    KeepsAccount phase := by
  intro self probed boosted accounted
  have none : lookupsOf (phase self).2 = [] := by
    apply List.filterMap_eq_nil_iff.mpr
    intro frame member
    have kind := sends self frame member
    rcases frame with ⟨peer, content⟩
    cases content with
    | pathLookup lookup => exact (other kind).elim
    | _ => rfl
  rw [none, List.append_nil, same]
  exact accounted

theorem onlyWhen {due : ControlState P C L → Bool}
    (keeps : KeepsAccount phase) :
    KeepsAccount (Phase.onlyWhen due phase) := by
  intro self probed boosted accounted
  unfold Phase.onlyWhen
  split_ifs
  · exact keeps self probed boosted accounted
  · rw [show lookupsOf ([] : Sent L) = [] from rfl, List.append_nil]
    exact accounted

end KeepsAccount

namespace ControlState

variable (env : ControlEnv L)

theorem isSome_of_probeChoice {self : ControlState P C L}
    {via target : Bytes 32}
    (chosen : self.probeChoice env = some (via, target)) :
    (self.peers.lookup via).isSome = true := by
  have member : (via, target) ∈ self.probeCandidates env :=
    List.mem_of_mem_drop (List.mem_of_mem_head? chosen)
  rcases List.mem_flatMap.mp member with ⟨⟨key, peer⟩, entry, claimed⟩
  rcases List.mem_map.mp claimed with ⟨_, _, same⟩
  rcases List.mem_filterMap.mp entry with ⟨other, _, found⟩
  rcases Option.map_eq_some_iff.mp found with ⟨stored, looked, equal⟩
  rw [Prod.mk.injEq] at same equal
  rw [← same.1, ← equal.1, looked]
  rfl

theorem keepsAccount_probeCuckooClaim :
    KeepsAccount (probeCuckooClaim env : Phase P C L) := by
  intro self probed boosted accounted
  unfold probeCuckooClaim
  cases chosen : self.probeChoice env with
  | none =>
    rw [show lookupsOf ([] : Sent L) = [] from rfl, List.append_nil]
    exact accounted
  | some candidate =>
    rcases candidate with ⟨via, target⟩
    have known := isSome_of_probeChoice env chosen
    have sent :
        lookupsOf
          (self.sendToPeer via (.pathLookup (self.probeLookup env target))) =
          [(via, self.probeLookup env target)] := by
      rw [sendToPeer, if_pos known]
      rfl
    dsimp only
    rw [sent]
    exact accounted.insert via env.now (self.probeLookup env target)

theorem pendingProbes_dropProbes {probed : List (Bytes 32 × PathLookup)}
    {boosted : Bytes 32 → Nat} (stale : List (UInt64 × Bytes 32 × Instant))
    {self : ControlState P C L}
    (accounted : Accounted self.pendingProbes probed boosted) :
    Accounted (stale.foldl dropProbe self).pendingProbes probed
      boosted := by
  induction stale generalizing self with
  | nil => exact accounted
  | cons entry rest induction => exact induction (accounted.erase entry.1)

/-- Maintenance notes the probes it sends. -/
theorem keepsAccount_doMaintenance :
    KeepsAccount (doMaintenance env : Phase P C L) := by
  apply KeepsAccount.inOrder
  intro phase member
  rcases List.mem_append.mp member with topology | service
  · exact KeepsAccount.of_unchanged
      (sendsOnly_of_mem_topologyPhases env topology) (by decide)
      fun self =>
        (sameTables_of_mem_topologyPhases env self topology).pendingProbes
  · simp only [servicePhases, List.mem_cons, List.not_mem_nil, or_false]
      at service
    rcases service with rfl | rfl | rfl | rfl | rfl | rfl | rfl
    · apply KeepsAccount.onlyWhen
      exact KeepsAccount.of_unchanged (sendsOnly_sendKeepalives env) (by decide)
        fun _ => rfl
    · apply KeepsAccount.onlyWhen
      exact KeepsAccount.of_unchanged (sendsOnly_rotateOnionKeys env)
        (by decide) fun _ => rfl
    · apply KeepsAccount.onlyWhen
      exact KeepsAccount.of_unchanged
        (sendsOnly_broadcastOnionKeyAnnounce env) (by decide) fun _ => rfl
    · exact KeepsAccount.onlyWhen (keepsAccount_probeCuckooClaim env)
    · apply KeepsAccount.onlyWhen
      exact KeepsAccount.of_unchanged (sendsOnly_broadcastReputation env)
        (by decide) (pendingProbes_broadcastReputation env)
    · intro self probed boosted accounted
      rw [show lookupsOf (Phase.quietly _ self : _ × Sent L).2 = [] from
        rfl, List.append_nil]
      exact pendingProbes_dropProbes _ accounted
    · exact @KeepsAccount.of_unchanged P C L _ [] (SendsOnly.quietly _)
        (by decide) fun _ => rfl

theorem pendingProbes_handlePathNotify (self : ControlState P C L)
    (fromPeer : Bytes 32) (notify : PathNotify) :
    (self.handlePathNotify env fromPeer notify).1.pendingProbes =
      if notify.source = self.pubKey ∧
        (self.pendingProbes.lookup notify.id).isSome then
        self.pendingProbes.erase notify.id
      else
        self.pendingProbes := by
  simp only [handlePathNotify]
  by_cases addressed : notify.source = self.pubKey
  · rw [if_pos addressed]
    unfold confirmProbe
    rw [show (self.touch fromPeer env.now).pendingProbes =
      self.pendingProbes from rfl]
    cases pending : self.pendingProbes.lookup notify.id with
    | none =>
      rw [if_neg (by simp)]
      rfl
    | some probe =>
      rw [if_pos ⟨addressed, rfl⟩]
      rfl
  · rw [if_neg addressed, if_neg fun both => addressed both.1]
    cases env.nextHop notify.source with
    | none => rfl
    | some next => rfl

theorem trustOf_onPeer (self : ControlState P C L) (key fromPeer : Bytes 32)
    {change : Peer C L → Peer C L}
    (same : ∀ peer, (change peer).trust = peer.trust) :
    (self.onPeer fromPeer change).trustOf key = self.trustOf key := by
  unfold trustOf onPeer
  by_cases here : key = fromPeer
  · rw [here, KeyedMap.lookup_modify_self, Option.map_map]
    exact congrArg (fun read => (self.peers.lookup fromPeer).map read)
      (funext same)
  · rw [KeyedMap.lookup_modify_ne here]

theorem trustOf_dispatch (env : ControlEnv L) (self : ControlState P C L)
    (key fromPeer : Bytes 32) {frame : ControlFrame L}
    (answer : frame.kind ≠ .sigRes) (coordinate : frame.kind ≠ .coordAnnounce)
    (reply : frame.kind ≠ .pathNotify) :
    (dispatch env fromPeer frame self).1.trustOf key = self.trustOf key := by
  cases frame with
  | keepAlive => exact self.trustOf_onPeer key fromPeer fun _ => rfl
  | sigReq req => exact self.trustOf_onPeer key fromPeer fun _ => rfl
  | sigRes res => exact (answer rfl).elim
  | announce ann =>
    simp only [dispatch, handleAnnounce, noteChange]
    split_ifs
    · rfl
    · cases treeIndex ann.treeId with
      | none => rfl
      | some tree =>
        dsimp only
        split_ifs <;> exact self.trustOf_onPeer key fromPeer fun _ => rfl
  | coordAnnounce ann => exact (coordinate rfl).elim
  | cuckoo msg =>
    simp only [dispatch, handleCuckoo]
    cases treeIndex msg.treeId with
    | none => rfl
    | some tree => exact self.trustOf_onPeer key fromPeer fun _ => rfl
  | pathLookup lookup =>
    simp only [dispatch, handlePathLookup]
    split_ifs <;> rfl
  | pathNotify notify => exact (reply rfl).elim
  | onionKeyAnnounce ann =>
    simp only [dispatch, handleOnionKeyAnnounce]
    split_ifs
    · dsimp only
      rw [recordRemoteOnionKey_eq]
      rfl
    · rfl
  | reputationReport report =>
    simp only [dispatch, handleReputationReport]
    split_ifs
    · dsimp only
      rw [recordReputation_eq]
      rfl
    · rfl

/-- What boosts a peer is a reply to a probe that went through it. -/
theorem waiting_of_boosts {self : ControlState P C L} {step : ControlStep L}
    {key : Bytes 32} (boosts : Boosts self step key) :
    ∃ fromPeer notify sentAt,
      step.action = .receive fromPeer (.pathNotify notify) ∧
        notify.source = self.pubKey ∧
        self.pendingProbes.lookup notify.id = some (key, sentAt) := by
  rcases step with ⟨env, action⟩
  rcases boosts with ⟨fromPeer, frame, rfl, answer, coordinate, moved⟩
  change (dispatch env fromPeer frame self).1.trustOf key ≠ _ at moved
  by_cases reply : frame.kind = .pathNotify
  · cases frame with
    | pathNotify notify =>
      have touched :
          (self.touch fromPeer env.now).trustOf key = self.trustOf key :=
        self.trustOf_onPeer key fromPeer fun _ => rfl
      rw [← touched] at moved
      simp only [dispatch, handlePathNotify] at moved
      split_ifs at moved with addressed
      · unfold confirmProbe at moved
        have same :
            (self.touch fromPeer env.now).pendingProbes = self.pendingProbes :=
          rfl
        rw [same] at moved
        cases pending : self.pendingProbes.lookup notify.id with
        | none =>
          rw [pending] at moved
          exact (moved rfl).elim
        | some probe =>
          rcases probe with ⟨via, sentAt⟩
          rw [pending] at moved
          refine ⟨fromPeer, notify, sentAt, rfl, addressed, ?_⟩
          by_cases here : key = via
          · rw [here]
            exact pending
          · refine (moved ?_).elim
            unfold trustOf boostTrust onPeer
            rw [KeyedMap.lookup_modify_ne here]
      · cases hop : env.nextHop notify.source <;> rw [hop] at moved <;>
          exact (moved rfl).elim
    | _ => cases reply
  · exact (moved (trustOf_dispatch env self key fromPeer answer coordinate
      reply)).elim

end ControlState

open Classical in
/-- A step notes the probes it sends and uses up those that are answered. -/
theorem Accounted.step {self : ControlState P C L}
    {probed : List (Bytes 32 × PathLookup)} {boosted : Bytes 32 → Nat}
    (accounted : Accounted self.pendingProbes probed boosted)
    (step : ControlStep L) :
    Accounted (self.step step).pendingProbes (probed ++ probesOf self step)
      fun key => boosted key + if Boosts self step key then 1 else 0 := by
  have quiet :
      (∀ key, ¬ Boosts self step key) →
        (fun key => boosted key + if Boosts self step key then 1 else 0) =
          boosted :=
    fun none => funext fun key => by rw [if_neg (none key), Nat.add_zero]
  rcases step with ⟨env, action⟩
  cases action with
  | attach key =>
    have same :
        (self.addPeer env key).pendingProbes = self.pendingProbes := by
      unfold ControlState.addPeer
      split <;> rfl
    rw [quiet (by rintro _ ⟨_, _, received, _⟩; cases received)]
    simp only [probesOf, List.append_nil, ControlState.step,
      ControlState.perform, same]
    exact accounted
  | detach key =>
    rw [quiet (by rintro _ ⟨_, _, received, _⟩; cases received)]
    simp only [probesOf, List.append_nil]
    exact accounted
  | receive fromPeer frame =>
    simp only [probesOf, List.append_nil]
    by_cases some : ∃ key, Boosts self ⟨env, .receive fromPeer frame⟩ key
    · rcases some with ⟨key, boosts⟩
      rcases ControlState.waiting_of_boosts boosts with
        ⟨_, notify, sentAt, received, addressed, found⟩
      cases received
      have used := self.pendingProbes_handlePathNotify env fromPeer notify
      rw [if_pos ⟨addressed, by rw [found]; rfl⟩] at used
      simp only [ControlState.step, ControlState.perform, ControlState.dispatch,
        used]
      apply accounted.confirm
      intro peer boosts
      rcases ControlState.waiting_of_boosts boosts with
        ⟨_, _, sentAt, received, _, found⟩
      cases received
      exact ⟨sentAt, found⟩
    · rw [quiet (fun key boosts => some ⟨key, boosts⟩)]
      simp only [ControlState.step, ControlState.perform]
      by_cases reply : frame.kind = .pathNotify
      · cases frame with
        | pathNotify notify =>
          simp only [ControlState.dispatch,
            ControlState.pendingProbes_handlePathNotify]
          split_ifs
          · exact accounted.erase notify.id
          · exact accounted
        | _ => cases reply
      · rw [(ControlState.reaches_dispatch env self fromPeer frame).probes
          reply]
        exact accounted
  | maintain =>
    rw [quiet (by rintro _ ⟨_, _, received, _⟩; cases received)]
    exact ControlState.keepsAccount_doMaintenance env self probed boosted
      accounted

/-- Over a run, boosts stay covered by the probes that were sent. -/
theorem accounted_run {self : ControlState P C L}
    {probed : List (Bytes 32 × PathLookup)} {boosted : Bytes 32 → Nat}
    (accounted : Accounted self.pendingProbes probed boosted)
    (steps : List (ControlStep L)) :
    Accounted (Run.run ControlState.step self steps).pendingProbes
      (probed ++ probesSent self steps)
      fun key => boosted key + boostCount key self steps := by
  induction steps generalizing self probed boosted with
  | nil =>
    rw [probesSent, List.append_nil]
    exact accounted
  | cons step rest induction =>
    have later := induction (accounted.step step)
    simp only [probesSent, boostCount, ← List.append_assoc, ← Nat.add_assoc]
    exact later

/--
In every run, what boosts a peer is a reply to the router itself, with the
number of a lookup that a probe sent through that peer; and a peer is boosted
at most once for every probe through it.
-/
theorem boosts_answer_own_probes (signingKey : P.SigningKey)
    (onionEphPub : Bytes 32) (steps : List (ControlStep L)) :
    let start : ControlState P C L := .new signingKey onionEphPub
    let router := Run.run ControlState.step start steps
    (∀ next key, Boosts router next key →
        ∃ fromPeer notify,
          next.action = .receive fromPeer (.pathNotify notify) ∧
            notify.source = router.pubKey ∧
            ∃ lookup, (key, lookup) ∈ probesSent start steps ∧
              lookup.id = notify.id) ∧
      ∀ key,
        boostCount key start steps ≤
          (probesSent start steps).countP fun probe => probe.1 = key := by
  intro start router
  have accounted : Accounted router.pendingProbes _ _ :=
    accounted_run Accounted.nothing steps
  constructor
  · intro next key boosts
    rcases ControlState.waiting_of_boosts boosts with
      ⟨fromPeer, notify, sentAt, received, addressed, pending⟩
    exact ⟨fromPeer, notify, received, addressed,
      accounted.known _ _ _ pending⟩
  · intro key
    have counted := accounted.counted key
    rw [Nat.zero_add] at counted
    exact (Nat.le_add_right _ _).trans counted

/-- The claim of a peer that it reaches the sample root. -/
def claimOfRoot : CuckooMsg sampleFilters where
  treeId := 0
  generation := 0
  data :=
    sampleFilters.encode
      (sampleFilters.add ⟨true, fun _ => ⟨0, Cuckoo.slotsPerBucket_pos⟩⟩
        sampleFilters.new
        (routingTag Primitives.transparent rootKey))

/-- A router with two peers probes the claim of one about the other. -/
def probingSteps : List (ControlStep sampleFilters) :=
  sampleStep (.attach nearKey) :: sampleStep (.attach rootKey) ::
    sampleStep (.receive nearKey (.cuckoo claimOfRoot)) ::
    List.replicate 15 (sampleStep .maintain)

/-- The router after that. -/
def probingRouter : SampleRouter :=
  Run.run ControlState.step (newRouter farKey) probingSteps

/-- A reply with the number of the probe. -/
def replyAbout (target : Bytes 32) : PathNotify where
  target := target
  source := farKey
  id := 0
  path := []

/-- The step in which a reply arrives. -/
def replyStep (fromPeer target : Bytes 32) : ControlStep sampleFilters :=
  sampleStep (.receive fromPeer (.pathNotify (replyAbout target)))

/-- The trust in the probed peer. -/
def trustInNear (router : SampleRouter) : Option Nat := router.trustOf nearKey

/-- Another peer boosts the probed one with a reply about another target. -/
theorem stranger_answers_probe :
    (probesSent (newRouter farKey) probingSteps).map
        (fun probe => (probe.1, probe.2.target, probe.2.id)) =
      [(nearKey, rootKey, 0)] ∧
    trustInNear probingRouter = some 0 ∧
    trustInNear (probingRouter.step (replyStep rootKey nearKey)) = some 1 ∧
    rootKey ≠ nearKey ∧ (replyAbout nearKey).target ≠ rootKey := by
  refine ⟨?_, ?_, ?_, ?_, ?_⟩ <;> decide +kernel

/-- The probed peer passes on the reply of the target. -/
theorem target_answers_probe :
    ∃ lookup, (nearKey, lookup) ∈ probesSent (newRouter farKey) probingSteps ∧
      lookup.id = (replyAbout rootKey).id := by
  have moved :
      trustInNear (probingRouter.step (replyStep nearKey rootKey)) ≠
        trustInNear probingRouter := by
    decide +kernel
  rcases
      (@boosts_answer_own_probes Primitives.transparent sampleCrates
        sampleFilters (show Bytes 32 from farKey) (Bytes.replicate 32 0)
        probingSteps).1 (replyStep nearKey rootKey) nearKey
        ⟨nearKey, _, rfl, by decide, by decide, moved⟩ with
    ⟨_, _, received, _, sent⟩
  cases received
  exact sent

end Norn.Control
