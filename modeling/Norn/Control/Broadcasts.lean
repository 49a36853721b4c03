import Norn.Control.Cadence

/-!
# The broadcasts of a router

`maybe_broadcast_control` runs once in every tick.  It adapts the interval
between two broadcasts, and it broadcasts when the topology has changed, when
the neighbourhood is still moving, or when the interval has passed.

Whether a tick has broadcast is read off the frames that it sends.  The first
tick broadcasts, a changed topology is broadcast at once, and two broadcasts
are never more than `CONTROL_MAX_INTERVAL` ticks apart, as long as the counter
of the ticks does not overflow.
-/

namespace Norn.Control

open Foundation Packet Router Session

variable {P : Primitives} {C : Crates} {L : FilterOps}

variable {count since : Nat} {router : ControlState P C L}
  {steps : List (ControlStep L)}

/-- A tick of a run: the router before it, and its surroundings. -/
structure Tick (P : Primitives) (C : Crates) (L : FilterOps) where
  router : ControlState P C L
  env : ControlEnv L

namespace Tick

/-- The router with its trees settled, as it is when it may broadcast. -/
def settled (tick : Tick P C L) : ControlState P C L :=
  tick.router.settleTrees tick.env

/-- The topology that the tick finds. -/
def digest (tick : Tick P C L) : ControlDigest := tick.settled.controlDigest

/-- The frames that the tick sends. -/
def sent (tick : Tick P C L) : Sent L :=
  (ControlState.doMaintenance tick.env tick.router).2

/--
The tick broadcasts: every peer is sent the announcement for every tree, and
the coordinate.
-/
def Broadcasts (tick : Tick P C L) : Prop :=
  ∀ peer ∈ tick.settled.peers.keys,
    (∀ tree, (peer, .announce (tick.settled.ownAnnounce tree)) ∈ tick.sent) ∧
      (peer, .coordAnnounce (tick.settled.ownCoordAnnounce tick.env)) ∈
        tick.sent

end Tick

/-- The ticks of a run. -/
def ticksOf :
    ControlState P C L → List (ControlStep L) → List (Tick P C L)
  | _, [] => []
  | router, ⟨env, .maintain⟩ :: rest =>
    ⟨router, env⟩ :: ticksOf (router.step ⟨env, .maintain⟩) rest
  | router, step :: rest => ticksOf (router.step step) rest

namespace ControlState

variable (env : ControlEnv L) (self : ControlState P C L)

/-- The topology at the time of the broadcast, with its change noted. -/
def noted : ControlState P C L := self.noteChange self.controlChanged

/-- The test that `maybe_broadcast_control` makes. -/
def broadcastsNow : Bool := self.noted.controlDue

variable {self} in
theorem lastControl_of_lastBroadcast {last : UInt32 × Option ControlDigest}
    (same : self.lastBroadcast = last) :
    self.lastControlTick = last.1 ∧ self.lastControlDigest = last.2 := by
  subst same
  exact ⟨rfl, rfl⟩

theorem controlChanged_noted :
    self.noted.controlChanged = self.controlChanged := by
  unfold noted noteChange
  split_ifs <;> rfl

theorem lastBroadcast_maybeBroadcastControl :
    (maybeBroadcastControl env self).1.lastBroadcast =
      if self.broadcastsNow then (self.tick, some self.controlDigest)
      else self.lastBroadcast := by
  unfold maybeBroadcastControl broadcastsNow noted noteChange
  dsimp only
  split_ifs <;> rfl

/-- Without a broadcast the topology is the old one, and it is early. -/
theorem early_of_silent (silent : self.broadcastsNow = false) :
    self.lastControlDigest = some self.controlDigest ∧
      self.idle < controlMaxInterval.toNat := by
  have same : self.noted.idle = self.idle := by
    unfold noted noteChange
    split_ifs <;> rfl
  have interval := nextControlInterval_le self.noted
  unfold broadcastsNow controlDue at silent
  simp only [Bool.or_eq_false_iff, decide_eq_false_iff_not,
    UInt32.le_iff_toNat_le, Nat.not_le, controlChanged_noted] at silent
  have waits : self.noted.idle < self.noted.nextControlInterval.toNat :=
    silent.2
  refine ⟨?_, by omega⟩
  by_contra changed
  have unchanged := silent.1.1
  rw [controlChanged, decide_eq_true changed] at unchanged
  cases unchanged

theorem settleTrees_ticks :
    (self.settleTrees env).tick = self.tick + 1 ∧
      (self.settleTrees env).lastBroadcast = self.lastBroadcast := by
  have phases := (settled_treePhases env (self.startTick env)
    (List.finRange treeCount)).1
  exact ⟨phases.tick.trans (startTick_ticks env self).1,
    phases.lastBroadcast.trans (startTick_ticks env self).2⟩

theorem doMaintenance_ticks :
    (doMaintenance env self).1.tick = self.tick + 1 ∧
      (doMaintenance env self).1.lastBroadcast =
        if (self.settleTrees env).broadcastsNow then
          (self.tick + 1, some (self.settleTrees env).controlDigest)
        else self.lastBroadcast := by
  have services :=
    undisturbed_servicePhases env
      (maybeBroadcastControl env (self.settleTrees env)).1
  rw [← (doMaintenance_eq env self).1] at services
  have settled := settleTrees_ticks env self
  rw [services.tick, services.lastBroadcast,
    lastBroadcast_maybeBroadcastControl,
    (maybeBroadcastControl_keeps env _).2.2.2, settled.1, settled.2]
  exact ⟨rfl, rfl⟩

theorem step_ticks {step : ControlStep L} (other : step.action ≠ .maintain) :
    (self.step step).tick = self.tick ∧
      (self.step step).lastBroadcast = self.lastBroadcast := by
  rcases step with ⟨env, action⟩
  cases action with
  | attach key =>
    simp only [step, perform, addPeer]
    split <;> exact ⟨rfl, rfl⟩
  | detach key => exact ⟨rfl, rfl⟩
  | receive fromPeer frame =>
    have rest := (reaches_dispatch env self fromPeer frame).rest
    have tick := congrArg ControlState.tick rest
    have last := congrArg lastBroadcast rest
    exact ⟨tick, last⟩
  | maintain => exact (other rfl).elim

theorem mem_doMaintenance {frame : Bytes 32 × ControlFrame L}
    (member : frame ∈ (maybeBroadcastControl env (self.settleTrees env)).2) :
    frame ∈ (doMaintenance env self).2 := by
  simp only [doMaintenance, topologyPhases, List.cons_append,
    Phase.inOrder, Phase.inOrder_append, Phase.quietly, List.nil_append,
    List.append_nil, List.mem_append]
  exact Or.inl (Or.inr member)

end ControlState

open ControlState

theorem Tick.broadcasts_of_due {tick : Tick P C L}
    (due : tick.settled.broadcastsNow = true) : tick.Broadcasts := by
  intro peer known
  have listed : peer ∈ tick.settled.peerKeys tick.env :=
    (tick.env.order.perm _).mem_iff.mpr known
  have frames :
      (maybeBroadcastControl tick.env tick.settled).2 =
        (List.finRange treeCount).flatMap
            (tick.settled.sendAnnounces tick.env) ++
          tick.settled.broadcastCoord tick.env := by
    unfold broadcastsNow noted at due
    simp only [maybeBroadcastControl, if_pos due]
    unfold noteChange
    split_ifs <;> rfl
  constructor
  · intro tree
    apply mem_doMaintenance
    rw [← settled, frames]
    exact List.mem_append_left _ (List.mem_flatMap.mpr
      ⟨tree, List.mem_finRange tree, List.mem_map.mpr ⟨peer, listed, rfl⟩⟩)
  · apply mem_doMaintenance
    rw [← settled, frames]
    exact List.mem_append_right _ (List.mem_map.mpr ⟨peer, listed, rfl⟩)

/-! ## Runs of silent ticks -/

/-- So many ticks have passed, and the last broadcast was in one of them. -/
structure Beats (count since : Nat) (router : ControlState P C L) : Prop where
  tick : router.tick = UInt32.ofNat count
  last : router.lastControlTick = UInt32.ofNat since
  past : since ≤ count

theorem Beats.tick_add_one (beats : Beats count since router) :
    router.tick + 1 = UInt32.ofNat (count + 1) := by
  rw [beats.tick, UInt32.ofNat_add]
  rfl

theorem Beats.maintain (beats : Beats count since router) (env : ControlEnv L) :
    ∃ later, Beats (count + 1) later (router.step ⟨env, .maintain⟩) := by
  have ticks := doMaintenance_ticks env router
  have next := beats.tick_add_one
  dsimp only [ControlState.step, perform]
  cases due : (router.settleTrees env).broadcastsNow with
  | true =>
    rw [due, if_pos rfl] at ticks
    exact ⟨count + 1, ticks.1.trans next,
      (lastControl_of_lastBroadcast ticks.2).1.trans next, le_rfl⟩
  | false =>
    rw [due, if_neg (by decide)] at ticks
    exact ⟨since, ticks.1.trans next,
      (lastControl_of_lastBroadcast ticks.2).1.trans beats.last,
      Nat.le_succ_of_le beats.past⟩

theorem Beats.other (beats : Beats count since router) {step : ControlStep L}
    (other : step.action ≠ .maintain) :
    Beats count since (router.step step) := by
  have same := router.step_ticks other
  exact ⟨same.1.trans beats.tick,
    (lastControl_of_lastBroadcast same.2).1.trans beats.last, beats.past⟩

theorem ticksOf_other {step : ControlStep L} (other : step.action ≠ .maintain)
    (router : ControlState P C L) (rest : List (ControlStep L)) :
    ticksOf router (step :: rest) = ticksOf (router.step step) rest := by
  rcases step with ⟨env, action⟩
  cases action with
  | maintain => exact (other rfl).elim
  | _ => rfl

/-- A silent tick is early, finds the old topology and leaves it remembered. -/
theorem Beats.silent (beats : Beats count since router) {env : ControlEnv L}
    (few : count + 1 < 2 ^ 32)
    (silent : ¬ (⟨router, env⟩ : Tick P C L).Broadcasts) :
    count + 1 < since + controlMaxInterval.toNat ∧
      router.lastControlDigest =
        some (⟨router, env⟩ : Tick P C L).digest ∧
      Beats (count + 1) since (router.step ⟨env, .maintain⟩) ∧
      (router.step ⟨env, .maintain⟩).lastControlDigest =
        router.lastControlDigest := by
  have quiet : (router.settleTrees env).broadcastsNow = false :=
    Bool.eq_false_iff.mpr fun due => silent (Tick.broadcasts_of_due due)
  have early := early_of_silent _ quiet
  have settled := settleTrees_ticks env router
  have ticks := doMaintenance_ticks env router
  have next := beats.tick_add_one
  rw [quiet, if_neg (by decide)] at ticks
  have now : (UInt32.ofNat (count + 1)).toNat = count + 1 :=
    UInt32.toNat_ofNat_of_lt' few
  have ago : (UInt32.ofNat since).toNat = since :=
    UInt32.toNat_ofNat_of_lt'
      (lt_of_le_of_lt (Nat.le_succ_of_le beats.past) few)
  have ordered : UInt32.ofNat since ≤ UInt32.ofNat (count + 1) := by
    rw [UInt32.le_iff_toNat_le, now, ago]
    exact Nat.le_succ_of_le beats.past
  have idle := early.2
  have remembered := lastControl_of_lastBroadcast settled.2
  have kept := lastControl_of_lastBroadcast ticks.2
  rw [ControlState.idle, settled.1, next,
    remembered.1.trans beats.last,
    UInt32.toNat_sub_of_le _ _ ordered, now, ago] at idle
  dsimp only [ControlState.step, perform]
  exact ⟨by omega, remembered.2.symm.trans early.1,
    ⟨ticks.1.trans next, kept.1.trans beats.last,
      Nat.le_succ_of_le beats.past⟩, kept.2⟩

/-- Silent ticks in a row are early and find one topology. -/
theorem Beats.silent_run (beats : Beats count since router)
    {silent later : List (Tick P C L)}
    (split : ticksOf router steps = silent ++ later)
    (quiet : ∀ tick ∈ silent, ¬ tick.Broadcasts)
    (few : count + silent.length < 2 ^ 32) :
    (silent ≠ [] →
        count + silent.length < since + controlMaxInterval.toNat) ∧
      ∀ tick ∈ silent, router.lastControlDigest = some tick.digest := by
  induction steps generalizing count router silent with
  | nil =>
    have none := (List.append_eq_nil_iff.mp split.symm).1
    subst none
    exact ⟨fun some => (some rfl).elim, fun _ member => by cases member⟩
  | cons step rest induction =>
    by_cases maintain : step.action = .maintain
    · rcases step with ⟨env, action⟩
      cases maintain
      cases silent with
      | nil =>
        exact ⟨fun some => (some rfl).elim, fun _ member => by cases member⟩
      | cons head silent =>
        rw [ticksOf, List.cons_append, List.cons.injEq] at split
        rcases split with ⟨rfl, split⟩
        rw [List.length_cons] at few ⊢
        rcases beats.silent (by omega) (quiet _ List.mem_cons_self) with
          ⟨early, digest, next, kept⟩
        have others :=
          induction next split
            (fun tick member => quiet tick (List.mem_cons_of_mem _ member))
            (by omega)
        refine ⟨fun _ => ?_, fun tick member => ?_⟩
        · by_cases alone : silent = []
          · subst alone
            exact early
          · have bound := others.1 alone
            omega
        · rcases List.mem_cons.mp member with rfl | behind
          · exact digest
          · rw [← kept]
            exact others.2 tick behind
    · rw [ticksOf_other maintain] at split
      have same := router.step_ticks maintain
      have others := induction (beats.other maintain) split quiet few
      rw [(lastControl_of_lastBroadcast same.2).2] at others
      exact others

/-- What a run does behind one of its ticks. -/
theorem Beats.behind (beats : Beats count since router)
    {earlier rest : List (Tick P C L)} {last : Tick P C L}
    (split : ticksOf router steps = earlier ++ last :: rest) :
    ∃ later behind,
      Beats (count + earlier.length + 1) later
          (last.router.step ⟨last.env, .maintain⟩) ∧
        ticksOf (last.router.step ⟨last.env, .maintain⟩) behind = rest := by
  induction steps generalizing count since router earlier with
  | nil => simp [ticksOf] at split
  | cons step others induction =>
    by_cases maintain : step.action = .maintain
    · rcases step with ⟨env, action⟩
      cases maintain
      rcases beats.maintain env with ⟨later, next⟩
      cases earlier with
      | nil =>
        rw [ticksOf, List.nil_append, List.cons.injEq] at split
        rcases split with ⟨rfl, split⟩
        exact ⟨later, others, next, split⟩
      | cons head earlier =>
        rw [ticksOf, List.cons_append, List.cons.injEq] at split
        rcases induction next split.2 with ⟨since, behind, found, same⟩
        refine ⟨since, behind, ?_, same⟩
        rwa [List.length_cons, ← Nat.add_assoc, Nat.add_right_comm count]
    · rw [ticksOf_other maintain] at split
      exact induction (beats.other maintain) split

theorem lastControlDigest_maintain (router : ControlState P C L)
    (env : ControlEnv L) :
    (router.step ⟨env, .maintain⟩).lastControlDigest =
      some (⟨router, env⟩ : Tick P C L).digest := by
  have ticks := lastControl_of_lastBroadcast (doMaintenance_ticks env router).2
  dsimp only [ControlState.step, perform]
  rw [ticks.2]
  split
  · rfl
  · rename_i silent
    have settled :=
      lastControl_of_lastBroadcast (settleTrees_ticks env router).2
    exact settled.2.symm.trans
      (early_of_silent _ (Bool.eq_false_iff.mpr silent)).1

theorem broadcasts_of_undigested (undigested : router.lastControlDigest = none)
    {env : ControlEnv L} :
    (⟨router, env⟩ : Tick P C L).Broadcasts := by
  apply Tick.broadcasts_of_due
  by_contra silent
  have settled := lastControl_of_lastBroadcast (settleTrees_ticks env router).2
  have early := (early_of_silent _ (Bool.eq_false_iff.mpr silent)).1
  rw [Tick.settled, settled.2] at early
  cases undigested.symm.trans early

theorem head_broadcasts (undigested : router.lastControlDigest = none)
    {first : Tick P C L} (head : (ticksOf router steps).head? = some first) :
    first.Broadcasts := by
  induction steps generalizing router with
  | nil => cases head
  | cons step rest induction =>
    by_cases maintain : step.action = .maintain
    · rcases step with ⟨env, action⟩
      cases maintain
      cases head
      exact broadcasts_of_undigested undigested
    · rw [ticksOf_other maintain] at head
      have same := lastControl_of_lastBroadcast (router.step_ticks maintain).2
      exact induction (same.2.trans undigested) head

/-- A silent stretch is short and keeps the digest of the tick before it. -/
theorem silent_ticks {signingKey : P.SigningKey} {onionEphPub : Bytes 32}
    {earlier silent later : List (Tick P C L)} {last : Tick P C L}
    (few :
      (ticksOf (.new signingKey onionEphPub : ControlState P C L)
        steps).length < 2 ^ 32)
    (split :
      ticksOf (.new signingKey onionEphPub : ControlState P C L) steps =
        earlier ++ last :: (silent ++ later))
    (quiet : ∀ tick ∈ silent, ¬ tick.Broadcasts) :
    silent.length < controlMaxInterval.toNat ∧
      ∀ tick ∈ silent, tick.digest = last.digest := by
  rw [split, List.length_append, List.length_cons, List.length_append] at few
  have start :
      Beats 0 0 (.new signingKey onionEphPub : ControlState P C L) :=
    ⟨rfl, rfl, le_rfl⟩
  rcases start.behind split with ⟨since, behind, beats, rest⟩
  have silence := beats.silent_run rest quiet (by omega)
  rw [lastControlDigest_maintain] at silence
  constructor
  · by_cases none : silent = []
    · subst none
      show 0 < controlMaxInterval.toNat
      decide
    · have bound := silence.1 none
      have past := beats.past
      omega
  · intro tick member
    exact (Option.some.inj (silence.2 tick member)).symm

/--
In a run of fewer than `2 ^ 32` ticks the first tick broadcasts; a tick that
finds another topology than `last`, with only silent ticks between them,
broadcasts; and fewer than `CONTROL_MAX_INTERVAL` ticks in a row are silent.
-/
theorem broadcasts_stay_fresh (signingKey : P.SigningKey)
    (onionEphPub : Bytes 32) (steps : List (ControlStep L))
    (few :
      (ticksOf (.new signingKey onionEphPub : ControlState P C L)
        steps).length < 2 ^ 32) :
    let ticks :=
      ticksOf (.new signingKey onionEphPub : ControlState P C L) steps
    (∀ first, ticks.head? = some first → first.Broadcasts) ∧
      (∀ earlier last silent tick later,
        ticks = earlier ++ last :: (silent ++ tick :: later) →
          (∀ between ∈ silent, ¬ between.Broadcasts) →
            tick.digest ≠ last.digest → tick.Broadcasts) ∧
      ∀ earlier last silent later,
        ticks = earlier ++ last :: (silent ++ later) →
          (∀ between ∈ silent, ¬ between.Broadcasts) →
            silent.length < controlMaxInterval.toNat := by
  intro ticks
  refine ⟨fun first head => head_broadcasts rfl head, ?_, ?_⟩
  · intro earlier last silent tick later split quiet changed
    by_contra still
    rw [List.append_cons silent tick later] at split
    have same := silent_ticks few split (by
      intro between member
      rcases List.mem_append.mp member with inside | own
      · exact quiet between inside
      · rwa [List.mem_singleton.mp own])
    exact changed (same.2 tick (List.mem_append_right _ List.mem_cons_self))
  · intro earlier last silent later split quiet
    exact (silent_ticks few split quiet).1

/-- A sample router, before and after a peer arrives. -/
def joinedOnce : List (ControlStep sampleFilters) :=
  [sampleStep .maintain, sampleStep (.attach nearKey), sampleStep .maintain]

/-- The first tick broadcasts, and so does the one behind the new peer. -/
theorem broadcasts_stay_fresh_when_joined :
    ∃ first second,
      ticksOf (newRouter farKey) joinedOnce = [first, second] ∧
        first.digest ≠ second.digest ∧
        second.settled.peers.keys = [nearKey] ∧
        first.Broadcasts ∧ second.Broadcasts := by
  have fresh :=
    @broadcasts_stay_fresh Primitives.transparent sampleCrates sampleFilters
      (show Bytes 32 from farKey) (Bytes.replicate 32 0) joinedOnce
      (show 2 < 2 ^ 32 by decide)
  have moved :
      (⟨newRouter farKey, sampleAt 0 0⟩ : Tick _ _ _).digest ≠
        (⟨Run.run ControlState.step (newRouter farKey) (joinedOnce.take 2),
          sampleAt 0 0⟩ : Tick _ _ _).digest := by
    decide +kernel
  refine ⟨_, _, rfl, moved, by decide +kernel, fresh.1 _ rfl, ?_⟩
  exact fresh.2.1 [] _ [] _ [] rfl (by simp) moved.symm

end Norn.Control
