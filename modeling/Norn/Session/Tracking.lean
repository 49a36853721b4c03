import Norn.Session.History

/-!
# Managers follow the history

Every step of the network keeps the managers in agreement with the history:
a quiet step leaves the history alone, a handled Init adds a secret, and a
handled Ack adds an answer.  Two nodes that start as strangers are therefore
tracked in every state of every run.
-/

namespace Norn.Session

open Foundation Foundation.Run Network SessionManager

section Tracking

variable {P : Primitives}

theorem Network.Tracked.quiet {state : Network P} (tracked : state.Tracked)
    {side : Side}
    {manager : SessionManager P} {flight : List Envelope}
    (sameNode : SameNode (state.node side) manager)
    (unadvanced :
      Unadvanced (state.session side)
        (manager.sessions.peek (state.peerPub side)))
    (carried :
      ∀ envelope ∈ flight,
        envelope ∈ state.flight ∨
          SentInit manager side (state.peerPub side) envelope) :
    Network.Tracked
      { state.put side manager with flight := flight } := by
  have grows : Extends state { state.put side manager with flight := flight } :=
    Extends.of_put rfl sameNode
      (fun info held => unadvanced.localX25519Pub held)
      List.prefix_rfl fun _ => List.Subset.refl _
  have own :
      Network.session { state.put side manager with flight := flight } side =
        manager.sessions.peek (state.peerPub side) :=
    state.session_put_self side manager
  have same := @Extends.adopted P _ _ grows side rfl rfl
  refine tracked.extend grows side ?_ (state.session_put_peer sameNode) rfl rfl
    ?_ ?_
    (fun number member => Or.inl member) (tracked.answered side)
  · intro envelope member
    rcases carried envelope member with older | sent
    · exact Or.inl older
    · right
      rcases envelope with ⟨receiver, leg, nowMs, bytes⟩
      rcases sent with ⟨target, kind, info, held, content⟩
      dsimp only at target kind content
      subst target kind content
      have built :
          manager.initFor (state.peerPub side) info.localX25519Pub nowMs =
            initTo
              { state.put side manager with flight := flight } side.peer
              info nowMs := by
        simp [initTo, Network.put, peerPub]
      rw [built]
      refine .init side.peer info nowMs ?_
      rw [Side.peer_peer, own]
      exact held
  · intro missing
    rw [same]
    rw [own] at missing
    refine tracked.absent side ?_
    cases held : state.session side with
    | none => rfl
    | some info =>
      rcases unadvanced.localX25519Pub held with ⟨later, kept, _⟩
      cases kept.symm.trans missing
  · intro info held
    rw [own] at held
    rw [held] at unadvanced
    generalize before : state.session side = earlier at unadvanced
    cases unadvanced with
    | same => exact tracked.follows_of_untouched grows before rfl rfl
    | marked earlier now =>
      have follows := tracked.follows_of_untouched grows before rfl rfl
      exact ⟨follows.pqShared, follows.established, follows.remote,
        follows.unused⟩
    | opened _ pending unset unused =>
      have none := same.trans (tracked.absent side before)
      refine ⟨?_, ?_, ?_, unused⟩
      · rw [unset, Network.shared, none]
        rfl
      · rw [pending, none]
        rfl
      · intro established
        rw [pending] at established
        cases established

/--
A session that completes a handshake follows the history extended by the
message, if the handler's rule for adopting is that of the history.
-/
theorem Network.Tracked.follows_completeHandshake
    {before after : Network P} (tracked : before.Tracked)
    (grows : Extends before after) {side : Side}
    {existing : SessionInfo P}
    (held : before.session side = some existing)
    {rule : Bool} {number : Nat} {secret remote : Bytes 32}
    (drawn : after.secrets[number]? = some secret)
    (adopts :
      after.adopted side =
        if (before.adopted side).isNone || rule then some number
        else before.adopted side)
    (known :
      ∃ other, before.session side.peer = some other ∧
        remote = other.localX25519Pub)
    (fallback : Option (Bytes 32)) :
    after.Follows side
      (existing.completeHandshake remote (existing.pqShared.isNone || rule)
        secret fallback) := by
  have follows := tracked.follows side existing held
  have sameTest := tracked.isNone_shared side
  rw [← follows.pqShared] at sameTest
  rw [← sameTest] at adopts
  refine ⟨?_, ?_, fun _ => grows.remote known, follows.unused⟩
  · simp only [SessionInfo.completeHandshake]
    cases adopting : existing.pqShared.isNone || rule with
    | true =>
      rw [adopting] at adopts
      simp only [if_true] at adopts ⊢
      rw [Network.shared, adopts, Option.bind_some, drawn]
    | false =>
      rw [adopting] at adopts
      simp only [Bool.false_eq_true, if_false] at adopts ⊢
      rw [tracked.shared_of_adopted grows adopts, follows.pqShared]
  · rw [adopts]
    cases unset : existing.pqShared.isNone with
    | true => rfl
    | false =>
      rw [unset] at sameTest
      cases rule with
      | true => rfl
      | false =>
        have chosen : (before.adopted side).isSome = true := by
          rw [← Option.not_isNone, ← sameTest]
          rfl
        simp [SessionInfo.completeHandshake, chosen]

/-! ### Handling an Init -/

section Init

variable {state : Network P} {receiver : Side} {message : SessionInit}

theorem Network.peek_afterInit (state : Network P) (receiver : Side)
    (message : SessionInit) (env : Surroundings P) (log : RateLog)
    (pins : PinTable) (flight : List Envelope) :
    (state.afterInit receiver env message log pins flight).session receiver =
      ((state.node receiver).sessionsAfterInit env message).peek
        (state.peerPub receiver) :=
  state.session_put_self receiver
    { state.node receiver with
      initRateLog := log
      pqPins := pins
      sessions := (state.node receiver).sessionsAfterInit env message }

theorem Network.session_afterInit
    (source : message.edPub = state.peerPub receiver)
    (env : Surroundings P) (log : RateLog) (pins : PinTable)
    (flight : List Envelope) :
    (state.afterInit receiver env message log pins flight).session receiver =
      some (match state.session receiver with
        | some existing =>
          existing.completeHandshake message.x25519Pub
            (existing.pqShared.isNone || state.larger receiver)
            (drawnSecret env message) none
        | none =>
          { SessionInfo.new message.edPub env.newPriv
              message.x25519Pub env.now with
            established := true
            pqShared := some (drawnSecret env message) }) := by
  have accepted := (state.node receiver).peek_sessionsAfterInit_self env message
  rw [source] at accepted ⊢
  rw [peek_afterInit, accepted]
  rfl

theorem Network.extends_afterInit
    (source : message.edPub = state.peerPub receiver)
    (env : Surroundings P) (log : RateLog) (pins : PinTable)
    (flight : List Envelope) :
    Extends state (state.afterInit receiver env message log pins flight) := by
  refine Extends.of_put rfl ⟨rfl, rfl, rfl, rfl⟩ ?_ (List.prefix_append _ _) ?_
  · intro existing held
    refine ⟨_,
      (state.peek_afterInit receiver message env log pins flight).symm.trans
        (session_afterInit source env log pins flight), ?_⟩
    rw [held]
    rfl
  · intro side
    rcases side.eq_or_eq_peer receiver with same | peer
    · subst same
      simp [afterInit]
    · subst peer
      simp [afterInit]

theorem Network.adopted_afterInit
    (source : message.edPub = state.peerPub receiver)
    (env : Surroundings P) (log : RateLog) (pins : PinTable)
    (flight : List Envelope) :
    (state.afterInit receiver env message log pins flight).adopted receiver =
      if (state.adopted receiver).isNone || state.larger receiver then
        some state.secrets.length
      else state.adopted receiver := by
  unfold Network.adopted
  rw [(extends_afterInit source env log pins flight).larger,
    ← adopted_cons_inits]
  simp [afterInit, Network.put]

theorem Network.carries_ackFor (kem : P.KemCorrect)
    (source : message.edPub = state.peerPub receiver)
    {info : SessionInfo P}
    (sender : state.session receiver.peer = some info)
    (advertised : message.mlKem = (state.node receiver.peer).pqKeys.ekBytes)
    (env : Surroundings P) (log : RateLog) (pins : PinTable)
    (flight : List Envelope) :
    (state.afterInit receiver env message log pins flight).Carries
      ⟨receiver.peer, .ack state.secrets.length, env.nowMs,
        ((state.node receiver).ackFor env message).encode⟩ := by
  rcases Option.isSome_iff_exists.mp
      (Option.isSome_of_eq_some
        (session_afterInit source env log pins flight)) with
    ⟨session, held⟩
  have stored :
      ((state.node receiver).sessionsAfterInit env message).peek message.edPub =
        some session := by
    rw [source, ← held, peek_afterInit]
  have key := (state.node receiver).x25519Pub_ackFor env message session stored
  have built :
      (state.node receiver).ackFor env message =
        (state.afterInit receiver env message log pins flight).ackTo
          receiver.peer session (P.encapsulate message.mlKem env.seed).1
          env.nowMs := by
    unfold ackTo
    rw [← key]
    simp only [afterInit, Network.put, Side.peer_peer,
      Function.update_self, ne_eq, Side.peer_ne, not_false_eq_true,
      Function.update_of_ne]
    rw [show (state.node receiver.peer).ourPub = message.edPub from
      source.symm]
    rfl
  have decapsulated :
      (state.node receiver.peer).pqKeys.decap
        (P.encapsulate message.mlKem env.seed).1 =
        drawnSecret env message := by
    unfold drawnSecret PqKeys.decap
    rw [advertised, PqKeys.advertised]
    exact kem.decapsulates _ env.seed
  rw [built]
  refine .ack receiver.peer _ _ _ _ ?_ ⟨info, ?_⟩ ?_ ?_
  · rw [Side.peer_peer]
    exact held
  · rw [← sender]
    exact state.session_put_peer ⟨rfl, rfl, rfl, rfl⟩
  · simp [afterInit]
  · simp [afterInit, Network.put, decapsulated]

theorem Network.Tracked.init (kem : P.KemCorrect) (tracked : state.Tracked)
    {info : SessionInfo P}
    (sender : state.session receiver.peer = some info)
    (env : Surroundings P) (nowMs : UInt64) (log : RateLog)
    (pins : PinTable) {flight : List Envelope}
    (carried : ∀ other ∈ flight, other ∈ state.flight) :
    (state.afterInit receiver env (state.initTo receiver info nowMs) log pins
      flight).Tracked := by
  have source :
      (state.initTo receiver info nowMs).edPub = state.peerPub receiver :=
    rfl
  have grows := extends_afterInit source env log pins flight
  have held := session_afterInit source env log pins flight
  have adopts := adopted_afterInit source env log pins flight
  have drawn :
      (state.afterInit receiver env (state.initTo receiver info nowMs)
          log pins flight).secrets[state.secrets.length]? =
        some (drawnSecret env (state.initTo receiver info nowMs)) := by
    simp [afterInit]
  refine tracked.extend grows receiver ?_
    (state.session_put_peer ⟨rfl, rfl, rfl, rfl⟩) ?_ rfl ?_ ?_ ?_
    (tracked.answered receiver)
  · intro envelope member
    rcases List.mem_append.mp member with older | newer
    · exact Or.inl (carried envelope older)
    · rw [List.mem_singleton] at newer
      rw [newer]
      exact Or.inr (carries_ackFor kem source sender rfl env log pins flight)
  · simp [afterInit]
  · intro missing
    cases held.symm.trans missing
  · intro later found
    cases held.symm.trans found
    cases before : state.session receiver with
    | none =>
      rw [tracked.absent receiver before] at adopts
      refine ⟨?_, ?_, fun _ => grows.remote ⟨info, sender, rfl⟩, rfl, rfl, rfl⟩
      · rw [Network.shared, adopts]
        exact drawn.symm
      · rw [adopts]
        rfl
    | some existing =>
      exact tracked.follows_completeHandshake grows before drawn adopts
        ⟨info, sender, rfl⟩ none
  · intro number member
    simp only [afterInit, Function.update_self, List.mem_cons] at member
    rcases member with newest | older
    · right
      simp [afterInit, newest]
    · exact Or.inl older

end Init

theorem Network.Tracked.larger_peer {state : Network P}
    (tracked : state.Tracked) (side : Side) :
    state.larger side.peer = !state.larger side := by
  unfold Network.larger peerPub
  rw [Side.peer_peer]
  rcases Bytes.lt_or_gt_of_ne (tracked.distinct side) with below | above
  · have other := Bytes.lt_asymm below
    simp only [peerPub] at below other
    simp [below, other]
  · have other := Bytes.lt_asymm above
    simp only [peerPub] at above other
    simp [above, other]

section Ack

variable {state : Network P} {receiver : Side} {message : SessionAck}
  {existing : SessionInfo P}

theorem Network.session_afterAck
    (source : message.edPub = state.peerPub receiver)
    (pending : state.session receiver = some existing)
    (pins : PinTable) (number : Nat) (flight : List Envelope) :
    (state.afterAck receiver message existing pins number flight).session
      receiver =
      some (existing.completeHandshake message.x25519Pub
        ((state.node receiver).adoptsAck message existing)
        ((state.node receiver).pqKeys.decap message.mlKem)
        ((state.node receiver).pqKeys.decapPrev message.mlKem)) := by
  have updated :=
    @peek_sessionsAfterAck_self P (state.node receiver)
      message existing (by rw [source]; exact pending)
  rw [source] at updated
  exact (state.session_put_self receiver _).trans updated

theorem Network.extends_afterAck
    (source : message.edPub = state.peerPub receiver)
    (pending : state.session receiver = some existing)
    (pins : PinTable) (number : Nat) (flight : List Envelope) :
    Extends state
      (state.afterAck receiver message existing pins number flight) := by
  refine Extends.of_put rfl ⟨rfl, rfl, rfl, rfl⟩ ?_ List.prefix_rfl
    fun _ => List.Subset.refl _
  intro held found
  cases pending.symm.trans found
  have updated :=
    @peek_sessionsAfterAck_self P (state.node receiver)
      message existing (by rw [source]; exact pending)
  rw [source] at updated
  exact ⟨_, updated, rfl⟩

theorem Network.Tracked.ack (tracked : state.Tracked)
    {info : SessionInfo P} {number : Nat} {mlKemCt : Bytes mlKemCtBytes}
    (sender : state.session receiver.peer = some info)
    (answers : number ∈ state.inits receiver.peer)
    (secret :
      state.secrets[number]? =
        some ((state.node receiver).pqKeys.decap mlKemCt))
    (pending : state.session receiver = some existing)
    (nowMs : UInt64) (pins : PinTable) {flight : List Envelope}
    (carried : ∀ other ∈ flight, other ∈ state.flight) :
    (state.afterAck receiver (state.ackTo receiver info mlKemCt nowMs) existing
      pins number
      flight).Tracked := by
  have source :
      (state.ackTo receiver info mlKemCt nowMs).edPub =
        state.peerPub receiver :=
    rfl
  have grows := extends_afterAck source pending pins number flight
  have held := session_afterAck source pending pins number flight
  have adopts :
      (state.afterAck receiver (state.ackTo receiver info mlKemCt nowMs)
            existing pins number flight).adopted receiver =
        if (state.adopted receiver).isNone ||
            !state.larger receiver then some number
        else state.adopted receiver := by
    unfold Network.adopted
    rw [grows.larger, ← adopted_cons_acks]
    simp [afterAck, Network.put]
  have rule :
      (state.node receiver).adoptsAck (state.ackTo receiver info mlKemCt nowMs)
        existing =
        (existing.pqShared.isNone || !state.larger receiver) := by
    rw [← tracked.larger_peer, Network.larger, peerPub, Side.peer_peer]
    rfl
  refine tracked.extend grows receiver
    (fun envelope member => Or.inl (carried envelope member))
    (state.session_put_peer ⟨rfl, rfl, rfl, rfl⟩) rfl ?_ ?_ ?_
    (fun _ member => Or.inl member) ?_
  · simp [afterAck]
  · intro missing
    cases held.symm.trans missing
  · intro later found
    cases held.symm.trans found
    rw [rule]
    exact tracked.follows_completeHandshake grows pending secret adopts
      ⟨info, sender, rfl⟩ _
  · intro older member
    simp only [afterAck, Function.update_self, List.mem_cons] at member
    rcases member with newest | earlier
    · rw [newest]
      exact answers
    · exact tracked.answered receiver earlier

end Ack

/-- Two distinct nodes that have never heard of each other. -/
structure Network.Strangers (state : Network P) : Prop where
  distinct : (state.node .left).ourPub ≠ (state.node .right).ourPub
  absent :
    ∀ side, (state.node side).sessions.handle (state.peerPub side) = none
  flight : state.flight = []
  secrets : state.secrets = []
  inits : ∀ side, state.inits side = []
  acks : ∀ side, state.acks side = []

theorem Network.Strangers.session {state : Network P}
    (strangers : state.Strangers) (side : Side) :
    state.session side = none :=
  (HandleTable.peek_eq_none_iff _ _).mpr (strangers.absent side)

theorem Network.Strangers.tracked {state : Network P}
    (strangers : state.Strangers) : state.Tracked where
  distinct := by
    intro side
    cases side with
    | left => exact strangers.distinct.symm
    | right => exact strangers.distinct
  carries := by
    simp [strangers.flight]
  absent := by
    intro side _
    rw [Network.adopted, strangers.inits, strangers.acks, adopted_eq_none_iff]
    exact ⟨rfl, rfl⟩
  follows := by
    intro side info held
    cases (strangers.session side).symm.trans held
  bounded := by
    simp [strangers.inits]
  answered := by
    simp [strangers.acks]
  apart := by
    simp [strangers.inits]

/-- Every transition keeps the managers in agreement with the history. -/
theorem Network.Tracked.step (kem : P.KemCorrect) {before after : Network P}
    (tracked : before.Tracked) (moved : Transition before after) :
    after.Tracked := by
  cases moved with
  | quiet side manager flight sameNode unadvanced carried =>
    exact tracked.quiet sameNode unadvanced carried
  | init envelope env message log pins flight sent leg decoded admits carried =>
      cases tracked.carries envelope sent with
      | ack => cases leg
      | init receiver info nowMs held =>
        rw [HandshakeMessage.decode_encode] at decoded
        cases decoded
        exact tracked.init kem held env nowMs log pins carried
  | ack envelope number env message pins existing flight sent leg decoded admits
    carried =>
      cases tracked.carries envelope sent with
      | init => cases leg
      | ack receiver _ info mlKemCt nowMs held awaited answers secret =>
        cases leg
        rw [HandshakeMessage.decode_encode] at decoded
        cases decoded
        exact tracked.ack held answers secret admits.pending nowMs pins carried

theorem Network.Strangers.tracked_run (kem : P.KemCorrect)
    {start : Network P} (strangers : start.Strangers)
    (actions : List (NetworkAction P)) :
    (run networkStep start actions).Tracked :=
  invariant_run_of_forall
    (fun state action tracked =>
      Network.Tracked.step kem tracked (transition_networkStep state action))
    strangers.tracked

end Tracking

end Norn.Session
