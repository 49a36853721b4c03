import Mathlib.Data.List.Perm.Basic
import Norn.Session.Convergence
import Norn.Session.Rehandshake

/-!
# Crossing Inits

Both nodes call `initiate` before either has heard of the other, so two Inits
cross on the network.  When the two Inits and the two Acks they cause are
delivered once each, in whatever order, both nodes end up with the same
secret and with each other's X25519 key.

The argument counts messages.  For either receiver one Init is in flight or
has been handled, and every handled Init has its Ack in flight or handled.
With nothing in flight each node has handled one Init and the Ack of the
other one's Init, which is a settled history.
-/

namespace Norn.Session

open Foundation Foundation.Run Network

section Crossing

variable {P : Primitives}

variable {state start : Network P}

/-- Both nodes call `initiate` for each other. -/
def Network.bothInitiate (start : Network P)
    (env : Side → Surroundings P) : Network P :=
  { start with
    node := fun side =>
      ((start.node side).initiate (env side) (start.peerPub side)).2
    flight :=
      [⟨.right, .init, (env .left).nowMs,
          ((start.node .left).initiate (env .left) (start.peerPub .left)).1⟩,
        ⟨.left, .init, (env .right).nowMs,
          ((start.node .right).initiate (env .right)
            (start.peerPub .right)).1⟩] }

/-- The only thing that happens is that prompt messages arrive. -/
def Network.PromptDelivery (state : Network P) : NetworkAction P → Prop
  | .deliver index env =>
    ∀ envelope, state.flight[index]? = some envelope → envelope.Prompt env
  | _ => False

instance (state : Network P) :
    ∀ action, Decidable (state.PromptDelivery action)
  | .deliver index _ =>
    inferInstanceAs
      (Decidable (∀ envelope ∈ state.flight[index]?, clockSkew _ _ ≤ _))
  | .initiate .. | .retransmit .. | .lose _ | .duplicate _ => isFalse id

/-- How many messages of a kind are on their way to a node. -/
def Network.inFlight (state : Network P) (receiver : Side) (leg : Leg) :
    Nat :=
  state.flight.countP fun envelope =>
    envelope.receiver = receiver ∧ envelope.leg = leg

theorem countP_eraseIdx_add {Item : Type*} (test : Item → Bool)
    {items : List Item} {index : Nat} {item : Item}
    (found : items[index]? = some item) :
    (items.eraseIdx index).countP test + (if test item then 1 else 0) =
      items.countP test := by
  rcases List.getElem?_eq_some_iff.mp found with ⟨inside, content⟩
  have regrouped := (List.getElem_cons_eraseIdx_perm inside).countP_eq test
  rw [List.countP_cons, content] at regrouped
  exact regrouped

/--
Two Inits have crossed: every message has been sent once and is either in
flight or handled, and the rate limits have room for the Inits in flight.
-/
structure Network.Crossing (state : Network P) : Prop where
  receptive : state.Receptive fun side => state.inFlight side .init
  inits : ∀ side, state.inFlight side .init + (state.inits side).length = 1
  acks :
    ∀ side number,
      state.inFlight side (.ack number) + (state.acks side).count number =
        (state.inits side.peer).count number

section Step

variable {state : Network P} {index : Nat} {envelope : Envelope}

theorem Network.inFlight_afterInit
    (found : state.flight[index]? = some envelope)
    (leg : envelope.leg = .init) (env : Surroundings P)
    (message : SessionInit) (log : RateLog) (pins : PinTable)
    (receiver : Side) (kind : Leg) :
    (state.afterInit envelope.receiver env message log pins
          (state.flight.eraseIdx index)).inFlight receiver kind +
        (if envelope.receiver = receiver ∧ .init = kind then 1 else 0) =
      state.inFlight receiver kind +
        (if envelope.receiver.peer = receiver ∧
            .ack state.secrets.length = kind then 1 else 0) := by
  have counted :=
    countP_eraseIdx_add
      (fun other : Envelope =>
        decide (other.receiver = receiver ∧ other.leg = kind)) found
  simp only [inFlight, afterInit, List.countP_append,
    List.countP_singleton, ← counted, leg, decide_eq_true_eq]
  exact Nat.add_right_comm _ _ _

theorem Network.inFlight_afterAck (found : state.flight[index]? = some envelope)
    {number : Nat}
    (leg : envelope.leg = .ack number) (message : SessionAck)
    (existing : SessionInfo P) (pins : PinTable) (receiver : Side)
    (kind : Leg) :
    (state.afterAck envelope.receiver message existing pins number
          (state.flight.eraseIdx index)).inFlight receiver kind +
        (if envelope.receiver = receiver ∧ .ack number = kind then 1
          else 0) =
      state.inFlight receiver kind := by
  have counted :=
    countP_eraseIdx_add
      (fun other : Envelope =>
        decide (other.receiver = receiver ∧ other.leg = kind)) found
  simp only [inFlight, afterAck, ← counted, leg, decide_eq_true_eq]

theorem Network.Crossing.deliver_init (signatures : P.SignaturesVerify)
    (kem : P.KemCorrect) (crossing : state.Crossing)
    (found : state.flight[index]? = some envelope)
    (leg : envelope.leg = .init) {env : Surroundings P}
    (prompt : envelope.Prompt env) :
    (networkStep state (.deliver index env)).Crossing := by
  have waiting :=
    countP_eraseIdx_add
      (fun other : Envelope =>
        decide (other.receiver = envelope.receiver ∧ other.leg = .init))
      found
  have once := crossing.inits envelope.receiver
  have last : state.inFlight envelope.receiver .init = 0 + 1 := by
    simp only [leg, and_self, decide_true, if_true] at waiting
    unfold inFlight at once ⊢
    omega
  have handledNone : state.inits envelope.receiver = [] := by
    rw [last] at once
    exact List.length_eq_zero_iff.mp (by omega)
  rcases crossing.receptive.deliver_init signatures kem found leg prompt
    last with
    ⟨message, log, pins, reached, receptive⟩
  have counts := inFlight_afterInit found leg env message log pins
  rw [reached]
  have room :
      (fun side =>
          (state.afterInit envelope.receiver env message log pins
            (state.flight.eraseIdx index)).inFlight side .init) =
        Function.update (fun side => state.inFlight side .init)
          envelope.receiver 0 := by
    funext side
    have count := counts side .init
    rcases side.eq_or_eq_peer envelope.receiver with same | peer
    · subst same
      simp only [Function.update_self]
      simp only [last, and_self, if_true, reduceCtorEq, and_false, if_false]
        at count
      omega
    · subst peer
      simpa using count
  refine ⟨?_, ?_, ?_⟩
  · rw [room]
    exact receptive
  · intro side
    rw [congrFun room side]
    rcases side.eq_or_eq_peer envelope.receiver with same | peer
    · subst same
      simp [afterInit, handledNone]
    · subst peer
      simpa [afterInit, Network.put] using crossing.inits _
  · intro side number
    have count := counts side (.ack number)
    have before := crossing.acks side number
    rcases side.eq_or_eq_peer envelope.receiver with same | peer
    · subst same
      simp only [reduceCtorEq, and_false, if_false, Side.peer_ne, false_and,
        Nat.add_zero] at count
      rw [count]
      simpa [afterInit, Network.put] using before
    · subst peer
      simp only [reduceCtorEq, and_false, if_false, true_and, Nat.add_zero,
        Leg.ack.injEq] at count
      rw [Side.peer_peer] at before ⊢
      rw [count]
      simp only [afterInit, Network.put, Function.update_self, List.count_cons,
        beq_iff_eq]
      omega

theorem Network.Crossing.deliver_ack (signatures : P.SignaturesVerify)
    (kem : P.KemCorrect) (crossing : state.Crossing)
    (found : state.flight[index]? = some envelope) {number : Nat}
    (leg : envelope.leg = .ack number) {env : Surroundings P}
    (prompt : envelope.Prompt env) :
    (networkStep state (.deliver index env)).Crossing := by
  rcases crossing.receptive.deliver_ack signatures kem found leg prompt with
    ⟨message, existing, pins, reached, receptive⟩
  have counts := inFlight_afterAck found leg message existing pins
  rw [reached]
  have room (side : Side) :
      (state.afterAck envelope.receiver message existing pins number
          (state.flight.eraseIdx index)).inFlight side .init =
        state.inFlight side .init := by
    simpa using counts side .init
  refine ⟨?_, ?_, ?_⟩
  · simp only [room]
    exact receptive
  · intro side
    rw [room]
    exact crossing.inits side
  · intro side answered
    have count := counts side (.ack answered)
    have before := crossing.acks side answered
    rcases side.eq_or_eq_peer envelope.receiver with same | peer
    · subst same
      simp only [true_and, Leg.ack.injEq] at count
      simp only [afterAck, Network.put, Function.update_self,
        List.count_cons, beq_iff_eq] at count ⊢
      omega
    · subst peer
      simp only [Side.ne_peer, false_and, if_false, Nat.add_zero] at count
      rw [count]
      simpa [afterAck, Network.put] using before

end Step

/-! ## Every order of delivery -/

/-- Every prompt delivery keeps the crossing of two Inits on course. -/
theorem Network.Crossing.step (signatures : P.SignaturesVerify)
    (kem : P.KemCorrect) (crossing : state.Crossing) {action : NetworkAction P}
    (delivery : state.PromptDelivery action) :
    (networkStep state action).Crossing := by
  cases action with
  | deliver index env =>
    cases found : state.flight[index]? with
    | none =>
      simp only [networkStep, found]
      exact crossing
    | some envelope =>
      have prompt := delivery envelope found
      cases leg : envelope.leg with
      | init =>
        exact crossing.deliver_init signatures kem found leg prompt
      | ack number =>
        exact crossing.deliver_ack signatures kem found leg prompt
  | initiate => cases delivery
  | retransmit => cases delivery
  | lose => cases delivery
  | duplicate => cases delivery

theorem Network.Strangers.absent_right (strangers : start.Strangers)
    (env : Surroundings P) :
    ((networkStep start (.initiate .left env)).node .right).sessions.handle
        ((networkStep start (.initiate .left env)).peerPub .right) =
      none := by
  rw [networkStep_initiate (strangers.absent .left)]
  exact strangers.absent .right

theorem Network.Strangers.bothInitiate_eq (strangers : start.Strangers)
    (env : Side → Surroundings P) :
    start.bothInitiate env =
      networkStep (networkStep start (.initiate .left (env .left)))
        (.initiate .right (env .right)) := by
  rw [networkStep_initiate (strangers.absent_right (env .left)),
    networkStep_initiate (strangers.absent .left)]
  unfold bothInitiate
  rw [strangers.flight]
  congr 1
  funext side
  cases side <;> rfl

theorem Network.Strangers.crossing (kem : P.KemCorrect)
    (strangers : start.Strangers) (receptive : start.Receptive fun _ => 1)
    (env : Side → Surroundings P) :
    (start.bothInitiate env).Crossing := by
  have opened := receptive.initiate kem (strangers.absent .left) (env .left)
  have both :=
    opened.initiate kem (strangers.absent_right (env .left)) (env .right)
  rw [← strangers.bothInitiate_eq] at both
  have sent (side : Side) :
      (start.bothInitiate env).inFlight side .init = 1 := by
    cases side <;> rfl
  refine ⟨?_, ?_, ?_⟩
  · simp only [sent]
    exact both
  · intro side
    rw [sent]
    simp [bothInitiate, strangers.inits]
  · intro side number
    have none : (start.bothInitiate env).inFlight side (.ack number) = 0 := by
      cases side <;> rfl
    rw [none]
    simp [bothInitiate, strangers.inits, strangers.acks]

theorem Network.Crossing.handled (crossing : state.Crossing)
    (arrived : state.flight = []) (side : Side) :
    ∃ number, state.inits side = [number] ∧
      state.acks side.peer = [number] := by
  have empty (receiver : Side) (leg : Leg) :
      state.inFlight receiver leg = 0 := by
    simp [inFlight, arrived]
  have once := crossing.inits side
  rw [empty, Nat.zero_add] at once
  rcases List.length_eq_one_iff.mp once with ⟨number, single⟩
  refine ⟨number, single, ?_⟩
  have answered : (state.acks side.peer).Perm (state.inits side) := by
    rw [List.perm_iff_count]
    intro other
    have balance := crossing.acks side.peer other
    rwa [empty, Nat.zero_add, Side.peer_peer] at balance
  rw [single] at answered
  exact List.perm_singleton.mp answered

theorem Network.Crossing.settled (crossing : state.Crossing)
    (arrived : state.flight = []) :
    state.Settled := by
  rcases crossing.handled arrived state.largerSide with ⟨number, inits, acks⟩
  constructor
  · intro latest found
    rw [inits] at found
    rw [acks]
    exact found
  · intro none
    rw [inits] at none
    cases none

/-- Two nodes hold sessions for each other that match. -/
structure Network.Matched (state : Network P)
    (session : Side → SessionInfo P) : Prop where
  held : ∀ side, state.session side = some (session side)
  established : ∀ side, (session side).established = true
  crossed :
    ∀ side,
      (session side).remoteX25519Pub = (session side.peer).localX25519Pub
  agreed : (session .left).pqShared = (session .right).pqShared

/-- When all has arrived, both sides hold matching sessions. -/
theorem Network.Crossing.matched (crossing : state.Crossing)
    (arrived : state.flight = []) :
    ∃ session, state.Matched session ∧
      ∀ side, state.Follows side (session side) := by
  have tracked := crossing.receptive.tracked
  have chosen (side : Side) : (state.adopted side).isSome = true := by
    rcases crossing.handled arrived side with ⟨number, inits, _⟩
    rw [Option.isSome_iff_ne_none, ne_eq, Network.adopted, adopted_eq_none_iff,
      inits]
    rintro ⟨empty, _⟩
    cases empty
  have present (side : Side) : ∃ info, state.session side = some info := by
    cases found : state.session side with
    | none =>
      have missing := chosen side
      rw [tracked.absent side found] at missing
      cases missing
    | some info => exact ⟨info, rfl⟩
  choose session held using present
  have follows (side : Side) := tracked.follows side _ (held side)
  have established (side : Side) : (session side).established = true := by
    rw [(follows side).established]
    exact chosen side
  refine ⟨session, ⟨held, established, ?_, ?_⟩, follows⟩
  · intro side
    rcases (follows side).remote (established side) with ⟨other, found, same⟩
    rw [held] at found
    cases found
    exact same
  · have same := tracked.adopted_eq_iff.mpr (crossing.settled arrived)
    rw [(follows .left).pqShared, (follows .right).pqShared, Network.shared,
      Network.shared, same]

/--
Both nodes initiate before hearing of each other.  Once the two Inits and the
two Acks have arrived, in any order, both sessions are established with the
same secret and each other's keys, and the next packet of either node
decrypts at the other.
-/
theorem crossing_inits_converge (signatures : P.SignaturesVerify)
    (kem : P.KemCorrect) (commutes : P.DhCommutes)
    (fixed : P.DhFixed) (correct : P.AeadCorrect)
    (seals : P.AeadSealsShort) {start : Network P}
    (strangers : start.Strangers)
    (receptive : start.Receptive fun _ => 1)
    (env : Side → Surroundings P)
    {deliveries : List (NetworkAction P)}
    (prompt :
      Along networkStep Network.PromptDelivery (start.bothInitiate env)
        deliveries)
    (arrived :
      (run networkStep (start.bothInitiate env) deliveries).flight = []) :
    (∃ session,
        (run networkStep (start.bothInitiate env) deliveries).Matched session) ∧
      ∀ side sentAt receivedAt plaintext,
        plaintext.length < 2 ^ 32 →
          Delivers
            ((run networkStep (start.bothInitiate env) deliveries).node side)
            ((run networkStep (start.bothInitiate env) deliveries).node
              side.peer)
            sentAt receivedAt plaintext := by
  have crossing :
      (run networkStep (start.bothInitiate env) deliveries).Crossing :=
    invariant_run
      (fun _ _ crossing delivery => crossing.step signatures kem delivery)
      (strangers.crossing kem receptive env) prompt
  rcases crossing.matched arrived with ⟨session, matched, follows⟩
  refine ⟨⟨session, matched⟩, ?_⟩
  intro side sentAt receivedAt plaintext short
  have incoming := matched.held side.peer
  rw [Network.session, peerPub, Side.peer_peer] at incoming
  rw [delivers_iff (matched.held side) incoming
    (matched.established side) (matched.established side.peer)]
  refine exists_delivered commutes fixed correct seals
    (matched.crossed side) ?_ ?_ sentAt receivedAt short
  · cases side with
    | left => exact matched.agreed
    | right => exact matched.agreed.symm
  · rw [(follows side.peer).unused.2.1, (follows side.peer).unused.2.2]
    exact checkReplay_fresh _

end Crossing

/-- The surroundings in which two sample nodes initiate. -/
def sampleStart : Side → Surroundings Primitives.transparent
  | .left => sampleSurroundings 10 11
  | .right => sampleSurroundings 20 21

/-- The four messages of a crossing arrive in the order they were sent. -/
def sampleDeliveries : List (NetworkAction Primitives.transparent) :=
  [.deliver 0 (sampleSurroundings 30 31), .deliver 0 (sampleSurroundings 40 41),
    .deliver 0 (sampleSurroundings 50 51),
    .deliver 0 (sampleSurroundings 60 61)]

theorem sampleDeliveries_arrive :
    Along networkStep Network.PromptDelivery
        ((sampleNetwork 1 2).bothInitiate sampleStart) sampleDeliveries ∧
      (run networkStep ((sampleNetwork 1 2).bothInitiate sampleStart)
        sampleDeliveries).flight = [] := by
  decide +kernel

/-- Two sample nodes talk to each other after their Inits have crossed. -/
theorem crossing_inits_converge_sample :
    (∃ session,
        (run networkStep ((sampleNetwork 1 2).bothInitiate sampleStart)
          sampleDeliveries).Matched session) ∧
      Delivers
        ((run networkStep ((sampleNetwork 1 2).bothInitiate sampleStart)
          sampleDeliveries).node .left)
        ((run networkStep ((sampleNetwork 1 2).bothInitiate sampleStart)
          sampleDeliveries).node Side.left.peer)
        7 8 [1, 2, 3] := by
  rcases sampleDeliveries_arrive with ⟨prompt, arrived⟩
  have converged :=
    crossing_inits_converge Primitives.transparent_signaturesVerify
      Primitives.transparent_kemCorrect
      Primitives.transparent_dhCommutes
      Primitives.transparent_dhFixed
      Primitives.transparent_aeadCorrect
      Primitives.transparent_aeadSealsShort sampleNetwork_strangers
      (sampleNetwork_receptive fun _ => show 1 ≤ 4 by omega)
      sampleStart prompt arrived
  refine ⟨converged.1, converged.2 .left 7 8 [1, 2, 3] ?_⟩
  decide

end Norn.Session
