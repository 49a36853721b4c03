import Norn.Session.Network

/-!
# Which secret a node adopts

The node with the larger identity follows the Inits it handles, the other one
follows the Acks it handles; each falls back to the first message of the
other kind.  `adopted` states this rule on the history of the network alone.

`Tracked` connects the history to the managers and to the messages in flight:
the secret a session holds is the one its history adopts, and every message
in flight was built by an honest node for a session it still holds.
-/

namespace Norn.Session

open Foundation Foundation.Run

/--
The encapsulation a node adopts, given the Inits and Acks it has handled,
latest first.
-/
def adopted (larger : Bool) (inits acks : List Nat) : Option Nat :=
  if larger then inits.head?.or acks.getLast?
  else acks.head?.or inits.getLast?

theorem adopted_eq_none_iff (larger : Bool) (inits acks : List Nat) :
    adopted larger inits acks = none ↔ inits = [] ∧ acks = [] := by
  cases larger <;> simp [adopted, and_comm]

theorem mem_of_adopted {larger : Bool} {inits acks : List Nat}
    {number : Nat} (adopts : adopted larger inits acks = some number) :
    number ∈ inits ∨ number ∈ acks := by
  cases larger with
  | true =>
    simp only [adopted, if_true, Option.or_eq_some_iff] at adopts
    rcases adopts with first | ⟨_, last⟩
    · exact Or.inl (List.mem_of_mem_head? first)
    · exact Or.inr (List.mem_of_mem_getLast? last)
  | false =>
    simp only [adopted, Bool.false_eq_true, if_false, Option.or_eq_some_iff]
      at adopts
    rcases adopts with first | ⟨_, last⟩
    · exact Or.inr (List.mem_of_mem_head? first)
    · exact Or.inl (List.mem_of_mem_getLast? last)

theorem adopted_cons_inits (larger : Bool) (number : Nat)
    (inits acks : List Nat) :
    adopted larger (number :: inits) acks =
      if (adopted larger inits acks).isNone || larger then some number
      else adopted larger inits acks := by
  cases larger with
  | true => simp [adopted]
  | false =>
    cases acks with
    | cons ack earlier => simp [adopted]
    | nil =>
      cases inits with
      | nil => rfl
      | cons init earlier => simp [adopted, List.getLast?_cons_cons]

theorem adopted_cons_acks (larger : Bool) (number : Nat)
    (inits acks : List Nat) :
    adopted larger inits (number :: acks) =
      if (adopted larger inits acks).isNone || !larger then some number
      else adopted larger inits acks := by
  cases larger with
  | false => simp [adopted]
  | true =>
    cases inits with
    | cons init earlier => simp [adopted]
    | nil =>
      cases acks with
      | nil => rfl
      | cons ack earlier => simp [adopted, List.getLast?_cons_cons]

/--
The last message the two nodes act on is the same encapsulation: the latest
Ack of the smaller node answers the latest Init of the larger one or, when
the larger one has handled no Init, its first Ack answers the first Init of
the smaller one.
-/
structure Settled (largerInits largerAcks smallerInits smallerAcks : List Nat) :
    Prop where
  latest :
    ∀ number, largerInits.head? = some number → smallerAcks.head? = some number
  first : largerInits = [] → largerAcks.getLast? = smallerInits.getLast?

/-- Both histories adopt one encapsulation exactly when they are settled. -/
theorem adopted_eq_iff
    {largerInits largerAcks smallerInits smallerAcks : List Nat}
    (answered : smallerAcks ⊆ largerInits)
    (apart : ∀ number ∈ largerInits, number ∉ smallerInits) :
    adopted true largerInits largerAcks =
        adopted false smallerInits smallerAcks ↔
      Settled largerInits largerAcks smallerInits smallerAcks := by
  cases largerInits with
  | nil =>
    have none : smallerAcks = [] := List.subset_nil.mp answered
    subst none
    constructor
    · intro same
      refine ⟨?_, fun _ => same⟩
      intro number found
      cases found
    · intro settled
      exact settled.first rfl
  | cons init earlier =>
    constructor
    · intro same
      refine ⟨?_, ?_⟩
      · intro number found
        cases found
        cases smallerAcks with
        | cons ack older => exact same.symm
        | nil =>
          exact absurd (List.mem_of_mem_getLast? same.symm)
            (apart init List.mem_cons_self)
      · intro empty
        cases empty
    · intro settled
      have answer := settled.latest init rfl
      simp [adopted, answer]

section History

variable {P : Primitives}

variable {before after : Network P} {side : Side} {manager : SessionManager P}
  {info : SessionInfo P}

/-! ## What never changes -/

/-- The node has the larger identity of the two. -/
def Network.larger (state : Network P) (side : Side) : Bool :=
  decide (state.peerPub side < (state.node side).ourPub)

/-- The encapsulation a node's history adopts. -/
def Network.adopted (state : Network P) (side : Side) : Option Nat :=
  Session.adopted (state.larger side) (state.inits side) (state.acks side)

/--
What every later state keeps: the nodes' long-term data, the local keys of
their sessions, and the history so far.
-/
structure Extends (before after : Network P) : Prop where
  sameNode : ∀ side, SameNode (before.node side) (after.node side)
  localKey :
    ∀ side info, before.session side = some info →
      ∃ later, after.session side = some later ∧
        later.localX25519Pub = info.localX25519Pub
  secrets : before.secrets <+: after.secrets
  inits : ∀ side, before.inits side ⊆ after.inits side

theorem Extends.peerPub (grows : Extends before after) (side : Side) :
    after.peerPub side = before.peerPub side :=
  (grows.sameNode side.peer).ourPub

theorem Extends.larger (grows : Extends before after) (side : Side) :
    after.larger side = before.larger side := by
  unfold Network.larger
  rw [grows.peerPub, (grows.sameNode side).ourPub]

theorem Extends.secret (grows : Extends before after) {number : Nat}
    {secret : Bytes 32} (drawn : before.secrets[number]? = some secret) :
    after.secrets[number]? = some secret := by
  rcases grows.secrets with ⟨rest, whole⟩
  have inside := (List.getElem?_eq_some_iff.mp drawn).1
  rw [← whole, List.getElem?_append_left inside]
  exact drawn

theorem Network.session_put_self (state : Network P) (side : Side)
    (manager : SessionManager P) :
    (state.put side manager).session side =
      manager.sessions.peek (state.peerPub side) := by
  simp [Network.session, Network.put, Network.peerPub]

theorem Network.session_put_peer (state : Network P)
    (sameNode : SameNode (state.node side) manager) :
    (state.put side manager).session side.peer = state.session side.peer := by
  simp [Network.session, Network.put, Network.peerPub, sameNode.ourPub]

theorem Network.sameNode_put (state : Network P)
    (sameNode : SameNode (state.node side) manager) (other : Side) :
    SameNode (state.node other) ((state.put side manager).node other) := by
  rcases other.eq_or_eq_peer side with same | peer
  · subst same
    simpa [Network.put] using sameNode
  · subst peer
    simpa [Network.put] using SameNode.refl _

theorem Extends.of_put (node : after.node = (before.put side manager).node)
    (sameNode : SameNode (before.node side) manager)
    (localKey :
      ∀ info, before.session side = some info →
        ∃ later,
          manager.sessions.peek (before.peerPub side) = some later ∧
            later.localX25519Pub = info.localX25519Pub)
    (secrets : before.secrets <+: after.secrets)
    (inits : ∀ side, before.inits side ⊆ after.inits side) :
    Extends before after := by
  have sessions (other : Side) :
      after.session other = (before.put side manager).session other := by
    simp only [Network.session, Network.peerPub, node]
  refine ⟨?_, ?_, secrets, inits⟩
  · intro other
    rw [node]
    exact before.sameNode_put sameNode other
  · intro other info held
    rw [sessions]
    rcases other.eq_or_eq_peer side with same | peer
    · subst same
      rw [Network.session_put_self]
      exact localKey info held
    · subst peer
      rw [Network.session_put_peer _ sameNode]
      exact ⟨info, held, rfl⟩

/-- The Init one node sends to the other. -/
def Network.initTo (state : Network P) (receiver : Side)
    (info : SessionInfo P) (nowMs : UInt64) : SessionInit :=
  (state.node receiver.peer).initFor (state.node receiver).ourPub
    info.localX25519Pub nowMs

/-- The Ack one node sends to the other. -/
def Network.ackTo (state : Network P) (receiver : Side)
    (info : SessionInfo P) (mlKemCt : Bytes mlKemCtBytes)
    (nowMs : UInt64) : SessionAck :=
  .create (state.node receiver.peer).ourSigningKey info.localX25519Pub
    (state.node receiver).ourPub mlKemCt
    (state.node receiver.peer).ownCoord
    (state.node receiver.peer).pqSigner nowMs

/--
A message in flight is one its sender has built, for the session the sender
still holds; an Ack carries the encapsulation it is numbered with.
-/
inductive Network.Carries (state : Network P) : Envelope → Prop where
  | init (receiver : Side) (info : SessionInfo P) (nowMs : UInt64)
      (held : state.session receiver.peer = some info) :
      Network.Carries state
        ⟨receiver, .init, nowMs, (state.initTo receiver info nowMs).encode⟩
  | ack (receiver : Side) (number : Nat) (info : SessionInfo P)
      (mlKemCt : Bytes mlKemCtBytes) (nowMs : UInt64)
      (held : state.session receiver.peer = some info)
      (awaited : ∃ own, state.session receiver = some own)
      (answers : number ∈ state.inits receiver.peer)
      (secret :
        state.secrets[number]? =
          some ((state.node receiver).pqKeys.decap mlKemCt)) :
      Network.Carries state
        ⟨receiver, .ack number, nowMs,
          (state.ackTo receiver info mlKemCt nowMs).encode⟩

theorem Extends.initTo (grows : Extends before after) (receiver : Side)
    {later : SessionInfo P}
    (sameKey : later.localX25519Pub = info.localX25519Pub) (nowMs : UInt64) :
    after.initTo receiver later nowMs =
      before.initTo receiver info nowMs := by
  unfold Network.initTo
  rw [sameKey, (grows.sameNode receiver).ourPub,
    (grows.sameNode receiver.peer).initFor]

theorem Extends.ackTo (grows : Extends before after) (receiver : Side)
    {later : SessionInfo P}
    (sameKey : later.localX25519Pub = info.localX25519Pub)
    (mlKemCt : Bytes mlKemCtBytes) (nowMs : UInt64) :
    after.ackTo receiver later mlKemCt nowMs =
      before.ackTo receiver info mlKemCt nowMs := by
  have sender := grows.sameNode receiver.peer
  unfold Network.ackTo
  rw [sameKey, (grows.sameNode receiver).ourPub, sender.ourSigningKey,
    sender.ownCoord, sender.pqSigner]

theorem Network.Carries.mono (grows : Extends before after)
    {envelope : Envelope} (carries : before.Carries envelope) :
    after.Carries envelope := by
  cases carries with
  | init receiver info nowMs held =>
    rcases grows.localKey _ _ held with ⟨later, kept, sameKey⟩
    rw [← grows.initTo receiver sameKey nowMs]
    exact .init receiver later nowMs kept
  | ack receiver number info mlKemCt nowMs held awaited answers secret =>
      rcases grows.localKey _ _ held with ⟨later, kept, sameKey⟩
      rcases awaited with ⟨own, waiting⟩
      rcases grows.localKey _ _ waiting with ⟨still, waits, _⟩
      rw [← grows.ackTo receiver sameKey mlKemCt nowMs]
      refine .ack receiver number later mlKemCt nowMs kept ⟨still, waits⟩
        (grows.inits _ answers) ?_
      rw [(grows.sameNode receiver).pqKeys]
      exact grows.secret secret

/-! ## Sessions follow the history -/

/-- The secret a node's history adopts. -/
def Network.shared (state : Network P) (side : Side) : Option (Bytes 32) :=
  (state.adopted side).bind fun number => state.secrets[number]?

/-- A session holds what the history of its node adopts. -/
structure Network.Follows (state : Network P) (side : Side)
    (info : SessionInfo P) : Prop where
  pqShared : info.pqShared = state.shared side
  established : info.established = (state.adopted side).isSome
  remote :
    info.established = true →
      ∃ other, state.session side.peer = some other ∧
        info.remoteX25519Pub = other.localX25519Pub
  unused :
    info.localSeq = 0 ∧ info.remoteSeqHigh = 0 ∧ info.remoteSeqWindow = 0

/-- The managers and the messages in flight agree with the history. -/
structure Network.Tracked (state : Network P) : Prop where
  distinct : ∀ side, state.peerPub side ≠ (state.node side).ourPub
  carries : ∀ envelope ∈ state.flight, state.Carries envelope
  absent : ∀ side, state.session side = none → state.adopted side = none
  follows :
    ∀ side info, state.session side = some info → state.Follows side info
  bounded : ∀ side, ∀ number ∈ state.inits side, number < state.secrets.length
  answered : ∀ side, state.acks side ⊆ state.inits side.peer
  apart : ∀ side, ∀ number ∈ state.inits side, number ∉ state.inits side.peer

theorem Network.Tracked.adopted_lt {state : Network P} (tracked : state.Tracked)
    {number : Nat} (adopts : state.adopted side = some number) :
    number < state.secrets.length := by
  rcases mem_of_adopted adopts with init | ack
  · exact tracked.bounded side number init
  · exact tracked.bounded _ number (tracked.answered side ack)

theorem Extends.adopted {before after : Network P}
    (grows : Extends before after) {side : Side}
    (inits : after.inits side = before.inits side)
    (acks : after.acks side = before.acks side) :
    after.adopted side = before.adopted side := by
  unfold Network.adopted
  rw [grows.larger, inits, acks]

theorem Network.Tracked.shared_of_adopted (tracked : before.Tracked)
    (grows : Extends before after)
    (same : after.adopted side = before.adopted side) :
    after.shared side = before.shared side := by
  unfold Network.shared
  rw [same]
  cases adopts : before.adopted side with
  | none => rfl
  | some number =>
    have drawn := List.getElem?_eq_getElem (tracked.adopted_lt adopts)
    simp only [Option.bind_some]
    rw [drawn, grows.secret drawn]

theorem Network.Tracked.isNone_shared {state : Network P}
    (tracked : state.Tracked) (side : Side) :
    (state.shared side).isNone = (state.adopted side).isNone := by
  unfold Network.shared
  cases adopts : state.adopted side with
  | none => rfl
  | some number =>
    have drawn := List.getElem?_eq_getElem (tracked.adopted_lt adopts)
    simp only [Option.bind_some, drawn, Option.isNone_some]

theorem Extends.remote (grows : Extends before after) {remote : Bytes 32}
    (known :
      ∃ other, before.session side = some other ∧
        remote = other.localX25519Pub) :
    ∃ other, after.session side = some other ∧
      remote = other.localX25519Pub := by
  rcases known with ⟨other, held, same⟩
  rcases grows.localKey side other held with ⟨later, kept, sameKey⟩
  exact ⟨later, kept, same.trans sameKey.symm⟩

theorem Network.Tracked.follows_of_untouched (tracked : before.Tracked)
    (grows : Extends before after) (held : before.session side = some info)
    (inits : after.inits side = before.inits side)
    (acks : after.acks side = before.acks side) :
    after.Follows side info := by
  have follows := tracked.follows side info held
  have same := grows.adopted inits acks
  refine ⟨?_, ?_, ?_, follows.unused⟩
  · rw [follows.pqShared, tracked.shared_of_adopted grows same]
  · rw [follows.established, same]
  · intro established
    exact grows.remote (follows.remote established)

/-- A step of one side keeps the nodes tracked if that side still follows. -/
theorem Network.Tracked.extend (tracked : before.Tracked)
    (grows : Extends before after) (side : Side)
    (carried :
      ∀ envelope ∈ after.flight, envelope ∈ before.flight ∨
        after.Carries envelope)
    (peerSession : after.session side.peer = before.session side.peer)
    (peerInits : after.inits side.peer = before.inits side.peer)
    (peerAcks : after.acks side.peer = before.acks side.peer)
    (absent : after.session side = none → after.adopted side = none)
    (follows : ∀ info, after.session side = some info → after.Follows side info)
    (inits :
      ∀ number ∈ after.inits side,
        number ∈ before.inits side ∨
          number = before.secrets.length ∧ number < after.secrets.length)
    (acks : after.acks side ⊆ before.inits side.peer) :
    after.Tracked := by
  have longer := grows.secrets.length_le
  have apart :
      ∀ number ∈ after.inits side, number ∉ before.inits side.peer := by
    intro number member
    rcases inits number member with older | ⟨newest, _⟩
    · exact tracked.apart side number older
    · intro other
      have inside := tracked.bounded _ number other
      omega
  constructor
  · intro other
    rw [grows.peerPub, (grows.sameNode other).ourPub]
    exact tracked.distinct other
  · intro envelope member
    rcases carried envelope member with older | newer
    · exact (tracked.carries envelope older).mono grows
    · exact newer
  · intro other missing
    rcases other.eq_or_eq_peer side with same | peer
    · subst same
      exact absent missing
    · subst peer
      rw [grows.adopted peerInits peerAcks]
      exact tracked.absent _ (peerSession.symm.trans missing)
  · intro other info held
    rcases other.eq_or_eq_peer side with same | peer
    · subst same
      exact follows info held
    · subst peer
      exact tracked.follows_of_untouched grows (peerSession.symm.trans held)
        peerInits peerAcks
  · intro other number member
    rcases other.eq_or_eq_peer side with same | peer
    · subst same
      rcases inits number member with older | ⟨_, inside⟩
      · exact lt_of_lt_of_le (tracked.bounded _ _ older) longer
      · exact inside
    · subst peer
      rw [peerInits] at member
      exact lt_of_lt_of_le (tracked.bounded _ _ member) longer
  · intro other
    rcases other.eq_or_eq_peer side with same | peer
    · subst same
      rw [peerInits]
      exact acks
    · subst peer
      rw [peerAcks]
      intro number member
      exact grows.inits _ (tracked.answered side.peer member)
  · intro other number member
    rcases other.eq_or_eq_peer side with same | peer
    · subst same
      rw [peerInits]
      exact apart number member
    · subst peer
      rw [peerInits] at member
      rw [Side.peer_peer]
      intro own
      exact apart number own member

end History

end Norn.Session
