import Mathlib.Logic.Function.Basic
import Norn.Session.ReplayWindow
import Norn.Session.Rotation

/-!
# Two endpoints of one session

The two `SessionInfo` values of an established session, run against each
other: either side encrypts, any packet ever sent is delivered to either side
any number of times and in any order, and either side rotates its X25519 key.

The machine keeps two histories besides the sessions: every packet that
`encrypt` returned, with the key and nonce it was sealed under, and the
sequence numbers each side has accepted.
-/

namespace Norn.Session

open Foundation Foundation.Run Foundation.SlidingWindow SessionInfo

/-- The two ends of a session. -/
inductive Side where
  | left
  | right
  deriving DecidableEq, Repr

/-- The other end. -/
def Side.peer : Side → Side
  | .left => .right
  | .right => .left

@[simp]
theorem Side.peer_peer (side : Side) : side.peer.peer = side := by
  cases side <;> rfl

@[simp]
theorem Side.peer_ne (side : Side) : side.peer ≠ side := by
  cases side <;> simp [Side.peer]

@[simp]
theorem Side.ne_peer (side : Side) :
    side ≠ side.peer := (Side.peer_ne side).symm

theorem Side.eq_or_eq_peer (one other : Side) :
    one = other ∨ one = other.peer := by
  cases one <;> cases other <;> simp [Side.peer]

/-- A packet returned by `encrypt`, with what it was sealed under. -/
structure SentPacket where
  sender : Side
  senderXPub : Bytes 32
  remoteXPub : Bytes 32
  seq : UInt64
  key : Bytes 32
  nonce : Bytes 12
  plaintext : List UInt8
  wire : List UInt8
  deriving DecidableEq

/-- The state of both ends and what has happened so far. -/
structure Endpoints (P : Primitives) where
  session : Side → SessionInfo P
  sent : List SentPacket
  accepted : Side → List Nat

/--
What can happen: an encryption, the delivery of the packet with a given
position in the history, a call of `rotate_local_key`, or a rotation tick.
-/
inductive EndpointAction (P : Primitives) where
  | encrypt (side : Side) (now : Instant) (plaintext : List UInt8)
  | deliver (side : Side) (now : Instant) (index : Nat)
  | rotate (side : Side) (newPriv : P.StaticSecret)
  | tick (side : Side) (newPriv : P.StaticSecret)

section Machine

variable {P : Primitives}

/-- The history entry of an encryption made in a given session state. -/
def SentPacket.record (side : Side) (session : SessionInfo P)
    (plaintext wire : List UInt8) : SentPacket where
  sender := side
  senderXPub := session.localX25519Pub
  remoteXPub := session.remoteX25519Pub
  seq := session.localSeq
  key :=
    derivePacketKey P (session.dhShared session.remoteX25519Pub).1
      session.pqShared
  nonce := packetNonce session.localSeq
  plaintext := plaintext
  wire := wire

/-- Replace the session of one side. -/
def Endpoints.put (state : Endpoints P) (side : Side)
    (session : SessionInfo P) : Endpoints P :=
  { state with session := Function.update state.session side session }

/-- One step of the interleaving. -/
def endpointStep (state : Endpoints P) : EndpointAction P → Endpoints P
  | .encrypt side now plaintext =>
    let session := state.session side
    match session.encrypt now plaintext with
    | (.ok wire, next) =>
      { state.put side next with
        sent := state.sent ++ [.record side session plaintext wire] }
    | (.error _, next) => state.put side next
  | .deliver side now index =>
    match state.sent[index]? with
    | none => state
    | some packet =>
      match (state.session side).decrypt now packet.wire with
      | (.ok _, next) =>
        { state.put side next with
          accepted :=
            Function.update state.accepted side
              (packet.seq.toNat :: state.accepted side) }
      | (.error _, next) => state.put side next
  | .rotate side newPriv =>
    state.put side ((state.session side).rotateLocalKey newPriv)
  | .tick side newPriv =>
    state.put side ((state.session side).rotateIfDue newPriv)

theorem Endpoints.put_self (state : Endpoints P) (side : Side) :
    state.put side (state.session side) = state := by
  simp [Endpoints.put]

/-- The key an action draws. -/
def EndpointAction.newKey : EndpointAction P → Option P.StaticSecret
  | .encrypt _ _ _ => none
  | .deliver _ _ _ => none
  | .rotate _ newPriv => some newPriv
  | .tick _ newPriv => some newPriv

theorem Endpoints.forall_put {state : Endpoints P}
    (good : Side → SessionInfo P → Prop)
    (others : ∀ side, good side (state.session side)) {side : Side}
    {session : SessionInfo P} (kept : good side session) (other : Side) :
    good other ((state.put side session).session other) :=
  (Function.forall_update_iff state.session good).mpr
    ⟨kept, fun other _ => others other⟩ other

/-- What a step can do, with what is known when it does it. -/
inductive EndpointMove (state : Endpoints P) :
    EndpointAction P → Endpoints P → Prop where
  | cached {action : EndpointAction P} (side : Side)
      (cache : Option (CachedDh P)) :
      EndpointMove state action
        (state.put side { state.session side with cachedDh := cache })
  | encrypted (side : Side) (now : Instant) {plaintext rawCt : List UInt8}
      (cache : Option (CachedDh P))
      (wrapped :
        P.aeadSeal (state.session side).packetKey
          (packetNonce (state.session side).localSeq)
          (state.session side).localX25519Pub plaintext = some rawCt) :
      EndpointMove state (.encrypt side now plaintext)
        { state.put side
            { state.session side with
              cachedDh := cache
              localSeq := (state.session side).localSeq + 1
              lastUsed := now } with
          sent := state.sent ++
            [.record side (state.session side) plaintext
              (packetBytes (state.session side).localX25519Pub
                (state.session side).localSeq rawCt)] }
  | accepted (side : Side) {now : Instant} (index : Nat) {packet : SentPacket}
      {buf : List UInt8} {fields : SessionInfo.Packet}
      {pqShared : Option (Bytes 32)} {high window : UInt64}
      (sent : packet ∈ state.sent)
      (accepts :
        (state.session side).Accepts now packet.wire buf fields pqShared
          high window) :
      EndpointMove state (.deliver side now index)
        { state.put side ((state.session side).decrypt now packet.wire).2 with
          accepted :=
            Function.update state.accepted side
              (packet.seq.toNat :: state.accepted side) }
  | rotated {action : EndpointAction P} (side : Side) {newPriv : P.StaticSecret}
      (draws : action.newKey = some newPriv) :
      EndpointMove state action
        (state.put side ((state.session side).rotateLocalKey newPriv))

theorem endpointMove_unchanged (state : Endpoints P) (side : Side)
    (action : EndpointAction P) : EndpointMove state action state := by
  have move : EndpointMove state action (state.put side (state.session side)) :=
    .cached side (state.session side).cachedDh
  rwa [state.put_self] at move

/-- Every step is one of the moves. -/
theorem endpointMove_endpointStep (fixed : P.DhFixed) (state : Endpoints P)
    (action : EndpointAction P) :
    EndpointMove state action (endpointStep state action) := by
  cases action with
  | encrypt side now plaintext =>
    cases outcome :
        P.aeadSeal (state.session side).packetKey
          (packetNonce (state.session side).localSeq)
          (state.session side).localX25519Pub plaintext with
    | none =>
      obtain ⟨cache, refused⟩ :=
        encrypt_of_refused fixed (state.session side) now outcome
      simp only [endpointStep, refused]
      exact .cached side cache
    | some rawCt =>
      obtain ⟨cache, encrypted⟩ :=
        encrypt_of_sealed fixed (state.session side) now outcome
      simp only [endpointStep, encrypted]
      exact .encrypted side now cache outcome
  | deliver side now index =>
    simp only [endpointStep]
    cases found : state.sent[index]? with
    | none => exact endpointMove_unchanged state side _
    | some packet =>
      rcases (state.session side).decrypt_cases now packet.wire with
        ⟨failure, cache, refused, _⟩ |
          ⟨buf, fields, pqShared, high, window, accepts⟩
      · simp only [refused]
        exact .cached side cache
      · have move :=
          EndpointMove.accepted side index (List.mem_of_getElem? found) accepts
        obtain ⟨cache, result⟩ := accepts.result
        simp only [result] at move ⊢
        exact move
  | rotate side newPriv => exact .rotated side rfl
  | tick side newPriv =>
    simp only [endpointStep]
    rcases (state.session side).rotateIfDue_cases newPriv with same | rotated
    · rw [same, state.put_self]
      exact endpointMove_unchanged state side _
    · rw [rotated]
      exact .rotated side rfl

end Machine

/-! ## Keys and secrets in use -/

section Provenance

variable {P : Primitives}

/--
Among the given X25519 keys and post-quantum secrets, equal packet keys come
from the same secret and the same two X25519 keys.
-/
def PacketKeysSeparate (P : Primitives) (keys : List P.StaticSecret)
    (salts : List (Option (Bytes 32))) : Prop :=
  ∀ own ∈ keys, ∀ remote ∈ keys, ∀ salt ∈ salts,
    ∀ otherOwn ∈ keys, ∀ otherRemote ∈ keys, ∀ otherSalt ∈ salts,
      derivePacketKey P (P.diffieHellman own (P.x25519Public remote)) salt =
        derivePacketKey P
          (P.diffieHellman otherOwn (P.x25519Public otherRemote))
          otherSalt →
        salt = otherSalt ∧
          (own = otherOwn ∧ remote = otherRemote ∨
            own = otherRemote ∧ remote = otherOwn)

/-- A sent packet was sealed between two keys and under one secret. -/
structure SealedUnder (P : Primitives) (packet : SentPacket)
    (own remote : P.StaticSecret) (salt : Option (Bytes 32)) : Prop where
  sender : packet.senderXPub = P.x25519Public own
  receiver : packet.remoteXPub = P.x25519Public remote
  key :
    packet.key =
      derivePacketKey P (P.diffieHellman own (P.x25519Public remote)) salt
  nonce : packet.nonce = packetNonce packet.seq
  body :
    ∃ rawCt,
      packet.wire = packetBytes packet.senderXPub packet.seq rawCt ∧
        P.aeadSeal packet.key packet.nonce packet.senderXPub
          packet.plaintext = some rawCt

/-- All X25519 keys of a run: the initial ones and those drawn in it. -/
def drawnKeys (start : Endpoints P) (actions : List (EndpointAction P)) :
    List P.StaticSecret :=
  (start.session .left).localX25519Priv ::
    (start.session .right).localX25519Priv ::
      actions.filterMap EndpointAction.newKey

/-- The post-quantum secrets two endpoints hold. -/
def heldSecrets (start : Endpoints P) : List (Option (Bytes 32)) :=
  [(start.session .left).pqShared, (start.session .right).pqShared] ++
    ((start.session .left).pqSharedFallback.toList ++
      (start.session .right).pqSharedFallback.toList).map some

/-- The new key of an action, if it draws one, is among the given ones. -/
def EndpointAction.DrawsFrom (keys : List P.StaticSecret)
    (action : EndpointAction P) : Prop :=
  ∀ key, action.newKey = some key → key ∈ keys

theorem drawsFrom_drawnKeys (start : Endpoints P)
    {actions : List (EndpointAction P)} {action : EndpointAction P}
    (member : action ∈ actions) :
    action.DrawsFrom (drawnKeys start actions) := by
  intro key drawn
  have listed : key ∈ actions.filterMap EndpointAction.newKey :=
    List.mem_filterMap.mpr ⟨action, member, drawn⟩
  simp [drawnKeys, listed]

theorem pqShared_mem_heldSecrets (start : Endpoints P) (side : Side) :
    (start.session side).pqShared ∈ heldSecrets start := by
  cases side <;> simp [heldSecrets]

theorem fallback_mem_heldSecrets (start : Endpoints P) {side : Side}
    {secret : Bytes 32}
    (held : (start.session side).pqSharedFallback = some secret) :
    some secret ∈ heldSecrets start := by
  cases side <;> simp [heldSecrets, held]

/--
Two endpoints that have completed one handshake: both established, with the
same post-quantum secret, each holding the other's X25519 public key.
-/
structure Endpoints.Paired (state : Endpoints P) : Prop where
  established : ∀ side, (state.session side).established = true
  secret : ∃ shared, ∀ side, (state.session side).pqShared = some shared
  crossed :
    ∀ side, (state.session side).remoteX25519Pub =
      (state.session side.peer).localX25519Pub
  unsent : state.sent = []

/-- Every X25519 key in use, and every packet sent, comes from `keys`. -/
structure KeysDrawn (keys : List P.StaticSecret)
    (salts : List (Option (Bytes 32))) (state : Endpoints P) : Prop where
  localDrawn : ∀ side, (state.session side).localX25519Priv ∈ keys
  remoteDrawn :
    ∀ side, ∃ secret ∈ keys,
      (state.session side).remoteX25519Pub = P.x25519Public secret
  sentDrawn :
    ∀ packet ∈ state.sent,
      ∃ own ∈ keys, ∃ remote ∈ keys, ∃ salt ∈ salts,
        SealedUnder P packet own remote salt

variable {keys : List P.StaticSecret} {salts : List (Option (Bytes 32))}
  {state : Endpoints P}

theorem KeysDrawn.put (drawn : KeysDrawn keys salts state) (side : Side)
    {session : SessionInfo P}
    (localDrawn : session.localX25519Priv ∈ keys)
    (remoteDrawn :
      ∃ secret ∈ keys, session.remoteX25519Pub = P.x25519Public secret) :
    KeysDrawn keys salts (state.put side session) where
  localDrawn :=
    Endpoints.forall_put (fun _ current => current.localX25519Priv ∈ keys)
      drawn.localDrawn localDrawn
  remoteDrawn :=
    Endpoints.forall_put
      (fun _ current =>
        ∃ secret ∈ keys, current.remoteX25519Pub = P.x25519Public secret)
      drawn.remoteDrawn remoteDrawn
  sentDrawn := drawn.sentDrawn

theorem sealedUnder_record (fixed : P.DhFixed)
    (side : Side) {session : SessionInfo P} {remote : P.StaticSecret}
    {plaintext rawCt : List UInt8}
    (known : session.remoteX25519Pub = P.x25519Public remote)
    (wrapped :
      P.aeadSeal session.packetKey (packetNonce session.localSeq)
        session.localX25519Pub plaintext = some rawCt) :
    SealedUnder P
      (.record side session plaintext
        (packetBytes session.localX25519Pub session.localSeq rawCt))
      session.localX25519Priv remote session.pqShared := by
  have key :
      derivePacketKey P (session.dhShared session.remoteX25519Pub).1
          session.pqShared = session.packetKey := by
    rw [dhShared_fst fixed]
    rfl
  refine ⟨session.publicHalf, known, ?_, rfl, rawCt, rfl, ?_⟩
  · change derivePacketKey P _ _ = _
    rw [key, packetKey, known]
  · change P.aeadSeal (derivePacketKey P _ _) _ _ _ = _
    rw [key]
    exact wrapped

theorem SealedUnder.fields {packet : SentPacket}
    {own remote : P.StaticSecret} {salt : Option (Bytes 32)}
    (origin : SealedUnder P packet own remote salt)
    {fields : SessionInfo.Packet}
    (parsed : parsePacket packet.wire = .ok fields) :
    fields.senderXPub = packet.senderXPub ∧ fields.seq = packet.seq ∧
      P.aeadSeal packet.key packet.nonce packet.senderXPub
        packet.plaintext = some fields.rawCt := by
  obtain ⟨rawCt, wire, wrapped⟩ := origin.body
  rw [wire] at parsed
  cases eq_of_parsePacket_packetBytes parsed
  exact ⟨rfl, rfl, wrapped⟩

theorem keysDrawn_endpointStep (fixed : P.DhFixed)
    (action : EndpointAction P) (drawn : KeysDrawn keys salts state)
    (salted : ∀ side, (state.session side).pqShared ∈ salts)
    (draws : action.DrawsFrom keys) :
    KeysDrawn keys salts (endpointStep state action) := by
  have move := endpointMove_endpointStep fixed state action
  generalize endpointStep state action = after at move
  cases move with
  | cached side cache =>
    exact drawn.put side (drawn.localDrawn side) (drawn.remoteDrawn side)
  | encrypted side now cache wrapped =>
    obtain ⟨remote, member, known⟩ := drawn.remoteDrawn side
    have kept :
        KeysDrawn keys salts
          (state.put side
            { state.session side with
              cachedDh := cache
              localSeq := (state.session side).localSeq + 1
              lastUsed := now }) :=
      drawn.put side (drawn.localDrawn side) (drawn.remoteDrawn side)
    refine ⟨kept.localDrawn, kept.remoteDrawn, ?_⟩
    intro packet sent
    rcases List.mem_append.mp sent with before | new
    · exact drawn.sentDrawn packet before
    · rw [List.mem_singleton.mp new]
      exact ⟨_, drawn.localDrawn side, remote, member, _, salted side,
        sealedUnder_record fixed side known wrapped⟩
  | @accepted side now index packet buf fields pqShared high window sent
    accepts =>
    obtain ⟨own, member, remote, _, salt, _, origin⟩ :=
      drawn.sentDrawn packet sent
    have sender := (origin.fields accepts.parsed).1
    obtain ⟨cache, result⟩ := accepts.result
    have kept :
        KeysDrawn keys salts
          (state.put side
            ((state.session side).decrypt now packet.wire).2) := by
      rw [result]
      exact drawn.put side (drawn.localDrawn side)
        ⟨own, member, sender.trans origin.sender⟩
    exact ⟨kept.localDrawn, kept.remoteDrawn, drawn.sentDrawn⟩
  | rotated side key =>
    exact drawn.put side (draws _ key) (drawn.remoteDrawn side)

theorem Endpoints.Paired.keysDrawn (paired : state.Paired)
    (actions : List (EndpointAction P)) :
    KeysDrawn (drawnKeys state actions) salts state where
  localDrawn := by
    intro side
    cases side <;> simp [drawnKeys]
  remoteDrawn := by
    intro side
    refine ⟨(state.session side.peer).localX25519Priv, ?_, ?_⟩
    · cases side <;> simp [drawnKeys, Side.peer]
    · rw [paired.crossed side, (state.session side.peer).publicHalf]
  sentDrawn := by
    intro packet sent
    rw [paired.unsent] at sent
    cases sent

end Provenance

instance : DecidableEq Primitives.transparent.StaticSecret :=
  inferInstanceAs (DecidableEq (Bytes 32))

/-- Two endpoints that have just completed a handshake. -/
def sampleEndpoints : Endpoints Primitives.transparent where
  session
    | .left =>
      { SessionInfo.new (P := Primitives.transparent)
          (Bytes.replicate 32 12) (Bytes.replicate 32 1)
          (Bytes.replicate 32 2) 0 with
        established := true
        pqShared := some (Bytes.replicate 32 64) }
    | .right =>
      { SessionInfo.new (P := Primitives.transparent)
          (Bytes.replicate 32 11) (Bytes.replicate 32 2)
          (Bytes.replicate 32 1) 0 with
        established := true
        pqShared := some (Bytes.replicate 32 64) }
  sent := []
  accepted := fun _ => []

theorem sampleEndpoints_paired : sampleEndpoints.Paired where
  established := by
    intro side
    cases side <;> rfl
  secret := by
    refine ⟨Bytes.replicate 32 64, ?_⟩
    intro side
    cases side <;> rfl
  crossed := by
    intro side
    cases side <;> rfl
  unsent := rfl

end Norn.Session
