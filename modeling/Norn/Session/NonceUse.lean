import Norn.Session.Endpoints

/-!
# Keys and nonces of a two-way session

Both ends of a session seal under one key derived from the same two X25519
keys and the same post-quantum secret, and both number their packets from
their own counter.  A single end never repeats a number.  The two ends repeat
each other's: nothing in the key or in the nonce tells the directions apart.

What keeps two different plaintexts from sharing a key and a nonce is therefore
a condition on the other end: it must not have used the number already while
the same two X25519 keys were in place.
-/

namespace Norn.Session

open Foundation Foundation.Run

/-- The packet was exchanged between two given X25519 public keys. -/
def SentPacket.Between (packet : SentPacket) (one other : Bytes 32) :
    Prop :=
  packet.senderXPub = one ∧ packet.remoteXPub = other ∨
    packet.senderXPub = other ∧ packet.remoteXPub = one

instance (packet : SentPacket) (one other : Bytes 32) :
    Decidable (packet.Between one other) :=
  inferInstanceAs (Decidable (_ ∨ _))

/-- Two packets with different plaintexts differ in key or nonce. -/
def SentPacket.Apart (earlier later : SentPacket) : Prop :=
  earlier.plaintext ≠ later.plaintext →
    (earlier.key, earlier.nonce) ≠ (later.key, later.nonce)

section NonceUse

variable {P : Primitives}

/--
An encryption is made with room left in the counter, and its number has not
been used by the peer, between the same two X25519 keys, for a different
plaintext.
-/
def UnusedByPeer (state : Endpoints P) : EndpointAction P → Prop
  | .encrypt side _ plaintext =>
    (state.session side).localSeq.toNat + 1 < 2 ^ 64 ∧
      ∀ packet ∈ state.sent,
        packet.sender = side.peer →
          packet.seq = (state.session side).localSeq →
            packet.Between (state.session side).localX25519Pub
                (state.session side).remoteX25519Pub →
              packet.plaintext = plaintext
  | .deliver _ _ _ => True
  | .rotate _ _ => True
  | .tick _ _ => True

instance (state : Endpoints P) : ∀ action, Decidable (UnusedByPeer state action)
  | .encrypt _ _ _ => inferInstanceAs (Decidable (_ ∧ _))
  | .deliver _ _ _ => isTrue trivial
  | .rotate _ _ => isTrue trivial
  | .tick _ _ => isTrue trivial

/-- Secrets in use and their fallbacks are among the given ones. -/
def SecretsFrom (salts : List (Option (Bytes 32)))
    (session : SessionInfo P) : Prop :=
  session.pqShared ∈ salts ∧
    ∀ secret, session.pqSharedFallback = some secret → some secret ∈ salts

/-- Everything the argument needs to know about a reachable state. -/
structure NoncesSpent (keys : List P.StaticSecret)
    (salts : List (Option (Bytes 32))) (state : Endpoints P) : Prop where
  drawn : KeysDrawn keys salts state
  secrets : ∀ side, SecretsFrom salts (state.session side)
  counted :
    ∀ packet ∈ state.sent, packet.seq < (state.session packet.sender).localSeq
  apart : state.sent.Pairwise SentPacket.Apart

variable {keys : List P.StaticSecret} {salts : List (Option (Bytes 32))}
  {state : Endpoints P}

theorem secretsFrom_endpointStep (fixed : P.DhFixed) (action : EndpointAction P)
    (secrets : ∀ side, SecretsFrom salts (state.session side)) :
    ∀ side, SecretsFrom salts ((endpointStep state action).session side) := by
  have move := endpointMove_endpointStep fixed state action
  generalize endpointStep state action = after at move
  have replaced (side : Side) {session : SessionInfo P}
      (kept : SecretsFrom salts session) :
      ∀ other, SecretsFrom salts ((state.put side session).session other) :=
    Endpoints.forall_put (fun _ => SecretsFrom salts) secrets kept
  cases move with
  | cached side cache => exact replaced side (secrets side)
  | encrypted side now cache wrapped => exact replaced side (secrets side)
  | accepted side index sent accepts =>
    obtain ⟨cache, result⟩ := accepts.result
    rw [result]
    refine replaced side ⟨?_, by intro secret held; cases held⟩
    rcases (SessionInfo.openPayload_cases accepts.opened).1 with
      primary | ⟨fallback, present⟩
    · rw [primary]
      exact (secrets side).1
    · obtain ⟨secret, held⟩ := Option.ne_none_iff_exists'.mp present
      rw [fallback, held]
      exact (secrets side).2 secret held
  | rotated side key => exact replaced side (secrets side)

theorem lt_succ_of_room {counter : UInt64} (room : counter.toNat + 1 < 2 ^ 64)
    {seq : UInt64}
    (below : seq ≤ counter) : seq < counter + 1 := by
  rw [UInt64.lt_iff_toNat_lt, UInt64.toNat_add]
  rw [UInt64.le_iff_toNat_le] at below
  simp only [UInt64.toNat_one]
  omega

theorem NoncesSpent.apart_record (fixed : P.DhFixed)
    (separate : PacketKeysSeparate P keys salts)
    (spent : NoncesSpent keys salts state) {side : Side} {now : Instant}
    {plaintext rawCt : List UInt8}
    (unused : UnusedByPeer state (.encrypt side now plaintext))
    (wrapped :
      P.aeadSeal (state.session side).packetKey
        (packetNonce (state.session side).localSeq)
        (state.session side).localX25519Pub plaintext = some rawCt)
    {packet : SentPacket} (sent : packet ∈ state.sent) :
    packet.Apart
      (.record side (state.session side) plaintext
        (SessionInfo.packetBytes (state.session side).localX25519Pub
          (state.session side).localSeq rawCt)) := by
  intro different collision
  obtain ⟨key, nonce⟩ := Prod.mk.inj collision
  obtain ⟨own, ownDrawn, remote, remoteDrawn, salt, salted, origin⟩ :=
    spent.drawn.sentDrawn packet sent
  obtain ⟨other, otherDrawn, known⟩ := spent.drawn.remoteDrawn side
  have fresh := sealedUnder_record fixed side known wrapped
  have number : packet.seq = (state.session side).localSeq := by
    apply packetNonce_injective
    rw [← origin.nonce, nonce]
    rfl
  rcases packet.sender.eq_or_eq_peer side with same | peer
  · have below := spent.counted packet sent
    rw [same, number] at below
    exact UInt64.lt_irrefl _ below
  · rw [origin.key, fresh.key] at key
    obtain ⟨_, pairs⟩ :=
      separate own ownDrawn remote remoteDrawn salt salted _
        (spent.drawn.localDrawn side) other otherDrawn _
        (spent.secrets side).1 key
    have between :
        packet.Between (state.session side).localX25519Pub
          (state.session side).remoteX25519Pub := by
      unfold SentPacket.Between
      rw [origin.sender, origin.receiver, (state.session side).publicHalf,
        known]
      rcases pairs with ⟨rfl, rfl⟩ | ⟨rfl, rfl⟩
      · exact Or.inl ⟨rfl, rfl⟩
      · exact Or.inr ⟨rfl, rfl⟩
    exact different (unused.2 packet sent peer number between)

theorem NoncesSpent.counted_put (spent : NoncesSpent keys salts state)
    {side : Side} {session : SessionInfo P}
    (same : session.localSeq = (state.session side).localSeq) :
    ∀ packet ∈ state.sent,
      packet.seq <
        ((state.put side session).session packet.sender).localSeq := by
  intro packet sent
  have kept :=
    Endpoints.forall_put
      (fun other current => current.localSeq = (state.session other).localSeq)
      (fun _ => rfl) same packet.sender
  rw [kept]
  exact spent.counted packet sent

/-- A packet sealed under keys the peer has not used spends a new nonce. -/
theorem noncesSpent_endpointStep (fixed : P.DhFixed)
    (separate : PacketKeysSeparate P keys salts)
    (state : Endpoints P) (action : EndpointAction P)
    (spent : NoncesSpent keys salts state)
    (condition : UnusedByPeer state action ∧ action.DrawsFrom keys) :
    NoncesSpent keys salts (endpointStep state action) := by
  obtain ⟨unused, draws⟩ := condition
  have drawn :=
    keysDrawn_endpointStep fixed action spent.drawn
      (fun side => (spent.secrets side).1) draws
  have secrets := secretsFrom_endpointStep fixed action spent.secrets
  have move := endpointMove_endpointStep fixed state action
  generalize endpointStep state action = after at move drawn secrets
  cases move with
  | cached side cache =>
    exact ⟨drawn, secrets, spent.counted_put rfl, spent.apart⟩
  | encrypted side now cache wrapped =>
    refine ⟨drawn, secrets, ?_, ?_⟩
    · intro packet sent
      rcases packet.sender.eq_or_eq_peer side with same | peer
      · simp only [Endpoints.put, same, Function.update_self]
        apply lt_succ_of_room unused.1
        rcases List.mem_append.mp sent with before | new
        · have below := spent.counted packet before
          rw [same] at below
          exact UInt64.le_of_lt below
        · rw [List.mem_singleton.mp new]
          exact UInt64.le_refl _
      · rcases List.mem_append.mp sent with before | new
        · have below := spent.counted packet before
          simpa only [Endpoints.put, peer, Function.update_of_ne side.peer_ne]
            using below
        · rw [List.mem_singleton.mp new] at peer
          exact absurd peer.symm side.peer_ne
    · apply List.pairwise_append.mpr
      refine ⟨spent.apart, List.pairwise_singleton _ _, ?_⟩
      intro packet sent last new
      rw [List.mem_singleton.mp new]
      exact spent.apart_record fixed separate unused wrapped sent
  | accepted side index sent accepts =>
    obtain ⟨cache, result⟩ := accepts.result
    refine ⟨drawn, secrets, spent.counted_put ?_, spent.apart⟩
    rw [result]
    rfl
  | rotated side key =>
    exact ⟨drawn, secrets, spent.counted_put rfl, spent.apart⟩

/--
In every run of two paired endpoints in which each encryption uses a number
the peer has not used between the same two X25519 keys, no two different
plaintexts are ever sealed under the same key and nonce.
-/
theorem nonces_unique_of_unusedByPeer (fixed : P.DhFixed)
    (start : Endpoints P) (paired : start.Paired)
    (actions : List (EndpointAction P))
    (separate :
      PacketKeysSeparate P (drawnKeys start actions) (heldSecrets start))
    (unused : Along endpointStep UnusedByPeer start actions) :
    (run endpointStep start actions).sent.Pairwise fun earlier later =>
      earlier.plaintext ≠ later.plaintext →
        (earlier.key, earlier.nonce) ≠ (later.key, later.nonce) := by
  have initial :
      NoncesSpent (drawnKeys start actions) (heldSecrets start) start := by
    refine ⟨paired.keysDrawn actions, ?_, ?_, ?_⟩
    · intro side
      exact ⟨pqShared_mem_heldSecrets start side,
        fun secret held => fallback_mem_heldSecrets start held⟩
    · intro packet sent
      rw [paired.unsent] at sent
      cases sent
    · rw [paired.unsent]
      exact List.Pairwise.nil
  have draws :
      Along endpointStep
        (fun _ action => action.DrawsFrom (drawnKeys start actions))
        start actions :=
    along_of_forall_mem fun action member _ =>
      drawsFrom_drawnKeys start member
  exact (invariant_run (noncesSpent_endpointStep fixed separate)
    initial (unused.and draws)).apart

end NonceUse

/-- The first packets of the two directions share their key and nonce. -/
theorem nonces_repeat_across_directions :
    sampleEndpoints.Paired ∧
      ¬ (run endpointStep sampleEndpoints
          [.encrypt .left 1 [10], .encrypt .right 2 [20]]).sent.Pairwise
        fun earlier later =>
          earlier.plaintext ≠ later.plaintext →
            (earlier.key, earlier.nonce) ≠ (later.key, later.nonce) := by
  refine ⟨sampleEndpoints_paired, ?_⟩
  decide +kernel

/-- One side answers after it has rotated: the numbers do not collide. -/
theorem nonces_unique_after_rotation :
    (run endpointStep sampleEndpoints
        [.encrypt .left 1 [10], .deliver .right 2 0,
          .rotate .right (Bytes.replicate 32 4),
          .encrypt .right 3 [20], .deliver .left 4 1]).sent.Pairwise
      fun earlier later =>
        earlier.plaintext ≠ later.plaintext →
          (earlier.key, earlier.nonce) ≠ (later.key, later.nonce) := by
  apply nonces_unique_of_unusedByPeer
    Primitives.transparent_dhFixed sampleEndpoints
    sampleEndpoints_paired
  · unfold PacketKeysSeparate
    decide +kernel
  · decide +kernel

end Norn.Session
