import Norn.Session.Endpoints

/-!
# Delivery across key rotation

A packet names the sender's X25519 key it was sealed with, so a receiver can
follow the sender through any number of rotations.  It does not name the
receiver's key: a packet sealed to a key the receiver has since replaced is
lost.  Every other packet inside the replay window is decrypted, whatever
either side has rotated in the meantime and in whatever order packets arrive.
-/

namespace Norn.Session

open Foundation Foundation.Run Foundation.SlidingWindow SessionInfo

section Delivery

variable {P : Primitives}

/--
Both sides keep one post-quantum secret, every packet is sealed under it, and
the replay windows describe what was accepted.
-/
structure InStep (keys : List P.StaticSecret)
    (salts : List (Option (Bytes 32))) (shared : Option (Bytes 32))
    (state : Endpoints P) : Prop where
  drawn : KeysDrawn keys [shared] state
  agreed : ∀ side, (state.session side).pqShared = shared
  fallback :
    ∀ side secret, (state.session side).pqSharedFallback = some secret →
      some secret ∈ salts
  remembers : ∀ side, (state.session side).Remembers (state.accepted side)

variable {keys : List P.StaticSecret} {salts : List (Option (Bytes 32))}
  {shared : Option (Bytes 32)} {state : Endpoints P}

/-- What one session contributes to the invariant. -/
structure SessionInStep (salts : List (Option (Bytes 32)))
    (shared : Option (Bytes 32)) (accepted : List Nat)
    (session : SessionInfo P) : Prop where
  agreed : session.pqShared = shared
  fallback :
    ∀ secret, session.pqSharedFallback = some secret → some secret ∈ salts
  remembers : session.Remembers accepted

theorem InStep.session (inStep : InStep keys salts shared state) (side : Side) :
    SessionInStep salts shared (state.accepted side) (state.session side) :=
  ⟨inStep.agreed side, inStep.fallback side, inStep.remembers side⟩

theorem InStep.of_sessions (drawn : KeysDrawn keys [shared] state)
    (sessions :
      ∀ side,
        SessionInStep salts shared (state.accepted side) (state.session side)) :
    InStep keys salts shared state :=
  ⟨drawn,
    fun side => (sessions side).agreed, fun side => (sessions side).fallback,
    fun side => (sessions side).remembers⟩

theorem InStep.sessions_put (inStep : InStep keys salts shared state)
    (side : Side) {session : SessionInfo P}
    (kept : SessionInStep salts shared (state.accepted side) session) :
    ∀ other, SessionInStep salts shared (state.accepted other)
      ((state.put side session).session other) := by
  exact Endpoints.forall_put
    (fun other => SessionInStep salts shared (state.accepted other))
    inStep.session kept

/-- A packet of the other side opens under the shared secret only. -/
theorem InStep.adopted_eq (fixed : P.DhFixed)
    (ideal : P.AeadIdeal) (separate : PacketKeysSeparate P keys salts)
    (held : shared ∈ salts) (inStep : InStep keys salts shared state)
    {side : Side} {now : Instant} {packet : SentPacket}
    {buf : List UInt8} {fields : SessionInfo.Packet}
    {adopted : Option (Bytes 32)} {high window : UInt64}
    (sent : packet ∈ state.sent)
    (accepts :
      (state.session side).Accepts now packet.wire buf fields adopted high
        window) :
    adopted = shared := by
  obtain ⟨own, ownDrawn, remote, remoteDrawn, salt, salted, origin⟩ :=
    inStep.drawn.sentDrawn packet sent
  have saltShared : salt = shared := List.mem_singleton.mp salted
  subst salt
  obtain ⟨sender, _, wrapped⟩ := origin.fields accepts.parsed
  obtain ⟨candidate, opened⟩ := openPayload_cases accepts.opened
  rw [dhShared_fst fixed, sender, origin.sender] at opened
  obtain ⟨key, _, _⟩ := ideal wrapped opened
  rw [origin.key] at key
  have adoptedHeld : adopted ∈ salts := by
    rcases candidate with primary | ⟨fallback, present⟩
    · rw [primary, inStep.agreed side]
      exact held
    · obtain ⟨secret, content⟩ := Option.ne_none_iff_exists'.mp present
      rw [fallback, content]
      exact inStep.fallback side secret content
  exact (separate _ (inStep.drawn.localDrawn side) own ownDrawn adopted
    adoptedHeld own ownDrawn remote remoteDrawn shared held key).1

/-- No step takes the two endpoints out of step. -/
theorem inStep_endpointStep (fixed : P.DhFixed)
    (ideal : P.AeadIdeal) (separate : PacketKeysSeparate P keys salts)
    (held : shared ∈ salts) (state : Endpoints P)
    (action : EndpointAction P) (inStep : InStep keys salts shared state)
    (draws : action.DrawsFrom keys) :
    InStep keys salts shared (endpointStep state action) := by
  have drawn :=
    keysDrawn_endpointStep fixed action inStep.drawn
      (fun side => List.mem_singleton.mpr (inStep.agreed side)) draws
  refine .of_sessions drawn ?_
  have move := endpointMove_endpointStep fixed state action
  generalize endpointStep state action = after at move
  cases move with
  | cached side cache =>
    exact inStep.sessions_put side { inStep.session side with }
  | encrypted side now cache wrapped =>
    exact inStep.sessions_put side { inStep.session side with }
  | @accepted side now index packet buf fields adopted high window sent
    accepts =>
    obtain ⟨own, _, remote, _, salt, _, origin⟩ :=
      inStep.drawn.sentDrawn packet sent
    have number := (origin.fields accepts.parsed).2.1
    have same := inStep.adopted_eq fixed ideal separate held sent accepts
    have remembers := accepts.remembers (inStep.session side).remembers
    rw [number] at remembers
    obtain ⟨cache, result⟩ := accepts.result
    intro other
    rcases other.eq_or_eq_peer side with rfl | rfl
    · simp only [Endpoints.put, Function.update_self]
      refine ⟨?_, ?_, remembers⟩
      · rw [result]
        exact same
      · rw [result]
        intro secret content
        cases content
    · simp only [Endpoints.put, Function.update_of_ne side.peer_ne]
      exact inStep.session side.peer
  | rotated side key =>
    exact inStep.sessions_put side { inStep.session side with }

theorem SealedUnder.opens (commutes : P.DhCommutes)
    (fixed : P.DhFixed) (correct : P.AeadCorrect)
    {packet : SentPacket} {own remote : P.StaticSecret}
    {salt : Option (Bytes 32)}
    (origin : SealedUnder P packet own remote salt)
    (receiver : SessionInfo P) (agreed : receiver.pqShared = salt)
    (current : packet.remoteXPub = receiver.localX25519Pub)
    {fields : SessionInfo.Packet}
    (parsed : parsePacket packet.wire = .ok fields) :
    openPayload P receiver.pqShared receiver.pqSharedFallback
        (receiver.dhShared fields.senderXPub).1 fields =
      .ok (packet.plaintext, receiver.pqShared) := by
  obtain ⟨sender, number, wrapped⟩ := origin.fields parsed
  have sameKey :
      P.diffieHellman receiver.localX25519Priv = P.diffieHellman remote := by
    apply fixed
    rw [← origin.receiver, current, receiver.publicHalf]
  apply openPayload_of_primary
  rw [dhShared_fst fixed, sender, origin.sender, number,
    agreed, sameKey, commutes remote own, ← origin.key, ← origin.nonce,
    ← origin.sender]
  exact correct.opens wrapped

/--
Across every interleaving of encryptions, deliveries and rotations, a packet
whose number the receiver may still accept and which was sealed to the key
the receiver still has is decrypted to its plaintext.
-/
theorem delivery_across_rotation (commutes : P.DhCommutes)
    (fixed : P.DhFixed) (correct : P.AeadCorrect)
    (ideal : P.AeadIdeal) (start : Endpoints P) (paired : start.Paired)
    (remembers : ∀ side, (start.session side).Remembers (start.accepted side))
    (actions : List (EndpointAction P))
    (separate :
      PacketKeysSeparate P (drawnKeys start actions) (heldSecrets start))
    (side : Side) (now : Instant) (packet : SentPacket) :
    let state := run endpointStep start actions
    packet ∈ state.sent →
      Admits 64 (state.accepted side) packet.seq.toNat →
        packet.remoteXPub = (state.session side).localX25519Pub →
          ((state.session side).decrypt now packet.wire).1 =
            .ok packet.plaintext := by
  intro state sent admitted current
  obtain ⟨secret, shared⟩ := paired.secret
  have held : some secret ∈ heldSecrets start := by
    rw [← shared side]
    exact pqShared_mem_heldSecrets start side
  have initial :
      InStep (drawnKeys start actions) (heldSecrets start) (some secret)
        start :=
    ⟨paired.keysDrawn actions, shared,
      fun _ _ content => fallback_mem_heldSecrets start content,
      remembers⟩
  have draws :
      Along endpointStep
        (fun _ action => action.DrawsFrom (drawnKeys start actions))
        start actions :=
    along_of_forall_mem fun action member _ =>
      drawsFrom_drawnKeys start member
  have inStep :
      InStep (drawnKeys start actions) (heldSecrets start) (some secret)
        state :=
    invariant_run (inStep_endpointStep fixed ideal separate held)
      initial draws
  obtain ⟨own, _, remote, _, salt, salted, origin⟩ :=
    inStep.drawn.sentDrawn packet sent
  have agreed : (state.session side).pqShared = salt := by
    rw [inStep.agreed side, List.mem_singleton.mp salted]
  obtain ⟨rawCt, wire, wrapped⟩ := origin.body
  have parsed :
      parsePacket packet.wire =
        .ok ⟨packet.senderXPub, packet.seq, rawCt⟩ := by
    rw [wire]
    exact parsePacket_packetBytes _ _ (correct.tagged wrapped)
  have passed :=
    ((inStep.remembers side).checkReplay_iff packet.seq).mpr admitted
  obtain ⟨cache, high, window, _, decrypted⟩ :=
    (state.session side).decrypt_of_opened now parsed passed
      (origin.opens commutes fixed correct _ agreed current parsed)
  rw [decrypted]

end Delivery

/-- What a side makes of the packet at a given position of the history. -/
def Endpoints.receive {P : Primitives} (state : Endpoints P) (side : Side)
    (now : Instant) (index : Nat) :
    Option (Except SessionError (List UInt8)) :=
  state.sent[index]?.map fun packet =>
    ((state.session side).decrypt now packet.wire).1

/--
Two packets that are lost although no 64 higher numbers were accepted before
their only delivery: number 0 arriving after number 64 alone, and a packet
sealed to the key its receiver had before a tick at 100 sends.
-/
theorem delivery_lost :
    (run endpointStep sampleEndpoints
        (List.replicate 65 (.encrypt .left 1 [10]) ++
          [.deliver .right 2 64])).receive .right 3 0 =
        some (.error (.replayTooOld 0 64)) ∧
      (run endpointStep sampleEndpoints
        (.encrypt .left 1 [10] :: List.replicate 100 (.encrypt .right 2 [20]) ++
          [.tick .right (Bytes.replicate 32 4)])).receive .right 3 0 =
        some (.error .aeadFailed) := by
  constructor <;> decide +kernel

/-- The first packet of the left sample endpoint. -/
def samplePlainPacket : SentPacket :=
  .record .left (sampleEndpoints.session .left) [10]
    (packetBytes (Bytes.replicate 32 1) 0
      (List.replicate 32 67 ++ (List.replicate 12 0 ++
        (List.replicate 32 1 ++ [10]))))

/-- A packet overtaken by one sealed after the sender's rotation. -/
theorem delivery_overtaken :
    let state :=
      run endpointStep sampleEndpoints
        [.encrypt .left 1 [10], .rotate .left (Bytes.replicate 32 4),
          .encrypt .left 2 [11], .deliver .right 3 1]
    ((state.session .right).decrypt 4 samplePlainPacket.wire).1 = .ok [10] := by
  intro state
  have accepted : state.accepted .right = [1] := by
    decide +kernel
  apply delivery_across_rotation Primitives.transparent_dhCommutes
    Primitives.transparent_dhFixed
    Primitives.transparent_aeadCorrect Primitives.transparent_aeadIdeal
    sampleEndpoints sampleEndpoints_paired ?_ _ ?_ .right 4
    samplePlainPacket
  · decide +kernel
  · change Admits 64 (state.accepted .right) 0
    rw [accepted]
    simp [SlidingWindow.Admits]
  · decide +kernel
  · intro side
    cases side <;> exact remembers_nil rfl rfl
  · unfold PacketKeysSeparate
    decide +kernel

end Norn.Session
