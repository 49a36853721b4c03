import Norn.Router.Inbound
import Norn.Router.PoolChannels
import Norn.Router.StaleCheck
import Norn.Router.Wire
import Norn.Session.Rehandshake
import Mathlib.Data.List.TakeDrop

/-!
# A payload from end to end

`write_to` pads a payload, encrypts it and sends it in a traffic frame; the
destination decrypts the frame, strips the padding and delivers what is left.
The length field of the padding has two bytes.  A longer payload is cut by
`pad_payload`, and `write_to` returns as if it had been sent whole.

A write may pass through a worker of the crypto pool, and between two steps
of it other tasks may act.  `Becomes` follows one payload through all of that.
-/

namespace Norn.Router

open Foundation Foundation.Run Session Primitives CryptoPool

variable {P : Primitives}

variable {task : Task P} {payload wire : List UInt8}

/--
The tasks that a write of a payload becomes.  Whatever the other tasks have
done before a step is in `shared`.  A payload that is handed over is taken by
a worker; a worker that waits for its next job no longer works for the write.
-/
inductive Becomes (payload : List UInt8) (dst : Bytes 32) : Task P → Prop where
  | called : Becomes payload dst (.writeTo payload dst)
  | stepped {task : Task P} (before : Becomes payload dst task)
      (busy : ∀ idx, task ≠ .receiving idx) (shared : Shared P)
      (env : FrameEnv P) :
      Becomes payload dst (task.step shared env).task
  | taken {shared : Shared P} {pool after : CryptoPool}
      (before : Becomes payload dst (.submitting payload dst : Task P))
      (installed : shared.cryptoPool = some pool)
      (accepted : pool.trySubmit payload dst = (true, after))
      (idx : Nat) :
      Becomes payload dst (.dispatching (.worker idx) payload dst)

/-- A frame that carries the payload, encrypted in some session. -/
def Conveys (P : Primitives) (payload : List UInt8) (dst : Bytes 32)
    (frame : Traffic) : Prop :=
  ∃ (session : SessionInfo P) (now : Instant) (wire : List UInt8)
    (own : Bytes 32) (epkPriv : P.StaticSecret)
    (destCoord : Option (Bytes 16)),
    (session.encrypt now (padPayload payload)).1 = .ok wire ∧
      frame = dataFrame P own dst epkPriv destCoord wire

/-- What a task of the write holds. -/
def Task.Holds (payload : List UInt8) (dst : Bytes 32) : Task P → Prop
  | .writeTo held other => held = payload ∧ other = dst
  | .submitting held other => held = payload ∧ other = dst
  | .dispatching _ held other => held = payload ∧ other = dst
  | .encrypting _ _ held other => held = payload ∧ other = dst
  | .routing _ ciphertext other =>
    other = dst ∧
      ∃ (session : SessionInfo P) (now : Instant),
        (session.encrypt now (padPayload payload)).1 = .ok ciphertext
  | .sending _ _ frame => Conveys P payload dst frame
  | .initiating _ => True
  | .announcing _ _ => True
  | .receiving _ => True
  | .finished _ => True
  | _ => False

variable {payload : List UInt8} {dst : Bytes 32}

theorem Caller.holds_finish (caller : Caller)
    (result : Except WriteError (Option Nat)) :
    (caller.finish result : Task P).Holds payload dst := by
  cases caller <;> trivial

theorem Task.holds_step (holds : task.Holds payload dst)
    (busy : ∀ idx, task ≠ .receiving idx) (shared : Shared P)
    (env : FrameEnv P) :
    (task.step shared env).task.Holds payload dst := by
  cases task with
  | receiving idx => exact (busy idx rfl).elim
  | encrypting caller cell held other =>
    simp only [Task.step]
    split
    · exact holds
    · rename_i info content
      rcases holds with ⟨rfl, rfl⟩
      cases result : (info.encrypt env.call.now (padPayload held)).1 with
      | error failure => exact caller.holds_finish _
      | ok ciphertext => exact ⟨rfl, info, env.call.now, result⟩
  | routing caller ciphertext other =>
    simp only [Task.step]
    split
    · exact caller.holds_finish _
    · rcases holds with ⟨rfl, session, now, encrypted⟩
      exact ⟨session, now, ciphertext, _, _, _, encrypted, rfl⟩
  | _ =>
    simp only [Task.step]
    repeat' split
    all_goals first
      | trivial
      | exact holds
      | exact holds.elim
      | exact Caller.holds_finish _ _

theorem Becomes.holds (becomes : Becomes payload dst task) :
    task.Holds payload dst := by
  induction becomes with
  | called => exact ⟨rfl, rfl⟩
  | stepped before busy shared env held =>
    exact Task.holds_step held busy shared env
  | taken before installed accepted idx held => exact ⟨rfl, rfl⟩

/-! ## The tasks of a run -/

/-- The jobs that wait in the channels of a pool. -/
def CryptoPool.jobs (self : CryptoPool) : List CryptoJob :=
  self.senders.flatMap CryptoQueue.jobs

theorem CryptoPool.mem_jobs_withQueue {pool : CryptoPool} {idx : Nat}
    {next : CryptoQueue} {job : CryptoJob}
    (member : job ∈ (pool.withQueue idx next).jobs) :
    job ∈ next.jobs ∨ job ∈ pool.jobs := by
  rcases List.mem_flatMap.mp member with ⟨queue, inside, listed⟩
  rcases List.mem_or_eq_of_mem_set inside with old | rfl
  · exact Or.inr (List.mem_flatMap.mpr ⟨queue, old, listed⟩)
  · exact Or.inl listed

theorem CryptoPool.mem_jobs_of_found {pool : CryptoPool} {idx : Nat}
    {queue : CryptoQueue} (found : pool.senders[idx]? = some queue)
    {job : CryptoJob} (listed : job ∈ queue.jobs) : job ∈ pool.jobs :=
  List.mem_flatMap.mpr ⟨queue, List.mem_of_getElem? found, listed⟩

/-- A task of some write. -/
def Task.OfWrite : Task P → Prop
  | .writeTo _ _ => True
  | .submitting _ _ => True
  | .dispatching _ _ _ => True
  | .encrypting _ _ _ _ => True
  | .routing _ _ _ => True
  | .sending _ _ _ => True
  | _ => False

theorem Task.not_ofWrite_step (other : ¬ task.OfWrite)
    (busy : ∀ idx, task ≠ .receiving idx) (shared : Shared P)
    (env : FrameEnv P) :
    ¬ (task.step shared env).task.OfWrite := by
  cases task with
  | receiving idx => exact (busy idx rfl).elim
  | _ =>
    simp only [Task.step]
    repeat' split
    all_goals first
      | exact id
      | exact (other trivial).elim

/-- Every task of a write and every job belongs to a payload that has been
written. -/
structure DispatchState.Traced (Written : List UInt8 → Bytes 32 → Prop)
    (state : DispatchState P) : Prop where
  tasks :
    ∀ task ∈ state.tasks, task.OfWrite →
      ∃ payload dst, Written payload dst ∧ Becomes payload dst task
  jobs :
    ∀ pool, state.shared.cryptoPool = some pool → ∀ job ∈ pool.jobs,
      Written job.payload job.dst ∧
        ∀ idx, Becomes job.payload job.dst
          (.dispatching (.worker idx) job.payload job.dst : Task P)

section Traced

variable {Written : List UInt8 → Bytes 32 → Prop} {state : DispatchState P}

theorem DispatchState.Traced.jobs_step (traced : state.Traced Written)
    {task : Task P} (member : task ∈ state.tasks) (env : FrameEnv P)
    {pool : CryptoPool}
    (installed : (task.step state.shared env).shared.cryptoPool = some pool)
    {job : CryptoJob} (listed : job ∈ pool.jobs) :
    Written job.payload job.dst ∧
      ∀ idx, Becomes job.payload job.dst
        (.dispatching (.worker idx) job.payload job.dst : Task P) := by
  have unchanged :
      (task.step state.shared env).shared.cryptoPool = state.shared.cryptoPool →
        Written job.payload job.dst ∧
          ∀ idx, Becomes job.payload job.dst
            (.dispatching (.worker idx) job.payload job.dst : Task P) :=
    fun same => traced.jobs pool (same ▸ installed) job listed
  cases task with
  | submitting payload dst =>
    simp only [Task.step] at installed unchanged
    split at installed
    · rename_i absent
      rw [absent] at installed
      cases installed
    · rename_i before known
      split at installed
      · rename_i after accepted
        cases installed
        rcases trySubmit_eq_true accepted with ⟨queue, found, _, shape⟩
        rw [shape] at listed
        rcases mem_jobs_withQueue listed with own | old
        · rcases List.mem_append.mp own with old | fresh
          · exact
              traced.jobs before known job (mem_jobs_of_found found old)
          · rw [List.mem_singleton] at fresh
            subst fresh
            have holds := traced.tasks _ member trivial
            rcases holds with ⟨held, other, written, becomes⟩
            rcases becomes.holds with ⟨rfl, rfl⟩
            exact
              ⟨written, fun idx =>
                .taken becomes known accepted idx⟩
        · exact traced.jobs before known job old
      · exact traced.jobs pool installed job listed
  | receiving idx =>
    simp only [Task.step] at installed
    split at installed
    · exact traced.jobs pool installed job listed
    · rename_i next after taken
      cases installed
      rcases Option.bind_eq_some_iff.mp taken with ⟨before, known, received⟩
      rcases receive_eq_some received with ⟨queue, jobs, found, shape, rfl⟩
      rcases mem_jobs_withQueue listed with own | old
      · refine traced.jobs before known job (mem_jobs_of_found found ?_)
        rw [shape]
        exact List.mem_cons_of_mem _ own
      · exact traced.jobs before known job old
  | _ =>
    apply unchanged
    simp only [Task.step]
    repeat' split
    all_goals rfl

theorem DispatchState.Traced.task_step (traced : state.Traced Written)
    {task : Task P} (member : task ∈ state.tasks) (env : FrameEnv P)
    (ofWrite : (task.step state.shared env).task.OfWrite) :
    ∃ payload dst, Written payload dst ∧
      Becomes payload dst (task.step state.shared env).task := by
  by_cases waits : ∃ idx, task = .receiving idx
  · rcases waits with ⟨idx, rfl⟩
    simp only [Task.step] at ofWrite ⊢
    split
    · rename_i none
      rw [none] at ofWrite
      exact ofWrite.elim
    · rename_i job after taken
      rcases Option.bind_eq_some_iff.mp taken with ⟨before, known, received⟩
      rcases receive_eq_some received with ⟨queue, jobs, found, shape, _⟩
      have listed : job ∈ before.jobs := by
        apply mem_jobs_of_found found
        rw [shape]
        exact List.mem_cons_self
      rcases traced.jobs before known job listed with ⟨written, becomes⟩
      exact ⟨job.payload, job.dst, written, becomes idx⟩
  · rw [not_exists] at waits
    by_cases writes : task.OfWrite
    · rcases traced.tasks task member writes with
        ⟨payload, dst, written, becomes⟩
      exact ⟨payload, dst, written, .stepped becomes waits state.shared env⟩
    · exact (Task.not_ofWrite_step writes waits _ _ ofWrite).elim

theorem DispatchState.Traced.spawn (traced : state.Traced Written)
    {tasks : List (Task P)}
    (fresh :
      ∀ task ∈ tasks, task.OfWrite →
        ∃ payload dst, Written payload dst ∧ Becomes payload dst task)
    {shared : Shared P}
    (jobs :
      ∀ pool, shared.cryptoPool = some pool → ∀ job ∈ pool.jobs,
        ∃ before, state.shared.cryptoPool = some before ∧ job ∈ before.jobs) :
    Traced Written
      { state with shared, tasks := state.tasks ++ tasks } where
  tasks task member := by
    rcases List.mem_append.mp member with old | new
    · exact traced.tasks task old
    · exact fresh task new
  jobs pool installed job listed := by
    rcases jobs pool installed job listed with ⟨before, known, inside⟩
    exact traced.jobs before known job inside

theorem DispatchState.Traced.shutdown (traced : state.Traced Written)
    (task : Nat) : (state.shutdown task).Traced Written := by
  unfold DispatchState.shutdown
  split
  · rename_i idx found
    constructor
    · intro other member ofWrite
      rcases List.mem_or_eq_of_mem_set member with old | rfl
      · exact traced.tasks other old ofWrite
      · exact ofWrite.elim
    · intro pool installed job listed
      rcases Option.map_eq_some_iff.mp installed with ⟨before, known, rfl⟩
      cases sender : before.senders[idx]? with
      | none =>
        rw [close_of_absent sender] at listed
        exact traced.jobs before known job listed
      | some queue =>
        rw [close_of_found sender] at listed
        rcases mem_jobs_withQueue listed with own | old
        · exact (List.not_mem_nil own).elim
        · exact traced.jobs before known job old
  · exact traced

/-- The payloads of the writes among the actions. -/
def DispatchAction.Writes (Written : List UInt8 → Bytes 32 → Prop) :
    DispatchAction P → Prop
  | .writeTo payload dst => Written payload dst
  | _ => True

/-- A step keeps tasks and jobs with the payloads that were written. -/
theorem DispatchState.Traced.step (state : DispatchState P)
    (action : DispatchAction P) (traced : state.Traced Written)
    (written : action.Writes Written) :
    (dispatchStep state action).Traced Written := by
  cases action with
  | enableCryptoPool workers =>
    simp only [dispatchStep, DispatchState.enableCryptoPool,
      DispatchState.installPool]
    split_ifs
    · exact traced
    · apply traced.spawn
      · intro task member ofWrite
        rcases List.mem_map.mp member with ⟨idx, _, rfl⟩
        exact ofWrite.elim
      · intro pool installed job listed
        cases installed
        rcases List.mem_flatMap.mp listed with ⟨queue, member, inside⟩
        rw [List.eq_of_mem_replicate member] at inside
        exact (List.not_mem_nil inside).elim
  | writeTo payload dst =>
    refine traced.spawn ?_ fun pool installed job listed =>
      ⟨pool, installed, listed⟩
    intro task member _
    rw [List.mem_singleton.mp member]
    exact ⟨payload, dst, written, .called⟩
  | writeToBatch payloads dst =>
    refine traced.spawn ?_ fun pool installed job listed =>
      ⟨pool, installed, listed⟩
    intro task member ofWrite
    rw [List.mem_singleton.mp member] at ofWrite
    exact ofWrite.elim
  | step idx env =>
    simp only [dispatchStep]
    cases found : state.tasks[idx]? with
    | none => exact traced
    | some task =>
      have inside := List.mem_of_getElem? found
      constructor
      · intro other member ofWrite
        rcases List.mem_or_eq_of_mem_set member with old | rfl
        · exact traced.tasks other old ofWrite
        · exact traced.task_step inside env ofWrite
      · intro pool installed job listed
        exact traced.jobs_step inside env installed listed
  | shutdown task => exact traced.shutdown task
  | removePeer peer => exact { traced with }
  | operate op => exact { traced with }
  | frame env fromPeer traffic => exact { traced with }

/-- A frame that a task of a run is about to send carries a payload that was
written in the run. -/
theorem becomes_of_sending (router : RouterState P)
    (actions : List (DispatchAction P)) {caller : Caller}
    {hop : Bytes 32} {frame : Traffic}
    (sending :
      Task.sending caller hop frame ∈
        (run dispatchStep (.start router) actions).tasks) :
    ∃ payload dst, DispatchAction.writeTo payload dst ∈ actions ∧
      Becomes payload dst (.sending caller hop frame : Task P) := by
  have initial :
      DispatchState.Traced
        (fun payload dst =>
          DispatchAction.writeTo payload dst ∈ actions)
        (.start router) := by
    exact ⟨nofun, nofun⟩
  have written :
      ∀ action ∈ actions, ∀ _ : DispatchState P,
        action.Writes fun payload dst =>
          DispatchAction.writeTo payload dst ∈ actions := by
    intro action member _
    cases action with
    | writeTo payload dst => exact member
    | _ => trivial
  have traced :=
    invariant_run DispatchState.Traced.step initial
      (along_of_forall_mem written)
  exact traced.tasks _ sending trivial

end Traced

/-- A frame that is delivered was decrypted in a session, and its padding was
stripped. -/
theorem decrypted_of_delivered {self : RouterState P} {env : FrameEnv P}
    {fromPeer : Bytes 32} {traffic : Traffic} {cell : Nat}
    {packet : InboundPacket}
    (delivered :
      Event.delivered cell packet ∈
        (self.handleTraffic env fromPeer traffic).2) :
    ∃ (info : SessionInfo P) (padded : List UInt8),
      (info.decrypt env.call.now traffic.payload).1 = .ok padded ∧
        unpadPayload padded = .ok packet.payload := by
  unfold RouterState.handleTraffic at delivered
  simp only at delivered
  split_ifs at delivered with ours control data
  · have move :=
      @RouterState.move_handleControl P
        (self.touchPeer fromPeer env.call.now traffic.payload.length)
        traffic env traffic.payload
    cases move with
    | quiet _ silent => exact (silent _ delivered trivial).elim
    | handshake _ _ _ _ _ _ silent =>
      exact (silent _ delivered trivial).elim
    | delivery _ _ _ _ _ data =>
      rw [control] at data
      exact absurd data (by decide)
  · simp only [RouterState.handleData] at delivered
    repeat' split at delivered
    all_goals try exact (List.not_mem_nil delivered).elim
    rename_i info _ _ padded decrypted _ payload unpadded
    unfold RouterState.push at delivered
    split_ifs at delivered
    · rw [List.mem_singleton] at delivered
      cases delivered
      exact ⟨info, padded, decrypted, unpadded⟩
    · exact (List.not_mem_nil delivered).elim
  · exact (List.not_mem_nil delivered).elim
  · exact
      (RouterState.silent_forward _ env fromPeer traffic _ delivered
        trivial).elim

theorem delivered_payload_eq (fixed : P.DhFixed)
    (correct : P.AeadCorrect) (ideal : P.AeadIdeal) {frame : Traffic}
    (conveys : Conveys P payload dst frame) {self : RouterState P}
    {env : FrameEnv P} {fromPeer : Bytes 32} {cell : Nat}
    {packet : InboundPacket}
    (delivered :
      Event.delivered cell packet ∈ (self.handleTraffic env fromPeer frame).2) :
    packet.payload = payload.take maxPadded := by
  rcases conveys with
    ⟨session, now, wire, own, epkPriv, destCoord, encrypted, rfl⟩
  rcases decrypted_of_delivered delivered with
    ⟨info, padded, decrypted, unpadded⟩
  have opened : padded = padPayload payload :=
    decrypted_eq_plaintext fixed correct ideal encrypted decrypted
  rw [opened, unpadPayload_padPayload] at unpadded
  exact (Except.ok.inj unpadded).symm

theorem Conveys.fits (fixed : P.DhFixed) (tags : P.AeadTags) {frame : Traffic}
    (conveys : Conveys P payload dst frame) : frame.Fits := by
  rcases conveys with
    ⟨session, now, wire, own, epkPriv, destCoord, encrypted, rfl⟩
  rcases SessionInfo.sealed_of_encrypt fixed encrypted with
    ⟨rawCt, outcome, rfl⟩
  have length := tags outcome
  have short := length_padPayload_le payload
  constructor
  · exact ⟨Nat.zero_le _, fun hop member => (List.not_mem_nil member).elim⟩
  · change
      (SessionInfo.packetBytes session.localX25519Pub session.localSeq
        rawCt).length ≤ _
    simp only [SessionInfo.packetBytes, List.length_append, Bytes.length_toList,
      length]
    unfold maxPadded padBlock at short
    unfold maxFrameLength
    omega

/--
The frame that a write sends survives its encoding.  Whoever delivers it
delivers exactly the payload that was written if and only if the payload has
at most `u16::MAX` bytes.
-/
theorem written_payload_delivered_iff (fixed : P.DhFixed)
    (correct : P.AeadCorrect) (ideal : P.AeadIdeal) (tags : P.AeadTags)
    {caller : Caller} {hop : Bytes 32} {frame : Traffic}
    (sends : Becomes payload dst (.sending caller hop frame : Task P)) :
    Traffic.decode frame.encode.tail = .ok frame ∧
      ∀ (receiver : RouterState P) (env : FrameEnv P)
        (fromPeer : Bytes 32) (cell : Nat) (packet : InboundPacket),
        Event.delivered cell packet ∈
            (receiver.handleTraffic env fromPeer frame).2 →
          (packet.payload = payload ↔ payload.length ≤ maxPadded) := by
  have conveys : Conveys P payload dst frame := sends.holds
  refine ⟨Traffic.decode_encode (conveys.fits fixed tags), ?_⟩
  intro receiver env fromPeer cell packet delivered
  rw [delivered_payload_eq fixed correct ideal conveys delivered]
  exact List.take_eq_self_iff payload

/-! ## A short payload and a long one -/

/-- The peer of the sample router, with its session. -/
def writingRouter : RouterState compact :=
  { sampleRouter 2 with
    sessions :=
      { (sampleRouter 2).sessions with
        sessions :=
          HandleTable.empty.insert (Bytes.replicate 32 64) peerSession } }

/-- It has a route. -/
def writingEnv : FrameEnv compact :=
  { sampleFrameEnv 30 31 70 with
    routing :=
      { (sampleFrameEnv 30 31 70).routing with
        lookup := fun _ => some (Bytes.replicate 32 9) } }

/-- The steps of a write until its frame is about to be sent. -/
def writeAlone (payload : List UInt8) :
    List (DispatchAction compact) :=
  .writeTo payload (Bytes.replicate 32 64) ::
    List.replicate 5 (.step 0 writingEnv)

/-- The frame of the write. -/
def writtenFrame (wire : List UInt8) : Traffic :=
  dataFrame compact (Bytes.replicate 32 2)
    (Bytes.replicate 32 64) (Bytes.replicate 32 70) none wire

theorem run_writeAlone
    (encrypted : (peerSession.encrypt 5 (padPayload payload)).1 = .ok wire) :
    (run dispatchStep (.start writingRouter) (writeAlone payload)).tasks =
      [.sending .writeTo (Bytes.replicate 32 9) (writtenFrame wire)] := by
  have content : writingRouter.sessions.sessions.deref 0 = some peerSession :=
    HandleTable.deref_insert_new _ _ _
  have established :
      writingRouter.sessions.isEstablished (Bytes.replicate 32 64) =
        true := by
    decide +kernel
  have fetched :
      writingRouter.sessions.getSession (Bytes.replicate 32 64) =
        some 0 :=
    HandleTable.handle_insert_self _ _ _
  have sealedAs :
      (peerSession.encrypt writingEnv.call.now (padPayload payload)).1 =
        .ok wire :=
    encrypted
  simp [writeAlone, dispatchStep, DispatchState.start, Task.step,
    established, fetched, content, Shared.table, sealedAs]
  rfl

theorem becomes_writtenFrame
    (encrypted : (peerSession.encrypt 5 (padPayload payload)).1 = .ok wire) :
    Becomes payload (Bytes.replicate 32 64)
      (.sending .writeTo (Bytes.replicate 32 9) (writtenFrame wire) : Task
        compact) := by
  have sending :
      Task.sending .writeTo (Bytes.replicate 32 9) (writtenFrame wire) ∈
        (run dispatchStep (.start writingRouter)
          (writeAlone payload)).tasks := by
    rw [run_writeAlone encrypted]
    exact List.mem_singleton_self _
  rcases becomes_of_sending writingRouter (writeAlone payload) sending
    with ⟨other, dst, written, sends⟩
  have same : other = payload ∧ dst = Bytes.replicate 32 64 := by
    simpa [writeAlone] using written
  rcases same with ⟨rfl, rfl⟩
  exact sends

/-- The session of the router that the peer writes to. -/
def answeredSession : SessionInfo compact :=
  { SessionInfo.new (P := compact) (Bytes.replicate 32 2)
      (Bytes.replicate 32 20) (Bytes.replicate 32 10) 5 with
    established := true
    pqShared := some (Bytes.replicate 32 21) }

/-- The router that the peer writes to. -/
def answeringRouter : RouterState compact :=
  { sampleRouter 64 with
    sessions :=
      { (sampleRouter 64).sessions with
        sessions :=
          HandleTable.empty.insert (Bytes.replicate 32 2) answeredSession } }

theorem peerSession_encrypts_any (payload : List UInt8) :
    (peerSession.encrypt 5 (padPayload payload)).1 =
      .ok
        (((peerSession.encrypt 5 (padPayload payload)).1.toOption).getD
        []) := by
  have key : peerSession.packetKey = Bytes.replicate 32 51 := by
    decide
  rcases compact_seals 51 10 (packetNonce 0) (padPayload payload) with
    ⟨tag, _, wrapped⟩
  rw [← key] at wrapped
  rcases SessionInfo.encrypt_of_sealed
      compact_dhFixed peerSession 5 wrapped with
    ⟨cache, encrypted⟩
  rw [encrypted]
  rfl

theorem answeringRouter_delivers
    (encrypted : (peerSession.encrypt 5 (padPayload payload)).1 = .ok wire) :
    (answeringRouter.handleTraffic (sampleFrameEnv 30 31 32)
        (Bytes.replicate 32 9) (writtenFrame wire)).2 =
      [.delivered 0 ⟨Bytes.replicate 32 2, payload.take maxPadded⟩] := by
  have touched (bytes : Nat) :
      answeringRouter.touchPeer (Bytes.replicate 32 9)
        (sampleFrameEnv 30 31 32).call.now bytes = answeringRouter :=
    rfl
  have ours : (writtenFrame wire).routingTag =
      routingTag compact answeringRouter.pubKey :=
    rfl
  have data : (writtenFrame wire).pktType = pktData := rfl
  have other : ¬ (writtenFrame wire).pktType = pktControl := by
    rw [data]
    decide
  have opened :
      decryptSourceFromHeader compact
        (writtenFrame []).encHeader answeringRouter.signingKey =
          some (Bytes.replicate 32 2) := by
    decide +kernel
  have sameHeader :
      (writtenFrame wire).encHeader = (writtenFrame []).encHeader :=
    rfl
  have found :
      answeringRouter.sessions.getSession (Bytes.replicate 32 2) =
        some 0 :=
    HandleTable.handle_insert_self _ _ _
  have content :
      answeringRouter.sessions.sessions.deref 0 = some answeredSession :=
    HandleTable.deref_insert_new _ _ _
  have crossed : peerSession.remoteX25519Pub = answeredSession.localX25519Pub :=
    rfl
  have agreed : peerSession.pqShared = answeredSession.pqShared := rfl
  have decrypted :
      (answeredSession.decrypt (sampleFrameEnv 30 31 32).call.now
        (writtenFrame wire).payload).1 = .ok (padPayload payload) :=
    decrypt_encrypt compact_dhCommutes compact_dhFixed
      compact_aeadCorrect crossed agreed
      (checkReplay_fresh 0) encrypted
  simp only [RouterState.handleTraffic, touched, if_pos ours,
    if_neg other, if_pos data, RouterState.handleData, sameHeader,
    opened, found, content, decrypted, unpadPayload_padPayload]
  rfl

/-- A payload of three bytes arrives. -/
theorem short_payload_delivered :
    ∃ (receiver : RouterState compact) (packet : InboundPacket),
      Event.delivered 0 packet ∈
          (receiver.handleTraffic (sampleFrameEnv 30 31 32)
            (Bytes.replicate 32 9) (writtenFrame peerWire)).2 ∧
        packet.payload = [1, 2, 3] := by
  have encrypted := peerSession_encrypts_any [1, 2, 3]
  have member :
      Event.delivered 0 ⟨Bytes.replicate 32 2, [1, 2, 3].take maxPadded⟩ ∈
        (answeringRouter.handleTraffic (sampleFrameEnv 30 31 32)
          (Bytes.replicate 32 9) (writtenFrame peerWire)).2 := by
    rw [peerWire, answeringRouter_delivers encrypted]
    exact List.mem_singleton_self _
  refine ⟨answeringRouter, _, member, ?_⟩
  exact
    ((written_payload_delivered_iff compact_dhFixed
      compact_aeadCorrect compact_aeadIdeal
      compact_aeadTags
      (becomes_writtenFrame encrypted)).2 _ _ _ 0 _ member).mpr
      (by decide)

/-- One byte more than the length field can count. -/
def longPayload : List UInt8 := List.replicate (maxPadded + 1) 7

/-- A write of a long payload is accepted, and a shorter one is delivered. -/
theorem long_payload_cut :
    ∃ (frame : Traffic) (receiver : RouterState compact)
      (packet : InboundPacket),
      (run dispatchStep (.start writingRouter)
          (writeAlone longPayload ++ [.step 0 writingEnv])).tasks =
          [.finished (.ok none)] ∧
        Event.sent (Bytes.replicate 32 9) frame ∈
          (run dispatchStep (.start writingRouter)
            (writeAlone longPayload ++ [.step 0 writingEnv])).events ∧
        Traffic.decode frame.encode.tail = .ok frame ∧
        Event.delivered 0 packet ∈
          (receiver.handleTraffic (sampleFrameEnv 30 31 32)
            (Bytes.replicate 32 9) frame).2 ∧
        packet.payload ≠ longPayload := by
  have encrypted := peerSession_encrypts_any longPayload
  generalize
    ((peerSession.encrypt 5 (padPayload longPayload)).1.toOption).getD
      [] = wire at encrypted
  have tasks := run_writeAlone encrypted
  have conveys :
      Conveys compact longPayload (Bytes.replicate 32 64)
        (writtenFrame wire) :=
    ⟨peerSession, 5, wire, _, _, _, encrypted, rfl⟩
  refine
    ⟨writtenFrame wire, answeringRouter,
      ⟨Bytes.replicate 32 2, longPayload.take maxPadded⟩, ?_, ?_, ?_, ?_,
      ?_⟩
  · rw [run_append, run_cons, run_nil]
    simp only [dispatchStep, tasks]
    rfl
  · rw [run_append, run_cons, run_nil]
    simp only [dispatchStep, tasks]
    exact List.mem_append_left _ (List.mem_singleton_self _)
  · exact
      Traffic.decode_encode
        (conveys.fits compact_dhFixed
          compact_aeadTags)
  · rw [answeringRouter_delivers encrypted]
    exact List.mem_singleton_self _
  · intro same
    have length := congrArg List.length same
    simp [longPayload] at length

end Norn.Router
