import Norn.Router.Dispatch

/-!
# Writes that outlive their check

A write checks that the session of its destination is established, lets go
of the lock, and fetches the session handle under a later lock.  In between
the session may have been removed and replaced by a pending one.

An established session stays established for whoever holds its handle.  So
as long as every write finds an established session when it fetches the
handle, if it finds one at all, no payload is encrypted on a pending session.
-/

namespace Norn.Router

open Foundation Foundation.Run Session RouterState

section StaleCheck

variable {P : Primitives}

variable {task : Task P} {before : SessionTable P} {shared : Shared P}
  {cell : Nat}

/-- The destination whose session handle the task is about to fetch. -/
def Task.seeks : Task P → Option (Bytes 32)
  | .dispatching _ _ dst => some dst
  | .batchLookup _ dst => some dst
  | _ => none

/-- The session the task holds a handle of. -/
def Task.held : Task P → Option Nat
  | .encrypting _ cell _ _ => some cell
  | .batchEncrypting cell _ _ _ _ => some cell
  | _ => none

@[simp]
theorem Caller.held_finish (caller : Caller)
    (result : Except WriteError (Option Nat)) :
    (caller.finish result : Task P).held = none := by
  cases caller <;> rfl

/-- The cell holds an established session. -/
def EstablishedAt (table : SessionTable P) (cell : Nat) : Prop :=
  ∃ info, table.deref cell = some info ∧ info.Established

/-- The session the task holds is established. -/
def Task.Secure (table : SessionTable P) (task : Task P) : Prop :=
  ∀ cell, task.held = some cell → EstablishedAt table cell

theorem Task.secure_of_held (free : task.held = none) (table : SessionTable P) :
    task.Secure table := by
  intro cell holds
  rw [free] at holds
  cases holds

theorem Task.Secure.keep {after : SessionTable P} (secure : task.Secure before)
    (keeps : HandleTable.Keeps SessionInfo.Established before after) :
    task.Secure after := by
  intro cell holds
  rcases secure cell holds with ⟨info, content, established⟩
  rcases keeps cell info content with ⟨later, found, kept⟩
  exact ⟨later, found, kept established⟩

/-- The outcome of a step that endangers nothing. -/
structure Outcome.Sound (before : SessionTable P) (outcome : Outcome P) :
    Prop where
  keeps : HandleTable.Keeps SessionInfo.Established before outcome.shared.table
  secure : outcome.task.Secure outcome.shared.table
  clean : ∀ entry ∈ outcome.encryptions, entry.session.Established

theorem Outcome.Sound.quiet {outcome : Outcome P}
    (keeps :
      HandleTable.Keeps SessionInfo.Established before outcome.shared.table)
    (free : outcome.task.held = none) (nothing : outcome.encryptions = []) :
    outcome.Sound before where
  keeps := keeps
  secure := Task.secure_of_held free _
  clean := by
    intro entry member
    rw [nothing] at member
    cases member

theorem Outcome.Sound.idle {outcome : Outcome P}
    (same : outcome.shared.table = before) (free : outcome.task.held = none)
    (nothing : outcome.encryptions = []) : outcome.Sound before := by
  refine .quiet ?_ free nothing
  rw [same]
  exact HandleTable.Keeps.refl _ _

theorem Outcome.Sound.fetch (established : EstablishedAt shared.table cell)
    (holds : task.held = some cell) :
    Outcome.Sound shared.table { shared, task } where
  keeps := HandleTable.Keeps.refl _ _
  secure := by
    intro other holdsOther
    cases holds.symm.trans holdsOther
    exact established
  clean := by
    intro entry member
    cases member

theorem Outcome.Sound.encrypts {next : SessionInfo P}
    {encryptions : List (Encryption P)} (kept : next.Established)
    (free : task.held = none)
    (clean : ∀ entry ∈ encryptions, entry.session.Established) :
    Outcome.Sound shared.table
      { shared := shared.setSession cell next, task, encryptions } where
  keeps := by
    apply HandleTable.evolves_update fun _ => id
    intro _ _ _
    exact kept
  secure := Task.secure_of_held free _
  clean := clean

theorem established_encryptAll (dst : Bytes 32) (cell : Nat)
    (now : Instant) (payloads : List (List UInt8)) :
    ∀ info : SessionInfo P, info.Established →
      (encryptAll dst cell now info payloads).2.1.Established ∧
        ∀ entry ∈ (encryptAll dst cell now info payloads).2.2,
          entry.session.Established := by
  induction payloads with
  | nil =>
    intro info established
    refine ⟨established, ?_⟩
    intro entry member
    cases member
  | cons payload rest induction =>
    intro info established
    have kept :=
      stable_established.encrypt info now (padPayload payload) established
    cases outcome : info.encrypt now (padPayload payload) with
    | mk result next =>
      rw [outcome] at kept
      cases result with
      | error failure =>
        simp only [encryptAll, outcome]
        refine ⟨kept, ?_⟩
        intro entry member
        rw [List.mem_singleton] at member
        rw [member]
        exact established
      | ok ciphertext =>
        rcases induction next kept with ⟨last, clean⟩
        simp only [encryptAll, outcome]
        refine ⟨last, ?_⟩
        intro entry member
        rcases List.mem_cons.mp member with first | later
        · rw [first]
          exact established
        · exact clean entry later

/-- The task finds an established session, if it is about to fetch one. -/
def Task.FindsEstablished (table : SessionTable P) (task : Task P) : Prop :=
  ∀ dst, task.seeks = some dst →
    ∀ info, table.peek dst = some info → info.established = true

theorem establishedAt_of_getSession {dst : Bytes 32}
    (finds :
      ∀ info, shared.table.peek dst = some info → info.established = true)
    (found : shared.router.sessions.getSession dst = some cell) :
    EstablishedAt shared.table cell := by
  rcases shared.table.deref_of_handle found with ⟨info, content⟩
  refine ⟨info, content, ?_⟩
  exact finds info ((HandleTable.peek_of_handle _ found).trans content)

theorem Task.sound_step (secure : task.Secure shared.table)
    (finds : task.FindsEstablished shared.table) (env : FrameEnv P) :
    (task.step shared env).Sound shared.table := by
  cases task with
  | writeTo payload dst =>
    simp only [Task.step]
    split_ifs
    · exact .idle rfl rfl rfl
    · exact .idle rfl rfl rfl
  | writeToBatch payloads dst =>
    simp only [Task.step]
    split_ifs
    · exact .idle rfl rfl rfl
    · exact .idle rfl rfl rfl
    · exact .idle rfl rfl rfl
  | initiating dst =>
    have keeps :=
      keeps_apply stable_established shared.router.sessions
        (.getOrInitiate env.call dst)
    simp only [Task.step]
    split_ifs
    · exact .quiet keeps rfl rfl
    · exact .quiet keeps rfl rfl
  | announcing dst initData => exact .idle rfl rfl rfl
  | submitting payload dst =>
    simp only [Task.step]
    split
    · exact .idle rfl rfl rfl
    · split
      · exact .idle rfl rfl rfl
      · exact .idle rfl rfl rfl
  | receiving idx =>
    simp only [Task.step]
    split
    · exact .idle rfl rfl rfl
    · exact .idle rfl rfl rfl
  | dispatching caller payload dst =>
    simp only [Task.step]
    split
    · exact .idle rfl (caller.held_finish _) rfl
    · next cell found =>
        exact .fetch (establishedAt_of_getSession (finds dst rfl) found) rfl
  | encrypting caller cell payload dst =>
    rcases secure cell rfl with ⟨info, content, established⟩
    have kept :=
      stable_established.encrypt info env.call.now (padPayload payload)
        established
    simp only [Task.step, content]
    refine .encrypts kept ?_ ?_
    · split
      · exact caller.held_finish _
      · rfl
    · intro entry member
      rw [List.mem_singleton] at member
      rw [member]
      exact established
  | routing caller ciphertext dst =>
    simp only [Task.step]
    split
    · exact .idle rfl (caller.held_finish _) rfl
    · exact .idle rfl rfl rfl
  | sending caller nextHop frame =>
    exact .idle rfl (caller.held_finish _) rfl
  | batchLookup payloads dst =>
    simp only [Task.step]
    split
    · exact .idle rfl rfl rfl
    · next cell found =>
        exact .fetch (establishedAt_of_getSession (finds dst rfl) found) rfl
  | batchEncrypting cell payloads dst epkPriv destCoord =>
    rcases secure cell rfl with ⟨info, content, established⟩
    rcases established_encryptAll dst cell env.call.now payloads info
        established with
      ⟨kept, clean⟩
    simp only [Task.step, content]
    refine .encrypts kept ?_ clean
    split
    · rfl
    · rfl
  | batchRouting frames dst =>
    simp only [Task.step]
    split
    · exact .idle rfl rfl rfl
    · exact .idle rfl rfl rfl
  | batchSending nextHop frames => exact .idle rfl rfl rfl
  | finished result => exact .idle rfl rfl rfl
  | stopped => exact .idle rfl rfl rfl

variable (router : RouterState P) (env : FrameEnv P)

theorem keeps_handleControl (payload : List UInt8) :
    HandleTable.Keeps SessionInfo.Established router.sessions.sessions
      (router.handleControl env payload).1.sessions.sessions := by
  unfold handleControl
  cases unpadPayload payload with
  | error failure => exact HandleTable.Keeps.refl _ _
  | ok raw =>
    simp only
    split_ifs
    · rw [sessions_handleInitFrame]
      exact keeps_apply stable_established _ (.handleInit env.call raw)
    · rw [sessions_handleAckFrame]
      exact keeps_apply stable_established _ (.handleAck env.call raw)
    · exact HandleTable.Keeps.refl _ _

theorem keeps_handleData (traffic : Traffic) :
    HandleTable.Keeps SessionInfo.Established router.sessions.sessions
      (router.handleData env traffic).1.sessions.sessions := by
  cases opened : decryptSourceFromHeader P traffic.encHeader
    router.signingKey with
  | none =>
    simp only [handleData, opened]
    exact HandleTable.Keeps.refl _ _
  | some source =>
    cases found : router.sessions.getSession source with
    | none =>
      simp only [handleData, opened, found]
      exact HandleTable.Keeps.refl _ _
    | some cell =>
      cases content : router.sessions.sessions.deref cell with
      | none =>
        simp only [handleData, opened, found, content]
        exact HandleTable.Keeps.refl _ _
      | some info =>
        have kept :
            HandleTable.Keeps SessionInfo.Established router.sessions.sessions
              (router.sessions.sessions.update cell fun _ =>
                (info.decrypt env.call.now traffic.payload).2) := by
          apply HandleTable.evolves_update fun _ => id
          intro value same established
          cases content.symm.trans same
          exact stable_established.decrypt info env.call.now traffic.payload
            established
        simp only [handleData, opened, found, content]
        split
        · exact kept
        · split
          · exact kept
          · unfold RouterState.push
            split_ifs
            · exact kept
            · exact kept

theorem keeps_handleTraffic (fromPeer : Bytes 32) (traffic : Traffic) :
    HandleTable.Keeps SessionInfo.Established router.sessions.sessions
      (router.handleTraffic env fromPeer traffic).1.sessions.sessions := by
  have touched :=
    router.sessions_touchPeer fromPeer env.call.now traffic.payload.length
  unfold handleTraffic
  simp only
  rw [← touched]
  split_ifs
  · exact keeps_handleControl _ env traffic.payload
  · exact keeps_handleData _ env traffic
  · exact HandleTable.Keeps.refl _ _
  · exact HandleTable.Keeps.refl _ _

/-! ## Every run -/

/-- Every write that fetches a session handle finds it established. -/
def DispatchState.FindsEstablished (state : DispatchState P) :
    DispatchAction P → Prop
  | .step task _ =>
    ∀ current, state.tasks[task]? = some current →
      current.FindsEstablished state.shared.table
  | _ => True

/-- Every held session is established, and so was every one used. -/
structure DispatchState.Sound (state : DispatchState P) : Prop where
  secure : ∀ task ∈ state.tasks, task.Secure state.shared.table
  clean : ∀ entry ∈ state.encryptions, entry.session.Established

theorem DispatchState.Sound.of_keeps {before : DispatchState P}
    (sound : before.Sound) {tasks : List (Task P)} {events : List Event}
    (keeps :
      HandleTable.Keeps SessionInfo.Established before.shared.table
        shared.table)
    (known : ∀ task ∈ tasks, task ∈ before.tasks ∨ task.held = none) :
    DispatchState.Sound
      { before with shared, tasks, events } where
  secure := by
    intro task member
    rcases known task member with old | free
    · exact (sound.secure task old).keep keeps
    · exact Task.secure_of_held free _
  clean := sound.clean

theorem DispatchState.Sound.task_step {state : DispatchState P}
    (sound : state.Sound) (task : Nat) (env : FrameEnv P)
    (finds : state.FindsEstablished (.step task env)) :
    (dispatchStep state (.step task env)).Sound := by
  cases current : state.tasks[task]? with
  | none =>
    simp only [dispatchStep, current]
    exact sound
  | some running =>
    have member : running ∈ state.tasks := List.mem_of_getElem? current
    have outcome :=
      Task.sound_step (sound.secure running member) (finds running current) env
    simp only [dispatchStep, current]
    constructor
    · intro other mem
      rcases List.mem_or_eq_of_mem_set mem with old | new
      · exact (sound.secure other old).keep outcome.keeps
      · rw [new]
        exact outcome.secure
    · intro entry mem
      rcases List.mem_append.mp mem with new | old
      · exact outcome.clean entry (List.mem_reverse.mp new)
      · exact sound.clean entry old

/-- A step that finds its sessions established keeps the tasks sound. -/
theorem DispatchState.Sound.step {state : DispatchState P}
    (sound : state.Sound) (action : DispatchAction P)
    (finds : state.FindsEstablished action) :
    (dispatchStep state action).Sound := by
  have same := HandleTable.Keeps.refl SessionInfo.Established state.shared.table
  have appended {new : List (Task P)} (free : ∀ task ∈ new, task.held = none) :
      ∀ task ∈ state.tasks ++ new, task ∈ state.tasks ∨ task.held = none := by
    intro task member
    exact (List.mem_append.mp member).imp id (free task)
  cases action with
  | enableCryptoPool workers =>
    simp only [dispatchStep, DispatchState.enableCryptoPool,
      DispatchState.installPool]
    split_ifs
    · exact sound
    · refine sound.of_keeps same (appended ?_)
      intro task member
      rcases List.mem_map.mp member with ⟨idx, _, shape⟩
      rw [← shape]
      rfl
  | writeTo payload dst =>
    refine sound.of_keeps same (appended ?_)
    intro task member
    rw [List.mem_singleton] at member
    rw [member]
    rfl
  | writeToBatch payloads dst =>
    refine sound.of_keeps same (appended ?_)
    intro task member
    rw [List.mem_singleton] at member
    rw [member]
    rfl
  | step task env => exact sound.task_step task env finds
  | shutdown task =>
    simp only [dispatchStep, DispatchState.shutdown]
    split
    · refine sound.of_keeps same ?_
      intro other member
      rcases List.mem_or_eq_of_mem_set member with old | new
      · exact Or.inl old
      · right
        rw [new]
        rfl
    · exact sound
  | removePeer peer =>
    refine sound.of_keeps ?_ fun task member => Or.inl member
    exact keeps_apply stable_established _ (.remove peer)
  | operate op =>
    refine sound.of_keeps ?_ fun task member => Or.inl member
    exact keeps_apply stable_established _ op
  | frame env fromPeer traffic =>
    refine sound.of_keeps ?_ fun task member => Or.inl member
    exact keeps_handleTraffic _ env fromPeer traffic

/--
As long as every write finds an established session when it fetches the
session handle, if it finds one at all, every payload is encrypted on an
established session.
-/
theorem payloads_encrypted_when_established (router : RouterState P)
    {actions : List (DispatchAction P)}
    (finds :
      Along dispatchStep DispatchState.FindsEstablished
        (.start router) actions) :
    ∀ entry ∈ (run dispatchStep (.start router) actions).encryptions,
      entry.session.established = true := by
  have initial : (DispatchState.start router).Sound := by
    constructor
    · intro task member
      cases member
    · intro entry member
      cases member
  have sound :=
    invariant_run
      (fun state action (held : DispatchState.Sound state) found =>
        held.step action found) initial finds
  exact sound.clean

instance (state : DispatchState P) : DecidablePred state.FindsEstablished
  | .step task _ =>
    inferInstanceAs
      (Decidable
        (∀ current, state.tasks[task]? = some current →
          ∀ dst, current.seeks = some dst →
            ∀ info, state.shared.table.peek dst = some info →
              info.established = true))
  | .enableCryptoPool _ | .writeTo _ _ | .writeToBatch _ _ | .shutdown _
  | .removePeer _ | .operate _ | .frame _ _ _ => isTrue trivial

/--
Between its check and its use of the session, the session is removed and
another task asks for a new one.
-/
def overtakenWrite (env : FrameEnv P) (payload : List UInt8)
    (dst : Bytes 32) : List (DispatchAction P) :=
  [.writeTo payload dst, .step 0 env, .operate (.remove dst),
    .operate (.getOrInitiate env.call dst), .step 0 env, .step 0 env,
    .step 0 env]

/-- The run of a write that nothing overtakes. -/
def plainWrite (env : FrameEnv P) (payload : List UInt8)
    (dst : Bytes 32) : List (DispatchAction P) :=
  [.writeTo payload dst, .step 0 env, .step 0 env, .step 0 env, .step 0 env]

end StaleCheck

/-- A sample node as a router. -/
def sampleNode (byte : UInt8) : RouterState Primitives.transparent where
  sessions := sampleManager byte
  peers := ∅
  coordTable := ∅
  trafficTx := []

/-- Surroundings of a step of the sample node. -/
def sampleStepEnv : FrameEnv Primitives.transparent where
  call := sampleSurroundings 30 31
  epkPriv := Bytes.replicate 32 32
  routing :=
    { canonicalCoord := id
      greedyNextHop := fun _ _ => none
      lookupByTagExcluding := fun _ _ => none
      lookup := fun _ => none
      convergenceActive := false }

/-- The sample node handles the Init of its peer. -/
def sampleHandshake : DispatchAction Primitives.transparent :=
  .operate (.handleInit (sampleSurroundings 20 21) (sampleInit 2 1).encode)

/--
A payload is encrypted on a pending session, under the all-zero placeholder
of the key of its peer and without a post-quantum secret.
-/
theorem payload_encrypted_on_pending_session :
    ∃ entry ∈
        (run dispatchStep (.start (sampleNode 1))
          (sampleHandshake ::
            overtakenWrite sampleStepEnv [1, 2, 3]
              (Bytes.replicate 32 2))).encryptions,
      entry.session.established = false ∧
        entry.session.remoteX25519Pub = Bytes.replicate 32 0 ∧
        entry.session.pqShared = none ∧
        ∃ wire, entry.result = .ok wire := by
  decide +kernel

/-- A write after the handshake that nothing overtakes. -/
theorem payload_encrypted_after_handshake :
    (run dispatchStep (.start (sampleNode 1))
          (sampleHandshake ::
            plainWrite sampleStepEnv [1, 2, 3]
              (Bytes.replicate 32 2))).encryptions ≠ [] ∧
      ∀ entry ∈
          (run dispatchStep (.start (sampleNode 1))
            (sampleHandshake ::
              plainWrite sampleStepEnv [1, 2, 3]
                (Bytes.replicate 32 2))).encryptions,
        entry.session.established = true := by
  have sample :
      Along dispatchStep DispatchState.FindsEstablished (.start (sampleNode 1))
          (sampleHandshake ::
            plainWrite sampleStepEnv [1, 2, 3] (Bytes.replicate 32 2)) ∧
        (run dispatchStep (.start (sampleNode 1))
          (sampleHandshake ::
            plainWrite sampleStepEnv [1, 2, 3]
              (Bytes.replicate 32 2))).encryptions.length = 1 := by
    decide +kernel
  refine ⟨?_, payloads_encrypted_when_established _ sample.1⟩
  intro empty
  rw [empty] at sample
  exact Nat.zero_ne_one sample.2

end Norn.Router
