import Norn.Router.Traffic

/-!
# Writing packets

`write_to` and `write_to_batch` run in tasks of the caller, and a crypto
worker runs in a task of its own.  Each takes the router lock several times
and lets go of it in between, so other tasks may act between two of its
steps.

`Task` says where a task stands between two steps, and `Task.step` performs
the next one: everything the code does under one acquisition of a lock.  The
outcome of a step records every call of `SessionInfo::encrypt` together with
the session as the call found it.
-/

namespace Norn.Router

open Foundation Session

/-- Why a write fails. -/
inductive WriteError where
  | notEstablished (dst : Bytes 32)
  | noRoute (dst : Bytes 32)
  | session (failure : SessionError)
  deriving DecidableEq

/-- `CryptoJob`. -/
structure CryptoJob where
  payload : List UInt8
  dst : Bytes 32
  deriving DecidableEq

/-- The capacity of the channel of a worker. -/
def cryptoQueueDepth : Nat := 8192

/-- The channel of a worker; it is closed once the worker has stopped. -/
structure CryptoQueue where
  jobs : List CryptoJob
  closed : Bool
  capacity : Nat := cryptoQueueDepth
  deriving DecidableEq

/-- `CryptoPool`. -/
structure CryptoPool where
  senders : List CryptoQueue
  deriving DecidableEq

namespace CryptoPool

/-- A pool whose channels have the given capacity. -/
def bounded (capacity workers : Nat) : CryptoPool where
  senders := List.replicate workers ⟨[], false, capacity⟩

/-- The worker a destination is hashed to. -/
def index (self : CryptoPool) (dst : Bytes 32) : Nat :=
  littleEndianValue (dst.toList.take 8) % self.senders.length

/-- `CryptoPool::try_submit`. -/
def trySubmit (self : CryptoPool) (payload : List UInt8)
    (dst : Bytes 32) : Bool × CryptoPool :=
  if self.senders.isEmpty then (false, self)
  else
    match self.senders[self.index dst]? with
    | none => (false, self)
    | some queue =>
      if queue.closed ∨ queue.capacity ≤ queue.jobs.length then
        (false, self)
      else
        (true,
          { senders :=
              self.senders.set (self.index dst)
                { queue with jobs := queue.jobs ++ [⟨payload, dst⟩] } })

/-- The job a worker takes from its channel. -/
def receive (self : CryptoPool) (idx : Nat) : Option (CryptoJob × CryptoPool) :=
  match self.senders[idx]? with
  | none => none
  | some queue =>
    match queue.jobs with
    | [] => none
    | job :: jobs =>
      some (job,
        { senders := self.senders.set idx { queue with jobs } })

/-- A worker that stops drops the receiving end of its channel. -/
def close (self : CryptoPool) (idx : Nat) : CryptoPool where
  senders :=
    self.senders.modify idx fun queue =>
      { queue with jobs := [], closed := true }

end CryptoPool

/-! ## Tasks -/

/-- Who runs `encrypt_and_dispatch`. -/
inductive Caller where
  | writeTo
  | worker (idx : Nat)
  deriving DecidableEq

/--
Where a task stands between two steps.  What a finished task returns is the
count of `write_to_batch`, or nothing for `write_to`.
-/
inductive Task (P : Primitives) where
  | writeTo (payload : List UInt8) (dst : Bytes 32)
  | writeToBatch (payloads : List (List UInt8)) (dst : Bytes 32)
  | initiating (dst : Bytes 32)
  | announcing (dst : Bytes 32) (initData : List UInt8)
  | submitting (payload : List UInt8) (dst : Bytes 32)
  | receiving (idx : Nat)
  | dispatching (caller : Caller) (payload : List UInt8) (dst : Bytes 32)
  | encrypting (caller : Caller) (cell : Nat) (payload : List UInt8)
      (dst : Bytes 32)
  | routing (caller : Caller) (ciphertext : List UInt8) (dst : Bytes 32)
  | sending (caller : Caller) (nextHop : Bytes 32) (frame : Traffic)
  | batchLookup (payloads : List (List UInt8)) (dst : Bytes 32)
  | batchEncrypting (cell : Nat) (payloads : List (List UInt8))
      (dst : Bytes 32) (epkPriv : P.StaticSecret)
      (destCoord : Option (Bytes 16))
  | batchRouting (frames : List Traffic) (dst : Bytes 32)
  | batchSending (nextHop : Bytes 32) (frames : List Traffic)
  | finished (result : Except WriteError (Option Nat))
  | stopped

section Dispatch

variable {P : Primitives}

/-- A worker drops a packet that fails and waits for the next job. -/
def Caller.finish (result : Except WriteError (Option Nat)) : Caller → Task P
  | .writeTo => .finished result
  | .worker idx => .receiving idx

/-- What the tasks share. -/
structure Shared (P : Primitives) where
  router : RouterState P
  cryptoPool : Option CryptoPool

namespace Shared

/-- The session table behind the locks. -/
def table (self : Shared P) : SessionTable P := self.router.sessions.sessions

/-- The shared state with another session manager. -/
def withSessions (self : Shared P) (sessions : SessionManager P) :
    Shared P :=
  { self with router := { self.router with sessions } }

/-- The shared state after a session has been updated under its lock. -/
def setSession (self : Shared P) (cell : Nat) (info : SessionInfo P) :
    Shared P :=
  self.withSessions
    { self.router.sessions with
      sessions := self.table.update cell fun _ => info }

end Shared

/-- A call of `SessionInfo::encrypt` for a payload of the user. -/
structure Encryption (P : Primitives) where
  dst : Bytes 32
  cell : Nat
  session : SessionInfo P
  payload : List UInt8
  result : Except SessionError (List UInt8)

/-- What a step of a task does. -/
structure Outcome (P : Primitives) where
  shared : Shared P
  task : Task P
  encryptions : List (Encryption P) := []
  events : List Event := []

/-- The loop of `write_to_batch`, under the lock of the session. -/
def encryptAll (dst : Bytes 32) (cell : Nat) (now : Instant) :
    SessionInfo P → List (List UInt8) →
      Except SessionError (List (List UInt8)) × SessionInfo P ×
        List (Encryption P)
  | info, [] => (.ok [], info, [])
  | info, payload :: rest =>
    let (result, next) := info.encrypt now (padPayload payload)
    let entry : Encryption P := ⟨dst, cell, info, payload, result⟩
    match result with
    | .error failure => (.error failure, next, [entry])
    | .ok ciphertext =>
      let (results, last, entries) := encryptAll dst cell now next rest
      (results.map (ciphertext :: ·), last, entry :: entries)

/--
The next step of a task: `PacketConn::write_to` and
`PacketConn::write_to_batch`, `encrypt_and_dispatch` and `crypto_worker`.
-/
def Task.step (shared : Shared P) (env : FrameEnv P) : Task P → Outcome P
  | .writeTo payload dst =>
    if shared.router.sessions.isEstablished dst then
      { shared, task := .submitting payload dst }
    else
      { shared, task := .initiating dst }
  | .writeToBatch payloads dst =>
    if payloads.isEmpty then
      { shared, task := .finished (.ok (some 0)) }
    else if shared.router.sessions.isEstablished dst then
      { shared, task := .batchLookup payloads dst }
    else
      { shared, task := .initiating dst }
  | .initiating dst =>
    let (initData, sessions) :=
      shared.router.sessions.getOrInitiateBytes env.call dst
    let initData := initData.getD []
    let shared := shared.withSessions sessions
    if initData.isEmpty then
      { shared, task := .finished (.error (.notEstablished dst)) }
    else
      { shared, task := .announcing dst initData }
  | .announcing dst initData =>
    { shared
      task := .finished (.error (.notEstablished dst))
      events := shared.router.sendTrafficTo env dst initData }
  | .submitting payload dst =>
    match shared.cryptoPool with
    | none => { shared, task := .dispatching .writeTo payload dst }
    | some pool =>
      match pool.trySubmit payload dst with
      | (true, pool) =>
        { shared := { shared with cryptoPool := some pool }
          task := .finished (.ok none) }
      | (false, _) =>
        { shared, task := .dispatching .writeTo payload dst }
  | .receiving idx =>
    match shared.cryptoPool.bind fun pool => pool.receive idx with
    | none => { shared, task := .receiving idx }
    | some (job, pool) =>
      { shared := { shared with cryptoPool := some pool }
        task := .dispatching (.worker idx) job.payload job.dst }
  | .dispatching caller payload dst =>
    match shared.router.sessions.getSession dst with
    | none =>
      { shared, task := caller.finish (.error (.notEstablished dst)) }
    | some cell =>
      { shared, task := .encrypting caller cell payload dst }
  | .encrypting caller cell payload dst =>
    match shared.table.deref cell with
    | none => { shared, task := .encrypting caller cell payload dst }
    | some info =>
      let (result, next) := info.encrypt env.call.now (padPayload payload)
      { shared := shared.setSession cell next
        task := match result with
          | .error failure =>
            caller.finish (.error (.session failure))
          | .ok ciphertext => .routing caller ciphertext dst
        encryptions := [⟨dst, cell, info, payload, result⟩] }
  | .routing caller ciphertext dst =>
    let destCoord := shared.router.coordTable.lookup dst
    match env.routing.lookup dst with
    | none => { shared, task := caller.finish (.error (.noRoute dst)) }
    | some nextHop =>
      { shared
        task :=
          .sending caller nextHop
            (dataFrame P shared.router.pubKey dst env.epkPriv
              destCoord ciphertext) }
  | .sending caller nextHop frame =>
    { shared
      task := caller.finish (.ok none)
      events := [.sent nextHop frame] }
  | .batchLookup payloads dst =>
    let destCoord := shared.router.coordTable.lookup dst
    match shared.router.sessions.getSession dst with
    | none =>
      { shared, task := .finished (.error (.notEstablished dst)) }
    | some cell =>
      { shared
        task := .batchEncrypting cell payloads dst env.epkPriv destCoord }
  | .batchEncrypting cell payloads dst epkPriv destCoord =>
    match shared.table.deref cell with
    | none =>
      { shared
        task := .batchEncrypting cell payloads dst epkPriv destCoord }
    | some info =>
      let (results, next, entries) :=
        encryptAll dst cell env.call.now info payloads
      { shared := shared.setSession cell next
        task := match results with
          | .error failure => .finished (.error (.session failure))
          | .ok ciphertexts =>
            .batchRouting
              (ciphertexts.map
                (dataFrame P shared.router.pubKey dst epkPriv destCoord))
              dst
        encryptions := entries }
  | .batchRouting frames dst =>
    match env.routing.lookup dst with
    | none => { shared, task := .finished (.error (.noRoute dst)) }
    | some nextHop => { shared, task := .batchSending nextHop frames }
  | .batchSending nextHop frames =>
    { shared
      task := .finished (.ok (some frames.length))
      events := frames.map (Event.sent nextHop) }
  | .finished result => { shared, task := .finished result }
  | .stopped => { shared, task := .stopped }

/-- What can happen in the system. -/
inductive DispatchAction (P : Primitives) where
  | enableCryptoPool (workers : Nat)
  | writeTo (payload : List UInt8) (dst : Bytes 32)
  | writeToBatch (payloads : List (List UInt8)) (dst : Bytes 32)
  | step (task : Nat) (env : FrameEnv P)
  | shutdown (task : Nat)
  | removePeer (peer : Bytes 32)
  | operate (op : ManagerOp P)
  | frame (env : FrameEnv P) (fromPeer : Bytes 32) (traffic : Traffic)

/-- The tasks, what they share and what they have done, latest first. -/
structure DispatchState (P : Primitives) where
  shared : Shared P
  tasks : List (Task P)
  encryptions : List (Encryption P)
  events : List Event

/--
A pool with channels of the given capacity is installed, unless there is one,
and its workers are spawned.
-/
def DispatchState.installPool (self : DispatchState P)
    (capacity workers : Nat) : DispatchState P :=
  if workers = 0 ∨ self.shared.cryptoPool.isSome then self
  else
    { self with
      shared :=
        { self.shared with
          cryptoPool := some (.bounded capacity workers) }
      tasks := self.tasks ++ (List.range workers).map Task.receiving }

/-- `PacketConn::enable_crypto_pool`. -/
def DispatchState.enableCryptoPool (self : DispatchState P)
    (workers : Nat) : DispatchState P :=
  self.installPool cryptoQueueDepth workers

/-- A waiting worker is told to stop. -/
def DispatchState.shutdown (self : DispatchState P) (task : Nat) :
    DispatchState P :=
  match self.tasks[task]? with
  | some (.receiving idx) =>
    { self with
      shared :=
        { self.shared with
          cryptoPool := self.shared.cryptoPool.map (·.close idx) }
      tasks := self.tasks.set task .stopped }
  | _ => self

/-- One step of the system. -/
def dispatchStep (state : DispatchState P) : DispatchAction P → DispatchState P
  | .enableCryptoPool workers => state.enableCryptoPool workers
  | .writeTo payload dst =>
    { state with tasks := state.tasks ++ [.writeTo payload dst] }
  | .writeToBatch payloads dst =>
    { state with tasks := state.tasks ++ [.writeToBatch payloads dst] }
  | .step task env =>
    match state.tasks[task]? with
    | none => state
    | some current =>
      let outcome := current.step state.shared env
      { shared := outcome.shared
        tasks := state.tasks.set task outcome.task
        encryptions := outcome.encryptions.reverse ++ state.encryptions
        events := outcome.events.reverse ++ state.events }
  | .shutdown task => state.shutdown task
  | .removePeer peer =>
    { state with
      shared :=
        { state.shared with
          router := state.shared.router.removePeer peer } }
  | .operate op =>
    { state with
      shared :=
        state.shared.withSessions (op.apply state.shared.router.sessions) }
  | .frame env fromPeer traffic =>
    let (router, events) :=
      state.shared.router.handleTraffic env fromPeer traffic
    { state with
      shared := { state.shared with router }
      events := events.reverse ++ state.events }

/-- The system before the first call. -/
def DispatchState.start (router : RouterState P) : DispatchState P where
  shared := ⟨router, none⟩
  tasks := []
  encryptions := []
  events := []

end Dispatch

end Norn.Router
