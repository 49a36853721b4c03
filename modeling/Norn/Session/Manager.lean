import Mathlib.Data.List.AList
import Norn.Session.Rotation
import Norn.Session.Wire

/-!
# The session manager

`SessionManager` of `session.rs`: the session table, the handshake handlers
with their rate limit and pinned post-quantum identities, retransmission of
pending Inits, and the ML-KEM key pair with its overlap window.

A call takes what it reads from its surroundings as one argument: the two
clocks, the iteration order of hash maps, and the random values it draws.
Every handler returns its result together with the manager it leaves behind,
also when it fails.
-/

namespace Norn.Session

open Foundation

/-- An order in which a hash map happens to visit its keys. -/
structure IterationOrder where
  arrange : List (Bytes 32) → List (Bytes 32)
  perm : ∀ keys, (arrange keys).Perm keys

/-- The order of insertion, latest first. -/
def IterationOrder.natural : IterationOrder := ⟨id, List.Perm.refl⟩

/-- What one call reads from its surroundings. -/
structure Surroundings (P : Primitives) where
  now : Instant
  nowMs : UInt64
  order : IterationOrder
  newPriv : P.StaticSecret
  seed : P.EncapsulationSeed

/-! ## The ML-KEM key pair -/

/-- `PqKeys`.  The advertised key belongs to the current private key. -/
structure PqKeys (P : Primitives) where
  dk : P.DecapsulationKey
  ekBytes : Bytes mlKemPubBytes
  advertised : ekBytes = P.encapsulationKey dk
  prevDk : Option P.DecapsulationKey
  rotatedAt : Instant

/-- `ML_KEM_KEY_ROTATION_MS`. -/
def mlKemKeyRotationMs : UInt64 := 24 * 60 * 60 * 1000

/-- `ML_KEM_KEY_OVERLAP_MS`. -/
def mlKemKeyOverlapMs : UInt64 := 60000

/-- Whole milliseconds between two instants, as a 64-bit word. -/
def elapsedMs (now since : Instant) : UInt64 :=
  UInt64.ofNat ((now - since) / 1000000)

/-- `u64::saturating_mul`. -/
def saturatingMul (left right : UInt64) : UInt64 :=
  UInt64.ofNat (min (left.toNat * right.toNat) (2 ^ 64 - 1))

/-- `effective_ml_kem_rotation_ms`, given the acceleration knob. -/
def effectiveMlKemRotationMs (accelerate : Option UInt64) : UInt64 :=
  match accelerate with
  | some secs => saturatingMul secs 1000
  | none => mlKemKeyRotationMs

/-- `effective_ml_kem_overlap_ms`, given the acceleration knob. -/
def effectiveMlKemOverlapMs (accelerate : Option UInt64) : UInt64 :=
  match accelerate with
  | some secs => max (saturatingMul secs 250) 1000
  | none => mlKemKeyOverlapMs

namespace PqKeys

variable {P : Primitives}

/-- `PqKeys::generate`, drawing `dk`. -/
def generate (dk : P.DecapsulationKey) (now : Instant) : PqKeys P where
  dk := dk
  ekBytes := P.encapsulationKey dk
  advertised := rfl
  prevDk := none
  rotatedAt := now

/-- `PqKeys::decap`. -/
def decap (self : PqKeys P) (ciphertext : Bytes mlKemCtBytes) : Bytes 32 :=
  P.decapsulate self.dk ciphertext

/-- `PqKeys::decap_prev`. -/
def decapPrev (self : PqKeys P) (ciphertext : Bytes mlKemCtBytes) :
    Option (Bytes 32) :=
  self.prevDk.map fun prev => P.decapsulate prev ciphertext

/-- `PqKeys::rotate_if_due`, drawing `newDk`. -/
def rotateIfDue (self : PqKeys P) (accelerate : Option UInt64)
    (now : Instant) (newDk : P.DecapsulationKey) : Bool × PqKeys P :=
  let elapsed := elapsedMs now self.rotatedAt
  let expired :=
    self.prevDk.isSome && decide (effectiveMlKemOverlapMs accelerate < elapsed)
  let self := if expired then { self with prevDk := none } else self
  if effectiveMlKemRotationMs accelerate < elapsed then
    (true,
      { dk := newDk
        ekBytes := P.encapsulationKey newDk
        advertised := rfl
        prevDk := some self.dk
        rotatedAt := now })
  else
    (expired, self)

end PqKeys

/-- `pq_encapsulate`, drawing `seed`. -/
def pqEncapsulate (P : Primitives) (ekBytes : Bytes mlKemPubBytes)
    (seed : P.EncapsulationSeed) :
    Except HandshakeError (Bytes mlKemCtBytes × Bytes 32) :=
  if P.isEncapsulationKey ekBytes then
    .ok (P.encapsulate ekBytes seed)
  else
    .error .invalidEncapsulationKey

/-! ## Rate limit and pins -/

/-- `INIT_RATE_WINDOW`: ten seconds. -/
def initRateWindow : Instant := 10 * 1000000000

/-- `MAX_INITS_PER_WINDOW`. -/
def maxInitsPerWindow : Nat := 4

/-- `MAX_INIT_RATE_LOG_ENTRIES`. -/
def maxInitRateLogEntries : Nat := 4096

/-- `MAX_PQ_PINS`. -/
def maxPqPins : Nat := 8192

/-- `init_rate_log`: recent attempts by claimed identity. -/
abbrev RateLog := AList fun _ : Bytes 32 => List Instant

/-- `pq_pins`: the ML-DSA key first seen for each identity. -/
abbrev PinTable := AList fun _ : Bytes 32 => Bytes mlDsaPubBytes

/-- The oldest instant that still counts against the rate limit. -/
def rateCutoff (now : Instant) : Instant :=
  if initRateWindow ≤ now then now - initRateWindow else now

/-- Make room in a full rate log, if an idle entry can be evicted. -/
def evictIdle (log : RateLog) (cutoff : Instant) (order : IterationOrder) :
    Option RateLog :=
  let idle := fun key =>
    ((log.lookup key).getD []).all fun attempt => attempt < cutoff
  ((order.arrange log.keys).find? idle).map fun victim => log.erase victim

/--
`SessionManager::rate_limited`: whether the source is over its limit, and the
log with the attempt recorded.
-/
def rateLimited (log : RateLog) (now : Instant) (order : IterationOrder)
    (source : Bytes 32) : Bool × RateLog :=
  let cutoff := rateCutoff now
  let room :=
    if (log.lookup source).isNone ∧ maxInitRateLogEntries ≤ log.keys.length then
      evictIdle log cutoff order
    else
      some log
  match room with
  | none => (true, log)
  | some log =>
    let entry :=
      ((log.lookup source).getD []).filter fun attempt =>
        cutoff ≤ attempt
    if maxInitsPerWindow ≤ entry.length then
      (true, log.insert source entry)
    else
      (false, log.insert source (entry ++ [now]))

/-- `SessionManager::pq_verify_and_pin`. -/
def pqVerifyAndPin (P : Primitives) (pins : PinTable)
    (order : IterationOrder) (edPub : Bytes 32)
    (mlDsaPub : Bytes mlDsaPubBytes) (signed : List UInt8)
    (signature : Bytes mlDsaSigBytes) : Except HandshakeError PinTable :=
  if (pins.lookup edPub).any fun pinned => pinned ≠ mlDsaPub then
    .error (.pinViolation edPub)
  else if !pqVerify P mlDsaPub signed signature then
    .error (.invalidMlDsaSignature edPub)
  else if (pins.lookup edPub).isSome then
    .ok pins
  else
    let pins :=
      if maxPqPins ≤ pins.keys.length then
        match (order.arrange pins.keys).head? with
        | some victim => pins.erase victim
        | none => pins
      else
        pins
    .ok (pins.insert edPub mlDsaPub)

/-! ## The manager -/

/-- `SessionManager`. -/
structure SessionManager (P : Primitives) where
  sessions : SessionTable P
  ourSigningKey : P.SigningKey
  pqKeys : PqKeys P
  initRateLog : RateLog
  ownCoord : Bytes 16
  pqSigner : PqSigner P
  pqPins : PinTable

/--
What a handshake message does to a session: the remote key and the
established flag are always written, the secret and its fallback only if
`adopt` holds.
-/
def SessionInfo.completeHandshake {P : Primitives} (self : SessionInfo P)
    (remoteX25519Pub : Bytes 32) (adopt : Bool) (pqShared : Bytes 32)
    (fallback : Option (Bytes 32)) : SessionInfo P :=
  { self with
    remoteX25519Pub := remoteX25519Pub
    established := true
    pqShared := if adopt then some pqShared else self.pqShared
    pqSharedFallback := if adopt then fallback else self.pqSharedFallback }

/--
The session table after a verified Init, and the X25519 key the Ack carries:
an existing session is updated in place, otherwise one is created with the
freshly drawn key.
-/
def acceptInit {P : Primitives} (sessions : SessionTable P)
    (ourPub : Bytes 32) (init : SessionInit) (pqShared : Bytes 32)
    (newPriv : P.StaticSecret) (now : Instant) :
    SessionTable P × Bytes 32 :=
  match sessions.peek init.edPub with
  | some existing =>
    let adopt := existing.pqShared.isNone || decide (init.edPub < ourPub)
    (sessions.modify init.edPub fun info =>
        info.completeHandshake init.x25519Pub adopt pqShared none,
      P.x25519Public existing.localX25519Priv)
  | none =>
    (sessions.insert init.edPub
        { SessionInfo.new init.edPub newPriv init.x25519Pub now with
          established := true
          pqShared := some pqShared },
      P.x25519Public newPriv)

/-- `HANDSHAKE_RETX_BASE_MS`. -/
def handshakeRetxBaseMs : UInt64 := 1000

/-- `HANDSHAKE_RETX_MAX_MS`. -/
def handshakeRetxMaxMs : UInt64 := 30000

/-- The backoff interval of a pending session. -/
def SessionInfo.retxInterval {P : Primitives} (self : SessionInfo P) :
    UInt64 :=
  min (handshakeRetxBaseMs <<< (min self.initRetxCount 5).toUInt64)
    handshakeRetxMaxMs

/-- The session is pending and its backoff interval has passed. -/
def SessionInfo.retxDue {P : Primitives} (self : SessionInfo P)
    (now : Instant) : Bool :=
  !self.established &&
    decide (self.retxInterval ≤ elapsedMs now self.lastInitSent)

/-- The session after its Init has been sent again. -/
def SessionInfo.markRetx {P : Primitives} (self : SessionInfo P)
    (now : Instant) : SessionInfo P :=
  { self with
    lastInitSent := now
    initRetxCount := if self.initRetxCount = 0xffffffff then self.initRetxCount
      else self.initRetxCount + 1 }

namespace SessionManager

variable {P : Primitives}

/-- `SessionManager::new`, drawing the two post-quantum keys. -/
def new (signingKey : P.SigningKey) (dk : P.DecapsulationKey)
    (signer : PqSigner P) (now : Instant) : SessionManager P where
  sessions := HandleTable.empty
  ourSigningKey := signingKey
  pqKeys := PqKeys.generate dk now
  initRateLog := ∅
  ownCoord := Bytes.replicate 16 0
  pqSigner := signer
  pqPins := ∅

/-- The Ed25519 identity of the node. -/
def ourPub (self : SessionManager P) : Bytes 32 :=
  P.verifyingKey self.ourSigningKey

/-- `SessionManager::maybe_rotate_pq_keys`. -/
def maybeRotatePqKeys (self : SessionManager P)
    (accelerate : Option UInt64) (now : Instant)
    (newDk : P.DecapsulationKey) : Bool × SessionManager P :=
  let (changed, pqKeys) := self.pqKeys.rotateIfDue accelerate now newDk
  (changed, { self with pqKeys })

/-- `SessionManager::handle_init`. -/
def handleInit (self : SessionManager P) (env : Surroundings P)
    (data : List UInt8) :
    Except HandshakeError (List UInt8) × SessionManager P :=
  match HandshakeMessage.decode .init data with
  | .error failure => (.error failure, self)
  | .ok init =>
    let (limited, initRateLog) :=
      rateLimited self.initRateLog env.now env.order init.edPub
    let self := { self with initRateLog }
    if limited then
      (.error (.rateLimited init.edPub), self)
    else
      match init.verify P self.ourPub env.nowMs with
      | .error failure => (.error failure, self)
      | .ok () =>
        match pqVerifyAndPin P self.pqPins env.order init.edPub
            init.mlDsaPub init.signedBytes init.mlDsaSig with
        | .error failure => (.error failure, self)
        | .ok pqPins =>
          let self := { self with pqPins }
          match pqEncapsulate P init.mlKem env.seed with
          | .error failure => (.error failure, self)
          | .ok (mlKemCt, pqShared) =>
            let (sessions, localPub) :=
              acceptInit self.sessions self.ourPub init pqShared
                env.newPriv env.now
            let ack : SessionAck :=
              .create self.ourSigningKey localPub init.edPub
                mlKemCt self.ownCoord self.pqSigner env.nowMs
            (.ok ack.encode, { self with sessions })

/-- `SessionManager::handle_ack`. -/
def handleAck (self : SessionManager P) (env : Surroundings P)
    (data : List UInt8) : Except HandshakeError Unit × SessionManager P :=
  match HandshakeMessage.decode .ack data with
  | .error failure => (.error failure, self)
  | .ok ack =>
    match ack.verify P self.ourPub env.nowMs with
    | .error failure => (.error failure, self)
    | .ok () =>
      match pqVerifyAndPin P self.pqPins env.order ack.edPub
          ack.mlDsaPub ack.signedBytes ack.mlDsaSig with
      | .error failure => (.error failure, self)
      | .ok pqPins =>
        let self := { self with pqPins }
        let pqShared := self.pqKeys.decap ack.mlKem
        let fallback := self.pqKeys.decapPrev ack.mlKem
        match self.sessions.peek ack.edPub with
        | none => (.error (.unsolicitedAck ack.edPub), self)
        | some existing =>
          let adopt :=
            existing.pqShared.isNone ||
              decide (self.ourPub < ack.edPub)
          (.ok (),
            { self with
              sessions :=
                self.sessions.modify ack.edPub fun info =>
                  info.completeHandshake ack.x25519Pub adopt
                    pqShared fallback })

/-- The Init a node sends for a session with the given local key. -/
def initFor (self : SessionManager P) (remoteEdPub localPub : Bytes 32)
    (nowMs : UInt64) : SessionInit :=
  .create self.ourSigningKey localPub remoteEdPub self.pqKeys.ekBytes
    self.ownCoord self.pqSigner nowMs

/-- `SessionManager::initiate`. -/
def initiate (self : SessionManager P) (env : Surroundings P)
    (remoteEdPub : Bytes 32) : List UInt8 × SessionManager P :=
  let info :=
    SessionInfo.new remoteEdPub env.newPriv (Bytes.replicate 32 0) env.now
  ((self.initFor remoteEdPub (P.x25519Public env.newPriv) env.nowMs).encode,
    { self with sessions := self.sessions.insert remoteEdPub info })

/-- `SessionManager::get_or_initiate_bytes`. -/
def getOrInitiateBytes (self : SessionManager P) (env : Surroundings P)
    (remoteEdPub : Bytes 32) : Option (List UInt8) × SessionManager P :=
  if (self.sessions.handle remoteEdPub).isSome then
    (none, self)
  else
    let (init, self) := self.initiate env remoteEdPub
    (some init, self)

/-- `SessionManager::get_session`. -/
def getSession (self : SessionManager P) (remoteEdPub : Bytes 32) :
    Option Nat :=
  self.sessions.handle remoteEdPub

/-- `SessionManager::is_established`. -/
def isEstablished (self : SessionManager P) (remoteEdPub : Bytes 32) :
    Bool :=
  ((self.sessions.peek remoteEdPub).map SessionInfo.established).getD false

/-- `SessionManager::remove`. -/
def remove (self : SessionManager P) (remoteEdPub : Bytes 32) :
    SessionManager P :=
  { self with sessions := self.sessions.erase remoteEdPub }

/-- Run a fallible operation on the session of an established peer. -/
def onSession (self : SessionManager P) (remoteEdPub : Bytes 32)
    (operate :
      SessionInfo P → Except SessionError (List UInt8) × SessionInfo P) :
    Except HandshakeError (List UInt8) × SessionManager P :=
  match self.sessions.peek remoteEdPub with
  | none => (.error .noSession, self)
  | some info =>
    if !info.established then
      (.error .notEstablished, self)
    else
      let (result, next) := operate info
      (result.mapError .session,
        { self with
          sessions := self.sessions.modify remoteEdPub fun _ => next })

/-- `SessionManager::encrypt`. -/
def encrypt (self : SessionManager P) (remoteEdPub : Bytes 32)
    (now : Instant) (plaintext : List UInt8) :
    Except HandshakeError (List UInt8) × SessionManager P :=
  self.onSession remoteEdPub fun info => info.encrypt now plaintext

/-- `SessionManager::decrypt`. -/
def decrypt (self : SessionManager P) (remoteEdPub : Bytes 32)
    (now : Instant) (ciphertext : List UInt8) :
    Except HandshakeError (List UInt8) × SessionManager P :=
  self.onSession remoteEdPub fun info => info.decrypt now ciphertext

/-- `SessionManager::pending_handshake_inits`. -/
def pendingHandshakeInits (self : SessionManager P) (now : Instant)
    (nowMs : UInt64) : List (Bytes 32 × List UInt8) × SessionManager P :=
  let out := self.sessions.slots.entries.filterMap fun entry =>
    match self.sessions.deref entry.2 with
    | none => none
    | some info =>
      if info.retxDue now then
        some (entry.1, (self.initFor entry.1 info.localX25519Pub nowMs).encode)
      else
        none
  (out,
    { self with
      sessions := self.sessions.updateAll fun _ info =>
        if info.retxDue now then info.markRetx now else info })

/-- `RouterState::cleanup_stale_sessions`, on the manager it locks. -/
def cleanupStaleSessions (self : SessionManager P) (now : Instant) :
    SessionManager P :=
  { self with
    sessions := self.sessions.retain fun info =>
      now - info.lastUsed < 300 * 1000000000 }

/-! ## What the handlers do -/

/-- The secret encapsulated when an Init is handled. -/
def drawnSecret (env : Surroundings P) (init : SessionInit) : Bytes 32 :=
  (P.encapsulate init.mlKem env.seed).2

/-- The session table after a verified Init. -/
def sessionsAfterInit (self : SessionManager P) (env : Surroundings P)
    (init : SessionInit) : SessionTable P :=
  (acceptInit self.sessions self.ourPub init (drawnSecret env init)
    env.newPriv env.now).1

/-- The Ack that answers a verified Init. -/
def ackFor (self : SessionManager P) (env : Surroundings P)
    (init : SessionInit) : SessionAck :=
  .create self.ourSigningKey
    (acceptInit self.sessions self.ourPub init (drawnSecret env init)
      env.newPriv env.now).2
    init.edPub (P.encapsulate init.mlKem env.seed).1 self.ownCoord
    self.pqSigner env.nowMs

/-- An Init passes every check of the handler. -/
structure AdmitsInit (manager : SessionManager P) (env : Surroundings P)
    (init : SessionInit) (log : RateLog) (pins : PinTable) : Prop where
  unlimited :
    rateLimited manager.initRateLog env.now env.order init.edPub = (false, log)
  verified : init.verify P manager.ourPub env.nowMs = .ok ()
  pinned :
    pqVerifyAndPin P manager.pqPins env.order init.edPub init.mlDsaPub
      init.signedBytes init.mlDsaSig = .ok pins
  encapsulable : P.isEncapsulationKey init.mlKem = true

/-- An Ack passes every check of the handler. -/
structure AdmitsAck (manager : SessionManager P) (env : Surroundings P)
    (ack : SessionAck) (pins : PinTable) (existing : SessionInfo P) :
    Prop where
  verified : ack.verify P manager.ourPub env.nowMs = .ok ()
  pinned :
    pqVerifyAndPin P manager.pqPins env.order ack.edPub ack.mlDsaPub
      ack.signedBytes ack.mlDsaSig = .ok pins
  pending : manager.sessions.peek ack.edPub = some existing

/-- Whether an Ack's secret replaces the one a session holds. -/
def adoptsAck (self : SessionManager P) (ack : SessionAck)
    (existing : SessionInfo P) : Bool :=
  existing.pqShared.isNone || decide (self.ourPub < ack.edPub)

/-- The session table after a verified Ack. -/
def sessionsAfterAck (self : SessionManager P) (ack : SessionAck)
    (existing : SessionInfo P) : SessionTable P :=
  self.sessions.modify ack.edPub fun info =>
    info.completeHandshake ack.x25519Pub (self.adoptsAck ack existing)
      (self.pqKeys.decap ack.mlKem) (self.pqKeys.decapPrev ack.mlKem)

theorem handleInit_of_admits {self : SessionManager P}
    {env : Surroundings P} {data : List UInt8} {init : SessionInit}
    {log : RateLog} {pins : PinTable}
    (decoded : HandshakeMessage.decode .init data = .ok init)
    (admits : self.AdmitsInit env init log pins) :
    self.handleInit env data =
      (.ok (self.ackFor env init).encode,
        { self with
          initRateLog := log
          pqPins := pins
          sessions := self.sessionsAfterInit env init }) := by
  have verified :
      init.verify P { self with initRateLog := log }.ourPub env.nowMs =
        .ok () :=
    admits.verified
  have encapsulated :
      pqEncapsulate P init.mlKem env.seed =
        .ok (P.encapsulate init.mlKem env.seed) :=
    if_pos admits.encapsulable
  simp only [handleInit, decoded, admits.unlimited, verified,
    admits.pinned, encapsulated, Bool.false_eq_true, if_false]
  rfl

theorem handleAck_of_admits {self : SessionManager P}
    {env : Surroundings P} {data : List UInt8} {ack : SessionAck}
    {pins : PinTable} {existing : SessionInfo P}
    (decoded : HandshakeMessage.decode .ack data = .ok ack)
    (admits : self.AdmitsAck env ack pins existing) :
    self.handleAck env data =
      (.ok (),
        { self with
          pqPins := pins
          sessions := self.sessionsAfterAck ack existing }) := by
  simp only [handleAck, decoded, admits.verified, admits.pinned, admits.pending]
  rfl

/-- The message passed its own checks and the pins now are `pins`. -/
structure Passes {kind : HandshakeKind}
    (manager : SessionManager P) (env : Surroundings P)
    (message : HandshakeMessage kind) (pins : PinTable) : Prop where
  verified : message.verify P manager.ourPub env.nowMs = .ok ()
  pinned :
    pqVerifyAndPin P manager.pqPins env.order message.edPub
      message.mlDsaPub message.signedBytes message.mlDsaSig = .ok pins

theorem AdmitsInit.passes {manager : SessionManager P} {env : Surroundings P}
    {init : SessionInit} {log : RateLog} {pins : PinTable}
    (admits : manager.AdmitsInit env init log pins) :
    manager.Passes env init pins :=
  ⟨admits.verified, admits.pinned⟩

theorem AdmitsAck.passes {manager : SessionManager P} {env : Surroundings P}
    {ack : SessionAck} {pins : PinTable} {existing : SessionInfo P}
    (admits : manager.AdmitsAck env ack pins existing) :
    manager.Passes env ack pins :=
  ⟨admits.verified, admits.pinned⟩

/-- The exits of `handle_init`, with the state each leaves behind. -/
inductive InitExit (manager : SessionManager P) (env : Surroundings P)
    (data : List UInt8) :
    Except HandshakeError (List UInt8) × SessionManager P → Prop where
  | refused (failure : HandshakeError) (log : RateLog)
      (early :
        ∀ init log pins,
          HandshakeMessage.decode .init data = .ok init →
            rateLimited manager.initRateLog env.now env.order
                init.edPub = (false, log) →
              ¬ manager.Passes env init pins) :
      InitExit manager env data
        (.error failure, { manager with initRateLog := log })
  | unanswerable (init : SessionInit) (log : RateLog) (pins : PinTable)
      (decoded : HandshakeMessage.decode .init data = .ok init)
      (unlimited :
        rateLimited manager.initRateLog env.now env.order init.edPub =
          (false, log))
      (passes : manager.Passes env init pins)
      (invalid : P.isEncapsulationKey init.mlKem = false) :
      InitExit manager env data
        (.error .invalidEncapsulationKey,
          { manager with initRateLog := log, pqPins := pins })
  | accepted (init : SessionInit) (log : RateLog) (pins : PinTable)
      (decoded : HandshakeMessage.decode .init data = .ok init)
      (admits : manager.AdmitsInit env init log pins) :
      InitExit manager env data
        (.ok (manager.ackFor env init).encode,
          { manager with
            initRateLog := log
            pqPins := pins
            sessions := manager.sessionsAfterInit env init })

/-- The exits of `handle_ack`, with the state each leaves behind. -/
inductive AckExit (manager : SessionManager P) (env : Surroundings P)
    (data : List UInt8) :
    Except HandshakeError Unit × SessionManager P → Prop where
  | refused (failure : HandshakeError)
      (early :
        ∀ ack pins,
          HandshakeMessage.decode .ack data = .ok ack →
            ¬ manager.Passes env ack pins) :
      AckExit manager env data (.error failure, manager)
  | unsolicited (ack : SessionAck) (pins : PinTable)
      (decoded : HandshakeMessage.decode .ack data = .ok ack)
      (passes : manager.Passes env ack pins)
      (unknown : manager.sessions.peek ack.edPub = none) :
      AckExit manager env data
        (.error (.unsolicitedAck ack.edPub),
          { manager with pqPins := pins })
  | accepted (ack : SessionAck) (pins : PinTable) (existing : SessionInfo P)
      (decoded : HandshakeMessage.decode .ack data = .ok ack)
      (admits : manager.AdmitsAck env ack pins existing) :
      AckExit manager env data
        (.ok (),
          { manager with
            pqPins := pins
            sessions := manager.sessionsAfterAck ack existing })

/-- Every call of `handle_init` takes one of the exits. -/
theorem initExit_handleInit (manager : SessionManager P)
    (env : Surroundings P) (data : List UInt8) :
    InitExit manager env data (manager.handleInit env data) := by
  cases decoded : HandshakeMessage.decode .init data with
  | error failure =>
    simp only [handleInit, decoded]
    refine .refused failure manager.initRateLog ?_
    intro init log pins other
    rw [decoded] at other
    cases other
  | ok init =>
    rcases limit : rateLimited manager.initRateLog env.now env.order
        init.edPub with
      ⟨limited, log⟩
    cases limited with
    | true =>
      simp only [handleInit, decoded, limit, if_true]
      refine .refused _ log ?_
      intro other otherLog pins same unlimited
      rw [decoded] at same
      cases same
      rw [limit] at unlimited
      cases unlimited
    | false =>
      cases verified :
          init.verify P { manager with initRateLog := log }.ourPub
            env.nowMs with
      | error failure =>
        simp only [handleInit, decoded, limit,
          verified, Bool.false_eq_true, if_false]
        refine .refused failure log ?_
        intro other otherLog pins same _ passes
        rw [decoded] at same
        cases same
        cases verified.symm.trans passes.verified
      | ok _ =>
        cases pinned :
            pqVerifyAndPin P manager.pqPins env.order init.edPub
              init.mlDsaPub init.signedBytes init.mlDsaSig with
        | error failure =>
          simp only [handleInit, decoded, limit,
            verified, pinned, Bool.false_eq_true, if_false]
          refine .refused failure log ?_
          intro other otherLog pins same _ passes
          rw [decoded] at same
          cases same
          cases pinned.symm.trans passes.pinned
        | ok pins =>
          cases valid : P.isEncapsulationKey init.mlKem with
          | true =>
            have admits : manager.AdmitsInit env init log pins :=
              ⟨limit, verified, pinned, valid⟩
            rw [handleInit_of_admits decoded admits]
            exact .accepted init log pins decoded admits
          | false =>
            simp only [handleInit, decoded, limit,
              verified, pinned, pqEncapsulate, valid,
              Bool.false_eq_true, if_false]
            exact .unanswerable init log pins decoded limit ⟨verified, pinned⟩
              valid

/-- Every call of `handle_ack` takes one of the exits. -/
theorem ackExit_handleAck (manager : SessionManager P) (env : Surroundings P)
    (data : List UInt8) :
    AckExit manager env data (manager.handleAck env data) := by
  cases decoded : HandshakeMessage.decode .ack data with
  | error failure =>
    simp only [handleAck, decoded]
    refine .refused failure ?_
    intro ack pins other
    rw [decoded] at other
    cases other
  | ok ack =>
    cases verified : ack.verify P manager.ourPub env.nowMs with
    | error failure =>
      simp only [handleAck, decoded, verified]
      refine .refused failure ?_
      intro other pins same passes
      rw [decoded] at same
      cases same
      cases verified.symm.trans passes.verified
    | ok _ =>
      cases pinned :
          pqVerifyAndPin P manager.pqPins env.order ack.edPub
            ack.mlDsaPub ack.signedBytes ack.mlDsaSig with
      | error failure =>
        simp only [handleAck, decoded, verified, pinned]
        refine .refused failure ?_
        intro other pins same passes
        rw [decoded] at same
        cases same
        cases pinned.symm.trans passes.pinned
      | ok pins =>
        cases found : manager.sessions.peek ack.edPub with
        | none =>
          simp only [handleAck, decoded, verified, pinned, found]
          exact .unsolicited ack pins decoded ⟨verified, pinned⟩ found
        | some existing =>
          have admits :
              manager.AdmitsAck env ack pins existing :=
            ⟨verified, pinned, found⟩
          rw [handleAck_of_admits decoded admits]
          exact .accepted ack pins existing decoded admits

variable (self : SessionManager P) (env : Surroundings P) (init : SessionInit)

/--
Everything `handle_init` can do: refuse, touching at most the rate log and
the pins, or admit the Init.
-/
theorem handleInit_cases (data : List UInt8) :
    (∃ failure log pins,
        self.handleInit env data =
          (.error failure,
            { self with initRateLog := log, pqPins := pins })) ∨
      ∃ init log pins,
        HandshakeMessage.decode .init data = .ok init ∧
          self.AdmitsInit env init log pins := by
  have exits := initExit_handleInit self env data
  generalize self.handleInit env data = result at exits ⊢
  cases exits with
  | refused failure log _ => exact Or.inl ⟨failure, log, self.pqPins, rfl⟩
  | unanswerable _ log pins => exact Or.inl ⟨_, log, pins, rfl⟩
  | accepted init log pins decoded admits =>
    exact Or.inr ⟨init, log, pins, decoded, admits⟩

/--
Everything `handle_ack` can do: refuse, touching at most the pins, or admit
the Ack.
-/
theorem handleAck_cases (data : List UInt8) :
    (∃ failure pins,
        self.handleAck env data =
          (.error failure, { self with pqPins := pins })) ∨
      ∃ ack pins existing,
        HandshakeMessage.decode .ack data = .ok ack ∧
          self.AdmitsAck env ack pins existing := by
  have exits := ackExit_handleAck self env data
  generalize self.handleAck env data = result at exits ⊢
  cases exits with
  | refused failure _ => exact Or.inl ⟨failure, self.pqPins, rfl⟩
  | unsolicited _ pins => exact Or.inl ⟨_, pins, rfl⟩
  | accepted ack pins existing decoded admits =>
    exact Or.inr ⟨ack, pins, existing, decoded, admits⟩

theorem peek_sessionsAfterInit_self :
    (self.sessionsAfterInit env init).peek init.edPub =
      some (match self.sessions.peek init.edPub with
        | some existing =>
          existing.completeHandshake init.x25519Pub
            (existing.pqShared.isNone ||
              decide (init.edPub < self.ourPub))
            (drawnSecret env init) none
        | none =>
          { SessionInfo.new init.edPub env.newPriv init.x25519Pub
              env.now with
            established := true
            pqShared := some (drawnSecret env init) }) := by
  simp only [sessionsAfterInit, acceptInit]
  cases found : self.sessions.peek init.edPub with
  | none => simp only [HandleTable.peek_insert_self]
  | some existing =>
    simp only [HandleTable.peek_modify_self, found, Option.map_some]

theorem peek_sessionsAfterAck_self {self : SessionManager P}
    {ack : SessionAck} {existing : SessionInfo P}
    (pending : self.sessions.peek ack.edPub = some existing) :
    (self.sessionsAfterAck ack existing).peek ack.edPub =
      some (existing.completeHandshake ack.x25519Pub
        (self.adoptsAck ack existing) (self.pqKeys.decap ack.mlKem)
        (self.pqKeys.decapPrev ack.mlKem)) := by
  simp only [sessionsAfterAck, HandleTable.peek_modify_self, pending,
    Option.map_some]

theorem peek_sessionsAfterAck_of_ne (ack : SessionAck)
    (existing : SessionInfo P) {other : Bytes 32}
    (distinct : other ≠ ack.edPub) :
    (self.sessionsAfterAck ack existing).peek other =
      self.sessions.peek other :=
  HandleTable.peek_modify_of_ne _ _ distinct

theorem x25519Pub_ackFor :
    ∀ info, (self.sessionsAfterInit env init).peek init.edPub = some info →
      (self.ackFor env init).x25519Pub = info.localX25519Pub := by
  intro info found
  rw [peek_sessionsAfterInit_self] at found
  cases found
  change (acceptInit _ _ _ _ _ _).2 = _
  cases existing : self.sessions.peek init.edPub with
  | none => simp only [acceptInit, existing, SessionInfo.new]
  | some session =>
    simp only [acceptInit, existing, SessionInfo.completeHandshake]
    exact session.publicHalf.symm

end SessionManager

end Norn.Session
