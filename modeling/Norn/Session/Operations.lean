import Norn.Session.Manager
import Norn.Session.ReplayWindow

/-!
# Runs of a session manager

A node drives its session manager through packets, handshake messages, local
initiations and maintenance.  `ManagerOp` lists these operations, and
`ManagerOp.apply` runs one of them.

`SessionMove` says what an operation may do to a session, and `TableMove`
what it may do to the table.  Most of what holds over a run is a property of
one session that every such move keeps, a `Stable` one; it survives every
operation that does not replace or drop the session.
-/

namespace Norn.Session

open Foundation Foundation.Run HandleTable SessionManager SessionInfo

/-- The operations of a session manager. -/
inductive ManagerOp (P : Primitives) where
  | encrypt (remote : Bytes 32) (now : Instant) (plaintext : List UInt8)
  | decrypt (remote : Bytes 32) (now : Instant) (ciphertext : List UInt8)
  | handleInit (env : Surroundings P) (data : List UInt8)
  | handleAck (env : Surroundings P) (data : List UInt8)
  | getOrInitiate (env : Surroundings P) (remote : Bytes 32)
  | initiate (env : Surroundings P) (remote : Bytes 32)
  | retransmit (now : Instant) (nowMs : UInt64)
  | rotateKeys (draw : Nat → P.StaticSecret)
  | rotatePqKeys (accelerate : Option UInt64) (now : Instant)
      (newDk : P.DecapsulationKey)
  | remove (remote : Bytes 32)
  | cleanup (now : Instant)

section Operations

variable {P : Primitives}

variable {remote : Bytes 32} {manager : SessionManager P}

/-- The manager after an operation. -/
def ManagerOp.apply (manager : SessionManager P) :
    ManagerOp P → SessionManager P
  | .encrypt remote now plaintext =>
    (manager.encrypt remote now plaintext).2
  | .decrypt remote now ciphertext =>
    (manager.decrypt remote now ciphertext).2
  | .handleInit env data => (manager.handleInit env data).2
  | .handleAck env data => (manager.handleAck env data).2
  | .getOrInitiate env remote => (manager.getOrInitiateBytes env remote).2
  | .initiate env remote => (manager.initiate env remote).2
  | .retransmit now nowMs => (manager.pendingHandshakeInits now nowMs).2
  | .rotateKeys draw =>
    { manager with sessions := rotateSessionKeys manager.sessions draw }
  | .rotatePqKeys accelerate now newDk =>
    (manager.maybeRotatePqKeys accelerate now newDk).2
  | .remove remote => manager.remove remote
  | .cleanup now => manager.cleanupStaleSessions now

/-- Packets, handshake messages and key maintenance: no session is lost. -/
def ManagerOp.Exchanges : ManagerOp P → Prop
  | .encrypt _ _ _ => True
  | .decrypt _ _ _ => True
  | .handleInit _ _ => True
  | .handleAck _ _ => True
  | .getOrInitiate _ _ => True
  | .initiate _ _ => False
  | .retransmit _ _ => True
  | .rotateKeys _ => True
  | .rotatePqKeys _ _ _ => True
  | .remove _ => False
  | .cleanup _ => False

/-- A property of a session that every update of a session keeps. -/
structure Stable (good : SessionInfo P → Prop) : Prop where
  encrypt :
    ∀ info now plaintext, good info → good (info.encrypt now plaintext).2
  decrypt :
    ∀ info now ciphertext, good info → good (info.decrypt now ciphertext).2
  complete :
    ∀ info remote adopt pqShared fallback,
      good info →
        good (completeHandshake info remote adopt pqShared fallback)
  retx : ∀ info now, good info → good (markRetx info now)
  rotate :
    ∀ info newPriv, good info → good (rotateLocalKey info newPriv)

/-- The manager holds a session for the key, with the given property. -/
def SessionManager.Holds (manager : SessionManager P) (key : Bytes 32)
    (good : SessionInfo P → Prop) : Prop :=
  ∃ info, manager.sessions.peek key = some info ∧ good info

variable {key : Bytes 32} {good : SessionInfo P → Prop}

theorem onSession_cases (manager : SessionManager P) (remote : Bytes 32)
    (operate :
      SessionInfo P → Except SessionError (List UInt8) × SessionInfo P) :
    (manager.onSession remote operate).2 = manager ∨
      ∃ info, manager.sessions.peek remote = some info ∧
        info.established = true ∧
        (manager.onSession remote operate).2 =
          { manager with
            sessions :=
              manager.sessions.modify remote fun _ => (operate info).2 } := by
  unfold SessionManager.onSession
  cases manager.sessions.peek remote with
  | none => exact Or.inl rfl
  | some info =>
    cases established : info.established with
    | false =>
      left
      simp only [established, Bool.not_false, if_true]
    | true =>
      right
      refine ⟨info, rfl, established, ?_⟩
      simp only [established, Bool.not_true, Bool.false_eq_true, if_false]

theorem onSession_eq_ok_iff
    {operate :
      SessionInfo P → Except SessionError (List UInt8) × SessionInfo P}
    {buf : List UInt8} :
    (manager.onSession remote operate).1 = .ok buf ↔
      manager.Holds remote fun info =>
        info.established = true ∧ (operate info).1 = .ok buf := by
  unfold SessionManager.onSession SessionManager.Holds
  cases manager.sessions.peek remote with
  | none => simp
  | some session =>
    cases established : session.established with
    | false => simp [established]
    | true =>
      cases outcome : (operate session).1 <;>
        simp [established, outcome]

/-- The operation handles no handshake message. -/
def ManagerOp.Local : ManagerOp P → Prop
  | .handleInit _ _ => False
  | .handleAck _ _ => False
  | _ => True

/-- What an operation may do to a session. -/
inductive SessionMove (op : ManagerOp P) (info : SessionInfo P) :
    SessionInfo P → Prop where
  | same : SessionMove op info info
  | encrypt (established : info.established = true) (now : Instant)
      (plaintext : List UInt8) :
      SessionMove op info (info.encrypt now plaintext).2
  | decrypt (established : info.established = true) (now : Instant)
      (ciphertext : List UInt8) :
      SessionMove op info (info.decrypt now ciphertext).2
  | complete (handshake : ¬ op.Local) (remote : Bytes 32) (adopt : Bool)
      (pqShared : Bytes 32) (fallback : Option (Bytes 32)) :
      SessionMove op info
        (info.completeHandshake remote adopt pqShared fallback)
  | retx (now : Instant) (nowMs : UInt64) (asked : op = .retransmit now nowMs) :
      SessionMove op info (info.markRetx now)
  | rotate (established : info.established = true)
      (newPriv : P.StaticSecret) :
      SessionMove op info (info.rotateLocalKey newPriv)

theorem Stable.move (stable : Stable good) {op : ManagerOp P}
    {info after : SessionInfo P} (move : SessionMove op info after)
    (property : good info) : good after := by
  cases move with
  | same => exact property
  | encrypt _ now plaintext => exact stable.encrypt info now plaintext property
  | decrypt _ now ciphertext =>
    exact stable.decrypt info now ciphertext property
  | complete _ remote adopt pqShared fallback =>
    exact stable.complete info remote adopt pqShared fallback property
  | retx now _ _ => exact stable.retx info now property
  | rotate _ newPriv => exact stable.rotate info newPriv property

/-- The session has completed a handshake and holds its secret. -/
def SessionInfo.Keyed (info : SessionInfo P) : Prop :=
  info.established = true ∧ info.pqShared ≠ none

/-- The session has completed a handshake. -/
def SessionInfo.Established (info : SessionInfo P) : Prop :=
  info.established = true

/-- The peer for which the operation sends the first Init of a session. -/
def ManagerOp.initiates (op : ManagerOp P) (manager : SessionManager P) :
    Option (Bytes 32) :=
  match op with
  | .initiate _ remote => some remote
  | .getOrInitiate _ remote =>
    if (manager.sessions.handle remote).isSome then none
    else some remote
  | _ => none

/-- What an operation does to the table of sessions. -/
inductive TableMove (manager : SessionManager P) (op : ManagerOp P) :
    HandleTable (Bytes 32) (SessionInfo P) → Prop where
  | updated {after : HandleTable (Bytes 32) (SessionInfo P)}
      (sameHandles : after.handle = manager.sessions.handle)
      (moves : Evolves (SessionMove op) manager.sessions after) :
      TableMove manager op after
  | opened (remote : Bytes 32) (fresh : SessionInfo P)
      (chosen : op.initiates manager = some remote)
      (pending : ¬ fresh.Established)
      (absent : op.Exchanges → manager.sessions.handle remote = none) :
      TableMove manager op (manager.sessions.insert remote fresh)
  | answered (remote : Bytes 32) (fresh : SessionInfo P)
      (handshake : ¬ op.Local) (keyed : fresh.Keyed)
      (absent : manager.sessions.handle remote = none) :
      TableMove manager op (manager.sessions.insert remote fresh)
  | dropped {after : HandleTable (Bytes 32) (SessionInfo P)}
      (loses : ¬ op.Exchanges)
      (sameCells : after.deref = manager.sessions.deref)
      (fewer :
        ∀ {key cell}, after.handle key = some cell →
          manager.sessions.handle key = some cell) :
      TableMove manager op after

theorem TableMove.same (manager : SessionManager P) (op : ManagerOp P) :
    TableMove manager op manager.sessions :=
  .updated rfl (Evolves.refl (fun _ => .same) _)

theorem TableMove.modify {op : ManagerOp P} (manager : SessionManager P)
    (remote : Bytes 32) {change : SessionInfo P → SessionInfo P}
    (moves :
      ∀ info, manager.sessions.peek remote = some info →
        SessionMove op info (change info)) :
    TableMove manager op (manager.sessions.modify remote change) :=
  .updated (funext fun _ => handle_modify _ _ _ _)
    (evolves_modify (fun _ => .same) _ _ moves)

theorem tableMove_onSession {op : ManagerOp P} (manager : SessionManager P)
    (remote : Bytes 32)
    {operate :
      SessionInfo P → Except SessionError (List UInt8) × SessionInfo P}
    (moves :
      ∀ info, info.established = true → SessionMove op info (operate info).2) :
    TableMove manager op (manager.onSession remote operate).2.sessions := by
  rcases onSession_cases manager remote operate with
    same | ⟨info, found, established, changed⟩
  · rw [same]
    exact .same manager op
  · rw [changed]
    refine .modify manager remote fun value present => ?_
    cases found.symm.trans present
    exact moves info established

/-- Every operation makes one of the moves. -/
theorem tableMove_apply (manager : SessionManager P) (op : ManagerOp P) :
    TableMove manager op (op.apply manager).sessions := by
  cases op with
  | encrypt remote now plaintext =>
    exact tableMove_onSession manager remote fun info established =>
      .encrypt established now plaintext
  | decrypt remote now ciphertext =>
    exact tableMove_onSession manager remote fun info established =>
      .decrypt established now ciphertext
  | handleInit env data =>
    simp only [ManagerOp.apply]
    rcases manager.handleInit_cases env data with
      ⟨failure, log, pins, refused⟩ | ⟨init, log, pins, decoded, admits⟩
    · rw [refused]
      exact .same manager _
    · rw [handleInit_of_admits decoded admits]
      simp only [sessionsAfterInit, acceptInit]
      cases known : manager.sessions.peek init.edPub with
      | none =>
        exact .answered _ _ id ⟨rfl, by simp⟩
          ((manager.sessions.peek_eq_none_iff _).mp known)
      | some existing =>
        exact .modify manager _ fun info _ => .complete id _ _ _ _
  | handleAck env data =>
    simp only [ManagerOp.apply]
    rcases manager.handleAck_cases env data with
      ⟨failure, pins, refused⟩ | ⟨ack, pins, existing, decoded, admits⟩
    · rw [refused]
      exact .same manager _
    · rw [handleAck_of_admits decoded admits]
      exact .modify manager _ fun info _ => .complete id _ _ _ _
  | getOrInitiate env remote =>
    simp only [ManagerOp.apply, getOrInitiateBytes]
    split_ifs with present
    · exact .same manager _
    · exact .opened remote _ (if_neg present) Bool.false_ne_true
        fun _ => by simpa using present
  | initiate env remote =>
    exact .opened remote _ rfl Bool.false_ne_true False.elim
  | retransmit now nowMs =>
    refine .updated rfl (evolves_updateAll (fun _ => .same) _ ?_)
    intro cell info
    split_ifs
    · exact .retx now nowMs rfl
    · exact .same
  | rotateKeys draw =>
    refine .updated rfl (evolves_updateAll (fun _ => .same) _ ?_)
    intro cell info
    unfold rotateIfDue
    split_ifs with due
    · simp only [rotationDue, Bool.and_eq_true] at due
      exact .rotate due.1.1 (draw cell)
    · exact .same
  | rotatePqKeys accelerate now newDk => exact .same manager _
  | remove remote => exact .dropped id rfl (handle_of_handle_erase _)
  | cleanup now => exact .dropped id rfl (handle_of_handle_retain _)

/-- What an operation does to each session, whoever has a handle to it. -/
theorem moves_apply (manager : SessionManager P) (op : ManagerOp P) :
    Evolves (SessionMove op) manager.sessions (op.apply manager).sessions := by
  have move := tableMove_apply manager op
  generalize (op.apply manager).sessions = after at move ⊢
  cases move with
  | updated _ moves => exact moves
  | opened => exact evolves_insert (fun _ => .same) _ _ _
  | answered => exact evolves_insert (fun _ => .same) _ _ _
  | dropped _ sameCells _ =>
    intro cell info content
    exact ⟨info, by rw [sameCells, content], .same⟩

theorem keeps_apply (stable : Stable good) (manager : SessionManager P)
    (op : ManagerOp P) :
    HandleTable.Keeps good manager.sessions (op.apply manager).sessions :=
  (moves_apply manager op).mono fun _ _ move => stable.move move

/-- An exchange leaves the handles alone. -/
theorem handle_apply {op : ManagerOp P} (exchanges : op.Exchanges) {cell : Nat}
    (found : manager.sessions.handle key = some cell) :
    (op.apply manager).sessions.handle key = some cell := by
  have move := tableMove_apply manager op
  generalize (op.apply manager).sessions = after at move ⊢
  cases move with
  | updated sameHandles _ => rwa [sameHandles]
  | opened _ _ _ _ absent =>
    exact handle_insert_of_absent _ (absent exchanges) found
  | answered _ _ _ _ absent => exact handle_insert_of_absent _ absent found
  | dropped loses _ _ => exact absurd exchanges loses

/-- What an exchange does to the session of a peer. -/
theorem move_apply {op : ManagerOp P} (exchanges : op.Exchanges)
    {info : SessionInfo P} (held : manager.sessions.peek key = some info) :
    ∃ after, (op.apply manager).sessions.peek key = some after ∧
      SessionMove op info after := by
  rcases (manager.sessions.peek_eq_some_iff key info).mp held with
    ⟨cell, found, content⟩
  rcases moves_apply manager op cell info content with ⟨after, stored, move⟩
  refine ⟨after, ?_, move⟩
  exact ((op.apply manager).sessions.peek_eq_some_iff key after).mpr
    ⟨cell, handle_apply exchanges found, stored⟩

theorem holds_apply (stable : Stable good) (manager : SessionManager P)
    (op : ManagerOp P) (holds : manager.Holds key good)
    (exchanges : op.Exchanges) :
    (op.apply manager).Holds key good := by
  rcases holds with ⟨info, held, property⟩
  rcases move_apply exchanges held with ⟨after, found, move⟩
  exact ⟨after, found, stable.move move property⟩

/-- Without a handshake message, identity, pins and rate log stay. -/
theorem rest_apply (manager : SessionManager P) {op : ManagerOp P}
    (quiet : op.Local) :
    ∃ sessions pqKeys,
      op.apply manager =
        { manager with sessions := sessions, pqKeys := pqKeys } := by
  have onSession (remote : Bytes 32)
      (operate :
        SessionInfo P → Except SessionError (List UInt8) × SessionInfo P) :
      ∃ sessions pqKeys,
        (manager.onSession remote operate).2 =
          { manager with sessions := sessions, pqKeys := pqKeys } := by
    rcases onSession_cases manager remote operate with
      same | ⟨info, _, _, changed⟩
    · exact ⟨_, _, same⟩
    · exact ⟨_, _, changed⟩
  cases op with
  | encrypt remote now plaintext => exact onSession remote _
  | decrypt remote now ciphertext => exact onSession remote _
  | handleInit env data => exact quiet.elim
  | handleAck env data => exact quiet.elim
  | getOrInitiate env remote =>
    simp only [ManagerOp.apply, getOrInitiateBytes]
    split_ifs
    · exact ⟨_, _, rfl⟩
    · exact ⟨_, _, rfl⟩
  | _ => exact ⟨_, _, rfl⟩

theorem ourSigningKey_apply (manager : SessionManager P) (op : ManagerOp P) :
    (op.apply manager).ourSigningKey = manager.ourSigningKey := by
  by_cases quiet : op.Local
  · rcases rest_apply manager quiet with ⟨sessions, pqKeys, after⟩
    rw [after]
  cases op with
  | handleInit env data =>
    simp only [ManagerOp.apply]
    rcases manager.handleInit_cases env data with
      ⟨failure, log, pins, refused⟩ | ⟨init, log, pins, decoded, admits⟩
    · rw [refused]
    · rw [handleInit_of_admits decoded admits]
  | handleAck env data =>
    simp only [ManagerOp.apply]
    rcases manager.handleAck_cases env data with
      ⟨failure, pins, refused⟩ | ⟨ack, pins, existing, decoded, admits⟩
    · rw [refused]
    · rw [handleAck_of_admits decoded admits]
  | _ => exact absurd trivial quiet

theorem ourPub_run (manager : SessionManager P) (ops : List (ManagerOp P)) :
    (run ManagerOp.apply manager ops).ourPub = manager.ourPub := by
  induction ops generalizing manager with
  | nil => rfl
  | cons op rest induction =>
    rw [run_cons, induction]
    unfold ourPub
    rw [ourSigningKey_apply]

theorem SessionInfo.decrypt_handshake (info : SessionInfo P)
    (now : Instant) (ciphertext : List UInt8) :
    (info.decrypt now ciphertext).2.established = info.established ∧
      ((info.decrypt now ciphertext).2.pqShared = info.pqShared ∨
        (info.decrypt now ciphertext).2.pqShared ≠ none) := by
  rcases info.decrypt_cases now ciphertext with
    ⟨failure, cache, refused, _⟩ |
      ⟨buf, packet, pqShared, high, window, accepts⟩
  · rw [refused]
    exact ⟨rfl, Or.inl rfl⟩
  · rcases accepts.result with ⟨cache, result⟩
    rw [result]
    refine ⟨rfl, ?_⟩
    change pqShared = info.pqShared ∨ pqShared ≠ none
    rcases (openPayload_cases accepts.opened).1 with
      primary | ⟨fallback, present⟩
    · exact Or.inl primary
    · rw [fallback]
      exact Or.inr present

theorem stable_keyed : Stable (SessionInfo.Keyed (P := P)) where
  encrypt := by
    rintro info now plaintext ⟨established, secret⟩
    rcases info.encrypt_snd now plaintext with ⟨cache, seq, used, after⟩
    rw [after]
    exact ⟨established, secret⟩
  decrypt := by
    rintro info now ciphertext ⟨established, secret⟩
    rcases info.decrypt_handshake now ciphertext with ⟨kept, same | some⟩
    · exact ⟨kept.trans established, by rwa [same]⟩
    · exact ⟨kept.trans established, some⟩
  complete := by
    rintro info remote adopt pqShared fallback ⟨established, secret⟩
    refine ⟨rfl, ?_⟩
    cases adopt with
    | true => simp [completeHandshake]
    | false => simpa [completeHandshake] using secret
  retx := by
    rintro info now keyed
    exact keyed
  rotate := by
    rintro info newPriv keyed
    exact keyed

theorem stable_established : Stable (SessionInfo.Established (P := P)) where
  encrypt := by
    intro info now plaintext established
    exact (info.established_encrypt now plaintext).trans established
  decrypt := by
    intro info now ciphertext established
    exact (info.decrypt_handshake now ciphertext).1.trans established
  complete := by
    intro info remote adopt pqShared fallback _
    rfl
  retx := by
    intro info now established
    exact established
  rotate := by
    intro info newPriv established
    exact established

/--
A session that a key leads to after an operation was there before, or it has
just been opened by this node or by an Init.
-/
theorem origin_apply {op : ManagerOp P} {cell : Nat} {info : SessionInfo P}
    (found : (op.apply manager).sessions.handle key = some cell)
    (content : (op.apply manager).sessions.deref cell = some info) :
    (manager.sessions.handle key = some cell ∧
        ∃ earlier, manager.sessions.deref cell = some earlier ∧
          SessionMove op earlier info) ∨
      (op.initiates manager = some key ∧ ¬ info.Established) ∨
      (¬ op.Local ∧ info.Keyed) := by
  by_cases before : manager.sessions.handle key = some cell
  · rcases manager.sessions.deref_of_handle before with ⟨earlier, stored⟩
    rcases moves_apply manager op cell earlier stored with ⟨later, same, move⟩
    cases same.symm.trans content
    exact Or.inl ⟨before, earlier, stored, move⟩
  right
  have move := tableMove_apply manager op
  generalize (op.apply manager).sessions = after at move found content
  cases move with
  | updated sameHandles _ =>
    rw [sameHandles] at found
    exact absurd found before
  | opened remote fresh chosen pending _ =>
    rcases inserted_of_handle before found content with ⟨rfl, rfl⟩
    exact Or.inl ⟨chosen, pending⟩
  | answered remote fresh handshake keyed _ =>
    rcases inserted_of_handle before found content with ⟨rfl, rfl⟩
    exact Or.inr ⟨handshake, keyed⟩
  | dropped _ _ fewer => exact absurd (fewer found) before

theorem reflectsAt_apply (manager : SessionManager P) {op : ManagerOp P}
    (quiet : op.Local) (key : Bytes 32) :
    HandleTable.ReflectsAt SessionInfo.Established key manager.sessions
      (op.apply manager).sessions := by
  intro cell later found content established
  rcases origin_apply found content with
    ⟨before, earlier, stored, move⟩ | ⟨_, pending⟩ | ⟨handshake, _⟩
  · refine ⟨before, earlier, stored, ?_⟩
    cases move with
    | same => exact established
    | encrypt before => exact before
    | decrypt before => exact before
    | complete handshake => exact absurd quiet handshake
    | retx => exact established
    | rotate before => exact before
  · exact absurd established pending
  · exact absurd quiet handshake

theorem reflectsAt_sessionsAfterInit (manager : SessionManager P)
    (env : Surroundings P) (init : SessionInit)
    (distinct : key ≠ init.edPub) :
    HandleTable.ReflectsAt good key manager.sessions
      (manager.sessionsAfterInit env init) := by
  simp only [sessionsAfterInit, acceptInit]
  cases manager.sessions.peek init.edPub with
  | none => exact reflectsAt_insert_of_ne _ _ distinct
  | some existing => exact reflectsAt_modify_of_ne _ _ distinct

theorem reflectsAt_sessionsAfterAck (manager : SessionManager P)
    (ack : SessionAck) (existing : SessionInfo P)
    (distinct : key ≠ ack.edPub) :
    HandleTable.ReflectsAt good key manager.sessions
      (manager.sessionsAfterAck ack existing) :=
  reflectsAt_modify_of_ne _ _ distinct

end Operations

/-- A node with no sessions, all of whose keys derive from one byte. -/
def sampleManager (byte : UInt8) : SessionManager Primitives.transparent :=
  SessionManager.new (P := Primitives.transparent)
    (Bytes.replicate 32 byte) (Bytes.replicate 32 (byte + 100))
    (PqSigner.ofKey (P := Primitives.transparent)
      (Bytes.replicate 32 (byte + 50))) 0

/-- Surroundings in which a call draws the given two bytes. -/
def sampleSurroundings (priv seed : UInt8) :
    Surroundings Primitives.transparent where
  now := 5
  nowMs := 1000
  order := IterationOrder.natural
  newPriv := Bytes.replicate 32 priv
  seed := Bytes.replicate 32 seed

end Norn.Session
