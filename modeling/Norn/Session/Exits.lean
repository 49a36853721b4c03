import Norn.Session.Honest

/-!
# Exits of the handshake handlers

`handle_init` and `handle_ack` check a message in stages and change the
manager between them: the rate log is charged first, and
`pq_verify_and_pin` pins the ML-DSA key of a new identity before the last
checks.

A failed call leaves everything but the rate log as it was, except on one
kind of input, which is characterised here: the message of an identity that
was not pinned before and whose handling fails after it has been pinned.
-/

namespace Norn.Session

open Foundation SessionManager

section Exits

variable {P : Primitives}

variable {after before : PinTable} {edPub : Bytes 32}
  {mlDsaPub : Bytes mlDsaPubBytes} {manager : SessionManager P}
  {env : Surroundings P}

/-- `after` is `before` with a new pin, in the place of another if full. -/
def AddsPin (before : PinTable) (edPub : Bytes 32)
    (mlDsaPub : Bytes mlDsaPubBytes) (after : PinTable) : Prop :=
  ∃ kept : PinTable,
    (kept = before ∨
      maxPqPins ≤ before.keys.length ∧ ∃ victim, kept = before.erase victim) ∧
      after = kept.insert edPub mlDsaPub

theorem pqVerifyAndPin_eq_ok {pins : PinTable} {order : IterationOrder}
    {signed : List UInt8} {signature : Bytes mlDsaSigBytes}
    (accepted :
      pqVerifyAndPin P pins order edPub mlDsaPub signed signature = .ok after) :
    pqVerify P mlDsaPub signed signature = true ∧
      (pins.lookup edPub = some mlDsaPub ∧ after = pins ∨
        pins.lookup edPub = none ∧ AddsPin pins edPub mlDsaPub after) := by
  cases verified : pqVerify P mlDsaPub signed signature with
  | false =>
    simp only [pqVerifyAndPin, verified, Bool.not_false, if_true] at accepted
    split_ifs at accepted
  | true =>
    refine ⟨rfl, ?_⟩
    cases found : pins.lookup edPub with
    | some pinned =>
      by_cases same : pinned = mlDsaPub
      · subst pinned
        simp [pqVerifyAndPin, found, verified] at accepted
        exact Or.inl ⟨rfl, accepted.symm⟩
      · simp [pqVerifyAndPin, found, same] at accepted
    | none =>
      right
      refine ⟨rfl, ?_⟩
      simp only [pqVerifyAndPin, found, verified, Option.any_none,
        Option.isSome_none, Bool.not_true, Bool.false_eq_true,
        if_false] at accepted
      cases accepted
      refine ⟨_, ?_, rfl⟩
      by_cases full : maxPqPins ≤ pins.keys.length
      · rw [if_pos full]
        cases (order.arrange pins.keys).head? with
        | none => exact Or.inl rfl
        | some victim => exact Or.inr ⟨full, victim, rfl⟩
      · exact Or.inl (if_neg full)

theorem AddsPin.lookup_self (adds : AddsPin before edPub mlDsaPub after) :
    after.lookup edPub = some mlDsaPub := by
  rcases adds with ⟨kept, _, rfl⟩
  exact AList.lookup_insert kept

theorem AddsPin.origin (adds : AddsPin before edPub mlDsaPub after)
    {id : Bytes 32} {key : Bytes mlDsaPubBytes}
    (found : after.lookup id = some key) :
    (id = edPub ∧ key = mlDsaPub) ∨ before.lookup id = some key := by
  rcases adds with ⟨kept, source, rfl⟩
  by_cases same : id = edPub
  · subst same
    rw [AList.lookup_insert] at found
    exact Or.inl ⟨rfl, (Option.some.inj found).symm⟩
  · rw [AList.lookup_insert_ne same] at found
    right
    rcases source with rfl | ⟨_, victim, rfl⟩
    · exact found
    · by_cases erased : id = victim
      · subst erased
        rw [AList.lookup_erase] at found
        cases found
      · rwa [AList.lookup_erase_ne erased] at found

theorem AddsPin.lookup_of_room (adds : AddsPin before edPub mlDsaPub after)
    (room : before.keys.length < maxPqPins) {id : Bytes 32}
    (distinct : id ≠ edPub) :
    after.lookup id = before.lookup id := by
  rcases adds with ⟨kept, rfl | ⟨full, _⟩, rfl⟩
  · exact AList.lookup_insert_ne distinct
  · exact absurd full (Nat.not_le.mpr room)

/-! ## What a failed handshake message leaves behind -/

theorem apply_handleInit (manager : SessionManager P) (env : Surroundings P)
    (data : List UInt8) :
    (ManagerOp.handleInit env data).apply manager =
      (manager.handleInit env data).2 :=
  rfl

/-- A failed call leaves everything as it was, except for the rate log. -/
def FailsAtomically {Result : Type} (before : SessionManager P)
    (outcome : Except HandshakeError Result × SessionManager P) : Prop :=
  ∀ failure, outcome.1 = .error failure →
    outcome.2 = { before with initRateLog := outcome.2.initRateLog }

/-- An admissible Init of an unpinned identity that cannot be answered. -/
def StrandsInit (manager : SessionManager P) (env : Surroundings P)
    (data : List UInt8) : Prop :=
  ∃ init,
    HandshakeMessage.decode .init data = .ok init ∧
      (rateLimited manager.initRateLog env.now env.order init.edPub).1 = false ∧
      init.verify P manager.ourPub env.nowMs = .ok () ∧
      pqVerify P init.mlDsaPub init.signedBytes init.mlDsaSig = true ∧
      manager.pqPins.lookup init.edPub = none ∧
      P.isEncapsulationKey init.mlKem = false

/-- An admissible Ack of an unpinned identity without a session. -/
def StrandsAck (manager : SessionManager P) (env : Surroundings P)
    (data : List UInt8) : Prop :=
  ∃ ack,
    HandshakeMessage.decode .ack data = .ok ack ∧
      ack.verify P manager.ourPub env.nowMs = .ok () ∧
      pqVerify P ack.mlDsaPub ack.signedBytes ack.mlDsaSig = true ∧
      manager.pqPins.lookup ack.edPub = none ∧
      manager.sessions.peek ack.edPub = none

theorem SessionManager.Passes.pins {kind : HandshakeKind}
    {message : HandshakeMessage kind} {pins : PinTable}
    (passes : manager.Passes env message pins) :
    pqVerify P message.mlDsaPub message.signedBytes message.mlDsaSig = true ∧
      (manager.pqPins.lookup message.edPub = some message.mlDsaPub ∧
          pins = manager.pqPins ∨
        manager.pqPins.lookup message.edPub = none ∧
          AddsPin manager.pqPins message.edPub message.mlDsaPub pins) :=
  pqVerifyAndPin_eq_ok passes.pinned

theorem SessionManager.passes_of_unpinned {kind : HandshakeKind}
    {message : HandshakeMessage kind}
    (verified : message.verify P manager.ourPub env.nowMs = .ok ())
    (signed :
      pqVerify P message.mlDsaPub message.signedBytes message.mlDsaSig = true)
    (unpinned : manager.pqPins.lookup message.edPub = none) :
    ∃ pins, manager.Passes env message pins ∧
      pins.lookup message.edPub = some message.mlDsaPub := by
  have agree : PinsAgree manager.pqPins message.edPub message.mlDsaPub := by
    intro pinned found
    rw [unpinned] at found
    cases found
  rcases pqVerifyAndPin_of_agree env.order agree signed with
    ⟨pins, pinned, known⟩
  exact ⟨pins, ⟨verified, pinned⟩, known⟩

/-- `handle_init` fails atomically unless the Init strands a pin. -/
theorem failsAtomically_handleInit_iff (manager : SessionManager P)
    (env : Surroundings P) (data : List UInt8) :
    FailsAtomically manager (manager.handleInit env data) ↔
      ¬ StrandsInit manager env data := by
  generalize outcome : manager.handleInit env data = result
  have exits := initExit_handleInit manager env data
  rw [outcome] at exits
  cases exits with
  | refused failure log early =>
    constructor
    · rintro _ ⟨init, decoded, unlimited, verified, signed, unpinned, _⟩
      rcases passes_of_unpinned verified signed unpinned with ⟨pins, passes, _⟩
      exact early init _ pins decoded (Prod.ext unlimited rfl) passes
    · intro _ other _
      rfl
  | unanswerable init log pins decoded unlimited passes invalid =>
    rcases passes.pins with ⟨signed, ⟨known, rfl⟩ | ⟨unknown, adds⟩⟩
    · constructor
      · rintro _ ⟨other, same, _, _, _, unpinned, _⟩
        rw [decoded] at same
        cases same
        rw [known] at unpinned
        cases unpinned
      · intro _ other _
        rfl
    · constructor
      · intro atomic
        have unchanged := congrArg SessionManager.pqPins (atomic _ rfl)
        have pinned := adds.lookup_self
        change pins = manager.pqPins at unchanged
        rw [unchanged, unknown] at pinned
        cases pinned
      · intro stranded
        refine (stranded
          ⟨init, decoded, ?_, passes.verified, signed, unknown, invalid⟩).elim
        rw [unlimited]
  | accepted init log pins decoded admits =>
    constructor
    · rintro _ ⟨other, same, _, _, _, _, invalid⟩
      rw [decoded] at same
      cases same
      rw [admits.encapsulable] at invalid
      cases invalid
    · intro _ failure impossible
      cases impossible

/-- `handle_ack` fails atomically unless the Ack strands a pin. -/
theorem failsAtomically_handleAck_iff (manager : SessionManager P)
    (env : Surroundings P) (data : List UInt8) :
    FailsAtomically manager (manager.handleAck env data) ↔
      ¬ StrandsAck manager env data := by
  generalize outcome : manager.handleAck env data = result
  have exits := ackExit_handleAck manager env data
  rw [outcome] at exits
  cases exits with
  | refused failure early =>
    constructor
    · rintro _ ⟨ack, decoded, verified, signed, unpinned, _⟩
      rcases passes_of_unpinned verified signed unpinned with ⟨pins, passes, _⟩
      exact early ack pins decoded passes
    · intro _ other _
      rfl
  | unsolicited ack pins decoded passes unknown =>
    rcases passes.pins with ⟨signed, ⟨known, rfl⟩ | ⟨unpinned, adds⟩⟩
    · constructor
      · rintro _ ⟨other, same, _, _, unpinned, _⟩
        rw [decoded] at same
        cases same
        rw [known] at unpinned
        cases unpinned
      · intro _ other _
        rfl
    · constructor
      · intro atomic
        have unchanged := congrArg SessionManager.pqPins (atomic _ rfl)
        have pinned := adds.lookup_self
        change pins = manager.pqPins at unchanged
        rw [unchanged, unpinned] at pinned
        cases pinned
      · intro stranded
        exact (stranded
          ⟨ack, decoded, passes.verified, signed, unpinned, unknown⟩).elim
  | accepted ack pins existing decoded admits =>
    constructor
    · rintro _ ⟨other, same, _, _, _, unknown⟩
      rw [decoded] at same
      cases same
      rw [admits.pending] at unknown
      cases unknown
    · intro _ failure impossible
      cases impossible

/--
The handshake handlers fail atomically on exactly the inputs that do not
strand a pin.
-/
theorem handshake_failsAtomically_iff (manager : SessionManager P)
    (env : Surroundings P) (data : List UInt8) :
    (FailsAtomically manager (manager.handleInit env data) ↔
        ¬ StrandsInit manager env data) ∧
      (FailsAtomically manager (manager.handleAck env data) ↔
        ¬ StrandsAck manager env data) :=
  ⟨failsAtomically_handleInit_iff manager env data,
    failsAtomically_handleAck_iff manager env data⟩

end Exits

/-- A sample node answers the Init of another one. -/
def sampleHandling : ManagerOp Primitives.transparent :=
  .handleInit (sampleSurroundings 20 21) (sampleInit 1 2).encode

/-- An Ack of the other node, with the given X25519 key. -/
def sampleAck (key : UInt8) : SessionAck :=
  .create (P := Primitives.transparent) (sampleManager 1).ourSigningKey
    (Bytes.replicate 32 key) (sampleManager 2).ourPub
    (Bytes.replicate mlKemCtBytes 0) (sampleManager 1).ownCoord
    (sampleManager 1).pqSigner 1000

/-- An unsolicited Ack fails, and pins the key of its sender. -/
theorem unsolicitedAck_pins :
    ¬ FailsAtomically (sampleManager 2)
      ((sampleManager 2).handleAck (sampleSurroundings 20 21)
        (sampleAck 10).encode) := by
  rw [failsAtomically_handleAck_iff, not_not]
  refine ⟨sampleAck 10, HandshakeMessage.decode_encode _,
    ?_, ?_, rfl, rfl⟩
  · exact HandshakeMessage.verify_create
      Primitives.transparent_signaturesVerify _ _ _ _ _ _ (by decide)
  · exact HandshakeMessage.pqVerify_create
      Primitives.transparent_signaturesVerify _ _ _ _ _ _ _

end Norn.Session
