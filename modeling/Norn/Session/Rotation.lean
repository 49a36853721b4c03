import Mathlib.Data.List.Induction
import Norn.Foundation.HandleTable
import Norn.Foundation.Run
import Norn.Session.Info

/-!
# Rotation of the X25519 keys

`rotate_session_keys` of `router/mod.rs` walks the session table on a timer
and gives a fresh X25519 key pair to every established session whose send
counter is, at that moment, a positive multiple of `KEY_ROTATION_INTERVAL`.

The counter is only sampled at the ticks.  The machine below runs one session
of the table through arbitrary interleavings of sends and ticks and notes
under which key pair every packet was encrypted.
-/

namespace Norn.Session

open Foundation Foundation.Run

/-- The sessions of a node, by the Ed25519 key of the remote. -/
abbrev SessionTable (P : Primitives) := HandleTable (Bytes 32) (SessionInfo P)

/-- `KEY_ROTATION_INTERVAL`. -/
def keyRotationInterval : UInt64 := 100

namespace SessionInfo

variable {P : Primitives}

/-- The test `rotate_session_keys` makes on one session. -/
def rotationDue (self : SessionInfo P) : Bool :=
  self.established && decide (0 < self.localSeq) &&
    self.localSeq % keyRotationInterval == 0

/-- What a tick does to one session, drawing `newPriv`. -/
def rotateIfDue (self : SessionInfo P) (newPriv : P.StaticSecret) :
    SessionInfo P :=
  if self.rotationDue then self.rotateLocalKey newPriv else self

theorem rotateIfDue_cases (self : SessionInfo P) (newPriv : P.StaticSecret) :
    self.rotateIfDue newPriv = self ∨
      self.rotateIfDue newPriv = self.rotateLocalKey newPriv := by
  unfold rotateIfDue
  split
  · exact Or.inr rfl
  · exact Or.inl rfl

@[simp]
theorem established_rotateIfDue (self : SessionInfo P)
    (newPriv : P.StaticSecret) :
    (self.rotateIfDue newPriv).established = self.established := by
  rcases self.rotateIfDue_cases newPriv with same | rotated
  · rw [same]
  · rw [rotated]
    rfl

@[simp]
theorem established_encrypt (self : SessionInfo P) (now : Instant)
    (plaintext : List UInt8) :
    (self.encrypt now plaintext).2.established = self.established := by
  obtain ⟨cache, seq, used, after⟩ := self.encrypt_snd now plaintext
  rw [after]

end SessionInfo

/--
`RouterState::rotate_session_keys`.  `draw` gives the random key each session
of the table would be rotated to.
-/
def rotateSessionKeys {P : Primitives} (sessions : SessionTable P)
    (draw : Nat → P.StaticSecret) : SessionTable P :=
  sessions.updateAll fun cell info => info.rotateIfDue (draw cell)

/-! ## Sends and ticks -/

/--
A session table, and for every packet that the observed session has sent the
public key that was its local one at the time.
-/
structure KeyLog (P : Primitives) where
  sessions : SessionTable P
  usedKeys : List (Bytes 32)

/-- The packets sent on the observed session. -/
def KeyLog.sent {P : Primitives} (state : KeyLog P) : Nat :=
  state.usedKeys.length

/-- An encryption on the observed session, or a tick of the timer. -/
inductive KeyAction (P : Primitives) where
  | encrypt (now : Instant) (plaintext : List UInt8)
  | tick (draw : Nat → P.StaticSecret)

section Usage

variable {P : Primitives} (remote : Bytes 32)

/-- The packets encrypted under the key pair that the session now has. -/
def KeyLog.keyUses (state : KeyLog P) : Nat :=
  match state.sessions.peek remote with
  | none => 0
  | some info => state.usedKeys.count info.localX25519Pub

/-- One step of the interleaving. -/
def usageStep (state : KeyLog P) : KeyAction P → KeyLog P
  | .encrypt now plaintext =>
    match state.sessions.peek remote with
    | none => state
    | some info =>
      let (result, next) := info.encrypt now plaintext
      let sessions := state.sessions.modify remote fun _ => next
      match result with
      | .ok _ => ⟨sessions, info.localX25519Pub :: state.usedKeys⟩
      | .error _ => ⟨sessions, state.usedKeys⟩
  | .tick draw => ⟨rotateSessionKeys state.sessions draw, state.usedKeys⟩

/-- The state after a run from a session that has not sent anything. -/
def usageAfter (sessions : SessionTable P)
    (actions : List (KeyAction P)) : KeyLog P :=
  run (usageStep remote) ⟨sessions, []⟩ actions

/-- A key pair drawn for the session is none that it has used before. -/
def FreshDraw (state : KeyLog P) : KeyAction P → Prop
  | .encrypt _ _ => True
  | .tick draw =>
    ∀ cell ∈ state.sessions.handle remote,
      P.x25519Public (draw cell) ∉ state.usedKeys

instance (state : KeyLog P) : DecidablePred (FreshDraw remote state)
  | .encrypt _ _ => isTrue trivial
  | .tick draw =>
    inferInstanceAs
      (Decidable (∀ cell ∈ state.sessions.handle remote,
        P.x25519Public (draw cell) ∉ state.usedKeys))

/-- The observed session is in the table, established. -/
def KeyLog.Live (state : KeyLog P) (info : SessionInfo P) : Prop :=
  state.sessions.peek remote = some info ∧ info.established = true

/-- The counter of the observed session is a positive multiple. -/
def KeyLog.OnMultiple (state : KeyLog P) : Prop :=
  ∃ current, state.sessions.peek remote = some current ∧
    0 < current.localSeq ∧ current.localSeq % keyRotationInterval = 0

/-- A tick of the run fell on a positive multiple, right after `earlier`. -/
def RotatedAfter (sessions : SessionTable P)
    (actions earlier : List (KeyAction P)) : Prop :=
  ∃ draw later, actions = earlier ++ KeyAction.tick draw :: later ∧
    (usageAfter remote sessions earlier).OnMultiple remote

theorem usageAfter_append_singleton (sessions : SessionTable P)
    (actions : List (KeyAction P)) (action : KeyAction P) :
    usageAfter remote sessions (actions ++ [action]) =
      usageStep remote (usageAfter remote sessions actions) action := by
  simp [usageAfter, run_append]

theorem rotatedAfter_append_singleton (sessions : SessionTable P)
    (actions earlier : List (KeyAction P)) (action : KeyAction P) :
    RotatedAfter remote sessions (actions ++ [action]) earlier ↔
      RotatedAfter remote sessions actions earlier ∨
        earlier = actions ∧ (∃ draw, action = .tick draw) ∧
          (usageAfter remote sessions actions).OnMultiple remote := by
  constructor
  · rintro ⟨draw, later, split, due⟩
    rcases List.eq_nil_or_concat' later with rfl | ⟨front, last, rfl⟩
    · obtain ⟨same, tick⟩ := List.append_inj' split rfl
      cases tick
      subst earlier
      exact Or.inr ⟨rfl, ⟨draw, rfl⟩, due⟩
    · have regrouped :
          actions ++ [action] =
            (earlier ++ KeyAction.tick draw :: front) ++ [last] := by
        simpa using split
      obtain ⟨same, _⟩ := List.append_inj' regrouped rfl
      exact Or.inl ⟨draw, front, same, due⟩
  · rintro (⟨draw, later, split, due⟩ | ⟨rfl, ⟨draw, rfl⟩, due⟩)
    · exact ⟨draw, later ++ [action], by simp [split], due⟩
    · exact ⟨draw, [], rfl, due⟩

/-- A send keeps the key pair; it is counted if it returns a packet. -/
theorem usageStep_encrypt {state : KeyLog P} {info : SessionInfo P}
    (live : state.Live remote info) (now : Instant) (plaintext : List UInt8) :
    ∃ next count,
      (usageStep remote state (.encrypt now plaintext)).Live remote next ∧
      (usageStep remote state (.encrypt now plaintext)).keyUses remote =
        state.keyUses remote + count ∧
      (usageStep remote state (.encrypt now plaintext)).sent =
        state.sent + count := by
  obtain ⟨cache, seq, used, after⟩ := info.encrypt_snd now plaintext
  have stored :
      (state.sessions.modify remote
        fun _ => (info.encrypt now plaintext).2).peek
        remote = some (info.encrypt now plaintext).2 := by
    rw [HandleTable.peek_modify_self, live.1]
    rfl
  have kept : (info.encrypt now plaintext).2.established = true := by
    rw [SessionInfo.established_encrypt, live.2]
  have pair :
      (info.encrypt now plaintext).2.localX25519Pub = info.localX25519Pub := by
    rw [after]
  refine ⟨(info.encrypt now plaintext).2, ?_⟩
  simp only [usageStep, live.1]
  cases (info.encrypt now plaintext).1 with
  | ok wire =>
    exact ⟨1, ⟨stored, kept⟩,
      by simp [KeyLog.keyUses, stored, live.1, pair], rfl⟩
  | error failure =>
    exact ⟨0, ⟨stored, kept⟩,
      by simp [KeyLog.keyUses, stored, live.1, pair], rfl⟩

/-- A tick on a multiple starts a new count; any other keeps the key pair. -/
theorem usageStep_tick {state : KeyLog P} {info : SessionInfo P}
    (live : state.Live remote info) {draw : Nat → P.StaticSecret}
    (fresh : FreshDraw remote state (.tick draw)) :
    ∃ next, (usageStep remote state (.tick draw)).Live remote next ∧
      (state.OnMultiple remote →
        (usageStep remote state (.tick draw)).keyUses remote = 0) ∧
      (¬ state.OnMultiple remote →
        (usageStep remote state (.tick draw)).keyUses remote =
          state.keyUses remote) := by
  obtain ⟨cell, handle, _⟩ :=
    (state.sessions.peek_eq_some_iff remote info).mp live.1
  have stored :
      (usageStep remote state (.tick draw)).sessions.peek remote =
        some (info.rotateIfDue (draw cell)) := by
    simp only [usageStep, rotateSessionKeys]
    rw [HandleTable.peek_updateAll _ _ handle, live.1]
    rfl
  have due : info.rotationDue = true ↔ state.OnMultiple remote := by
    simp [SessionInfo.rotationDue, KeyLog.OnMultiple, live.1, live.2]
  refine ⟨info.rotateIfDue (draw cell), ⟨stored, ?_⟩, ?_, ?_⟩
  · rw [SessionInfo.established_rotateIfDue, live.2]
  · intro multiple
    rw [SessionInfo.rotateIfDue, if_pos (due.mpr multiple)] at stored
    simp only [KeyLog.keyUses, stored]
    exact List.count_eq_zero.mpr (fresh cell handle)
  · intro other
    rw [SessionInfo.rotateIfDue, if_neg (other ∘ due.mp)] at stored
    simp only [KeyLog.keyUses, stored, live.1]
    rfl

theorem sent_le_of_rotatedAfter {sessions : SessionTable P}
    {actions earlier : List (KeyAction P)}
    (rotated : RotatedAfter remote sessions actions earlier) :
    (usageAfter remote sessions earlier).sent ≤
      (usageAfter remote sessions actions).sent := by
  obtain ⟨draw, later, rfl, _⟩ := rotated
  rw [usageAfter, usageAfter, run_append]
  generalize run (usageStep remote) ⟨sessions, []⟩ earlier = state
  apply @invariant_run_of_forall _ _ (usageStep remote)
    (fun reached => state.sent ≤ reached.sent) _ _ _ le_rfl
  intro reached action grown
  cases action with
  | encrypt now plaintext =>
    simp only [usageStep]
    split
    · exact grown
    · split
      · exact Nat.le_succ_of_le grown
      · exact grown
  | tick draw => exact grown

/--
The uses of the current key pair are counted from the latest tick that fell on
a multiple, or from the start.
-/
theorem keyUses_lt_iff {sessions : SessionTable P} {info : SessionInfo P}
    (found : sessions.peek remote = some info)
    (established : info.established = true) {actions : List (KeyAction P)}
    (fresh :
      Along (usageStep remote) (FreshDraw remote) ⟨sessions, []⟩ actions) :
    (∃ current, (usageAfter remote sessions actions).Live remote current) ∧
      ∀ bound,
        (usageAfter remote sessions actions).keyUses remote < bound ↔
          (usageAfter remote sessions actions).sent < bound ∨
            ∃ earlier, RotatedAfter remote sessions actions earlier ∧
              (usageAfter remote sessions actions).sent <
                (usageAfter remote sessions earlier).sent + bound := by
  induction actions using List.reverseRecOn with
  | nil =>
    refine ⟨⟨info, found, established⟩, fun bound => ?_⟩
    have nothing :
        ∀ earlier, ¬ RotatedAfter remote sessions [] earlier := by
      rintro earlier ⟨draw, later, split, _⟩
      simp at split
    simp [usageAfter, KeyLog.keyUses, KeyLog.sent, found, nothing]
  | append_singleton actions action induction =>
    obtain ⟨before, last⟩ := (along_append _ _ _ _ _).mp fresh
    obtain ⟨⟨current, live⟩, counted⟩ := induction before
    have bounded :=
      @sent_le_of_rotatedAfter P remote sessions actions
    rw [usageAfter_append_singleton]
    simp only [rotatedAfter_append_singleton]
    cases action with
    | encrypt now plaintext =>
      obtain ⟨next, count, after, uses, sent⟩ :=
        usageStep_encrypt remote live now plaintext
      refine ⟨⟨next, after⟩, fun bound => ?_⟩
      have shifted := counted (bound - count)
      simp only [reduceCtorEq, exists_false, false_and, and_false, or_false]
      rw [uses, sent]
      constructor
      · intro few
        rcases shifted.mp (by omega) with all | ⟨earlier, rotated, recent⟩
        · exact Or.inl (by omega)
        · exact Or.inr ⟨earlier, rotated, by omega⟩
      · rintro (few | ⟨earlier, rotated, recent⟩)
        · have := shifted.mpr (Or.inl (by omega))
          omega
        · have grown := bounded rotated
          have := shifted.mpr (Or.inr ⟨earlier, rotated, by omega⟩)
          omega
    | tick draw =>
      obtain ⟨next, after, restarts, keeps⟩ :=
        usageStep_tick remote live last.1
      refine ⟨⟨next, after⟩, fun bound => ?_⟩
      have sent :
          (usageStep remote (usageAfter remote sessions actions)
            (.tick draw)).sent = (usageAfter remote sessions actions).sent :=
        rfl
      rw [sent]
      by_cases multiple :
          (usageAfter remote sessions actions).OnMultiple remote
      · rw [restarts multiple]
        constructor
        · intro positive
          exact Or.inr ⟨actions, Or.inr ⟨rfl, ⟨draw, rfl⟩, multiple⟩, by omega⟩
        · rintro (few | ⟨earlier, old | ⟨rfl, _⟩, recent⟩)
          · omega
          · have grown := bounded old
            omega
          · omega
      · rw [keeps multiple, counted]
        simp [multiple]

/--
Immediately after a tick the current key pair has been used for fewer than
`KEY_ROTATION_INTERVAL` packets exactly when the session has sent fewer in
all, or this tick or an earlier one less than that many packets ago fell on a
positive multiple of the interval.  The key pairs that are drawn are new.
-/
theorem keyUses_after_tick_iff (sessions : SessionTable P)
    {info : SessionInfo P} (found : sessions.peek remote = some info)
    (established : info.established = true)
    (actions : List (KeyAction P)) (draw : Nat → P.StaticSecret)
    (fresh :
      Along (usageStep remote) (FreshDraw remote) ⟨sessions, []⟩
        (actions ++ [.tick draw])) :
    (usageAfter remote sessions (actions ++ [.tick draw])).keyUses remote <
        keyRotationInterval.toNat ↔
      (usageAfter remote sessions actions).sent < keyRotationInterval.toNat ∨
        ∃ earlier other later,
          actions ++ [.tick draw] =
              earlier ++ KeyAction.tick other :: later ∧
            (∃ current,
              (usageAfter remote sessions earlier).sessions.peek remote =
                  some current ∧
                0 < current.localSeq ∧
                current.localSeq % keyRotationInterval = 0) ∧
            (usageAfter remote sessions actions).sent <
              (usageAfter remote sessions earlier).sent +
                keyRotationInterval.toNat := by
  have sent :
      (usageAfter remote sessions (actions ++ [.tick draw])).sent =
        (usageAfter remote sessions actions).sent := by
    rw [usageAfter_append_singleton]
    rfl
  rw [(keyUses_lt_iff remote found established fresh).2, sent]
  apply or_congr_right
  constructor
  · rintro ⟨earlier, ⟨other, later, split, multiple⟩, recent⟩
    exact ⟨earlier, other, later, split, multiple, recent⟩
  · rintro ⟨earlier, other, later, split, multiple, recent⟩
    exact ⟨earlier, ⟨other, later, split, multiple⟩, recent⟩

end Usage

/-- An established session that has not sent anything. -/
def freshSession : SessionInfo Primitives.transparent :=
  { SessionInfo.new (P := Primitives.transparent) (Bytes.replicate 32 1)
      (Bytes.replicate 32 2) (Bytes.replicate 32 3) 0 with
    established := true
    pqShared := some (Bytes.replicate 32 4) }

/-- A table with that session only. -/
def freshTable : SessionTable Primitives.transparent :=
  HandleTable.empty.insert (Bytes.replicate 32 1) freshSession

/-- A send of one byte. -/
def sampleSend : KeyAction Primitives.transparent := .encrypt 1 [0]

/-- A tick of the timer. -/
def sampleTick : KeyAction Primitives.transparent :=
  .tick fun _ => Bytes.replicate 32 9

/-- A tick after 101 sends misses the multiple of 100. -/
theorem keyUses_after_missed_multiple :
    ¬ (usageAfter (Bytes.replicate 32 1) freshTable
        (List.replicate 101 sampleSend ++ [sampleTick])).keyUses
          (Bytes.replicate 32 1) <
      keyRotationInterval.toNat := by
  decide +kernel

/-- Ticks at 100 and at 150 sends keep the bound. -/
theorem keyUses_after_tick_hundred :
    (usageAfter (Bytes.replicate 32 1) freshTable
      (List.replicate 100 sampleSend ++
        .tick (fun _ => Bytes.replicate 32 8) ::
          List.replicate 50 sampleSend ++ [sampleTick])).keyUses
        (Bytes.replicate 32 1) <
      keyRotationInterval.toNat := by
  refine
    (keyUses_after_tick_iff (Bytes.replicate 32 1) freshTable
      (HandleTable.peek_insert_self _ _ freshSession) rfl _ _
      (by decide +kernel)).mpr (Or.inr ?_)
  refine ⟨List.replicate 100 sampleSend, fun _ => Bytes.replicate 32 8,
    List.replicate 50 sampleSend ++ [sampleTick], by simp [sampleTick], ?_, ?_⟩
  · exact ⟨_, Option.eq_some_of_isSome (by decide +kernel), by decide +kernel⟩
  · decide +kernel

end Norn.Session
