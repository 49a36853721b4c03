import Norn.Session.Exits

/-!
# Interference through the Init rate limit

`handle_init` charges an attempt to the identity an Init claims, before it
checks any signature.  What another party sends can therefore spend the quota
of an identity it does not own, or fill the table so that the identity finds
no slot.

Apart from these two ways there is no interference: the verdicts on the Inits
an identity has signed are those of a sliding window that only counts the
identity's own attempts.
-/

namespace Norn.Session

open Foundation Foundation.Run

section RateLimit

variable {now : Instant} {log room : RateLog} {other : Bytes 32}

/-- The attempts that still count at a cutoff. -/
def live (cutoff : Instant) (history : List Instant) : List Instant :=
  history.filter fun attempt => cutoff ≤ attempt

/--
The verdicts of a sliding window on a series of attempts, after a history of
admitted ones.
-/
def windowVerdicts (history : List Instant) : List Instant → List Bool
  | [] => []
  | now :: rest =>
    if (live (rateCutoff now) history).length < maxInitsPerWindow then
      true :: windowVerdicts (history ++ [now]) rest
    else
      false :: windowVerdicts history rest

theorem live_append (cutoff : Instant) (left right : List Instant) :
    live cutoff (left ++ right) = live cutoff left ++ live cutoff right :=
  List.filter_append left right

theorem live_live {cutoff later : Instant} (order : cutoff ≤ later)
    (history : List Instant) :
    live later (live cutoff history) = live later history := by
  unfold live
  rw [List.filter_filter]
  congr 1
  funext attempt
  by_cases counted : later ≤ attempt
  · simp [counted, le_trans order counted]
  · simp [counted]

theorem live_eq_nil {cutoff : Instant} {history : List Instant}
    (idle : ∀ attempt ∈ history, attempt < cutoff) :
    live cutoff history = [] := by
  unfold live
  rw [List.filter_eq_nil_iff]
  intro attempt member
  simpa using idle attempt member

theorem rateCutoff_mono {later : Instant} (started : initRateWindow ≤ now)
    (order : now ≤ later) :
    rateCutoff now ≤ rateCutoff later := by
  unfold rateCutoff
  rw [if_pos started, if_pos (le_trans started order)]
  exact Nat.sub_le_sub_right order initRateWindow

/-- The source has an entry, or one can be made for it. -/
def HasSlot (log : RateLog) (now : Instant) (source : Bytes 32) : Prop :=
  log.lookup source ≠ none ∨ log.keys.length < maxInitRateLogEntries ∨
    ∃ idle ∈ log.keys, ∀ attempt ∈ attempts log idle, attempt < rateCutoff now

/-- The table the attempt is recorded in, after an eviction if needed. -/
inductive MadeRoom (log : RateLog) (now : Instant) : RateLog → Prop where
  | kept : MadeRoom log now log
  | evicted (victim : Bytes 32)
      (idle : ∀ attempt ∈ attempts log victim, attempt < rateCutoff now) :
      MadeRoom log now (log.erase victim)

/-- What `rate_limited` does with a source that has a slot. -/
def record (log : RateLog) (now : Instant) (source : Bytes 32) :
    Bool × RateLog :=
  let entry := live (rateCutoff now) (attempts log source)
  if maxInitsPerWindow ≤ entry.length then
    (true, log.insert source entry)
  else
    (false, log.insert source (entry ++ [now]))

theorem madeRoom_of_evictIdle {order : IterationOrder}
    (evicted : evictIdle log (rateCutoff now) order = some room) :
    MadeRoom log now room := by
  unfold evictIdle at evicted
  rcases Option.map_eq_some_iff.mp evicted with ⟨victim, found, rfl⟩
  refine .evicted victim ?_
  simpa [attempts] using List.find?_some found

theorem exists_evictIdle (order : IterationOrder) {source : Bytes 32}
    (listed : source ∈ log.keys)
    (idle : ∀ attempt ∈ attempts log source, attempt < rateCutoff now) :
    ∃ room, evictIdle log (rateCutoff now) order = some room := by
  unfold evictIdle
  have found :
      ((order.arrange log.keys).find? fun key =>
        ((log.lookup key).getD []).all fun attempt =>
          attempt < rateCutoff now).isSome := by
    rw [List.find?_isSome]
    refine ⟨source, (order.perm log.keys).mem_iff.mpr listed, ?_⟩
    simpa [attempts] using idle
  rcases Option.isSome_iff_exists.mp found with ⟨victim, chosen⟩
  refine ⟨log.erase victim, ?_⟩
  simp only [chosen, Option.map_some]

theorem rateLimited_cases (log : RateLog) (now : Instant)
    (order : IterationOrder) (source : Bytes 32) :
    (¬ HasSlot log now source ∧
      rateLimited log now order source = (true, log)) ∨
      ∃ room, MadeRoom log now room ∧
        rateLimited log now order source = record room now source := by
  by_cases crowded :
      (log.lookup source).isNone = true ∧
        maxInitRateLogEntries ≤ log.keys.length
  · cases evicted : evictIdle log (rateCutoff now) order with
    | none =>
      left
      refine ⟨?_, ?_⟩
      · rintro (present | short | ⟨idle, listed, stale⟩)
        · exact present (Option.isNone_iff_eq_none.mp crowded.1)
        · exact absurd crowded.2 (Nat.not_le.mpr short)
        · rcases exists_evictIdle order listed stale with ⟨room, chosen⟩
          rw [evicted] at chosen
          cases chosen
      · simp only [rateLimited, if_pos crowded, evicted]
    | some room =>
      right
      refine ⟨room, madeRoom_of_evictIdle evicted, ?_⟩
      simp only [rateLimited, if_pos crowded, evicted]
      rfl
  · right
    refine ⟨log, .kept, ?_⟩
    simp only [rateLimited, if_neg crowded]
    rfl

theorem MadeRoom.attempts (made : MadeRoom log now room) (source : Bytes 32) :
    attempts room source = attempts log source ∨
      attempts room source = [] ∧
        ∀ attempt ∈ Session.attempts log source, attempt < rateCutoff now := by
  cases made with
  | kept => exact Or.inl rfl
  | evicted victim idle =>
    by_cases same : source = victim
    · subst same
      right
      refine ⟨?_, idle⟩
      simp [Session.attempts]
    · left
      simp [Session.attempts, AList.lookup_erase_ne same]

/--
From `clock` on, the log and the history count the same attempts of the
source.
-/
def Tracks (log : RateLog) (source : Bytes 32) (history : List Instant)
    (clock : Instant) : Prop :=
  ∀ now, clock ≤ now →
    live (rateCutoff now) (attempts log source) = live (rateCutoff now) history

variable {log : RateLog} {source : Bytes 32} {history : List Instant}
  {clock now : Instant}

theorem Tracks.later (tracks : Tracks log source history clock)
    (order : clock ≤ now) : Tracks log source history now := by
  intro current after
  exact tracks current (le_trans order after)

theorem Tracks.madeRoom (tracks : Tracks log source history now)
    (started : initRateWindow ≤ now) (made : MadeRoom log now room) :
    Tracks room source history now := by
  intro current after
  rcases made.attempts source with same | ⟨empty, idle⟩
  · rw [same]
    exact tracks current after
  · rw [empty, ← tracks current after]
    have order := rateCutoff_mono started after
    have stale : live (rateCutoff current) (attempts log source) = [] :=
      live_eq_nil fun attempt member =>
        lt_of_lt_of_le (idle attempt member) order
    rw [stale]
    rfl

theorem attempts_insert_self (log : RateLog) (source : Bytes 32)
    (entry : List Instant) :
    attempts (log.insert source entry) source = entry := by
  simp [attempts]

theorem attempts_insert_of_ne (log : RateLog) {source : Bytes 32}
    (entry : List Instant) (distinct : source ≠ other) :
    attempts (log.insert other entry) source = attempts log source := by
  simp [attempts, AList.lookup_insert_ne distinct]

theorem Tracks.record_of_ne (tracks : Tracks log source history now)
    (distinct : source ≠ other) :
    Tracks (record log now other).2 source history now := by
  intro current after
  unfold record
  simp only
  split_ifs
  · rw [attempts_insert_of_ne _ _ distinct]
    exact tracks current after
  · rw [attempts_insert_of_ne _ _ distinct]
    exact tracks current after

/-- The history after an attempt. -/
def spend (history : List Instant) (now : Instant) : List Instant :=
  if (live (rateCutoff now) history).length < maxInitsPerWindow then
    history ++ [now]
  else
    history

theorem Tracks.record_self (tracks : Tracks log source history now)
    (started : initRateWindow ≤ now) :
    ((record log now source).1 = false ↔
        (live (rateCutoff now) history).length < maxInitsPerWindow) ∧
      Tracks (record log now source).2 source (spend history now) now := by
  have here := tracks now (le_refl now)
  by_cases few : (live (rateCutoff now) history).length < maxInitsPerWindow
  · have fits :
        ¬ maxInitsPerWindow ≤
          (live (rateCutoff now) (attempts log source)).length := by
      rw [here]
      exact Nat.not_le.mpr few
    simp only [record, if_neg fits, spend, if_pos few]
    refine ⟨by simp [few], ?_⟩
    intro current after
    rw [attempts_insert_self, live_append, live_append,
      live_live (rateCutoff_mono started after), tracks current after]
  · have full :
        maxInitsPerWindow ≤
          (live (rateCutoff now) (attempts log source)).length := by
      rw [here]
      exact Nat.not_lt.mp few
    simp only [record, if_pos full, spend, if_neg few]
    refine ⟨by simp [few], ?_⟩
    intro current after
    rw [attempts_insert_self, live_live (rateCutoff_mono started after),
      tracks current after]

theorem Tracks.rateLimited_of_ne (tracks : Tracks log source history now)
    (started : initRateWindow ≤ now) (order : IterationOrder)
    (distinct : source ≠ other) :
    Tracks (rateLimited log now order other).2 source history now := by
  rcases rateLimited_cases log now order other with
    ⟨_, refused⟩ | ⟨room, made, recorded⟩
  · rw [refused]
    exact tracks
  · rw [recorded]
    exact (tracks.madeRoom started made).record_of_ne distinct

theorem Tracks.rateLimited_self (tracks : Tracks log source history now)
    (started : initRateWindow ≤ now) (order : IterationOrder)
    (slot : HasSlot log now source) :
    ((rateLimited log now order source).1 = false ↔
        (live (rateCutoff now) history).length < maxInitsPerWindow) ∧
      Tracks (rateLimited log now order source).2 source (spend history now)
        now := by
  rcases rateLimited_cases log now order source with
    ⟨full, _⟩ | ⟨room, made, recorded⟩
  · exact absurd slot full
  · rw [recorded]
    exact (tracks.madeRoom started made).record_self started

end RateLimit

/-! ## Two runs of a manager -/

section Runs

variable {P : Primitives}

variable {data : List UInt8} {source : Bytes 32} {manager : SessionManager P}
  {history : List Instant}

/-- The bytes are an Init of the identity with a valid signature of it. -/
def signedBy (P : Primitives) (source : Bytes 32) (data : List UInt8) :
    Bool :=
  match HandshakeMessage.decode .init data with
  | .error _ => false
  | .ok init =>
    decide (init.edPub = source) && P.isVerifyingKey source &&
      P.verifyStrict source init.signedBytes init.signature

/-- `handle_init` does not refuse the input because of the rate limit. -/
def passesRateLimit (manager : SessionManager P) (env : Surroundings P)
    (data : List UInt8) : Bool :=
  match (manager.handleInit env data).1 with
  | .error (.rateLimited _) => false
  | _ => true

/-- The Inits signed by the identity, with the times they arrive at. -/
def signedInits (source : Bytes 32) :
    List (ManagerOp P) → List (Instant × List UInt8)
  | [] => []
  | .handleInit env data :: rest =>
    if signedBy P source data then
      (env.now, data) :: signedInits source rest
    else
      signedInits source rest
  | _ :: rest => signedInits source rest

/-- Which of the Inits signed by the identity pass the rate limit. -/
def rateVerdicts (source : Bytes 32) (manager : SessionManager P) :
    List (ManagerOp P) → List Bool
  | [] => []
  | .handleInit env data :: rest =>
    let after := (ManagerOp.handleInit env data).apply manager
    if signedBy P source data then
      passesRateLimit manager env data :: rateVerdicts source after rest
    else
      rateVerdicts source after rest
  | op :: rest => rateVerdicts source (op.apply manager) rest

/-- The times at which Inits are handled. -/
def initTimes : List (ManagerOp P) → List Instant
  | [] => []
  | .handleInit env _ :: rest => env.now :: initTimes rest
  | _ :: rest => initTimes rest

/--
Nobody else claims the identity, and its own Inits find a slot in the rate
log.
-/
def OwnClaims (source : Bytes 32) (manager : SessionManager P) :
    ManagerOp P → Prop
  | .handleInit env data =>
    ∀ init, HandshakeMessage.decode .init data = .ok init →
      init.edPub = source →
        signedBy P source data = true ∧
          HasSlot manager.initRateLog env.now source
  | _ => True

theorem verify_ne_rateLimited {kind : HandshakeKind}
    (message : HandshakeMessage kind) (expected : Bytes 32)
    (nowMs : UInt64) (source : Bytes 32) :
    message.verify P expected nowMs ≠ .error (.rateLimited source) := by
  simp only [HandshakeMessage.verify]
  split_ifs <;> simp

theorem pqVerifyAndPin_ne_rateLimited (pins : PinTable) (order : IterationOrder)
    (edPub : Bytes 32)
    (mlDsaPub : Bytes mlDsaPubBytes) (signed : List UInt8)
    (signature : Bytes mlDsaSigBytes) (source : Bytes 32) :
    pqVerifyAndPin P pins order edPub mlDsaPub signed signature ≠
      .error (.rateLimited source) := by
  unfold pqVerifyAndPin
  split_ifs <;> simp

/--
The limiter decides about an Init first, and its log is what a later failure
leaves behind.
-/
theorem handleInit_rate (manager : SessionManager P) (env : Surroundings P)
    {init : SessionInit}
    (decoded : HandshakeMessage.decode .init data = .ok init) :
    (manager.handleInit env data).2.initRateLog =
        (rateLimited manager.initRateLog env.now env.order init.edPub).2 ∧
      (passesRateLimit manager env data = true ↔
        (rateLimited manager.initRateLog env.now env.order init.edPub).1 =
          false) := by
  rcases limit : rateLimited manager.initRateLog env.now env.order
      init.edPub with
    ⟨limited, log⟩
  cases limited with
  | true =>
    simp [passesRateLimit, SessionManager.handleInit, decoded, limit]
  | false =>
    simp only [passesRateLimit, SessionManager.handleInit, decoded,
      limit, Bool.false_eq_true, if_false, iff_true]
    cases verified : init.verify P { manager with initRateLog := log }.ourPub
      env.nowMs with
    | error failure =>
      cases failure with
      | rateLimited source =>
        exact (verify_ne_rateLimited _ _ _ _ verified).elim
      | _ => exact ⟨rfl, rfl⟩
    | ok _ =>
      cases pinned :
          pqVerifyAndPin P manager.pqPins env.order init.edPub
            init.mlDsaPub init.signedBytes init.mlDsaSig with
      | error failure =>
        cases failure with
        | rateLimited source =>
          exact (pqVerifyAndPin_ne_rateLimited _ _ _ _ _ _ _ pinned).elim
        | _ => exact ⟨rfl, rfl⟩
      | ok pins =>
        by_cases valid : P.isEncapsulationKey init.mlKem = true
        · simp [pqEncapsulate, valid]
        · simp [pqEncapsulate, valid]

theorem initRateLog_apply (manager : SessionManager P) {op : ManagerOp P}
    (other : ∀ env data, op ≠ .handleInit env data) :
    (op.apply manager).initRateLog = manager.initRateLog := by
  by_cases quiet : op.Local
  · rcases rest_apply manager quiet with ⟨sessions, pqKeys, after⟩
    rw [after]
  cases op with
  | handleInit env data => exact (other env data rfl).elim
  | handleAck env data =>
    simp only [ManagerOp.apply]
    have exits := manager.ackExit_handleAck env data
    generalize manager.handleAck env data = result at exits
    cases exits <;> rfl
  | _ => exact absurd trivial quiet

theorem edPub_of_signedBy (signed : signedBy P source data = true) :
    ∃ init, HandshakeMessage.decode .init data = .ok init ∧
      init.edPub = source := by
  unfold signedBy at signed
  cases decoded : HandshakeMessage.decode .init data with
  | error failure => simp [decoded] at signed
  | ok init =>
    simp only [decoded, Bool.and_eq_true, decide_eq_true_eq] at signed
    exact ⟨init, rfl, signed.1.1⟩

theorem Tracks.handleInit_of_unsigned {env : Surroundings P}
    (tracks : Tracks manager.initRateLog source history env.now)
    (started : initRateWindow ≤ env.now)
    (undisturbed : OwnClaims source manager (.handleInit env data))
    (unsigned : ¬ signedBy P source data = true) :
    Tracks ((ManagerOp.handleInit env data).apply manager).initRateLog source
      history env.now := by
  cases decoded : HandshakeMessage.decode .init data with
  | error failure =>
    simpa only [ManagerOp.apply, SessionManager.handleInit, decoded]
      using tracks
  | ok init =>
    have distinct : source ≠ init.edPub := by
      intro same
      exact unsigned (undisturbed init decoded same.symm).1
    have after := (handleInit_rate manager env decoded).1
    change Tracks (manager.handleInit env data).2.initRateLog _ _ _
    rw [after]
    exact tracks.rateLimited_of_ne started env.order distinct

theorem Tracks.handleInit_of_signed {env : Surroundings P}
    (tracks : Tracks manager.initRateLog source history env.now)
    (started : initRateWindow ≤ env.now)
    (undisturbed : OwnClaims source manager (.handleInit env data))
    (signed : signedBy P source data = true) :
    (passesRateLimit manager env data = true ↔
        (live (rateCutoff env.now) history).length < maxInitsPerWindow) ∧
      Tracks ((ManagerOp.handleInit env data).apply manager).initRateLog
        source (spend history env.now) env.now := by
  rcases edPub_of_signedBy signed with ⟨init, decoded, same⟩
  have slot := (undisturbed init decoded same).2
  rcases handleInit_rate manager env decoded with ⟨after, passes⟩
  rw [same] at after passes
  rcases tracks.rateLimited_self started env.order slot with ⟨verdict, next⟩
  refine ⟨passes.trans verdict, ?_⟩
  change Tracks (manager.handleInit env data).2.initRateLog _ _ _
  rw [after]
  exact next

/-- The verdicts on an identity follow from its own times alone. -/
theorem rateVerdicts_eq_windowVerdicts {ops : List (ManagerOp P)}
    {clock : Instant} (tracks : Tracks manager.initRateLog source history clock)
    (started : initRateWindow ≤ clock)
    (forward : (clock :: initTimes ops).Pairwise (· ≤ ·))
    (undisturbed : Along ManagerOp.apply (OwnClaims source) manager ops) :
    rateVerdicts source manager ops =
      windowVerdicts history ((signedInits source ops).map Prod.fst) := by
  induction ops generalizing manager history clock with
  | nil => rfl
  | cons op rest induction =>
    rcases undisturbed with ⟨here, later⟩
    cases op with
    | handleInit env data =>
      rw [initTimes, List.pairwise_cons] at forward
      rcases forward with ⟨ahead, forward⟩
      have order : clock ≤ env.now := ahead env.now (by simp)
      have begun := le_trans started order
      have current := tracks.later order
      by_cases signed : signedBy P source data = true
      · rcases current.handleInit_of_signed begun here signed with
          ⟨verdict, next⟩
        have tail := induction next begun forward later
        rw [rateVerdicts, signedInits, if_pos signed, if_pos signed,
          List.map_cons, windowVerdicts, tail]
        unfold spend
        by_cases few : (live (rateCutoff env.now) history).length <
          maxInitsPerWindow
        · rw [if_pos few, if_pos few, verdict.mpr few]
        · rw [if_neg few, if_neg few, Bool.eq_false_iff.mpr (mt verdict.mp few)]
      · have next := current.handleInit_of_unsigned begun here signed
        rw [rateVerdicts, signedInits, if_neg signed, if_neg signed]
        exact induction next begun forward later
    | _ =>
      refine induction ?_ started forward later
      rw [initRateLog_apply manager (by simp)]
      exact tracks

/--
A run in which the clock, past its first window, never goes back, nobody else
claims the identity, and the identity's own Inits find a slot.
-/
structure OrderlyRun (source : Bytes 32) (manager : SessionManager P)
    (ops : List (ManagerOp P)) : Prop where
  forward : (initRateWindow :: initTimes ops).Pairwise (· ≤ ·)
  undisturbed : Along ManagerOp.apply (OwnClaims source) manager ops

/--
Two orderly runs with the same signed Inits of an identity, at the same
times, give the same verdicts on them, whatever else they contain.
-/
theorem rate_limit_noninterference (source : Bytes 32)
    (manager : SessionManager P) (left right : List (ManagerOp P))
    (orderlyLeft : OrderlyRun source manager left)
    (orderlyRight : OrderlyRun source manager right)
    (same : signedInits source left = signedInits source right) :
    rateVerdicts source manager left =
      rateVerdicts source manager right := by
  have tracks :
      Tracks manager.initRateLog source
        (attempts manager.initRateLog source) initRateWindow := by
    intro now after
    rfl
  calc
    rateVerdicts source manager left =
        windowVerdicts (attempts manager.initRateLog source)
          ((signedInits source left).map Prod.fst) :=
      rateVerdicts_eq_windowVerdicts tracks (le_refl _)
        orderlyLeft.forward orderlyLeft.undisturbed
    _ = windowVerdicts (attempts manager.initRateLog source)
          ((signedInits source right).map Prod.fst) := by
      rw [same]
    _ = rateVerdicts source manager right :=
      (rateVerdicts_eq_windowVerdicts tracks (le_refl _)
        orderlyRight.forward orderlyRight.undisturbed).symm

end Runs

/-! ## Forged Inits -/

/-- Surroundings right after the first window of the clock. -/
def laterSurroundings : Surroundings Primitives.transparent :=
  { sampleSurroundings 20 21 with now := initRateWindow }

/-- An Init of one node with the signature of another. -/
def forgedInit : SessionInit :=
  { sampleInit 1 2 with signature := (sampleInit 3 2).signature }

theorem sampleInit_signedBy :
    signedBy Primitives.transparent (sampleManager 1).ourPub
      (sampleInit 1 2).encode = true := by
  decide +kernel

theorem forgedInit_unsigned :
    signedBy Primitives.transparent (sampleManager 1).ourPub
      forgedInit.encode = false := by
  decide +kernel

/-- One Init of the sample node. -/
def genuineRun : List (ManagerOp Primitives.transparent) :=
  [.handleInit laterSurroundings (sampleInit 1 2).encode]

/-- The same after an Init of another node. -/
def sharedRun : List (ManagerOp Primitives.transparent) :=
  .handleInit laterSurroundings (sampleInit 3 2).encode :: genuineRun

/-- The same after four forged Inits. -/
def floodedRun : List (ManagerOp Primitives.transparent) :=
  List.replicate maxInitsPerWindow
      (.handleInit laterSurroundings forgedInit.encode) ++
    genuineRun

theorem undisturbed_genuineRun (manager : SessionManager Primitives.transparent)
    (room : manager.initRateLog.keys.length < maxInitRateLogEntries) :
    Along ManagerOp.apply (OwnClaims (sampleManager 1).ourPub) manager
      genuineRun := by
  refine ⟨?_, trivial⟩
  intro init decoded _
  exact ⟨sampleInit_signedBy, Or.inr (Or.inl room)⟩

/-- Inits of a stranger do not change the verdicts on those of a sender. -/
theorem rate_limit_noninterference_shared :
    OrderlyRun (sampleManager 1).ourPub (sampleManager 2) genuineRun ∧
      OrderlyRun (sampleManager 1).ourPub (sampleManager 2) sharedRun ∧
      rateVerdicts (sampleManager 1).ourPub (sampleManager 2) genuineRun =
        rateVerdicts (sampleManager 1).ourPub (sampleManager 2)
          sharedRun := by
  have decoded := HandshakeMessage.decode_encode (sampleInit 3 2)
  have stranger : (sampleInit 3 2).edPub ≠ (sampleManager 1).ourPub := by
    have keys : Bytes.replicate 32 3 ≠ Bytes.replicate 32 1 := by decide
    exact keys
  have genuine :
      OrderlyRun (sampleManager 1).ourPub (sampleManager 2)
        genuineRun := by
    constructor
    · decide
    · exact undisturbed_genuineRun _ (by decide)
  have shared :
      OrderlyRun (sampleManager 1).ourPub (sampleManager 2)
        sharedRun := by
    constructor
    · decide
    · refine ⟨?_, undisturbed_genuineRun _ ?_⟩
      · intro init other claims
        rw [decoded] at other
        cases other
        exact (stranger claims).elim
      · have charged :=
          (handleInit_rate (sampleManager 2) laterSurroundings decoded).1
        rw [apply_handleInit, charged]
        decide
  have unsigned :
      signedBy Primitives.transparent (sampleManager 1).ourPub
        (sampleInit 3 2).encode = false := by
    decide +kernel
  refine ⟨genuine, shared, rate_limit_noninterference _ _ _ _ genuine shared ?_⟩
  rw [sharedRun, signedInits, unsigned, if_neg Bool.false_ne_true]

/-- Forged Inits use up the quota of the identity they name. -/
theorem forged_inits_exhaust_quota :
    signedInits (sampleManager 1).ourPub floodedRun =
        signedInits (sampleManager 1).ourPub genuineRun ∧
      rateVerdicts (sampleManager 1).ourPub (sampleManager 2)
          genuineRun = [true] ∧
      rateVerdicts (sampleManager 1).ourPub (sampleManager 2)
          floodedRun = [false] := by
  refine ⟨?_, by decide +kernel, by decide +kernel⟩
  rw [floodedRun, maxInitsPerWindow]
  simp only [List.replicate_succ, List.cons_append, signedInits,
    forgedInit_unsigned, Bool.false_eq_true, if_false, List.replicate_zero,
    List.nil_append]

end Norn.Session
