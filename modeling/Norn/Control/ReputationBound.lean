import Norn.Control.Cadence

/-!
# The size of the reputation table

`record_reputation` counts the stored observations only before it opens a
bucket for a peer nobody has reported on; a further observer of a known peer is
always let in.  The table keeps to its bound exactly as long as no such observer
comes when the table is full.
-/

namespace Norn.Control

open Foundation Packet Router Session KeyedMap

variable {P : Primitives} {C : Crates} {L : FilterOps}

variable {count : Nat} {router : SampleRouter}

namespace ControlState

/-! ## One observation -/

/-- No peer has an empty bucket. -/
def BucketsFilled (router : ControlState P C L) : Prop :=
  ∀ observed bucket, router.reputation.lookup observed = some bucket →
    0 < bucket.keys.length

/--
An observer who is new to the bucket of a known peer comes while the table is
not full.
-/
def HasRoom (router : ControlState P C L) (observer observed : Bytes 32) :
    Prop :=
  (router.reputation.lookup observed).isSome = true →
    (router.observations observed).lookup observer = none →
      router.totalObservations < maxReputationObservations

variable (env : ControlEnv L) (router : ControlState P C L)
  (observer observed : Bytes 32) (record : ReputationEntry C)

theorem totalObservations_eq :
    router.totalObservations =
      router.reputation.total fun bucket => bucket.keys.length :=
  rfl

theorem length_insert_observation (bucket : Bucket C) :
    (bucket.insert observer record).keys.length =
      bucket.keys.length +
        if (bucket.lookup observer).isSome then 0 else 1 := by
  cases known : bucket.lookup observer with
  | none => exact length_keys_insert_of_none known record
  | some earlier => exact length_keys_insert_of_some known record

theorem totalObservations_putObservation :
    (router.putObservation observer observed record).totalObservations =
      router.totalObservations +
        if ((router.observations observed).lookup observer).isSome then 0
        else 1 := by
  rw [totalObservations_eq, totalObservations_eq, putObservation,
    total_insert, length_insert_observation]
  unfold observations
  cases known : router.reputation.lookup observed with
  | none =>
    rw [total_erase_of_none known]
    exact Nat.add_comm _ _
  | some bucket =>
    rw [total_erase known]
    simp only [Option.getD_some]
    omega

theorem bucketsFilled_putObservation {router : ControlState P C L}
    (filled : router.BucketsFilled) :
    (router.putObservation observer observed record).BucketsFilled := by
  intro other bucket found
  by_cases same : other = observed
  · subst same
    have inserted :
        some ((router.observations other).insert observer record) =
          some bucket := by
      rw [← found]
      exact lookup_insert_self.symm
    rw [Option.some.injEq] at inserted
    rw [← inserted]
    exact List.length_pos_of_mem (mem_keys_insert.mpr (Or.inr rfl))
  · have kept : router.reputation.lookup other = some bucket := by
      rw [← found]
      exact (lookup_insert_ne same).symm
    exact filled other bucket kept

theorem mem_of_victim {keys : List (Bytes 32)} {key : Bytes 32}
    (found : router.victim env keys = some key) : key ∈ keys :=
  (env.tableOrder.perm keys).mem_iff.mp (List.mem_of_find?_eq_some found)

theorem bucketsFilled_erase {router : ControlState P C L}
    (filled : router.BucketsFilled) (key : Bytes 32) :
    ({ router with reputation := router.reputation.erase key } :
      ControlState P C L).BucketsFilled := by
  intro other bucket found
  by_cases same : other = key
  · subst same
    rw [lookup_erase_self] at found
    cases found
  · rw [lookup_erase_ne same] at found
    exact filled other bucket found

theorem bucketsFilled_recordReputation {router : ControlState P C L}
    (filled : router.BucketsFilled) :
    (router.recordReputation env observer observed record).BucketsFilled := by
  unfold recordReputation
  split_ifs
  · cases router.victim env router.reputation.keys with
    | none => exact filled
    | some key =>
      exact bucketsFilled_putObservation observer observed record
        (bucketsFilled_erase filled key)
  · exact bucketsFilled_putObservation observer observed record filled

theorem totalObservations_recordReputation_of_new
    {router : ControlState P C L} (filled : router.BucketsFilled)
    (bounded : router.totalObservations ≤ maxReputationObservations)
    (new : router.reputation.lookup observed = none) :
    (router.recordReputation env observer observed record
      ).totalObservations ≤ maxReputationObservations := by
  unfold recordReputation
  split_ifs with full
  · cases found : router.victim env router.reputation.keys with
    | none => exact bounded
    | some key =>
      rcases exists_lookup_of_mem_keys
          (mem_of_victim env router found) with ⟨bucket, stored⟩
      have positive := filled key bucket stored
      have sizes :
          router.totalObservations =
            bucket.keys.length +
              (router.reputation.erase key).total fun bucket =>
                bucket.keys.length := by
        rw [totalObservations_eq]
        exact total_erase stored
      dsimp only
      rw [totalObservations_putObservation]
      rw [totalObservations_eq]
      dsimp only
      split_ifs <;> omega
  · have room : router.totalObservations < maxReputationObservations := by
      by_contra reached
      apply full
      rw [new, Bool.and_eq_true]
      exact ⟨decide_eq_true (Nat.not_lt.mp reached), rfl⟩
    rw [totalObservations_putObservation]
    split_ifs <;> omega

/-- A record keeps the total within its bound exactly when it finds room. -/
theorem totalObservations_recordReputation_iff
    {router : ControlState P C L} (filled : router.BucketsFilled)
    (bounded : router.totalObservations ≤ maxReputationObservations) :
    (router.recordReputation env observer observed record
        ).totalObservations ≤ maxReputationObservations ↔
      router.HasRoom observer observed := by
  cases known : router.reputation.lookup observed with
  | none =>
    constructor
    · intro _ present
      rw [known] at present
      cases present
    · intro _
      exact totalObservations_recordReputation_of_new env observer
        observed record filled bounded known
  | some bucket =>
    have put :
        router.recordReputation env observer observed record =
          router.putObservation observer observed record := by
      unfold recordReputation
      rw [known, if_neg (by simp)]
    rw [put, totalObservations_putObservation]
    unfold HasRoom
    cases observes : (router.observations observed).lookup observer with
    | none =>
      rw [known]
      exact ⟨fun small _ _ => small, fun small => small rfl rfl⟩
    | some earlier => simpa using bounded

/-- The table is within its bound. -/
structure Bounded (router : ControlState P C L) : Prop where
  filled : router.BucketsFilled
  bounded : router.totalObservations ≤ maxReputationObservations

theorem Bounded.recordReputation {router : ControlState P C L}
    (within : router.Bounded) (room : router.HasRoom observer observed) :
    (router.recordReputation env observer observed record).Bounded where
  filled :=
    bucketsFilled_recordReputation env observer observed record within.filled
  bounded :=
    (totalObservations_recordReputation_iff env observer observed record
      within.filled within.bounded).mpr room

theorem Bounded.of_eq {before after : ControlState P C L}
    (within : before.Bounded)
    (same : after.reputation = before.reputation) : after.Bounded := by
  constructor
  · intro observed bucket found
    rw [same] at found
    exact within.filled observed bucket found
  · rw [totalObservations_eq, same]
    exact within.bounded

/-- Every observation of a round of reports has room. -/
def ReportsFit (env : ControlEnv L) :
    List (Bytes 32 × Peer C L) → ControlState P C L → Prop
  | [], _ => True
  | entry :: rest, router =>
    router.HasRoom router.pubKey entry.1 ∧
      ReportsFit env rest (reportOn env entry.1 entry.2.trust router).1

theorem Bounded.reports {entries : List (Bytes 32 × Peer C L)}
    {router : ControlState P C L} (within : router.Bounded)
    (fit : ReportsFit env entries router) :
    (Phase.inOrder (entries.map fun entry => reportOn env entry.1 entry.2.trust)
      router).1.Bounded := by
  induction entries generalizing router with
  | nil => exact within
  | cons entry rest induction =>
    apply induction _ fit.2
    have numbered :
        ({ router with
          ownReputationSeq :=
            router.ownReputationSeq + 1 } : ControlState P C L).Bounded :=
      within.of_eq rfl
    exact numbered.recordReputation env _ _ _ fit.1

/-- The state in which a tick reports on the peers. -/
def reportingState (env : ControlEnv L) (router : ControlState P C L) :
    ControlState P C L :=
  (Phase.inOrder (topologyPhases env ++ (servicePhases env).take 4) router).1

theorem reputation_reportingState :
    (reportingState env router).reputation = router.reputation := by
  unfold reportingState
  refine
    @Phase.inOrder_invariant P C L
      (fun later => later.reputation = router.reputation)
      (topologyPhases env ++ (servicePhases env).take 4) ?_ router rfl
  intro phase member later same
  rw [← same]
  rcases List.mem_append.mp member with topology | service
  · exact (sameTables_of_mem_topologyPhases env later topology).reputation
  · simp only [servicePhases, List.take_succ_cons, List.take_zero,
      List.mem_cons, List.not_mem_nil, or_false] at service
    rcases service with rfl | rfl | rfl | rfl
    · unfold Phase.onlyWhen
      split_ifs <;> rfl
    · unfold Phase.onlyWhen
      split_ifs <;> rfl
    · unfold Phase.onlyWhen
      split_ifs <;> rfl
    · unfold Phase.onlyWhen probeCuckooClaim
      split_ifs
      · cases later.probeChoice env with
        | none => rfl
        | some choice => rfl
      · rfl

theorem reputation_dropProbes (stale : List (UInt64 × Bytes 32 × Instant)) :
    (stale.foldl dropProbe router).reputation = router.reputation := by
  induction stale generalizing router with
  | nil => rfl
  | cons entry rest induction => exact induction (router.dropProbe entry)

theorem reputation_lateServices :
    (Phase.inOrder ((servicePhases env).drop 4) router).1.reputation =
      (Phase.onlyWhen (everyTicks reputationReportTicks)
        (broadcastReputation env) router).1.reputation := by
  simp only [servicePhases, List.drop_succ_cons, List.drop_zero, Phase.inOrder,
    Phase.quietly]
  generalize
    (Phase.onlyWhen (everyTicks reputationReportTicks)
      (broadcastReputation env) router).1 = reported
  exact reputation_dropProbes reported _

theorem reputation_doMaintenance :
    (doMaintenance env router).1.reputation =
      (Phase.onlyWhen (everyTicks reputationReportTicks)
        (broadcastReputation env)
        (reportingState env router)).1.reputation := by
  have phases :
      (topologyPhases env ++ servicePhases env : List (Phase P C L)) =
        (topologyPhases env ++ (servicePhases env).take 4) ++
          (servicePhases env).drop 4 := by
    rw [List.append_assoc, List.take_append_drop]
  rw [doMaintenance, phases, Phase.inOrder_append]
  exact reputation_lateServices env (reportingState env router)

/-- The observations that a step records have room. -/
def FindsRoom (router : ControlState P C L) (step : ControlStep L) :
    Prop :=
  match step.action with
  | .receive _ (.reputationReport report) =>
    router.acceptsReport step.env report = true →
      router.HasRoom report.observer report.observed
  | .maintain =>
    everyTicks reputationReportTicks (reportingState step.env router) = true →
      ReportsFit step.env
        ((reportingState step.env router).peerEntries step.env)
        (reportingState step.env router)
  | _ => True

theorem Bounded.maintain {router : ControlState P C L} (within : router.Bounded)
    (room :
      everyTicks reputationReportTicks (reportingState env router) = true →
        ReportsFit env ((reportingState env router).peerEntries env)
          (reportingState env router)) :
    (doMaintenance env router).1.Bounded := by
  have reporting : (reportingState env router).Bounded :=
    within.of_eq (reputation_reportingState env router)
  have same := reputation_doMaintenance env router
  generalize reportingState env router = later at room reporting same
  unfold Phase.onlyWhen at same
  split_ifs at same with due
  · exact (reporting.reports env (room due)).of_eq same
  · exact reporting.of_eq same

/-- A step that finds room keeps the number of observations bounded. -/
theorem bounded_step {router : ControlState P C L} {step : ControlStep L}
    (within : router.Bounded)
    (room : router.FindsRoom step) : (router.step step).Bounded := by
  rcases step with ⟨env, action⟩
  cases action with
  | attach key =>
    apply within.of_eq
    simp only [ControlState.step, perform, addPeer]
    split <;> rfl
  | detach key => exact within.of_eq rfl
  | receive fromPeer frame =>
    by_cases report : frame.kind = .reputationReport
    · cases frame with
      | reputationReport content =>
        simp only [ControlState.step, perform, dispatch, handleReputationReport]
        split_ifs with accepted
        · exact within.recordReputation env _ _ _ (room accepted)
        · exact within
      | _ => cases report
    · exact within.of_eq
        ((reaches_dispatch env router fromPeer frame).reports report)
  | maintain => exact within.maintain env room

theorem bounded_new (signingKey : P.SigningKey) (onionEphPub : Bytes 32) :
    (new signingKey onionEphPub : ControlState P C L).Bounded where
  filled _ _ found := by
    cases found
  bounded := Nat.zero_le _

end ControlState

/--
In every run in which no observer new to the bucket of a known peer comes when
the table is full, the stored observations keep to their bound.
-/
theorem observations_bounded_with_room (signingKey : P.SigningKey)
    (onionEphPub : Bytes 32) (steps : List (ControlStep L))
    (room :
      Run.Along ControlState.step ControlState.FindsRoom
        (.new signingKey onionEphPub : ControlState P C L) steps) :
    (Run.run ControlState.step
        (.new signingKey onionEphPub : ControlState P C L)
        steps).totalObservations ≤ maxReputationObservations :=
  (@Run.invariant_run _ _ ControlState.step ControlState.FindsRoom
    ControlState.Bounded
    (fun _ _ within room => ControlState.bounded_step within room)
    _ _ (ControlState.bounded_new signingKey onionEphPub) room).bounded

/-! ## Many observers of one peer -/

/-- The keys of the observers, by number. -/
def observerKey (number : Nat) : Bytes 32 :=
  ⟨littleEndian 2 number ++ List.replicate 30 7, by
    rw [List.length_append, length_littleEndian, List.length_replicate]⟩

theorem observerKey_injective {first second : Nat}
    (firstFits : first < 65536) (secondFits : second < 65536)
    (same : observerKey first = observerKey second) : first = second := by
  have fronts :
      littleEndian 2 first ++ List.replicate 30 7 =
        littleEndian 2 second ++ List.replicate 30 7 :=
    congrArg Bytes.toList same
  exact littleEndian_inj firstFits secondFits (List.append_cancel_right fronts)

theorem observerKey_ne {byte : UInt8} (other : byte ≠ 7) (number : Nat) :
    observerKey number ≠ Bytes.replicate 32 byte := by
  intro same
  have backs :
      (littleEndian 2 number ++ List.replicate 30 7).drop 2 =
        (List.replicate 32 byte).drop 2 :=
    congrArg (fun key : Bytes 32 => key.toList.drop 2) same
  rw [List.drop_left' (length_littleEndian 2 number), List.drop_replicate]
    at backs
  exact other (List.replicate_right_injective (by decide) backs).symm

/-- What an observer says about the sample peer. -/
def observation (number : Nat) : ReputationReport where
  observer := observerKey number
  observed := nearKey
  scoreQ16 := 0
  seq := 1
  validFromMs := 0
  sig :=
    Primitives.transparent.edSign (show Bytes 32 from observerKey number)
      (ReputationReport.signBytes
        { observer := observerKey number
          observed := nearKey
          scoreQ16 := 0
          seq := 1
          validFromMs := 0
          sig := Bytes.replicate 64 0 })

/-- The sample peer hands in what an observer says. -/
def observationStep (number : Nat) : ControlStep sampleFilters :=
  sampleStep (.receive nearKey (.reputationReport (observation number)))

/-- A number of observers report on the sample peer. -/
def observationSteps (count : Nat) : List (ControlStep sampleFilters) :=
  sampleStep (.attach nearKey) :: (List.range count).map observationStep

/-- A router that has heard that many observers. -/
structure HeardObservers (count : Nat) (router : SampleRouter) : Prop where
  own : router.pubKey = farKey
  total : router.totalObservations = count
  bucket : (router.observations nearKey).keys.length = count
  later :
    ∀ number, count ≤ number → number < 65536 →
      (router.observations nearKey).lookup (observerKey number) = none

theorem HeardObservers.accepts (heard : HeardObservers count router)
    (fits : count < 65536) :
    router.acceptsReport (sampleAt 0 0) (observation count) = true := by
  have signed :=
    Primitives.transparent_signaturesVerify.ed25519
      (show Bytes 32 from observerKey count)
      (observation count).signBytes
  have unknown :
      (router.observations (observation count).observed).lookup
        (observation count).observer = none :=
    heard.later count (Nat.le_refl count) fits
  have current : withinWindow 0 0 reputationValidityMs = true := by
    decide
  have notPeer : (observation count).observer ≠ nearKey :=
    observerKey_ne (by decide) count
  have notOwn : (observation count).observer ≠ router.pubKey := by
    rw [heard.own]
    exact observerKey_ne (by decide) count
  unfold ControlState.acceptsReport
  simp only [Bool.and_eq_true, decide_eq_true_eq]
  refine ⟨⟨⟨⟨⟨notPeer, notOwn⟩, rfl⟩, signed⟩, current⟩, ?_⟩
  rw [unknown]

theorem HeardObservers.records (heard : HeardObservers count router)
    (record : ReputationEntry sampleCrates) :
    router.recordReputation (sampleAt 0 0) (observerKey count) nearKey record =
      router.putObservation (observerKey count) nearKey record := by
  unfold ControlState.recordReputation
  apply if_neg
  rw [Bool.and_eq_true, decide_eq_true_eq, heard.total]
  rintro ⟨full, unknown⟩
  have empty := heard.bucket
  unfold ControlState.observations at empty
  rw [Option.isNone_iff_eq_none.mp unknown] at empty
  have none : 0 = count := empty
  subst none
  revert full
  decide

theorem HeardObservers.stepped (heard : HeardObservers count router)
    (fits : count < 65536) :
    ∃ record, router.step (observationStep count) =
      router.putObservation (observerKey count) nearKey record := by
  have handled :
      router.step (observationStep count) =
        (router.handleReputationReport (sampleAt 0 0) nearKey
          (observation count)).1 :=
    rfl
  rw [handled, ControlState.handleReputationReport, if_pos (heard.accepts fits)]
  exact ⟨_, heard.records _⟩

/-- Each further observer adds an observation. -/
theorem HeardObservers.step (heard : HeardObservers count router)
    (fits : count < 65536) :
    HeardObservers (count + 1) (router.step (observationStep count)) := by
  have new := heard.later count (Nat.le_refl count) fits
  rcases heard.stepped fits with ⟨record, put⟩
  rw [put]
  have bucket :
      (router.putObservation (observerKey count) nearKey record).observations
        nearKey =
        (router.observations nearKey).insert (observerKey count)
          record := by
    unfold ControlState.observations ControlState.putObservation
    rw [lookup_insert_self]
    rfl
  constructor
  · exact heard.own
  · rw [ControlState.totalObservations_putObservation, new, heard.total]
    rfl
  · rw [bucket, ControlState.length_insert_observation, new, heard.bucket]
    rfl
  · intro number above small
    have different : observerKey number ≠ observerKey count := by
      intro same
      have equal := observerKey_injective small fits same
      omega
    rw [bucket, lookup_insert_ne different]
    exact heard.later number (by omega) small

theorem observationSteps_succ (count : Nat) :
    observationSteps (count + 1) =
      observationSteps count ++ [observationStep count] := by
  unfold observationSteps
  rw [List.range_succ, List.map_append]
  rfl

theorem heardObservers_run (fits : count ≤ 65536) :
    HeardObservers count
      (Run.run ControlState.step (newRouter farKey)
        (observationSteps count)) := by
  induction count with
  | zero => exact ⟨rfl, rfl, rfl, fun _ _ _ => rfl⟩
  | succ count induction =>
    rw [observationSteps_succ, Run.run_append]
    exact (induction (by omega)).step (by omega)

/-- One observer more than the table may hold, all about one peer. -/
theorem observers_exceed_bound :
    maxReputationObservations <
      (Run.run ControlState.step (newRouter farKey)
        (observationSteps (maxReputationObservations + 1))
        ).totalObservations := by
  rw [(heardObservers_run (by decide)).total]
  exact Nat.lt_succ_self _

/-- Two observers of one peer. -/
theorem two_observers_within_bound :
    (Run.run ControlState.step (newRouter farKey)
        (observationSteps 2)).totalObservations ≤
      maxReputationObservations := by
  apply observations_bounded_with_room
  refine ⟨trivial, ?_, ?_, trivial⟩
  · intro _ known
    cases known
  · intro _ _ _
    decide +kernel

end Norn.Control
