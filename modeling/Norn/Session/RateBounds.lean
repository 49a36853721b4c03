import Mathlib.Algebra.Order.BigOperators.Group.List
import Norn.Foundation.BoundedKeys
import Norn.Foundation.TimeWindow
import Norn.Session.RateLimit

/-!
# Bounds of the Init rate limit

Calls of `rate_limited` by any sources, on a clock that never goes back.  The
attempts that are admitted are observed along the run, and what the log holds
of them is all that will be counted again.  So no window of
`INIT_RATE_WINDOW` has more than `MAX_INITS_PER_WINDOW` admitted attempts of
one source, the log is never larger than its capacity, and no source is
evicted that has an attempt in the current window.
-/

namespace Norn.Session

open Foundation Foundation.Run

/-- A call of `rate_limited`. -/
structure RateCall where
  now : Instant
  order : IterationOrder
  source : Bytes 32

/-- The log, and the attempts that have been admitted. -/
structure RateState where
  log : RateLog
  admitted : List (Bytes 32 × Instant)

namespace RateState

variable {source : Bytes 32} {next : Instant}

/-- The log of `SessionManager::new`. -/
def start : RateState := ⟨∅, []⟩

/-- One call. -/
def step (state : RateState) (call : RateCall) : RateState :=
  let verdict := rateLimited state.log call.now call.order call.source
  { log := verdict.2
    admitted := if verdict.1 then state.admitted
      else state.admitted ++ [(call.source, call.now)] }

/-- The times at which a source has been admitted. -/
def history (state : RateState) (source : Bytes 32) : List Instant :=
  (state.admitted.filter fun attempt => attempt.1 = source).map Prod.snd

/-- The source has an attempt in the window that ends now. -/
def Active (log : RateLog) (now : Instant) (source : Bytes 32) : Prop :=
  ∃ attempt ∈ attempts log source, rateCutoff now ≤ attempt

theorem keysOf_record (log : RateLog) (now : Instant) (source : Bytes 32) :
    keysOf (record log now source).2 = insert source (keysOf log) := by
  unfold record
  simp only
  split_ifs
  · exact keysOf_insert _ _ _
  · exact keysOf_insert _ _ _

theorem admits_rateLimited (log : RateLog) (now : Instant)
    (order : IterationOrder) (source : Bytes 32) :
    Admits maxInitRateLogEntries (Active log now) source (keysOf log)
      (keysOf (rateLimited log now order source).2) := by
  by_cases crowded :
      (log.lookup source).isNone = true ∧
        maxInitRateLogEntries ≤ log.keys.length
  · cases evicted : evictIdle log (rateCutoff now) order with
    | none =>
      have refused : rateLimited log now order source = (true, log) := by
        simp only [rateLimited, if_pos crowded, evicted]
      rw [refused]
      exact .refused
    | some room =>
      have recorded :
          rateLimited log now order source = record room now source := by
        simp only [rateLimited, if_pos crowded, evicted]
        rfl
      unfold evictIdle at evicted
      rcases Option.map_eq_some_iff.mp evicted with ⟨victim, found, rfl⟩
      rw [recorded, keysOf_record, keysOf_erase]
      refine .evicted ?_ ?_
      · have listed := List.mem_of_find?_eq_some found
        exact List.mem_toFinset.mpr ((order.perm log.keys).mem_iff.mp listed)
      · rintro ⟨attempt, member, active⟩
        have idle :
            ∀ attempt ∈ attempts log victim, attempt < rateCutoff now := by
          simpa [attempts] using List.find?_some found
        exact absurd active (Nat.not_le.mpr (idle attempt member))
  · have recorded :
        rateLimited log now order source = record log now source := by
      simp only [rateLimited, if_neg crowded]
      rfl
    rw [recorded, keysOf_record]
    apply Admits.stored
    rw [not_and_or, Option.isNone_iff_eq_none, AList.lookup_eq_none, not_not,
      Nat.not_le] at crowded
    rw [mem_keysOf, card_keysOf]
    exact crowded

/-! ## One call -/

/-- What holds before every call on a clock that has reached a time. -/
structure Limited (state : RateState) (clock : Instant) : Prop where
  tracks : ∀ source, Tracks state.log source (state.history source) clock
  bounded :
    ∀ source,
      AtMostPerWindow maxInitsPerWindow initRateWindow (state.history source)
  small : (keysOf state.log).card ≤ maxInitRateLogEntries

variable {state : RateState} {call : RateCall} {clock : Instant}

theorem history_step_of_ne (other : call.source ≠ source) :
    (state.step call).history source = state.history source := by
  unfold history step
  simp only
  split_ifs
  · rfl
  · rw [List.filter_append,
      List.filter_cons_of_neg (by rwa [decide_eq_true_eq])]
    rw [List.filter_nil, List.append_nil]

theorem history_step_of_limited
    (limited :
      (rateLimited state.log call.now call.order call.source).1 = true) :
    (state.step call).history source = state.history source := by
  unfold history step
  simp only [limited, if_true]

theorem history_step_of_admitted
    (admitted :
      (rateLimited state.log call.now call.order call.source).1 = false) :
    (state.step call).history call.source =
      state.history call.source ++ [call.now] := by
  unfold history step
  simp only [admitted, Bool.false_eq_true, if_false]
  rw [List.filter_append, List.filter_cons_of_pos (by rw [decide_eq_true_eq]),
    List.map_append]
  rfl

theorem live_rateCutoff {now : Instant} (started : initRateWindow ≤ now)
    (times : List Instant) :
    live (rateCutoff now) times = recent initRateWindow now times := by
  unfold live recent rateCutoff
  rw [if_pos started]
  apply List.filter_congr
  intro time _
  rw [decide_eq_decide]
  exact Nat.sub_le_iff_le_add

theorem tracks_step
    (tracks : ∀ source, Tracks state.log source (state.history source) call.now)
    (started : initRateWindow ≤ call.now) (source : Bytes 32) :
    Tracks (state.step call).log source ((state.step call).history source)
      call.now := by
  by_cases other : call.source = source
  · subst source
    rcases rateLimited_cases state.log call.now call.order call.source with
      ⟨_, refused⟩ | ⟨room, made, recorded⟩
    · have limited :
          (rateLimited state.log call.now call.order call.source).1 =
            true := by
        rw [refused]
      rw [history_step_of_limited limited]
      change Tracks (rateLimited _ _ _ _).2 _ _ _
      rw [refused]
      exact tracks call.source
    · have window :=
        ((tracks call.source).madeRoom started made).record_self started
      rw [← recorded] at window
      unfold spend at window
      cases verdict :
        (rateLimited state.log call.now call.order call.source).1 with
      | true =>
        rw [history_step_of_limited verdict]
        rw [verdict] at window
        rw [if_neg fun few => nomatch window.1.mpr few] at window
        exact window.2
      | false =>
        rw [history_step_of_admitted verdict]
        rw [if_pos (window.1.mp verdict)] at window
        exact window.2
  · rw [history_step_of_ne other]
    exact (tracks source).rateLimited_of_ne started call.order (Ne.symm other)

theorem few_of_admitted
    (tracks : Tracks state.log call.source (state.history call.source) call.now)
    (started : initRateWindow ≤ call.now)
    (admitted :
      (rateLimited state.log call.now call.order call.source).1 = false) :
    (recent initRateWindow call.now (state.history call.source)).length <
      maxInitsPerWindow := by
  rcases rateLimited_cases state.log call.now call.order call.source with
    ⟨_, refused⟩ | ⟨room, made, recorded⟩
  · rw [refused] at admitted
    cases admitted
  · rw [recorded] at admitted
    have window := (tracks.madeRoom started made).record_self started
    rw [← live_rateCutoff started]
    exact window.1.mp admitted

theorem Limited.step (sound : state.Limited clock)
    (forward : clock ≤ call.now) (started : initRateWindow ≤ call.now) :
    (state.step call).Limited call.now := by
  have tracks :
      ∀ source, Tracks state.log source (state.history source) call.now :=
    fun source => (sound.tracks source).later forward
  refine ⟨tracks_step tracks started, ?_, ?_⟩
  · intro source
    by_cases other : call.source = source
    · subst source
      cases verdict :
        (rateLimited state.log call.now call.order call.source).1 with
      | true =>
        rw [history_step_of_limited verdict]
        exact sound.bounded call.source
      | false =>
        rw [history_step_of_admitted verdict]
        exact
          (sound.bounded call.source).append
            (few_of_admitted (tracks call.source) started verdict)
    · rw [history_step_of_ne other]
      exact sound.bounded source
  · exact
      (admits_rateLimited state.log call.now call.order call.source).card_le
        sound.small

theorem Limited.evicted (sound : state.Limited clock)
    (forward : clock ≤ call.now) (stored : source ∈ state.log)
    (gone : source ∉ (state.step call).log) :
    ∀ time ∈ state.history source, time < rateCutoff call.now := by
  have idle : ¬ Active state.log call.now source := by
    intro active
    have kept :=
      (admits_rateLimited state.log call.now call.order
        call.source).spared (mem_keysOf.mpr stored) active
    exact gone (mem_keysOf.mp kept)
  have empty : live (rateCutoff call.now) (state.history source) = [] := by
    rw [← (sound.tracks source) call.now forward]
    apply live_eq_nil
    intro attempt member
    exact Nat.not_le.mp fun active => idle ⟨attempt, member, active⟩
  intro time member
  unfold live at empty
  have stale := List.filter_eq_nil_iff.mp empty time member
  rw [decide_eq_true_eq] at stale
  exact Nat.not_le.mp stale

theorem sound_start (clock : Instant) : start.Limited clock where
  tracks _ _ _ := rfl
  bounded _ := atMostPerWindow_nil _ _
  small := Nat.zero_le _

theorem Limited.later (sound : state.Limited clock) (forward : clock ≤ next) :
    state.Limited next where
  tracks source := (sound.tracks source).later forward
  bounded := sound.bounded
  small := sound.small

/-- Calls in order of time keep every source within its limit. -/
theorem Limited.run {calls : List RateCall} (sound : state.Limited clock)
    (later : clock ≤ next)
    (ordered : calls.Pairwise fun earlier later =>
      earlier.now ≤ later.now)
    (bounds :
      ∀ call ∈ calls, clock ≤ call.now ∧ initRateWindow ≤ call.now ∧
        call.now ≤ next) :
    (Run.run RateState.step state calls).Limited next := by
  induction calls generalizing state clock with
  | nil =>
    exact sound.later later
  | cons call rest inductionHypothesis =>
    rcases bounds call List.mem_cons_self with ⟨forward, started, last⟩
    rcases List.pairwise_cons.mp ordered with ⟨after, restOrdered⟩
    refine inductionHypothesis (sound.step forward started) last restOrdered ?_
    intro other member
    exact ⟨after other member, (bounds other (List.mem_cons_of_mem _ member)).2⟩

theorem sound_run {calls : List RateCall}
    (ordered : calls.Pairwise fun earlier later =>
      earlier.now ≤ later.now)
    (started : ∀ call ∈ calls, initRateWindow ≤ call.now)
    (last : ∀ call ∈ calls, call.now ≤ next) :
    (Run.run RateState.step start calls).Limited next := by
  refine (sound_start 0).run (Nat.zero_le next) ordered fun call member => ?_
  exact ⟨Nat.zero_le _, started call member, last call member⟩

/--
On a clock that never goes back, no closed window of `INIT_RATE_WINDOW` has
more than `MAX_INITS_PER_WINDOW` admitted attempts of a source, the log has at
most `MAX_INIT_RATE_LOG_ENTRIES` sources, and a source that a call evicts has
no admitted attempt in the window that ends with the call.
-/
theorem init_rate_limit_bounds (calls : List RateCall)
    (ordered : calls.Pairwise fun earlier later =>
      earlier.now ≤ later.now)
    (started : ∀ call ∈ calls, initRateWindow ≤ call.now) :
    (∀ source begins,
      (((Run.run RateState.step start calls).history source).filter
        fun time =>
          begins ≤ time ∧ time ≤ begins + initRateWindow).length ≤
        maxInitsPerWindow) ∧
      (Run.run RateState.step start calls).log.keys.length ≤
        maxInitRateLogEntries ∧
      ∀ before call after, calls = before ++ call :: after →
        ∀ source, source ∈ (Run.run RateState.step start before).log →
          source ∉ ((Run.run RateState.step start before).step call).log →
            ∀ time ∈ (Run.run RateState.step start before).history source,
              ¬ (call.now - initRateWindow ≤ time ∧ time ≤ call.now) := by
  have final :
      (Run.run RateState.step start calls).Limited
        (calls.map RateCall.now).sum :=
    sound_run ordered started fun call member =>
      List.le_sum_of_mem (List.mem_map_of_mem member)
  refine ⟨final.bounded, ?_, ?_⟩
  · rw [← card_keysOf]
    exact final.small
  · rintro before call after rfl source stored gone time member inside
    rcases List.pairwise_append.mp ordered with ⟨beforeOrdered, _, crossing⟩
    have reached : (Run.run RateState.step start before).Limited call.now :=
      sound_run beforeOrdered
        (fun earlier earlierMember =>
          started earlier (List.mem_append_left _ earlierMember))
        fun earlier earlierMember =>
          crossing earlier earlierMember call List.mem_cons_self
    have stale := reached.evicted (Nat.le_refl call.now) stored gone time member
    rw [rateCutoff,
      if_pos (started call (List.mem_append_right _ List.mem_cons_self))]
      at stale
    exact Nat.not_le.mpr stale inside.1

end RateState

/-- Six calls of one source at the same time. -/
def burst : List RateCall :=
  List.replicate 6
    ⟨initRateWindow, IterationOrder.natural, Bytes.replicate 32 1⟩

/-- Four of them are admitted. -/
theorem burst_bounded :
    (((run RateState.step RateState.start burst).history
        (Bytes.replicate 32 1)).filter fun time =>
          0 ≤ time ∧ time ≤ 0 + initRateWindow).length ≤
      maxInitsPerWindow :=
  (RateState.init_rate_limit_bounds burst
    (List.pairwise_replicate.mpr (.inr (Nat.le_refl _)))
    (fun call member => by
      rw [List.eq_of_mem_replicate member])).1 (Bytes.replicate 32 1) 0

end Norn.Session
