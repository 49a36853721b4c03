import Mathlib.Algebra.Order.Floor.Semifield
import Mathlib.Data.Rat.Floor
import Mathlib.Tactic.Linarith
import Mathlib.Tactic.NormNum
import Norn.Address
import Norn.Control.Machine
import Norn.Foundation.TrimmedMean

/-!
# The consensus about a peer

`consensus_trust` averages what fresh reputation reports say about a peer.
The scores are sorted, a quarter of them, by number, is cut off at either end,
and the rest is averaged by the difficulty of the observers' keys.

The arithmetic is that of the rational numbers.  Cutting off bounds what a
quarter of the observers can do, by number; their weight has no part in it.
The sort compares scores only, so the order in which the map is iterated over
decides which of several equal scores is cut off, and with it whose weight
counts.
-/

namespace Norn.Control

open Foundation Foundation.TrimmedMean Session

variable {C : Crates}

/-- `TRUST_MIN`. -/
def trustMin : ℚ := 1 / 100

/-- `TRUST_MAX`. -/
def trustMax : ℚ := 4

/-- `REPUTATION_MIN_QUORUM`. -/
def reputationMinQuorum : Nat := 3

/-- `REPUTATION_TRIM_FRAC`. -/
def reputationTrimFrac : ℚ := 1 / 4

/-- `REPUTATION_WEIGHT_BITS`. -/
def reputationWeightBits : ℚ := 16

/-- `REPUTATION_WEIGHT_FLOOR`. -/
def reputationWeightFloor : ℚ := 1 / 16

/-- `f64::EPSILON`. -/
def epsilon : ℚ := 1 / 2 ^ 52

/-- What the numbers and keys of a router stand for. -/
structure Reading (C : Crates) where
  value : C.F32 → ℚ
  keyHash : Bytes 32 → Bytes 64

/-- The trust that a score stands for. -/
def realTrust (score : ℚ) : ℚ := trustMin + score * (trustMax - trustMin)

/-- The weight of an observer, by the difficulty of its key. -/
def observerWeight (keyHash : Bytes 32 → Bytes 64) (observer : Bytes 32) : ℚ :=
  max reputationWeightFloor
    (min
      ((Address.keyDifficultyBits (keyHash observer)).toNat /
        reputationWeightBits)
      1)

/-- The trimmed mean of weighted scores, if there are enough of them. -/
def trimmedConsensus (weighted : List (ℚ × ℚ)) : Option ℚ :=
  if weighted.length < reputationMinQuorum then
    none
  else
    let sorted := weighted.mergeSort fun one other => one.2 ≤ other.2
    let trim := ⌊(sorted.length : ℚ) * reputationTrimFrac⌋₊
    let kept := trimmed trim sorted
    if kept = [] then
      none
    else if (kept.map Prod.fst).sum ≤ epsilon then
      none
    else
      some (mean kept)

/-- The fresh observations of a bucket, with the scores as numbers. -/
def freshObservations {C : Crates} (value : C.F32 → ℚ)
    (cutoff : Instant) (bucket : Bucket C) : List (Bytes 32 × ℚ) :=
  (bucket.entries.filter fun entry => ¬entry.2.2.2 < cutoff).map
    fun entry => (entry.1, value entry.2.2.1)

/-- The cutoff; the clock is read again if it cannot be turned back. -/
def freshnessCutoff (now later : Instant) : Instant :=
  let validity := reputationValidityMs.toNat * 1000000
  if validity ≤ now then now - validity else later

namespace ControlState

variable {P : Primitives} {C : Crates} {L : FilterOps}

/-- The fresh observations that a router has about a peer. -/
def freshAbout (self : ControlState P C L) (reading : Reading C)
    (now later : Instant) (observed : Bytes 32) :
    List (Bytes 32 × ℚ) :=
  freshObservations reading.value (freshnessCutoff now later)
    (self.observations observed)

/-- `consensus_trust`. -/
def consensusTrust (self : ControlState P C L) (reading : Reading C)
    (now later : Instant) (observed : Bytes 32) : Option ℚ :=
  match self.reputation.lookup observed with
  | none => none
  | some bucket =>
    trimmedConsensus
      ((freshObservations reading.value (freshnessCutoff now later)
          bucket).map fun observation =>
        (observerWeight reading.keyHash observation.1, realTrust observation.2))

end ControlState

theorem floor_le_observerWeight (keyHash : Bytes 32 → Bytes 64)
    (observer : Bytes 32) :
    reputationWeightFloor ≤ observerWeight keyHash observer :=
  le_max_left _ _

theorem observerWeight_pos (keyHash : Bytes 32 → Bytes 64)
    (observer : Bytes 32) : 0 < observerWeight keyHash observer := by
  have floor := floor_le_observerWeight keyHash observer
  have positive : 0 < reputationWeightFloor := by
    norm_num [reputationWeightFloor]
  exact lt_of_lt_of_le positive floor

theorem realTrust_le {one other : ℚ} :
    realTrust one ≤ realTrust other ↔ one ≤ other := by
  have span : (0 : ℚ) < trustMax - trustMin := by
    norm_num [trustMax, trustMin]
  rw [realTrust, realTrust, add_le_add_iff_left,
    mul_le_mul_iff_of_pos_right span]

theorem trim_eq (count : Nat) :
    ⌊(count : ℚ) * reputationTrimFrac⌋₊ = count / 4 := by
  rw [reputationTrimFrac, mul_one_div]
  exact Nat.floor_div_eq_div count 4

theorem realTrust_lt {one other : ℚ} :
    realTrust one < realTrust other ↔ one < other :=
  lt_iff_lt_of_le_iff_le realTrust_le

/-! ## The mean of what is kept -/

section Kept

variable (keyHash : Bytes 32 → Bytes 64)

variable {observations : List (Bytes 32 × ℚ)}

/-- An observation as `consensus_trust` averages it. -/
def weigh (observation : Bytes 32 × ℚ) : ℚ × ℚ :=
  (observerWeight keyHash observation.1, realTrust observation.2)

/-- Observations in the order of their scores. -/
def byScore (observations : List (Bytes 32 × ℚ)) : List (Bytes 32 × ℚ) :=
  observations.mergeSort fun one other => one.2 ≤ other.2

/-- The observations that are not cut off, as they are averaged. -/
def keptOf (observations : List (Bytes 32 × ℚ)) : List (ℚ × ℚ) :=
  (trimmed (observations.length / 4) (byScore observations)).map (weigh keyHash)

theorem keptOf_ne_nil (some : 0 < observations.length) :
    keptOf keyHash observations ≠ [] := by
  rw [keptOf, ne_eq, List.map_eq_nil_iff]
  apply trimmed_ne_nil
  rw [byScore, List.length_mergeSort]
  omega

theorem keptOf_pos :
    ∀ item ∈ keptOf keyHash observations, reputationWeightFloor ≤ item.1 ∧
      0 < item.1 := by
  intro item member
  rcases List.mem_map.mp member with ⟨observation, _, rfl⟩
  exact ⟨le_max_left _ _, observerWeight_pos keyHash observation.1⟩

theorem epsilon_lt_sum {items : List (ℚ × ℚ)} (some : items ≠ [])
    (heavy : ∀ item ∈ items, reputationWeightFloor ≤ item.1 ∧ 0 < item.1) :
    epsilon < (items.map Prod.fst).sum := by
  cases items with
  | nil => exact absurd rfl some
  | cons item rest =>
    have first := (heavy item (by simp)).1
    have others : 0 ≤ (rest.map Prod.fst).sum := by
      apply List.sum_nonneg
      intro weight member
      rcases List.mem_map.mp member with ⟨other, inside, rfl⟩
      exact (heavy other (by simp [inside])).2.le
    have small : epsilon < reputationWeightFloor := by
      norm_num [epsilon, reputationWeightFloor]
    rw [List.map_cons, List.sum_cons]
    linarith

/-- With a quorum there is a consensus: the mean of what is kept. -/
theorem trimmedConsensus_weigh
    (quorum : reputationMinQuorum ≤ observations.length) :
    trimmedConsensus (observations.map (weigh keyHash)) =
      some (mean (keptOf keyHash observations)) := by
  have sorted :
      (observations.map (weigh keyHash)).mergeSort
        (fun one other => one.2 ≤ other.2) =
        (byScore observations).map (weigh keyHash) := by
    symm
    apply List.map_mergeSort
    intro one _ other _
    simp only [weigh, realTrust_le]
  have kept :
      trimmed ⌊((((byScore observations).map
          (weigh keyHash)).length : Nat) : ℚ) * reputationTrimFrac⌋₊
          ((byScore observations).map (weigh keyHash)) =
        keptOf keyHash observations := by
    rw [trim_eq, trimmed_map, List.length_map, byScore, List.length_mergeSort]
    rfl
  have some := keptOf_ne_nil keyHash (Nat.lt_of_lt_of_le (by decide) quorum)
  rw [trimmedConsensus, List.length_map, if_neg (Nat.not_lt.mpr quorum)]
  simp only [sorted, kept, if_neg some,
    if_neg (not_le.mpr (epsilon_lt_sum some (keptOf_pos keyHash)))]

theorem byScore_perm (observations : List (Bytes 32 × ℚ)) :
    (byScore observations).Perm observations :=
  List.mergeSort_perm _ _

theorem pairwise_byScore (observations : List (Bytes 32 × ℚ)) :
    (byScore observations).Pairwise fun one other => one.2 ≤ other.2 :=
  pairwise_mergeSort_score Prod.snd observations

/-- A few bad observers leave the mean between the scores of others. -/
theorem mean_keptOf_between (some : 0 < observations.length)
    {bad : Bytes 32 × ℚ → Bool}
    (few : observations.countP bad ≤ observations.length / 4) :
    ∃ low ∈ observations, ∃ high ∈ observations,
      bad low = false ∧ bad high = false ∧
        realTrust low.2 ≤ mean (keptOf keyHash observations) ∧
        mean (keptOf keyHash observations) ≤ realTrust high.2 := by
  have permuted := byScore_perm observations
  rcases
      @trimmed_between _ _ _ _ bad (observations.length / 4) _
        (pairwise_byScore observations) (by rwa [permuted.countP_eq])
        (by rw [permuted.length_eq]; omega) with
    ⟨low, lowMember, high, highMember, lowGood, highGood, between⟩
  refine ⟨low, permuted.mem_iff.mp lowMember, high,
    permuted.mem_iff.mp highMember, lowGood, highGood, ?_⟩
  apply mean_between (fun item member => (keptOf_pos keyHash item member).2)
    (keptOf_ne_nil keyHash some)
  intro item member
  rcases List.mem_map.mp member with ⟨observation, inside, rfl⟩
  simp only [weigh, realTrust_le]
  exact between observation inside

/-- So many low scores that one of them is kept pull the mean down. -/
theorem mean_keptOf_lt {observations : List (Bytes 32 × ℚ)}
    {bad : Bytes 32 × ℚ → Bool} {low high : ℚ} (ordered : low < high)
    (scores :
      ∀ observation ∈ observations,
        observation.2 = if bad observation then low else high)
    (many : observations.length / 4 < observations.countP bad) :
    mean (keptOf keyHash observations) < realTrust high := by
  have permuted := byScore_perm observations
  have scored (observation : Bytes 32 × ℚ)
      (member : observation ∈ byScore observations) :=
    scores observation (permuted.mem_iff.mp member)
  rcases @exists_low_trimmed _ _ _ Prod.snd bad (observations.length / 4) _
      (pairwise_byScore observations)
        (fun one oneMember other otherMember isBad isGood => by
        rw [scored one oneMember, scored other otherMember, isBad, isGood]
        exact ordered)
      (by
        have few := observations.countP_le_length (p := bad)
        rw [permuted.length_eq]
        omega)
      (by rwa [permuted.countP_eq]) with
    ⟨kept, inside, isBad⟩
  have keptMember (observation : Bytes 32 × ℚ)
      (member :
        observation ∈
          trimmed (observations.length / 4) (byScore observations)) :
      observation ∈ byScore observations :=
    List.mem_of_mem_drop (List.mem_of_mem_take member)
  refine mean_lt (fun item member => (keptOf_pos keyHash item member).2) ?_
    ⟨weigh keyHash kept, List.mem_map_of_mem inside, ?_⟩
  · intro item member
    rcases List.mem_map.mp member with ⟨observation, inside, rfl⟩
    rw [weigh, realTrust_le, scored observation (keptMember observation inside)]
    split_ifs
    · exact ordered.le
    · exact le_rfl
  · rw [weigh, realTrust_lt, scored kept (keptMember kept inside), if_pos isBad]
    exact ordered

/-- Two orders of the observations give the same mean, unless a tie matters. -/
theorem mean_keptOf_perm {first second : List (Bytes 32 × ℚ)}
    (same : first.Perm second) (some : 0 < first.length)
    (ties :
      ∀ one ∈ first, ∀ other ∈ first, one.2 = other.2 →
        CutThrough Prod.snd (first.length / 4) first one.2 →
          observerWeight keyHash one.1 = observerWeight keyHash other.1) :
    mean (keptOf keyHash first) = mean (keptOf keyHash second) := by
  have ordered : (byScore first).Perm (byScore second) :=
    (byScore_perm first).trans (same.trans (byScore_perm second).symm)
  have alike :
      ∀ one ∈ byScore first, ∀ other ∈ byScore first, one.2 = other.2 →
        CutThrough Prod.snd (first.length / 4) (byScore first) one.2 →
          weigh keyHash one = weigh keyHash other := by
    intro one oneMember other otherMember tie through
    simp only [weigh, tie, Prod.mk.injEq, and_true]
    exact ties one ((byScore_perm first).mem_iff.mp oneMember) other
      ((byScore_perm first).mem_iff.mp otherMember) tie
      ((cutThrough_perm (byScore_perm first)).mp through)
  rcases trimmed_map_perm ordered (pairwise_byScore first)
      (pairwise_byScore second)
      (by rw [(byScore_perm first).length_eq]; omega) alike with
    kept | ⟨pivot, firstKept, secondKept⟩
  · rw [keptOf, keptOf, ← same.length_eq]
    exact mean_perm kept
  · have single (observations : List (Bytes 32 × ℚ))
        (nonempty : 0 < observations.length)
        (all :
          ∀ item ∈ trimmed (observations.length / 4) (byScore observations),
            item.2 = pivot) :
        mean (keptOf keyHash observations) = realTrust pivot := by
      have between :=
        mean_between (fun item member => (keptOf_pos keyHash item member).2)
          (keptOf_ne_nil keyHash nonempty)
          (fun item member => by
            rcases List.mem_map.mp member with ⟨observation, inside, rfl⟩
            rw [weigh, all observation inside]
            exact ⟨le_refl (realTrust pivot), le_rfl⟩)
      exact le_antisymm between.2 between.1
    rw [same.length_eq] at secondKept firstKept some
    rw [single first (by rwa [same.length_eq])
      (by rwa [same.length_eq]), single second some secondKept]

theorem oneSided_weigh {pivot : ℚ}
    (oneSided : OneSided Prod.snd pivot observations) :
    OneSided Prod.snd (realTrust pivot) (observations.map (weigh keyHash)) := by
  unfold OneSided at oneSided ⊢
  simpa only [List.mem_map, forall_exists_index, and_imp,
    forall_apply_eq_imp_iff₂, exists_exists_and_eq_and, weigh, realTrust_le,
    realTrust_lt] using oneSided

/-- Where all orders give one mean, tied observers weigh the same. -/
theorem observerWeight_eq_of_orders {order : List (Bytes 32 × ℚ)} {trim : Nat}
    (sorted : Ascending Prod.snd order) (enough : 2 * trim < order.length)
    (means :
      ∀ exchanged, exchanged.Perm order → Ascending Prod.snd exchanged →
        mean ((trimmed trim order).map (weigh keyHash)) =
          mean ((trimmed trim exchanged).map (weigh keyHash)))
    {one other : Bytes 32 × ℚ} (oneMember : one ∈ order)
    (otherMember : other ∈ order) (tie : one.2 = other.2)
    (through : CutThrough Prod.snd trim order one.2) :
    observerWeight keyHash one.1 = observerWeight keyHash other.1 := by
  have oneSided :=
    oneSided_weigh keyHash (oneSided_trimmed sorted enough through).2.2
  refine @alike_of_exchange (Bytes 32 × ℚ) _ _ Prod.snd _ _ _ _
    (fun observation => observerWeight keyHash observation.1) sorted enough
    through ?_ _ _ oneMember otherMember rfl tie.symm
  intro kept keptMember cut cutMember keptScore cutScore
  rcases exists_exchanged sorted enough keptMember cutMember
      (keptScore.trans cutScore.symm) with
    ⟨exchanged, rest, same, ascending, before, after⟩
  have equal := means exchanged same ascending
  rw [mean_perm (before.map _), mean_perm (after.map _)] at equal
  have weighed : weigh keyHash kept = weigh keyHash cut := by
    refine eq_of_mean_eq ?_ ?_ ?_ equal
    · intro item member
      rcases List.mem_map.mp
          (show item ∈ (kept :: cut :: rest).map (weigh keyHash) from member)
        with ⟨observation, _, rfl⟩
      exact observerWeight_pos keyHash observation.1
    · exact congrArg realTrust (keptScore.trans cutScore.symm)
    · rw [← keptScore] at oneSided
      unfold OneSided at oneSided
      simp only [(before.map (weigh keyHash)).mem_iff] at oneSided
      exact oneSided
  exact congrArg Prod.fst weighed

end Kept

namespace ControlState

variable {P : Primitives} {C : Crates} {L : FilterOps}

variable (self : ControlState P C L) (reading : Reading C)

theorem consensusTrust_eq (now later : Instant) (observed : Bytes 32) :
    self.consensusTrust reading now later observed =
      trimmedConsensus
        ((self.freshAbout reading now later observed).map
          (weigh reading.keyHash)) := by
  unfold consensusTrust freshAbout observations
  cases self.reputation.lookup observed with
  | none => rfl
  | some bucket => rfl

/--
There is a consensus about a peer, and it lies between what two observers
report that are no adversaries.
-/
def ConsensusHolds (self : ControlState P C L) (reading : Reading C)
    (now later : Instant) (observed : Bytes 32)
    (adversaries : Finset (Bytes 32)) : Prop :=
  ∃ trust,
    self.consensusTrust reading now later observed = some trust ∧
      ∃ low ∈ self.freshAbout reading now later observed,
        ∃ high ∈ self.freshAbout reading now later observed,
          low.1 ∉ adversaries ∧ high.1 ∉ adversaries ∧
            realTrust low.2 ≤ trust ∧ trust ≤ realTrust high.2

/-- The router with another bucket about a peer. -/
def withBucket (self : ControlState P C L) (observed : Bytes 32)
    (bucket : Bucket C) : ControlState P C L :=
  { self with reputation := self.reputation.insert observed bucket }

theorem freshAbout_withBucket (now later : Instant) (observed : Bytes 32)
    (bucket : Bucket C) :
    (self.withBucket observed bucket).freshAbout reading now later observed =
      freshObservations reading.value (freshnessCutoff now later) bucket := by
  rw [freshAbout, observations, withBucket, KeyedMap.lookup_insert_self]
  rfl

/-- The router, had the observers of a peer reported these scores. -/
def withScores (self : ControlState P C L) (observed : Bytes 32)
    (scores : Bytes 32 → C.F32) : ControlState P C L :=
  self.withBucket observed
    ((self.observations observed).mapValues fun observer entry =>
      (entry.1, scores observer, entry.2.2))

theorem freshAbout_withScores (now later : Instant) (observed : Bytes 32)
    (scores : Bytes 32 → C.F32) :
    (self.withScores observed scores).freshAbout reading now later observed =
      (self.freshAbout reading now later observed).map fun observation =>
        (observation.1, reading.value (scores observation.1)) := by
  rw [withScores, freshAbout_withBucket, freshAbout]
  generalize freshnessCutoff now later = cutoff
  simp only [freshObservations, KeyedMap.mapValues, List.filter_map,
    List.map_map]
  rfl

/-- The number of adversaries among fresh observers. -/
def adversaryCount (observations : List (Bytes 32 × ℚ))
    (adversaries : Finset (Bytes 32)) : Nat :=
  observations.countP fun observation => observation.1 ∈ adversaries

theorem consensusHolds_of_few {self : ControlState P C L}
    {reading : Reading C} {now later : Instant} {observed : Bytes 32}
    {adversaries : Finset (Bytes 32)}
    (quorum :
      reputationMinQuorum ≤ (self.freshAbout reading now later observed).length)
    (few :
      adversaryCount (self.freshAbout reading now later observed) adversaries ≤
        (self.freshAbout reading now later observed).length / 4) :
    self.ConsensusHolds reading now later observed adversaries := by
  have some : 0 < (self.freshAbout reading now later observed).length :=
    Nat.lt_of_lt_of_le (by decide) quorum
  rcases mean_keptOf_between reading.keyHash some few with
    ⟨low, lowMember, high, highMember, lowGood, highGood, between⟩
  refine ⟨_, ?_, low, lowMember, high, highMember, by simpa using lowGood,
    by simpa using highGood, between⟩
  rw [consensusTrust_eq, trimmedConsensus_weigh reading.keyHash quorum]

/--
A quarter of the observers, by number, cannot move the consensus out of the
range of what the others report.
-/
theorem quarter_cannot_move_consensus (self : ControlState P C L)
    (reading : Reading C) (now later : Instant) (observed : Bytes 32)
    (adversaries : Finset (Bytes 32))
    (quorum :
      reputationMinQuorum ≤ (self.freshAbout reading now later observed).length)
    (few :
      adversaryCount (self.freshAbout reading now later observed) adversaries ≤
        (self.freshAbout reading now later observed).length / 4) :
    self.ConsensusHolds reading now later observed adversaries :=
  consensusHolds_of_few quorum few

end ControlState

/-- The weight of the observers that `chosen` picks. -/
def weightOf (keyHash : Bytes 32 → Bytes 64)
    (observations : List (Bytes 32 × ℚ)) (chosen : Bytes 32 → Bool) : ℚ :=
  ((observations.filter fun observation => chosen observation.1).map
    fun observation => observerWeight keyHash observation.1).sum

namespace ControlState

variable {P : Primitives} {C : Crates} {L : FilterOps}

/--
Whatever the observers of a peer report, the adversaries cannot move the
consensus out of the range of what the others report, if and only if they are
no more than a quarter of the observers by number; their weight does not
matter.
-/
theorem consensus_holds_iff_few (self : ControlState P C L)
    (reading : Reading C) (now later : Instant) (observed : Bytes 32)
    (adversaries : Finset (Bytes 32))
    (quorum :
      reputationMinQuorum ≤ (self.freshAbout reading now later observed).length)
    (low high : C.F32) (ordered : reading.value low < reading.value high) :
    (∀ scores,
        (self.withScores observed scores).ConsensusHolds reading now later
          observed adversaries) ↔
      adversaryCount (self.freshAbout reading now later observed) adversaries ≤
        (self.freshAbout reading now later observed).length / 4 := by
  have fresh := self.freshAbout_withScores reading now later observed
  constructor
  · intro holds
    by_contra many
    rcases holds fun observer =>
        if observer ∈ adversaries then low else high with
      ⟨trust, consensus, honest, member, _, _, good, _, above, _⟩
    rw [consensusTrust_eq, fresh, trimmedConsensus_weigh _ (by simpa),
      Option.some.injEq] at consensus
    rw [fresh] at member
    rcases List.mem_map.mp member with ⟨observation, _, rfl⟩
    have lower :=
      @mean_keptOf_lt reading.keyHash
        ((self.freshAbout reading now later observed).map fun observation =>
          (observation.1, reading.value
            (if observation.1 ∈ adversaries then low else high)))
        (fun observation => observation.1 ∈ adversaries) _ _ ordered
        (by
          intro observation member
          rcases List.mem_map.mp member with ⟨original, _, rfl⟩
          simp only [decide_eq_true_eq]
          split_ifs <;> rfl)
        (by
          rw [List.length_map, List.countP_map]
          exact Nat.lt_of_not_le many)
    rw [consensus] at lower
    simp only [if_neg good] at above
    exact absurd above lower.not_ge
  · intro few scores
    apply consensusHolds_of_few
    · rwa [fresh, List.length_map]
    · rw [fresh, List.length_map, adversaryCount, List.countP_map]
      exact few

end ControlState

theorem nodup_freshObservations (value : C.F32 → ℚ) (cutoff : Instant)
    (bucket : Bucket C) :
    (freshObservations value cutoff bucket).Nodup := by
  apply List.Nodup.of_map Prod.fst
  rw [freshObservations, List.map_map]
  exact bucket.distinct.sublist (List.filter_sublist.map Prod.fst)

theorem exists_perm_map_eq {Source Image : Type*} {change : Source → Image}
    {source : List Source} {image : List Image}
    (same : image.Perm (source.map change)) :
    ∃ reordered : List Source,
      reordered.Perm source ∧ reordered.map change = image := by
  induction source generalizing image with
  | nil => exact ⟨[], List.Perm.refl _, (List.Perm.eq_nil same).symm⟩
  | cons head tail induction =>
    rw [List.map_cons] at same
    rcases List.append_of_mem (same.mem_iff.mpr List.mem_cons_self) with
      ⟨front, back, rfl⟩
    rcases induction (List.perm_middle.symm.trans same).cons_inv with
      ⟨reordered, permuted, split⟩
    rcases List.map_eq_append_iff.mp split with ⟨left, right, rfl, rfl, rfl⟩
    exact ⟨left ++ head :: right,
      List.perm_middle.trans (permuted.cons head), by simp⟩

/-- Every order of the fresh observations is that of some map. -/
theorem exists_freshObservations_eq {value : C.F32 → ℚ} {cutoff : Instant}
    {bucket : Bucket C} {order : List (Bytes 32 × ℚ)}
    (same : order.Perm (freshObservations value cutoff bucket)) :
    ∃ reordered : Bucket C,
      freshObservations value cutoff reordered = order := by
  rcases exists_perm_map_eq same with ⟨entries, permuted, rfl⟩
  have distinct : (entries.map Prod.fst).Nodup :=
    (permuted.map Prod.fst).nodup_iff.mpr
      (bucket.distinct.sublist (List.filter_sublist.map Prod.fst))
  refine ⟨⟨entries, distinct⟩, ?_⟩
  have fresh :
      entries.filter (fun entry => ¬entry.2.2.2 < cutoff) = entries := by
    rw [List.filter_eq_self]
    intro entry member
    exact (List.mem_filter.mp (permuted.mem_iff.mp member)).2
  rw [freshObservations, fresh]

theorem consensusTrust_of_sorted {P : Primitives} {L : FilterOps}
    {self : ControlState P C L} {reading : Reading C} {now later : Instant}
    {observed : Bytes 32}
    (quorum :
      reputationMinQuorum ≤ (self.freshAbout reading now later observed).length)
    (sorted :
      (self.freshAbout reading now later observed).Pairwise
        fun one other => one.2 ≤ other.2) :
    self.consensusTrust reading now later observed =
      some
        (mean
          ((trimmed ((self.freshAbout reading now later observed).length / 4)
              (self.freshAbout reading now later observed)).map
            (weigh reading.keyHash))) := by
  rw [self.consensusTrust_eq, trimmedConsensus_weigh _ quorum, keptOf,
    byScore, List.mergeSort_of_pairwise (by simpa using sorted)]

/-- The consensus in any order, if all orders have the same. -/
theorem mean_eq_of_orders {P : Primitives} {L : FilterOps}
    {self : ControlState P C L} {reading : Reading C} {now later : Instant}
    {observed : Bytes 32}
    (quorum :
      reputationMinQuorum ≤ (self.freshAbout reading now later observed).length)
    (ordered :
      ∀ bucket,
        (∀ observation,
          observation ∈ self.freshAbout reading now later observed ↔
            observation ∈
              (self.withBucket observed bucket).freshAbout reading now later
                observed) →
          self.consensusTrust reading now later observed =
            (self.withBucket observed bucket).consensusTrust reading now later
              observed)
    {order : List (Bytes 32 × ℚ)}
    (same : order.Perm (self.freshAbout reading now later observed))
    (sorted : Ascending Prod.snd order) :
    self.consensusTrust reading now later observed =
      some
        (mean
          ((trimmed ((self.freshAbout reading now later observed).length / 4)
              order).map
            (weigh reading.keyHash))) := by
  rcases exists_freshObservations_eq same with ⟨bucket, fresh⟩
  have about :
      (self.withBucket observed bucket).freshAbout reading now later
        observed = order :=
    (self.freshAbout_withBucket reading now later observed bucket).trans fresh
  rw [ordered bucket (fun observation => by rw [about, same.mem_iff]),
    consensusTrust_of_sorted (by rwa [about, same.length_eq])
      (by rwa [about]), about, same.length_eq]

/--
All routers with the same fresh observations about a peer have the same
consensus, whatever the order of their maps, if and only if the quorum is not
reached, or observers that report the same score weigh the same wherever a cut
goes through them and what is kept has other scores as well.
-/
theorem consensus_same_iff {P : Primitives} {C : Crates} {L : FilterOps}
    (self : ControlState P C L) (reading : Reading C) (now later : Instant)
    (observed : Bytes 32) :
    (∀ (other : ControlState P C L) (nowToo laterToo : Instant),
        (∀ observation,
          observation ∈ self.freshAbout reading now later observed ↔
            observation ∈
              other.freshAbout reading nowToo laterToo observed) →
          self.consensusTrust reading now later observed =
            other.consensusTrust reading nowToo laterToo observed) ↔
      (self.freshAbout reading now later observed).length <
          reputationMinQuorum ∨
        ∀ one ∈ self.freshAbout reading now later observed,
          ∀ other ∈ self.freshAbout reading now later observed,
            one.2 = other.2 →
              CutThrough Prod.snd
                  ((self.freshAbout reading now later observed).length / 4)
                  (self.freshAbout reading now later observed) one.2 →
                observerWeight reading.keyHash one.1 =
                  observerWeight reading.keyHash other.1 := by
  constructor
  · intro always
    rcases Nat.lt_or_ge (self.freshAbout reading now later observed).length
        reputationMinQuorum with few | quorum
    · exact Or.inl few
    · right
      intro one oneMember other otherMember tie through
      have permuted :=
        byScore_perm (self.freshAbout reading now later observed)
      have mean_eq (order : List (Bytes 32 × ℚ))
          (same : order.Perm (self.freshAbout reading now later observed)) :=
        mean_eq_of_orders quorum
          (fun bucket => always (self.withBucket observed bucket) now later)
          same
      refine observerWeight_eq_of_orders reading.keyHash (pairwise_byScore _)
        (by
          rw [permuted.length_eq]
          unfold reputationMinQuorum at quorum
          omega)
        (fun exchanged same sorted => Option.some.inj ?_)
        (permuted.mem_iff.mpr oneMember) (permuted.mem_iff.mpr otherMember)
        tie ((cutThrough_perm permuted).mpr through)
      rw [← mean_eq _ permuted (pairwise_byScore _),
        ← mean_eq _ (same.trans permuted) sorted]
  · intro condition other nowToo laterToo same
    have permuted :
        (self.freshAbout reading now later observed).Perm
          (other.freshAbout reading nowToo laterToo observed) :=
      (List.perm_ext_iff_of_nodup (nodup_freshObservations _ _ _)
        (nodup_freshObservations _ _ _)).mpr same
    rw [self.consensusTrust_eq, other.consensusTrust_eq]
    rcases Nat.lt_or_ge (self.freshAbout reading now later observed).length
        reputationMinQuorum with few | quorum
    · rw [trimmedConsensus, trimmedConsensus, List.length_map, List.length_map,
        if_pos few, if_pos (by rwa [← permuted.length_eq])]
    · rw [trimmedConsensus_weigh _ quorum,
        trimmedConsensus_weigh _ (by rwa [← permuted.length_eq]),
        mean_keptOf_perm _ permuted (Nat.lt_of_lt_of_le (by decide) quorum)
          (condition.resolve_left (Nat.not_lt.mpr quorum))]

/-! ## Samples -/

/-- An observer with a key of many leading ones. -/
def heavyKey : Bytes 32 := Bytes.replicate 32 9

/-- Scores stand for themselves, and one key is hard to find. -/
def sampleReading : Reading sampleCrates where
  value score := ((show Nat from score : Nat) : ℚ)
  keyHash key := Bytes.replicate 64 (if key = heavyKey then 0xff else 0)

/-- A router with these observations about the peer `rootKey`. -/
def observingRouter (scores : List (Bytes 32 × Nat)) : SampleRouter :=
  { newRouter nearKey with
    reputation :=
      KeyedMap.empty.insert rootKey
        (scores.foldl
          (fun bucket score => bucket.insert score.1 (0, score.2, 0))
          .empty) }

/-- Light observers that report nothing, and a heavy one that trusts. -/
def sybilRouter : SampleRouter :=
  observingRouter
    [(Bytes.replicate 32 1, 0), (Bytes.replicate 32 2, 0),
      (Bytes.replicate 32 3, 0), (Bytes.replicate 32 4, 0), (heavyKey, 1)]

/-- The light observers. -/
def sybils : Finset (Bytes 32) :=
  {Bytes.replicate 32 1, Bytes.replicate 32 2, Bytes.replicate 32 3,
    Bytes.replicate 32 4}

/-- Sybils of a fifth of the weight condemn a peer that the others trust. -/
theorem sybils_move_consensus :
    reputationMinQuorum ≤
        (sybilRouter.freshAbout sampleReading 0 0 rootKey).length ∧
      4 * weightOf sampleReading.keyHash
          (sybilRouter.freshAbout sampleReading 0 0 rootKey)
          (fun observer => observer ∈ sybils) ≤
        weightOf sampleReading.keyHash
          (sybilRouter.freshAbout sampleReading 0 0 rootKey)
          (fun _ => true) ∧
      ¬sybilRouter.ConsensusHolds sampleReading 0 0 rootKey sybils := by
  have quorum :
      reputationMinQuorum ≤
        (sybilRouter.freshAbout sampleReading 0 0 rootKey).length := by
    decide +kernel
  refine ⟨quorum, by decide +kernel, ?_⟩
  rintro ⟨trust, consensus, low, member, _, _, honest, _, above, _⟩
  rw [consensusTrust_of_sorted quorum (by decide +kernel)] at consensus
  cases consensus
  have below :
      ∀ low ∈ sybilRouter.freshAbout sampleReading 0 0 rootKey,
        low.1 ∉ sybils →
          ¬realTrust low.2 ≤
            mean
              ((trimmed
                ((sybilRouter.freshAbout sampleReading 0 0 rootKey).length / 4)
                (sybilRouter.freshAbout sampleReading 0 0 rootKey)).map
                (weigh sampleReading.keyHash)) := by
    decide +kernel
  exact below low member honest above

/-- One observer in four lies, and all weigh the same. -/
def liarRouter : SampleRouter :=
  observingRouter
    [(Bytes.replicate 32 1, 0), (Bytes.replicate 32 2, 1),
      (Bytes.replicate 32 3, 1), (Bytes.replicate 32 4, 1)]

/-- One liar among four observers does not move the consensus. -/
theorem liar_fails_by_number :
    liarRouter.ConsensusHolds sampleReading 0 0 rootKey
      {Bytes.replicate 32 1} :=
  ControlState.quarter_cannot_move_consensus liarRouter sampleReading 0 0
    rootKey _ (by decide +kernel) (by decide +kernel)

/-- Whatever is reported, one observer in four cannot move the consensus. -/
theorem liar_fails_with_any_scores :
    (liarRouter.freshAbout sampleReading 0 0 rootKey).length = 4 ∧
      ∀ scores,
        (liarRouter.withScores rootKey scores).ConsensusHolds sampleReading 0 0
          rootKey {Bytes.replicate 32 1} :=
  ⟨by decide +kernel,
    (ControlState.consensus_holds_iff_few liarRouter sampleReading 0 0 rootKey
      {Bytes.replicate 32 1} (by decide +kernel) (0 : Nat) (1 : Nat)
      (by decide +kernel)).mpr (by decide +kernel)⟩

/-- Two observers report the same; the heavy one is iterated over first. -/
def heavyFirst : SampleRouter :=
  observingRouter
    [(heavyKey, 0), (Bytes.replicate 32 1, 0), (Bytes.replicate 32 2, 1),
      (Bytes.replicate 32 3, 1)]

/-- The same observations in another order. -/
def heavySecond : SampleRouter :=
  observingRouter
    [(Bytes.replicate 32 1, 0), (heavyKey, 0), (Bytes.replicate 32 2, 1),
      (Bytes.replicate 32 3, 1)]

/-- The order of the map decides the consensus. -/
theorem order_moves_consensus :
    (∀ observation,
        observation ∈ heavyFirst.freshAbout sampleReading 0 0 rootKey ↔
          observation ∈ heavySecond.freshAbout sampleReading 0 0 rootKey) ∧
      heavyFirst.consensusTrust sampleReading 0 0 rootKey ≠
        heavySecond.consensusTrust sampleReading 0 0 rootKey := by
  have permuted :
      (heavyFirst.freshAbout sampleReading 0 0 rootKey).Perm
        (heavySecond.freshAbout sampleReading 0 0 rootKey) := by
    decide +kernel
  refine ⟨fun observation => permuted.mem_iff, ?_⟩
  rw [consensusTrust_of_sorted (by decide +kernel) (by decide +kernel),
    consensusTrust_of_sorted (by decide +kernel) (by decide +kernel)]
  decide +kernel

end Norn.Control
