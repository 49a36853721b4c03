import Norn.Cuckoo.Merge

/-!
# What `add` and `merge` do to the keys of a filter

A chain of kicks trades fingerprints: what goes in is there, what it ends with
is gone, and every other key is where it was or in its other bucket.  So a
merge in which no chain runs out is the union of two filters, and an `add`
whose chain runs out has taken another fingerprint out.
-/

namespace Norn.Cuckoo

open Foundation Foundation.Run CuckooFilter CuckooTable

section Trading

variable {hash : Blake2b64} {key : List UInt8}

variable {self filter : CuckooFilter} {draws : Draws}

theorem contains_iff_isCopy :
    self.contains hash key = true ↔
      ∃ bucket slot, IsCopy hash key (bucket, self.buckets bucket slot) := by
  rw [contains_iff, total_pos_iff]
  simp only [keyCopies, copies_weight_pos_iff]
  rfl

/-- The copies of a key are traded one for one. -/
theorem copies_place (self : CuckooFilter) {fp : UInt16} (real : fp ≠ 0)
    {bucket start : Fin numBuckets}
    (starts : (paths hash).IsPlace bucket fp start)
    (choose : Nat → Fin slotsPerBucket) (kicks : Nat) :
    (self.place hash choose kicks bucket start fp real
          starts).1.buckets.total (keyCopies hash key).weight +
        (keyCopies hash key).leftOver
          (self.place hash choose kicks bucket start fp real starts).2 =
      self.buckets.total (keyCopies hash key).weight +
        if IsCopy hash key (bucket, fp) then 1 else 0 :=
  total_place (keyCopies hash key) starts choose kicks self.buckets

/-- The fingerprint that `add` drops, with the bucket it was offered last. -/
def CuckooFilter.addLoss (self : CuckooFilter) (hash : Blake2b64)
    (draws : Draws) (key : List UInt8) :
    Option (Fin numBuckets × UInt16) :=
  (self.place hash draws.slot maxKicks (bucket1 hash key)
    (kickStart hash draws key) (fingerprint hash key)
    (fingerprint_ne_zero hash key)
    (isPlace_kickStart hash draws key)).2

/--
The two buckets of a key are full, and a chain of `MAX_KICKS` kicks from one
of them can find every bucket full and end with `lost` in hand.
-/
structure CuckooFilter.Strands (self : CuckooFilter) (hash : Blake2b64)
    (key : List UInt8) (lost : Fin numBuckets × UInt16) : Prop where
  full :
    ∀ bucket,
      (paths hash).IsPlace (bucket1 hash key) (fingerprint hash key) bucket →
        ∀ slot, self.buckets bucket slot ≠ 0
  chain :
    ∃ start,
      (paths hash).IsPlace (bucket1 hash key) (fingerprint hash key) start ∧
        CuckooTable.Strands (paths hash) 0 maxKicks self.buckets start
          (fingerprint hash key) lost

/-- `add` may drop just what a chain of kicks can end with. -/
theorem strands_iff_addLoss {lost : Fin numBuckets × UInt16} :
    self.Strands hash key lost ↔
      ∃ draws, self.addLoss hash draws key = some lost := by
  constructor
  · rintro ⟨full, start, starts, chain⟩
    rcases (strands_iff ⟨0, slotsPerBucket_pos⟩).mp chain with
      ⟨choose, ended⟩
    have one :
        self.buckets.replace (bucket1 hash key) 0 (fingerprint hash key) =
          none :=
      replace_eq_none_iff.mpr (full _ (Or.inl rfl))
    have two :
        self.buckets.replace
            ((paths hash).alternate (bucket1 hash key) (fingerprint hash key))
            0 (fingerprint hash key) = none :=
      replace_eq_none_iff.mpr (full _ (Or.inr rfl))
    refine ⟨⟨decide (start = bucket1 hash key), choose⟩, ?_⟩
    have begun :
        kickStart hash
            ⟨decide (start = bucket1 hash key), choose⟩ key = start := by
      unfold kickStart
      rcases starts with rfl | rfl
      · simp
      · simp only [decide_eq_true_eq]
        split_ifs with same
        · exact same.symm
        · rfl
    simp only [addLoss, CuckooFilter.place, CuckooTable.place,
      begun, one, two, ended]
  · rintro ⟨draws, ended⟩
    simp only [addLoss, CuckooFilter.place,
      CuckooTable.place] at ended
    split at ended
    · cases ended
    · rename_i one
      split at ended
      · cases ended
      · rename_i two
        refine ⟨?_, _, isPlace_kickStart hash draws key,
          (strands_iff ⟨0, slotsPerBucket_pos⟩).mpr
            ⟨draws.slot, ended⟩⟩
        rintro bucket (rfl | rfl)
        · exact replace_eq_none_iff.mp one
        · exact replace_eq_none_iff.mp two

/-- Two keys that share a fingerprint and a bucket have the same copies. -/
theorem isCopy_congr {other : List UInt8}
    (shared : IsCopy hash other (bucket1 hash key, fingerprint hash key))
    (place : Fin numBuckets × UInt16) :
    IsCopy hash other place ↔ IsCopy hash key place := by
  rcases shared with ⟨same, alike⟩
  have same : fingerprint hash key = fingerprint hash other := same
  have alike :
      (paths hash).IsPlace (bucket1 hash other) (fingerprint hash other)
        (bucket1 hash key) :=
    alike
  unfold IsCopy
  rw [same]
  refine and_congr_right fun _ => ?_
  unfold Alternation.IsPlace
  rcases alike with equal | crossed
  · rw [equal]
  · rw [crossed, (paths hash).alternate_alternate]
    exact or_comm

/-- Keys with a common copy share a fingerprint and a bucket. -/
theorem isCopy_of_common {other : List UInt8}
    {place : Fin numBuckets × UInt16} (theirs : IsCopy hash other place)
    (mine : IsCopy hash key place) :
    IsCopy hash other (bucket1 hash key, fingerprint hash key) := by
  rcases place with ⟨bucket, fp⟩
  rcases theirs with ⟨rfl, inTheirs⟩
  rcases mine with ⟨same, inMine⟩
  have same : fingerprint hash other = fingerprint hash key := same
  have inMine :
      (paths hash).IsPlace (bucket1 hash key) (fingerprint hash key) bucket :=
    inMine
  refine ⟨same.symm, ?_⟩
  rw [← same] at inMine
  rcases inMine with rfl | rfl
  · exact inTheirs
  · exact (paths hash).isPlace_alternate_iff.mp inTheirs

/--
What an `add` that drops a fingerprint does to the answers: they stay if the
fingerprint is the new key's own, or if the new key was there before and the
keys that lose a copy keep another.
-/
theorem contains_add_iff {lost : Fin numBuckets × UInt16}
    (dropped : filter.addLoss hash draws key = some lost) :
    (∀ other,
        (filter.add hash draws key).1.contains hash other =
          filter.contains hash other) ↔
      IsCopy hash key lost ∨
        filter.contains hash key = true ∧
          ∀ other, IsCopy hash other lost →
            1 < filter.buckets.total (keyCopies hash other).weight := by
  have balance (other : List UInt8) :
      (filter.add hash draws key).1.buckets.total
            (keyCopies hash other).weight +
          (if IsCopy hash other lost then 1 else 0) =
        filter.buckets.total (keyCopies hash other).weight +
          if IsCopy hash other (bucket1 hash key, fingerprint hash key) then 1
          else 0 := by
    have trade :=
      @copies_place hash other filter _ (fingerprint_ne_zero hash key) _ _
        (isPlace_kickStart hash draws key) draws.slot maxKicks
    unfold addLoss at dropped
    rw [dropped] at trade
    exact trade
  have own : IsCopy hash key (bucket1 hash key, fingerprint hash key) :=
    ⟨rfl, Or.inl rfl⟩
  have same (other : List UInt8) :
      (filter.add hash draws key).1.contains hash other =
          filter.contains hash other ↔
        (0 < (filter.add hash draws key).1.buckets.total
            (keyCopies hash other).weight ↔
          0 < filter.buckets.total (keyCopies hash other).weight) := by
    rw [Bool.eq_iff_iff, contains_iff, contains_iff]
  simp only [same, contains_iff]
  constructor
  · intro unchanged
    by_cases back : IsCopy hash key lost
    · exact Or.inl back
    · have mine := balance key
      rw [if_neg back, if_pos own] at mine
      refine Or.inr ⟨(unchanged key).mp (by omega), fun other copy => ?_⟩
      have apart :
          ¬ IsCopy hash other (bucket1 hash key, fingerprint hash key) :=
        fun shared => back ((isCopy_congr shared lost).mp copy)
      have theirs := balance other
      rw [if_pos copy, if_neg apart] at theirs
      have kept := (unchanged other).mpr (by omega)
      omega
  · intro spared other
    have theirs := balance other
    by_cases shared :
        IsCopy hash other (bucket1 hash key, fingerprint hash key)
    · rcases spared with back | ⟨before, doubled⟩
      · rw [if_pos shared, if_pos ((isCopy_congr shared lost).mpr back)]
          at theirs
        omega
      · have held : 0 < filter.buckets.total (keyCopies hash other).weight := by
          rw [← contains_iff, contains_iff_isCopy] at before ⊢
          rcases before with ⟨bucket, slot, copy⟩
          exact ⟨bucket, slot, (isCopy_congr shared _).mpr copy⟩
        rw [if_pos shared] at theirs
        split_ifs at theirs <;> omega
    · rw [if_neg shared] at theirs
      by_cases copy : IsCopy hash other lost
      · rw [if_pos copy] at theirs
        rcases spared with back | ⟨_, doubled⟩
        · exact absurd (isCopy_of_common copy back) shared
        · have two := doubled other copy
          omega
      · rw [if_neg copy] at theirs
        omega

theorem contains_of_mergeSlot {bucket : Fin numBuckets} {fp : UInt16}
    (held : (self.mergeSlot hash draws bucket fp).contains hash key = true) :
    self.contains hash key = true ∨ IsCopy hash key (bucket, fp) := by
  unfold mergeSlot at held
  split_ifs at held with empty present
  · exact Or.inl held
  · exact Or.inl held
  · have balance :=
      @copies_place hash key self fp empty bucket bucket (Or.inl rfl) draws.slot
        mergeKicks
    rw [contains_iff] at held ⊢
    by_cases copy : IsCopy hash key (bucket, fp)
    · exact Or.inr copy
    · rw [if_neg copy] at balance
      exact Or.inl (by omega)

theorem contains_mergeSlot_of_isCopy {bucket : Fin numBuckets} {fp : UInt16}
    (copy : IsCopy hash key (bucket, fp))
    (complete : self.mergeLoss hash draws bucket fp = none) :
    (self.mergeSlot hash draws bucket fp).contains hash key = true := by
  unfold mergeSlot
  unfold mergeLoss at complete
  split_ifs at complete ⊢ with empty present
  · exact absurd (copy.1.symm.trans empty) (fingerprint_ne_zero hash key)
  · rw [contains_iff_isCopy]
    simp only [Bool.or_eq_true, containsSlot_iff] at present
    rcases present with ⟨slot, here⟩ | ⟨slot, here⟩
    · exact ⟨bucket, slot, by rwa [here]⟩
    · refine ⟨bucket2 hash bucket fp, slot, ?_⟩
      rw [here]
      exact ⟨copy.1, copy.1 ▸ (paths hash).isPlace_alternate_iff.mpr
        (copy.1 ▸ copy.2)⟩
  · have balance :=
      @copies_place hash key self fp empty bucket bucket (Or.inl rfl) draws.slot
        mergeKicks
    rw [complete, CuckooTable.Weighting.leftOver, if_pos copy] at balance
    rw [contains_iff]
    omega

/-- No chain of kicks of a merge runs out. -/
def Completes (hash : Blake2b64) (filter other : CuckooFilter)
    (draws : MergeDraws) : Prop :=
  Along (mergePlace hash draws other)
    (fun merged place =>
      merged.mergeLoss hash (draws place.1 place.2) place.1
        (other.buckets place.1 place.2) = none)
    filter slotOrder

/-- A merge brings in no key that neither filter had. -/
theorem contains_of_run {other : CuckooFilter} {draws : MergeDraws}
    {places : List (Fin numBuckets × Fin slotsPerBucket)}
    (held :
      (run (mergePlace hash draws other) filter places).contains hash key =
        true) :
    filter.contains hash key = true ∨ other.contains hash key = true := by
  induction places generalizing filter with
  | nil => exact Or.inl held
  | cons place rest induction =>
    rcases induction held with earlier | merged
    · rcases contains_of_mergeSlot earlier with before | copy
      · exact Or.inl before
      · exact Or.inr (contains_iff_isCopy.mpr ⟨_, _, copy⟩)
    · exact Or.inr merged

/-- A merge that loses nothing has all keys of both filters. -/
theorem contains_run {other : CuckooFilter} {draws : MergeDraws}
    {places : List (Fin numBuckets × Fin slotsPerBucket)}
    (complete :
      Along (mergePlace hash draws other)
        (fun merged place =>
          merged.mergeLoss hash (draws place.1 place.2) place.1
            (other.buckets place.1 place.2) = none)
        filter places)
    (held :
      filter.contains hash key = true ∨
        ∃ place ∈
          places, IsCopy hash key (place.1, other.buckets place.1 place.2)) :
    (run (mergePlace hash draws other) filter places).contains hash key =
      true := by
  induction places generalizing filter with
  | nil =>
    rcases held with before | ⟨place, member, _⟩
    · exact before
    · cases member
  | cons place rest induction =>
    rcases complete with ⟨first, later⟩
    apply induction later
    rcases held with before | ⟨chosen, member, copy⟩
    · refine Or.inl (contains_mergeSlot before ?_)
      intro lost ended
      rw [first] at ended
      cases ended
    · rcases List.mem_cons.mp member with rfl | behind
      · exact Or.inl (contains_mergeSlot_of_isCopy copy first)
      · exact Or.inr ⟨chosen, behind, copy⟩

theorem mem_slotOrder (bucket : Fin numBuckets) (slot : Fin slotsPerBucket) :
    (bucket, slot) ∈ slotOrder := by
  simp [slotOrder_eq]

end Trading

/--
Whatever the draws, an `add` that returns false leaves every answer as it was,
if and only if every chain of kicks through full buckets that can start at the
buckets of the key ends with the fingerprint of the key itself, or the key was
there before and what the chain ends with is there twice.
-/
theorem failed_add_harmless_iff (hash : Blake2b64) (filter : CuckooFilter)
    (key : List UInt8) :
    (∀ draws, (filter.add hash draws key).2 = false →
        ∀ other,
          (filter.add hash draws key).1.contains hash other =
            filter.contains hash other) ↔
      ∀ lost, filter.Strands hash key lost →
        IsCopy hash key lost ∨
          filter.contains hash key = true ∧
            ∀ other, IsCopy hash other lost →
              1 < filter.buckets.total (keyCopies hash other).weight := by
  have failed_iff (draws : Draws) :
      (filter.add hash draws key).2 = false ↔
        ∃ lost, filter.addLoss hash draws key = some lost :=
    Option.isNone_eq_false_iff.trans Option.isSome_iff_exists
  constructor
  · intro harmless lost strands
    rcases strands_iff_addLoss.mp strands with ⟨draws, dropped⟩
    exact (contains_add_iff dropped).mp
      (harmless draws ((failed_iff draws).mpr ⟨lost, dropped⟩))
  · intro spared draws failed
    rcases (failed_iff draws).mp failed with ⟨lost, dropped⟩
    exact (contains_add_iff dropped).mpr
      (spared lost (strands_iff_addLoss.mpr ⟨draws, dropped⟩))

/--
A merged filter contains only what one of the two filters contained, and if no
chain of kicks runs out, everything that one of them contained.
-/
theorem merge_is_union (hash : Blake2b64) (filter other : CuckooFilter)
    (draws : MergeDraws) (key : List UInt8) :
    ((filter.merge hash draws other).contains hash key = true →
        filter.contains hash key = true ∨ other.contains hash key = true) ∧
      (Completes hash filter other draws →
        ((filter.merge hash draws other).contains hash key = true ↔
          filter.contains hash key = true ∨
            other.contains hash key = true)) := by
  have only :
      (filter.merge hash draws other).contains hash key = true →
        filter.contains hash key = true ∨ other.contains hash key = true :=
    fun held => contains_of_run held
  refine ⟨only, fun complete => ⟨only, fun held => ?_⟩⟩
  have copied :
      filter.contains hash key = true ∨
        ∃ place ∈ slotOrder,
          IsCopy hash key (place.1, other.buckets place.1 place.2) := by
    rcases held with here | there
    · exact Or.inl here
    · rcases contains_iff_isCopy.mp there with ⟨bucket, slot, copy⟩
      exact Or.inr ⟨(bucket, slot), mem_slotOrder bucket slot, copy⟩
  rw [merge_eq_run]
  exact contains_run complete copied

/-- In a bucket of settled fingerprints every chain of kicks runs out. -/
theorem cascade_runs_out {hash : Blake2b64} {bucket : Fin numBuckets}
    {table : Buckets} {hand : UInt16}
    (settled : ∀ slot, SoleBucket hash bucket (table bucket slot))
    (handSettled : SoleBucket hash bucket hand)
    (choose : Nat → Fin slotsPerBucket) (kicks : Nat) :
    ∃ left,
      (table.cascade (paths hash) 0 choose kicks bucket hand).2 =
        some (bucket, left) := by
  induction kicks generalizing table hand with
  | zero => exact ⟨hand, rfl⟩
  | succ kicks induction =>
    have crowded : Crowded hash bucket 0 0 table hand :=
      { others := fun slot _ => (settled slot).1
        settled := settled
        hand_ne := handSettled.1
        hand_settled := handSettled }
    rw [crowded.cascade_succ]
    exact induction (crowded.settled_put _) (settled _)

theorem add_eq (hash : Blake2b64) (self : CuckooFilter) (draws : Draws)
    (key : List UInt8) {placed : Buckets × Option (Fin numBuckets × UInt16)}
    (same :
      self.buckets.place (paths hash) 0 draws.slot maxKicks
        (kickStart hash draws key) (bucket1 hash key)
        (fingerprint hash key) = placed) :
    (self.add hash draws key).1.buckets = placed.1 ∧
      (self.add hash draws key).2 = placed.2.isNone ∧
      self.addLoss hash draws key = placed.2 := by
  subst same
  exact ⟨rfl, rfl, rfl⟩

/-- The new key of the sample. -/
def lateKey : List UInt8 := [0, 0, 0, 2]

/-- A key whose fingerprint is in the first slot of the crowded filter. -/
def firstKey : List UInt8 := [0, 0, 0, 4]

theorem crowded_late :
    Crowded tailHash firstBucket 0 1024 crowdedFilter.buckets 512 where
  others := by decide +kernel
  settled := by unfold SoleBucket; decide +kernel
  hand_ne := by decide
  hand_settled := by unfold SoleBucket; decide +kernel

theorem place_late :
    (crowdedFilter.buckets.place (paths tailHash) 0 crowdDraws.slot
        maxKicks (kickStart tailHash crowdDraws lateKey)
        (bucket1 tailHash lateKey) (fingerprint tailHash lateKey)) =
      crowdedFilter.buckets.cascade (paths tailHash) 0 crowdDraws.slot
        (499 + 1) firstBucket 512 := by
  have start :
      kickStart tailHash crowdDraws lateKey =
        firstBucket := by
    decide +kernel
  have bucket : bucket1 tailHash lateKey = firstBucket := by
    decide +kernel
  have fp : fingerprint tailHash lateKey = 512 := by
    decide +kernel
  rw [start, bucket, fp]
  exact crowded_late.place_eq _

theorem add_late :
    (crowdedFilter.add tailHash crowdDraws lateKey).2 = false ∧
      ∃ left,
        crowdedFilter.addLoss tailHash crowdDraws lateKey =
          some (firstBucket, left) := by
  rcases cascade_runs_out crowded_late.settled crowded_late.hand_settled
      crowdDraws.slot (499 + 1) with
    ⟨left, ended⟩
  rcases add_eq tailHash crowdedFilter crowdDraws lateKey place_late with
    ⟨_, answer, dropped⟩
  rw [ended] at answer dropped
  exact ⟨answer, left, dropped⟩

/-- An `add` returns false and has taken another key out of the filter. -/
theorem failed_add_does_harm :
    (CuckooFilter.decode crowdedFilter.encode).contains tailHash
        firstKey = true ∧
      ((CuckooFilter.decode crowdedFilter.encode).add tailHash crowdDraws
          lateKey).2 = false ∧
      ((CuckooFilter.decode crowdedFilter.encode).add tailHash crowdDraws
          lateKey).1.contains tailHash firstKey = false := by
  rw [decode_encode]
  rcases add_eq tailHash crowdedFilter crowdDraws lateKey place_late with
    ⟨buckets, _, _⟩
  refine ⟨by decide +kernel, add_late.1, ?_⟩
  have bucket : bucket1 tailHash firstKey = firstBucket := by
    decide +kernel
  have fp : fingerprint tailHash firstKey = 1024 := by
    decide +kernel
  have alone : bucket2 tailHash firstBucket 1024 = firstBucket := by
    decide +kernel
  have gone :=
    @Crowded.cascade_ne _ _ _ _ _ _ crowdDraws.slot crowded_late rfl
      (by simp [crowdDraws]) 499
  rw [← buckets] at gone
  generalize (crowdedFilter.add tailHash crowdDraws lateKey).1 = after at gone
  simp only [Bool.eq_false_iff, ne_eq, CuckooFilter.contains, bucket, fp,
    alone, Bool.or_self, containsSlot_iff]
  rintro ⟨slot, held⟩
  exact gone slot held

end Norn.Cuckoo
