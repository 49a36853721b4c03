import Norn.Cuckoo.Membership

/-!
# What a merge drops

`merge` bounds its chains of kicks, and a chain that runs out drops the
fingerprint it has in hand.  A key that no chain ends with stays in the filter;
in a bucket crowded with fingerprints that have no other bucket, a chain can
end with any of them.
-/

namespace Norn.Cuckoo

open Foundation Foundation.Run CuckooFilter CuckooTable

/-! ## Losses -/

section Losses

variable (hash : Blake2b64)

variable {self other : CuckooFilter} {key : List UInt8} {draws : MergeDraws}

theorem bucket_own (bucket : Fin numBuckets) (fp : UInt16) :
    bucket = bucket ∨ bucket = bucket2 hash bucket fp :=
  Or.inl rfl

/-- The fingerprint that `mergeSlot` drops, with its bucket. -/
def CuckooFilter.mergeLoss (self : CuckooFilter) (draws : Draws)
    (bucket : Fin numBuckets) (fp : UInt16) :
    Option (Fin numBuckets × UInt16) :=
  if real : fp = 0 then
    none
  else if self.containsSlot bucket fp ||
      self.containsSlot (bucket2 hash bucket fp) fp then
    none
  else
    (self.place hash draws.slot mergeKicks bucket bucket fp real
      (bucket_own hash bucket fp)).2

/-- A fingerprint in a bucket is that of a key, in a bucket of the key. -/
def IsCopy (key : List UInt8) (lost : Fin numBuckets × UInt16) : Prop :=
  lost.2 = fingerprint hash key ∧
    (paths hash).IsPlace (bucket1 hash key) (fingerprint hash key) lost.1

instance (key : List UInt8) (lost : Fin numBuckets × UInt16) :
    Decidable (IsCopy hash key lost) :=
  inferInstanceAs (Decidable (_ ∧ _))

/-- The loops of `merge` at one slot of the other filter. -/
def mergePlace (draws : MergeDraws) (other merged : CuckooFilter)
    (place : Fin numBuckets × Fin slotsPerBucket) : CuckooFilter :=
  merged.mergeSlot hash (draws place.1 place.2) place.1
    (other.buckets place.1 place.2)

theorem merge_eq_run (self other : CuckooFilter) (draws : MergeDraws) :
    self.merge hash draws other =
      run (mergePlace hash draws other) self slotOrder :=
  rfl

/-- What is dropped at one slot is no copy of the key. -/
def SparesAt (key : List UInt8) (draws : MergeDraws)
    (other merged : CuckooFilter)
    (place : Fin numBuckets × Fin slotsPerBucket) : Prop :=
  ∀ lost,
    merged.mergeLoss hash (draws place.1 place.2) place.1
        (other.buckets place.1 place.2) = some lost →
      ¬ IsCopy hash key lost

instance (key : List UInt8) (draws : MergeDraws)
    (other merged : CuckooFilter)
    (place : Fin numBuckets × Fin slotsPerBucket) :
    Decidable (SparesAt hash key draws other merged place) :=
  inferInstanceAs
    (Decidable (∀ lost ∈ merged.mergeLoss hash _ _ _, ¬ IsCopy hash key lost))

/-- No chain of kicks of a merge ends with a copy of the key. -/
def Spares (key : List UInt8) (filter other : CuckooFilter)
    (draws : MergeDraws) : Prop :=
  Along (mergePlace hash draws other) (SparesAt hash key draws other)
    filter slotOrder

variable {hash}

theorem contains_mergeSlot {draws : Draws} {bucket : Fin numBuckets}
    {fp : UInt16} (held : self.contains hash key = true)
    (spared :
      ∀ lost, self.mergeLoss hash draws bucket fp = some lost →
        ¬ IsCopy hash key lost) :
    (self.mergeSlot hash draws bucket fp).contains hash key = true := by
  unfold mergeSlot
  unfold mergeLoss at spared
  split_ifs at spared ⊢ with empty present
  · exact held
  · exact held
  · have balance :=
      total_place (keyCopies hash key)
        (Or.inl rfl : (paths hash).IsPlace bucket fp bucket) draws.slot
        mergeKicks self.buckets
    have unharmed :
        (keyCopies hash key).leftOver
          (self.buckets.place (paths hash) 0 draws.slot mergeKicks bucket bucket
            fp).2 = 0 := by
      cases ended :
          (self.buckets.place (paths hash) 0 draws.slot mergeKicks bucket bucket
            fp).2 with
      | none => rfl
      | some lost => exact if_neg (spared lost ended)
    rw [contains_iff] at held ⊢
    simp only [CuckooFilter.place]
    omega

theorem contains_run_of_spared
    {places : List (Fin numBuckets × Fin slotsPerBucket)}
    (held : self.contains hash key = true)
    (spared :
      Along (mergePlace hash draws other) (SparesAt hash key draws other)
        self places) :
    (run (mergePlace hash draws other) self places).contains hash key = true :=
  @invariant_run _ _ (mergePlace hash draws other)
    (SparesAt hash key draws other)
    (fun merged => merged.contains hash key = true)
    (fun _ _ held spared => contains_mergeSlot held spared)
    self places held spared

theorem contains_merge (held : self.contains hash key = true)
    (spares : Spares hash key self other draws) :
    (self.merge hash draws other).contains hash key = true := by
  rw [merge_eq_run]
  exact contains_run_of_spared held spares

/-- The slots of a filter that hold a fingerprint. -/
def usedSlots (filter : CuckooFilter) :
    List (Fin numBuckets × Fin slotsPerBucket) :=
  slotOrder.filter fun place => filter.buckets place.1 place.2 ≠ 0

theorem mergePlace_of_empty (draws : MergeDraws) (merged : CuckooFilter)
    (place : Fin numBuckets × Fin slotsPerBucket)
    (empty : decide (other.buckets place.1 place.2 ≠ 0) = false) :
    mergePlace hash draws other merged place = merged := by
  unfold mergePlace mergeSlot
  rw [dif_pos (by simpa using empty)]

theorem merge_eq_run_used (self other : CuckooFilter) (draws : MergeDraws) :
    self.merge hash draws other =
      run (mergePlace hash draws other) self (usedSlots other) := by
  rw [merge_eq_run, usedSlots, run_filter (mergePlace_of_empty draws)]

theorem spares_of_used
    (spared :
      Along (mergePlace hash draws other) (SparesAt hash key draws other)
        self (usedSlots other)) :
    Spares hash key self other draws := by
  refine along_of_filter (mergePlace_of_empty draws) ?_ spared
  intro merged place empty lost ended
  unfold mergeLoss at ended
  rw [dif_pos (by simpa using empty)] at ended
  cases ended

end Losses

/-! ## A crowded bucket -/

section Crowding

variable {hash : Blake2b64}

/-- A fingerprint with one bucket only. -/
def SoleBucket (hash : Blake2b64) (bucket : Fin numBuckets) (fp : UInt16) :
    Prop :=
  fp ≠ 0 ∧ bucket2 hash bucket fp = bucket

/--
A full bucket of settled fingerprints, with the fingerprint `own` in one slot
only, and another fingerprint in hand.
-/
structure Crowded (hash : Blake2b64) (bucket : Fin numBuckets)
    (front : Fin slotsPerBucket) (own : UInt16) (table : Buckets)
    (hand : UInt16) : Prop where
  others : ∀ slot, slot ≠ front → table bucket slot ≠ own
  settled : ∀ slot, SoleBucket hash bucket (table bucket slot)
  hand_ne : hand ≠ own
  hand_settled : SoleBucket hash bucket hand

namespace Crowded

variable {bucket : Fin numBuckets} {front : Fin slotsPerBucket}
  {own hand : UInt16} {table : Buckets}
  {choose : Nat → Fin slotsPerBucket}

variable {self : CuckooFilter}

theorem settled_put (crowded : Crowded hash bucket front own table hand)
    (slot other : Fin slotsPerBucket) :
    SoleBucket hash bucket (table.put bucket slot hand bucket other) := by
  by_cases same : other = slot
  · subst same
    rw [put_same]
    exact crowded.hand_settled
  · rw [put_other_slot table bucket same]
    exact crowded.settled other

theorem cascade_succ (crowded : Crowded hash bucket front own table hand)
    (kicks : Nat) :
    table.cascade (paths hash) 0 choose (kicks + 1) bucket hand =
      (table.put bucket (choose kicks) hand).cascade (paths hash) 0 choose
        kicks bucket (table bucket (choose kicks)) := by
  have stays :
      (paths hash).alternate bucket (table bucket (choose kicks)) =
        bucket :=
    (crowded.settled (choose kicks)).2
  have full :
      (table.put bucket (choose kicks) hand).replace bucket 0
        (table bucket (choose kicks)) = none := by
    rw [replace_eq_none_iff]
    intro slot
    exact (crowded.settled_put (choose kicks) slot).1
  simp only [CuckooTable.cascade, stays, full]

/-- A kick elsewhere leaves the fingerprint `own` where it is. -/
theorem kick (crowded : Crowded hash bucket front own table hand)
    {slot : Fin slotsPerBucket} (elsewhere : slot ≠ front) :
    Crowded hash bucket front own (table.put bucket slot hand)
      (table bucket slot) where
  others other behind := by
    by_cases same : other = slot
    · subst same
      rw [put_same]
      exact crowded.hand_ne
    · rw [put_other_slot table bucket same]
      exact crowded.others other behind
  settled := crowded.settled_put slot
  hand_ne := crowded.others slot elsewhere
  hand_settled := crowded.settled slot

/-- A chain of kicks that stays elsewhere ends with another fingerprint. -/
theorem cascade_elsewhere
    (crowded : Crowded hash bucket front own table hand)
    (elsewhere : ∀ kick, choose kick ≠ front) (kicks : Nat) :
    ∃ left, left ≠ own ∧
      (table.cascade (paths hash) 0 choose kicks bucket hand).2 =
        some (bucket, left) := by
  induction kicks generalizing table hand with
  | zero => exact ⟨hand, crowded.hand_ne, rfl⟩
  | succ kicks induction =>
    rw [crowded.cascade_succ]
    exact induction (crowded.kick (elsewhere kicks))

theorem cascade_ne (crowded : Crowded hash bucket front own table hand)
    (last : choose 0 = front)
    (earlier : ∀ kick, choose (kick + 1) ≠ front) (kicks : Nat) :
    ∀ slot,
      (table.cascade (paths hash) 0 choose (kicks + 1) bucket hand).1 bucket
        slot ≠ own := by
  induction kicks generalizing table hand with
  | zero =>
    intro slot
    rw [crowded.cascade_succ, last]
    change table.put bucket front hand bucket slot ≠ own
    by_cases same : slot = front
    · subst same
      rw [put_same]
      exact crowded.hand_ne
    · rw [put_other_slot table bucket same]
      exact crowded.others slot same
  | succ kicks induction =>
    rw [crowded.cascade_succ]
    exact induction (crowded.kick (earlier kicks))

theorem place_eq (crowded : Crowded hash bucket front own table hand)
    (kicks : Nat) :
    table.place (paths hash) 0 choose kicks bucket bucket hand =
      table.cascade (paths hash) 0 choose kicks bucket hand := by
  have full : table.replace bucket 0 hand = none := by
    rw [replace_eq_none_iff]
    exact fun slot => (crowded.settled slot).1
  have stays : (paths hash).alternate bucket hand = bucket :=
    crowded.hand_settled.2
  simp only [CuckooTable.place, full, stays]

theorem containsSlot_eq_false (new : ∀ slot, self.buckets bucket slot ≠ hand) :
    self.containsSlot bucket hand = false := by
  rw [Bool.eq_false_iff, ne_eq, containsSlot_iff]
  rintro ⟨slot, same⟩
  exact new slot same

theorem mergeLoss_elsewhere {draws : Draws}
    (crowded : Crowded hash bucket front own self.buckets hand)
    (new : ∀ slot, self.buckets bucket slot ≠ hand)
    (elsewhere : ∀ kick, draws.slot kick ≠ front) :
    ∃ left, left ≠ own ∧
      self.mergeLoss hash draws bucket hand = some (bucket, left) := by
  rcases crowded.hand_settled with ⟨real, single⟩
  unfold mergeLoss
  rw [dif_neg real, single, containsSlot_eq_false new, Bool.or_self]
  simp only [Bool.false_eq_true, if_false, CuckooFilter.place,
    crowded.place_eq]
  exact crowded.cascade_elsewhere elsewhere mergeKicks

theorem not_contains_mergeSlot {draws : Draws} {key : List UInt8}
    (crowded :
      Crowded hash (bucket1 hash key) front (fingerprint hash key) self.buckets
        hand)
    (alone :
      bucket2 hash (bucket1 hash key) (fingerprint hash key) = bucket1 hash key)
    (new : ∀ slot, self.buckets (bucket1 hash key) slot ≠ hand)
    (last : draws.slot 0 = front)
    (earlier : ∀ kick, draws.slot (kick + 1) ≠ front) :
    (self.mergeSlot hash draws (bucket1 hash key) hand).contains hash key =
      false := by
  have absent := containsSlot_eq_false new
  rcases crowded.hand_settled with ⟨real, single⟩
  have gone := crowded.cascade_ne last earlier 31
  rw [Bool.eq_false_iff, ne_eq]
  unfold CuckooFilter.contains
  simp only [alone, Bool.or_self]
  rw [containsSlot_iff]
  rintro ⟨slot, held⟩
  apply gone slot
  rw [← held]
  unfold mergeSlot
  rw [dif_neg real, single, absent, Bool.or_self]
  simp only [Bool.false_eq_true, if_false, CuckooFilter.place, crowded.place_eq]
  rfl

end Crowded

end Crowding

/-- Chains of kicks that turn to the first slot in the end. -/
def crowdDraws : Draws where
  coin := true
  slot kick := if kick = 0 then ⟨0, slotsPerBucket_pos⟩
    else ⟨1, one_lt_slotsPerBucket⟩

/-- The first bucket of a filter. -/
def firstBucket : Fin numBuckets := ⟨0, by decide⟩

/-- A filter with four fingerprints in its first bucket. -/
def crowdedFilter : CuckooFilter :=
  .ofBuckets fun bucket slot =>
    if bucket = firstBucket then UInt16.ofNat (512 * (slot.val + 2)) else 0

end Norn.Cuckoo
