import Norn.Cuckoo.Merge

/-!
# The count of a filter and its wire form

The code keeps a count beside the buckets and adjusts it by hand, and a `u16`
at a time it writes the buckets and reads them back.  `StoredFilter` is that
pair; nothing ties its parts together, and a `remove` that finds the count at
zero aborts.  Whatever calls have been made, the pair is that of a
`CuckooFilter`, whose count is the number of slots in use.
-/

namespace Norn.Cuckoo

open Foundation CuckooFilter

/-- A filter as the code stores it. -/
structure StoredFilter where
  buckets : Buckets
  count : Nat

/-- What is stored of a filter. -/
def CuckooFilter.stored (self : CuckooFilter) : StoredFilter where
  buckets := self.buckets
  count := self.count

namespace StoredFilter

/-- `CuckooFilter::new`. -/
def new : StoredFilter where
  buckets := fun _ _ => 0
  count := 0

/-- The count after a fingerprint has left its slot. -/
def decrement (count : Nat) : Except Panic Nat :=
  if 1 ≤ count then .ok (count - 1) else .error .arithmeticOverflow

section Operations

variable (hash : Blake2b64)

/-- A fingerprint goes to its buckets, and is counted if it found a slot. -/
def place (self : StoredFilter) (choose : Nat → Fin slotsPerBucket)
    (kicks : Nat) (bucket start : Fin numBuckets) (fp : UInt16) :
    StoredFilter × Bool :=
  let placed := self.buckets.place (paths hash) 0 choose kicks start bucket fp
  ({ buckets := placed.1
     count := if placed.2.isNone then self.count + 1 else self.count },
    placed.2.isNone)

/-- `CuckooFilter::add`. -/
def add (self : StoredFilter) (draws : Draws) (key : List UInt8) :
    StoredFilter × Bool :=
  self.place hash draws.slot maxKicks (bucket1 hash key)
    (kickStart hash draws key) (fingerprint hash key)

/-- `CuckooFilter::remove`. -/
def remove (self : StoredFilter) (key : List UInt8) :
    Except Panic (StoredFilter × Bool) :=
  let fp := fingerprint hash key
  let b1 := bucket1 hash key
  match self.buckets.replace b1 fp 0 with
  | some buckets => do
      let count ← decrement self.count
      .ok (⟨buckets, count⟩, true)
  | none =>
    match self.buckets.replace (bucket2 hash b1 fp) fp 0 with
    | some buckets => do
        let count ← decrement self.count
        .ok (⟨buckets, count⟩, true)
    | none => .ok (self, false)

/-- The body of the loops of `merge`. -/
def mergeSlot (self : StoredFilter) (draws : Draws)
    (bucket : Fin numBuckets) (fp : UInt16) : StoredFilter :=
  if fp = 0 then
    self
  else if (self.buckets.find bucket fp).isSome ||
      (self.buckets.find (bucket2 hash bucket fp) fp).isSome then
    self
  else
    (self.place hash draws.slot mergeKicks bucket bucket fp).1

/-- `CuckooFilter::merge`. -/
def merge (self : StoredFilter) (draws : MergeDraws)
    (other : StoredFilter) : StoredFilter :=
  slotOrder.foldl
    (fun merged place =>
      merged.mergeSlot hash (draws place.1 place.2) place.1
        (other.buckets place.1 place.2))
    self

end Operations

/-- `CuckooFilter::encode`, which reads the buckets only. -/
def encode (self : StoredFilter) : Bytes filterBytes :=
  (ofBuckets self.buckets).encode

/-- The slots that `decode` reads. -/
def decodeBuckets (data : Bytes filterBytes) : Buckets :=
  fun bucket slot =>
    u16FromLe
      (data.field ((bucket.val * slotsPerBucket + slot.val) * 2) 2
        (slot_inside bucket slot))

/-- `CuckooFilter::decode`. -/
def decode (data : Bytes filterBytes) : StoredFilter where
  buckets := decodeBuckets data
  count :=
    slotOrder.countP fun place =>
      decodeBuckets data place.1 place.2 ≠ 0

/-- The filters that calls lead to. -/
inductive Reachable (hash : Blake2b64) : StoredFilter → Prop
  | new : Reachable hash new
  | add {filter : StoredFilter} (before : Reachable hash filter)
      (draws : Draws) (key : List UInt8) :
      Reachable hash (filter.add hash draws key).1
  | remove {filter after : StoredFilter}
      (before : Reachable hash filter) (key : List UInt8) (found : Bool)
      (done : filter.remove hash key = .ok (after, found)) :
      Reachable hash after
  | merge {filter other : StoredFilter}
      (before : Reachable hash filter) (others : Reachable hash other)
      (draws : MergeDraws) : Reachable hash (filter.merge hash draws other)
  | decode (data : Bytes filterBytes) : Reachable hash (decode data)

end StoredFilter

/-- The slots that are not empty. -/
def slotsInUse (buckets : Buckets) :
    Finset (Fin numBuckets × Fin slotsPerBucket) :=
  Finset.univ.filter fun place => buckets place.1 place.2 ≠ 0

theorem total_occupied (buckets : Buckets) :
    buckets.total occupied = (slotsInUse buckets).card := by
  rw [slotsInUse, Finset.card_filter, Fintype.sum_prod_type]
  simp only [CuckooTable.total, occupied, ne_eq, ite_not]

theorem countP_grid {rows columns : Nat}
    (counts : Fin rows × Fin columns → Prop) [DecidablePred counts] :
    (((List.finRange rows).flatMap fun row =>
        (List.finRange columns).map fun column =>
          (row, column)).countP fun place => counts place) =
      (Finset.univ.filter counts).card := by
  have distinct :=
    (List.nodup_finRange rows).product (List.nodup_finRange columns)
  change (List.finRange rows ×ˢ List.finRange columns).countP _ = _
  rw [List.countP_eq_length_filter,
    ← List.toFinset_card_of_nodup (distinct.filter _)]
  congr 1
  ext ⟨row, column⟩
  simp [List.mem_product]

theorem countP_slotOrder (buckets : Buckets) :
    (slotOrder.countP fun place =>
        buckets place.1 place.2 ≠ 0) =
      (slotsInUse buckets).card := by
  rw [slotOrder_eq]
  exact countP_grid fun place => buckets place.1 place.2 ≠ 0

namespace StoredFilter

variable {hash : Blake2b64}

theorem count_pos {filter : CuckooFilter} {bucket : Fin numBuckets}
    {fp : UInt16} (real : fp ≠ 0) {buckets : Buckets}
    (removed : filter.buckets.replace bucket fp 0 = some buckets) :
    1 ≤ filter.count := by
  have balance := CuckooTable.total_replace occupied removed
  have weight : occupied bucket fp = 1 := if_neg real
  have empty : occupied bucket 0 = 0 := if_pos rfl
  have counted := filter.counted
  omega

theorem replace_of_removeSlot {filter removed : CuckooFilter}
    {bucket : Fin numBuckets} {fp : UInt16} {real : fp ≠ 0}
    (done : filter.removeSlot bucket fp real = some removed) :
    filter.buckets.replace bucket fp 0 = some removed.buckets ∧
      decrement filter.count = .ok removed.count := by
  have replaced := removeSlot_eq_some done
  refine ⟨replaced, ?_⟩
  rw [decrement, if_pos (count_pos real replaced),
    count_remove real replaced, removed.counted]

theorem remove_stored (filter : CuckooFilter) (key : List UInt8) :
    filter.stored.remove hash key =
      .ok ((filter.remove hash key).1.stored, (filter.remove hash key).2) := by
  simp only [remove, CuckooFilter.stored, CuckooFilter.remove]
  cases first :
      filter.removeSlot (bucket1 hash key) (fingerprint hash key)
        (fingerprint_ne_zero hash key) with
  | some removed =>
    rcases replace_of_removeSlot first with ⟨replaced, counted⟩
    simp only [replaced, counted, ok_bind]
  | none =>
    rw [CuckooTable.replace_eq_none_iff.mpr (removeSlot_eq_none first)]
    cases second :
        filter.removeSlot
          (bucket2 hash (bucket1 hash key) (fingerprint hash key))
          (fingerprint hash key) (fingerprint_ne_zero hash key) with
    | some removed =>
      rcases replace_of_removeSlot second with ⟨replaced, counted⟩
      simp only [replaced, counted, ok_bind]
    | none =>
      rw [CuckooTable.replace_eq_none_iff.mpr (removeSlot_eq_none second)]

theorem mergeSlot_stored (filter : CuckooFilter) (draws : Draws)
    (bucket : Fin numBuckets) (fp : UInt16) :
    filter.stored.mergeSlot hash draws bucket fp =
      (filter.mergeSlot hash draws bucket fp).stored := by
  unfold mergeSlot CuckooFilter.mergeSlot
  by_cases empty : fp = 0
  · rw [if_pos empty, dif_pos empty]
  · rw [if_neg empty, dif_neg empty, apply_ite CuckooFilter.stored]
    rfl

theorem decode_eq (data : Bytes filterBytes) :
    decode data = (CuckooFilter.decode data).stored := by
  rw [CuckooFilter.decode]
  simp only [decode, CuckooFilter.stored, ofBuckets, countP_slotOrder,
    total_occupied]
  rfl

theorem exists_stored {stored : StoredFilter}
    (reachable : Reachable hash stored) :
    ∃ filter : CuckooFilter, stored = filter.stored := by
  induction reachable with
  | new => exact ⟨.new, rfl⟩
  | add before draws key filtered =>
    rcases filtered with ⟨filter, rfl⟩
    exact ⟨(filter.add hash draws key).1, rfl⟩
  | remove before key found done filtered =>
    rcases filtered with ⟨filter, rfl⟩
    rw [remove_stored] at done
    cases done
    exact ⟨_, rfl⟩
  | merge before others draws filtered otherwise =>
    rcases filtered with ⟨filter, rfl⟩
    rcases otherwise with ⟨other, rfl⟩
    refine ⟨filter.merge hash draws other, ?_⟩
    unfold merge CuckooFilter.merge
    generalize slotOrder = places
    exact List.foldl_hom CuckooFilter.stored
      fun merged place => mergeSlot_stored merged _ _ _
  | decode data =>
    exact ⟨CuckooFilter.decode data, decode_eq data⟩

theorem flatMap_chunks (count width : Nat) (bytes : List UInt8) :
    ((List.finRange count).flatMap fun index =>
        (bytes.drop (index.val * width)).take width) =
      bytes.take (count * width) := by
  induction count generalizing bytes with
  | zero => simp
  | succ count induction =>
    have size : (count + 1) * width = width + count * width := by
      rw [Nat.succ_mul, Nat.add_comm]
    rw [List.finRange_succ, List.flatMap_cons, List.flatMap_map, size,
      List.take_add, ← induction]
    simp only [Fin.val_zero, Nat.zero_mul, List.drop_zero, Fin.val_succ,
      Nat.succ_mul, List.drop_drop, Nat.add_comm width]

theorem encodeBucket_decode (data : Bytes filterBytes)
    (bucket : Fin numBuckets) :
    encodeBucket (decodeBuckets data bucket) =
      (data.toList.drop (bucket.val * (slotsPerBucket * 2))).take
        (slotsPerBucket * 2) := by
  rw [← flatMap_chunks, encodeBucket]
  congr 1
  funext slot
  rw [decodeBuckets, u16ToLe_u16FromLe, List.drop_drop, ← Nat.mul_assoc,
    ← Nat.add_mul]
  rfl

theorem encode_decode (data : Bytes filterBytes) :
    (decode data).encode = data := by
  apply Bytes.ext
  rw [encode, toList_encode]
  simp only [ofBuckets, decode, encodeBucket_decode]
  rw [flatMap_chunks, List.take_of_length_le]
  rw [Bytes.length_toList]
  rfl

end StoredFilter

/--
Whatever calls have been made, the count of a filter is the number of slots in
use, no `remove` takes it below zero, and encoding and decoding undo each
other.
-/
theorem count_and_codec (hash : Blake2b64) :
    (∀ filter, StoredFilter.Reachable hash filter →
      filter.count = (slotsInUse filter.buckets).card ∧
        (∀ key, ∃ after, filter.remove hash key = .ok after) ∧
        StoredFilter.decode filter.encode = filter) ∧
      ∀ data, (StoredFilter.decode data).encode = data := by
  refine ⟨?_, StoredFilter.encode_decode⟩
  intro stored reachable
  rcases StoredFilter.exists_stored reachable with ⟨filter, rfl⟩
  refine ⟨?_, ?_, ?_⟩
  · rw [← total_occupied]
    exact filter.counted
  · exact fun key => ⟨_, StoredFilter.remove_stored filter key⟩
  · have same : ofBuckets filter.buckets = filter := by
      apply ext_buckets
      simp only [ofBuckets]
    rw [StoredFilter.decode_eq, StoredFilter.encode, decode_encode]
    exact congrArg CuckooFilter.stored same

end Norn.Cuckoo
