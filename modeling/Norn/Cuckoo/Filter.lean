import Norn.Foundation.Bytes
import Norn.Foundation.CuckooTable

/-!
# The cuckoo filter

`CuckooFilter` keeps a fingerprint of two bytes for every key that was added,
in one of two buckets that the key and its fingerprint determine.  The zero
fingerprint marks an empty slot.

The hash is a parameter.  The random draws of `add` and `merge` are arguments:
the coin that picks the bucket where a chain of kicks starts, and the slot
that each kick empties.
-/

namespace Norn.Cuckoo

open Foundation

/-- `NUM_BUCKETS`. -/
abbrev numBuckets : Nat := 512

/-- `SLOTS_PER_BUCKET`. -/
abbrev slotsPerBucket : Nat := 4

theorem slotsPerBucket_pos : 0 < slotsPerBucket := by
  decide

theorem one_lt_slotsPerBucket : 1 < slotsPerBucket := by
  decide

/-- `MAX_KICKS`. -/
def maxKicks : Nat := 500

/-- The bound of the chains of kicks that `merge` starts. -/
def mergeKicks : Nat := 32

/-- `FILTER_BYTES`. -/
def filterBytes : Nat := numBuckets * slotsPerBucket * 2

/-- `Blake2b` with a digest of eight bytes. -/
abbrev Blake2b64 := List UInt8 → Bytes 8

/-- The buckets of a filter. -/
abbrev Buckets := CuckooTable (Fin numBuckets) UInt16 slotsPerBucket

/-! ## Fingerprints and buckets -/

section Hashing

variable (hash : Blake2b64)

/-- `CuckooFilter::fingerprint`. -/
def fingerprint (key : List UInt8) : UInt16 :=
  let fp := u16FromLe ((hash key).field 0 2 (by decide))
  if fp = 0 then 1 else fp

theorem fingerprint_ne_zero (key : List UInt8) : fingerprint hash key ≠ 0 := by
  simp only [fingerprint]
  split_ifs with zero
  · decide
  · exact zero

/-- `CuckooFilter::bucket1`. -/
def bucket1 (key : List UInt8) : Fin numBuckets :=
  let v := u64FromLe (hash (asciiBytes "b1" ++ key))
  ⟨v.toNat % numBuckets, Nat.mod_lt _ (by decide)⟩

/-- How far the two buckets of a fingerprint are apart. -/
def offset (fp : UInt16) : Nat :=
  let v := u64FromLe (hash (asciiBytes "b2" ++ (u16ToLe fp).toList))
  v.toNat &&& (numBuckets - 1)

/-- `CuckooFilter::bucket2`. -/
def bucket2 (b1 : Fin numBuckets) (fp : UInt16) : Fin numBuckets :=
  ⟨(b1.val ^^^ offset hash fp) &&& (numBuckets - 1),
    Nat.lt_succ_of_le Nat.and_le_right⟩

theorem and_pred_numBuckets (number : Nat) :
    number &&& (numBuckets - 1) = number % numBuckets :=
  Nat.and_two_pow_sub_one_eq_mod number 9

theorem offset_lt (fp : UInt16) : offset hash fp < numBuckets := by
  simp only [offset, and_pred_numBuckets]
  exact Nat.mod_lt _ (by decide)

theorem val_bucket2 (b1 : Fin numBuckets) (fp : UInt16) :
    (bucket2 hash b1 fp).val = b1.val ^^^ offset hash fp := by
  have small : b1.val ^^^ offset hash fp < 2 ^ 9 :=
    Nat.xor_lt_two_pow b1.isLt (offset_lt hash fp)
  simp only [bucket2, and_pred_numBuckets]
  exact Nat.mod_eq_of_lt small

theorem bucket2_bucket2 (b1 : Fin numBuckets) (fp : UInt16) :
    bucket2 hash (bucket2 hash b1 fp) fp = b1 := by
  apply Fin.ext
  rw [val_bucket2, val_bucket2, Nat.xor_assoc, Nat.xor_self, Nat.xor_zero]

/-- The two buckets of every fingerprint. -/
def paths : Alternation (Fin numBuckets) UInt16 where
  alternate := bucket2 hash
  alternate_alternate := bucket2_bucket2 hash

end Hashing

/-! ## The filter -/

/-- Every fingerprint counts one, whatever bucket it is in. -/
def occupied (_ : Fin numBuckets) (fp : UInt16) : Nat := if fp = 0 then 0 else 1

/-- `CuckooFilter`; the count is the number of slots in use. -/
structure CuckooFilter where
  buckets : Buckets
  count : Nat
  counted : count = buckets.total occupied

/-- The random draws of one chain of kicks. -/
structure Draws where
  /-- Whether the chain starts in the first bucket. -/
  coin : Bool
  slot : Nat → Fin slotsPerBucket

/-- The random draws of a `merge`, for every slot that is merged. -/
abbrev MergeDraws := Fin numBuckets → Fin slotsPerBucket → Draws

namespace CuckooFilter

theorem ext_buckets {first second : CuckooFilter}
    (same : first.buckets = second.buckets) : first = second := by
  rcases first with ⟨buckets, count, counted⟩
  rcases second with ⟨others, size, sized⟩
  change buckets = others at same
  subst same
  have agreed : count = size := counted.trans sized.symm
  subst agreed
  rfl

/-- A filter with these buckets, and the count they have. -/
def ofBuckets (buckets : Buckets) : CuckooFilter where
  buckets := buckets
  count := buckets.total occupied
  counted := rfl

/-- `CuckooFilter::new`. -/
def new : CuckooFilter where
  buckets := fun _ _ => 0
  count := 0
  counted := by simp [CuckooTable.total, occupied]

section Operations

variable (hash : Blake2b64)

/-- The weighting that counts slots in use. -/
def occupancy : CuckooTable.Weighting (paths hash) 0 where
  weight := occupied
  weight_empty _ := if_pos rfl
  weight_alternate _ _ := rfl

/-- The counter follows the number of occupied slots. -/
theorem count_place {self : CuckooFilter} {bucket start : Fin numBuckets}
    {fp : UInt16} (real : fp ≠ 0)
    (starts : (paths hash).IsPlace bucket fp start)
    (choose : Nat → Fin slotsPerBucket) (kicks : Nat) :
    (if
      (self.buckets.place (paths hash) 0 choose kicks start bucket fp).2.isNone
      then
        self.count + 1
      else
        self.count) =
      (self.buckets.place (paths hash) 0 choose kicks start bucket fp).1.total
        occupied := by
  have balance :=
    CuckooTable.total_place (occupancy hash) starts choose kicks self.buckets
  have weight : (occupancy hash).weight bucket fp = 1 := if_neg real
  have counted := self.counted
  cases ended :
    (self.buckets.place (paths hash) 0 choose kicks start bucket fp).2 with
  | none =>
    rw [ended, weight] at balance
    simp only [CuckooTable.Weighting.leftOver, occupancy] at balance
    simp only [Option.isNone_none, if_true]
    omega
  | some left =>
    have lost : (occupancy hash).weight left.1 left.2 = 1 :=
      if_neg (CuckooTable.ne_empty_of_place starts real ended)
    rw [ended, weight] at balance
    simp only [CuckooTable.Weighting.leftOver, lost] at balance
    simp only [occupancy] at balance
    simp only [Option.isNone_some, Bool.false_eq_true, if_false]
    omega

/--
A fingerprint goes to one of its buckets, if need be by a chain of kicks.  The
second component is the fingerprint that no slot was found for, with the
bucket it was offered to last.
-/
def place (self : CuckooFilter) (choose : Nat → Fin slotsPerBucket)
    (kicks : Nat) (bucket start : Fin numBuckets) (fp : UInt16)
    (real : fp ≠ 0) (starts : (paths hash).IsPlace bucket fp start) :
    CuckooFilter × Option (Fin numBuckets × UInt16) :=
  let placed := self.buckets.place (paths hash) 0 choose kicks start bucket fp
  ({ buckets := placed.1
     count := if placed.2.isNone then self.count + 1 else self.count
     counted := count_place hash real starts choose kicks },
    placed.2)

/-- The bucket where `add` starts to kick. -/
def kickStart (draws : Draws) (key : List UInt8) : Fin numBuckets :=
  if draws.coin then
    bucket1 hash key
  else
    bucket2 hash (bucket1 hash key) (fingerprint hash key)

theorem isPlace_kickStart (draws : Draws) (key : List UInt8) :
    (paths hash).IsPlace (bucket1 hash key) (fingerprint hash key)
      (kickStart hash draws key) := by
  unfold kickStart
  split_ifs
  · exact Or.inl rfl
  · exact Or.inr rfl

/-- `CuckooFilter::add`. -/
def add (self : CuckooFilter) (draws : Draws) (key : List UInt8) :
    CuckooFilter × Bool :=
  let placed :=
    self.place hash draws.slot maxKicks (bucket1 hash key)
      (kickStart hash draws key) (fingerprint hash key)
      (fingerprint_ne_zero hash key) (isPlace_kickStart hash draws key)
  (placed.1, placed.2.isNone)

theorem count_remove {self : CuckooFilter} {bucket : Fin numBuckets}
    {fp : UInt16} (real : fp ≠ 0) {stored : Buckets}
    (removed : self.buckets.replace bucket fp 0 = some stored) :
    self.count - 1 = stored.total occupied := by
  have balance := CuckooTable.total_replace occupied removed
  have weight : occupied bucket fp = 1 := if_neg real
  have empty : occupied bucket 0 = 0 := if_pos rfl
  have counted := self.counted
  omega

/-- `remove_slot` on one of the buckets, and the count with it. -/
def removeSlot (self : CuckooFilter) (bucket : Fin numBuckets)
    (fp : UInt16) (real : fp ≠ 0) : Option CuckooFilter :=
  match removed : self.buckets.replace bucket fp 0 with
  | some stored =>
    some
      { buckets := stored
        count := self.count - 1
        counted := count_remove real removed }
  | none => none

/-- `CuckooFilter::remove`. -/
def remove (self : CuckooFilter) (key : List UInt8) : CuckooFilter × Bool :=
  let fp := fingerprint hash key
  let b1 := bucket1 hash key
  match self.removeSlot b1 fp (fingerprint_ne_zero hash key) with
  | some removed => (removed, true)
  | none =>
    match self.removeSlot (bucket2 hash b1 fp) fp
        (fingerprint_ne_zero hash key) with
    | some removed => (removed, true)
    | none => (self, false)

/-- `CuckooFilter::contains_slot` on one of the buckets. -/
def containsSlot (self : CuckooFilter) (bucket : Fin numBuckets)
    (fp : UInt16) : Bool :=
  (self.buckets.find bucket fp).isSome

/-- `CuckooFilter::contains`. -/
def contains (self : CuckooFilter) (key : List UInt8) : Bool :=
  let fp := fingerprint hash key
  let b1 := bucket1 hash key
  self.containsSlot b1 fp || self.containsSlot (bucket2 hash b1 fp) fp

/-- The body of the loops of `merge`, for one slot of the other filter. -/
def mergeSlot (self : CuckooFilter) (draws : Draws)
    (bucket : Fin numBuckets) (fp : UInt16) : CuckooFilter :=
  if real : fp = 0 then
    self
  else if self.containsSlot bucket fp ||
      self.containsSlot (bucket2 hash bucket fp) fp then
    self
  else
    (self.place hash draws.slot mergeKicks bucket bucket fp real (Or.inl rfl)).1

/-- The slots of a filter, in the order of the loops. -/
def slotOrder : List (Fin numBuckets × Fin slotsPerBucket) :=
  (List.finRange numBuckets).flatMap fun bucket =>
    (List.finRange slotsPerBucket).map fun slot => (bucket, slot)

theorem slotOrder_eq :
    slotOrder =
      (List.finRange numBuckets).flatMap fun bucket =>
        (List.finRange slotsPerBucket).map fun slot => (bucket, slot) :=
  rfl

attribute [irreducible] slotOrder

/-- `CuckooFilter::merge`. -/
def merge (self : CuckooFilter) (draws : MergeDraws)
    (other : CuckooFilter) : CuckooFilter :=
  slotOrder.foldl
    (fun merged place =>
      merged.mergeSlot hash (draws place.1 place.2) place.1
        (other.buckets place.1 place.2))
    self

end Operations

/-! ## The wire form -/

/-- The bytes of one bucket. -/
def encodeBucket (bucket : Fin slotsPerBucket → UInt16) : List UInt8 :=
  (List.finRange slotsPerBucket).flatMap fun slot =>
    (u16ToLe (bucket slot)).toList

theorem length_flatMap_const {Index : Type} (width : Nat)
    (block : Index → List UInt8)
    (sized : ∀ index, (block index).length = width)
    (indices : List Index) :
    (indices.flatMap block).length = indices.length * width := by
  induction indices with
  | nil => simp
  | cons index rest induction =>
    rw [List.flatMap_cons, List.length_append, induction, sized,
      List.length_cons, Nat.succ_mul, Nat.add_comm]

theorem length_encodeBucket (bucket : Fin slotsPerBucket → UInt16) :
    (encodeBucket bucket).length = slotsPerBucket * 2 := by
  rw [encodeBucket, length_flatMap_const 2 _ (by simp), List.length_finRange]

/-- `CuckooFilter::encode`. -/
def encode (self : CuckooFilter) : Bytes filterBytes :=
  ⟨(List.finRange numBuckets).flatMap fun bucket =>
      encodeBucket (self.buckets bucket), by
    rw [length_flatMap_const (slotsPerBucket * 2) _
      (fun bucket => length_encodeBucket _), List.length_finRange]
    rfl⟩

variable (self : CuckooFilter) (bucket : Fin numBuckets)
  (slot : Fin slotsPerBucket)

theorem slot_inside :
    (bucket.val * slotsPerBucket + slot.val) * 2 + 2 ≤ filterBytes := by
  have bucketBound := bucket.isLt
  have slotBound := slot.isLt
  simp only [filterBytes, numBuckets, slotsPerBucket] at *
  omega

/-- `CuckooFilter::decode`. -/
def decode (data : Bytes filterBytes) : CuckooFilter :=
  ofBuckets fun bucket slot =>
    u16FromLe
      (data.field ((bucket.val * slotsPerBucket + slot.val) * 2) 2
        (slot_inside bucket slot))

theorem take_drop_flatMap {Index : Type} (width : Nat)
    (block : Index → List UInt8)
    (sized : ∀ index, (block index).length = width)
    (indices : List Index) (position : Nat)
    (inside : position < indices.length) (rest : List UInt8) :
    ((indices.flatMap block ++ rest).drop (position * width)).take width =
      block indices[position] := by
  induction indices generalizing position with
  | nil => cases inside
  | cons index later induction =>
    cases position with
    | zero =>
      rw [Nat.zero_mul, List.drop_zero, List.flatMap_cons,
        List.append_assoc, List.take_left' (sized index)]
      rfl
    | succ position =>
      rw [Nat.succ_mul, Nat.add_comm, ← List.drop_drop, List.flatMap_cons,
        List.append_assoc,
        List.drop_left' (sized index)]
      exact induction position (Nat.lt_of_succ_lt_succ inside)

theorem toList_encode :
    self.encode.toList =
      (List.finRange numBuckets).flatMap fun bucket =>
        encodeBucket (self.buckets bucket) := by
  simp only [encode, Bytes.toList]

theorem bucket_of_encode :
    (self.encode.toList.drop (bucket.val * (slotsPerBucket * 2))).take
      (slotsPerBucket * 2) =
      encodeBucket (self.buckets bucket) := by
  have block :=
    take_drop_flatMap (slotsPerBucket * 2)
      (fun bucket => encodeBucket (self.buckets bucket))
      (fun bucket => length_encodeBucket _) (List.finRange numBuckets)
      bucket.val (by simp) []
  rw [List.append_nil, List.getElem_finRange, Fin.cast_mk, Fin.eta] at block
  rw [toList_encode]
  exact block

theorem slot_of_encodeBucket (bucket : Fin slotsPerBucket → UInt16)
    (slot : Fin slotsPerBucket) :
    ((encodeBucket bucket).drop (slot.val * 2)).take 2 =
      (u16ToLe (bucket slot)).toList := by
  have block :=
    take_drop_flatMap 2 (fun slot => (u16ToLe (bucket slot)).toList)
      (by simp) (List.finRange slotsPerBucket) slot.val (by simp) []
  rw [List.append_nil, List.getElem_finRange, Fin.cast_mk, Fin.eta] at block
  exact block

theorem field_encode :
    self.encode.field ((bucket.val * slotsPerBucket + slot.val) * 2) 2
      (slot_inside bucket slot) =
      u16ToLe (self.buckets bucket slot) := by
  have within : 2 ≤ slotsPerBucket * 2 - slot.val * 2 := by
    have bound := slot.isLt
    simp only [slotsPerBucket] at *
    omega
  have position :
      (bucket.val * slotsPerBucket + slot.val) * 2 =
        bucket.val * (slotsPerBucket * 2) + slot.val * 2 := by
    rw [Nat.add_mul, Nat.mul_assoc]
  apply Bytes.ext
  change
    (self.encode.toList.drop
      ((bucket.val * slotsPerBucket + slot.val) * 2)).take 2 =
      (u16ToLe (self.buckets bucket slot)).toList
  rw [← slot_of_encodeBucket, ← bucket_of_encode, position,
    ← List.drop_drop, List.drop_take, List.take_take,
    Nat.min_eq_left within]

theorem decode_encode : decode self.encode = self := by
  apply ext_buckets
  funext bucket slot
  change u16FromLe _ = _
  rw [field_encode, u16FromLe_u16ToLe]

end CuckooFilter

end Norn.Cuckoo
