import Mathlib.Algebra.BigOperators.Group.Finset.Basic
import Mathlib.Algebra.Order.BigOperators.Group.Finset
import Mathlib.Data.Fintype.BigOperators

/-!
# Tables with two places for every item

A table has finitely many buckets with the same number of slots.  An item may
sit in a bucket or in the alternate of that bucket, and going to the alternate
bucket twice leads back.  When both are full, a chain of kicks moves the items
that are in the way to their alternate buckets.

What the operations do to a table is counted.  A weighting of the items that
does not see empty slots and does not tell a bucket from its alternate is
conserved: an insertion adds the weight of what goes in, a removal subtracts
the weight of what goes out, and a chain of kicks that gives up has lost
exactly the item it ends with.
-/

namespace Norn.Foundation

/-- Buckets of slots, each slot with an item. -/
abbrev CuckooTable (Bucket Item : Type) (slots : Nat) :=
  Bucket → Fin slots → Item

/-- Where an item may sit besides the bucket it is offered to. -/
structure Alternation (Bucket Item : Type) where
  alternate : Bucket → Item → Bucket
  alternate_alternate :
    ∀ bucket item, alternate (alternate bucket item) item = bucket

namespace Alternation

variable {Bucket Item : Type}

/-- The two buckets of an item that is offered to `bucket`. -/
def IsPlace (paths : Alternation Bucket Item) (bucket : Bucket)
    (item : Item) (place : Bucket) : Prop :=
  place = bucket ∨ place = paths.alternate bucket item

instance [DecidableEq Bucket] (paths : Alternation Bucket Item)
    (bucket : Bucket) (item : Item) (place : Bucket) :
    Decidable (paths.IsPlace bucket item place) :=
  inferInstanceAs (Decidable (_ ∨ _))

theorem isPlace_alternate_iff (paths : Alternation Bucket Item)
    {bucket place : Bucket} {item : Item} :
    paths.IsPlace bucket item (paths.alternate place item) ↔
      paths.IsPlace bucket item place := by
  unfold IsPlace
  constructor
  · rintro (direct | crossed)
    · right
      rw [← direct, paths.alternate_alternate]
    · left
      rw [← paths.alternate_alternate place item, crossed,
        paths.alternate_alternate]
  · rintro (rfl | rfl)
    · exact Or.inr rfl
    · exact Or.inl (paths.alternate_alternate bucket item)

end Alternation

namespace CuckooTable

variable {Bucket Item : Type} {slots : Nat}

section Slots

variable [DecidableEq Item]

/-- The first slot of a bucket that holds the item. -/
def find (table : CuckooTable Bucket Item slots) (bucket : Bucket)
    (item : Item) : Option (Fin slots) :=
  (List.finRange slots).find? fun slot => table bucket slot = item

theorem apply_of_find {table : CuckooTable Bucket Item slots}
    {bucket : Bucket} {item : Item} {slot : Fin slots}
    (found : table.find bucket item = some slot) :
    table bucket slot = item := by
  simpa using List.find?_some found

theorem find_eq_none_iff {table : CuckooTable Bucket Item slots}
    {bucket : Bucket} {item : Item} :
    table.find bucket item = none ↔ ∀ slot, table bucket slot ≠ item := by
  simp [find, List.find?_eq_none]

end Slots

section Put

variable [DecidableEq Bucket]

/-- The table with one slot overwritten. -/
def put (table : CuckooTable Bucket Item slots) (bucket : Bucket)
    (slot : Fin slots) (item : Item) : CuckooTable Bucket Item slots :=
  Function.update table bucket (Function.update (table bucket) slot item)

theorem put_same (table : CuckooTable Bucket Item slots) (bucket : Bucket)
    (slot : Fin slots) (item : Item) :
    table.put bucket slot item bucket slot = item := by
  simp [put]

theorem put_other_bucket (table : CuckooTable Bucket Item slots)
    {bucket other : Bucket} (different : other ≠ bucket)
    (slot : Fin slots) (item : Item) :
    table.put bucket slot item other = table other := by
  simp [put, Function.update_of_ne different]

theorem put_other_slot (table : CuckooTable Bucket Item slots)
    (bucket : Bucket) {slot other : Fin slots} (different : other ≠ slot)
    (item : Item) :
    table.put bucket slot item bucket other = table bucket other := by
  simp [put, Function.update_of_ne different]

end Put

section Operations

variable [DecidableEq Bucket] [DecidableEq Item]

variable {table : CuckooTable Bucket Item slots} {bucket : Bucket}
  {paths : Alternation Bucket Item} {empty item : Item}
  {choose : Nat → Fin slots} {kicks : Nat}

/-- The first slot of a bucket that holds `old` gets `new`. -/
def replace (table : CuckooTable Bucket Item slots) (bucket : Bucket)
    (old new : Item) : Option (CuckooTable Bucket Item slots) :=
  (table.find bucket old).map fun slot => table.put bucket slot new

/--
A chain of kicks: the item takes a slot of its bucket, and the item that was
there goes to its alternate bucket, where it finds an empty slot or takes a
slot in turn.  A chain that runs out of kicks ends with an item that has no
slot, and the bucket it was offered to last.
-/
def cascade (paths : Alternation Bucket Item) (empty : Item)
    (choose : Nat → Fin slots) :
    Nat → CuckooTable Bucket Item slots → Bucket → Item →
      CuckooTable Bucket Item slots × Option (Bucket × Item)
  | 0, table, bucket, item => (table, some (bucket, item))
  | kicks + 1, table, bucket, item =>
    let kicked := table bucket (choose kicks)
    let swapped := table.put bucket (choose kicks) item
    let next := paths.alternate bucket kicked
    match swapped.replace next empty kicked with
    | some stored => (stored, none)
    | none => cascade paths empty choose kicks swapped next kicked

/--
An item goes to its bucket, to the alternate one, or, when both are full,
starts a chain of kicks.
-/
def place (paths : Alternation Bucket Item) (empty : Item)
    (choose : Nat → Fin slots) (kicks : Nat) (start : Bucket)
    (table : CuckooTable Bucket Item slots) (bucket : Bucket)
    (item : Item) :
    CuckooTable Bucket Item slots × Option (Bucket × Item) :=
  match table.replace bucket empty item with
  | some stored => (stored, none)
  | none =>
    match table.replace (paths.alternate bucket item) empty item with
    | some stored => (stored, none)
    | none => cascade paths empty choose kicks table start item

/--
A chain of so many kicks can find every bucket full, and then ends with the
item `lost` in hand.
-/
inductive Strands (paths : Alternation Bucket Item) (empty : Item) :
    Nat → CuckooTable Bucket Item slots → Bucket → Item → Bucket × Item →
      Prop where
  | stop {table : CuckooTable Bucket Item slots} {bucket : Bucket}
      {item : Item} : Strands paths empty 0 table bucket item (bucket, item)
  | kick {kicks : Nat} {table : CuckooTable Bucket Item slots}
      {bucket : Bucket} {item : Item} {lost : Bucket × Item}
      (slot : Fin slots)
      (full :
        ∀ other,
          table.put bucket slot item
            (paths.alternate bucket (table bucket slot)) other ≠ empty)
      (rest :
        Strands paths empty kicks (table.put bucket slot item)
          (paths.alternate bucket (table bucket slot)) (table bucket slot)
          lost) :
      Strands paths empty (kicks + 1) table bucket item lost

theorem replace_eq_some {stored : CuckooTable Bucket Item slots}
    {old new : Item} (replaced : table.replace bucket old new = some stored) :
    ∃ slot, table bucket slot = old ∧ stored = table.put bucket slot new := by
  rcases Option.map_eq_some_iff.mp replaced with ⟨slot, found, rfl⟩
  exact ⟨slot, apply_of_find found, rfl⟩

theorem replace_eq_none_iff {old new : Item} :
    table.replace bucket old new = none ↔ ∀ slot, table bucket slot ≠ old := by
  rw [replace, Option.map_eq_none_iff, find_eq_none_iff]

theorem cascade_congr {chosen : Nat → Fin slots}
    (same : ∀ kick < kicks, choose kick = chosen kick)
    (table : CuckooTable Bucket Item slots) (bucket : Bucket) (item : Item) :
    cascade paths empty choose kicks table bucket item =
      cascade paths empty chosen kicks table bucket item := by
  induction kicks generalizing table bucket item with
  | zero => rfl
  | succ kicks induction =>
    simp only [cascade, same kicks (Nat.lt_succ_self kicks)]
    rw [induction fun kick earlier => same kick (Nat.lt_succ_of_lt earlier)]

/-- The draws of a chain can be such that it ends with the item. -/
theorem strands_iff {lost : Bucket × Item} (first : Fin slots) :
    Strands paths empty kicks table bucket item lost ↔
      ∃ choose,
        (cascade paths empty choose kicks table bucket item).2 =
          some lost := by
  constructor
  · intro strands
    induction strands with
    | stop => exact ⟨fun _ => first, rfl⟩
    | @kick kicks table bucket item lost slot full rest induction =>
      rcases induction with ⟨choose, ended⟩
      refine ⟨Function.update choose kicks slot, ?_⟩
      have unchanged :
          ∀ kick < kicks, Function.update choose kicks slot kick =
            choose kick :=
        fun kick earlier => Function.update_of_ne (Nat.ne_of_lt earlier) _ _
      simp only [cascade, Function.update_self, replace_eq_none_iff.mpr full]
      rw [cascade_congr unchanged, ended]
  · rintro ⟨choose, ended⟩
    induction kicks generalizing table bucket item with
    | zero =>
      cases ended
      exact .stop
    | succ kicks induction =>
      simp only [cascade] at ended
      split at ended
      · cases ended
      · rename_i full
        exact .kick (choose kicks) (replace_eq_none_iff.mp full)
          (induction ended)

/-- A chain of kicks through full buckets ends with a real item. -/
theorem ne_empty_of_cascade {last : Bucket} {left : Item}
    (full : ∀ slot, table bucket slot ≠ empty) (real : item ≠ empty)
    (ended :
      (cascade paths empty choose kicks table bucket item).2 =
        some (last, left)) :
    left ≠ empty := by
  induction kicks generalizing table bucket item with
  | zero =>
    cases ended
    exact real
  | succ kicks induction =>
    simp only [cascade] at ended
    cases inserted :
        (table.put bucket (choose kicks) item).replace
          (paths.alternate bucket (table bucket (choose kicks))) empty
          (table bucket (choose kicks)) with
    | some stored =>
      rw [inserted] at ended
      cases ended
    | none =>
      rw [inserted] at ended
      exact induction (replace_eq_none_iff.mp inserted) (full (choose kicks))
        ended

theorem ne_empty_of_place {start last : Bucket} {left : Item}
    (starts : paths.IsPlace bucket item start) (real : item ≠ empty)
    (ended :
      (place paths empty choose kicks start table bucket item).2 =
        some (last, left)) :
    left ≠ empty := by
  unfold place at ended
  cases first : table.replace bucket empty item with
  | some stored =>
    rw [first] at ended
    cases ended
  | none =>
    cases second : table.replace (paths.alternate bucket item) empty item with
    | some stored =>
      rw [first, second] at ended
      cases ended
    | none =>
      rw [first, second] at ended
      apply ne_empty_of_cascade _ real ended
      rcases starts with rfl | rfl
      · exact replace_eq_none_iff.mp first
      · exact replace_eq_none_iff.mp second

end Operations

/-! ## Weights -/

/-- A weighting of items by the bucket they sit in. -/
structure Weighting (paths : Alternation Bucket Item) (empty : Item) where
  weight : Bucket → Item → Nat
  weight_empty : ∀ bucket, weight bucket empty = 0
  weight_alternate :
    ∀ bucket item,
      weight (paths.alternate bucket item) item = weight bucket item

/-- The weight of what a chain of kicks could not place. -/
def Weighting.leftOver {paths : Alternation Bucket Item} {empty : Item}
    (weighting : Weighting paths empty) : Option (Bucket × Item) → Nat
  | none => 0
  | some (bucket, item) => weighting.weight bucket item

theorem Weighting.weight_of_isPlace {paths : Alternation Bucket Item}
    {empty : Item} (weighting : Weighting paths empty)
    {bucket place : Bucket} {item : Item}
    (isPlace : paths.IsPlace bucket item place) :
    weighting.weight place item = weighting.weight bucket item := by
  rcases isPlace with rfl | rfl
  · rfl
  · exact weighting.weight_alternate bucket item

section Total

variable [Fintype Bucket]

variable {table stored : CuckooTable Bucket Item slots} {bucket : Bucket}
  {item : Item}

/-- The weight of all slots of a table. -/
def total (weight : Bucket → Item → Nat)
    (table : CuckooTable Bucket Item slots) : Nat :=
  ∑ bucket, ∑ slot, weight bucket (table bucket slot)

theorem total_pos_iff {weight : Bucket → Item → Nat} :
    0 < table.total weight ↔
      ∃ bucket slot, 0 < weight bucket (table bucket slot) := by
  unfold total
  rw [Finset.sum_pos_iff]
  simp only [Finset.sum_pos_iff, Finset.mem_univ, true_and]

variable [DecidableEq Bucket]

/-- The weight of the slots of a table other than one. -/
def totalBut (weight : Bucket → Item → Nat)
    (table : CuckooTable Bucket Item slots) (bucket : Bucket)
    (slot : Fin slots) : Nat :=
  (∑ other ∈ Finset.univ.erase bucket,
      ∑ place, weight other (table other place)) +
    ∑ place ∈ Finset.univ.erase slot, weight bucket (table bucket place)

variable (weight : Bucket → Item → Nat)

theorem total_eq_totalBut (table : CuckooTable Bucket Item slots)
    (bucket : Bucket) (slot : Fin slots) :
    table.total weight =
      table.totalBut weight bucket slot +
        weight bucket (table bucket slot) := by
  unfold total totalBut
  rw [← Finset.sum_erase_add _ _ (Finset.mem_univ bucket),
    ← Finset.sum_erase_add _ _ (Finset.mem_univ slot), add_assoc]

theorem totalBut_put (table : CuckooTable Bucket Item slots) (bucket : Bucket)
    (slot : Fin slots) (item : Item) :
    (table.put bucket slot item).totalBut weight bucket slot =
      table.totalBut weight bucket slot := by
  unfold totalBut
  congr 1
  · apply Finset.sum_congr rfl
    intro other member
    rw [put_other_bucket table (Finset.ne_of_mem_erase member)]
  · apply Finset.sum_congr rfl
    intro place member
    rw [put_other_slot table bucket (Finset.ne_of_mem_erase member)]

/-- Overwriting a slot trades the weight of the old item for the new. -/
theorem total_put (table : CuckooTable Bucket Item slots) (bucket : Bucket)
    (slot : Fin slots) (item : Item) :
    (table.put bucket slot item).total weight +
        weight bucket (table bucket slot) =
      table.total weight + weight bucket item := by
  rw [total_eq_totalBut weight (table.put bucket slot item) bucket slot,
    total_eq_totalBut weight table bucket slot, totalBut_put, put_same]
  omega

variable [DecidableEq Item]

theorem total_replace {old new : Item}
    (replaced : table.replace bucket old new = some stored) :
    stored.total weight + weight bucket old =
      table.total weight + weight bucket new := by
  rcases replace_eq_some replaced with ⟨slot, rfl, rfl⟩
  exact total_put weight table bucket slot new

variable {paths : Alternation Bucket Item} {empty : Item}
variable (weighting : Weighting paths empty)

theorem total_insert
    (inserted : table.replace bucket empty item = some stored) :
    stored.total weighting.weight =
      table.total weighting.weight + weighting.weight bucket item := by
  have balance := total_replace weighting.weight inserted
  rwa [weighting.weight_empty] at balance

theorem total_remove (removed : table.replace bucket item empty = some stored) :
    stored.total weighting.weight + weighting.weight bucket item =
      table.total weighting.weight := by
  have balance := total_replace weighting.weight removed
  rwa [weighting.weight_empty] at balance

/-- A chain of kicks loses nothing but the item it ends with. -/
theorem total_cascade (choose : Nat → Fin slots) (kicks : Nat)
    (table : CuckooTable Bucket Item slots) (bucket : Bucket)
    (item : Item) :
    (cascade paths empty choose kicks table bucket item).1.total
      weighting.weight +
        weighting.leftOver
          (cascade paths empty choose kicks table bucket item).2 =
      table.total weighting.weight + weighting.weight bucket item := by
  induction kicks generalizing table bucket item with
  | zero => rfl
  | succ kicks induction =>
    have swap := total_put weighting.weight table bucket (choose kicks) item
    have moved :=
      weighting.weight_alternate bucket (table bucket (choose kicks))
    simp only [cascade]
    cases inserted :
        (table.put bucket (choose kicks) item).replace
          (paths.alternate bucket (table bucket (choose kicks))) empty
          (table bucket (choose kicks)) with
    | some stored =>
      have placed := total_insert weighting inserted
      simp only [Weighting.leftOver]
      omega
    | none =>
      have rest :=
        induction (table.put bucket (choose kicks) item)
          (paths.alternate bucket (table bucket (choose kicks)))
          (table bucket (choose kicks))
      simp only
      omega

/-- Placing an item loses nothing but the item that is left over. -/
theorem total_place {start : Bucket} (starts : paths.IsPlace bucket item start)
    (choose : Nat → Fin slots) (kicks : Nat)
    (table : CuckooTable Bucket Item slots) :
    (place paths empty choose kicks start table bucket item).1.total
      weighting.weight +
        weighting.leftOver
          (place paths empty choose kicks start table bucket item).2 =
      table.total weighting.weight + weighting.weight bucket item := by
  unfold place
  cases first : table.replace bucket empty item with
  | some stored => exact total_insert weighting first
  | none =>
    cases second : table.replace (paths.alternate bucket item) empty item with
    | some stored =>
      rw [← weighting.weight_alternate bucket item]
      exact total_insert weighting second
    | none =>
      rw [← weighting.weight_of_isPlace starts]
      exact total_cascade weighting choose kicks table start item

end Total

section Counting

variable [DecidableEq Bucket] [DecidableEq Item]
variable (paths : Alternation Bucket Item)

/-- Copies of an item in its two buckets count one, everything else none. -/
def copies {empty item : Item} (real : item ≠ empty)
    (bucket : Bucket) : Weighting paths empty where
  weight place other :=
    if other = item ∧ paths.IsPlace bucket item place then 1 else 0
  weight_empty place := by
    rw [if_neg]
    rintro ⟨same, _⟩
    exact real same.symm
  weight_alternate place other := by
    by_cases same : other = item
    · subst same
      simp only [true_and, paths.isPlace_alternate_iff]
    · simp only [same, false_and]

theorem copies_weight_pos_iff {empty item : Item} (real : item ≠ empty)
    {bucket place : Bucket} {other : Item} :
    0 < (copies paths real bucket).weight place other ↔
      other = item ∧ paths.IsPlace bucket item place := by
  simp only [copies]
  split_ifs with counted
  · simpa using counted
  · simpa using counted

/-- An item that counts is in one of its two buckets. -/
theorem total_copies_pos_iff [Fintype Bucket] {empty item : Item}
    (real : item ≠ empty) {bucket : Bucket}
    {table : CuckooTable Bucket Item slots} :
    0 < table.total (copies paths real bucket).weight ↔
      (∃ slot, table bucket slot = item) ∨
        ∃ slot, table (paths.alternate bucket item) slot = item := by
  rw [total_pos_iff]
  simp only [copies_weight_pos_iff, Alternation.IsPlace]
  constructor
  · rintro ⟨place, slot, same, rfl | rfl⟩
    · exact Or.inl ⟨slot, same⟩
    · exact Or.inr ⟨slot, same⟩
  · rintro (⟨slot, same⟩ | ⟨slot, same⟩)
    · exact ⟨bucket, slot, same, Or.inl rfl⟩
    · exact ⟨_, slot, same, Or.inr rfl⟩

end Counting

end CuckooTable

end Norn.Foundation
