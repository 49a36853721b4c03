import Norn.Cuckoo.Filter
import Norn.Foundation.Run

/-!
# The filter has no false negatives

A filter that starts empty weighs what was added and not removed since, in
every weighting that does not tell the two buckets of a fingerprint apart.
This survives the chains of kicks and the collisions of fingerprints, and a
key that is held has its fingerprint in one of its buckets.
-/

namespace Norn.Cuckoo

open Foundation Foundation.Run

section Weighing

variable (hash : Blake2b64)

variable {self : CuckooFilter} {bucket : Fin numBuckets} {fp : UInt16}
  {key : List UInt8}

/-- A weighting of the fingerprints of a filter. -/
abbrev Weighting := CuckooTable.Weighting (paths hash) 0

/-- What a key weighs. -/
def keyWeight (weighting : Weighting hash) (key : List UInt8) : Nat :=
  weighting.weight (bucket1 hash key) (fingerprint hash key)

/-- The copies of the fingerprint of a key in the buckets of the key. -/
def keyCopies (key : List UInt8) : Weighting hash :=
  CuckooTable.copies (paths hash) (fingerprint_ne_zero hash key)
    (bucket1 hash key)

theorem keyWeight_keyCopies (key : List UInt8) :
    keyWeight hash (keyCopies hash key) key = 1 := by
  apply if_pos
  exact ⟨rfl, Or.inl rfl⟩

theorem containsSlot_iff :
    self.containsSlot bucket fp = true ↔
      ∃ slot, self.buckets bucket slot = fp := by
  rw [CuckooFilter.containsSlot, Option.isSome_iff_ne_none, ne_eq,
    CuckooTable.find_eq_none_iff]
  simp

theorem contains_iff :
    self.contains hash key = true ↔
      0 < self.buckets.total (keyCopies hash key).weight := by
  rw [keyCopies, CuckooTable.total_copies_pos_iff]
  simp only [CuckooFilter.contains, Bool.or_eq_true, containsSlot_iff]
  rfl

theorem total_add {draws : Draws} (weighting : Weighting hash)
    (stored : (self.add hash draws key).2 = true) :
    (self.add hash draws key).1.buckets.total weighting.weight =
      self.buckets.total weighting.weight +
        keyWeight hash weighting key := by
  have balance :=
    CuckooTable.total_place weighting
      (CuckooFilter.isPlace_kickStart hash draws key) draws.slot maxKicks
      self.buckets
  simp only [CuckooFilter.add, CuckooFilter.place, Option.isNone_iff_eq_none]
    at stored
  rw [stored, CuckooTable.Weighting.leftOver, Nat.add_zero] at balance
  simp only [CuckooFilter.add, CuckooFilter.place]
  exact balance

theorem removeSlot_eq_some {removed : CuckooFilter} {real : fp ≠ 0}
    (done : self.removeSlot bucket fp real = some removed) :
    self.buckets.replace bucket fp 0 = some removed.buckets := by
  unfold CuckooFilter.removeSlot at done
  split at done
  · rename_i stored replaced
    cases done
    exact replaced
  · cases done

theorem removeSlot_eq_none {real : fp ≠ 0}
    (failed : self.removeSlot bucket fp real = none) :
    ∀ slot, self.buckets bucket slot ≠ fp := by
  unfold CuckooFilter.removeSlot at failed
  split at failed
  · cases failed
  · rename_i replaced
    exact CuckooTable.replace_eq_none_iff.mp replaced

theorem total_remove (weighting : Weighting hash)
    (held : self.contains hash key = true) :
    (self.remove hash key).1.buckets.total weighting.weight +
        keyWeight hash weighting key =
      self.buckets.total weighting.weight := by
  unfold CuckooFilter.remove
  simp only
  cases first :
      self.removeSlot (bucket1 hash key) (fingerprint hash key)
        (fingerprint_ne_zero hash key) with
  | some removed =>
    exact CuckooTable.total_remove weighting (removeSlot_eq_some first)
  | none =>
    cases second :
        self.removeSlot (bucket2 hash (bucket1 hash key) (fingerprint hash key))
          (fingerprint hash key) (fingerprint_ne_zero hash key) with
    | some removed =>
      rw [keyWeight, ← weighting.weight_alternate]
      exact CuckooTable.total_remove weighting (removeSlot_eq_some second)
    | none =>
      exfalso
      simp only [CuckooFilter.contains, Bool.or_eq_true, containsSlot_iff]
        at held
      rcases held with ⟨slot, here⟩ | ⟨slot, here⟩
      · exact removeSlot_eq_none first slot here
      · exact removeSlot_eq_none second slot here

theorem add_new (draws : Draws) (key : List UInt8) :
    (CuckooFilter.new.add hash draws key).2 = true := by
  have room :
      CuckooFilter.new.buckets.replace (bucket1 hash key) 0
        (fingerprint hash key) ≠ none := by
    rw [ne_eq, CuckooTable.replace_eq_none_iff]
    intro full
    exact full 0 rfl
  rcases Option.ne_none_iff_exists'.mp room with ⟨stored, inserted⟩
  simp only [CuckooFilter.add, CuckooFilter.place, CuckooTable.place, inserted]
  rfl

end Weighing

/-! ## Runs of a filter -/

/-- A call of a filter. -/
inductive FilterOp where
  | add (key : List UInt8) (draws : Draws)
  | remove (key : List UInt8)

/-- A filter, and how often every key was added and removed. -/
structure Ledger where
  filter : CuckooFilter
  added : List UInt8 → Nat
  removed : List UInt8 → Nat

namespace Ledger

/-- An empty filter. -/
def new : Ledger where
  filter := CuckooFilter.new
  added _ := 0
  removed _ := 0

section Steps

variable (hash : Blake2b64)

variable {self : Ledger} {held : Multiset (List UInt8)} {key : List UInt8}

/-- One call. -/
def step (self : Ledger) : FilterOp → Ledger
  | .add key draws =>
    { self with
      filter := (self.filter.add hash draws key).1
      added := Function.update self.added key (self.added key + 1) }
  | .remove key =>
    { self with
      filter := (self.filter.remove hash key).1
      removed := Function.update self.removed key (self.removed key + 1) }

/--
The calls a careful user makes: an `add` that returns true, and a `remove` of
a key that was added more often than removed.
-/
def Admits (self : Ledger) : FilterOp → Prop
  | .add key draws => (self.filter.add hash draws key).2 = true
  | .remove key => self.removed key < self.added key

instance (self : Ledger) (op : FilterOp) : Decidable (self.Admits hash op) :=
  match op with
  | .add _ _ => inferInstanceAs (Decidable (_ = _))
  | .remove _ => inferInstanceAs (Decidable (_ < _))

/-- The keys that are held, with their multiplicity, weigh what is there. -/
structure Holds (ledger : Ledger) (held : Multiset (List UInt8)) : Prop where
  balance : ∀ key, held.count key + ledger.removed key = ledger.added key
  weighs :
    ∀ weighting : Weighting hash,
      ledger.filter.buckets.total weighting.weight =
        (held.map (keyWeight hash weighting)).sum

variable {hash}

theorem Holds.contains (holds : self.Holds hash held) (member : key ∈ held) :
    self.filter.contains hash key = true := by
  rw [contains_iff, holds.weighs]
  rcases Multiset.exists_cons_of_mem member with ⟨rest, rfl⟩
  rw [Multiset.map_cons, Multiset.sum_cons, keyWeight_keyCopies]
  omega

theorem Holds.mem (holds : self.Holds hash held)
    (more : self.removed key < self.added key) : key ∈ held := by
  apply Multiset.count_pos.mp
  have balance := holds.balance key
  omega

theorem holds_new : new.Holds hash 0 where
  balance key := by simp [new]
  weighs weighting := by
    simp [new, CuckooFilter.new, CuckooTable.total, weighting.weight_empty]

theorem holds_add (holds : self.Holds hash held) {draws : Draws}
    (admits : self.Admits hash (.add key draws)) :
    (self.step hash (.add key draws)).Holds hash (key ::ₘ held) where
  balance other := by
    have balance := holds.balance other
    by_cases same : other = key
    · subst same
      simp only [step, Multiset.count_cons_self, Function.update_self]
      omega
    · simpa only [step, Multiset.count_cons_of_ne same, ne_eq, same,
        not_false_eq_true, Function.update_of_ne] using balance
  weighs weighting := by
    rw [Multiset.map_cons, Multiset.sum_cons, ← holds.weighs, Nat.add_comm]
    exact total_add hash weighting admits

theorem holds_remove {rest : Multiset (List UInt8)}
    (holds : self.Holds hash (key ::ₘ rest)) :
    (self.step hash (.remove key)).Holds hash rest where
  balance other := by
    have balance := holds.balance other
    by_cases same : other = key
    · subst same
      rw [Multiset.count_cons_self] at balance
      simp only [step, Function.update_self]
      omega
    · rw [Multiset.count_cons_of_ne same] at balance
      simpa only [step, ne_eq, same, not_false_eq_true, Function.update_of_ne]
        using balance
  weighs weighting := by
    have contained := holds.contains (Multiset.mem_cons_self key rest)
    have removed := total_remove hash weighting contained
    have weighs := holds.weighs weighting
    rw [Multiset.map_cons, Multiset.sum_cons] at weighs
    simp only [step]
    omega

theorem holds_step (holds : self.Holds hash held) {op : FilterOp}
    (admits : self.Admits hash op) :
    ∃ next, (self.step hash op).Holds hash next := by
  cases op with
  | add key draws => exact ⟨key ::ₘ held, holds_add holds admits⟩
  | remove key =>
    rcases Multiset.exists_cons_of_mem (holds.mem admits) with ⟨rest, rfl⟩
    exact ⟨rest, holds_remove holds⟩

theorem exists_holds_run {ops : List FilterOp}
    (admitted : Along (step hash) (Admits hash) new ops) :
    ∃ held, (run (step hash) new ops).Holds hash held := by
  refine
    @invariant_run _ _ (step hash) (Admits hash)
      (fun ledger => ∃ held, ledger.Holds hash held) ?_ _ _
      ⟨0, holds_new⟩ admitted
  rintro ledger op ⟨held, holds⟩ admits
  exact holds_step holds admits

end Steps

end Ledger

/--
After every run of calls in which each `add` returned true and each `remove`
was for a key added more often than removed, the filter contains every key
that was added more often than removed.
-/
theorem contains_of_added_more_often (hash : Blake2b64) (ops : List FilterOp)
    (admitted : Along (Ledger.step hash) (Ledger.Admits hash) Ledger.new ops)
    (key : List UInt8)
    (more :
      (run (Ledger.step hash) Ledger.new ops).removed key <
        (run (Ledger.step hash) Ledger.new ops).added key) :
    (run (Ledger.step hash) Ledger.new ops).filter.contains hash key =
      true := by
  rcases Ledger.exists_holds_run admitted with ⟨held, holds⟩
  exact holds.contains (holds.mem more)

/-- A hash that copies its input behind the first two bytes. -/
def tailHash : Blake2b64 := fun input =>
  ⟨(input.drop 2 ++ List.replicate 8 0).take 8, by simp⟩

/-- Draws for chains of kicks that always empty the first slot. -/
def sampleDraws : Draws where
  coin := true
  slot _ := ⟨0, slotsPerBucket_pos⟩

/-- A key of the first bucket, with its fingerprint. -/
def keyOfFirst (low high : UInt8) : List UInt8 := [0, 0, low, high]

/--
Five keys of one bucket, of which the first has another bucket and the others
have not.  The fifth kicks the first, and then the second is removed.
-/
def kickingOps : List FilterOp :=
  [.add (keyOfFirst 1 2) sampleDraws, .add (keyOfFirst 0 2) sampleDraws,
    .add (keyOfFirst 0 4) sampleDraws, .add (keyOfFirst 0 6) sampleDraws,
    .add (keyOfFirst 0 8) sampleDraws, .remove (keyOfFirst 0 2)]

/-- The key that was kicked is contained, in its other bucket. -/
theorem kicked_key_is_contained :
    (run (Ledger.step tailHash) Ledger.new
        (kickingOps.take 4)).filter.buckets ⟨0, by decide⟩
          ⟨0, slotsPerBucket_pos⟩ =
        fingerprint tailHash (keyOfFirst 1 2) ∧
      (run (Ledger.step tailHash) Ledger.new kickingOps).filter.buckets
          ⟨1, by decide⟩ ⟨0, slotsPerBucket_pos⟩ =
        fingerprint tailHash (keyOfFirst 1 2) ∧
      (run (Ledger.step tailHash) Ledger.new kickingOps).filter.contains
          tailHash (keyOfFirst 1 2) = true := by
  refine ⟨by decide +kernel, by decide +kernel, ?_⟩
  apply contains_of_added_more_often
  · decide +kernel
  · decide +kernel

end Norn.Cuckoo
