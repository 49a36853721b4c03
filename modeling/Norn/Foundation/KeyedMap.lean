import Mathlib.Algebra.BigOperators.Group.List.Basic
import Mathlib.Algebra.GroupWithZero.Nat
import Mathlib.Data.List.Nodup

/-!
# Maps with a list of entries

A map is the list of its entries, with distinct keys.  Changing the value of a
key leaves the entry in its place, so that a loop over the entries visits them
in the same order afterwards.
-/

namespace Norn.Foundation

/-- A map as the list of its entries. -/
structure KeyedMap (Key Value : Type) where
  entries : List (Key × Value)
  distinct : (entries.map Prod.fst).Nodup

namespace KeyedMap

variable {Key Value : Type}

/-- The map without entries. -/
def empty : KeyedMap Key Value where
  entries := []
  distinct := List.nodup_nil

/-- The keys, in the order of the entries. -/
def keys (map : KeyedMap Key Value) : List Key := map.entries.map Prod.fst

theorem value_unique {map : KeyedMap Key Value} {key : Key}
    {first second : Value} (one : (key, first) ∈ map.entries)
    (other : (key, second) ∈ map.entries) : first = second := by
  have same := List.inj_on_of_nodup_map map.distinct one other rfl
  exact (Prod.mk.inj same).2

theorem nodup_entries (map : KeyedMap Key Value) : map.entries.Nodup :=
  List.Nodup.of_map Prod.fst map.distinct

/-- Change every value. -/
def mapValues (map : KeyedMap Key Value) (change : Key → Value → Value) :
    KeyedMap Key Value where
  entries := map.entries.map fun entry =>
    (entry.1, change entry.1 entry.2)
  distinct := by
    rw [List.map_map]
    exact map.distinct

@[simp]
theorem keys_mapValues (map : KeyedMap Key Value)
    (change : Key → Value → Value) :
    (map.mapValues change).keys = map.keys := by
  simp [keys, mapValues, List.map_map, Function.comp_def]

variable [DecidableEq Key]

/-- The value of a key. -/
def lookup (map : KeyedMap Key Value) (key : Key) : Option Value :=
  (map.entries.find? fun entry => entry.1 = key).map Prod.snd

/-- Change the value of a key, if it has one. -/
def modify (map : KeyedMap Key Value) (key : Key)
    (change : Value → Value) : KeyedMap Key Value :=
  map.mapValues fun other value =>
    if other = key then change value else value

/-- Forget a key. -/
def erase (map : KeyedMap Key Value) (key : Key) : KeyedMap Key Value where
  entries := map.entries.filter fun entry => entry.1 ≠ key
  distinct := map.distinct.sublist (List.filter_sublist.map Prod.fst)

/-- Give a key a value; a new key comes last. -/
def insert (map : KeyedMap Key Value) (key : Key) (value : Value) :
    KeyedMap Key Value :=
  if present : key ∈ map.keys then
    map.modify key fun _ => value
  else
    { entries := map.entries ++ [(key, value)]
      distinct := by
        rw [List.map_append, List.nodup_append]
        refine ⟨map.distinct, List.nodup_singleton key, ?_⟩
        rintro one member other single rfl
        rw [List.map_cons, List.map_nil, List.mem_singleton] at single
        subst single
        exact present member }

/-! ## Lookups -/

section Lookups

variable {map : KeyedMap Key Value} {key other : Key} {value : Value}

theorem lookup_eq_some_iff :
    map.lookup key = some value ↔ (key, value) ∈ map.entries := by
  unfold lookup
  constructor
  · intro found
    rcases Option.map_eq_some_iff.mp found with ⟨⟨same, _⟩, entry, rfl⟩
    have matched := List.find?_some entry
    rw [decide_eq_true_eq] at matched
    subst matched
    exact List.mem_of_find?_eq_some entry
  · intro member
    cases found : map.entries.find? fun entry => entry.1 = key with
    | none =>
      have absent := List.find?_eq_none.mp found _ member
      simp at absent
    | some entry =>
      have matched := List.find?_some found
      rw [decide_eq_true_eq] at matched
      have inside := List.mem_of_find?_eq_some found
      rcases entry with ⟨same, stored⟩
      subst matched
      rw [Option.map_some, value_unique inside member]

theorem lookup_eq_none_iff : map.lookup key = none ↔ key ∉ map.keys := by
  rw [← not_iff_not, ← ne_eq, Option.ne_none_iff_exists', not_not]
  constructor
  · rintro ⟨found, lookedUp⟩
    exact List.mem_map.mpr ⟨_, lookup_eq_some_iff.mp lookedUp, rfl⟩
  · intro member
    rcases List.mem_map.mp member with ⟨⟨same, found⟩, entry, rfl⟩
    exact ⟨found, lookup_eq_some_iff.mpr entry⟩

theorem mem_keys_of_lookup (found : map.lookup key = some value) :
    key ∈ map.keys := by
  by_contra absent
  rw [lookup_eq_none_iff.mpr absent] at found
  cases found

theorem exists_lookup_of_mem_keys (member : key ∈ map.keys) :
    ∃ found, map.lookup key = some found := by
  cases lookedUp : map.lookup key with
  | none => exact (lookup_eq_none_iff.mp lookedUp member).elim
  | some found => exact ⟨found, rfl⟩

@[simp]
theorem lookup_mapValues (change : Key → Value → Value) :
    (map.mapValues change).lookup key = (map.lookup key).map (change key) := by
  cases found : map.lookup key with
  | none =>
    rw [Option.map_none, lookup_eq_none_iff, keys_mapValues]
    exact lookup_eq_none_iff.mp found
  | some stored =>
    rw [Option.map_some, lookup_eq_some_iff]
    exact List.mem_map.mpr ⟨(key, stored), lookup_eq_some_iff.mp found, rfl⟩

@[simp]
theorem keys_modify (change : Value → Value) :
    (map.modify key change).keys = map.keys :=
  keys_mapValues map _

@[simp]
theorem lookup_modify_self (change : Value → Value) :
    (map.modify key change).lookup key = (map.lookup key).map change := by
  rw [modify, lookup_mapValues]
  simp

@[simp]
theorem lookup_modify_ne (different : other ≠ key) (change : Value → Value) :
    (map.modify key change).lookup other = map.lookup other := by
  rw [modify, lookup_mapValues]
  simp [different]

theorem mem_keys_erase :
    other ∈ (map.erase key).keys ↔ other ∈ map.keys ∧ other ≠ key := by
  simp only [keys, erase, List.mem_map, List.mem_filter, decide_eq_true_eq]
  constructor
  · rintro ⟨entry, ⟨member, different⟩, rfl⟩
    exact ⟨⟨entry, member, rfl⟩, different⟩
  · rintro ⟨⟨entry, member, rfl⟩, different⟩
    exact ⟨entry, ⟨member, different⟩, rfl⟩

@[simp]
theorem lookup_erase_self : (map.erase key).lookup key = none := by
  rw [lookup_eq_none_iff, mem_keys_erase]
  rintro ⟨_, different⟩
  exact different rfl

@[simp]
theorem lookup_erase_ne (different : other ≠ key) :
    (map.erase key).lookup other = map.lookup other := by
  cases found : map.lookup other with
  | none =>
    rw [lookup_eq_none_iff, mem_keys_erase]
    rintro ⟨member, _⟩
    exact lookup_eq_none_iff.mp found member
  | some stored =>
    rw [lookup_eq_some_iff]
    apply List.mem_filter.mpr
    exact ⟨lookup_eq_some_iff.mp found, decide_eq_true different⟩

theorem mem_keys_insert :
    other ∈ (map.insert key value).keys ↔ other ∈ map.keys ∨ other = key := by
  unfold insert
  split_ifs with present
  · rw [keys_modify]
    constructor
    · exact Or.inl
    · rintro (member | rfl)
      · exact member
      · exact present
  · simp [keys]

@[simp]
theorem lookup_insert_self :
    (map.insert key value).lookup key = some value := by
  unfold insert
  split_ifs with present
  · rcases exists_lookup_of_mem_keys present with ⟨stored, found⟩
    rw [lookup_modify_self, found, Option.map_some]
  · rw [lookup_eq_some_iff]
    simp

@[simp]
theorem lookup_insert_ne (different : other ≠ key) :
    (map.insert key value).lookup other = map.lookup other := by
  cases found : map.lookup other with
  | none =>
    rw [lookup_eq_none_iff, mem_keys_insert]
    rintro (member | same)
    · exact lookup_eq_none_iff.mp found member
    · exact different same
  | some stored =>
    unfold insert
    split_ifs
    · rw [lookup_modify_ne different, found]
    · rw [lookup_eq_some_iff]
      exact List.mem_append_left _ (lookup_eq_some_iff.mp found)

/-! ## Entries up to their order -/

/-- A present key and the entries without it. -/
theorem entries_perm_erase (found : map.lookup key = some value) :
    map.entries.Perm ((key, value) :: (map.erase key).entries) := by
  have absent : (key, value) ∉ (map.erase key).entries := by
    rw [← lookup_eq_some_iff, lookup_erase_self]
    exact (Option.some_ne_none value).symm
  apply (List.perm_ext_iff_of_nodup (nodup_entries map)
    (List.nodup_cons.mpr ⟨absent, nodup_entries _⟩)).mpr
  rintro ⟨other, stored⟩
  rw [List.mem_cons, ← lookup_eq_some_iff, ← lookup_eq_some_iff, Prod.mk.injEq]
  by_cases same : other = key
  · subst same
    rw [found, lookup_erase_self, Option.some.injEq]
    constructor
    · exact fun equal => Or.inl ⟨rfl, equal.symm⟩
    · rintro (⟨_, equal⟩ | impossible)
      · exact equal.symm
      · cases impossible
  · rw [lookup_erase_ne same]
    constructor
    · exact Or.inr
    · rintro (⟨equal, _⟩ | there)
      · exact (same equal).elim
      · exact there

/-- A key that was given a value, and the entries without it. -/
theorem entries_insert_perm (map : KeyedMap Key Value) (key : Key)
    (value : Value) :
    (map.insert key value).entries.Perm
      ((key, value) :: (map.erase key).entries) := by
  have sameRest :
      ((map.insert key value).erase key).entries.Perm
        (map.erase key).entries := by
    apply (List.perm_ext_iff_of_nodup (nodup_entries _) (nodup_entries _)).mpr
    rintro ⟨other, stored⟩
    rw [← lookup_eq_some_iff, ← lookup_eq_some_iff]
    by_cases same : other = key
    · rw [same, lookup_erase_self, lookup_erase_self]
    · rw [lookup_erase_ne same, lookup_erase_ne same, lookup_insert_ne same]
  exact (entries_perm_erase lookup_insert_self).trans (sameRest.cons _)

theorem erase_eq_self (absent : key ∉ map.keys) :
    (map.erase key).entries = map.entries := by
  apply List.filter_eq_self.mpr
  intro entry member
  apply decide_eq_true
  rintro rfl
  exact absent (List.mem_map.mpr ⟨entry, member, rfl⟩)

theorem length_keys_insert_of_some (found : map.lookup key = some value)
    (new : Value) : (map.insert key new).keys.length = map.keys.length := by
  have after := (entries_insert_perm map key new).length_eq
  have before := (entries_perm_erase found).length_eq
  simp only [keys, List.length_map, List.length_cons] at after before ⊢
  omega

theorem length_keys_insert_of_none (absent : map.lookup key = none)
    (new : Value) :
    (map.insert key new).keys.length = map.keys.length + 1 := by
  have after := (entries_insert_perm map key new).length_eq
  rw [erase_eq_self (lookup_eq_none_iff.mp absent)] at after
  simpa [keys] using after

/-- The sum of a measure of the values. -/
def total (measure : Value → Nat) (map : KeyedMap Key Value) : Nat :=
  (map.entries.map fun entry => measure entry.2).sum

variable {measure : Value → Nat}

theorem total_erase (found : map.lookup key = some value) :
    map.total measure = measure value + (map.erase key).total measure := by
  have permuted := (entries_perm_erase found).map fun entry => measure entry.2
  exact permuted.sum_nat

theorem total_erase_of_none (absent : map.lookup key = none) :
    (map.erase key).total measure = map.total measure := by
  unfold total
  rw [erase_eq_self (lookup_eq_none_iff.mp absent)]

theorem total_insert (map : KeyedMap Key Value) (key : Key) (value : Value) :
    (map.insert key value).total measure =
      measure value + (map.erase key).total measure := by
  have permuted :=
    (entries_insert_perm map key value).map fun entry => measure entry.2
  exact permuted.sum_nat

end Lookups

/-- The same keys in the same order, and a relation between the values. -/
structure Related (relation : Value → Value → Prop)
    (before after : KeyedMap Key Value) : Prop where
  keys : after.keys = before.keys
  values :
    ∀ {key old new}, before.lookup key = some old →
      after.lookup key = some new → relation old new

namespace Related

variable {relation : Value → Value → Prop}
  {before middle after : KeyedMap Key Value} {key : Key} {value : Value}

theorem refl (same : ∀ value, relation value value)
    (map : KeyedMap Key Value) : Related relation map map where
  keys := rfl
  values := by
    intro key old new found again
    rw [found, Option.some.injEq] at again
    rw [← again]
    exact same old

theorem exists_after (related : Related relation before after)
    (found : before.lookup key = some value) :
    ∃ new, after.lookup key = some new ∧ relation value new := by
  have member : key ∈ after.keys := by
    rw [related.keys]
    exact mem_keys_of_lookup found
  rcases exists_lookup_of_mem_keys member with ⟨new, foundAfter⟩
  exact ⟨new, foundAfter, related.values found foundAfter⟩

theorem exists_before (related : Related relation before after)
    (found : after.lookup key = some value) :
    ∃ old, before.lookup key = some old ∧ relation old value := by
  have member : key ∈ before.keys := by
    rw [← related.keys]
    exact mem_keys_of_lookup found
  rcases exists_lookup_of_mem_keys member with ⟨old, foundBefore⟩
  exact ⟨old, foundBefore, related.values foundBefore found⟩

theorem trans
    (compose : ∀ {first second third}, relation first second →
      relation second third → relation first third)
    (first : Related relation before middle)
    (second : Related relation middle after) :
    Related relation before after where
  keys := second.keys.trans first.keys
  values := by
    intro key old new found foundAfter
    rcases first.exists_after found with ⟨between, foundBetween, step⟩
    exact compose step (second.values foundBetween foundAfter)

theorem mapValues {change : Key → Value → Value}
    (changed : ∀ key value, relation value (change key value)) :
    Related relation before (before.mapValues change) where
  keys := keys_mapValues before change
  values := by
    intro key old new found foundAfter
    rw [lookup_mapValues, found, Option.map_some, Option.some.injEq]
      at foundAfter
    rw [← foundAfter]
    exact changed key old

theorem modify {change : Value → Value} (same : ∀ value, relation value value)
    (changed : ∀ value, relation value (change value)) :
    Related relation before (before.modify key change) := by
  apply mapValues
  intro other value
  split_ifs
  · exact changed value
  · exact same value

end Related

end KeyedMap

end Norn.Foundation
