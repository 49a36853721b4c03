import Norn.Foundation.KeyedMap
import Mathlib.Data.Finset.Card
import Mathlib.Data.List.AList

/-!
# Tables with a bounded number of keys

A table has room for a number of keys.  A key that is offered to it is stored
if it is known or if there is room.  A full table gives up another key, but
none of those that are to be spared, or it refuses the new one.

Only the set of the keys matters here, so that one statement covers tables of
every kind.
-/

namespace Norn.Foundation

section Keys

variable {Key Value : Type} [DecidableEq Key]

variable {Entry : Key → Type}

/-- The keys of an association list. -/
def keysOf (table : AList Entry) : Finset Key := table.keys.toFinset

theorem mem_keysOf {table : AList Entry} {key : Key} :
    key ∈ keysOf table ↔ key ∈ table :=
  List.mem_toFinset

theorem card_keysOf (table : AList Entry) :
    (keysOf table).card = table.keys.length :=
  List.toFinset_card_of_nodup table.keys_nodup

theorem keysOf_insert (table : AList Entry) (key : Key) (value : Entry key) :
    keysOf (table.insert key value) = insert key (keysOf table) := by
  ext other
  rw [mem_keysOf, AList.mem_insert, Finset.mem_insert, mem_keysOf]

theorem keysOf_erase (table : AList Entry) (key : Key) :
    keysOf (table.erase key) = (keysOf table).erase key := by
  ext other
  rw [mem_keysOf, AList.mem_erase, Finset.mem_erase, mem_keysOf]

end Keys

variable {Key : Type} [DecidableEq Key]

/-- What offering a key to a table may do to its keys. -/
inductive Admits (capacity : Nat) (Spared : Key → Prop) (key : Key)
    (before : Finset Key) : Finset Key → Prop where
  | refused : Admits capacity Spared key before before
  | stored (room : key ∈ before ∨ before.card < capacity) :
      Admits capacity Spared key before (insert key before)
  | evicted {victim : Key} (member : victim ∈ before) (free : ¬ Spared victim) :
      Admits capacity Spared key before (insert key (before.erase victim))

namespace Admits

variable {capacity : Nat} {Spared : Key → Prop} {key : Key}
  {before after : Finset Key}

/-- The keys that are to be spared stay. -/
theorem spared (admits : Admits capacity Spared key before after)
    {other : Key} (member : other ∈ before) (kept : Spared other) :
    other ∈ after := by
  cases admits with
  | refused => exact member
  | stored room => exact Finset.mem_insert_of_mem member
  | evicted _ free =>
    apply Finset.mem_insert_of_mem
    refine Finset.mem_erase.mpr ⟨?_, member⟩
    rintro rfl
    exact free kept

/-- A key given up for another one leaves no more than there were. -/
theorem card_replaced {victim : Key} (member : victim ∈ before) :
    (insert key (before.erase victim)).card ≤ before.card := by
  have inserted := Finset.card_insert_le key (before.erase victim)
  rw [Finset.card_erase_of_mem member] at inserted
  have some := Finset.card_pos.mpr ⟨victim, member⟩
  omega

/-- A table never outgrows its capacity. -/
theorem card_le (admits : Admits capacity Spared key before after)
    (bounded : before.card ≤ capacity) : after.card ≤ capacity := by
  cases admits with
  | refused => exact bounded
  | stored room =>
    rcases room with known | free
    · rw [Finset.insert_eq_of_mem known]
      exact bounded
    · exact (Finset.card_insert_le _ _).trans free
  | evicted member _ => exact (card_replaced member).trans bounded

end Admits

end Norn.Foundation
