import Mathlib.Data.List.AList

/-!
# Tables of shared cells

A table maps keys to handles, and handles address cells that outlive their
table entry: removing a key, or storing a new cell under it, leaves the old
cell alive for whoever still holds its handle.  Handles are allocated in
increasing order and are never reused.

The structure carries its own well-formedness: every handle in the table
addresses an allocated cell, and no two keys share a cell.
-/

namespace Norn.Foundation

/-- A keyed table of shared, individually mutable cells. -/
structure HandleTable (Key Value : Type*) [DecidableEq Key] where
  slots : AList (fun _ : Key => Nat)
  cells : List Value
  allocated :
    ∀ {key : Key} {handle : Nat},
      slots.lookup key = some handle → handle < cells.length
  separate :
    ∀ {left right : Key} {handle : Nat},
      slots.lookup left = some handle →
        slots.lookup right = some handle → left = right

namespace HandleTable

variable {Key Value : Type*} [DecidableEq Key]

variable {key other : Key} {cell : Nat}

/-- The table without entries. -/
def empty : HandleTable Key Value where
  slots := ∅
  cells := []
  allocated := by
    intro key handle found
    simp at found
  separate := by
    intro left right handle found
    simp at found

/-- The handle stored under a key. -/
def handle (table : HandleTable Key Value) (key : Key) : Option Nat :=
  table.slots.lookup key

/-- The content of the cell addressed by a handle. -/
def deref (table : HandleTable Key Value) (cell : Nat) : Option Value :=
  table.cells[cell]?

/-- The content of the cell stored under a key. -/
def peek (table : HandleTable Key Value) (key : Key) : Option Value :=
  (table.handle key).bind table.deref

/-- Allocate a new cell and store its handle under `key`. -/
def insert (table : HandleTable Key Value) (key : Key) (value : Value) :
    HandleTable Key Value where
  slots := table.slots.insert key table.cells.length
  cells := table.cells ++ [value]
  allocated := by
    intro other cell found
    rw [List.length_append, List.length_singleton]
    by_cases same : other = key
    · subst other
      rw [AList.lookup_insert] at found
      cases found
      omega
    · rw [AList.lookup_insert_ne same] at found
      have older := table.allocated found
      omega
  separate := by
    intro left right cell leftFound rightFound
    by_cases leftSame : left = key <;> by_cases rightSame : right = key
    · rw [leftSame, rightSame]
    · subst left
      rw [AList.lookup_insert] at leftFound
      rw [AList.lookup_insert_ne rightSame] at rightFound
      cases leftFound
      exact absurd (table.allocated rightFound) (lt_irrefl _)
    · subst right
      rw [AList.lookup_insert] at rightFound
      rw [AList.lookup_insert_ne leftSame] at leftFound
      cases rightFound
      exact absurd (table.allocated leftFound) (lt_irrefl _)
    · rw [AList.lookup_insert_ne leftSame] at leftFound
      rw [AList.lookup_insert_ne rightSame] at rightFound
      exact table.separate leftFound rightFound

/-- Change the cell addressed by a handle. -/
def update (table : HandleTable Key Value) (cell : Nat)
    (change : Value → Value) : HandleTable Key Value where
  slots := table.slots
  cells := table.cells.modify cell change
  allocated := by
    intro key other found
    rw [List.length_modify]
    exact table.allocated found
  separate := table.separate

/-- Change the cell stored under a key, if there is one. -/
def modify (table : HandleTable Key Value) (key : Key)
    (change : Value → Value) : HandleTable Key Value :=
  match table.handle key with
  | none => table
  | some cell => table.update cell change

/-- Forget the entry of a key; its cell stays allocated. -/
def erase (table : HandleTable Key Value) (key : Key) :
    HandleTable Key Value where
  slots := table.slots.erase key
  cells := table.cells
  allocated := by
    intro other cell found
    by_cases same : other = key
    · subst other
      rw [AList.lookup_erase] at found
      cases found
    · rw [AList.lookup_erase_ne same] at found
      exact table.allocated found
  separate := by
    intro left right cell leftFound rightFound
    have keep :
        ∀ {other : Key}, (table.slots.erase key).lookup other = some cell →
          table.slots.lookup other = some cell := by
      intro other found
      by_cases same : other = key
      · subst other
        rw [AList.lookup_erase] at found
        cases found
      · rwa [AList.lookup_erase_ne same] at found
    exact table.separate (keep leftFound) (keep rightFound)

/-- Whether the cell behind a handle passes a test. -/
def passes (table : HandleTable Key Value) (keep : Value → Bool)
    (cell : Nat) : Bool :=
  match table.deref cell with
  | none => false
  | some value => keep value

/-- The entries of a table whose cells pass a test. -/
def retainedSlots (table : HandleTable Key Value) (keep : Value → Bool) :
    AList (fun _ : Key => Nat) where
  entries := table.slots.entries.filter fun entry =>
    table.passes keep entry.2
  nodupKeys := table.slots.nodupKeys.sublist List.filter_sublist

variable (table : HandleTable Key Value) (change : Nat → Value → Value)

theorem lookup_retainedSlots_iff (keep : Value → Bool) (key : Key)
    (cell : Nat) :
    (table.retainedSlots keep).lookup key = some cell ↔
      table.slots.lookup key = some cell ∧ table.passes keep cell = true := by
  have retained :=
    List.mem_dlookup_iff (a := key) (b := cell)
      (table.retainedSlots keep).nodupKeys
  have original :=
    List.mem_dlookup_iff (a := key) (b := cell) table.slots.nodupKeys
  simp only [Option.mem_def] at retained original
  unfold AList.lookup
  rw [retained, original]
  simp [retainedSlots, List.mem_filter]

/-- Drop every entry whose cell fails a test. -/
def retain (table : HandleTable Key Value) (keep : Value → Bool) :
    HandleTable Key Value where
  slots := table.retainedSlots keep
  cells := table.cells
  allocated := by
    intro key cell found
    exact table.allocated
      ((table.lookup_retainedSlots_iff keep key cell).mp found).1
  separate := by
    intro left right cell leftFound rightFound
    exact table.separate
      ((table.lookup_retainedSlots_iff keep left cell).mp leftFound).1
      ((table.lookup_retainedSlots_iff keep right cell).mp rightFound).1

/-- The handles currently in the table. -/
def handles (table : HandleTable Key Value) : List Nat :=
  table.slots.entries.map Sigma.snd

/-- Change every cell that is reachable through the table. -/
def updateAll (table : HandleTable Key Value)
    (change : Nat → Value → Value) : HandleTable Key Value where
  slots := table.slots
  cells := table.cells.mapIdx fun cell value =>
    if cell ∈ table.handles then change cell value else value
  allocated := by
    intro key cell found
    rw [List.length_mapIdx]
    exact table.allocated found
  separate := table.separate

theorem deref_of_handle (found : table.handle key = some cell) :
    ∃ value, table.deref cell = some value := by
  have inside := table.allocated found
  exact ⟨table.cells[cell], List.getElem?_eq_getElem inside⟩

theorem peek_eq_none_iff (key : Key) :
    table.peek key = none ↔ table.handle key = none := by
  unfold peek
  constructor
  · intro absent
    cases found : table.handle key with
    | none => rfl
    | some cell =>
      obtain ⟨value, content⟩ := table.deref_of_handle found
      simp [found, content] at absent
  · intro absent
    simp [absent]

theorem peek_eq_some_iff (key : Key) (value : Value) :
    table.peek key = some value ↔
      ∃ cell, table.handle key = some cell ∧ table.deref cell = some value := by
  simp [peek, Option.bind_eq_some_iff]

theorem peek_of_handle (found : table.handle key = some cell) :
    table.peek key = table.deref cell := by
  simp [peek, found]

@[simp]
theorem handle_empty (key : Key) :
    (empty : HandleTable Key Value).handle key = none := by
  simp [empty, handle]

@[simp]
theorem peek_empty (key : Key) :
    (empty : HandleTable Key Value).peek key = none := by
  simp [peek]

@[simp]
theorem handle_insert_self (key : Key) (value : Value) :
    (table.insert key value).handle key = some table.cells.length := by
  simp [insert, handle]

theorem handle_insert_of_ne (value : Value) (distinct : other ≠ key) :
    (table.insert key value).handle other = table.handle other := by
  simp [insert, handle, AList.lookup_insert_ne distinct]

@[simp]
theorem deref_insert_new (key : Key) (value : Value) :
    (table.insert key value).deref table.cells.length = some value := by
  simp [insert, deref]

theorem deref_insert_of_lt (key : Key) (value : Value)
    (older : cell < table.cells.length) :
    (table.insert key value).deref cell = table.deref cell := by
  simp [insert, deref, List.getElem?_append_left older]

@[simp]
theorem peek_insert_self (key : Key) (value : Value) :
    (table.insert key value).peek key = some value := by
  simp [peek]

theorem handle_insert_of_absent {table : HandleTable Key Value}
    (value : Value) (absent : table.handle other = none)
    (found : table.handle key = some cell) :
    (table.insert other value).handle key = some cell := by
  rw [handle_insert_of_ne _ _ ?_, found]
  rintro rfl
  cases absent.symm.trans found

/-- A cell that a key leads to only after an insertion is the new one. -/
theorem inserted_of_handle {table : HandleTable Key Value} {value held : Value}
    (before : table.handle key ≠ some cell)
    (found : (table.insert other value).handle key = some cell)
    (content : (table.insert other value).deref cell = some held) :
    other = key ∧ value = held := by
  by_cases same : key = other
  · subst same
    rw [handle_insert_self] at found
    cases found
    rw [deref_insert_new] at content
    exact ⟨rfl, Option.some.inj content⟩
  · rw [handle_insert_of_ne _ _ same] at found
    exact absurd found before

/-! ## Updates -/

theorem deref_update (cell other : Nat) (change : Value → Value) :
    (table.update cell change).deref other =
      if cell = other then (table.deref other).map change
      else table.deref other := by
  simp only [update, deref, List.getElem?_modify]
  split_ifs <;> simp

@[simp]
theorem deref_update_self (cell : Nat) (change : Value → Value) :
    (table.update cell change).deref cell = (table.deref cell).map change := by
  simp [deref_update]

theorem deref_update_of_ne {other : Nat} (change : Value → Value)
    (distinct : cell ≠ other) :
    (table.update cell change).deref other = table.deref other := by
  simp [deref_update, distinct]

@[simp]
theorem handle_modify (key other : Key) (change : Value → Value) :
    (table.modify key change).handle other = table.handle other := by
  unfold modify
  cases table.handle key <;> rfl

@[simp]
theorem peek_modify_self (key : Key) (change : Value → Value) :
    (table.modify key change).peek key = (table.peek key).map change := by
  unfold peek
  rw [handle_modify]
  cases found : table.handle key with
  | none => rfl
  | some cell => simp [modify, found]

theorem peek_modify_of_ne (change : Value → Value) (distinct : other ≠ key) :
    (table.modify key change).peek other = table.peek other := by
  unfold peek
  rw [handle_modify]
  cases found : table.handle other with
  | none => rfl
  | some cell =>
    cases origin : table.handle key with
    | none => simp [modify, origin]
    | some changed =>
      have apart : changed ≠ cell := by
        intro same
        subst changed
        exact distinct (table.separate found origin)
      simp [modify, origin, table.deref_update_of_ne change apart]

/-- Reading through a handle after a keyed update. -/
theorem deref_modify (key : Key) (cell : Nat) (change : Value → Value) :
    (table.modify key change).deref cell =
      if table.handle key = some cell then (table.deref cell).map change
      else table.deref cell := by
  unfold modify
  cases found : table.handle key with
  | none => simp
  | some changed => simp [deref_update]

@[simp]
theorem handle_erase_self (key : Key) :
    (table.erase key).handle key = none := by
  simp [erase, handle]

theorem handle_erase_of_ne (distinct : other ≠ key) :
    (table.erase key).handle other = table.handle other := by
  simp [erase, handle, AList.lookup_erase_ne distinct]

theorem handle_of_handle_erase
    (found : (table.erase key).handle other = some cell) :
    table.handle other = some cell := by
  by_cases same : other = key
  · subst other
    simp at found
  · rwa [table.handle_erase_of_ne same] at found

theorem handle_of_handle_retain {keep : Value → Bool}
    (found : (table.retain keep).handle key = some cell) :
    table.handle key = some cell :=
  ((table.lookup_retainedSlots_iff keep key cell).mp found).1

theorem deref_updateAll (cell : Nat) :
    (table.updateAll change).deref cell =
      (table.deref cell).map fun value =>
        if cell ∈ table.handles then change cell value else value := by
  simp [updateAll, deref, List.getElem?_mapIdx]

theorem mem_handles_of_handle (found : table.handle key = some cell) :
    cell ∈ table.handles := by
  have member :=
    (List.mem_dlookup_iff (a := key) (b := cell) table.slots.nodupKeys).mp found
  exact List.mem_map.mpr ⟨⟨key, cell⟩, member, rfl⟩

theorem handle_of_mem_entries {entry : Sigma fun _ : Key => Nat}
    (member : entry ∈ table.slots.entries) :
    table.handle entry.1 = some entry.2 :=
  (List.mem_dlookup_iff table.slots.nodupKeys).mpr member

theorem peek_updateAll (found : table.handle key = some cell) :
    (table.updateAll change).peek key = (table.peek key).map (change cell) := by
  have member := table.mem_handles_of_handle found
  have foundAfter : (table.updateAll change).handle key = some cell := found
  rw [peek_of_handle _ foundAfter, peek_of_handle _ found, deref_updateAll]
  simp [member]

/-- Every cell stays, and its content changes only as the relation allows. -/
def Evolves (relation : Value → Value → Prop)
    (before after : HandleTable Key Value) : Prop :=
  ∀ cell value, before.deref cell = some value →
    ∃ later, after.deref cell = some later ∧ relation value later

/-- Every cell that has a property still has it. -/
abbrev Keeps (good : Value → Prop) (before after : HandleTable Key Value) :
    Prop :=
  Evolves (fun value later => good value → good later) before after

section Evolves

variable {relation : Value → Value → Prop}

theorem Evolves.mono {before after : HandleTable Key Value}
    {weaker : Value → Value → Prop} (evolves : Evolves relation before after)
    (implied : ∀ value later, relation value later → weaker value later) :
    Evolves weaker before after := by
  intro cell value content
  rcases evolves cell value content with ⟨later, found, related⟩
  exact ⟨later, found, implied value later related⟩

variable (same : ∀ value, relation value value)
  (table : HandleTable Key Value)

include same

theorem Evolves.refl : Evolves relation table table :=
  fun _ value content => ⟨value, content, same value⟩

theorem evolves_insert (key : Key) (value : Value) :
    Evolves relation table (table.insert key value) := by
  intro cell content found
  have inside : cell < table.cells.length :=
    (List.getElem?_eq_some_iff.mp found).1
  exact ⟨content, (table.deref_insert_of_lt key value inside).trans found,
    same content⟩

theorem evolves_update (cell : Nat) {change : Value → Value}
    (related :
      ∀ value, table.deref cell = some value → relation value (change value)) :
    Evolves relation table (table.update cell change) := by
  intro other value content
  rw [deref_update, content]
  split_ifs with touched
  · subst touched
    exact ⟨change value, rfl, related value content⟩
  · exact ⟨value, rfl, same value⟩

theorem evolves_modify (key : Key) {change : Value → Value}
    (related :
      ∀ value, table.peek key = some value → relation value (change value)) :
    Evolves relation table (table.modify key change) := by
  unfold modify
  cases found : table.handle key with
  | none => exact Evolves.refl same table
  | some cell =>
    apply evolves_update same table cell
    intro value content
    exact related value ((table.peek_of_handle found).trans content)

theorem evolves_updateAll {change : Nat → Value → Value}
    (related : ∀ cell value, relation value (change cell value)) :
    Evolves relation table (table.updateAll change) := by
  intro cell value content
  rw [deref_updateAll, content]
  refine ⟨_, rfl, ?_⟩
  dsimp only
  split_ifs
  · exact related cell value
  · exact same value

end Evolves

theorem Keeps.refl (good : Value → Prop) (table : HandleTable Key Value) :
    Keeps good table table :=
  Evolves.refl (fun _ => id) table

/--
If a key leads to a cell with a property, it led to the same cell before,
and the cell had the property.
-/
def ReflectsAt (good : Value → Prop) (key : Key)
    (before after : HandleTable Key Value) : Prop :=
  ∀ cell later, after.handle key = some cell →
    after.deref cell = some later → good later →
      before.handle key = some cell ∧
        ∃ value, before.deref cell = some value ∧ good value

section ReflectsAt

variable {good : Value → Prop} {key : Key}

theorem ReflectsAt.refl (good : Value → Prop) (key : Key)
    (table : HandleTable Key Value) : ReflectsAt good key table table :=
  fun _ later found content holds => ⟨found, later, content, holds⟩

variable (table : HandleTable Key Value)

theorem reflectsAt_insert_of_ne {touched : Key} (value : Value)
    (distinct : key ≠ touched) :
    ReflectsAt good key table (table.insert touched value) := by
  intro cell later found content holds
  rw [table.handle_insert_of_ne value distinct] at found
  rw [table.deref_insert_of_lt touched value (table.allocated found)] at content
  exact ⟨found, later, content, holds⟩

theorem reflectsAt_update (cell : Nat) {change : Value → Value}
    (reflected :
      ∀ value, table.deref cell = some value → good (change value) →
        good value) :
    ReflectsAt good key table (table.update cell change) := by
  intro other later found content holds
  refine ⟨found, ?_⟩
  rw [deref_update] at content
  split_ifs at content with same
  · subst same
    rcases Option.map_eq_some_iff.mp content with ⟨value, stored, shape⟩
    exact ⟨value, stored, reflected value stored (by rwa [shape])⟩
  · exact ⟨later, content, holds⟩

theorem reflectsAt_modify_of_ne {touched : Key} (change : Value → Value)
    (distinct : key ≠ touched) :
    ReflectsAt good key table (table.modify touched change) := by
  intro cell later found content holds
  rw [handle_modify] at found
  refine ⟨found, later, ?_, holds⟩
  rw [deref_modify, if_neg] at content
  · exact content
  · intro same
    exact distinct (table.separate found same)

end ReflectsAt

end HandleTable

end Norn.Foundation
