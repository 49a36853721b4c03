import Mathlib.Data.Finset.Card
import Mathlib.Data.List.Basic

/-!
# Caches of recently recorded keys

A bounded queue of distinct keys.  A key that is not in the queue is recorded
at its end, and the oldest key leaves a full queue to make room.

Read from the newest key on, recording a key is putting it in front and
cutting the list at the capacity.  Two facts follow.  As long as fewer keys
than the capacity have been recorded, each of them is still there.  And a key
that two caches have recorded, one of which has recorded further keys in
between, leaves that one first.
-/

namespace Norn.Foundation

/-- At most `capacity` distinct keys, the oldest one first. -/
structure RecentKeys (Key : Type*) (capacity : Nat) where
  keys : List Key
  distinct : keys.Nodup
  bounded : keys.length ≤ capacity
  room : 0 < capacity

namespace RecentKeys

variable {Key : Type*} {capacity : Nat}

variable {self longer shorter : RecentKeys Key capacity} {key : Key}
  {interest : Key → Prop}

/-- The cache in which nothing has been recorded. -/
def empty (room : 0 < capacity) : RecentKeys Key capacity where
  keys := []
  distinct := List.nodup_nil
  bounded := Nat.zero_le capacity
  room

/-- The keys that stay when one more is to be recorded. -/
def kept (self : RecentKeys Key capacity) : List Key :=
  if capacity ≤ self.keys.length then self.keys.tail else self.keys

theorem kept_sublist (self : RecentKeys Key capacity) :
    self.kept.Sublist self.keys := by
  unfold kept
  split
  · exact List.tail_sublist self.keys
  · exact List.Sublist.refl self.keys

theorem length_kept_lt (self : RecentKeys Key capacity) :
    self.kept.length < capacity := by
  have bounded := self.bounded
  have room := self.room
  unfold kept
  split
  · rw [List.length_tail]
    omega
  · omega

/-- A key that is not in the cache is put at its end. -/
def record (self : RecentKeys Key capacity) (key : Key)
    (fresh : key ∉ self.keys) : RecentKeys Key capacity where
  keys := self.kept ++ [key]
  distinct := by
    have keptDistinct := self.distinct.sublist self.kept_sublist
    rw [List.nodup_append]
    refine ⟨keptDistinct, List.nodup_singleton key, ?_⟩
    intro old member other single same
    cases List.mem_singleton.mp single
    cases same
    exact fresh (self.kept_sublist.subset member)
  bounded := by
    have short := self.length_kept_lt
    rw [List.length_append, List.length_singleton]
    exact short
  room := self.room

/-- The key is looked up, and recorded if it is not there. -/
def seen [DecidableEq Key] (self : RecentKeys Key capacity) (key : Key) :
    Bool × RecentKeys Key capacity :=
  if member : key ∈ self.keys then
    (true, self)
  else
    (false, self.record key member)

theorem seen_of_mem [DecidableEq Key] (member : key ∈ self.keys) :
    self.seen key = (true, self) :=
  dif_pos member

theorem seen_of_fresh [DecidableEq Key] (fresh : key ∉ self.keys) :
    self.seen key = (false, self.record key fresh) :=
  dif_neg fresh

/-- The keys, the newest one first. -/
def newest (self : RecentKeys Key capacity) : List Key := self.keys.reverse

@[simp]
theorem mem_newest :
    key ∈ self.newest ↔ key ∈ self.keys :=
  List.mem_reverse

theorem newest_record (self : RecentKeys Key capacity) (key : Key)
    (fresh : key ∉ self.keys) :
    (self.record key fresh).newest = (key :: self.newest).take capacity := by
  have bounded := self.bounded
  have room := self.room
  simp only [newest, record, kept, List.reverse_append,
    List.reverse_singleton, List.singleton_append]
  split
  · case isTrue full =>
    cases content : self.keys with
    | nil =>
      rw [content, List.length_nil] at full
      omega
    | cons oldest later =>
      rw [content, List.length_cons] at full bounded
      have exact : capacity = (key :: later.reverse).length := by
        rw [List.length_cons, List.length_reverse]
        omega
      rw [List.tail_cons, List.reverse_cons, ← List.cons_append, exact,
        List.take_left]
  · case isFalse roomy =>
    rw [List.take_of_length_le]
    rw [List.length_cons, List.length_reverse]
    omega

theorem take_cons_take (key : Key) (list : List Key) (count : Nat) :
    (key :: list.take count).take count = (key :: list).take count := by
  cases count with
  | zero => rfl
  | succ count =>
    rw [List.take_succ_cons, List.take_succ_cons, List.take_take,
      Nat.min_eq_left (Nat.le_succ count)]

variable [DecidableEq Key]

/--
The cache after the keys of `recorded`, the newest one first, have been
recorded in it, as long as they are few.
-/
def HasRecorded (start : RecentKeys Key capacity) (recorded : List Key)
    (cache : RecentKeys Key capacity) : Prop :=
  recorded.toFinset.card < capacity →
    recorded.Nodup ∧ cache.newest = (recorded ++ start.newest).take capacity

theorem hasRecorded_nil (start : RecentKeys Key capacity) :
    HasRecorded start [] start := by
  intro _
  refine ⟨List.nodup_nil, ?_⟩
  rw [List.nil_append, List.take_of_length_le]
  rw [newest, List.length_reverse]
  exact start.bounded

/-- What was recorded is still there while the records are few. -/
theorem HasRecorded.mem {start cache : RecentKeys Key capacity}
    {recorded : List Key} (follows : HasRecorded start recorded cache)
    (few : recorded.toFinset.card < capacity) (member : key ∈ recorded) :
    key ∈ cache.keys := by
  rcases follows few with ⟨distinct, content⟩
  rw [List.toFinset_card_of_nodup distinct] at few
  rw [← mem_newest, content, List.take_append]
  apply List.mem_append_left
  rwa [List.take_of_length_le (Nat.le_of_lt few)]

theorem card_le_card_append (later recorded : List Key) :
    recorded.toFinset.card ≤ (later ++ recorded).toFinset.card := by
  apply Finset.card_le_card
  intro old member
  rw [List.mem_toFinset] at member ⊢
  exact List.mem_append_right later member

/-- A step of the cache: one more key is recorded. -/
theorem HasRecorded.record {start cache : RecentKeys Key capacity}
    {recorded : List Key} (follows : HasRecorded start recorded cache)
    (fresh : key ∉ cache.keys) :
    HasRecorded start (key :: recorded) (cache.record key fresh) := by
  intro few
  have fewBefore := Nat.lt_of_le_of_lt (card_le_card_append [key] recorded) few
  rcases follows fewBefore with ⟨distinct, content⟩
  have unrecorded : key ∉ recorded := by
    intro member
    exact fresh (follows.mem fewBefore member)
  refine ⟨List.nodup_cons.mpr ⟨unrecorded, distinct⟩, ?_⟩
  rw [newest_record, content, take_cons_take, List.cons_append]

/--
Of the keys of interest, those in the one cache are in the other, with no more
keys recorded after them.
-/
def Covers (interest : Key → Prop) (longer shorter : RecentKeys Key capacity) :
    Prop :=
  ∀ key, interest key → key ∈ longer.keys →
    key ∈ shorter.keys ∧ shorter.newest.idxOf key ≤ longer.newest.idxOf key

/-- Where an older key is after a record, if it is still there. -/
theorem idxOf_newest_record (cache : RecentKeys Key capacity) {old : Key}
    (fresh : key ∉ cache.keys) (other : key ≠ old)
    (member : old ∈ (cache.record key fresh).keys) :
    old ∈ cache.keys ∧
      (cache.record key fresh).newest.idxOf old =
        cache.newest.idxOf old + 1 := by
  rw [← mem_newest, newest_record] at member
  have front := List.take_prefix capacity (key :: cache.newest)
  have earlier : old ∈ cache.newest := by
    rcases List.mem_cons.mp (List.mem_of_mem_take member) with same | tail
    · exact (other same.symm).elim
    · exact tail
  refine ⟨mem_newest.mp earlier, ?_⟩
  rw [newest_record, front.idxOf_eq_of_mem member, List.idxOf_cons_ne _ other]

/-- An older key stays if it is not too far back. -/
theorem mem_record_of_idxOf_lt (cache : RecentKeys Key capacity) {old : Key}
    (fresh : key ∉ cache.keys) (other : key ≠ old) (member : old ∈ cache.keys)
    (near : cache.newest.idxOf old + 1 < capacity) :
    old ∈ (cache.record key fresh).keys := by
  have tail : old ∈ key :: cache.newest :=
    List.mem_cons_of_mem key (mem_newest.mpr member)
  rw [← mem_newest, newest_record, List.mem_take_iff_idxOf_lt tail,
    List.idxOf_cons_ne _ other]
  exact near

theorem covers_refl (interest : Key → Prop)
    (cache : RecentKeys Key capacity) : Covers interest cache cache :=
  fun _ _ member => ⟨member, Nat.le_refl _⟩

theorem Covers.mono {narrower : Key → Prop}
    (covers : Covers interest longer shorter)
    (narrows : ∀ key, narrower key → interest key) :
    Covers narrower longer shorter :=
  fun key wanted => covers key (narrows key wanted)

/-- The one cache records a key that is of no interest. -/
theorem Covers.record_longer (covers : Covers interest longer shorter)
    (boring : ¬ interest key) (fresh : key ∉ longer.keys) :
    Covers interest (longer.record key fresh) shorter := by
  intro old interesting member
  have other : key ≠ old := by
    rintro rfl
    exact boring interesting
  rcases idxOf_newest_record longer fresh other member with ⟨earlier, position⟩
  rcases covers old interesting earlier with ⟨covered, behind⟩
  refine ⟨covered, ?_⟩
  rw [position]
  exact Nat.le_succ_of_le behind

theorem Covers.seen_longer (covers : Covers interest longer shorter)
    (boring : key ∉ longer.keys → ¬ interest key) :
    Covers interest (longer.seen key).2 shorter := by
  by_cases member : key ∈ longer.keys
  · rwa [seen_of_mem member]
  · rw [seen_of_fresh member]
    exact covers.record_longer (boring member) member

/-- Both caches record a key. -/
theorem Covers.record_both (covers : Covers interest longer shorter)
    (freshLonger : key ∉ longer.keys) (freshShorter : key ∉ shorter.keys) :
    Covers interest (longer.record key freshLonger)
      (shorter.record key freshShorter) := by
  intro old interesting member
  by_cases other : key = old
  · cases other
    refine ⟨List.mem_append_right _ (List.mem_singleton_self key), ?_⟩
    have room := shorter.room
    rw [newest_record, newest_record]
    cases capacity with
    | zero => omega
    | succ count =>
      simp only [List.take_succ_cons, List.idxOf_cons_self, Nat.le_refl]
  · rcases idxOf_newest_record longer freshLonger other member with
      ⟨earlier, position⟩
    rcases covers old interesting earlier with ⟨covered, behind⟩
    have inside :
        (longer.record key freshLonger).newest.idxOf old < capacity := by
      apply Nat.lt_of_lt_of_le
        (List.idxOf_lt_length_iff.mpr (mem_newest.mpr member))
      rw [newest, List.length_reverse]
      exact (longer.record key freshLonger).bounded
    have stays : old ∈ (shorter.record key freshShorter).keys := by
      apply mem_record_of_idxOf_lt shorter freshShorter other covered
      omega
    refine ⟨stays, ?_⟩
    rw [position, (idxOf_newest_record shorter freshShorter other stays).2]
    exact Nat.succ_le_succ behind

/--
Both caches look a key up.  If the one has it whenever the other does, they
give the same answer.
-/
theorem Covers.seen_both (covers : Covers interest longer shorter)
    (interesting : interest key)
    (retained : key ∈ shorter.keys → key ∈ longer.keys) :
    (longer.seen key).1 = (shorter.seen key).1 ∧
      Covers interest (longer.seen key).2 (shorter.seen key).2 := by
  by_cases member : key ∈ longer.keys
  · have covered := (covers key interesting member).1
    rw [seen_of_mem member, seen_of_mem covered]
    exact ⟨rfl, covers⟩
  · have fresh : key ∉ shorter.keys := fun held => member (retained held)
    rw [seen_of_fresh member, seen_of_fresh fresh]
    exact ⟨rfl, covers.record_both member fresh⟩

end RecentKeys

end Norn.Foundation
