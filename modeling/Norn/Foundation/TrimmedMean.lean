import Mathlib.Algebra.Order.Field.Basic
import Mathlib.Algebra.BigOperators.Ring.List
import Mathlib.Algebra.Order.BigOperators.Group.List
import Mathlib.Data.List.Sort
import Mathlib.Tactic.Linarith

/-!
# Trimmed means

Scores are sorted, a number of them is cut off at either end, and the rest is
averaged with weights.  If no more of the scores are bad than are cut off at
one end, then whatever is left lies between two good scores, and so does every
weighted average of it.

The order of items with the same score is left open.  It matters for the
average just when a cut goes through items of one score and different weights,
and what is left has other scores as well.
-/

namespace Norn.Foundation.TrimmedMean

section Trim

variable {Item Score : Type*} [Preorder Score]

variable {trim : Nat} {items : List Item}

/-- Items in the order of their scores. -/
abbrev Ascending (score : Item → Score) (items : List Item) : Prop :=
  items.Pairwise fun one other => score one ≤ score other

/-- What is left after `trim` items are cut off at either end. -/
def trimmed (trim : Nat) (items : List Item) : List Item :=
  (items.drop trim).take (max (items.length - trim) (trim + 1) - trim)

theorem trimmed_map {Other : Type*} (change : Item → Other) (trim : Nat)
    (items : List Item) :
    trimmed trim (items.map change) = (trimmed trim items).map change := by
  simp only [trimmed, List.length_map, List.map_drop, List.map_take]

/-- What is cut off. -/
def cutOff (trim : Nat) (items : List Item) : List Item :=
  items.take trim ++ items.drop (items.length - trim)

theorem trimmed_parts {front middle back : List Item}
    (frontSize : front.length = trim) (backSize : back.length = trim)
    (some : middle ≠ []) :
    trimmed trim (front ++ (middle ++ back)) = middle := by
  have long := List.length_pos_of_ne_nil some
  rw [trimmed, List.drop_left' frontSize]
  apply List.take_left'
  simp only [List.length_append]
  omega

theorem cutOff_parts {front middle back : List Item}
    (frontSize : front.length = trim) (backSize : back.length = trim) :
    cutOff trim (front ++ (middle ++ back)) = front ++ back := by
  rw [cutOff, List.take_left' frontSize, ← List.append_assoc,
    List.drop_left' (by simp only [List.length_append]; omega)]

/-- Enough items fall into those that are cut off and those that are left. -/
theorem exists_parts (enough : 2 * trim < items.length) :
    ∃ front middle back,
      items = front ++ (middle ++ back) ∧ front.length = trim ∧
        back.length = trim ∧ middle ≠ [] := by
  refine ⟨items.take trim, (items.drop trim).take (items.length - 2 * trim),
    (items.drop trim).drop (items.length - 2 * trim), ?_, ?_, ?_, ?_⟩
  · rw [List.take_append_drop, List.take_append_drop]
  · rw [List.length_take]
    omega
  · rw [List.length_drop, List.length_drop]
    omega
  · apply List.ne_nil_of_length_pos
    rw [List.length_take, List.length_drop]
    omega

theorem trimmed_ne_nil (enough : trim < items.length) :
    trimmed trim items ≠ [] := by
  apply List.ne_nil_of_length_pos
  rw [trimmed, List.length_take, List.length_drop]
  omega

/-- Among more items than are bad there is a good one. -/
theorem exists_good {bad : Item → Bool} {part : List Item}
    (few : items.countP bad ≤ trim) (inside : part.Sublist items)
    (long : trim < part.length) :
    ∃ item ∈ part, bad item = false := by
  by_contra none
  have all : part.countP bad = part.length := by
    apply List.countP_eq_length.mpr
    intro item member
    by_contra good
    exact none ⟨item, member, Bool.eq_false_iff.mpr good⟩
  have fewer := inside.countP_le (p := bad)
  omega

/-- What is left lies between two good items. -/
theorem trimmed_between {score : Item → Score} {bad : Item → Bool} {trim : Nat}
    {items : List Item}
    (sorted : Ascending score items)
    (few : items.countP bad ≤ trim) (enough : 2 * trim < items.length) :
    ∃ low ∈ items, ∃ high ∈ items, bad low = false ∧ bad high = false ∧
      ∀ item ∈ trimmed trim items, score low ≤ score item ∧
        score item ≤ score high := by
  have front : ∃ low ∈ items.take (trim + 1), bad low = false :=
    exists_good few (List.take_sublist _ _) (by rw [List.length_take]; omega)
  have back :
      ∃ high ∈ items.drop (items.length - (trim + 1)), bad high = false :=
    exists_good few (List.drop_sublist _ _) (by rw [List.length_drop]; omega)
  rcases front with ⟨low, lowMember, lowGood⟩
  rcases back with ⟨high, highMember, highGood⟩
  refine ⟨low, List.mem_of_mem_take lowMember, high,
    List.mem_of_mem_drop highMember, lowGood, highGood, ?_⟩
  rcases List.mem_iff_getElem.mp lowMember with ⟨first, before, rfl⟩
  rcases List.mem_iff_getElem.mp highMember with ⟨last, behind, rfl⟩
  intro item member
  rcases List.mem_iff_getElem.mp member with ⟨index, within, rfl⟩
  rw [List.length_take] at before
  rw [List.length_drop] at behind
  have place := within
  rw [trimmed, List.length_take, List.length_drop] at place
  have ordered :
      ∀ one other (left : one < items.length)
        (right :
          other < items.length), one ≤ other →
            score items[one] ≤ score items[other] := by
    intro one other left right le
    rcases Nat.lt_or_eq_of_le le with less | same
    · exact List.pairwise_iff_getElem.mp sorted one other left right less
    · subst same
      exact le_rfl
  simp only [trimmed, List.getElem_take, List.getElem_drop]
  constructor
  · exact ordered _ _ _ _ (by omega)
  · exact ordered _ _ _ _ (by omega)

/-- More low items than are cut off: one of them is left. -/
theorem exists_low_trimmed {score : Item → Score} {low : Item → Bool}
    {trim : Nat} {items : List Item} (sorted : Ascending score items)
    (below :
      ∀ one ∈ items, ∀ other ∈ items, low one = true → low other = false →
        score one < score other)
    (enough : 2 * trim < items.length) (many : trim < items.countP low) :
    ∃ item ∈ trimmed trim items, low item = true := by
  rcases exists_parts enough with ⟨front, middle, back, rfl, size, _, some⟩
  rw [trimmed_parts size ‹_› some]
  by_contra none
  have high (item : Item) (member : item ∈ middle) : low item = false :=
    Bool.eq_false_iff.mpr fun isLow => none ⟨item, member, isLow⟩
  rcases List.exists_mem_of_ne_nil middle some with ⟨item, inMiddle⟩
  have ordered :=
    (List.pairwise_append.mp (List.pairwise_append.mp sorted).2.1).2.2
  have highBack (later : Item) (member : later ∈ back) : low later = false := by
    by_contra isLow
    exact absurd (ordered item inMiddle later member)
      (below later (by simp [member]) item (by simp [inMiddle])
        (Bool.not_eq_false _ ▸ isLow) (high item inMiddle)).not_ge
  have few := front.countP_le_length (p := low)
  have noneKept : middle.countP low = 0 :=
    List.countP_eq_zero.mpr (by simpa using high)
  have noneBehind : back.countP low = 0 :=
    List.countP_eq_zero.mpr (by simpa using highBack)
  rw [List.countP_append, List.countP_append] at many
  omega

end Trim

section Sorting

variable {Item Score : Type*} [LinearOrder Score]

theorem pairwise_mergeSort_score (score : Item → Score) (items : List Item) :
    (items.mergeSort fun one other => score one ≤ score other).Pairwise
      fun one other => score one ≤ score other := by
  have sorted :=
    @List.pairwise_mergeSort Item
      (fun one other => decide (score one ≤ score other))
      (fun one two three first second => by
        simp only [decide_eq_true_eq] at first second ⊢
        exact le_trans first second)
      (fun one other => by simpa using le_total (score one) (score other))
      items
  simp only [decide_eq_true_eq] at sorted
  exact sorted

section Ties

variable {score : Item → Score} {Value : Type*} {change : Item → Value}

/-! ### Two orders -/

section Orders

variable {first second : List Item}

theorem map_score_eq (same : first.Perm second)
    (firstSorted : Ascending score first)
    (secondSorted : Ascending score second) :
    first.map score = second.map score :=
  (same.map score).eq_of_pairwise (fun _ _ _ _ le ge => le_antisymm le ge)
    (List.pairwise_map.mpr firstSorted) (List.pairwise_map.mpr secondSorted)

omit [LinearOrder Score] in
theorem exists_mem_of_map_eq (same : first.map score = second.map score)
    {item : Item} (member : item ∈ second) :
    ∃ other ∈ first, score other = score item := by
  have image : score item ∈ second.map score := List.mem_map_of_mem member
  rwa [← same, List.mem_map] at image

end Orders

/-- Items that are like the head from its score on, by those below it. -/
theorem map_perm_of_alike {head : Item} {items : List Item}
    (alike :
      ∀ item ∈ items, score head ≤ score item → change item = change head) :
    (items.map change).Perm
      ((items.filter (score · < score head)).map change ++
        List.replicate
          (items.length - (items.filter (score · < score head)).length)
          (change head)) := by
  have parts := List.filter_append_perm (score · < score head) items
  have size := parts.length_eq
  rw [List.length_append] at size
  refine (parts.symm.map change).trans ?_
  rw [List.map_append]
  refine List.Perm.append_left _ (.of_eq ?_)
  rw [List.eq_replicate_iff, List.length_map]
  refine ⟨by omega, fun value member => ?_⟩
  rcases List.mem_map.mp member with ⟨item, inside, rfl⟩
  rcases List.mem_filter.mp inside with ⟨inItems, high⟩
  exact alike item inItems (by simpa using high)

/-- What comes first in two orders is alike, if ties across the cut are. -/
theorem front_map_perm {low high low' high' : List Item}
    (same : (low ++ high).Perm (low' ++ high'))
    (size : low.length = low'.length) (sorted : Ascending score (low ++ high))
    (sorted' : Ascending score (low' ++ high'))
    (ties :
      ∀ one ∈ low, ∀ other ∈ high, score one = score other →
        change one = change other) :
    (low.map change).Perm (low'.map change) := by
  have scores := map_score_eq same sorted sorted'
  rw [List.map_append, List.map_append] at scores
  rcases List.append_inj scores (by simpa using size) with ⟨lows, highs⟩
  cases high with
  | nil =>
    rw [List.map_eq_nil_iff.mp highs.symm, List.append_nil, List.append_nil]
      at same
    exact same.map change
  | cons head rest =>
    rcases List.pairwise_append.mp sorted with ⟨_, tail, across⟩
    have ge (item : Item) (member : item ∈ head :: rest) :
        score head ≤ score item := by
      rcases List.mem_cons.mp member with rfl | later
      · exact le_rfl
      · exact List.rel_of_pairwise_cons tail later
    have below :
        (low.filter (score · < score head)).Perm
          (low'.filter (score · < score head)) := by
      have behind : (head :: rest).filter (score · < score head) = [] :=
        List.filter_eq_nil_iff.mpr fun item member => by
          simpa using ge item member
      have behind' : high'.filter (score · < score head) = [] :=
        List.filter_eq_nil_iff.mpr fun item member => by
          rcases exists_mem_of_map_eq highs member with ⟨other, inside, equal⟩
          simpa [← equal] using ge other inside
      have all := same.filter (score · < score head)
      rwa [List.filter_append, List.filter_append, behind, behind',
        List.append_nil, List.append_nil] at all
    have alike (item : Item) (member : item ∈ low)
        (high : score head ≤ score item) : change item = change head :=
      ties item member head List.mem_cons_self
        (le_antisymm (across item member head List.mem_cons_self) high)
    have alike' (item : Item) (member : item ∈ low')
        (high : score head ≤ score item) : change item = change head := by
      rcases exists_mem_of_map_eq lows member with ⟨other, inside, equal⟩
      rcases List.mem_append.mp (same.mem_iff.mpr
        (List.mem_append_left _ member)) with early | late
      · exact alike item early high
      · exact (ties other inside item late equal).symm.trans
          (alike other inside (equal ▸ high))
    have parts := map_perm_of_alike alike
    rw [size, below.length_eq] at parts
    exact (parts.trans ((below.map change).append_right _)).trans
      (map_perm_of_alike alike').symm

variable (score) in
/--
A cut goes through the items of a score, and what is left has other scores as
well.
-/
def CutThrough (trim : Nat) (items : List Item) (pivot : Score) : Prop :=
  let below := items.countP (score · < pivot)
  let above := items.countP (pivot < score ·)
  below < trim ∧ trim < above ∧ trim + above < items.length ∨
    above < trim ∧ trim < below ∧ trim + below < items.length

theorem cutThrough_perm {trim : Nat} {first second : List Item}
    (same : first.Perm second) {pivot : Score} :
    CutThrough score trim first pivot ↔ CutThrough score trim second pivot := by
  simp only [CutThrough, same.countP_eq, same.length_eq]

/-! ### One of the cuts

What is near the end is cut off; the other end is that of the dual order.
-/

section Near

variable {near others : List Item} {pivot : Score}
  (across : ∀ one ∈ near, ∀ other ∈ others, score one ≤ score other)

include across

theorem le_of_near
    (few : (near ++ others).countP (pivot < score ·) ≤ others.length) :
    ∀ item ∈ near, score item ≤ pivot := by
  intro item member
  by_contra above
  have all : others.countP (pivot < score ·) = others.length :=
    List.countP_eq_length.mpr fun later inside => by
      simpa using (not_le.mp above).trans_le (across item member later inside)
  have some : 0 < near.countP (pivot < score ·) :=
    List.countP_pos_iff.mpr ⟨item, member, by simpa using above⟩
  rw [List.countP_append] at few
  omega

theorem countP_lt_of_mem {item : Item} (member : item ∈ near) :
    (near ++ others).countP (score · < score item) < near.length := by
  have none : others.countP (score · < score item) = 0 :=
    List.countP_eq_zero.mpr fun other inside => by
      simpa using across item member other inside
  have short := near.countP_le_length (p := (score · < score item))
  have notAll : near.countP (score · < score item) ≠ near.length := by
    intro all
    simpa using List.countP_eq_length.mp all item member
  rw [List.countP_append, none]
  omega

theorem countP_lt_of_tie {one other : Item} (oneMember : one ∈ near)
    (otherMember : other ∈ others) (tie : score one = score other) :
    (near ++ others).countP (score · < score one) < near.length ∧
      (near ++ others).countP (score one < score ·) < others.length := by
  refine ⟨countP_lt_of_mem across oneMember, ?_⟩
  rw [tie, List.perm_append_comm.countP_eq]
  exact @countP_lt_of_mem Item Scoreᵒᵈ _ score others near
    (fun one inside other member => across other member one inside) other
    otherMember

end Near

section Cut

variable {near middle far : List Item} {pivot : Score}
  (across : ∀ one ∈ near, ∀ other ∈ middle ++ far, score one ≤ score other)
  (ordered : ∀ one ∈ middle, ∀ other ∈ far, score one ≤ score other)

include across ordered

/-- With few items above what is cut off, all that is left is tied to it. -/
theorem tied_of_few {one : Item} (oneMember : one ∈ near)
    (few :
      (near ++ (middle ++ far)).countP (score one < score ·) ≤ far.length) :
    ∀ item ∈ middle, score item = score one := by
  rw [← List.append_assoc] at few
  have low :=
    le_of_near (fun one inside other member => by
      rcases List.mem_append.mp inside with early | late
      · exact across one early other (List.mem_append_right _ member)
      · exact ordered one late other member) few
  exact fun item member => le_antisymm
    (low item (List.mem_append_right _ member))
    (across one oneMember item (List.mem_append_left _ member))

/-- A cut through the items of a score leaves one of them, and a higher one. -/
theorem beside_of_cut (some : middle ≠ [])
    (below :
      (near ++ (middle ++ far)).countP (score · < pivot) < near.length)
    (above :
      far.length < (near ++ (middle ++ far)).countP (pivot < score ·))
    (inside :
      (near ++ (middle ++ far)).countP (pivot < score ·) <
        (middle ++ far).length) :
    (∃ item ∈ middle, score item = pivot) ∧
      (∃ item ∈ near, score item = pivot) ∧
      (∀ item ∈ middle, pivot ≤ score item) ∧
      ∃ item ∈ middle, pivot < score item := by
  have before := le_of_near across inside.le
  have behind :=
    @le_of_near Item Scoreᵒᵈ _ score (middle ++ far) near pivot
      (fun one inside other member => across other member one inside)
      (by rw [List.perm_append_comm.countP_eq]; exact below.le)
  have none : near.countP (pivot < score ·) = 0 :=
    List.countP_eq_zero.mpr (by simpa using before)
  rw [List.countP_append, none, Nat.zero_add] at above inside
  have kept (item : Item) (member : item ∈ middle) : pivot ≤ score item :=
    behind item (List.mem_append_left _ member)
  refine ⟨?_, ?_, kept, ?_⟩
  · rcases exists_good le_rfl (List.Sublist.refl _) inside with
      ⟨item, member, low⟩
    rcases List.exists_mem_of_ne_nil middle some with ⟨first, inMiddle⟩
    rcases List.mem_append.mp member with early | late
    · exact ⟨item, early, le_antisymm (by simpa using low) (kept item early)⟩
    · exact ⟨first, inMiddle, le_antisymm
        ((ordered first inMiddle item late).trans (by simpa using low))
        (kept first inMiddle)⟩
  · rcases exists_good le_rfl (List.sublist_append_left near _) below with
      ⟨item, member, high⟩
    exact ⟨item, member, le_antisymm (before item member) (by simpa using high)⟩
  · by_contra low
    have few := far.countP_le_length (p := (pivot < score ·))
    have noneKept : middle.countP (pivot < score ·) = 0 :=
      List.countP_eq_zero.mpr fun item member => by
        simpa using fun high => low ⟨item, member, high⟩
    rw [List.countP_append] at above
    omega

end Cut

/-! ### Both cuts -/

omit [LinearOrder Score] in
theorem countP_flip (front middle back : List Item) (holds : Item → Bool) :
    (back ++ (middle ++ front)).countP holds =
      (front ++ (middle ++ back)).countP holds := by
  simp only [List.countP_append]
  omega

/-- In order, what is cut off comes before or after what is left. -/
theorem ordered_parts {front middle back : List Item}
    (sorted : Ascending score (front ++ (middle ++ back))) :
    (∀ one ∈ front, ∀ other ∈ middle ++ back, score one ≤ score other) ∧
      (∀ one ∈ middle, ∀ other ∈ back, score one ≤ score other) ∧
      ∀ one ∈ middle ++ front, ∀ other ∈ back, score one ≤ score other := by
  rcases List.pairwise_append.mp sorted with ⟨_, rest, across⟩
  have ordered := (List.pairwise_append.mp rest).2.2
  refine ⟨across, ordered, fun one member other inside => ?_⟩
  rcases List.mem_append.mp member with late | early
  · exact ordered one late other inside
  · exact across one early other (List.mem_append_right _ inside)

variable {items : List Item} {trim : Nat} {pivot : Score}

/--
In two orders of the same items the same is left, unless there is a tie that
matters, or all that is left has one score.
-/
theorem trimmed_map_perm {first second : List Item}
    (same : first.Perm second) (firstSorted : Ascending score first)
    (secondSorted : Ascending score second)
    (enough : 2 * trim < first.length)
    (ties :
      ∀ one ∈ first, ∀ other ∈ first, score one = score other →
        CutThrough score trim first (score one) → change one = change other) :
    ((trimmed trim first).map change).Perm
        ((trimmed trim second).map change) ∨
      ∃ pivot, (∀ item ∈ trimmed trim first, score item = pivot) ∧
        ∀ item ∈ trimmed trim second, score item = pivot := by
  by_cases single : ∃ pivot, ∀ item ∈ trimmed trim first, score item = pivot
  · right
    rcases single with ⟨pivot, all⟩
    have scores : (trimmed trim first).map score =
        (trimmed trim second).map score := by
      rw [← trimmed_map, map_score_eq same firstSorted secondSorted,
        trimmed_map]
    refine ⟨pivot, all, fun item member => ?_⟩
    rcases exists_mem_of_map_eq scores member with ⟨other, inside, equal⟩
    rw [← equal, all other inside]
  · left
    rcases exists_parts (same.length_eq ▸ enough) with
      ⟨front', middle', back', rfl, size', behind', some'⟩
    rcases exists_parts enough with
      ⟨front, middle, back, rfl, size, behind, some⟩
    rw [trimmed_parts size behind some] at single ⊢
    rw [trimmed_parts size' behind' some']
    rcases ordered_parts firstSorted with ⟨across, ordered, onward⟩
    unfold CutThrough at ties
    simp only [List.length_append] at ties
    have fronts : (front.map change).Perm (front'.map change) := by
      apply front_map_perm same (size.trans size'.symm) firstSorted
        secondSorted
      intro one early other late tie
      have counts := countP_lt_of_tie across early late tie
      rw [List.length_append] at counts
      refine ties one (by simp [early]) other (List.mem_append_right _ late)
        tie (Or.inl ⟨by omega, ?_, by omega⟩)
      by_contra few
      exact single ⟨_, tied_of_few across ordered early (by omega)⟩
    rw [← List.append_assoc, ← List.append_assoc] at same
    rw [← List.append_assoc] at firstSorted secondSorted
    have both :
        ((front ++ middle).map change).Perm
          ((front' ++ middle').map change) := by
      apply front_map_perm same _ firstSorted secondSorted
      · intro one early other late tie
        have counts :=
          countP_lt_of_tie
            (fun one member => onward one
              (List.perm_append_comm.mem_iff.mp member))
            early late tie
        rw [List.append_assoc, List.length_append] at counts
        refine ties one (List.append_assoc .. ▸ List.mem_append_left _ early)
          other (by simp [late]) tie (Or.inr ⟨by omega, ?_, by omega⟩)
        by_contra few
        refine single ⟨_, @tied_of_few Item Scoreᵒᵈ _ score back middle front
          (fun one member other inside => onward other inside one member)
          (fun one member other inside =>
            across other inside one (List.mem_append_left _ member)) _ late ?_⟩
        rw [countP_flip, ← tie]
        exact size ▸ Nat.le_of_not_lt few
      · have count := same.length_eq
        simp only [List.length_append] at count ⊢
        omega
    rw [List.map_append, List.map_append] at both
    exact (List.perm_append_left_iff _).mp
      (both.trans (fronts.symm.append_right _))

variable (score pivot) in
/-- All scores are on one side of the pivot, and not all are equal to it. -/
def OneSided (items : List Item) : Prop :=
  ((∀ item ∈ items, pivot ≤ score item) ∧ ∃ item ∈ items, pivot < score item) ∨
    (∀ item ∈ items, score item ≤ pivot) ∧ ∃ item ∈ items, score item < pivot

/-- A cut through the items of a score leaves some of them, beside others. -/
theorem oneSided_trimmed (sorted : Ascending score items)
    (enough : 2 * trim < items.length)
    (through : CutThrough score trim items pivot) :
    (∃ item ∈ trimmed trim items, score item = pivot) ∧
      (∃ item ∈ cutOff trim items, score item = pivot) ∧
      OneSided score pivot (trimmed trim items) := by
  rcases exists_parts enough with
    ⟨front, middle, back, rfl, size, behind, some⟩
  rw [trimmed_parts size behind some, cutOff_parts size behind]
  rcases ordered_parts sorted with ⟨across, ordered, onward⟩
  unfold CutThrough at through
  simp only [List.length_append] at through
  rcases through with ⟨below, above, inside⟩ | ⟨above, below, inside⟩
  · rcases @beside_of_cut _ _ _ score front middle back pivot across ordered
        some (by omega) (by omega) (by rw [List.length_append]; omega) with
      ⟨kept, ⟨item, member, equal⟩, high⟩
    exact ⟨kept, ⟨item, List.mem_append_left _ member, equal⟩, Or.inl high⟩
  · have rest :
        (front ++ (middle ++ back)).countP (score · < pivot) <
          (middle ++ front).length := by
      rw [List.length_append]
      omega
    rcases @beside_of_cut Item Scoreᵒᵈ _ score back middle front pivot
        (fun one member other inside => onward other inside one member)
        (fun one member other inside =>
          across other inside one (List.mem_append_left _ member)) some
        (by rw [countP_flip]; exact behind ▸ above)
        (by rw [countP_flip]; exact size ▸ below)
        (by rw [countP_flip]; exact rest) with
      ⟨kept, ⟨item, member, equal⟩, low⟩
    exact ⟨kept, ⟨item, List.mem_append_right _ member, equal⟩, Or.inr low⟩

/--
An item that is left may change places with one of the same score that is cut
off.
-/
theorem exists_exchanged (sorted : Ascending score items)
    (enough : 2 * trim < items.length) {one other : Item}
    (kept : one ∈ trimmed trim items) (cut : other ∈ cutOff trim items)
    (tie : score one = score other) :
    ∃ exchanged rest,
      exchanged.Perm items ∧ Ascending score exchanged ∧
        (trimmed trim items).Perm (one :: rest) ∧
        (trimmed trim exchanged).Perm (other :: rest) := by
  classical
  rcases exists_parts enough with
    ⟨front, middle, back, rfl, size, behind, some⟩
  rw [trimmed_parts size behind some] at kept ⊢
  rw [cutOff_parts size behind] at cut
  rcases List.append_of_mem kept with ⟨left, right, rfl⟩
  have done (front' back' : List Item) (size' : front'.length = trim)
      (behind' : back'.length = trim)
      (same :
        (front' ++ (left ++ other :: right ++ back')).Perm
          (front ++ (left ++ one :: right ++ back)))
      (scores :
        (front' ++ (left ++ other :: right ++ back')).map score =
          (front ++ (left ++ one :: right ++ back)).map score) :
      ∃ exchanged rest,
        exchanged.Perm (front ++ (left ++ one :: right ++ back)) ∧
          Ascending score exchanged ∧
          (left ++ one :: right).Perm (one :: rest) ∧
          (trimmed trim exchanged).Perm (other :: rest) := by
    refine ⟨_, left ++ right, same, ?_, List.perm_middle, ?_⟩
    · apply List.pairwise_map.mp
      rw [scores]
      exact List.pairwise_map.mpr sorted
    · rw [trimmed_parts size' behind' (by simp)]
      exact List.perm_middle
  rcases List.mem_append.mp cut with inFront | inBack
  · rcases List.append_of_mem inFront with ⟨before, after, rfl⟩
    refine done (before ++ one :: after) back (by simpa using size) behind ?_
      (by simp [tie])
    rw [List.perm_iff_count]
    intro item
    simp only [List.count_append, List.count_cons]
    omega
  · rcases List.append_of_mem inBack with ⟨before, after, rfl⟩
    refine done front (before ++ one :: after) size (by simpa using behind) ?_
      (by simp [tie])
    rw [List.perm_iff_count]
    intro item
    simp only [List.count_append, List.count_cons]
    omega

/--
If exchanging items of a score makes no difference and a cut goes through
them, they are all alike.
-/
theorem alike_of_exchange {Value : Type*} {change : Item → Value}
    (sorted : Ascending score items) (enough : 2 * trim < items.length)
    (through : CutThrough score trim items pivot)
    (exchange :
      ∀ one ∈ trimmed trim items, ∀ other ∈ cutOff trim items,
        score one = pivot → score other = pivot → change one = change other)
    {one other : Item} (oneMember : one ∈ items) (otherMember : other ∈ items)
    (oneScore : score one = pivot) (otherScore : score other = pivot) :
    change one = change other := by
  rcases oneSided_trimmed sorted enough through with
    ⟨⟨left, leftKept, leftScore⟩, ⟨cut, cutMember, cutScore⟩, _⟩
  have alike (item : Item) (member : item ∈ items)
      (equal : score item = pivot) : change left = change item := by
    rcases exists_parts enough with
      ⟨front, middle, back, rfl, size, behind, some⟩
    rw [trimmed_parts size behind some, cutOff_parts size behind] at *
    have placed : item ∈ middle ∨ item ∈ front ++ back := by
      simp only [List.mem_append] at member ⊢
      tauto
    rcases placed with kept | out
    · exact (exchange left leftKept cut cutMember leftScore cutScore).trans
        (exchange item kept cut cutMember equal cutScore).symm
    · exact exchange left leftKept item out leftScore equal
  exact (alike one oneMember oneScore).symm.trans
    (alike other otherMember otherScore)

end Ties

end Sorting

section Mean

variable {Number : Type*} [Field Number] [LinearOrder Number]
  [IsStrictOrderedRing Number]

variable {items : List (Number × Number)} {bound : Number}

/-- The average of scores by their weights, as pairs of both. -/
def mean (items : List (Number × Number)) : Number :=
  (items.map fun item => item.1 * item.2).sum / (items.map Prod.fst).sum

theorem weight_pos (positive : ∀ item ∈ items, 0 < item.1) (some : items ≠ []) :
    0 < (items.map Prod.fst).sum :=
  List.sum_pos _ (by simpa using positive) (by simpa using some)

theorem scaled_le {low high : Number} (positive : ∀ item ∈ items, 0 < item.1)
    (between : ∀ item ∈ items, low ≤ item.2 ∧ item.2 ≤ high) :
    low * (items.map Prod.fst).sum ≤
        (items.map fun item => item.1 * item.2).sum ∧
      (items.map fun item => item.1 * item.2).sum ≤
        high * (items.map Prod.fst).sum := by
  rw [← List.sum_map_mul_left, ← List.sum_map_mul_left]
  constructor
  · apply List.sum_le_sum
    intro item member
    rw [mul_comm]
    exact mul_le_mul_of_nonneg_left (between item member).1
      (positive item member).le
  · apply List.sum_le_sum
    intro item member
    rw [mul_comm high]
    exact mul_le_mul_of_nonneg_left (between item member).2
      (positive item member).le

omit [LinearOrder Number] [IsStrictOrderedRing Number] in
theorem mean_perm {first second : List (Number × Number)}
    (same : first.Perm second) : mean first = mean second := by
  unfold mean
  rw [(same.map _).sum_eq, (same.map Prod.fst).sum_eq]

/-- Scores below a bound, not all of them equal to it, weigh less than it. -/
theorem scaled_lt (positive : ∀ item ∈ items, 0 < item.1)
    (below : ∀ item ∈ items, item.2 ≤ bound)
    (strict : ∃ item ∈ items, item.2 < bound) :
    (items.map fun item => item.1 * item.2).sum <
      bound * (items.map Prod.fst).sum := by
  rw [← List.sum_map_mul_left]
  rcases strict with ⟨least, inside, less⟩
  refine List.sum_lt_sum _ _ ?_ ⟨least, inside, ?_⟩
  · intro item member
    rw [mul_comm bound]
    exact mul_le_mul_of_nonneg_left (below item member)
      (positive item member).le
  · rw [mul_comm bound]
    exact mul_lt_mul_of_pos_left less (positive least inside)

theorem lt_scaled (positive : ∀ item ∈ items, 0 < item.1)
    (above : ∀ item ∈ items, bound ≤ item.2)
    (strict : ∃ item ∈ items, bound < item.2) :
    bound * (items.map Prod.fst).sum <
      (items.map fun item => item.1 * item.2).sum := by
  rw [← List.sum_map_mul_left]
  rcases strict with ⟨most, inside, more⟩
  refine List.sum_lt_sum _ _ ?_ ⟨most, inside, ?_⟩
  · intro item member
    rw [mul_comm bound]
    exact mul_le_mul_of_nonneg_left (above item member)
      (positive item member).le
  · rw [mul_comm bound]
    exact mul_lt_mul_of_pos_left more (positive most inside)

/-- Beside scores on one side of it, the weight of a score shows. -/
theorem eq_of_mean_eq {one other : Number × Number}
    {rest : List (Number × Number)}
    (positive : ∀ item ∈ one :: other :: rest, 0 < item.1)
    (tie : one.2 = other.2) (oneSided : OneSided Prod.snd one.2 (one :: rest))
    (same : mean (one :: rest) = mean (other :: rest)) : one = other := by
  have first := positive one List.mem_cons_self
  have second := positive other (by simp)
  have others (item : Number × Number) (member : item ∈ rest) : 0 < item.1 :=
    positive item (by simp [member])
  have heavy : ∀ item ∈ one :: rest, 0 < item.1 := by
    simpa using ⟨first, fun weight score => others (weight, score)⟩
  have uneven :
      (rest.map fun item => item.1 * item.2).sum ≠
        one.2 * (rest.map Prod.fst).sum := by
    intro even
    rcases oneSided with ⟨above, strict⟩ | ⟨below, strict⟩
    · have more := lt_scaled heavy above strict
      simp only [List.map_cons, List.sum_cons] at more
      linarith
    · have less := scaled_lt heavy below strict
      simp only [List.map_cons, List.sum_cons] at less
      linarith
  have weight : 0 ≤ (rest.map Prod.fst).sum :=
    List.sum_nonneg fun weight member => by
      rcases List.mem_map.mp member with ⟨item, inside, rfl⟩
      exact (others item inside).le
  unfold mean at same
  simp only [List.map_cons, List.sum_cons] at same
  rw [div_eq_div_iff (by linarith) (by linarith), ← tie] at same
  have product :
      (one.1 - other.1) *
        ((rest.map fun item => item.1 * item.2).sum -
          one.2 * (rest.map Prod.fst).sum) = 0 := by
    linarith
  rcases mul_eq_zero.mp product with weights | sums
  · exact Prod.ext (sub_eq_zero.mp weights) tie
  · exact absurd (sub_eq_zero.mp sums) uneven

theorem mean_lt (positive : ∀ item ∈ items, 0 < item.1)
    (below : ∀ item ∈ items, item.2 ≤ bound)
    (strict : ∃ item ∈ items, item.2 < bound) : mean items < bound := by
  rcases strict with ⟨least, inside, less⟩
  rw [mean, div_lt_iff₀ (weight_pos positive (List.ne_nil_of_mem inside))]
  exact scaled_lt positive below ⟨least, inside, less⟩

/-- An average lies between the bounds of what it is taken of. -/
theorem mean_between {low high : Number}
    (positive : ∀ item ∈ items, 0 < item.1) (some : items ≠ [])
    (between : ∀ item ∈ items, low ≤ item.2 ∧ item.2 ≤ high) :
    low ≤ mean items ∧ mean items ≤ high := by
  have total := weight_pos positive some
  have scaled := scaled_le positive between
  exact ⟨(le_div_iff₀ total).mpr scaled.1, (div_le_iff₀ total).mpr scaled.2⟩

end Mean

end Norn.Foundation.TrimmedMean
