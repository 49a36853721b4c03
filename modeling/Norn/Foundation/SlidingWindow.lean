import Mathlib.Data.List.Basic
import Mathlib.Order.Basic

/-!
# Sliding replay windows

The abstract side is a history: the list of numbers accepted so far.  A
number is admitted when it exceeds all of them, or when it is less than
`width` below the highest one and has not been accepted before.

The concrete side is a pair of the highest accepted number and a bit mask
whose bit `i` speaks about `high - i`.  `Represents` ties the two together;
checking against the mask decides admission, and the two mask updates keep
the representation.
-/

namespace Norn.Foundation.SlidingWindow

variable {width high : Nat} {accepted : List Nat} {mask : Nat → Bool}

/-- The number may be accepted after the given history. -/
def Admits (width : Nat) (accepted : List Nat) (number : Nat) : Prop :=
  (∀ earlier ∈ accepted, earlier < number) ∨
    (number ∉ accepted ∧
      ∃ highest ∈ accepted,
        (∀ earlier ∈ accepted, earlier ≤ highest) ∧ highest - number < width)

/-- A highest number and a mask describe the history faithfully. -/
structure Represents (width : Nat) (accepted : List Nat)
    (high : Nat) (mask : Nat → Bool) : Prop where
  unused : accepted = [] → high = 0
  attained : accepted ≠ [] → high ∈ accepted
  highest : ∀ earlier ∈ accepted, earlier ≤ high
  bits :
    ∀ index < width, mask index = true ↔ index ≤ high ∧ high - index ∈ accepted

theorem represents_nil (width : Nat) :
    Represents width [] 0 fun _ => false where
  unused := by
    intro _
    rfl
  attained := by
    intro nonempty
    exact absurd rfl nonempty
  highest := by simp
  bits := by simp

/-- Checking the mask decides admission. -/
theorem Represents.admits_iff (represents : Represents width accepted high mask)
    (positive : 0 < width) (number : Nat) :
    Admits width accepted number ↔
      high - number < width ∧
        (number ≤ high → mask (high - number) = false) := by
  rcases Nat.lt_or_ge high number with above | inside
  · constructor
    · intro _
      refine ⟨by omega, ?_⟩
      intro below
      omega
    · intro _
      left
      intro earlier member
      exact Nat.lt_of_le_of_lt (represents.highest earlier member) above
  · have restored : high - (high - number) = number := by omega
    constructor
    · rintro (exceeds | ⟨fresh, top, topMember, topHighest, near⟩)
      · have unused : accepted = [] := by
          by_contra nonempty
          have topBelow := exceeds high (represents.attained nonempty)
          omega
        have atZero := represents.unused unused
        have near : high - number < width := by omega
        refine ⟨near, ?_⟩
        intro _
        by_contra marked
        rw [Bool.not_eq_false, represents.bits _ near, restored] at marked
        simp [unused] at marked
      · have nonempty : accepted ≠ [] := List.ne_nil_of_mem topMember
        have sameTop : top = high :=
          Nat.le_antisymm (represents.highest top topMember)
            (topHighest high (represents.attained nonempty))
        subst top
        refine ⟨near, ?_⟩
        intro _
        by_contra marked
        rw [Bool.not_eq_false, represents.bits _ near, restored] at marked
        exact fresh marked.2
    · rintro ⟨near, unmarked⟩
      have fresh : number ∉ accepted := by
        intro member
        have marked : mask (high - number) = true := by
          rw [represents.bits _ near, restored]
          exact ⟨by omega, member⟩
        rw [unmarked inside] at marked
        cases marked
      by_cases unused : accepted = []
      · left
        simp [unused]
      · right
        exact ⟨fresh, high, represents.attained unused, represents.highest,
          near⟩

/-- The mask after accepting a number above the highest one. -/
def advanceMask (width shift : Nat) (mask : Nat → Bool) : Nat → Bool :=
  fun index =>
    decide (index = 0) ||
      (decide (shift < width) && decide (shift ≤ index) && mask (index - shift))

/-- The mask after accepting a number at or below the highest one. -/
def markMask (offset : Nat) (mask : Nat → Bool) : Nat → Bool :=
  fun index => decide (index = offset) || mask index

/-- Moving the window forward keeps it a record of the numbers accepted. -/
theorem Represents.advance (represents : Represents width accepted high mask)
    {number : Nat} (above : high < number) :
    Represents width (number :: accepted) number
      (advanceMask width (number - high) mask) where
  unused := by simp
  attained := by simp
  highest := by
    intro earlier member
    rcases List.mem_cons.mp member with same | older
    · exact Nat.le_of_eq same
    · exact Nat.le_of_lt
        (Nat.lt_of_le_of_lt (represents.highest earlier older) above)
  bits := by
    intro index bounded
    rcases Nat.eq_zero_or_pos index with first | positive
    · subst index
      simp [advanceMask]
    · have notNumber : number - index ≠ number := by omega
      rcases Nat.lt_or_ge index (number - high) with beyond | within
      · have unaccepted : number - index ∉ accepted := by
          intro member
          have bound := represents.highest _ member
          omega
        simp [advanceMask, notNumber, unaccepted, Nat.ne_of_gt positive,
          Nat.not_le.mpr beyond]
      · have shifted : number - high < width := by omega
        have older := represents.bits (index - (number - high)) (by omega)
        have position : high - (index - (number - high)) = number - index := by
          omega
        have range : index - (number - high) ≤ high ↔ index ≤ number := by
          omega
        rw [position, range] at older
        simp [advanceMask, notNumber, Nat.ne_of_gt positive, shifted, within,
          older]

theorem Represents.mark (represents : Represents width accepted high mask)
    {number : Nat} (inside : number ≤ high) :
    Represents width (number :: accepted) high
      (markMask (high - number) mask) where
  unused := by simp
  attained := by
    intro _
    by_cases unused : accepted = []
    · have atZero := represents.unused unused
      have same : high = number := by omega
      simp [same]
    · exact List.mem_cons_of_mem number (represents.attained unused)
  highest := by
    intro earlier member
    rcases List.mem_cons.mp member with same | older
    · rw [same]
      exact inside
    · exact represents.highest earlier older
  bits := by
    intro index bounded
    have older := represents.bits index bounded
    have same :
        index = high - number ↔ index ≤ high ∧ high - index = number := by
      omega
    simp only [markMask, Bool.or_eq_true, decide_eq_true_eq, List.mem_cons,
      older, same]
    tauto

/-- Representation depends only on the bits inside the window. -/
theorem Represents.congr {other : Nat → Bool}
    (represents : Represents width accepted high mask)
    (agree : ∀ index < width, other index = mask index) :
    Represents width accepted high other where
  unused := represents.unused
  attained := represents.attained
  highest := represents.highest
  bits := by
    intro index bounded
    rw [agree index bounded]
    exact represents.bits index bounded

end Norn.Foundation.SlidingWindow
