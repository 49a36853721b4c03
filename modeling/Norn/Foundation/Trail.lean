import Mathlib.Data.Finset.Card
import Mathlib.Dynamics.PeriodicPts.Defs

/-!
# Trails of partial functions

A place either leads to a next place or is an end.  The trail from a place is
the sequence of places that are reached from it.

A trail that comes back to a place goes on for ever.  One that never does is
no longer than there are places that lead on.
-/

namespace Norn.Foundation

variable {Place : Type*} (follow : Place → Option Place) (start : Place)

/-- The place reached after so many steps, if the trail goes that far. -/
def trail (steps : Nat) : Option Place :=
  (fun place => Option.bind place follow)^[steps] (some start)

@[simp]
theorem trail_zero : trail follow start 0 = some start := rfl

theorem trail_succ (steps : Nat) :
    trail follow start (steps + 1) = (trail follow start steps).bind follow :=
  Function.iterate_succ_apply' _ _ _

theorem trail_add (steps more : Nat) :
    trail follow start (steps + more) =
      (fun place => Option.bind place follow)^[more]
        (trail follow start steps) := by
  rw [Nat.add_comm]
  exact Function.iterate_add_apply _ _ _ _

variable {follow start}

/-- A trail that has ended does not start again. -/
theorem trail_eq_none_of_le {early late : Nat} (ordered : early ≤ late)
    (ended : trail follow start early = none) :
    trail follow start late = none := by
  induction ordered with
  | refl => exact ended
  | step _ induction =>
    rw [trail_succ, induction]
    rfl

theorem trail_ne_none_of_le {early late : Nat} (ordered : early ≤ late)
    (reached : trail follow start late ≠ none) :
    trail follow start early ≠ none :=
  mt (trail_eq_none_of_le ordered) reached

/-- A trail seen through a projection is a trail there. -/
theorem map_trail {Image : Type*} {project : Place → Image}
    {image : Image → Option Image}
    (commutes : ∀ place, (follow place).map project = image (project place))
    (steps : Nat) :
    (trail follow start steps).map project =
      trail image (project start) steps := by
  induction steps with
  | zero => rfl
  | succ steps induction =>
    rw [trail_succ, trail_succ, ← induction]
    cases trail follow start steps with
    | none => rfl
    | some place => exact commutes place

/-- The trail never comes to a place where it has been before. -/
def NeverReturns (follow : Place → Option Place) (start : Place) : Prop :=
  ∀ early late, early < late →
    trail follow start early ≠ none →
      trail follow start early ≠ trail follow start late

/-- A trail that comes back to a place goes on for ever. -/
theorem trail_ne_none_of_return (returns : ¬ NeverReturns follow start)
    (steps : Nat) :
    trail follow start steps ≠ none := by
  unfold NeverReturns at returns
  push Not at returns
  rcases returns with ⟨early, late, before, reached, again⟩
  have periodic :
      Function.IsPeriodicPt (fun place => Option.bind place follow)
        (late - early) (trail follow start early) := by
    change _^[late - early] _ = _
    rw [← trail_add, Nat.add_sub_of_le before.le, again]
  have rounds := periodic.const_mul steps
  have later : trail follow start (early + steps * (late - early)) ≠ none := by
    rw [trail_add]
    rw [rounds.eq]
    exact reached
  have positive : 0 < late - early := Nat.sub_pos_of_lt before
  have enough : steps ≤ early + steps * (late - early) :=
    (Nat.le_mul_of_pos_right steps positive).trans (Nat.le_add_left _ _)
  exact trail_ne_none_of_le enough later

/-- A trail that never returns visits no more places than there are. -/
theorem steps_le_card_of_neverReturns {places : Finset Place}
    (leading : ∀ place, follow place ≠ none → place ∈ places)
    (never : NeverReturns follow start) {steps : Nat}
    (reached : trail follow start steps ≠ none) :
    steps ≤ places.card := by
  have present :
      ∀ early, early < steps →
        ∃ place ∈ places, trail follow start early = some place := by
    intro early before
    have goesOn := trail_ne_none_of_le before reached
    rw [Nat.succ_eq_add_one, trail_succ] at goesOn
    cases found : trail follow start early with
    | none =>
      rw [found] at goesOn
      exact absurd rfl goesOn
    | some place =>
      rw [found] at goesOn
      exact ⟨place, leading place goesOn, rfl⟩
  calc
    steps = (Finset.range steps).card := (Finset.card_range steps).symm
    _ ≤ (places.map Function.Embedding.some).card := by
      apply Finset.card_le_card_of_injOn (trail follow start)
      · intro early member
        rcases present early (Finset.mem_range.mp member) with
          ⟨place, inside, found⟩
        rw [found]
        exact Finset.mem_map_of_mem _ inside
      · intro first firstIn second secondIn same
        have firstAt :=
          trail_ne_none_of_le (Finset.mem_range.mp firstIn).le reached
        have secondAt :=
          trail_ne_none_of_le (Finset.mem_range.mp secondIn).le reached
        by_contra different
        rcases Nat.lt_or_gt_of_ne different with before | before
        · exact never first second before firstAt same
        · exact never second first before secondAt same.symm
    _ = places.card := Finset.card_map _

end Norn.Foundation
