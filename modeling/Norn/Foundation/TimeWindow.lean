import Mathlib.Data.List.Basic

/-!
# Events in a window of time

Events have times, and at most so many of them may lie in any window of a
given width, both ends included.  A new event keeps the bound if few enough
of the earlier ones are within a window's width of it, whatever the order of
the events.
-/

namespace Norn.Foundation

/-- The events in the window that begins at a time. -/
def within (width start : Nat) (times : List Nat) : List Nat :=
  times.filter fun time => start ≤ time ∧ time ≤ start + width

/-- The events that are not further back than a window's width. -/
def recent (width now : Nat) (times : List Nat) : List Nat :=
  times.filter fun time => now ≤ time + width

/-- No window has more than a number of events. -/
def AtMostPerWindow (limit width : Nat) (times : List Nat) : Prop :=
  ∀ start, (within width start times).length ≤ limit

variable {limit width now : Nat} {times : List Nat}

theorem atMostPerWindow_nil (limit width : Nat) :
    AtMostPerWindow limit width [] :=
  fun _ => Nat.zero_le limit

/-- In a window that contains an event, the earlier ones are recent. -/
theorem length_within_le_recent {start : Nat} (inside : now ≤ start + width) :
    (within width start times).length ≤ (recent width now times).length := by
  apply List.Sublist.length_le
  apply List.monotone_filter_right
  intro time counted
  rw [decide_eq_true_eq] at counted ⊢
  exact Nat.le_trans inside (Nat.add_le_add_right counted.1 width)

/-- One more event. -/
theorem AtMostPerWindow.append (bounded : AtMostPerWindow limit width times)
    (few : (recent width now times).length < limit) :
    AtMostPerWindow limit width (times ++ [now]) := by
  intro start
  have earlier := bounded start
  unfold within at earlier ⊢
  rw [List.filter_append, List.length_append]
  by_cases inside : start ≤ now ∧ now ≤ start + width
  · have close := @length_within_le_recent width now times start inside.2
    unfold within at close
    have last :=
      List.length_filter_le
        (fun time => decide (start ≤ time ∧ time ≤ start + width)) [now]
    rw [List.length_singleton] at last
    omega
  · rw [List.filter_cons_of_neg (by rwa [decide_eq_true_eq])]
    exact earlier

end Norn.Foundation
