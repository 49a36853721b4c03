import Mathlib.Data.List.Nodup
import Mathlib.Data.List.Pairwise

/-!
# Tasks in a list

Concurrent tasks stand in a list, and a step of one of them replaces its
entry.  The lemmas say how the number of tasks of a kind changes when one
entry is replaced.
-/

namespace Norn.Foundation.Tasks

variable {Task : Type*} {tasks : List Task} {idx : Nat}
variable {before after : Task}

/-- The number of tasks of a kind after one of them is replaced. -/
theorem countP_set_add (kind : Task → Bool) (found : tasks[idx]? = some before)
    (after : Task) :
    (tasks.set idx after).countP kind + (kind before).toNat =
      tasks.countP kind + (kind after).toNat := by
  have inside : idx < tasks.length := (List.getElem?_eq_some_iff.mp found).1
  have content : tasks[idx] = before := (List.getElem?_eq_some_iff.mp found).2
  rw [List.countP_set inside, content]
  cases was : kind before with
  | false => cases kind after <;> rfl
  | true =>
    have counted : 0 < tasks.countP kind :=
      List.countP_pos_iff.mpr ⟨before, List.mem_of_getElem? found, was⟩
    cases kind after with
    | false => exact Nat.sub_add_cancel counted
    | true =>
      simp only [if_true, Bool.toNat_true]
      omega

/-- Tasks of a narrower kind are as many only if there are no others. -/
theorem countP_eq_countP_iff {narrow wide : Task → Bool}
    (within : ∀ task ∈ tasks, narrow task = true → wide task = true) :
    tasks.countP narrow = tasks.countP wide ↔
      ∀ task ∈ tasks, wide task = true → narrow task = true := by
  constructor
  · intro same task member inWide
    by_contra outside
    have fewer : tasks.countP narrow < tasks.countP wide := by
      rw [List.countP_eq_length_filter, List.countP_eq_length_filter]
      have sub : (tasks.filter narrow).Sublist (tasks.filter wide) := by
        have twice :
            tasks.filter narrow = (tasks.filter wide).filter narrow := by
          rw [List.filter_filter]
          apply List.filter_congr
          intro other inside
          cases known : narrow other with
          | false => rfl
          | true => rw [within other inside known]; rfl
        rw [twice]
        exact List.filter_sublist
      refine Nat.lt_of_le_of_ne sub.length_le fun equal => ?_
      have shape := sub.eq_of_length equal
      have listed : task ∈ tasks.filter wide :=
        List.mem_filter.mpr ⟨member, inWide⟩
      rw [← shape] at listed
      exact outside (List.mem_filter.mp listed).2
    exact Nat.ne_of_lt fewer same
  · intro all
    apply List.countP_congr
    intro task member
    exact ⟨within task member, all task member⟩

end Norn.Foundation.Tasks
