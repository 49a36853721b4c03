import Mathlib.Data.List.Basic

/-!
# Selection in a single pass

A loop walks through a list and keeps the best item it has seen.  When the
comparison is a strict weak order, no item of the list beats the one that is
kept at the end.  Which of several equally good items is kept depends on the
order of the list; what is said here does not.
-/

namespace Norn.Foundation.Selection

variable {Item : Type*}

/-- One round: a better item replaces the one kept so far. -/
def keep (better : Item → Item → Bool) (best : Option Item)
    (item : Item) : Option Item :=
  match best with
  | none => some item
  | some kept => if better item kept then some item else some kept

/-- The comparisons that a single pass may use. -/
structure WeakOrder (better : Item → Item → Bool) : Prop where
  irreflexive : ∀ item, better item item = false
  asymmetric :
    ∀ first second, better first second = true → better second first = false
  chained :
    ∀ first second third, better second first = false →
      better third second = false → better third first = false

/-- None of the items seen so far beats the one that is kept. -/
def Unbeaten (better : Item → Item → Bool) (seen : List Item) :
    Option Item → Prop
  | none => seen = []
  | some best =>
    best ∈ seen ∧ ∀ item ∈ seen, better item best = false

section Rules

variable {better : Item → Item → Bool} (coherent : WeakOrder better)

include coherent

theorem unbeaten_keep {seen : List Item} {best : Option Item}
    (before : Unbeaten better seen best) (item : Item) :
    Unbeaten better (seen ++ [item]) (keep better best item) := by
  have added : item ∈ seen ++ [item] :=
    List.mem_append_right _ (List.mem_singleton.mpr rfl)
  cases best with
  | none =>
    refine ⟨added, ?_⟩
    intro other member
    rw [show seen = [] from before, List.nil_append, List.mem_singleton]
      at member
    rw [member]
    exact coherent.irreflexive item
  | some kept =>
    unfold keep
    dsimp only
    split_ifs with wins
    · refine ⟨added, ?_⟩
      intro other member
      rcases List.mem_append.mp member with earlier | last
      · exact
          coherent.chained item kept other (coherent.asymmetric item kept wins)
            (before.2 other earlier)
      · rw [List.mem_singleton.mp last]
        exact coherent.irreflexive item
    · refine ⟨List.mem_append_left _ before.1, ?_⟩
      intro other member
      rcases List.mem_append.mp member with earlier | last
      · exact before.2 other earlier
      · rw [List.mem_singleton.mp last]
        exact Bool.eq_false_iff.mpr wins

theorem unbeaten_foldl {seen : List Item} {best : Option Item}
    (before : Unbeaten better seen best) (items : List Item) :
    Unbeaten better (seen ++ items) (items.foldl (keep better) best) := by
  induction items generalizing seen best with
  | nil => rwa [List.append_nil]
  | cons item rest induction =>
    have onward := induction (unbeaten_keep coherent before item)
    rwa [List.append_assoc, List.singleton_append] at onward

/-- The rule of the pass: what is kept in the end is unbeaten. -/
theorem unbeaten_select (items : List Item) :
    Unbeaten better items (items.foldl (keep better) none) :=
  unbeaten_foldl coherent (show Unbeaten better [] none from rfl) items

end Rules

end Norn.Foundation.Selection
