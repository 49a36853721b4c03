import Mathlib.Data.List.Induction

/-!
# Finite runs of deterministic labelled machines

A machine is given by a total step function; everything the environment
chooses (clocks, random draws, schedules, adversarial inputs) is part of the
action label, so a run is determined by its start state and its list of
actions.

`Along` restricts a run step by step: it says that every action was taken in
a state meeting a given condition.  The invariant rules below are the only
inductions over runs used by the developments built on this module.
-/

namespace Norn.Foundation.Run

variable {State Action : Type*}

variable {step : State → Action → State}
  {condition other : State → Action → Prop} {state : State}
  {actions : List Action}

/-- The state reached from `state` by performing `actions` in order. -/
def run (step : State → Action → State)
    (state : State) (actions : List Action) : State :=
  actions.foldl step state

@[simp]
theorem run_nil (step : State → Action → State) (state : State) :
    run step state [] = state := rfl

@[simp]
theorem run_cons (step : State → Action → State)
    (state : State) (action : Action) (rest : List Action) :
    run step state (action :: rest) = run step (step state action) rest :=
  rfl

theorem run_append (step : State → Action → State) (state : State)
    (first second : List Action) :
    run step state (first ++ second) =
      run step (run step state first) second := by
  simp [run, List.foldl_append]

/--
Every action of the run is taken in a state meeting `condition`.
-/
def Along (step : State → Action → State) (condition : State → Action → Prop) :
    State → List Action → Prop
  | _, [] => True
  | state, action :: rest =>
    condition state action ∧ Along step condition (step state action) rest

@[simp]
theorem along_nil (step : State → Action → State)
    (condition : State → Action → Prop) (state : State) :
    Along step condition state [] :=
  trivial

@[simp]
theorem along_cons (step : State → Action → State)
    (condition : State → Action → Prop)
    (state : State) (action : Action) (rest : List Action) :
    Along step condition state (action :: rest) ↔
      condition state action ∧ Along step condition (step state action) rest :=
  Iff.rfl

instance decidableAlong (step : State → Action → State)
    (condition : State → Action → Prop)
    [∀ state action, Decidable (condition state action)] :
    ∀ state actions, Decidable (Along step condition state actions)
  | _, [] => isTrue trivial
  | state, action :: rest =>
    have : Decidable (Along step condition (step state action) rest) :=
      decidableAlong step condition (step state action) rest
    inferInstanceAs (Decidable (_ ∧ _))

theorem along_append (step : State → Action → State)
    (condition : State → Action → Prop)
    (state : State) (first second : List Action) :
    Along step condition state (first ++ second) ↔
      Along step condition state first ∧
        Along step condition (run step state first) second := by
  induction first generalizing state with
  | nil => simp
  | cons action rest induction =>
    simp only [List.cons_append, along_cons, run_cons, induction, and_assoc]

/-- A condition on actions alone holds along a run of such actions. -/
theorem along_of_forall_mem
    (always : ∀ action ∈ actions, ∀ state, condition state action) :
    Along step condition state actions := by
  induction actions generalizing state with
  | nil => trivial
  | cons action rest induction =>
    refine ⟨always action (by simp) state, induction ?_⟩
    intro later member
    exact always later (by simp [member])

section Skipping

variable {step : State → Action → State} {counts : Action → Bool}
  (skips : ∀ state action, counts action = false → step state action = state)
include skips

/-- Actions without effect can be left out of a run. -/
theorem run_filter (state : State) (actions : List Action) :
    run step state (actions.filter counts) = run step state actions := by
  induction actions generalizing state with
  | nil => rfl
  | cons action rest induction =>
    cases idle : counts action with
    | false =>
      rw [List.filter_cons_of_neg (by simp [idle]), run_cons,
        skips state action idle, induction]
    | true => rw [List.filter_cons_of_pos idle, run_cons, run_cons, induction]

/-- A condition that they meet anyway need only be checked for the others. -/
theorem along_of_filter {condition : State → Action → Prop}
    (meets : ∀ state action, counts action = false → condition state action)
    {state : State} {actions : List Action}
    (along : Along step condition state (actions.filter counts)) :
    Along step condition state actions := by
  induction actions generalizing state with
  | nil => trivial
  | cons action rest induction =>
    cases idle : counts action with
    | false =>
      rw [List.filter_cons_of_neg (by simp [idle])] at along
      refine ⟨meets state action idle, induction ?_⟩
      rwa [skips state action idle]
    | true =>
      rw [List.filter_cons_of_pos idle] at along
      exact ⟨along.1, induction along.2⟩

end Skipping

/-- A condition that gives another one, over a whole run. -/
theorem Along.mono (along : Along step condition state actions)
    (gives :
      ∀ current action, condition current action → other current action) :
    Along step other state actions := by
  induction actions generalizing state with
  | nil => trivial
  | cons action rest induction =>
    exact ⟨gives _ _ along.1, induction along.2⟩

/-- Two conditions along one run. -/
theorem Along.and (along : Along step condition state actions)
    (alongOther : Along step other state actions) :
    Along step (fun current action =>
      condition current action ∧ other current action) state actions := by
  induction actions generalizing state with
  | nil => trivial
  | cons action rest induction =>
    exact ⟨⟨along.1, alongOther.1⟩, induction along.2 alongOther.2⟩

/--
The run rule: an invariant preserved by every admitted step holds at the end
of every run of admitted steps.
-/
theorem invariant_run {step : State → Action → State}
    {condition : State → Action → Prop}
    {invariant : State → Prop}
    (preserves :
      ∀ state action, invariant state → condition state action →
        invariant (step state action))
    {state : State} {actions : List Action}
    (initial : invariant state)
    (along : Along step condition state actions) :
    invariant (run step state actions) := by
  induction actions generalizing state with
  | nil => exact initial
  | cons action rest induction =>
    exact induction (preserves state action initial along.1) along.2

/-- The run rule for an invariant that speaks of the actions so far. -/
theorem invariant_run_past {step : State → Action → State}
    {condition : State → Action → Prop}
    {invariant : List Action → State → Prop}
    (preserves :
      ∀ {past state action}, invariant past state → condition state action →
        invariant (past ++ [action]) (step state action))
    {state : State} {actions : List Action} (initial : invariant [] state)
    (along : Along step condition state actions) :
    invariant actions (run step state actions) := by
  induction actions using List.reverseRecOn with
  | nil => exact initial
  | append_singleton actions action induction =>
    rcases (along_append _ _ _ _ _).mp along with ⟨before, last, _⟩
    rw [run_append]
    exact preserves (induction before) last

/--
If one step keeps the invariant exactly under a condition, the invariant holds
in all states of a run if and only if the condition holds along the run.
-/
theorem invariant_throughout_iff {step : State → Action → State}
    {condition : State → Action → Prop}
    {invariant : State → Prop}
    (exactly :
      ∀ state action, invariant state →
        (invariant (step state action) ↔ condition state action))
    {state : State} (initial : invariant state) (actions : List Action) :
    (∀ before after, actions = before ++ after →
      invariant (run step state before)) ↔
      Along step condition state actions := by
  constructor
  · intro throughout
    induction actions generalizing state with
    | nil => trivial
    | cons action rest induction =>
      have next : invariant (step state action) := throughout [action] rest rfl
      refine ⟨(exactly state action initial).mp next, induction next ?_⟩
      intro before after split
      exact throughout (action :: before) after (by rw [split]; rfl)
  · rintro along before after rfl
    exact
      invariant_run
        (fun current action holds meets =>
          (exactly current action holds).mpr meets)
        initial ((along_append _ _ _ _ _).mp along).1

/-- Conditions that an invariant makes equivalent, over a whole run. -/
theorem along_iff_along {invariant : State → Prop}
    (exactly :
      ∀ state action, invariant state →
        (condition state action ↔ other state action))
    (preserves :
      ∀ state action, invariant state → other state action →
        invariant (step state action))
    (initial : invariant state) (actions : List Action) :
    Along step condition state actions ↔ Along step other state actions := by
  induction actions generalizing state with
  | nil => exact Iff.rfl
  | cons action rest induction =>
    rw [along_cons, along_cons, exactly state action initial]
    apply and_congr_right
    intro meets
    exact induction (preserves state action initial meets)

/-- The run rule for machines all of whose steps preserve the invariant. -/
theorem invariant_run_of_forall {step : State → Action → State}
    {invariant : State → Prop}
    (preserves :
      ∀ state action, invariant state → invariant (step state action))
    {state : State} {actions : List Action}
    (initial : invariant state) :
    invariant (run step state actions) := by
  induction actions generalizing state with
  | nil => exact initial
  | cons action rest induction =>
    exact induction (preserves state action initial)

/-- Two machines whose steps keep a relation keep it over every run. -/
theorem simulation_run {Other : Type*} {otherStep : Other → Action → Other}
    {related : State → Other → Prop}
    (simulates :
      ∀ state other action, related state other →
        related (step state action) (otherStep other action))
    {other : Other} (actions : List Action) (initial : related state other) :
    related (run step state actions) (run otherStep other actions) := by
  induction actions generalizing state other with
  | nil => exact initial
  | cons action rest induction =>
    exact induction (simulates state other action initial)

end Norn.Foundation.Run
