import Mathlib.Algebra.Order.BigOperators.Group.List
import Norn.Foundation.Mesh

/-!
# Floods

In a flood a letter is answered by many letters, so the letters cannot pay
for their answers.  Here the nodes do: every node has a budget, its reactions
pay for the letters they send out of it, and whatever else changes a node
does not raise it.  Then the traffic of a whole run is bounded by the budgets
at its start.
-/

namespace Norn.Foundation.Mesh

open Foundation.Run

variable {Address Node Frame Environment : Type}

variable {nodes : AList fun _ : Address => Node}

/-- What a tally makes of the letters taken so far and of their answers. -/
def tallied (tally : Letter Address Frame → List (Letter Address Frame) → Nat)
    (handled : List (Letter Address Frame × List (Letter Address Frame))) :
    Nat :=
  (handled.map fun entry => tally entry.1 entry.2).sum

@[simp]
theorem tallied_append
    (tally : Letter Address Frame → List (Letter Address Frame) → Nat)
    (first second : List (Letter Address Frame × List (Letter Address Frame))) :
    tallied tally (first ++ second) =
      tallied tally first + tallied tally second := by
  simp [tallied]

@[simp]
theorem tallied_singleton
    (tally : Letter Address Frame → List (Letter Address Frame) → Nat)
    (letter : Letter Address Frame)
    (answers : List (Letter Address Frame)) :
    tallied tally [(letter, answers)] = tally letter answers := by
  simp [tallied]

/-- The answers that a predicate accepts. -/
theorem countP_sent (accepts : Letter Address Frame → Bool)
    (mesh : Mesh Address Node Frame) :
    mesh.sent.countP accepts =
      tallied (fun _ answers => answers.countP accepts) mesh.handled := by
  rw [sent, List.countP_flatMap]
  rfl

/-- The letters taken that a predicate accepts with their answers. -/
theorem countP_handled
    (accepts : Letter Address Frame → List (Letter Address Frame) → Bool)
    (handled : List (Letter Address Frame × List (Letter Address Frame))) :
    handled.countP (fun entry => accepts entry.1 entry.2) =
      tallied (fun letter answers => (accepts letter answers).toNat)
        handled := by
  induction handled with
  | nil => rfl
  | cons entry handled induction =>
    rw [List.countP_cons, induction]
    cases answer : accepts entry.1 entry.2 with
    | false => simp [tallied, answer]
    | true => simp [tallied, answer, Nat.add_comm]

/-- The answers to some letters that a predicate accepts. -/
theorem countP_answers (asks accepts : Letter Address Frame → Bool)
    (handled : List (Letter Address Frame × List (Letter Address Frame))) :
    ((handled.filter fun entry => asks entry.1).flatMap Prod.snd).countP
      accepts =
      tallied
        (fun letter answers =>
          if asks letter then answers.countP accepts else 0)
        handled := by
  induction handled with
  | nil => rfl
  | cons entry handled induction =>
    rw [List.filter_cons]
    split_ifs with asked
    · rw [List.flatMap_cons, List.countP_append, induction]
      simp [tallied, asked]
    · rw [induction]
      simp [tallied, asked]

/-- The sum of the budgets of all nodes. -/
def budgets (budget : Address → Node → Nat)
    (nodes : AList fun _ : Address => Node) : Nat :=
  (nodes.entries.map fun entry => budget entry.1 entry.2).sum

theorem budgets_mono {small large : Address → Node → Nat}
    (smaller :
      ∀ entry ∈ nodes.entries, small entry.1 entry.2 ≤ large entry.1 entry.2) :
    budgets small nodes ≤ budgets large nodes :=
  List.sum_le_sum smaller

theorem budgets_insert [DecidableEq Address] (budget : Address → Node → Nat)
    {address : Address} {old : Node} (present : nodes.lookup address = some old)
    (new : Node) :
    budgets budget (nodes.insert address new) + budget address old =
      budgets budget nodes + budget address new := by
  have member := AList.mem_lookup_iff.mp present
  rcases List.exists_of_kerase (List.mem_keys_of_mem member) with
    ⟨found, before, after, _, split, erased⟩
  have same : found = old := by
    apply nodes.nodupKeys.eq_of_mk_mem _ member
    rw [split]
    simp
  subst same
  simp only [budgets, AList.entries_insert, erased]
  rw [split]
  simp only [List.map_cons, List.map_append, List.sum_cons, List.sum_append]
  omega

/-- A budget that one node has, at most. -/
theorem budgets_single_le [DecidableEq Address] (address : Address)
    {budget : Address → Node → Nat}
    (only : ∀ other node, budget other node ≤ if other = address then 1 else 0)
    (nodes : AList fun _ : Address => Node) :
    budgets budget nodes ≤ 1 := by
  have counted :
      ∀ entries : List (Sigma fun _ : Address => Node),
        (entries.map fun entry => budget entry.1 entry.2).sum ≤
          entries.keys.count address := by
    intro entries
    induction entries with
    | nil => exact Nat.le_refl 0
    | cons entry entries induction =>
      have first := only entry.1 entry.2
      simp only [List.map_cons, List.sum_cons, List.keys_cons, List.count_cons,
        beq_iff_eq]
      omega
  exact (counted nodes.entries).trans
    (List.nodup_iff_count_le_one.mp nodes.keys_nodup address)

/-- A condition that all nodes meet. -/
def AllHold (holds : Address → Node → Prop)
    (nodes : AList fun _ : Address => Node) : Prop :=
  ∀ entry ∈ nodes.entries, holds entry.1 entry.2

theorem allHold_insert [DecidableEq Address] {holds : Address → Node → Prop}
    (all : AllHold holds nodes) {address : Address} {node : Node}
    (met : holds address node) :
    AllHold holds (nodes.insert address node) := by
  intro entry member
  rw [AList.entries_insert] at member
  rcases List.mem_cons.mp member with rfl | older
  · exact met
  · exact all entry (List.kerase_sublist address _ |>.subset older)

/-- Reactions pay for what a tally makes of them. -/
structure Pays (react : React Address Node Frame Environment)
    (holds : Address → Node → Prop)
    (tally : Letter Address Frame → List (Letter Address Frame) → Nat)
    (budget : Address → Node → Nat) : Prop where
  unanswered : ∀ letter, tally letter [] = 0
  keeps :
    ∀ environment node (letter : Letter Address Frame),
      holds letter.target node →
        holds letter.target
          (react environment node letter.source letter.frame).1
  pays :
    ∀ environment node (letter : Letter Address Frame),
      holds letter.target node →
        tally letter (replies react environment node letter) +
            budget letter.target
              (react environment node letter.source letter.frame).1 ≤
          budget letter.target node

variable [DecidableEq Address]

/-- Nodes that change by themselves meet the condition and save. -/
def Saves (holds : Address → Node → Prop) (budget : Address → Node → Nat)
    (mesh : Mesh Address Node Frame) :
    MeshAction Address Node Environment → Prop
  | .deliver _ _ => True
  | .lose _ => True
  | .change address node =>
    ∀ old, mesh.nodes.lookup address = some old → holds address old →
      holds address node ∧ budget address node ≤ budget address old

variable {react : React Address Node Frame Environment}
variable {holds : Address → Node → Prop}
variable {tally : Letter Address Frame → List (Letter Address Frame) → Nat}
variable {budget : Address → Node → Nat}

/-- A step pays for what it tallies out of the budgets of the nodes. -/
theorem Pays.step (pays : Pays react holds tally budget)
    {mesh : Mesh Address Node Frame}
    {action : MeshAction Address Node Environment}
    (all : AllHold holds mesh.nodes)
    (saves : Saves holds budget mesh action) :
    AllHold holds (step react mesh action).nodes ∧
      tallied tally (step react mesh action).handled +
          budgets budget (step react mesh action).nodes ≤
        tallied tally mesh.handled + budgets budget mesh.nodes := by
  cases action with
  | deliver index environment =>
    cases found : mesh.flight[index]? with
    | none =>
      simp only [Mesh.step, found]
      exact ⟨all, Nat.le_refl _⟩
    | some letter =>
      cases present : mesh.nodes.lookup letter.target with
      | none =>
        simp only [Mesh.step, found, present, consume, tallied_append,
          tallied_singleton, pays.unanswered]
        exact ⟨all, Nat.le_refl _⟩
      | some node =>
        have met := all ⟨letter.target, node⟩ (AList.mem_lookup_iff.mp present)
        have kept := pays.keeps environment node letter met
        have paid := pays.pays environment node letter met
        have moved :=
          budgets_insert budget present
            (react environment node letter.source letter.frame).1
        simp only [Mesh.step, found, present, consume, tallied_append,
          tallied_singleton]
        exact ⟨allHold_insert all kept, by omega⟩
  | lose index =>
    cases found : mesh.flight[index]? with
    | none =>
      simp only [Mesh.step, found]
      exact ⟨all, Nat.le_refl _⟩
    | some letter =>
      simp only [Mesh.step, found, consume, tallied_append, tallied_singleton,
        pays.unanswered]
      exact ⟨all, Nat.le_refl _⟩
  | change address node =>
    cases present : mesh.nodes.lookup address with
    | none =>
      simp only [Mesh.step, present, Option.isSome_none, Bool.false_eq_true,
        if_false]
      exact ⟨all, Nat.le_refl _⟩
    | some old =>
      have met := all ⟨address, old⟩ (AList.mem_lookup_iff.mp present)
      rcases saves old present met with ⟨kept, saved⟩
      have moved := budgets_insert budget present node
      simp only [Mesh.step, present, Option.isSome_some, if_true]
      exact ⟨allHold_insert all kept, by omega⟩

/-- What a whole run adds up to is paid for by the budgets at its start. -/
theorem Pays.run (pays : Pays react holds tally budget)
    {permitted :
      Mesh Address Node Frame → MeshAction Address Node Environment → Prop}
    (saving :
      ∀ mesh action, permitted mesh action → Saves holds budget mesh action)
    {start : Mesh Address Node Frame} (unused : start.handled = [])
    (all : AllHold holds start.nodes)
    {actions : List (MeshAction Address Node Environment)}
    (along : Along (Mesh.step react) permitted start actions) :
    tallied tally (Run.run (Mesh.step react) start actions).handled ≤
      budgets budget start.nodes := by
  have preserves :
      ∀ (mesh : Mesh Address Node Frame)
        (action : MeshAction Address Node Environment),
        (AllHold holds mesh.nodes ∧
          tallied tally mesh.handled + budgets budget mesh.nodes ≤
            budgets budget start.nodes) →
        permitted mesh action →
        (AllHold holds (Mesh.step react mesh action).nodes ∧
          tallied tally (Mesh.step react mesh action).handled +
              budgets budget (Mesh.step react mesh action).nodes ≤
            budgets budget start.nodes) := by
    rintro mesh action ⟨kept, bounded⟩ allowed
    rcases pays.step kept (saving mesh action allowed) with ⟨still, less⟩
    exact ⟨still, less.trans bounded⟩
  have begun :
      tallied tally start.handled + budgets budget start.nodes ≤
        budgets budget start.nodes := by
    rw [unused]
    simp [tallied]
  exact (Nat.le_add_right _ _).trans
    (invariant_run preserves ⟨all, begun⟩ along).2

end Norn.Foundation.Mesh
