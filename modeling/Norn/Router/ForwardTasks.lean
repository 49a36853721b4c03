import Norn.Router.OnionLoop

/-!
# Forwarding tasks in flight

`dispatch` puts a frame for another router into a task of its own, which
sleeps for a moment before it handles the frame.  A semaphore with
`MAX_INFLIGHT_FORWARDS` permits is shared by all routers of the process; a
task is spawned whether or not the semaphore had a permit for it.

The permits alone are bounded.  The tasks stay within the bound exactly in
the runs in which each of them found a permit.
-/

namespace Norn.Router

open Foundation Foundation.Run Packet

variable {P : Primitives} {F : Floats}

/-- `MAX_INFLIGHT_FORWARDS`. -/
def maxInflightForwards : Nat := 4096

/-- A spawned forwarding task that has not finished. -/
structure ForwardTask where
  router : Nat
  fromPeer : Bytes 32
  frame : List UInt8
  permit : Bool
  deriving DecidableEq

/--
The unfinished forwarding tasks and the permits left in `FORWARD_SEM`: every
permit is there or with one task.
-/
structure InFlight where
  available : Nat
  tasks : List ForwardTask
  accounted : available + tasks.countP (·.permit) = maxInflightForwards

namespace InFlight

/-- `forward_sem`, before the first forward. -/
def idle : InFlight where
  available := maxInflightForwards
  tasks := []
  accounted := rfl

/--
`try_acquire_owned` and `tokio::spawn`: without a permit the task is spawned
all the same.
-/
def spawn (self : InFlight) (router : Nat) (fromPeer : Bytes 32)
    (frame : List UInt8) : InFlight where
  available := self.available - 1
  tasks :=
    self.tasks ++ [⟨router, fromPeer, frame, decide (0 < self.available)⟩]
  accounted := by
    have before := self.accounted
    rw [List.countP_append, List.countP_singleton]
    by_cases free : 0 < self.available
    · simp only [free, decide_true, if_true]
      omega
    · simp only [free, decide_false, Bool.false_eq_true, if_false]
      omega

/-- A task that ends drops its permit. -/
def finish (self : InFlight) (idx : Nat) (inside : idx < self.tasks.length) :
    InFlight where
  available := self.available + if self.tasks[idx].permit then 1 else 0
  tasks := self.tasks.eraseIdx idx
  accounted := by
    have before := self.accounted
    have count := (List.getElem_cons_eraseIdx_perm inside).countP_eq (·.permit)
    rw [List.countP_cons] at count
    omega

theorem length_tasks_le {self : InFlight}
    (held : ∀ task ∈ self.tasks, task.permit = true) :
    self.tasks.length ≤ maxInflightForwards := by
  have before := self.accounted
  rw [List.countP_eq_length.mpr held] at before
  omega

theorem available_pos {self : InFlight}
    (few : self.tasks.length < maxInflightForwards) :
    0 < self.available := by
  have before := self.accounted
  have counted :=
    @List.countP_le_length _ (fun task : ForwardTask => task.permit) self.tasks
  omega

end InFlight

/-! ## The process -/

/--
The frames that `dispatch` puts into a forwarding task: those whose tag is
not the tag of the router.
-/
def forwards (P : Primitives) (pubKey : Bytes 32) (frame : List UInt8) :
    Bool :=
  match parseFrame frame with
  | some (.traffic traffic) => traffic.routingTag ≠ routingTag P pubKey
  | some (.onion packet) => packet.routingTag ≠ routingTag P pubKey
  | some (.sphinx tag) => tag ≠ routingTag P pubKey
  | _ => false

/-- The routers of a process and their forwarding tasks. -/
structure Process (P : Primitives) (F : Floats) where
  nodes : Nat → Node P F
  flight : InFlight

/-- A process that has not forwarded anything. -/
def Process.new (nodes : Nat → Node P F) : Process P F where
  nodes
  flight := InFlight.idle

/--
A frame arrives on a link of a router, or a forwarding task wakes up; the
tasks wake up in any order.
-/
inductive ProcessAction (P : Primitives) (F : Floats) where
  | frame (router : Nat) (env : RelayEnv P F) (fromPeer : Bytes 32)
      (frame : List UInt8)
  | wake (idx : Nat) (env : RelayEnv P F)

namespace Process

/-- A router handles a frame; what it sends leaves the process. -/
def handle (self : Process P F) (router : Nat) (env : RelayEnv P F)
    (fromPeer : Bytes 32) (frame : List UInt8) : Nat → Node P F :=
  Function.update self.nodes router
    (Node.receive env (self.nodes router) fromPeer frame).1

/-- `read_frame` and `dispatch`, and the end of a forwarding task. -/
def step (self : Process P F) : ProcessAction P F → Process P F
  | .frame router env fromPeer frame =>
    if maxFrameLength < frame.length then self
    else if forwards P (self.nodes router).pubKey frame then
      { self with flight := self.flight.spawn router fromPeer frame }
    else
      { self with nodes := self.handle router env fromPeer frame }
  | .wake idx env =>
    if inside : idx < self.flight.tasks.length then
      { nodes :=
          self.handle self.flight.tasks[idx].router env
            self.flight.tasks[idx].fromPeer self.flight.tasks[idx].frame
        flight := self.flight.finish idx inside }
    else
      self

end Process

/-- The action spawns a forwarding task. -/
def Spawns (self : Process P F) : ProcessAction P F → Prop
  | .frame router _ _ frame =>
    frame.length ≤ maxFrameLength ∧
      forwards P (self.nodes router).pubKey frame = true
  | .wake _ _ => False

/-- A forwarding task is spawned only while the semaphore has a permit. -/
def FindsPermit (self : Process P F) (action : ProcessAction P F) : Prop :=
  Spawns self action → 0 < self.flight.available

theorem flight_step_cases (self : Process P F) (action : ProcessAction P F) :
    (Spawns self action ∧
        ∃ router fromPeer frame,
          (self.step action).flight = self.flight.spawn router fromPeer frame) ∨
      (¬ Spawns self action ∧
        ((self.step action).flight = self.flight ∨
          ∃ idx inside, (self.step action).flight =
            self.flight.finish idx inside)) := by
  cases action with
  | frame router env fromPeer frame =>
    by_cases long : maxFrameLength < frame.length
    · refine Or.inr ⟨fun spawned => ?_, Or.inl ?_⟩
      · exact absurd spawned.1 (Nat.not_le.mpr long)
      · rw [Process.step, if_pos long]
    · by_cases forwarded : forwards P (self.nodes router).pubKey frame = true
      · refine Or.inl
          ⟨⟨Nat.not_lt.mp long, forwarded⟩, router, fromPeer, frame, ?_⟩
        rw [Process.step, if_neg long, if_pos forwarded]
      · refine Or.inr ⟨fun spawned => forwarded spawned.2, Or.inl ?_⟩
        rw [Process.step, if_neg long, if_neg forwarded]
  | wake idx env =>
    refine Or.inr ⟨id, ?_⟩
    by_cases inside : idx < self.flight.tasks.length
    · refine Or.inr ⟨idx, inside, ?_⟩
      rw [Process.step, dif_pos inside]
    · refine Or.inl ?_
      rw [Process.step, dif_neg inside]

theorem length_tasks_step {self : Process P F}
    {action : ProcessAction P F} (spawned : Spawns self action) :
    (self.step action).flight.tasks.length = self.flight.tasks.length + 1 := by
  rcases flight_step_cases self action with
    ⟨_, router, fromPeer, frame, same⟩ | ⟨other, _⟩
  · rw [same, InFlight.spawn, List.length_append, List.length_singleton]
  · exact absurd spawned other

/-- Every unfinished task holds a permit. -/
def AllHeld (self : Process P F) : Prop :=
  ∀ task ∈ self.flight.tasks, task.permit = true

/-- If the next task finds a permit, every unfinished task holds one. -/
theorem allHeld_step (self : Process P F) (action : ProcessAction P F)
    (held : AllHeld self) (found : FindsPermit self action) :
    AllHeld (self.step action) := by
  unfold AllHeld
  rcases flight_step_cases self action with
    ⟨spawned, router, fromPeer, frame, same⟩ |
      ⟨_, same | ⟨idx, inside, same⟩⟩
  · intro task member
    rw [same, InFlight.spawn, List.mem_append, List.mem_singleton] at member
    rcases member with old | rfl
    · exact held task old
    · exact decide_eq_true (found spawned)
  · rw [same]
    exact held
  · intro task member
    rw [same] at member
    exact held task (List.mem_of_mem_eraseIdx member)

theorem along_findsPermit (self : Process P F)
    (actions : List (ProcessAction P F))
    (bounded :
      ∀ before, before <+: actions →
        (run Process.step self before).flight.tasks.length ≤
          maxInflightForwards) :
    Along Process.step FindsPermit self actions := by
  induction actions generalizing self with
  | nil => trivial
  | cons action rest induction =>
    constructor
    · intro spawned
      have after :=
        bounded [action] ((List.prefix_cons_inj action).mpr List.nil_prefix)
      rw [run_cons, run_nil, length_tasks_step spawned] at after
      exact InFlight.available_pos after
    · apply induction
      intro before early
      exact bounded (action :: before) ((List.prefix_cons_inj action).mpr early)

/--
The unfinished forwarding tasks never exceed `MAX_INFLIGHT_FORWARDS` exactly
if every frame to be forwarded comes while the semaphore has a permit.
-/
theorem forwards_bounded_iff_permits (nodes : Nat → Node P F)
    (actions : List (ProcessAction P F)) :
    (∀ before, before <+: actions →
        (run Process.step (Process.new nodes) before).flight.tasks.length ≤
          maxInflightForwards) ↔
      Along Process.step FindsPermit (Process.new nodes) actions := by
  constructor
  · exact along_findsPermit (Process.new nodes) actions
  · rintro along before ⟨rest, rfl⟩
    have early := ((along_append _ _ _ _ _).mp along).1
    have start : AllHeld (Process.new nodes) := by
      intro task member
      cases member
    exact InFlight.length_tasks_le (invariant_run allHeld_step start early)

theorem length_tasks_flood {self : Process P F} {action : ProcessAction P F}
    (spawned : ∀ flight, Spawns { self with flight } action) (count : Nat) :
    (run Process.step self (List.replicate count action)).flight.tasks.length =
      self.flight.tasks.length + count := by
  induction count generalizing self with
  | zero => rfl
  | succ count induction =>
    have first : Spawns self action := spawned self.flight
    have same : (self.step action).nodes = self.nodes := by
      cases action with
      | frame router env fromPeer frame =>
        have short := Nat.not_lt.mpr first.1
        simp only [Process.step, if_neg short, if_pos first.2]
      | wake idx env => exact first.elim
    rw [List.replicate_succ, run_cons, induction, length_tasks_step first]
    · omega
    · intro flight
      rw [same]
      exact spawned flight

/-- A Sphinx cell for another router. -/
def floodAction : ProcessAction Primitives.transparent sampleFloats :=
  .frame 0 sampleRelayEnv (sampleKey 2) sampleSphinxCell

/-- One cell more than there are permits, before the first task wakes. -/
theorem forwards_exceed_bound :
    maxInflightForwards <
      (run Process.step (Process.new fun _ => sampleLeaf 1 2 true)
        (List.replicate (maxInflightForwards + 1)
          floodAction)).flight.tasks.length := by
  have spawned :
      ∀ flight,
        Spawns
          { Process.new fun _ => sampleLeaf 1 2 true with flight }
          floodAction := by
    intro flight
    constructor
    · decide +kernel
    · have other :
          forwards Primitives.transparent (sampleLeaf 1 2 true).pubKey
            sampleSphinxCell = true := by
        decide +kernel
      exact other
  rw [length_tasks_flood spawned]
  exact Nat.lt_add_left _ (Nat.lt_succ_self _)

end Norn.Router
