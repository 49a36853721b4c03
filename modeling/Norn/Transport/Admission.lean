import Norn.Transport.LinkCap

/-!
# Admission of inbound connections

`listen` of `transport.rs` takes a permit for every connection it accepts and
counts the connection under its address.  A connection that finds no permit,
or too many others of its address, is dropped.  The permit is given back when
the handshake ends.  The guard that lowers the counter of the address is a
local variable of the task of the connection, so it is dropped when the task
returns, and that is after `handle_conn`.

The tasks themselves are those of the model of the links; this module adds
what `listen` does before it spawns one and after the task has returned.
-/

namespace Norn.Transport

open Foundation Foundation.Run

/-- `MAX_PENDING_HANDSHAKES`. -/
def maxPendingHandshakes : Nat := 256

/-- `MAX_PER_IP_HANDSHAKES`. -/
def maxPerIpHandshakes : Nat := 4

variable {Address : Type} [DecidableEq Address]

/-- `per_ip_counts`. -/
abbrev PerIpCounts (Address : Type) [DecidableEq Address] :=
  KeyedMap Address Nat

namespace PerIpCounts

/-- The number of slots an address holds; one without an entry holds none. -/
def count (self : PerIpCounts Address) (ip : Address) : Nat :=
  (self.lookup ip).getD 0

/-- The drop of a `PerIpGuard`. -/
def release (self : PerIpCounts Address) (ip : Address) :
    PerIpCounts Address :=
  match self.lookup ip with
  | none => self
  | some count =>
    let count := count - 1
    if count = 0 then self.erase ip else self.insert ip count

variable {counts : PerIpCounts Address} {ip other : Address}

theorem count_insert (value : Nat) :
    count (counts.insert ip value) other =
      if other = ip then value else count counts other := by
  unfold count
  split_ifs with same
  · rw [same, KeyedMap.lookup_insert_self, Option.getD_some]
  · rw [KeyedMap.lookup_insert_ne same]

theorem count_release :
    count (release counts ip) other =
      if other = ip then count counts ip - 1 else count counts other := by
  unfold release
  cases found : counts.lookup ip with
  | none =>
    simp only
    split_ifs with same
    · rw [same, count, found]
      rfl
    · rfl
  | some value =>
    have current : count counts ip = value := by
      rw [count, found, Option.getD_some]
    simp only
    split_ifs with zero same
    · rw [same, count, KeyedMap.lookup_erase_self, current, zero]
      rfl
    · rw [count, KeyedMap.lookup_erase_ne (by assumption), count]
    · rw [count_insert, if_pos (by assumption), current]
    · rw [count_insert, if_neg (by assumption)]

end PerIpCounts

/-! ## Connections -/

/-- A connection for which a task was spawned. -/
structure Connection (Address : Type) where
  task : Nat
  ip : Address
  /-- The guard has not been dropped. -/
  guarded : Bool
  deriving DecidableEq

/--
A call of `listen`, with the tasks of the node.  `arriving` is the connection
that has a permit and waits for the lock of the counters.
-/
structure Listener (Address : Type) [DecidableEq Address] where
  node : LinkNode
  permits : Nat
  perIpCounts : PerIpCounts Address
  arriving : Option Address
  connections : List (Connection Address)

/-- Why a connection is dropped before its handshake. -/
inductive Refusal (Address : Type) where
  | handshakeLimit (ip : Address)
  | perIpLimit (ip : Address)
  deriving DecidableEq

/--
What happens: a connection is accepted and asks for a permit, the arriving
connection takes the lock of the counters, a task of the node goes on, the
guard of a connection is dropped.  Other listeners accept connections too.
-/
inductive ListenEvent (Address : Type) where
  | accept (ip : Address)
  | admitNext
  | node (event : LinkEvent)
  | dropGuard (connection : Nat)

namespace Listener

/-- A listener that starts at a node. -/
def new (node : LinkNode) : Listener Address where
  node
  permits := maxPendingHandshakes
  perIpCounts := .empty
  arriving := none
  connections := []

/-- The task is in its handshake. -/
def handshaking (self : Listener Address) (task : Nat) : Bool :=
  self.node.tasks[task]? = some (.connecting .listen)

/-- The permits that are given back: one when a handshake ends. -/
def released (self : Listener Address) : LinkEvent → Nat
  | .step task _ =>
    if self.handshaking task &&
        self.connections.any fun known => known.task = task then 1
    else 0
  | _ => 0

/-- One step, and the connection that it refuses. -/
def perform (self : Listener Address) :
    ListenEvent Address → Listener Address × Option (Refusal Address)
  | .accept ip =>
    match self.arriving with
    | some _ => (self, none)
    | none =>
      if self.permits = 0 then (self, some (.handshakeLimit ip))
      else
        ({ self with
           permits := self.permits - 1
           arriving := some ip }, none)
  | .admitNext =>
    match self.arriving with
    | none => (self, none)
    | some ip =>
      let count := self.perIpCounts.count ip
      if maxPerIpHandshakes ≤ count then
        ({ self with
           permits := self.permits + 1
           perIpCounts := self.perIpCounts.insert ip count
           arriving := none }, some (.perIpLimit ip))
      else
        ({ self with
           node := linkStep self.node .accept
           perIpCounts := self.perIpCounts.insert ip (count + 1)
           arriving := none
           connections :=
             self.connections ++ [⟨self.node.tasks.length, ip, true⟩] }, none)
  | .node event =>
    ({ self with
       node := linkStep self.node event
       permits := self.permits + self.released event }, none)
  | .dropGuard connection =>
    match self.connections[connection]? with
    | none => (self, none)
    | some known =>
      if known.guarded &&
          decide (self.node.tasks[known.task]? = some .ended) then
        ({ self with
           perIpCounts := self.perIpCounts.release known.ip
           connections :=
             self.connections.set connection
               { known with guarded := false } }, none)
      else (self, none)

/-- The state after a step. -/
def step (self : Listener Address) (event : ListenEvent Address) :
    Listener Address :=
  (self.perform event).1

/-- The connections of an address that are in their handshake. -/
def pending (self : Listener Address) (ip : Address) : Nat :=
  self.connections.countP fun known =>
    decide (known.ip = ip) && self.handshaking known.task

/-- The connection is past its handshake, and its task still holds the slot
of its address. -/
def Lingers (self : Listener Address) (known : Connection Address) :
    Prop :=
  known.guarded = true ∧ self.handshaking known.task = false

instance (listener : Listener Address) (known : Connection Address) :
    Decidable (listener.Lingers known) :=
  inferInstanceAs (Decidable (_ ∧ _))

/-! ## What is counted -/

theorem ended_linkStep {node : LinkNode} {task : Nat}
    (ended : node.tasks[task]? = some .ended) (event : LinkEvent) :
    (linkStep node event).tasks[task]? = some .ended := by
  have inside : task < node.tasks.length :=
    (List.getElem?_eq_some_iff.mp ended).1
  cases event with
  | accept =>
    exact (List.getElem?_append_left inside).trans ended
  | quic =>
    exact (List.getElem?_append_left inside).trans ended
  | dial maxAttempts =>
    exact (List.getElem?_append_left inside).trans ended
  | step other handshake =>
    simp only [linkStep]
    cases found : node.tasks[other]? with
    | none => exact ended
    | some current =>
      by_cases same : other = task
      · subst same
        rw [ended] at found
        cases found
        exact List.getElem?_set_self inside
      · simp only
        rw [List.getElem?_set_ne same]
        exact ended
  | setMinPeerDifficultyBits bits => exact ended

/-- The counters count the guards. -/
structure Tallied (listener : Listener Address) : Prop where
  counts :
    ∀ ip, listener.perIpCounts.count ip =
      listener.connections.countP fun known =>
        known.guarded && decide (known.ip = ip)
  capped : ∀ ip, listener.perIpCounts.count ip ≤ maxPerIpHandshakes
  finished :
    ∀ known ∈ listener.connections, known.guarded = false →
      listener.node.tasks[known.task]? = some .ended

theorem tallied_new (node : LinkNode) :
    Tallied (new node : Listener Address) where
  counts _ := rfl
  capped _ := Nat.zero_le _
  finished _ member := (List.not_mem_nil member).elim

variable {listener : Listener Address}

theorem tallied_admitNext (tallied : Tallied listener) :
    Tallied (listener.step .admitNext) := by
  simp only [step, perform]
  cases listener.arriving with
  | none => exact tallied
  | some ip =>
    simp only
    split_ifs with full
    · have same (other : Address) :
          PerIpCounts.count
              (listener.perIpCounts.insert ip (listener.perIpCounts.count ip))
                other =
            listener.perIpCounts.count other := by
        rw [PerIpCounts.count_insert]
        split_ifs with equal
        · rw [equal]
        · rfl
      constructor
      · exact fun other => (same other).trans (tallied.counts other)
      · exact fun other =>
          (Nat.le_of_eq (same other)).trans (tallied.capped other)
      · exact tallied.finished
    · constructor
      · intro other
        rw [PerIpCounts.count_insert, List.countP_append,
          ← tallied.counts other]
        split_ifs with equal
        · rw [equal]
          simp
        · simp [Ne.symm equal]
      · intro other
        simp only
        rw [PerIpCounts.count_insert]
        split_ifs
        · exact Nat.not_le.mp full
        · exact tallied.capped other
      · intro known member dropped
        rcases List.mem_append.mp member with old | fresh
        · exact ended_linkStep (tallied.finished known old dropped) .accept
        · rw [List.mem_singleton.mp fresh] at dropped
          cases dropped

theorem tallied_dropGuard (tallied : Tallied listener) (connection : Nat) :
    Tallied (listener.step (.dropGuard connection)) := by
  simp only [step, perform]
  cases found : listener.connections[connection]? with
  | none => exact tallied
  | some known =>
    simp only
    split_ifs with closed
    · rw [Bool.and_eq_true, decide_eq_true_eq] at closed
      have fewer (ip : Address) :=
        Tasks.countP_set_add
          (fun known : Connection Address =>
            known.guarded && decide (known.ip = ip))
          found { known with guarded := false }
      simp only [closed.1, Bool.true_and, Bool.false_and, Bool.toNat_false,
        Nat.add_zero] at fewer
      have counts (ip : Address) :
          (listener.perIpCounts.release known.ip).count ip =
            (listener.connections.set connection
              { known with guarded := false }).countP
                fun known => known.guarded && decide (known.ip = ip) := by
        rw [PerIpCounts.count_release, tallied.counts, tallied.counts,
          ← fewer ip, ← fewer known.ip]
        split_ifs with equal
        · simp [equal]
        · simp [Ne.symm equal]
      constructor
      · exact counts
      · intro ip
        have before := tallied.capped ip
        rw [tallied.counts, ← fewer ip] at before
        exact (Nat.le_of_eq (counts ip)).trans
          ((Nat.le_add_right _ _).trans before)
      · intro other member dropped
        rcases List.mem_or_eq_of_mem_set member with old | fresh
        · exact tallied.finished other old dropped
        · rw [fresh]
          exact closed.2
    · exact tallied

/-- Every step keeps the counters equal to the guards alive. -/
theorem tallied_step (listener : Listener Address)
    (event : ListenEvent Address) (tallied : Tallied listener) :
    Tallied (listener.step event) := by
  cases event with
  | accept ip =>
    simp only [step, perform]
    cases listener.arriving with
    | some other => exact tallied
    | none =>
      simp only
      split_ifs
      · exact tallied
      · exact ⟨tallied.counts, tallied.capped, tallied.finished⟩
  | admitNext => exact tallied_admitNext tallied
  | node event =>
    refine ⟨tallied.counts, tallied.capped, ?_⟩
    intro known member dropped
    exact ended_linkStep (tallied.finished known member dropped) event
  | dropGuard connection => exact tallied_dropGuard tallied connection

theorem tallied_run (node : LinkNode) (events : List (ListenEvent Address)) :
    Tallied (run step (new node : Listener Address) events) :=
  invariant_run_of_forall tallied_step (tallied_new node)

theorem full_of_refused {event : ListenEvent Address} {ip : Address}
    (refused : (listener.perform event).2 = some (.perIpLimit ip)) :
    maxPerIpHandshakes ≤ listener.perIpCounts.count ip := by
  cases event with
  | accept other =>
    simp only [perform] at refused
    split at refused
    · cases refused
    · split_ifs at refused
      cases refused
  | admitNext =>
    simp only [perform] at refused
    split at refused
    · cases refused
    · split_ifs at refused with full
      cases refused
      exact full
  | node event => cases refused
  | dropGuard connection =>
    simp only [perform] at refused
    split at refused
    · cases refused
    · split_ifs at refused

/-- The guards of an address are those of its handshakes exactly if no other
connection of the address holds one. -/
theorem pending_eq_count_iff (tallied : Tallied listener) (ip : Address) :
    listener.pending ip = listener.perIpCounts.count ip ↔
      ∀ known ∈ listener.connections, known.ip = ip →
        ¬ listener.Lingers known := by
  rw [tallied.counts, pending, Tasks.countP_eq_countP_iff]
  · constructor
    · rintro all known member rfl ⟨guarded, past⟩
      have still := all known member (by simp [guarded])
      rw [past, Bool.and_false] at still
      cases still
    · intro none known member holds
      rw [Bool.and_eq_true, decide_eq_true_eq] at holds
      have still := none known member holds.2
      rw [Lingers, not_and, Bool.not_eq_false] at still
      rw [Bool.and_eq_true, decide_eq_true_eq]
      exact ⟨holds.2, still holds.1⟩
  · intro known member waiting
    rw [Bool.and_eq_true, decide_eq_true_eq] at waiting
    rw [Bool.and_eq_true, decide_eq_true_eq]
    refine ⟨?_, waiting.1⟩
    by_contra dropped
    rw [Bool.not_eq_true] at dropped
    have ended := tallied.finished known member dropped
    rw [handshaking, ended] at waiting
    exact absurd waiting.2 (by decide)

/--
Whenever `listen` refuses a connection because of the limit for its address,
the limit is reached by connections in their handshake if and only if no other
connection of the address is past its handshake and still open.
-/
theorem refused_for_pending_handshakes_iff (node : LinkNode)
    (events : List (ListenEvent Address)) (event : ListenEvent Address)
    (ip : Address)
    (refused :
      ((run step (new node) events).perform event).2 = some (.perIpLimit ip)) :
    (run step (new node) events).pending ip = maxPerIpHandshakes ↔
      ∀ known ∈ (run step (new node) events).connections,
        known.ip = ip → ¬ (run step (new node) events).Lingers known := by
  have tallied := tallied_run node events
  have reached :
      maxPerIpHandshakes = (run step (new node) events).perIpCounts.count ip :=
    Nat.le_antisymm (full_of_refused refused) (tallied.capped ip)
  rw [reached]
  exact pending_eq_count_iff tallied ip

end Listener

/-- Four connections of one address wait in their handshakes, and another one
arrives. -/
def pendingArrivals : List (ListenEvent (Bytes 4)) :=
  (List.replicate 4 [.accept (Bytes.replicate 4 1), .admitNext]).flatten ++
    [.accept (Bytes.replicate 4 1)]

/-- The fifth connection is refused because of the four handshakes. -/
theorem fifth_handshake_refused :
    (Run.run Listener.step (.new sampleLinkNode) pendingArrivals).pending
      (Bytes.replicate 4 1) = maxPerIpHandshakes := by
  refine
    (Listener.refused_for_pending_handshakes_iff sampleLinkNode
      pendingArrivals .admitNext (Bytes.replicate 4 1) ?_).mpr ?_
  · decide
  · decide

/-- A connection is admitted, authenticates and becomes a link. -/
def linkArrival (task : Nat) : List (ListenEvent (Bytes 4)) :=
  [.accept (Bytes.replicate 4 1), .admitNext,
    .node (.step task (some samplePeerKey)),
    .node (.step task none), .node (.step task none)]

/-- Four connections of one address have become links, and another one
arrives. -/
def linkedArrivals : List (ListenEvent (Bytes 4)) :=
  (List.range 4).flatMap linkArrival ++ [.accept (Bytes.replicate 4 1)]

/-- The fifth connection is refused although no handshake is under way. -/
theorem fifth_link_refused :
    let listener := Run.run Listener.step (.new sampleLinkNode) linkedArrivals
    (listener.perform .admitNext).2 = some (.perIpLimit (Bytes.replicate 4 1)) ∧
      listener.pending (Bytes.replicate 4 1) = 0 := by
  decide

end Norn.Transport
