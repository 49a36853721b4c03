import Norn.Address
import Norn.Foundation.KeyedMap
import Norn.Foundation.Tasks
import Norn.Router.Links

/-!
# The number of links to one peer

`listen` and `dial_inner` of `transport.rs` and `handle_one` of `quic.rs`
share the map `connected`, which counts the links to every peer.  A task
raises the counter before it calls `handle_conn` and lowers it afterwards.

Between two steps of a task stands everything it does without the lock of the
map.  An accepted connection is checked against the cap and counted under one
lock, a dialed one under two, and other tasks may act in between.

A dial with a limit on its attempts does not go on for ever.
-/

namespace Norn.Transport

open Foundation Foundation.Run Router

variable {remote : Bytes 32} {node : LinkNode} {task : LinkTask}

/-- `ConnectedPeers`. -/
abbrev ConnectedPeers := KeyedMap (Bytes 32) UInt32

namespace ConnectedPeers

/-- The number of links to a peer; a peer without an entry has none. -/
def count (self : ConnectedPeers) (remote : Bytes 32) : UInt32 :=
  (self.lookup remote).getD 0

/-- The counter of a peer is raised. -/
def raise (self : ConnectedPeers) (remote : Bytes 32) : ConnectedPeers :=
  self.insert remote (self.count remote + 1)

/-- `saturating_sub(1)`. -/
def saturatingPred (value : UInt32) : UInt32 :=
  if value = 0 then 0 else value - 1

/-- The counter of a peer is lowered, and its entry removed at zero. -/
def lower (self : ConnectedPeers) (remote : Bytes 32) : ConnectedPeers :=
  match self.lookup remote with
  | none => self
  | some count =>
    let count := saturatingPred count
    if count = 0 then self.erase remote else self.insert remote count

end ConnectedPeers

/-! ## Tasks -/

/-- A call of `dial_inner`. -/
structure Dial where
  maxAttempts : Option UInt32
  attempts : UInt32
  deriving DecidableEq

/-- Where a link comes from. -/
inductive Origin where
  | listen
  | handleOne
  | dialInner (dial : Dial)
  deriving DecidableEq

/--
Where a counted task stands: before `handle_conn`, in it, or between its
return and the lock under which the counter is lowered.
-/
inductive LinkPhase where
  | entering
  | inside
  | leaving
  deriving DecidableEq

/-- Where a task stands between two locks of the map. -/
inductive LinkTask where
  | connecting (origin : Origin)
  | gating (origin : Origin) (remote : Bytes 32)
  | yielding (dial : Dial) (remote : Bytes 32)
  | checking (dial : Dial) (remote : Bytes 32)
  | claiming (dial : Dial) (remote : Bytes 32)
  | linked (phase : LinkPhase) (origin : Origin) (remote : Bytes 32)
  | ended
  deriving DecidableEq

/-- The tasks of a node and what they share. -/
structure LinkNode where
  pubKey : Bytes 32
  keyHash : Bytes 32 → Bytes 64
  minPeerDifficultyBits : UInt32
  connected : ConnectedPeers
  tasks : List LinkTask

/-- A node without links. -/
def LinkNode.new (pubKey : Bytes 32) (keyHash : Bytes 32 → Bytes 64) :
    LinkNode where
  pubKey
  keyHash
  minPeerDifficultyBits := 0
  connected := .empty
  tasks := []

/-- The identity of a peer is too easy. -/
def LinkNode.refuses (self : LinkNode) (remote : Bytes 32) : Bool :=
  0 < self.minPeerDifficultyBits &&
    Address.keyDifficultyBits (self.keyHash remote) < self.minPeerDifficultyBits

/-- A dial has used up its attempts. -/
def Dial.givesUp (self : Dial) : Bool :=
  self.maxAttempts.any fun most => most ≤ self.attempts

/-- Where a task goes after the handshake, which may have failed. -/
def Origin.connected (node : LinkNode) (handshake : Option (Bytes 32)) :
    Origin → LinkTask
  | .dialInner dial =>
    if dial.givesUp then .ended
    else
      let dial := { dial with attempts := dial.attempts + 1 }
      match handshake with
      | none => .connecting (.dialInner dial)
      | some remote =>
        if node.refuses remote then .connecting (.dialInner dial)
        else if remote < node.pubKey then .yielding dial remote
        else .checking dial remote
  | origin =>
    match handshake with
    | none => .ended
    | some remote =>
      if node.refuses remote then .ended else .gating origin remote

/-- A dial starts over after a link; the others are done. -/
def Origin.afterLink : Origin → LinkTask
  | .dialInner dial =>
    .connecting (.dialInner { dial with attempts := 0 })
  | _ => .ended

/--
The next step of a task, with the outcome of the handshake if it is at it:
what it does to the map under one lock, and where it stands afterwards.
-/
def LinkTask.step (node : LinkNode) (handshake : Option (Bytes 32)) :
    LinkTask → ConnectedPeers × LinkTask
  | .connecting origin =>
    (node.connected, origin.connected node handshake)
  | .gating origin remote =>
    let count := node.connected.count remote
    if maxParallelLinksPerPeer ≤ count.toNat then
      (node.connected.insert remote count, .ended)
    else
      (node.connected.raise remote, .linked .entering origin remote)
  | .yielding dial remote =>
    if 0 < node.connected.count remote then
      (node.connected, .connecting (.dialInner dial))
    else
      (node.connected, .checking dial remote)
  | .checking dial remote =>
    if maxParallelLinksPerPeer ≤ (node.connected.count remote).toNat then
      (node.connected, .connecting (.dialInner dial))
    else
      (node.connected, .claiming dial remote)
  | .claiming dial remote =>
    (node.connected.raise remote, .linked .entering (.dialInner dial) remote)
  | .linked .entering origin remote =>
    (node.connected, .linked .inside origin remote)
  | .linked .inside origin remote =>
    (node.connected, .linked .leaving origin remote)
  | .linked .leaving origin remote =>
    (node.connected.lower remote, origin.afterLink)
  | .ended => (node.connected, .ended)

/--
What happens at a node: `listen` accepts a connection, `handle_one` is called
for a QUIC connection, a dial starts, a task goes on, the threshold for
identities is set.
-/
inductive LinkEvent where
  | accept
  | quic
  | dial (maxAttempts : Option UInt32)
  | step (task : Nat) (handshake : Option (Bytes 32))
  | setMinPeerDifficultyBits (bits : UInt32)

/-- One step of the node. -/
def linkStep (node : LinkNode) : LinkEvent → LinkNode
  | .accept =>
    { node with tasks := node.tasks ++ [.connecting .listen] }
  | .quic =>
    { node with tasks := node.tasks ++ [.connecting .handleOne] }
  | .dial maxAttempts =>
    { node with
      tasks := node.tasks ++ [.connecting (.dialInner ⟨maxAttempts, 0⟩)] }
  | .step task handshake =>
    match node.tasks[task]? with
    | none => node
    | some current =>
      { node with
        connected := (current.step node handshake).1
        tasks := node.tasks.set task (current.step node handshake).2 }
  | .setMinPeerDifficultyBits bits =>
    { node with minPeerDifficultyBits := bits }

/-- The task is counted for the peer. -/
def LinkTask.holds (remote : Bytes 32) : LinkTask → Bool
  | .linked _ _ other => other = remote
  | _ => false

/-- The task is counted for the peer and stands at that point. -/
def LinkTask.isAt (phase : LinkPhase) (remote : Bytes 32) : LinkTask → Bool
  | .linked current _ other => current = phase && other = remote
  | _ => false

/-- The task has been let through and is about to be counted. -/
def LinkTask.claims (remote : Bytes 32) : LinkTask → Bool
  | .claiming _ other => other = remote
  | _ => false

/-- The counter of a peer. -/
def LinkNode.linkCount (self : LinkNode) (remote : Bytes 32) : Nat :=
  (self.connected.count remote).toNat

/-- The number of tasks that are counted for a peer and stand there. -/
def LinkNode.tasksAt (self : LinkNode) (phase : LinkPhase)
    (remote : Bytes 32) : Nat :=
  self.tasks.countP (·.isAt phase remote)

/--
A dial to the peer that has been let through finds the counter below the cap
when it raises it.
-/
def LinkNode.ClaimsFindRoom (remote : Bytes 32) (self : LinkNode) :
    LinkEvent → Prop
  | .step task _ =>
    self.tasks[task]?.any (·.claims remote) = true →
      self.linkCount remote < maxParallelLinksPerPeer
  | _ => True

instance (remote : Bytes 32) (node : LinkNode) (event : LinkEvent) :
    Decidable (node.ClaimsFindRoom remote event) :=
  match event with
  | .step _ _ => inferInstanceAs (Decidable (_ → _))
  | .accept => inferInstanceAs (Decidable True)
  | .quic => inferInstanceAs (Decidable True)
  | .dial _ => inferInstanceAs (Decidable True)
  | .setMinPeerDifficultyBits _ => inferInstanceAs (Decidable True)

/-! ## Counters and tasks -/

namespace ConnectedPeers

variable {map : ConnectedPeers} {remote other : Bytes 32}

theorem count_insert_self (value : UInt32) :
    count (map.insert remote value) remote = value := by
  rw [count, KeyedMap.lookup_insert_self, Option.getD_some]

theorem count_insert_ne (different : other ≠ remote) (value : UInt32) :
    count (map.insert remote value) other = count map other := by
  rw [count, KeyedMap.lookup_insert_ne different, count]

theorem toNat_count_raise
    (room : (count map remote).toNat < maxParallelLinksPerPeer) :
    (count (raise map remote) remote).toNat = (count map remote).toNat + 1 := by
  have small : (count map remote).toNat + 1 < 2 ^ 32 :=
    Nat.lt_trans (Nat.succ_lt_succ room) (by decide)
  rw [raise, count_insert_self, UInt32.toNat_add]
  exact Nat.mod_eq_of_lt small

theorem count_raise_ne (different : other ≠ remote) :
    count (raise map remote) other = count map other :=
  count_insert_ne different _

theorem toNat_saturatingPred (value : UInt32) :
    (saturatingPred value).toNat = value.toNat - 1 := by
  unfold saturatingPred
  split
  · rename_i zero
    rw [zero]
    rfl
  · rename_i positive
    have nonzero : value.toNat ≠ 0 := by
      intro zero
      exact positive (UInt32.toNat_inj.mp zero)
    have atLeast : 1 ≤ value :=
      UInt32.le_iff_toNat_le.mpr (Nat.one_le_iff_ne_zero.mpr nonzero)
    rw [UInt32.toNat_sub_of_le _ _ atLeast]
    rfl

theorem toNat_count_lower :
    (count (lower map remote) remote).toNat = (count map remote).toNat - 1 := by
  unfold lower
  cases found : map.lookup remote with
  | none =>
    rw [count, found]
    rfl
  | some value =>
    have current : count map remote = value := by
      rw [count, found, Option.getD_some]
    rw [current, ← toNat_saturatingPred]
    simp only
    split
    · rename_i zero
      rw [count, KeyedMap.lookup_erase_self, zero]
      rfl
    · rw [count_insert_self]

theorem count_lower_ne (different : other ≠ remote) :
    count (lower map remote) other = count map other := by
  unfold lower
  cases map.lookup remote with
  | none => rfl
  | some value =>
    simp only
    split
    · rw [count, KeyedMap.lookup_erase_ne different, count]
    · exact count_insert_ne different _

end ConnectedPeers

/-- What a step does to the counter of a peer and to the task. -/
inductive Counts (remote : Bytes 32) (node : LinkNode)
    (task : LinkTask) (map : ConnectedPeers) (next : LinkTask) :
    Prop where
  | keeps (same : map.count remote = node.connected.count remote)
      (held : next.holds remote = task.holds remote)
  | claims (room : node.linkCount remote < maxParallelLinksPerPeer)
      (raised : (map.count remote).toNat = node.linkCount remote + 1)
      (before : task.holds remote = false)
      (after : next.holds remote = true)
  | releases (lowered : (map.count remote).toNat = node.linkCount remote - 1)
      (before : task.holds remote = true)
      (after : next.holds remote = false)

theorem holds_connected (node : LinkNode) (handshake : Option (Bytes 32))
    (origin : Origin)
    (remote : Bytes 32) :
    (origin.connected node handshake).holds remote = false := by
  cases origin with
  | listen =>
    simp only [Origin.connected]
    cases handshake with
    | none => rfl
    | some peer =>
      simp only
      split <;> rfl
  | handleOne =>
    simp only [Origin.connected]
    cases handshake with
    | none => rfl
    | some peer =>
      simp only
      split <;> rfl
  | dialInner dial =>
    simp only [Origin.connected]
    split
    · rfl
    · cases handshake with
      | none => rfl
      | some peer =>
        simp only
        split
        · rfl
        · split <;> rfl

theorem holds_afterLink (origin : Origin) (remote : Bytes 32) :
    origin.afterLink.holds remote = false := by
  cases origin <;> rfl

theorem Counts.raise {other : Bytes 32} (origin : Origin)
    (free : task.holds remote = false)
    (room : other = remote → node.linkCount remote < maxParallelLinksPerPeer) :
    Counts remote node task (node.connected.raise other)
      (.linked .entering origin other) := by
  by_cases same : other = remote
  · rw [same]
    exact .claims (room same) (ConnectedPeers.toNat_count_raise (room same))
      free
      (decide_eq_true rfl)
  · refine .keeps (ConnectedPeers.count_raise_ne (Ne.symm same)) ?_
    rw [free]
    exact decide_eq_false same

theorem counts_step (remote : Bytes 32) (node : LinkNode)
    (task : LinkTask) (handshake : Option (Bytes 32))
    (room :
      task.claims remote = true →
        node.linkCount remote < maxParallelLinksPerPeer) :
    Counts remote node task (task.step node handshake).1
      (task.step node handshake).2 := by
  cases task with
  | connecting origin =>
    exact .keeps rfl (holds_connected node handshake origin remote)
  | gating origin other =>
    simp only [LinkTask.step]
    split
    · refine .keeps ?_ rfl
      by_cases same : remote = other
      · rw [same, ConnectedPeers.count_insert_self]
      · exact ConnectedPeers.count_insert_ne same _
    · rename_i below
      apply Counts.raise origin rfl
      intro same
      rw [← same]
      exact Nat.not_le.mp below
  | yielding dial other =>
    simp only [LinkTask.step]
    split
    · exact .keeps rfl rfl
    · exact .keeps rfl rfl
  | checking dial other =>
    simp only [LinkTask.step]
    split
    · exact .keeps rfl rfl
    · exact .keeps rfl rfl
  | claiming dial other =>
    apply Counts.raise (.dialInner dial) rfl
    intro same
    exact room (decide_eq_true same)
  | linked phase origin other =>
    cases phase with
    | entering => exact .keeps rfl rfl
    | inside => exact .keeps rfl rfl
    | leaving =>
      by_cases same : other = remote
      · rw [same]
        exact .releases ConnectedPeers.toNat_count_lower
          (decide_eq_true rfl) (holds_afterLink origin remote)
      · refine .keeps (ConnectedPeers.count_lower_ne (Ne.symm same)) ?_
        exact (holds_afterLink origin remote).trans (decide_eq_false same).symm
  | ended => exact .keeps rfl rfl

/-- The counter of a peer is the number of the counted tasks. -/
structure Counted (remote : Bytes 32) (node : LinkNode) : Prop where
  exact : node.linkCount remote = node.tasks.countP (·.holds remote)
  capped : node.linkCount remote ≤ maxParallelLinksPerPeer

theorem Counted.spawn (counted : Counted remote node)
    (free : task.holds remote = false) :
    Counted remote { node with tasks := node.tasks ++ [task] } where
  exact := by
    rw [List.countP_append, List.countP_singleton, free]
    exact counted.exact
  capped := counted.capped

/-- A task step keeps the links of a peer counted and capped. -/
theorem Counted.task_step (counted : Counted remote node) (task : Nat)
    (handshake : Option (Bytes 32))
    (room : node.ClaimsFindRoom remote (.step task handshake)) :
    Counted remote (linkStep node (.step task handshake)) := by
  cases found : node.tasks[task]? with
  | none =>
    simp only [linkStep, found]
    exact counted
  | some current =>
    have claims :
        current.claims remote = true →
          node.linkCount remote < maxParallelLinksPerPeer := by
      intro claiming
      apply room
      rw [found, Option.any_some]
      exact claiming
    have counts := counts_step remote node current handshake claims
    have count :
        (linkStep node (.step task handshake)).linkCount remote =
          ((current.step node handshake).1.count remote).toNat := by
      simp only [linkStep, found]
      rfl
    have tasks :
        (linkStep node (.step task handshake)).tasks.countP (·.holds remote) +
            (current.holds remote).toNat =
          node.tasks.countP (·.holds remote) +
            ((current.step node handshake).2.holds remote).toNat := by
      simp only [linkStep, found]
      exact Tasks.countP_set_add (·.holds remote) found _
    have before := counted.exact
    have capped := counted.capped
    cases counts with
    | keeps same held =>
      have unchanged :
          (linkStep node (.step task handshake)).linkCount remote =
            node.linkCount remote :=
        count.trans (congrArg UInt32.toNat same)
      rw [held] at tasks
      constructor
      · rw [unchanged, before]
        exact (Nat.add_right_cancel tasks).symm
      · rw [unchanged]
        exact capped
    | claims below raised free taken =>
      rw [raised] at count
      rw [free, taken, Bool.toNat_false, Bool.toNat_true] at tasks
      constructor
      · omega
      · omega
    | releases lowered taken free =>
      rw [lowered] at count
      rw [free, taken, Bool.toNat_false, Bool.toNat_true] at tasks
      constructor
      · omega
      · omega

theorem Counted.step (node : LinkNode) (event : LinkEvent)
    (counted : Counted remote node) (room : node.ClaimsFindRoom remote event) :
    Counted remote (linkStep node event) := by
  cases event with
  | accept => exact counted.spawn rfl
  | quic => exact counted.spawn rfl
  | dial maxAttempts => exact counted.spawn rfl
  | step task handshake => exact counted.task_step task handshake room
  | setMinPeerDifficultyBits bits =>
    exact ⟨counted.exact, counted.capped⟩

theorem countP_holds (remote : Bytes 32) (tasks : List LinkTask) :
    tasks.countP (·.holds remote) =
      tasks.countP (·.isAt .entering remote) +
        tasks.countP (·.isAt .inside remote) +
          tasks.countP (·.isAt .leaving remote) := by
  induction tasks with
  | nil => rfl
  | cons task rest induction =>
    have single :
        (task.holds remote).toNat =
          (task.isAt .entering remote).toNat +
            (task.isAt .inside remote).toNat +
              (task.isAt .leaving remote).toNat := by
      cases task with
      | linked phase origin other =>
        cases phase <;>
          simp [LinkTask.holds, LinkTask.isAt]
      | _ => rfl
    have counted (test : LinkTask → Bool) :
        (task :: rest).countP test = rest.countP test + (test task).toNat := by
      rw [List.countP_cons]
      cases test task <;> rfl
    rw [counted, counted, counted, counted, induction, single]
    omega

/--
In every run in which each dial that was let through finds the counter below
the cap when it raises it, the counter of the peer never exceeds the cap, and
it is the number of tasks that are inside `handle_conn` or about to enter it
exactly while no task stands between its return from there and the lock under
which it lowers the counter.
-/
theorem links_capped_when_claims_find_room (pubKey : Bytes 32)
    (keyHash : Bytes 32 → Bytes 64) (remote : Bytes 32)
    {events : List LinkEvent}
    (room :
      Along linkStep (LinkNode.ClaimsFindRoom remote)
        (.new pubKey keyHash) events) :
    (run linkStep (.new pubKey keyHash) events).linkCount remote ≤
        maxParallelLinksPerPeer ∧
      ((run linkStep (.new pubKey keyHash) events).linkCount remote =
          (run linkStep (.new pubKey keyHash) events).tasksAt .entering remote +
            (run linkStep (.new pubKey keyHash) events).tasksAt .inside remote ↔
        (run linkStep (.new pubKey keyHash) events).tasksAt .leaving remote =
          0) := by
  have initial : Counted remote (.new pubKey keyHash) := ⟨rfl, Nat.zero_le _⟩
  have counted := invariant_run Counted.step initial room
  have split :=
    countP_holds remote (run linkStep (.new pubKey keyHash) events).tasks
  have exactly := counted.exact
  refine ⟨counted.capped, ?_⟩
  unfold LinkNode.tasksAt
  omega

/-! ## Samples -/

/-- The identity of the sample node. -/
def sampleOwnKey : Bytes 32 := Bytes.replicate 32 1

/-- The identity of its peer, which is the larger one. -/
def samplePeerKey : Bytes 32 := Bytes.replicate 32 2

/-- The sample node. -/
def sampleLinkNode : LinkNode := .new sampleOwnKey fun _ => Bytes.replicate 64 0

/-- A connection is accepted and enters `handle_conn`. -/
def acceptedLink (task : Nat) : List LinkEvent :=
  [.accept, .step task (some samplePeerKey), .step task none, .step task none]

/-- A dial is let through and counted beside an accepted link. -/
def dialBesideLink : List LinkEvent :=
  acceptedLink 0 ++
    [.dial none, .step 1 (some samplePeerKey), .step 1 none, .step 1 none]

/-- A dial that finds room beside an open link is counted. -/
theorem dial_counted_beside_link :
    Along linkStep (LinkNode.ClaimsFindRoom samplePeerKey)
        sampleLinkNode dialBesideLink ∧
      (run linkStep sampleLinkNode dialBesideLink).tasksAt .leaving
          samplePeerKey = 0 ∧
      (run linkStep sampleLinkNode dialBesideLink).linkCount
          samplePeerKey ≤ maxParallelLinksPerPeer ∧
      (run linkStep sampleLinkNode dialBesideLink).linkCount samplePeerKey =
        (run linkStep sampleLinkNode dialBesideLink).tasksAt .entering
            samplePeerKey +
          (run linkStep sampleLinkNode dialBesideLink).tasksAt .inside
            samplePeerKey := by
  have room :
      Along linkStep (LinkNode.ClaimsFindRoom samplePeerKey)
        sampleLinkNode dialBesideLink := by
    decide +kernel
  have settled :
      (run linkStep sampleLinkNode dialBesideLink).tasksAt .leaving
          samplePeerKey = 0 := by
    decide +kernel
  have result :=
    links_capped_when_claims_find_room sampleOwnKey
      (fun _ => Bytes.replicate 64 0) samplePeerKey room
  exact ⟨room, settled, result.1, result.2.mpr settled⟩

/--
Two dials are checked while the peer has seven links, and then both are
counted.
-/
def racingDials : List LinkEvent :=
  (List.range 7).flatMap acceptedLink ++
    [.dial none, .dial none, .step 7 (some samplePeerKey),
      .step 8 (some samplePeerKey), .step 7 none, .step 8 none,
      .step 7 none, .step 8 none]

/-- An accepted link whose `handle_conn` has returned. -/
def returnedLink : List LinkEvent := acceptedLink 0 ++ [.step 0 none]

/--
Two racing dials bring the counter to nine.  A task that has returned from
`handle_conn` is still counted until it gets the lock.
-/
theorem racing_dials_exceed_cap :
    (run linkStep sampleLinkNode racingDials).linkCount samplePeerKey =
        maxParallelLinksPerPeer + 1 ∧
      (run linkStep sampleLinkNode racingDials).tasksAt .entering
            samplePeerKey +
          (run linkStep sampleLinkNode racingDials).tasksAt .inside
            samplePeerKey =
        maxParallelLinksPerPeer + 1 ∧
      (run linkStep sampleLinkNode returnedLink).linkCount samplePeerKey ≠
        (run linkStep sampleLinkNode returnedLink).tasksAt .entering
            samplePeerKey +
          (run linkStep sampleLinkNode returnedLink).tasksAt .inside
            samplePeerKey := by
  decide +kernel

/-- A dial with a limit that holds no link, and how many steps it has left. -/
inductive Trying (most : UInt32) : LinkTask → Nat → Prop where
  | connecting (attempts : UInt32) :
    Trying most (.connecting (.dialInner ⟨some most, attempts⟩))
      (3 * (most.toNat - attempts.toNat) + 1)
  | yielding (attempts : UInt32) (remote : Bytes 32) :
    Trying most (.yielding ⟨some most, attempts⟩ remote)
      (3 * (most.toNat - attempts.toNat) + 3)
  | checking (attempts : UInt32) (remote : Bytes 32) :
    Trying most (.checking ⟨some most, attempts⟩ remote)
      (3 * (most.toNat - attempts.toNat) + 2)
  | ended : Trying most .ended 0

/-- A dial claims a link or has fewer steps left. -/
theorem Trying.step {most : UInt32} {left : Nat}
    (trying : Trying most task left) (node : LinkNode)
    (handshake : Option (Bytes 32)) :
    (∃ dial remote, (task.step node handshake).2 = .claiming dial remote) ∨
      ∃ less ≤ left - 1, Trying most (task.step node handshake).2 less := by
  cases trying with
  | connecting attempts =>
    right
    simp only [LinkTask.step, Origin.connected, Dial.givesUp, Option.any_some,
      decide_eq_true_eq]
    by_cases spent : most ≤ attempts
    · rw [if_pos spent]
      exact ⟨0, Nat.zero_le _, .ended⟩
    · rw [if_neg spent]
      rw [UInt32.le_iff_toNat_le, Nat.not_le] at spent
      have next : (attempts + 1).toNat = attempts.toNat + 1 := by
        rw [UInt32.toNat_add]
        exact Nat.mod_eq_of_lt (Nat.lt_of_le_of_lt spent most.toNat_lt)
      cases handshake with
      | none => exact ⟨_, by omega, .connecting (attempts + 1)⟩
      | some remote =>
        dsimp only
        split_ifs
        · exact ⟨_, by omega, .connecting (attempts + 1)⟩
        · exact ⟨_, by omega, .yielding (attempts + 1) remote⟩
        · exact ⟨_, by omega, .checking (attempts + 1) remote⟩
  | yielding attempts remote =>
    right
    simp only [LinkTask.step]
    split_ifs
    · exact ⟨_, by omega, .connecting attempts⟩
    · exact ⟨_, by omega, .checking attempts remote⟩
  | checking attempts remote =>
    simp only [LinkTask.step]
    split_ifs
    · exact .inr ⟨_, by omega, .connecting attempts⟩
    · exact .inl ⟨_, _, rfl⟩
  | ended => exact .inr ⟨0, Nat.le_refl 0, .ended⟩

/-- Where a task stands after finding the node in these states. -/
def LinkTask.after (task : LinkTask)
    (views : List (LinkNode × Option (Bytes 32))) : LinkTask :=
  run (fun task view => (task.step view.1 view.2).2) task views

/-- After some of the steps the task is let through to a link. -/
def LinkTask.LetThrough (task : LinkTask)
    (views : List (LinkNode × Option (Bytes 32))) : Prop :=
  ∃ count dial remote, task.after (views.take count) = .claiming dial remote

theorem Trying.after {most : UInt32} {left : Nat}
    (trying : Trying most task left)
    {views : List (LinkNode × Option (Bytes 32))}
    (enough : left ≤ views.length) :
    task.LetThrough views ∨ task.after views = .ended := by
  induction views generalizing task left with
  | nil =>
    cases trying with
    | ended => exact .inr rfl
    | _ => cases enough
  | cons view views induction =>
    rcases trying.step view.1 view.2 with claims | ⟨less, fewer, trying⟩
    · exact .inl ⟨1, claims⟩
    · have rest : less ≤ views.length := by
        rw [List.length_cons] at enough
        omega
      rcases induction trying rest with ⟨count, claims⟩ | ended
      · exact .inl ⟨count + 1, claims⟩
      · exact .inr ended

/--
A dial with a limit on its attempts is let through to a link, or it ends within
three steps for each attempt and one more, whatever happens in the meantime.
-/
theorem limited_dial_ends (most : UInt32)
    (views : List (LinkNode × Option (Bytes 32)))
    (enough : 3 * most.toNat + 1 ≤ views.length) :
    (LinkTask.connecting (.dialInner ⟨some most, 0⟩)).LetThrough views ∨
      (LinkTask.connecting (.dialInner ⟨some most, 0⟩)).after views = .ended :=
  (Trying.connecting 0).after enough

/-- A dial with four retries, held up at every step, ends. -/
theorem limited_dial_ends_sample :
    let views := List.replicate 13 (sampleLinkNode, none)
    (LinkTask.connecting (.dialInner ⟨some 4, 0⟩)).LetThrough views ∨
      (LinkTask.connecting (.dialInner ⟨some 4, 0⟩)).after views = .ended :=
  limited_dial_ends 4 _ (by decide)

end Norn.Transport
