import Norn.Session.Network

/-!
# Parallel links to one peer

Each call of `handle_conn` attaches one link to a peer: it registers the
sending end of a channel in `txs`, spawns a writer that drains the channel,
initiates a session if there is none, and then reads frames until its reader
fails.  The calls for one peer share the entry in `peers`, the list of senders
and the session.

A reader that fails removes the whole entry with every sender and the session;
a writer that fails only closes its channel, whose sender is swept out when no
send succeeds.  So the entry follows the live links in the runs in which a
reader fails last and a writer does not.
-/

namespace Norn.Router

open Foundation Foundation.Run Session

variable {peer : PeerLinks}

/-- `MAX_PARALLEL_LINKS_PER_PEER`. -/
def maxParallelLinksPerPeer : Nat := 8

/-- The capacity of the channel of a link. -/
def linkQueueDepth : Nat := 8192

/-- `MAX_WRITE_BATCH`. -/
def maxWriteBatch : Nat := 32

/-! ## Links -/

/-- One call of `handle_conn` with its writer and the channel to it. -/
structure Link where
  reading : Bool
  writing : Bool
  queue : List (List UInt8)
  deriving DecidableEq

/-- The reader has not failed and the channel is open. -/
def Link.live (self : Link) : Bool := self.reading && self.writing

/-- The link of that number is live. -/
def isLive (links : List Link) (idx : Nat) : Bool := links[idx]?.any Link.live

/-- The channel of that number is open. -/
def isOpen (links : List Link) (idx : Nat) : Bool :=
  links[idx]?.any Link.writing

/-- `try_send` on the channel of a link. -/
def trySend (links : List Link) (data : List UInt8) (idx : Nat) :
    Option (List Link) :=
  match links[idx]? with
  | none => none
  | some link =>
    if link.writing = true ∧ link.queue.length < linkQueueDepth then
      some (links.set idx { link with queue := link.queue ++ [data] })
    else
      none

/-- The senders of a peer and the cursor of the rotation. -/
structure PeerLinks where
  txs : List Nat
  nextTx : UInt64
  deriving DecidableEq

/-- What the links of the peer `key` share. -/
structure LinkState (P : Primitives) where
  key : Bytes 32
  links : List Link
  peer : Option PeerLinks
  sessions : SessionManager P

/--
What happens to the links: `handle_conn` starts, it gets to the session, the
reader of a link fails, its writer takes a batch or ends, a frame is sent to
the peer.
-/
inductive LinkAction (P : Primitives) where
  | attach
  | initiate (env : Surroundings P)
  | readerFails (idx : Nat)
  | writerTakes (idx count : Nat)
  | writerEnds (idx : Nat)
  | send (data : List UInt8)

namespace LinkState

variable {P : Primitives}

/-- No link yet. -/
def new (key : Bytes 32) (sessions : SessionManager P) : LinkState P where
  key
  links := []
  peer := none
  sessions

/-- `add_peer`; beyond the cap the sender is dropped. -/
def addPeer (self : LinkState P) (tx : Nat) : Option PeerLinks :=
  match self.peer with
  | none => some ⟨[tx], 0⟩
  | some existing =>
    if maxParallelLinksPerPeer ≤ existing.txs.length then some existing
    else some { existing with txs := existing.txs ++ [tx] }

/-- The channels in the order in which `send_to_peer` tries them. -/
def rotation (peer : PeerLinks) : List Nat :=
  (List.range peer.txs.length).filterMap fun offset =>
    peer.txs[(peer.nextTx.toNat % peer.txs.length + offset) % peer.txs.length]?

/-- `send_to_peer`. -/
def sendToPeer (self : LinkState P) (data : List UInt8) : LinkState P :=
  match self.peer with
  | none => self
  | some peer =>
    if peer.txs.isEmpty then self
    else
      match (rotation peer).findSome? (trySend self.links data) with
      | some links =>
        { self with
          links
          peer := some { peer with nextTx := peer.nextTx + 1 } }
      | none =>
        { self with
          peer :=
            some
              { txs := peer.txs.filter (isOpen self.links)
                nextTx := peer.nextTx + 1 } }

/-- The transitions of the links. -/
def step (self : LinkState P) : LinkAction P → LinkState P
  | .attach =>
    { self with
      links := self.links ++ [⟨true, true, []⟩]
      peer := self.addPeer self.links.length }
  | .initiate env =>
    { self with
      sessions := (self.sessions.getOrInitiateBytes env self.key).2 }
  | .readerFails idx =>
    { self with
      links := self.links.modify idx fun link =>
        { link with reading := false }
      peer := none
      sessions := self.sessions.remove self.key }
  | .writerTakes idx count =>
    { self with
      links := self.links.modify idx fun link =>
        { link with queue := link.queue.drop (min count maxWriteBatch) } }
  | .writerEnds idx =>
    { self with
      links := self.links.modify idx fun link =>
        { link with writing := false, queue := [] } }
  | .send data => self.sendToPeer data

/-- The link is live. -/
def Live (self : LinkState P) (idx : Nat) : Prop := isLive self.links idx = true

/-- The sender of the link is in the rotation of the peer. -/
def Registered (self : LinkState P) (idx : Nat) : Prop :=
  ∃ peer, self.peer = some peer ∧ idx ∈ peer.txs

instance (self : LinkState P) (idx : Nat) : Decidable (self.Live idx) :=
  inferInstanceAs (Decidable (_ = true))

/--
The order of events under which the entry follows the links: a reader fails
only when no other link is live, the writer of a live link ends only while
another link is live, and a link attaches only while a sender is free.
-/
def Orderly (self : LinkState P) : LinkAction P → Prop
  | .attach =>
    ∀ peer, self.peer = some peer → peer.txs.length < maxParallelLinksPerPeer
  | .readerFails idx => ∀ other, other ≠ idx → ¬ self.Live other
  | .writerEnds idx =>
    self.Live idx → ∃ other, other ≠ idx ∧ self.Live other
  | _ => True

/-- The action detaches the link. -/
def Detaches (idx : Nat) : LinkAction P → Prop
  | .readerFails failed => failed = idx
  | .writerEnds ended => ended = idx
  | _ => False

/-- The peer is there exactly when one of its links is live. -/
def PeerWhileLive (self : LinkState P) : Prop :=
  self.peer.isSome = true ↔ ∃ idx, self.Live idx

/--
An action that detaches a link leaves the other live links registered and the
session as it was.
-/
def SparesOthers (self : LinkState P) (action : LinkAction P) : Prop :=
  ∀ idx, Detaches idx action →
    ∀ other, other ≠ idx → self.Live other →
      (self.step action).Registered other ∧
        (self.step action).sessions.sessions.peek self.key =
          self.sessions.sessions.peek self.key

end LinkState

/-! ## One step -/

section Step

variable {P : Primitives}

variable {idx : Nat} {self : LinkState P}

theorem isLive_append (links : List Link) (link : Link) (idx : Nat) :
    isLive (links ++ [link]) idx =
      if idx = links.length then link.live else isLive links idx := by
  unfold isLive
  rcases Nat.lt_trichotomy idx links.length with inside | rfl | outside
  · rw [List.getElem?_append_left inside, if_neg (by omega)]
  · simp
  · rw [if_neg (by omega), List.getElem?_eq_none (by simp; omega),
      List.getElem?_eq_none (by omega)]

theorem isOpen_of_isLive {links : List Link} (live : isLive links idx = true) :
    isOpen links idx = true := by
  unfold isLive at live
  unfold isOpen
  cases found : links[idx]? with
  | none =>
    rw [found] at live
    cases live
  | some link =>
    rw [found, Option.any_some, Link.live, Bool.and_eq_true] at live
    exact live.2

theorem isLive_modify (links : List Link) (changed : Nat) (change : Link → Link)
    (idx : Nat) :
    isLive (links.modify changed change) idx =
      if idx = changed then
        links[idx]?.any fun link => (change link).live
      else
        isLive links idx := by
  unfold isLive
  rw [List.getElem?_modify]
  by_cases same : changed = idx
  · subst same
    rw [if_pos rfl, Option.map_eq_map]
    cases links[changed]? with
    | none => rfl
    | some link => simp
  · rw [if_neg (fun equal => same equal.symm)]
    simp [same]

theorem isLive_trySend {links after : List Link} {data : List UInt8}
    (sent : trySend links data idx = some after) (other : Nat) :
    isLive after other = isLive links other := by
  unfold trySend at sent
  cases found : links[idx]? with
  | none =>
    rw [found] at sent
    cases sent
  | some link =>
    rw [found] at sent
    simp only at sent
    split_ifs at sent
    cases sent
    unfold isLive
    by_cases same : idx = other
    · subst same
      have inside := (List.getElem?_eq_some_iff.mp found).1
      rw [List.getElem?_set_self inside, found]
      rfl
    · rw [List.getElem?_set_ne same]

theorem isLive_sendToPeer (self : LinkState P) (data : List UInt8) (idx : Nat) :
    isLive (self.sendToPeer data).links idx = isLive self.links idx := by
  unfold LinkState.sendToPeer
  cases self.peer with
  | none => rfl
  | some peer =>
    by_cases empty : peer.txs.isEmpty = true
    · simp only [if_pos empty]
    · simp only [if_neg empty]
      cases walked : (LinkState.rotation peer).findSome?
        (trySend self.links data) with
      | none => rfl
      | some links =>
        rcases List.exists_of_findSome?_eq_some walked with ⟨_, _, sent⟩
        exact isLive_trySend sent idx

theorem isSome_peer_sendToPeer (self : LinkState P) (data : List UInt8) :
    (self.sendToPeer data).peer.isSome = self.peer.isSome := by
  unfold LinkState.sendToPeer
  cases present : self.peer with
  | none => simp [present]
  | some peer =>
    by_cases empty : peer.txs.isEmpty = true
    · simp only [if_pos empty, present]
    · simp only [if_neg empty]
      cases (LinkState.rotation peer).findSome? (trySend self.links data) with
      | none => rfl
      | some links => rfl

theorem registered_sendToPeer {data : List UInt8} (live : self.Live idx)
    (registered : self.Registered idx) :
    (self.sendToPeer data).Registered idx := by
  rcases registered with ⟨peer, present, member⟩
  have filled : ¬ peer.txs.isEmpty = true := by
    rw [List.isEmpty_iff]
    exact List.ne_nil_of_mem member
  unfold LinkState.sendToPeer LinkState.Registered
  simp only [present, if_neg filled]
  cases (LinkState.rotation peer).findSome? (trySend self.links data) with
  | some links => exact ⟨_, rfl, member⟩
  | none =>
    refine ⟨_, rfl, List.mem_filter.mpr ⟨member, ?_⟩⟩
    exact isOpen_of_isLive live

theorem registered_addPeer {tx : Nat}
    (room :
      ∀ peer, self.peer = some peer →
        peer.txs.length < maxParallelLinksPerPeer) :
    ∃ peer, self.addPeer tx = some peer ∧ tx ∈ peer.txs ∧
      ∀ idx, self.Registered idx → idx ∈ peer.txs := by
  unfold LinkState.addPeer
  cases present : self.peer with
  | none =>
    refine ⟨_, rfl, List.mem_singleton_self tx, ?_⟩
    rintro idx ⟨peer, found, _⟩
    rw [present] at found
    cases found
  | some existing =>
    have free := Nat.not_le.mpr (room existing present)
    simp only [if_neg free]
    refine ⟨_, rfl, by simp, ?_⟩
    rintro idx ⟨peer, found, member⟩
    rw [present] at found
    cases found
    exact List.mem_append_left _ member

/-- The entry follows the live links, and each of them is registered. -/
structure Kept (state : LinkState P) : Prop where
  follows : state.PeerWhileLive
  registered : ∀ idx, state.Live idx → state.Registered idx

theorem Kept.attach (kept : Kept self) (orderly : self.Orderly .attach) :
    Kept (self.step .attach) := by
  rcases registered_addPeer orderly with ⟨peer, present, new, old⟩
  have present : (self.step .attach).peer = some peer := present
  have live :
      ∀ idx,
        (self.step .attach).Live idx ↔
          idx = self.links.length ∨ self.Live idx := by
    intro idx
    unfold LinkState.Live
    rw [LinkState.step, isLive_append]
    by_cases same : idx = self.links.length
    · simp [same, Link.live]
    · simp [same]
  constructor
  · unfold LinkState.PeerWhileLive
    rw [present]
    simp only [Option.isSome_some, true_iff]
    exact ⟨_, (live _).mpr (Or.inl rfl)⟩
  · intro idx alive
    refine ⟨peer, present, ?_⟩
    rcases (live idx).mp alive with rfl | before
    · exact new
    · exact old idx (kept.registered idx before)

theorem Kept.readerFails (orderly : self.Orderly (.readerFails idx)) :
    Kept (self.step (.readerFails idx)) := by
  have dead : ∀ other, ¬ (self.step (.readerFails idx)).Live other := by
    intro other
    unfold LinkState.Live
    rw [LinkState.step, isLive_modify]
    by_cases same : other = idx
    · simp [same, Link.live]
    · rw [if_neg same]
      exact orderly other same
  constructor
  · unfold LinkState.PeerWhileLive
    constructor
    · intro present
      cases present
    · rintro ⟨other, alive⟩
      exact absurd alive (dead other)
  · intro other alive
    exact absurd alive (dead other)

theorem Kept.writerEnds (kept : Kept self)
    (orderly : self.Orderly (.writerEnds idx)) :
    Kept (self.step (.writerEnds idx)) := by
  have live :
      ∀ other,
        (self.step (.writerEnds idx)).Live other ↔
          other ≠ idx ∧ self.Live other := by
    intro other
    unfold LinkState.Live
    rw [LinkState.step, isLive_modify]
    by_cases same : other = idx
    · simp [same, Link.live]
    · simp [same]
  constructor
  · unfold LinkState.PeerWhileLive
    constructor
    · intro present
      rcases kept.follows.mp present with ⟨other, alive⟩
      by_cases same : other = idx
      · subst same
        rcases orderly alive with ⟨spare, different, spared⟩
        exact ⟨spare, (live spare).mpr ⟨different, spared⟩⟩
      · exact ⟨other, (live other).mpr ⟨same, alive⟩⟩
    · rintro ⟨other, alive⟩
      exact kept.follows.mpr ⟨other, ((live other).mp alive).2⟩
  · intro other alive
    exact kept.registered other ((live other).mp alive).2

theorem Kept.of_same {before after : LinkState P} (kept : Kept before)
    (live : ∀ idx, isLive after.links idx = isLive before.links idx)
    (present : after.peer.isSome = before.peer.isSome)
    (registered :
      ∀ idx, before.Live idx → before.Registered idx → after.Registered idx) :
    Kept after := by
  have same : ∀ idx, after.Live idx ↔ before.Live idx := by
    intro idx
    unfold LinkState.Live
    rw [live]
  constructor
  · unfold LinkState.PeerWhileLive
    rw [present]
    exact kept.follows.trans (exists_congr fun idx => (same idx).symm)
  · intro idx alive
    have earlier := (same idx).mp alive
    exact registered idx earlier (kept.registered idx earlier)

/-- An orderly step keeps the entry following the live links. -/
theorem kept_step (self : LinkState P) (action : LinkAction P)
    (kept : Kept self) (orderly : self.Orderly action) :
    Kept (self.step action) := by
  cases action with
  | attach => exact kept.attach orderly
  | initiate env =>
    exact kept.of_same (fun _ => rfl) rfl fun _ _ registered => registered
  | readerFails idx => exact Kept.readerFails orderly
  | writerTakes idx count =>
    refine kept.of_same (fun other => ?_) rfl fun _ _ registered => registered
    rw [LinkState.step, isLive_modify]
    by_cases same : other = idx
    · rw [if_pos same]
      rfl
    · rw [if_neg same]
  | writerEnds idx => exact kept.writerEnds orderly
  | send data =>
    exact kept.of_same (isLive_sendToPeer self data)
      (isSome_peer_sendToPeer self data)
      fun _ live registered => registered_sendToPeer live registered

theorem sparesOthers_of_orderly {action : LinkAction P} (kept : Kept self)
    (orderly : self.Orderly action) : self.SparesOthers action := by
  intro idx detaches other different live
  cases action with
  | readerFails failed =>
    cases detaches
    exact absurd live (orderly other different)
  | writerEnds ended => exact ⟨kept.registered other live, rfl⟩
  | _ => cases detaches

end Step

section Runs

variable {P : Primitives}

theorem kept_new (key : Bytes 32) (sessions : SessionManager P) :
    Kept (LinkState.new key sessions) := by
  have dead : ∀ idx, ¬ (LinkState.new key sessions).Live idx := by
    intro idx live
    cases live
  constructor
  · constructor
    · intro present
      cases present
    · rintro ⟨idx, live⟩
      exact absurd live (dead idx)
  · intro idx live
    exact absurd live (dead idx)

theorem along_sparesOthers {self : LinkState P} {actions : List (LinkAction P)}
    (kept : Kept self)
    (along : Along LinkState.step LinkState.Orderly self actions) :
    Along LinkState.step LinkState.SparesOthers self actions := by
  induction actions generalizing self with
  | nil => trivial
  | cons action rest induction =>
    exact ⟨sparesOthers_of_orderly kept along.1,
      induction (kept_step self action kept along.1) along.2⟩

/--
In every orderly run the peer is there exactly when one of its links is live,
and a link that detaches leaves the other live links registered and the
session as it was.
-/
theorem peer_follows_links_when_orderly (key : Bytes 32)
    (sessions : SessionManager P) (actions : List (LinkAction P))
    (orderly :
      Along LinkState.step LinkState.Orderly (LinkState.new key sessions)
        actions) :
    (∀ before, before <+: actions →
        (run LinkState.step (LinkState.new key sessions)
          before).PeerWhileLive) ∧
      Along LinkState.step LinkState.SparesOthers
        (LinkState.new key sessions) actions := by
  constructor
  · rintro before ⟨rest, rfl⟩
    have early := ((along_append _ _ _ _ _).mp orderly).1
    exact (invariant_run kept_step (kept_new key sessions) early).follows
  · exact along_sparesOthers (kept_new key sessions) orderly

end Runs

/-! ## One send -/

/-- The channel of that number is open and has room. -/
def hasRoom (links : List Link) (idx : Nat) : Bool :=
  links[idx]?.any fun link =>
    link.writing && decide (link.queue.length < linkQueueDepth)

/-- The frame is at the end of the queue of one channel. -/
def enqueue (links : List Link) (data : List UInt8) (idx : Nat) :
    List Link :=
  links.modify idx fun link => { link with queue := link.queue ++ [data] }

theorem trySend_eq (links : List Link) (data : List UInt8) (idx : Nat) :
    trySend links data idx =
      if hasRoom links idx then some (enqueue links data idx)
      else none := by
  unfold trySend hasRoom enqueue
  cases found : links[idx]? with
  | none => simp
  | some link =>
    rw [List.modify_eq_set_getElem?, found]
    simp

/-- Every channel is tried, wherever the rotation starts. -/
theorem mem_rotation {idx : Nat} :
    idx ∈ LinkState.rotation peer ↔ idx ∈ peer.txs := by
  simp only [LinkState.rotation, List.mem_filterMap, List.mem_range]
  constructor
  · rintro ⟨offset, _, found⟩
    exact List.mem_of_getElem? found
  · intro member
    rcases List.getElem?_of_mem member with ⟨slot, found⟩
    have inside : slot < peer.txs.length :=
      (List.getElem?_eq_some_iff.mp found).1
    have positive : 0 < peer.txs.length := Nat.zero_lt_of_lt inside
    have start : peer.nextTx.toNat % peer.txs.length < peer.txs.length :=
      Nat.mod_lt _ positive
    refine ⟨(slot + (peer.txs.length - peer.nextTx.toNat % peer.txs.length)) %
      peer.txs.length,
      Nat.mod_lt _ positive, ?_⟩
    rw [Nat.add_mod_mod, ← Nat.add_assoc, Nat.add_comm _ slot,
      Nat.add_assoc, Nat.add_sub_cancel' (Nat.le_of_lt start),
      Nat.add_mod_right, Nat.mod_eq_of_lt inside, found]

theorem findSome?_trySend_eq_none {links : List Link} {data : List UInt8} :
    (LinkState.rotation peer).findSome? (trySend links data) = none ↔
      ∀ idx ∈ peer.txs, hasRoom links idx = false := by
  simp [List.findSome?_eq_none_iff, mem_rotation, trySend_eq]

/-- A frame that no channel takes changes nothing but the senders. -/
theorem sendToPeer_of_full {self : LinkState P}
    (present : self.peer = some peer) (data : List UInt8)
    (full : ∀ idx ∈ peer.txs, hasRoom self.links idx = false) :
    (self.sendToPeer data).links = self.links ∧
      (self.sendToPeer data).peer.map PeerLinks.txs =
        some (peer.txs.filter (isOpen self.links)) := by
  unfold LinkState.sendToPeer
  simp only [present, findSome?_trySend_eq_none.mpr full]
  split_ifs with empty
  · simp [present, List.isEmpty_iff.mp empty]
  · exact ⟨rfl, rfl⟩

/-- With room in some channel the frame is put into one of these. -/
theorem sendToPeer_of_room {self : LinkState P}
    (present : self.peer = some peer) (data : List UInt8)
    (room : ∃ idx ∈ peer.txs, hasRoom self.links idx = true) :
    (∃ idx ∈ peer.txs, hasRoom self.links idx = true ∧
        (self.sendToPeer data).links = enqueue self.links data idx) ∧
      (self.sendToPeer data).peer.map PeerLinks.txs = some peer.txs := by
  rcases room with ⟨free, member, taken⟩
  have filled : ¬ peer.txs.isEmpty = true := by
    rw [List.isEmpty_iff]
    exact List.ne_nil_of_mem member
  unfold LinkState.sendToPeer
  simp only [present, if_neg filled]
  cases walked : (LinkState.rotation peer).findSome?
    (trySend self.links data) with
  | none =>
    rw [findSome?_trySend_eq_none.mp walked free member] at taken
    cases taken
  | some links =>
    rcases List.exists_of_findSome?_eq_some walked with ⟨idx, tried, sent⟩
    rw [trySend_eq] at sent
    split_ifs at sent with accepts
    cases sent
    exact ⟨⟨idx, mem_rotation.mp tried, accepts, rfl⟩, rfl⟩

/--
Wherever the cursor of a connected peer stands, `send_to_peer` puts the frame
into exactly one channel if some channel is open with room, and into none
otherwise.  Open channels stay, and a send that no channel takes leaves just
the open channels in their order.
-/
theorem send_uses_exactly_one_link (self : LinkState P)
    (data : List UInt8) (peer : PeerLinks) :
    let connected := { self with peer := some peer }
    let after := connected.sendToPeer data
    ((∃ idx ∈ peer.txs, hasRoom self.links idx = true) →
        ∃ idx ∈ peer.txs, hasRoom self.links idx = true ∧
          after.links = enqueue self.links data idx) ∧
      ((∀ idx ∈ peer.txs, hasRoom self.links idx = false) →
        after.links = self.links ∧
          after.peer.map PeerLinks.txs =
            some (peer.txs.filter (isOpen self.links))) ∧
        ∃ txs, after.peer.map PeerLinks.txs = some txs ∧
          List.Sublist txs peer.txs ∧
            ∀ idx ∈ peer.txs, isOpen self.links idx = true → idx ∈ txs := by
  intro connected after
  have present : connected.peer = some peer := rfl
  refine ⟨fun room => (sendToPeer_of_room present data room).1,
    sendToPeer_of_full present data, ?_⟩
  by_cases room : ∃ idx ∈ peer.txs, hasRoom self.links idx = true
  · exact ⟨peer.txs, (sendToPeer_of_room present data room).2,
      List.Sublist.refl _, fun _ member _ => member⟩
  · have full : ∀ idx ∈ peer.txs, hasRoom self.links idx = false :=
      fun idx member => Bool.eq_false_iff.mpr fun free =>
        room ⟨idx, member, free⟩
    exact ⟨_, (sendToPeer_of_full present data full).2,
      List.filter_sublist, fun _ member opened =>
        List.mem_filter.mpr ⟨member, opened⟩⟩

/-- A peer without links at a sample router. -/
def sampleLinks : LinkState Primitives.transparent :=
  LinkState.new (Bytes.replicate 32 2) (sampleManager 1)

/-- Two links attach and the session is initiated. -/
def twoLinks : List (LinkAction Primitives.transparent) :=
  [.attach, .initiate (sampleSurroundings 1 2), .attach]

/-- The writer of one of two links ends first, and the peer stays. -/
theorem second_link_outlives_writer :
    (∀ before,
        before <+: twoLinks ++ [.writerEnds 0, .send [1], .readerFails 1] →
          (run LinkState.step sampleLinks before).PeerWhileLive) ∧
      Along LinkState.step LinkState.SparesOthers sampleLinks
        (twoLinks ++ [.writerEnds 0, .send [1], .readerFails 1]) := by
  apply peer_follows_links_when_orderly
  refine ⟨?_, trivial, ?_, ?_, trivial, ?_, trivial⟩
  · intro peer present
    cases present
  · rintro peer ⟨⟩
    decide
  · intro _
    exact ⟨1, by decide, by decide⟩
  · intro other different live
    cases other with
    | zero =>
      revert live
      decide
    | succ other =>
      cases other with
      | zero => exact different rfl
      | succ other => cases live

/--
The reader of the first of two links fails: the second link is live, but the
peer and the session are gone.
-/
theorem second_link_loses_peer :
    let before := run LinkState.step sampleLinks twoLinks
    let after := before.step (.readerFails 0)
    before.Live 1 ∧ before.Registered 1 ∧
      (before.sessions.sessions.peek before.key).isSome = true ∧
      after.Live 1 ∧ after.peer = none ∧
      (after.sessions.sessions.peek after.key).isSome = false := by
  refine ⟨by decide, ⟨⟨[0, 1], 0⟩, by decide, by decide⟩,
    by decide +kernel, by decide, rfl, by decide +kernel⟩

end Norn.Router
