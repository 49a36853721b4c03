import Norn.Foundation.TimeWindow
import Norn.Session.Network

/-!
# Pace of the retransmissions

After one call of `initiate` the manager sends the SessionInit again from
`pending_handshake_inits` until the session is established.  The backoff
interval doubles with every retransmission.  From the third one on, two
intervals together are longer than the rate window of the receiver, so that
no window ever has more Inits than the receiver admits.

Between the calls the manager may do anything that neither opens the session
anew nor drops it: packets, handshake messages, key maintenance, other
sessions.  The times of the calls need not even be in order.
-/

namespace Norn.Session

open Foundation Foundation.Run

section Retransmission

variable {P : Primitives}

variable {manager : SessionManager P} {remote : Bytes 32} {info : SessionInfo P}

/-! ## The Inits for one destination -/

/-- A manager, and the Inits it has sent to a destination, with their times. -/
structure Emitting (P : Primitives) where
  manager : SessionManager P
  sent : List (Instant × List UInt8)

namespace Emitting

/-- The manager has just opened the session. -/
def start (manager : SessionManager P) (env : Surroundings P)
    (remote : Bytes 32) : Emitting P where
  manager := (manager.initiate env remote).2
  sent := [(env.now, (manager.initiate env remote).1)]

/-- The Inits for the destination that an operation returns. -/
def emitted (remote : Bytes 32) (manager : SessionManager P) :
    ManagerOp P → List (Instant × List UInt8)
  | .retransmit now nowMs =>
    ((manager.pendingHandshakeInits now nowMs).1.filter
      fun out => out.1 = remote).map fun out => (now, out.2)
  | .getOrInitiate env other =>
    if other = remote then
      (manager.getOrInitiateBytes env other).1.toList.map
        fun bytes => (env.now, bytes)
    else
      []
  | .initiate env other =>
    if other = remote then
      [(env.now, (manager.initiate env other).1)]
    else
      []
  | _ => []

/-- One operation. -/
def step (remote : Bytes 32) (state : Emitting P) (op : ManagerOp P) :
    Emitting P where
  manager := op.apply state.manager
  sent := state.sent ++ emitted remote state.manager op

/-- The times of the Inits. -/
def times (state : Emitting P) : List Instant := state.sent.map Prod.fst

end Emitting

theorem filter_filterMap_entries {Result : Type}
    {entries : List (Sigma fun _ : Bytes 32 => Nat)}
    (distinct : entries.NodupKeys) (remote : Bytes 32)
    (content : Bytes 32 → Nat → Option Result) :
    (entries.filterMap fun entry =>
        (content entry.1 entry.2).map fun result => (entry.1, result)).filter
        (fun out => out.1 = remote) =
      ((entries.dlookup remote).bind (content remote)).toList.map
        fun result => (remote, result) := by
  induction entries with
  | nil => rfl
  | cons entry rest inductionHypothesis =>
    rcases entry with ⟨key, cell⟩
    rcases List.nodupKeys_cons.mp distinct with ⟨absent, restDistinct⟩
    have others := inductionHypothesis restDistinct
    by_cases same : key = remote
    · subst key
      rw [List.dlookup_eq_none.mpr absent] at others
      rw [List.dlookup_cons_eq]
      cases found : content remote cell with
      | none =>
        rw [List.filterMap_cons_none (by simp [found]), others]
        simp [found]
      | some result =>
        rw [List.filterMap_cons_some (by simp [found]; rfl)]
        simp [found, others]
    · rw [List.dlookup_cons_ne rest ⟨key, cell⟩ (Ne.symm same), ← others]
      cases found : content key cell with
      | none =>
        rw [List.filterMap_cons_none (by simp [found])]
      | some result =>
        rw [List.filterMap_cons_some (by simp [found]; rfl),
          List.filter_cons_of_neg (by simpa using same)]

/-- The Init that is sent again for the session in a cell. -/
def initAgain (manager : SessionManager P) (now : Instant)
    (nowMs : UInt64) (remote : Bytes 32) (cell : Nat) :
    Option (List UInt8) :=
  (manager.sessions.deref cell).bind fun info =>
    if info.retxDue now then
      some (manager.initFor remote info.localX25519Pub nowMs).encode
    else
      none

theorem pendingHandshakeInits_fst (manager : SessionManager P) (now : Instant)
    (nowMs : UInt64) :
    (manager.pendingHandshakeInits now nowMs).1 =
      manager.sessions.slots.entries.filterMap fun entry =>
        (initAgain manager now nowMs entry.1 entry.2).map
          fun bytes => (entry.1, bytes) := by
  unfold SessionManager.pendingHandshakeInits initAgain
  simp only
  congr 1
  funext entry
  cases manager.sessions.deref entry.2 with
  | none => rfl
  | some info =>
    simp only [Option.bind_some]
    split_ifs
    · rfl
    · rfl

theorem emitted_retransmit (held : manager.sessions.peek remote = some info)
    (now : Instant) (nowMs : UInt64) :
    Emitting.emitted remote manager (.retransmit now nowMs) =
      if info.retxDue now then
        [(now, (manager.initFor remote info.localX25519Pub nowMs).encode)]
      else
        [] := by
  have only :
      (manager.sessions.slots.entries.dlookup remote).bind
        (initAgain manager now nowMs remote) =
        if info.retxDue now then
          some (manager.initFor remote info.localX25519Pub nowMs).encode
        else
          none := by
    rcases (manager.sessions.peek_eq_some_iff remote info).mp held with
      ⟨cell, handle, content⟩
    change (manager.sessions.handle remote).bind _ = _
    rw [handle, Option.bind_some, initAgain, content, Option.bind_some]
  simp only [Emitting.emitted]
  rw [pendingHandshakeInits_fst,
    filter_filterMap_entries manager.sessions.slots.nodupKeys, only]
  split_ifs
  · rfl
  · rfl

theorem pending_apply (held : manager.sessions.peek remote = some info)
    (pending : info.established = false) {op : ManagerOp P}
    (exchanges : op.Exchanges)
    (other : ∀ now nowMs, op ≠ .retransmit now nowMs) :
    ∃ after,
      (op.apply manager).sessions.peek remote = some after ∧
        (after = info ∨ after.established = true) := by
  have absurdly (established : info.established = true) : False := by
    rw [pending] at established
    cases established
  rcases move_apply exchanges held with ⟨after, found, move⟩
  refine ⟨after, found, ?_⟩
  cases move with
  | same => exact .inl rfl
  | encrypt established => exact (absurdly established).elim
  | decrypt established => exact (absurdly established).elim
  | complete => exact .inr rfl
  | retx now nowMs asked => exact absurd asked (other now nowMs)
  | rotate established => exact (absurdly established).elim

theorem peek_retransmit (held : manager.sessions.peek remote = some info)
    (now : Instant) (nowMs : UInt64) :
    (ManagerOp.apply manager (.retransmit now nowMs)).sessions.peek remote =
      some (if info.retxDue now then info.markRetx now else info) := by
  rcases (manager.sessions.peek_eq_some_iff remote info).mp held with
    ⟨cell, handle, _⟩
  refine (HandleTable.peek_updateAll _ _ handle).trans ?_
  rw [held, Option.map_some]

theorem emitted_eq_nil (held : manager.sessions.peek remote = some info)
    {op : ManagerOp P} (exchanges : op.Exchanges)
    (other : ∀ now nowMs, op ≠ .retransmit now nowMs) :
    Emitting.emitted remote manager op = [] := by
  cases op with
  | getOrInitiate env peer =>
    simp only [Emitting.emitted]
    split_ifs with same
    · subst peer
      rcases (manager.sessions.peek_eq_some_iff remote info).mp held with
        ⟨cell, handle, _⟩
      have present : (manager.sessions.handle remote).isSome := by
        rw [handle]
        rfl
      unfold SessionManager.getOrInitiateBytes
      rw [if_pos present]
      rfl
    · rfl
  | initiate env peer =>
    exact exchanges.elim
  | retransmit now nowMs =>
    exact absurd rfl (other now nowMs)
  | _ =>
    rfl

theorem retxInterval_bounds (info : SessionInfo P) :
    1000 ≤ info.retxInterval.toNat ∧
      (2 ≤ info.initRetxCount.toNat → 4000 ≤ info.retxInterval.toNat) ∧
      (3 ≤ info.initRetxCount.toNat → 8000 ≤ info.retxInterval.toNat) := by
  have table :
      ∀ shift < 6,
        let interval :=
          min (handshakeRetxBaseMs <<< (UInt32.ofNat shift).toUInt64)
            handshakeRetxMaxMs
        1000 ≤ interval.toNat ∧ (2 ≤ shift → 4000 ≤ interval.toNat) ∧
          (3 ≤ shift → 8000 ≤ interval.toNat) := by
    decide +kernel
  have capped :
      min info.initRetxCount 5 =
        UInt32.ofNat (min info.initRetxCount.toNat 5) := by
    change (if _ then _ else _) = _
    split_ifs with low
    · have few : info.initRetxCount.toNat ≤ 5 := UInt32.le_iff_toNat_le.mp low
      rw [Nat.min_eq_left few, UInt32.ofNat_toNat]
    · have many : 5 ≤ info.initRetxCount.toNat :=
        Nat.le_of_lt (UInt32.lt_iff_toNat_lt.mp (UInt32.not_le.mp low))
      rw [Nat.min_eq_right many]
      rfl
  have bounds := table (min info.initRetxCount.toNat 5) (by omega)
  unfold SessionInfo.retxInterval
  rw [capped]
  refine ⟨bounds.1, ?_, ?_⟩
  · intro many
    exact bounds.2.1 (by omega)
  · intro many
    exact bounds.2.2 (by omega)

theorem waited_of_retxDue {now time wait : Nat} (due : info.retxDue now = true)
    (long : wait ≤ info.retxInterval.toNat) (some : 0 < wait)
    (before : time ≤ info.lastInitSent) :
    time + wait * 1000000 ≤ now := by
  unfold SessionInfo.retxDue at due
  rw [Bool.and_eq_true, decide_eq_true_eq, UInt64.le_iff_toNat_le] at due
  have elapsed :
      (elapsedMs now info.lastInitSent).toNat ≤
        (now - info.lastInitSent) / 1000000 :=
    Nat.mod_le _ _
  have whole : wait ≤ (now - info.lastInitSent) / 1000000 :=
    (long.trans due.2).trans elapsed
  have product := (Nat.le_div_iff_mul_le (by decide)).mp whole
  omega

/--
The Inits that were sent before the one that a pending session remembers:
they are few or lie back four seconds.
-/
structure Paced (info : SessionInfo P) (earlier : List Nat) : Prop where
  before : ∀ time ∈ earlier, time ≤ info.lastInitSent
  few :
    earlier.length ≤ info.initRetxCount.toNat ∨ 3 ≤ info.initRetxCount.toNat
  spaced :
    3 ≤ info.initRetxCount.toNat →
      ∀ time ∈ earlier, time + 4000 * 1000000 ≤ info.lastInitSent

theorem initRetxCount_markRetx (info : SessionInfo P) (now : Instant) :
    (info.markRetx now).initRetxCount.toNat = info.initRetxCount.toNat + 1 ∨
      (info.markRetx now).initRetxCount.toNat = info.initRetxCount.toNat ∧
        3 ≤ info.initRetxCount.toNat := by
  unfold SessionInfo.markRetx
  simp only
  split_ifs with full
  · right
    rw [full]
    decide
  · left
    have below : info.initRetxCount.toNat ≠ 0xffffffff := by
      intro last
      exact full (UInt32.toNat_inj.mp last)
    have word := info.initRetxCount.toNat_lt
    rw [UInt32.toNat_add]
    exact Nat.mod_eq_of_lt (by change _ + 1 < _; omega)

variable {info : SessionInfo P} {earlier : List Nat} {now : Nat}

theorem Paced.few_recent (paced : Paced info earlier)
    (due : info.retxDue now = true) :
    (recent initRateWindow now (earlier ++ [info.lastInitSent])).length <
      maxInitsPerWindow := by
  by_cases many : 3 ≤ info.initRetxCount.toNat
  · have none : recent initRateWindow now earlier = [] := by
      apply List.filter_eq_nil_iff.mpr
      intro time member
      have waited :=
        waited_of_retxDue due ((retxInterval_bounds info).2.2 many)
          (by decide) (paced.spaced many time member)
      rw [decide_eq_true_eq]
      change ¬ now ≤ time + 10 * 1000000000
      omega
    have last : (recent initRateWindow now [info.lastInitSent]).length ≤ 1 :=
      List.length_filter_le _ _
    have parts :
        recent initRateWindow now (earlier ++ [info.lastInitSent]) =
          recent initRateWindow now earlier ++
            recent initRateWindow now [info.lastInitSent] :=
      List.filter_append ..
    rw [parts, none, List.nil_append]
    exact Nat.lt_of_le_of_lt last (by decide)
  · have few : earlier.length ≤ info.initRetxCount.toNat :=
      paced.few.resolve_right many
    have all :
        (recent initRateWindow now (earlier ++ [info.lastInitSent])).length ≤
          (earlier ++ [info.lastInitSent]).length :=
      List.length_filter_le _ _
    rw [List.length_append, List.length_singleton] at all
    change _ < 4
    omega

theorem Paced.markRetx (paced : Paced info earlier)
    (due : info.retxDue now = true) :
    Paced (info.markRetx now) (earlier ++ [info.lastInitSent]) := by
  have counted := initRetxCount_markRetx info now
  have known :
      ∀ time ∈ earlier ++ [info.lastInitSent], time ≤ info.lastInitSent := by
    intro time member
    rcases List.mem_append.mp member with old | last
    · exact paced.before time old
    · rw [List.mem_singleton.mp last]
  refine ⟨?_, ?_, ?_⟩
  · intro time member
    have waited :=
      waited_of_retxDue due (retxInterval_bounds info).1 (by decide)
        (known time member)
    change time ≤ now
    omega
  · rw [List.length_append, List.length_singleton]
    have few := paced.few
    omega
  · intro many time member
    exact
      waited_of_retxDue due ((retxInterval_bounds info).2.1 (by omega))
        (by decide) (known time member)

/-! ## Runs -/

namespace Emitting

/-- What holds of the Inits and of the session that they are for. -/
structure Orderly (remote xPub : Bytes 32) (state : Emitting P) : Prop where
  bounded : AtMostPerWindow maxInitsPerWindow initRateWindow state.times
  keyed :
    ∀ emission ∈ state.sent,
      ∃ init,
        HandshakeMessage.decode .init emission.2 = .ok init ∧
          init.x25519Pub = xPub
  session :
    state.manager.Holds remote fun info =>
      info.established = true ∨
        info.established = false ∧ info.localX25519Pub = xPub ∧
          ∃ earlier,
            state.times = earlier ++ [info.lastInitSent] ∧ Paced info earlier

variable {remote xPub : Bytes 32} {state : Emitting P} {op : ManagerOp P}

theorem decode_initFor (manager : SessionManager P) (remote localPub : Bytes 32)
    (nowMs : UInt64) :
    ∃ init,
      HandshakeMessage.decode .init
        (manager.initFor remote localPub nowMs).encode = .ok init ∧
        init.x25519Pub = localPub :=
  ⟨_, HandshakeMessage.decode_encode _, rfl⟩

theorem orderly_start (manager : SessionManager P) (env : Surroundings P)
    (remote : Bytes 32) :
    (start manager env remote).Orderly remote (P.x25519Public env.newPriv) where
  bounded := by
    have some : 0 < maxInitsPerWindow := by decide
    exact (atMostPerWindow_nil _ _).append some
  keyed := by
    intro emission member
    rw [List.mem_singleton.mp member]
    exact decode_initFor manager remote _ env.nowMs
  session := by
    refine ⟨_, HandleTable.peek_insert_self _ _ _, .inr ⟨rfl, rfl, ?_⟩⟩
    refine ⟨[], rfl, ⟨?_, .inl (Nat.zero_le _), ?_⟩⟩
    · intro time member
      cases member
    · intro _ time member
      cases member

theorem step_of_established
    (established : state.manager.Holds remote SessionInfo.Established)
    (exchanges : op.Exchanges) :
    (state.step remote op).sent = state.sent ∧
      (state.step remote op).manager.Holds remote
        SessionInfo.Established := by
  refine ⟨?_, holds_apply stable_established state.manager op established
    exchanges⟩
  rcases established with ⟨info, held, done⟩
  have silent : emitted remote state.manager op = [] := by
    by_cases again : ∃ now nowMs, op = .retransmit now nowMs
    · rcases again with ⟨now, nowMs, rfl⟩
      rw [emitted_retransmit held, if_neg]
      unfold SessionInfo.retxDue
      rw [show info.established = true from done]
      exact Bool.false_ne_true
    · exact
        emitted_eq_nil held exchanges fun now nowMs same =>
          again ⟨now, nowMs, same⟩
  change state.sent ++ emitted remote state.manager op = state.sent
  rw [silent, List.append_nil]

theorem Orderly.of_sent_eq (orderly : state.Orderly remote xPub)
    {after : Emitting P} (same : after.sent = state.sent)
    (session :
      after.manager.Holds remote fun info =>
        info.established = true ∨
          info.established = false ∧ info.localX25519Pub = xPub ∧
            ∃ earlier,
              state.times = earlier ++ [info.lastInitSent] ∧
                Paced info earlier) :
    after.Orderly remote xPub := by
  have times : after.times = state.times := congrArg (List.map Prod.fst) same
  refine ⟨?_, ?_, ?_⟩
  · rw [times]
    exact orderly.bounded
  · rw [same]
    exact orderly.keyed
  · rw [times]
    exact session

theorem Orderly.retransmit (orderly : state.Orderly remote xPub)
    {info : SessionInfo P} {earlier : List Nat} {now : Nat}
    (held : state.manager.sessions.peek remote = some info)
    (pending : info.established = false)
    (key : info.localX25519Pub = xPub)
    (last : state.times = earlier ++ [info.lastInitSent])
    (paced : Paced info earlier) (nowMs : UInt64) :
    (state.step remote (.retransmit now nowMs)).Orderly remote xPub := by
  have after := peek_retransmit held now nowMs
  have sends := emitted_retransmit held now nowMs
  by_cases due : info.retxDue now = true
  · rw [if_pos due] at after sends
    have times :
        (state.step remote (.retransmit now nowMs)).times =
          state.times ++ [now] := by
      change (state.sent ++ emitted _ _ _).map Prod.fst = _
      rw [sends, List.map_append]
      rfl
    refine ⟨?_, ?_, ?_⟩
    · rw [times]
      apply orderly.bounded.append
      rw [last]
      exact paced.few_recent due
    · intro emission member
      change emission ∈ state.sent ++ emitted _ _ _ at member
      rw [sends] at member
      rcases List.mem_append.mp member with old | new
      · exact orderly.keyed emission old
      · rw [List.mem_singleton.mp new, ← key]
        exact decode_initFor state.manager remote _ nowMs
    · refine ⟨_, after, .inr ⟨pending, key, state.times, times, ?_⟩⟩
      rw [last]
      exact paced.markRetx due
  · rw [if_neg due] at after sends
    have same :
        (state.step remote (.retransmit now nowMs)).sent =
          state.sent := by
      change state.sent ++ emitted _ _ _ = _
      rw [sends, List.append_nil]
    exact
      orderly.of_sent_eq same
        ⟨info, after, .inr ⟨pending, key, earlier, last, paced⟩⟩

/-- An exchange keeps the Inits orderly. -/
theorem Orderly.step (orderly : state.Orderly remote xPub)
    (exchanges : op.Exchanges) :
    (state.step remote op).Orderly remote xPub := by
  rcases orderly.session with
    ⟨info, held, established | ⟨pending, key, earlier, last, paced⟩⟩
  · rcases step_of_established ⟨info, held, established⟩ exchanges with
      ⟨same, later, found, done⟩
    exact orderly.of_sent_eq same ⟨later, found, .inl done⟩
  · by_cases again : ∃ now nowMs, op = .retransmit now nowMs
    · rcases again with ⟨now, nowMs, rfl⟩
      exact orderly.retransmit held pending key last paced nowMs
    · have other : ∀ now nowMs, op ≠ .retransmit now nowMs :=
        fun now nowMs same => again ⟨now, nowMs, same⟩
      have same : (state.step remote op).sent = state.sent := by
        change state.sent ++ emitted _ _ _ = _
        rw [emitted_eq_nil held exchanges other, List.append_nil]
      rcases pending_apply held pending exchanges other with
        ⟨after, found, kept | established⟩
      · subst after
        exact
          orderly.of_sent_eq same
            ⟨info, found, .inr ⟨pending, key, earlier, last, paced⟩⟩
      · exact orderly.of_sent_eq same ⟨after, found, .inl established⟩

theorem sent_run_of_established {ops : List (ManagerOp P)}
    (established : state.manager.Holds remote SessionInfo.Established)
    (exchanges : ∀ op ∈ ops, op.Exchanges) :
    (run (step remote) state ops).sent = state.sent := by
  induction ops generalizing state with
  | nil => rfl
  | cons op rest inductionHypothesis =>
    rcases step_of_established established
        (exchanges op List.mem_cons_self) with
      ⟨same, still⟩
    have later :=
      inductionHypothesis still fun other member =>
        exchanges other (List.mem_cons_of_mem _ member)
    exact later.trans same

/--
After one `initiate` for a destination, in every run of exchanges: no closed
window of `INIT_RATE_WINDOW` has more than `MAX_INITS_PER_WINDOW` Inits for
it, they all carry the same X25519 key, and none is sent once the session is
established.
-/
theorem retransmissions_paced (manager : SessionManager P)
    (env : Surroundings P) (remote : Bytes 32) (ops : List (ManagerOp P))
    (exchanges : ∀ op ∈ ops, op.Exchanges) :
    (∀ begins,
      ((run (step remote) (start manager env remote) ops).times.filter
        fun time =>
          begins ≤ time ∧ time ≤ begins + initRateWindow).length ≤
        maxInitsPerWindow) ∧
      (∀ emission ∈ (run (step remote) (start manager env remote) ops).sent,
        ∃ init,
          HandshakeMessage.decode .init emission.2 = .ok init ∧
            init.x25519Pub = P.x25519Public env.newPriv) ∧
      ∀ before after, ops = before ++ after →
        (run (step remote) (start manager env remote)
            before).manager.isEstablished remote = true →
          (run (step remote) (start manager env remote) ops).sent =
            (run (step remote) (start manager env remote) before).sent := by
  have along :
      Along (step remote) (fun _ op => op.Exchanges)
        (start manager env remote) ops :=
    along_of_forall_mem fun op member _ => exchanges op member
  have orderly :
      (run (step remote) (start manager env remote) ops).Orderly remote
        (P.x25519Public env.newPriv) :=
    invariant_run (fun _ _ orderly exchanged => orderly.step exchanged)
      (orderly_start manager env remote) along
  refine ⟨orderly.bounded, orderly.keyed, ?_⟩
  rintro before after rfl established
  rw [run_append]
  apply sent_run_of_established
  · unfold SessionManager.isEstablished at established
    cases held :
        (run (step remote) (start manager env remote)
          before).manager.sessions.peek remote with
    | none =>
      rw [held] at established
      cases established
    | some info =>
      rw [held] at established
      exact ⟨info, held, established⟩
  · intro op member
    exact exchanges op (List.mem_append_right _ member)

end Emitting

end Retransmission

/-- Calls one, two, three and five seconds after the first Init. -/
def samplePolls : List (ManagerOp Primitives.transparent) :=
  [.retransmit 1000000005 2000, .retransmit 2000000005 3000,
    .retransmit 3000000005 4000, .retransmit 5000000005 6000]

/-- At most four Inits are sent in the ten seconds after the first one. -/
theorem samplePolls_paced :
    ((run (Emitting.step (Bytes.replicate 32 2))
          (Emitting.start (sampleManager 1) (sampleSurroundings 10 11)
            (Bytes.replicate 32 2))
          samplePolls).times.filter
        fun time => 5 ≤ time ∧ time ≤ 5 + initRateWindow).length ≤
      maxInitsPerWindow :=
  (Emitting.retransmissions_paced (sampleManager 1)
    (sampleSurroundings 10 11) (Bytes.replicate 32 2) samplePolls
    (by
      intro op member
      simp only [samplePolls, List.mem_cons, List.not_mem_nil,
        or_false] at member
      rcases member with rfl | rfl | rfl | rfl <;> exact trivial)).1 5

end Norn.Session
