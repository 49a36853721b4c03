import Norn.Control.Advertising

/-!
# Pings and the losses that are counted

`send_keepalives` pings every peer and counts a loss for those whose last ping
is still pending; `handle_sig_res` takes an answer.  The handler empties the
slot of the pending ping before it compares the sequence numbers, so an answer
to another ping makes the router forget the one it waits for.

A run consists of these two calls, with any answers by anyone.  It is
accompanied by what an observer of the frames knows of one peer: the number of
the last ping, unless an answer with this number has come in since.
-/

namespace Norn.Control

open Foundation Foundation.Run Packet Router Session ControlState

variable {P : Primitives} {C : Crates} {L : FilterOps}

/-- The pending ping of a peer and its measurements. -/
structure Account (C : Crates) where
  pendingSigReqTime : Option (UInt64 × Instant)
  lag : Nat
  jitter : Nat
  lossRate : C.F32
  trust : C.F32

/-- The account of a peer. -/
def Peer.account (peer : Peer C L) : Account C where
  pendingSigReqTime := peer.pendingSigReqTime
  lag := peer.lag
  jitter := peer.jitter
  lossRate := peer.lossRate
  trust := peer.trust

/-- The calls of a run. -/
inductive PingAction (L : FilterOps) where
  /-- `send_keepalives`. -/
  | tick (env : ControlEnv L)
  /-- `handle_sig_res`. -/
  | answer (env : ControlEnv L) (fromPeer : Bytes 32) (res : SigRes)

/-- The number of the ping that a peer is sent. -/
def pingTo (key : Bytes 32) (sent : Sent L) : Option UInt64 :=
  sent.findSome? fun letter =>
    match letter.2 with
    | .sigReq req => if letter.1 = key then some req.seq else none
    | _ => none

/-- A router, and the ping of one peer that lacks an answer. -/
structure Pinging (P : Primitives) (C : Crates) (L : FilterOps) where
  router : ControlState P C L
  unanswered : Option UInt64

namespace Pinging

/-- The number of the ping whose answer the router waits for. -/
def pendingSeq (key : Bytes 32) (router : ControlState P C L) :
    Option UInt64 :=
  (router.peers.lookup key).bind fun peer =>
    peer.pendingSigReqTime.map Prod.fst

/-- A router whose pending ping lacks an answer. -/
def start (key : Bytes 32) (router : ControlState P C L) : Pinging P C L where
  router
  unanswered := pendingSeq key router

/-- One call. -/
def step (key : Bytes 32) (state : Pinging P C L) : PingAction L → Pinging P C L
  | .tick env =>
    let called := sendKeepalives env state.router
    { router := called.1
      unanswered := pingTo key called.2 }
  | .answer env fromPeer res =>
    { router := state.router.handleSigRes env fromPeer res
      unanswered :=
        if fromPeer = key ∧
            sigResVerified P state.router.pubKey res = true ∧
              state.unanswered = some res.seq then
          none
        else
          state.unanswered }

/--
A call does the accounts of a peer right: a tick counts a ping without an
answer as a loss, and an answer with another number changes nothing.
-/
def Accounts (key : Bytes 32) (state : Pinging P C L)
    (action : PingAction L) : Prop :=
  match action with
  | .tick _ =>
    ∀ peer, state.router.peers.lookup key = some peer →
      state.unanswered.isSome = true →
        ∃ after,
          (state.step key action).router.peers.lookup key = some after ∧
            after.lossRate = C.lossOnSilence peer.lossRate ∧
            after.trust = C.decayTrust peer.trust
  | .answer _ fromPeer res =>
    (fromPeer = key → state.unanswered ≠ some res.seq) →
      ((state.step key action).router.peers.lookup key).map Peer.account =
        (state.router.peers.lookup key).map Peer.account

/-- A valid answer that comes in during a ping has its number. -/
def Matching (key : Bytes 32) (state : Pinging P C L) : PingAction L → Prop
  | .tick _ => True
  | .answer _ fromPeer res =>
    fromPeer = key →
      sigResVerified P state.router.pubKey res = true →
        ∀ seq, pendingSeq key state.router = some seq → res.seq = seq

/-- The router waits for the answer that is lacking. -/
def Waits (key : Bytes 32) (state : Pinging P C L) : Prop :=
  pendingSeq key state.router = state.unanswered

variable {key : Bytes 32} {state : Pinging P C L} {env : ControlEnv L}

theorem pingTo_sendKeepalives (key : Bytes 32) (env : ControlEnv L)
    (router : ControlState P C L) :
    pingTo key (sendKeepalives env router).2 =
      (router.peers.lookup key).map fun peer => peer.sigReqSeq + 1 := by
  simp only [pingTo, sendKeepalives, List.findSome?_map, Function.comp_def]
  cases seen : (router.peerEntries env).findSome? fun entry =>
      if entry.1 = key then
        some (router.sigReq env entry.2).seq
      else
        none with
  | none =>
    cases found : router.peers.lookup key with
    | none => rfl
    | some peer =>
      have silent :=
        List.findSome?_eq_none_iff.mp seen _ (mem_peerEntries.mpr found)
      simp at silent
  | some seq =>
    rcases List.exists_of_findSome?_eq_some seen with
      ⟨⟨other, peer⟩, member, value⟩
    rw [Option.ite_none_right_eq_some] at value
    rcases value with ⟨rfl, value⟩
    rw [mem_peerEntries.mp member, Option.map_some, ← value]
    rfl

theorem waits_tick : Waits key (state.step key (.tick env)) := by
  change pendingSeq key (sendKeepalives env state.router).1 =
    pingTo key (sendKeepalives env state.router).2
  rw [pingTo_sendKeepalives]
  simp only [pendingSeq, sendKeepalives, KeyedMap.lookup_mapValues]
  cases state.router.peers.lookup key with
  | none => rfl
  | some peer => rfl

theorem accounts_tick (waits : state.Waits key) :
    state.Accounts key (.tick env) := by
  intro peer found unanswered
  have pending : peer.pendingSigReqTime.isSome = true := by
    rw [← waits, pendingSeq, found, Option.bind_some, Option.isSome_map]
      at unanswered
    exact unanswered
  refine ⟨peer.pinged env.now, ?_, ?_, ?_⟩
  · simp only [step, sendKeepalives, KeyedMap.lookup_mapValues, found,
      Option.map_some]
  · simp only [Peer.pinged, if_pos pending]
  · simp only [Peer.pinged, if_pos pending]

theorem account_answered_of_none {peer : Peer C L}
    (idle : peer.pendingSigReqTime = none) (now : Instant)
    (seq : UInt64) :
    (peer.answered now seq).account = peer.account := by
  simp only [Peer.answered, idle, Peer.account]

theorem pendingSigReqTime_answered (peer : Peer C L) (now : Instant)
    (seq : UInt64) :
    (peer.answered now seq).pendingSigReqTime = none := by
  simp only [Peer.answered]
  split
  · rfl
  · split_ifs <;> rfl

variable {fromPeer : Bytes 32} {res : SigRes}

/-- The answer is one of the peer, and its signature verifies. -/
def Heard (key : Bytes 32) (state : Pinging P C L)
    (fromPeer : Bytes 32) (res : SigRes) : Prop :=
  fromPeer = key ∧ sigResVerified P state.router.pubKey res = true

theorem lookup_answer_of_heard (heard : state.Heard key fromPeer res) :
    (state.step key (.answer env fromPeer res)).router.peers.lookup key =
      (state.router.peers.lookup key).map (Peer.answered env.now res.seq) := by
  rcases heard with ⟨rfl, verified⟩
  simp only [step, handleSigRes, if_pos verified]
  exact KeyedMap.lookup_modify_self _

theorem lookup_answer_of_not_heard (unheard : ¬ state.Heard key fromPeer res) :
    (state.step key (.answer env fromPeer res)).router.peers.lookup key =
      state.router.peers.lookup key := by
  simp only [step, handleSigRes]
  split_ifs with verified
  · apply KeyedMap.lookup_modify_ne
    rintro rfl
    exact unheard ⟨rfl, verified⟩
  · rfl

/-- An answer is accounted for exactly when it matches. -/
theorem accounts_answer_iff (waits : state.Waits key) :
    state.Accounts key (.answer env fromPeer res) ↔
      state.Matching key (.answer env fromPeer res) := by
  by_cases heard : state.Heard key fromPeer res
  · have lacking : state.unanswered = pendingSeq key state.router := waits.symm
    simp only [Accounts, Matching]
    rw [lookup_answer_of_heard heard, lacking, pendingSeq]
    simp only [heard.1, heard.2, forall_const]
    cases found : state.router.peers.lookup key with
    | none => simp
    | some peer =>
      cases pending : peer.pendingSigReqTime with
      | none =>
        simp [pending, account_answered_of_none pending]
      | some ping =>
        have changed :
            (peer.answered env.now res.seq).account ≠
              peer.account := by
          intro same
          have slot := congrArg Account.pendingSigReqTime same
          simp only [Peer.account, pendingSigReqTime_answered, pending] at slot
          cases slot
        simp only [Option.bind_some, Option.map_some, pending, ne_eq,
          Option.some.injEq, changed, imp_false, not_not, forall_eq']
        exact eq_comm
  · constructor
    · intro _ same verified
      exact absurd ⟨same, verified⟩ heard
    · intro _ _
      rw [lookup_answer_of_not_heard heard]

/-- A matching answer leaves the router waiting for what is lacking. -/
theorem waits_answer (waits : state.Waits key)
    (matching : state.Matching key (.answer env fromPeer res)) :
    Waits key (state.step key (.answer env fromPeer res)) := by
  unfold Waits
  rw [pendingSeq]
  by_cases heard : state.Heard key fromPeer res
  · have spent :
        (state.step key (.answer env fromPeer res)).unanswered = none := by
      simp only [step, heard.1, heard.2, true_and]
      split_ifs with answers
      · rfl
      · cases unanswered : state.unanswered with
        | none => rfl
        | some seq =>
          have same := matching heard.1 heard.2 seq (waits.trans unanswered)
          rw [same] at answers
          exact absurd unanswered answers
    rw [lookup_answer_of_heard heard, spent]
    cases state.router.peers.lookup key with
    | none => rfl
    | some peer =>
      simp only [Option.map_some, Option.bind_some, pendingSigReqTime_answered,
        Option.map_none]
  · have kept :
        (state.step key (.answer env fromPeer res)).unanswered =
          state.unanswered := by
      apply if_neg
      rintro ⟨same, verified, _⟩
      exact heard ⟨same, verified⟩
    rw [lookup_answer_of_not_heard heard, kept]
    exact waits

end Pinging

/--
All calls of a run do the accounts of a peer right if and only if every valid
answer of the peer that comes in during a ping has the number of the ping.
-/
theorem keepalives_accounted_iff (key : Bytes 32)
    (router : ControlState P C L) (actions : List (PingAction L)) :
    Along (Pinging.step key) (Pinging.Accounts key)
        (Pinging.start key router) actions ↔
      Along (Pinging.step key) (Pinging.Matching key)
        (Pinging.start key router) actions := by
  have exactly :
      ∀ (state : Pinging P C L) (action : PingAction L),
        state.Waits key →
          (state.Accounts key action ↔ state.Matching key action) := by
    intro state action waits
    cases action with
    | tick env =>
      constructor
      · intro _
        trivial
      · intro _
        exact Pinging.accounts_tick waits
    | answer env fromPeer res => exact Pinging.accounts_answer_iff waits
  have preserves :
      ∀ (state : Pinging P C L) (action : PingAction L),
        state.Waits key → state.Matching key action →
          (state.step key action).Waits key := by
    intro state action waits matching
    cases action with
    | tick env => exact Pinging.waits_tick
    | answer env fromPeer res => exact Pinging.waits_answer waits matching
  have initial : (Pinging.start key router).Waits key := rfl
  exact along_iff_along exactly preserves initial actions

/-- A router with one peer. -/
def pingingRouter : SampleRouter :=
  (newRouter farKey).addPeer (sampleAt 0 0) nearKey

/-- An answer of the peer with a number of its choice. -/
def answerNumbered (seq : UInt64) : PingAction sampleFilters :=
  .answer (sampleAt 0 0) nearKey
    ((newRouter nearKey).sigResFor (sampleAt 0 0)
      { treeId := 0, seq, timestampMs := 0, pubKey := farKey })

/-- A ping, an answer, and the next ping. -/
def pingAndAnswer (seq : UInt64) : List (PingAction sampleFilters) :=
  [.tick (sampleAt 0 0), answerNumbered seq, .tick (sampleAt 0 0)]

/-- With the number of the ping the accounts are right. -/
theorem numbered_answer_is_accounted :
    Along (Pinging.step nearKey) (Pinging.Accounts nearKey)
      (Pinging.start nearKey pingingRouter) (pingAndAnswer 1) := by
  apply (keepalives_accounted_iff nearKey pingingRouter _).mpr
  refine ⟨trivial, ?_, trivial, trivial⟩
  intro _ _ seq pending
  have number :
      Pinging.pendingSeq nearKey
          ((Pinging.start nearKey pingingRouter).step nearKey
            (.tick (sampleAt 0 0))).router =
        some 1 := by
    decide +kernel
  rw [number] at pending
  exact Option.some.inj pending

/-- The router has sent a ping. -/
def pingedSample : Pinging Primitives.transparent sampleCrates sampleFilters :=
  (Pinging.start nearKey pingingRouter).step nearKey (.tick (sampleAt 0 0))

/-- The peer has answered with the number of no ping. -/
def misnumberedSample :
    Pinging Primitives.transparent sampleCrates sampleFilters :=
  pingedSample.step nearKey (answerNumbered 0)

/-- The ping that the router waits for. -/
def pendingOf
    (state : Pinging Primitives.transparent sampleCrates sampleFilters) :
    Option (UInt64 × Instant) :=
  (state.router.peers.lookup nearKey).bind Peer.pendingSigReqTime

/-- The loss rate and the trust of the peer. -/
def measuresOf
    (state : Pinging Primitives.transparent sampleCrates sampleFilters) :
    Option (Nat × Nat) :=
  (state.router.peers.lookup nearKey).map fun peer =>
    (peer.lossRate, peer.trust)

/--
With another number the answer empties the slot, and the next tick counts no
loss although the ping has no answer.
-/
theorem misnumbered_answer_hides_loss :
    (pendingOf pingedSample = some (1, 0) ∧
        pendingOf misnumberedSample = none) ∧
      misnumberedSample.unanswered = some 1 ∧
      measuresOf (misnumberedSample.step nearKey (.tick (sampleAt 0 0))) =
        measuresOf misnumberedSample ∧
      ¬ Along (Pinging.step nearKey) (Pinging.Accounts nearKey)
        (Pinging.start nearKey pingingRouter) (pingAndAnswer 0) := by
  have emptied : pendingOf pingedSample = some (1, 0) ∧
      pendingOf misnumberedSample = none := by
    decide +kernel
  refine ⟨emptied, ?_, ?_, ?_⟩
  · decide +kernel
  · decide +kernel
  · rintro ⟨_, kept, _⟩
    have other : pingedSample.unanswered ≠ some 0 := by
      decide +kernel
    have slots :=
      congrArg (fun accounts => accounts.bind Account.pendingSigReqTime)
        (kept fun _ => other)
    simp only [Option.bind_map] at slots
    change pendingOf misnumberedSample = pendingOf pingedSample at slots
    rw [emptied.1, emptied.2] at slots
    cases slots

end Norn.Control
