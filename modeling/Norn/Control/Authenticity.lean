import Norn.Control.Cadence

/-!
# Whose announcements and answers a router believes

`handle_announce` checks the signature of an announcement under the key that
the announcement itself names as its sender, and `handle_sig_res` does the same
with the answer to a ping.  Neither compares that key with the peer whose link
the frame came in on, so a peer can hand in what another router has signed.

Whatever is stored goes back to a frame that the peer signed itself as long
as every frame that passes its check names the peer it comes from.
-/

namespace Norn.Control

open Foundation Packet Router Session

variable {P : Primitives} {C : Crates} {L : FilterOps}

/-- What `handle_sig_res` measures: lag, jitter, loss rate and trust. -/
def ControlState.measurements (self : ControlState P C L) (key : Bytes 32) :
    Option (Nat × Nat × C.F32 × C.F32) :=
  (self.peers.lookup key).map fun peer =>
    (peer.lag, peer.jitter, peer.lossRate, peer.trust)

/-- An announcement was sent and signed by the owner of a key. -/
def AnnouncedBy (P : Primitives) (key : Bytes 32) (ann : Announce) :
    Prop :=
  ann.sender = key ∧ P.isVerifyingKey key = true ∧
    P.verifyStrict key ann.signBytes ann.signature = true

/-- An answer to a ping of a router was signed by the owner of a key. -/
def AnsweredBy (P : Primitives) (pubKey key : Bytes 32) (res : SigRes) : Prop :=
  P.isVerifyingKey key = true ∧
    P.verifyStrict key
      (sigResSignData res.treeId res.seq res.timestampMs pubKey)
      res.signature = true

/--
Every announcement stored for a peer was carried by a frame of the past, from
that peer and signed by it.
-/
def AnnouncesAuthentic (past : List (ControlStep L))
    (router : ControlState P C L) : Prop :=
  ∀ key peer tree stored, router.peers.lookup key = some peer →
    peer.trees tree = some stored →
      ∃ step ∈ past, ∃ ann, step.action = .receive key (.announce ann) ∧
        treeIndex ann.treeId = some tree ∧
        stored = storedAnnounce step.env.now ann ∧ AnnouncedBy P key ann

/--
If an answer to a ping changes a measurement of a peer, that peer signed it.
-/
def AnswerAuthentic (router : ControlState P C L) (step : ControlStep L) :
    Prop :=
  ∀ fromPeer res, step.action = .receive fromPeer (.sigRes res) →
    ∀ key, (router.step step).measurements key ≠ router.measurements key →
      AnsweredBy P router.pubKey key res

/--
An announcement or answer that passes the check of its handler names the peer
of the link it arrives on.
-/
def NamesItsLink (router : ControlState P C L) (step : ControlStep L) :
    Prop :=
  match step.action with
  | .receive fromPeer (.announce ann) =>
    announceVerified P ann = true → ann.sender = fromPeer
  | .receive fromPeer (.sigRes res) =>
    sigResVerified P router.pubKey res = true → res.pubKey = fromPeer
  | _ => True

/-- The tree for which `handle_announce` stores an announcement. -/
def ControlState.storesFor (router : ControlState P C L) (fromPeer : Bytes 32)
    (ann : Announce) : Option (Fin treeCount) :=
  if announceVerified P ann && (router.peers.lookup fromPeer).isSome then
    treeIndex ann.treeId
  else
    none

namespace ControlState

theorem lookup_foldl_removePeer {keys : List (Bytes 32)}
    {router : ControlState P C L} {key : Bytes 32} {peer : Peer C L}
    (found : (keys.foldl removePeer router).peers.lookup key = some peer) :
    router.peers.lookup key = some peer := by
  induction keys generalizing router with
  | nil => exact found
  | cons removed rest induction =>
    have before := induction found
    have erased :
        (router.removePeer removed).peers = router.peers.erase removed :=
      rfl
    rw [erased] at before
    by_cases same : key = removed
    · rw [same, KeyedMap.lookup_erase_self] at before
      cases before
    · rwa [KeyedMap.lookup_erase_ne same] at before

theorem signingKey_foldl_removePeer (keys : List (Bytes 32))
    (router : ControlState P C L) :
    (keys.foldl removePeer router).signingKey = router.signingKey := by
  induction keys generalizing router with
  | nil => rfl
  | cons removed rest induction => exact induction _

theorem lookup_doMaintenance {env : ControlEnv L}
    {router : ControlState P C L} {key : Bytes 32} {new : Peer C L}
    (found : (doMaintenance env router).1.peers.lookup key = some new) :
    ∃ old, router.peers.lookup key = some old ∧ new.trees = old.trees := by
  have services :=
    undisturbed_servicePhases env
      (maybeBroadcastControl env (router.settleTrees env)).1
  rw [← (doMaintenance_eq env router).1] at services
  rcases services.peers.exists_before found with ⟨old, before, same⟩
  rw [(maybeBroadcastControl_keeps env _).2.1] at before
  have settled :=
    (settled_treePhases env (router.startTick env)
      (List.finRange treeCount)).1.peers
  rw [settleTrees, settled] at before
  have started :
      ((router.advanceTick.expired env).foldl removePeer
        router.advanceTick).peers.lookup key = some old :=
    before
  have kept : router.advanceTick.peers.lookup key = some old :=
    lookup_foldl_removePeer started
  exact ⟨old, kept, same.trees⟩

theorem signingKey_doMaintenance (env : ControlEnv L)
    (router : ControlState P C L) :
    (doMaintenance env router).1.signingKey = router.signingKey := by
  have services :=
    undisturbed_servicePhases env
      (maybeBroadcastControl env (router.settleTrees env)).1
  rw [← (doMaintenance_eq env router).1] at services
  rw [services.signingKey, (maybeBroadcastControl_keeps env _).1]
  have settled :=
    (settled_treePhases env (router.startTick env)
      (List.finRange treeCount)).1.signingKey
  rw [settleTrees, settled]
  exact signingKey_foldl_removePeer _ _

/-- No step changes the identity of a router. -/
theorem signingKey_step (router : ControlState P C L) (step : ControlStep L) :
    (router.step step).signingKey = router.signingKey := by
  rcases step with ⟨env, action⟩
  cases action with
  | attach key =>
    simp only [ControlState.step, perform, addPeer]
    split <;> rfl
  | detach key => rfl
  | receive fromPeer frame =>
    cases announced : frame.announced with
    | none =>
      exact
        (OtherFrame.undisturbed ⟨env, fromPeer, frame, announced⟩
          router).signingKey
    | some ann =>
      cases frame <;> cases announced
      exact (handleAnnounce_cases env router fromPeer ann).1
  | maintain => exact signingKey_doMaintenance env router

/-- Only a received announcement changes what is stored for a peer's trees. -/
theorem lookup_step {router : ControlState P C L}
    {step : ControlStep L} {key : Bytes 32} {new : Peer C L}
    (other : ∀ fromPeer ann, step.action ≠ .receive fromPeer (.announce ann))
    (found : (router.step step).peers.lookup key = some new) :
    (∀ tree, new.trees tree = none) ∨
      ∃ old, router.peers.lookup key = some old ∧ new.trees = old.trees := by
  rcases step with ⟨env, action⟩
  cases action with
  | attach added =>
    simp only [ControlState.step, perform, addPeer] at found
    split at found
    · exact Or.inr ⟨new, found, rfl⟩
    · have inserted :
          (router.peers.insert added (Peer.new env.now)).lookup key =
            some new :=
        found
      by_cases same : key = added
      · rw [same, KeyedMap.lookup_insert_self, Option.some.injEq] at inserted
        left
        intro tree
        rw [← inserted]
        rfl
      · rw [KeyedMap.lookup_insert_ne same] at inserted
        exact Or.inr ⟨new, inserted, rfl⟩
  | detach removed =>
    exact Or.inr
      ⟨new, @lookup_foldl_removePeer _ _ _ [removed] _ _ _ found, rfl⟩
  | receive fromPeer frame =>
    cases announced : frame.announced with
    | none =>
      have kept :=
        OtherFrame.undisturbed ⟨env, fromPeer, frame, announced⟩ router
      rcases kept.peers.exists_before found with ⟨old, before, same⟩
      exact Or.inr ⟨old, before, same.trees⟩
    | some ann =>
      cases frame <;> cases announced
      exact (other fromPeer ann rfl).elim
  | maintain => exact Or.inr (lookup_doMaintenance found)

end ControlState

theorem Peer.trees_setAnnounce_self (tree : Fin treeCount)
    (now : Instant) (ann : Announce) (peer : Peer C L) :
    (Peer.setAnnounce tree now ann peer).trees tree =
      some (storedAnnounce now ann) :=
  if_pos rfl

theorem Peer.trees_setAnnounce_ne {tree other : Fin treeCount}
    (different : other ≠ tree) (now : Instant) (ann : Announce)
    (peer : Peer C L) :
    (Peer.setAnnounce tree now ann peer).trees other = peer.trees other :=
  if_neg different

namespace ControlState

variable {router : ControlState P C L}

/-- An announcement changes one entry of its sender, if it verifies. -/
theorem lookup_handleAnnounce {env : ControlEnv L} {fromPeer : Bytes 32}
    {ann : Announce} {key : Bytes 32} {peer : Peer C L}
    (found :
      (router.handleAnnounce env fromPeer ann).peers.lookup key = some peer) :
    (router.peers.lookup key = some peer ∧
        (key = fromPeer → storesFor router fromPeer ann = none)) ∨
      key = fromPeer ∧ announceVerified P ann = true ∧
        ∃ tree old, storesFor router fromPeer ann = some tree ∧
          router.peers.lookup key = some old ∧
          peer = Peer.setAnnounce tree env.now ann old := by
  cases verified : announceVerified P ann with
  | false =>
    left
    simp only [ControlState.handleAnnounce, verified, Bool.not_false, if_true]
      at found
    exact ⟨found, fun _ => by simp [storesFor, verified]⟩
  | true =>
    cases index : treeIndex ann.treeId with
    | none =>
      left
      simp only [ControlState.handleAnnounce, verified, index,
        Bool.not_true, Bool.false_eq_true, if_false] at found
      exact ⟨found, fun _ => by simp [storesFor, index]⟩
    | some tree =>
      rw [ControlState.peers_handleAnnounce env router fromPeer verified index]
        at found
      by_cases same : key = fromPeer
      · subst same
        right
        rw [KeyedMap.lookup_modify_self, Option.map_eq_some_iff] at found
        rcases found with ⟨old, before, rfl⟩
        refine ⟨rfl, rfl, tree, old, ?_, before, rfl⟩
        simp [storesFor, verified, before, index]
      · left
        rw [KeyedMap.lookup_modify_ne same] at found
        exact ⟨found, fun here => (same here).elim⟩

theorem treeIndex_of_storesFor {fromPeer : Bytes 32} {ann : Announce}
    {tree : Fin treeCount}
    (stores : router.storesFor fromPeer ann = some tree) :
    treeIndex ann.treeId = some tree := by
  unfold storesFor at stores
  split_ifs at stores
  exact stores

/-- A step adds at most the announcement that it hands in. -/
theorem announcesAuthentic_step {past : List (ControlStep L)}
    (authentic : AnnouncesAuthentic past router) {step : ControlStep L}
    (names : NamesItsLink router step) :
    AnnouncesAuthentic (past ++ [step]) (router.step step) := by
  intro key peer tree stored found shown
  have earlier :
      ∀ {old : Peer C L}, router.peers.lookup key = some old →
        old.trees tree = some stored →
        ∃ carrier ∈ past ++ [step], ∃ ann,
          carrier.action = .receive key (.announce ann) ∧
            treeIndex ann.treeId = some tree ∧
            stored = storedAnnounce carrier.env.now ann ∧
            AnnouncedBy P key ann := by
    intro old before oldShown
    rcases authentic key old tree stored before oldShown with
      ⟨carrier, member, origin⟩
    exact ⟨carrier, List.mem_append_left _ member, origin⟩
  by_cases announced :
      ∃ fromPeer ann, step.action = .receive fromPeer (.announce ann)
  · rcases announced with ⟨fromPeer, ann, action⟩
    rw [ControlState.step, perform, action] at found
    rcases lookup_handleAnnounce found with
      ⟨before, _⟩ | ⟨rfl, verified, storedTree, old, stores, before, rfl⟩
    · exact earlier before shown
    · by_cases sameTree : tree = storedTree
      · subst sameTree
        rw [Peer.trees_setAnnounce_self, Option.some.injEq] at shown
        unfold NamesItsLink at names
        rw [action] at names
        have own : ann.sender = key := names verified
        unfold announceVerified at verified
        rw [own] at verified
        exact ⟨step, List.mem_append_right _ List.mem_cons_self, ann, action,
          treeIndex_of_storesFor stores, shown.symm, own,
          Bool.and_eq_true_iff.mp verified⟩
      · rw [Peer.trees_setAnnounce_ne sameTree] at shown
        exact earlier before shown
  · have other :
        ∀ fromPeer ann, step.action ≠ .receive fromPeer (.announce ann) :=
      fun fromPeer ann action => announced ⟨fromPeer, ann, action⟩
    rcases lookup_step other found with empty | ⟨old, before, kept⟩
    · rw [empty tree] at shown
      cases shown
    · rw [kept] at shown
      exact earlier before shown

/-- `handle_sig_res` measures the peer of the link only, and if it verifies. -/
theorem answerAuthentic_of_names {step : ControlStep L}
    (names : NamesItsLink router step) :
    AnswerAuthentic router step := by
  intro fromPeer res action key changed
  unfold NamesItsLink at names
  rw [action] at names
  rw [ControlState.step, perform, action] at changed
  simp only [dispatch, handleSigRes] at changed
  split_ifs at changed with verified
  · by_cases here : key = fromPeer
    · have own : res.pubKey = key := (names verified).trans here.symm
      unfold sigResVerified at verified
      rw [own] at verified
      exact Bool.and_eq_true_iff.mp verified
    · refine (changed ?_).elim
      unfold measurements onPeer
      rw [KeyedMap.lookup_modify_ne here]
  · exact (changed rfl).elim

end ControlState

/--
In every run in which announcements and answers name the peer they come from,
the announcements stored for a peer were signed by that peer, and so was every
answer that changes the measurements of a peer.
-/
theorem authentic_of_named_links (signingKey : P.SigningKey)
    (onionEphPub : Bytes 32) (steps : List (ControlStep L))
    (named :
      Run.Along ControlState.step NamesItsLink
        (.new signingKey onionEphPub : ControlState P C L) steps) :
    AnnouncesAuthentic steps
        (Run.run ControlState.step
          (.new signingKey onionEphPub : ControlState P C L) steps) ∧
      Run.Along ControlState.step AnswerAuthentic
        (.new signingKey onionEphPub : ControlState P C L) steps := by
  constructor
  · refine
      @Run.invariant_run_past _ _ ControlState.step NamesItsLink
        AnnouncesAuthentic
        (fun authentic names =>
          ControlState.announcesAuthentic_step authentic names)
        _ _ ?_ named
    intro key peer tree stored found
    cases found
  · exact named.mono fun _ _ => ControlState.answerAuthentic_of_names

/-- The announcement of the sample root for its first tree. -/
def foreignAnnounce : Announce := (newRouter rootKey).ownAnnounce ⟨0, by decide⟩

/-- The first ping of the sample router. -/
def firstPing : SigReq where
  treeId := 0
  seq := 1
  timestampMs := 0
  pubKey := farKey

/-- The answer of the sample root to it. -/
def foreignAnswer : SigRes :=
  (newRouter rootKey).sigResFor (sampleAt 0 0) firstPing

/-- A peer hands in an announcement, is pinged and hands in an answer. -/
def measuring (ann : Announce) (res : SigRes) :
    List (ControlStep sampleFilters) :=
  sampleStep (.attach nearKey) ::
    sampleStep (.receive nearKey (.announce ann)) ::
    (List.replicate 5 (sampleStep .maintain) ++
      [sampleStep (.receive nearKey (.sigRes res))])

/-- Frames signed by another router are believed about the peer. -/
theorem relayed_frames_are_believed :
    ¬ AnnouncesAuthentic (measuring foreignAnnounce foreignAnswer)
        (Run.run ControlState.step (newRouter farKey)
          (measuring foreignAnnounce foreignAnswer)) ∧
      ¬ Run.Along ControlState.step AnswerAuthentic (newRouter farKey)
        (measuring foreignAnnounce foreignAnswer) := by
  constructor
  · intro authentic
    have stored :
        (((Run.run ControlState.step (newRouter farKey)
          (measuring foreignAnnounce foreignAnswer)).peers.lookup nearKey).bind
            fun peer => peer.trees ⟨0, by decide⟩).isSome = true := by
      decide +kernel
    rcases Option.isSome_iff_exists.mp stored with ⟨entry, kept⟩
    rcases Option.bind_eq_some_iff.mp kept with ⟨peer, found, shown⟩
    rcases authentic nearKey peer _ entry found shown with
      ⟨step, member, ann, action, _, _, sender, _⟩
    simp only [measuring, List.replicate, List.cons_append,
      List.nil_append, List.mem_cons, List.not_mem_nil, or_false] at member
    rcases member with rfl | rfl | rfl | rfl | rfl | rfl | rfl | rfl <;>
      cases action
    revert sender
    decide +kernel
  · rintro ⟨_, _, _, _, _, _, _, last, _⟩
    have signed := last nearKey foreignAnswer rfl nearKey fun same => by
      have lag := congrArg (Option.map Prod.fst) same
      revert lag
      decide +kernel
    have verified := signed.2
    revert verified
    decide +kernel

/-- The announcement and the answer of the peer itself. -/
def ownSteps : List (ControlStep sampleFilters) :=
  measuring ((newRouter nearKey).ownAnnounce ⟨0, by decide⟩)
    ((newRouter nearKey).sigResFor (sampleAt 0 0) firstPing)

/-- A peer that hands in its own announcement and its own answer. -/
theorem own_frames_are_authentic :
    AnnouncesAuthentic ownSteps
      (Run.run ControlState.step (newRouter farKey) ownSteps) := by
  have named :
      Run.Along ControlState.step NamesItsLink (newRouter farKey) ownSteps :=
    ⟨trivial, fun _ => rfl, trivial, trivial, trivial, trivial, trivial,
      fun _ => rfl, trivial⟩
  exact (authentic_of_named_links _ _ _ named).1

end Norn.Control
