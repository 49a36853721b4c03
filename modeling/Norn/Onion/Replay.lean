import Norn.Onion.Handlers
import Norn.Router.HopBound
import Norn.Sphinx.RoundTrip

/-!
# Replayed cells

What authenticates a Sphinx cell is the secret it shares with a key of the
node, together with its MAC and its header.  Two cells that agree in these
are copies of one another, whatever else differs between them.

The replay cache stands in the way of a second copy only if its digest is the
same, and the digest covers the bytes of the public key that the cell carries.
X25519 does not read the most significant bit of that key, so a copy with the
bit flipped is authentic and new to the cache.  Where copies carry the same
bytes, and the cache is large enough for the cells of a run, at most one copy
is passed on.
-/

namespace Norn.Onion

open Foundation Foundation.Run Packet Router Sphinx Primitives
open Session (Instant)

variable {P : Primitives} {F : Floats}

/-- A cell and the keys it is tried with. -/
structure Offered (P : Primitives) where
  privs : List P.StaticSecret
  cell : List UInt8

/-- The bytes of the public key in a cell. -/
def epkBytes (cell : List UInt8) : List UInt8 := (cell.drop offEpk).take epkLen

/-- The secret, the MAC and the header of a cell. -/
structure Offered.Carries (offered : Offered P) (secret : Bytes 32)
    (gamma : Bytes 16) (beta : Bytes betaLen) : Prop where
  sized : offered.cell.length = cellSize
  yields :
    ∃ epk : Bytes 32, epkBytes offered.cell = epk.toList ∧
      ∃ priv ∈ offered.privs, P.diffieHellman priv epk = secret
  mac : (offered.cell.drop offGamma).take macLen = gamma.toList
  header : (offered.cell.drop offBeta).take betaLen = beta.toList

theorem carries_of {privs : List P.StaticSecret} {cell : List UInt8}
    {epk : Bytes 32} {priv : P.StaticSecret} {secret : Bytes 32}
    {gamma : Bytes 16} {beta : Bytes betaLen} (tried : priv ∈ privs)
    (sized : cell.length = cellSize)
    (written : epkBytes cell = epk.toList)
    (shared : P.diffieHellman priv epk = secret)
    (mac : (cell.drop offGamma).take macLen = gamma.toList)
    (header : (cell.drop offBeta).take betaLen = beta.toList) :
    (Offered.mk privs cell).Carries secret gamma beta :=
  ⟨sized, ⟨epk, written, priv, tried, shared⟩, mac, header⟩

/-- Two cells with one secret, one MAC and one header. -/
def Offered.Copies (one other : Offered P) : Prop :=
  ∃ secret gamma beta,
    one.Carries secret gamma beta ∧ other.Carries secret gamma beta

theorem replayDigest_of_copies (S : SphinxCrypto) {one other : Offered P}
    (copies : one.Copies other)
    (same : epkBytes one.cell = epkBytes other.cell) :
    replayDigest S one.cell = replayDigest S other.cell := by
  rcases copies with ⟨secret, gamma, beta, first, second⟩
  have header :
      (one.cell.drop offBeta).take 16 = (other.cell.drop offBeta).take 16 := by
    have cut := congrArg (List.take 16) (first.header.trans second.header.symm)
    rwa [List.take_take, List.take_take] at cut
  unfold epkBytes at same
  unfold replayDigest
  rw [if_pos first.sized, if_pos second.sized, same, header]

/-! ## A node and what it has handled -/

/-- A Sphinx cell that was handled. -/
structure Handled (P : Primitives) where
  offered : Offered P
  outcome : CellOutcome

/-- A node, the digests it has recorded and the Sphinx cells it has had. -/
structure Watch (P : Primitives) (F : Floats) where
  hop : HopNode P F
  recorded : List (Bytes 32)
  handled : List (Handled P)

/-- The watch begins at a node in any state. -/
def Watch.start (hop : HopNode P F) : Watch P F where
  hop
  recorded := []
  handled := []

/-- What happens to a node. -/
inductive WatchAction (P : Primitives) (F : Floats) where
  | handle (env : RelayEnv P F) (fromPeer : Bytes 32) (cell : Cell)
  | rotate (newPriv : P.StaticSecret) (now : Instant)
  | elsewhere (node : Node P F)

/-- The Sphinx cell in a cell, with the keys of the node. -/
def HopNode.offers (self : HopNode P F) : Cell → Option (Offered P)
  | .onion _ => none
  | .sphinx cell => some ⟨self.onionKeys.sphinxPrivs, cell⟩

/-- The digest that a cell leaves in the cache. -/
def HopNode.records (S : SphinxCrypto) (self : HopNode P F) (cell : Cell) :
    List (Bytes 32) :=
  if self.replays S cell then [] else (cell.digest S).toList

/-- One event at a node. -/
def watchStep (S : SphinxCrypto) (state : Watch P F) :
    WatchAction P F → Watch P F
  | .handle env fromPeer cell =>
    let result := state.hop.handle S env fromPeer cell
    { hop := result.1
      recorded := state.hop.records S cell ++ state.recorded
      handled :=
        ((state.hop.offers cell).map fun offered =>
            ⟨offered, result.2.1⟩).toList ++
          state.handled }
  | .rotate newPriv now =>
    { state with
      hop :=
        { state.hop with
          onionKeys := state.hop.onionKeys.rotate newPriv now } }
  | .elsewhere node => { state with hop := { state.hop with node } }

/-- A copy of an earlier cell has the public key of that cell. -/
def Unmauled (state : Watch P F) : WatchAction P F → Prop
  | .handle _ _ cell =>
    ∀ offered ∈ state.hop.offers cell, ∀ earlier ∈ state.handled,
      offered.Copies earlier.offered →
        epkBytes offered.cell = epkBytes earlier.offered.cell
  | .rotate _ _ => True
  | .elsewhere _ => True

/-- Two copies were both passed on. -/
def PassedTwice (later earlier : Handled P) : Prop :=
  later.outcome.passed = true ∧ earlier.outcome.passed = true ∧
    later.offered.Copies earlier.offered

/-- Few enough digests were recorded for the cache to hold them. -/
def Watch.Few (state : Watch P F) : Prop :=
  state.recorded.toFinset.card < onionReplayCacheSize

/-- What the cache knows about the cells that were passed on. -/
structure Guarded (S : SphinxCrypto) (start : ReplayCache)
    (state : Watch P F) : Prop where
  follows : RecentKeys.HasRecorded start state.recorded state.hop.onionSeen
  noted :
    ∀ one ∈ state.handled, one.outcome.passed = true →
      ∃ digest ∈ state.recorded, replayDigest S one.offered.cell = some digest
  single :
    state.Few →
      state.handled.Pairwise fun later earlier =>
        ¬ PassedTwice later earlier

variable (S : SphinxCrypto)

theorem guarded_start (hop : HopNode P F) :
    Guarded S hop.onionSeen (Watch.start hop) where
  follows := RecentKeys.hasRecorded_nil hop.onionSeen
  noted := fun _ member => absurd member List.not_mem_nil
  single := fun _ => List.Pairwise.nil

theorem hasRecorded_cacheAfter {start : ReplayCache} {hop : HopNode P F}
    {recorded : List (Bytes 32)}
    (follows : RecentKeys.HasRecorded start recorded hop.onionSeen)
    (cell : Cell) :
    RecentKeys.HasRecorded start (hop.records S cell ++ recorded)
      (hop.cacheAfter S cell) := by
  unfold HopNode.records HopNode.replays HopNode.cacheAfter
  cases cell.digest S with
  | none => exact follows
  | some digest =>
    by_cases member : digest ∈ hop.onionSeen.keys
    · simp only [RecentKeys.seen_of_mem member, if_true, List.nil_append]
      exact follows
    · simp only [RecentKeys.seen_of_fresh member]
      exact follows.record member

theorem records_of_passed {hop : HopNode P F} {env : RelayEnv P F}
    {fromPeer : Bytes 32} {cell : List UInt8}
    (passed : (hop.handle S env fromPeer (.sphinx cell)).2.1.passed = true) :
    ∃ digest, replayDigest S cell = some digest ∧
      hop.records S (.sphinx cell) = [digest] := by
  have fresh := HopNode.not_replays_of_passed S passed
  have authentic : Cell.authentic S hop.onionKeys (.sphinx cell) = true := by
    by_contra failing
    have stopped :=
      HopNode.not_passed_of_not_authentic S (Bool.eq_false_iff.mpr failing) env
        fromPeer
    rw [passed] at stopped
    cases stopped
  have sized : cell.length = cellSize := by
    by_contra other
    simp only [Cell.authentic, processSphinx, dif_neg other] at authentic
    cases authentic
  refine ⟨_, if_pos sized, ?_⟩
  unfold HopNode.records
  rw [fresh, Cell.digest, replayDigest, if_pos sized]
  rfl

theorem replays_of_copy {start : ReplayCache} {state : Watch P F}
    (guarded : Guarded S start state) (few : state.Few)
    {cell : List UInt8} {earlier : Handled P}
    (member : earlier ∈ state.handled)
    (passed : earlier.outcome.passed = true)
    (same : replayDigest S cell = replayDigest S earlier.offered.cell) :
    state.hop.replays S (.sphinx cell) = true := by
  rcases guarded.noted earlier member passed with ⟨digest, recorded, digested⟩
  have held := guarded.follows.mem few recorded
  unfold HopNode.replays
  simp only [Cell.digest, same, digested, RecentKeys.seen_of_mem held]

/-- A step keeps the cells passed on known to the cache. -/
theorem guarded_watchStep {start : ReplayCache} {state : Watch P F}
    {action : WatchAction P F} (guarded : Guarded S start state)
    (unmauled : Unmauled state action) :
    Guarded S start (watchStep S state action) := by
  cases action with
  | rotate newPriv now =>
    exact ⟨guarded.follows, guarded.noted, guarded.single⟩
  | elsewhere node =>
    exact ⟨guarded.follows, guarded.noted, guarded.single⟩
  | handle env fromPeer cell =>
    have follows := hasRecorded_cacheAfter S guarded.follows cell
    rw [← HopNode.onionSeen_handle S state.hop env fromPeer cell] at follows
    have earlierNoted :
        ∀ one ∈ state.handled, one.outcome.passed = true →
          ∃ digest ∈ state.hop.records S cell ++ state.recorded,
            replayDigest S one.offered.cell = some digest := by
      intro one member passed
      rcases guarded.noted one member passed with ⟨digest, recorded, digested⟩
      exact ⟨digest, List.mem_append_right _ recorded, digested⟩
    have fewBefore :
        (watchStep S state (.handle env fromPeer cell)).Few →
          state.Few :=
      Nat.lt_of_le_of_lt (RecentKeys.card_le_card_append _ _)
    cases cell with
    | onion packet =>
      exact ⟨follows, earlierNoted, fun few => guarded.single (fewBefore few)⟩
    | sphinx cell =>
      refine ⟨follows, ?_, ?_⟩
      · intro one member passed
        rcases List.mem_cons.mp member with rfl | before
        · rcases records_of_passed S passed with ⟨digest, digested, left⟩
          refine ⟨digest, List.mem_append_left _ ?_, digested⟩
          rw [left]
          exact List.mem_singleton_self digest
        · exact earlierNoted one before passed
      · intro few
        refine List.pairwise_cons.mpr ⟨?_, guarded.single (fewBefore few)⟩
        rintro earlier member ⟨passed, passedBefore, copies⟩
        have same := unmauled _ rfl earlier member copies
        have replayed :=
          replays_of_copy S guarded (fewBefore few) member
            passedBefore (replayDigest_of_copies S copies same)
        rw [HopNode.not_replays_of_passed S passed] at replayed
        cases replayed

/--
While fewer digests are recorded than the cache can hold, at most one of the
cells with a secret, a MAC and a header is forwarded or delivered, provided
that no copy of a cell carries another public key.
-/
theorem copies_pass_once_when_unmauled (hop : HopNode P F)
    (actions : List (WatchAction P F))
    (few : (run (watchStep S) (Watch.start hop) actions).Few)
    (unmauled : Along (watchStep S) Unmauled (Watch.start hop) actions) :
    (run (watchStep S) (Watch.start hop) actions).handled.Pairwise
      fun later earlier => ¬ PassedTwice later earlier := by
  have guarded :=
    invariant_run
      (fun _ _ before unmauledHere =>
        guarded_watchStep S before unmauledHere)
      (guarded_start S hop) unmauled
  exact guarded.single few

/-- A node whose only peer claims every tag. -/
def maskedHop : HopNode masked sampleFloats where
  node :=
    { router :=
        { sessions :=
            Norn.Session.SessionManager.new (P := masked)
              (sampleKey 1) (sampleKey 101)
              (Norn.Session.PqSigner.ofKey (P := masked)
                (sampleKey 51)) 0
          peers := ∅
          coordTable := ∅
          trafficTx := [] }
      routing := (sampleLeaf 1 2 true).routing }
  onionKeys := OnionKeyChain.new (P := masked) (sampleKey 20) 0
  onionSeen := RecentKeys.empty onionReplayCacheSize_pos

/-- Surroundings of the node. -/
def maskedEnv : RelayEnv masked sampleFloats where
  frame :=
    { call :=
        { now := 5
          nowMs := 1000
          order := Norn.Session.IterationOrder.natural
          newPriv := sampleKey 1
          seed := sampleKey 2 }
      epkPriv := sampleKey 3
      routing := sampleRelayEnv.frame.routing }
  cacheOrder := sampleRelayEnv.cacheOrder
  atHop := fun node _ _ => (node, [])

/-- A cell for the node, which sends it on. -/
def maskedCell : List UInt8 :=
  encodeCell (Bytes.replicate 16 20) (sampleKey 1) (Bytes.replicate 16 21)
    (List.replicate betaLen 21) (Bytes.replicate payloadLen 0)

/-- The cell with the most significant bit of its public key flipped. -/
def maul (cell : List UInt8) : List UInt8 :=
  cell.modify (offEpk + 31) (· ^^^ 0x80)

/-- A cell arrives from a stranger. -/
def maskedArrival (cell : List UInt8) :
    WatchAction masked sampleFloats :=
  .handle maskedEnv (sampleKey 9) (.sphinx cell)

/-- The same cell twice: it is passed on once. -/
theorem same_cell_passes_once :
    (run (watchStep sampleSphinxCrypto) (Watch.start maskedHop)
        [maskedArrival maskedCell, maskedArrival maskedCell]
      ).handled.Pairwise fun later earlier => ¬ PassedTwice later earlier := by
  apply copies_pass_once_when_unmauled sampleSphinxCrypto maskedHop
  · unfold Watch.Few
    decide +kernel
  · refine ⟨?_, ?_, trivial⟩
    · intro offered _ earlier member
      exact absurd member List.not_mem_nil
    · intro offered offers earlier member _
      cases Option.mem_some.mp offers
      cases List.mem_singleton.mp member
      rfl

theorem copies_maul {privs others : List masked.StaticSecret}
    (tried : sampleKey 20 ∈ privs) (triedOther : sampleKey 20 ∈ others) :
    (Offered.mk (P := masked) privs (maul maskedCell)).Copies
      ⟨others, maskedCell⟩ := by
  refine
    ⟨sampleKey 21, fit 16 ((maskedCell.drop offGamma).take macLen),
      fit betaLen ((maskedCell.drop offBeta).take betaLen),
      ?_, ?_⟩
  · apply @carries_of _ _ _ (fit 32 (epkBytes (maul maskedCell))) _ _ _ _ tried
    all_goals decide +kernel
  · apply @carries_of _ _ _ (sampleKey 1) _ _ _ _ triedOther
    all_goals decide +kernel

/-- The cell and the copy with the flipped bit: both are passed on. -/
theorem mauled_copy_passes :
    masked.DhCommutes ∧ masked.IgnoresHighBit ∧
      (run (watchStep sampleSphinxCrypto) (Watch.start maskedHop)
          [maskedArrival maskedCell, maskedArrival (maul maskedCell)]
        ).Few ∧
      ¬ (run (watchStep sampleSphinxCrypto) (Watch.start maskedHop)
          [maskedArrival maskedCell, maskedArrival (maul maskedCell)]
        ).handled.Pairwise
          fun later earlier => ¬ PassedTwice later earlier := by
  refine ⟨masked_dhCommutes, masked_ignoresHighBit,
    ?_, ?_⟩
  · unfold Watch.Few
    decide +kernel
  · intro single
    have keys :=
      HopNode.onionKeys_handle sampleSphinxCrypto maskedHop maskedEnv
        (sampleKey 9) (.sphinx maskedCell)
    have tried :
        sampleKey 20 ∈ (watchStep sampleSphinxCrypto
          (Watch.start maskedHop) (maskedArrival maskedCell)
          ).hop.onionKeys.sphinxPrivs := by
      simp only [watchStep, maskedArrival, Watch.start, keys]
      exact List.mem_cons_self
    refine (List.pairwise_cons.mp single).1 _ List.mem_cons_self
      ⟨?_, ?_, copies_maul tried List.mem_cons_self⟩
    · decide +kernel
    · decide +kernel

end Norn.Onion
