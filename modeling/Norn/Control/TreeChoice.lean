import Norn.Control.Topology

/-!
# What `fix_tree` chooses

The loop of `fix_tree` visits the peers in the order of a hash map, and the
parent so far is kept when it is hardly dearer than the best offer.  The root
that is chosen is nevertheless the least one there is, the cost of the parent
is at most a margin above the cheapest, and neither depends on the order.  The
parent itself may depend on it, when several peers offer the same root at the
same cost.
-/

namespace Norn.Control

open Foundation Packet Router Session

variable {P : Primitives} {C : Crates} {L : FilterOps}

theorem toNat_saturatingAdd_le (left right : UInt64) :
    (saturatingAdd left right).toNat ≤ left.toNat + right.toNat := by
  unfold saturatingAdd
  split_ifs with fits
  · rw [UInt64.toNat_add, Nat.mod_eq_of_lt fits]
  · exact Nat.le_of_pred_lt
      (Nat.lt_of_lt_of_le (by decide) (Nat.not_lt.mp fits))

/-- The same surroundings with another order of the peer map. -/
def ControlEnv.reordered (env : ControlEnv L) (order : IterationOrder) :
    ControlEnv L :=
  { env with order := order }

namespace ControlState

variable {tree : Fin treeCount} {candidate : Candidate}

/-! ## Offers -/

/--
The announcement of a peer for a tree has not expired, and this is what the
tree costs through the peer.
-/
structure Offers (env : ControlEnv L) (router : ControlState P C L)
    (tree : Fin treeCount) (key : Bytes 32) (ann : TreeAnnounce)
    (cost : UInt64) : Prop where
  announced :
    ∃ peer, router.peers.lookup key = some peer ∧ peer.trees tree = some ann ∧
      cost = saturatingAdd ann.pathCost peer.effectiveCost
  unexpired : env.now - ann.receivedAt ≤ announceExpiry

/-- What `fix_tree` should leave in a tree. -/
structure LeastChoice (env : ControlEnv L) (router : ControlState P C L)
    (tree : Fin treeCount) (result : TreeState) : Prop where
  /-- The root is the own key or that of an offer. -/
  known :
    result.root = router.pubKey ∨
      ∃ key ann cost, Offers env router tree key ann cost ∧
        ann.root = result.root
  /-- The own key is no better. -/
  own :
    ¬ metricIn C tree (currentTreeEpoch env) router.pubKey <
      metricIn C tree (currentTreeEpoch env) result.root
  /-- No offer is better. -/
  least :
    ∀ key ann cost, Offers env router tree key ann cost →
      ¬ metricIn C tree (currentTreeEpoch env) ann.root <
        metricIn C tree (currentTreeEpoch env) result.root
  /-- A parent offers the root at the cost that is noted. -/
  parent :
    ∀ key, result.parent = some key →
      ∃ ann, Offers env router tree key ann result.parentCost ∧
        ann.root = result.root
  /-- The cost is at most the margin above any offer of the root. -/
  cheap :
    ∀ key, result.parent = some key →
      ∀ other ann cost, Offers env router tree other ann cost →
        ann.root = result.root →
        result.parentCost.toNat ≤ cost.toNat + parentSwitchMarginUs.toNat
  /-- Without a parent the router is the root. -/
  alone :
    result.parent = none → result.root = router.pubKey ∧ result.parentCost = 0

variable (env : ControlEnv L) (self : ControlState P C L)

theorem mem_candidates_iff_offers :
    candidate ∈ self.candidates env tree ↔
      ∃ ann, Offers env self tree candidate.parent ann candidate.cost ∧
        candidate.root = ann.root ∧
        candidate.metric = metricIn C tree (currentTreeEpoch env) ann.root := by
  rw [mem_candidates]
  constructor
  · rintro ⟨key, peer, found, offered⟩
    unfold candidateOf at offered
    cases stored : peer.trees tree with
    | none => simp [stored] at offered
    | some ann =>
      simp only [stored] at offered
      split_ifs at offered with expired
      cases offered
      exact ⟨ann, ⟨⟨peer, found, stored, rfl⟩, Nat.not_lt.mp expired⟩, rfl, rfl⟩
  · rintro ⟨ann, ⟨⟨peer, found, stored, cost⟩, unexpired⟩, root, metric⟩
    refine ⟨candidate.parent, peer, found, ?_⟩
    simp only [candidateOf, stored, if_neg (Nat.not_lt.mpr unexpired)]
    rw [← cost, ← metric, ← root]

theorem parent_of_candidateOf {key : Bytes 32} {peer : Peer C L}
    (offered : candidateOf env tree (key, peer) = some candidate) :
    candidate.parent = key := by
  unfold candidateOf at offered
  cases stored : peer.trees tree with
  | none => simp [stored] at offered
  | some ann =>
    simp only [stored] at offered
    split_ifs at offered
    cases offered
    rfl

theorem eq_of_mem_candidates {first second : Candidate}
    (one : first ∈ self.candidates env tree)
    (two : second ∈ self.candidates env tree)
    (same : first.parent = second.parent) : first = second := by
  rcases (mem_candidates env self).mp one with
    ⟨firstKey, firstPeer, foundFirst, offeredFirst⟩
  rcases (mem_candidates env self).mp two with
    ⟨secondKey, secondPeer, foundSecond, offeredSecond⟩
  have keys : firstKey = secondKey := by
    rw [← parent_of_candidateOf env offeredFirst,
      ← parent_of_candidateOf env offeredSecond, same]
  subst keys
  rw [foundFirst] at foundSecond
  cases foundSecond
  rw [offeredFirst] at offeredSecond
  exact Option.some.inj offeredSecond

/-- The incumbent is the candidate that comes by the current parent. -/
theorem incumbent_eq_some_iff {current : Candidate} :
    self.incumbent env tree = some current ↔
      current ∈ self.candidates env tree ∧
        some current.parent = (self.trees tree).parent := by
  unfold incumbent
  constructor
  · intro found
    have kept := List.find?_some found
    exact ⟨List.mem_of_find?_eq_some found, by simpa using kept⟩
  · rintro ⟨member, incumbent⟩
    cases found :
        (self.candidates env tree).find? fun candidate =>
          some candidate.parent = (self.trees tree).parent with
    | none =>
      have absent := List.find?_eq_none.mp found current member
      exact (absent (decide_eq_true incumbent)).elim
    | some other =>
      have kept := List.find?_some found
      have parents : other.parent = current.parent := by
        rw [decide_eq_true_eq, ← incumbent] at kept
        exact Option.some.inj kept
      rw [eq_of_mem_candidates env self (List.mem_of_find?_eq_some found) member
        parents]

/--
The parent so far offers the best root at nearly the best cost.  When it is
the best offer itself this is the case, too.
-/
def Stays (tree : Fin treeCount) (best current : Candidate) : Prop :=
  self.incumbent env tree = some current ∧ current.metric = best.metric ∧
    current.cost ≤ saturatingAdd best.cost parentSwitchMarginUs

theorem damped_cases {best : Candidate}
    (member : best ∈ self.candidates env tree) :
    (∃ current, self.Stays env tree best current ∧
        self.damped env tree best = { current with root := best.root }) ∨
      (∀ current, ¬ self.Stays env tree best current) ∧
        self.damped env tree best = best := by
  cases offered : self.incumbent env tree with
  | none =>
    right
    refine ⟨fun current stays => ?_, ?_⟩
    · rw [Stays, offered] at stays
      cases stays.1
    · simp only [damped, offered]
  | some current =>
    have known := (incumbent_eq_some_iff env self).mp offered
    by_cases stays :
        current.metric = best.metric ∧
          current.cost ≤ saturatingAdd best.cost parentSwitchMarginUs
    · left
      refine ⟨current, ⟨offered, stays⟩, ?_⟩
      simp only [damped, offered]
      split_ifs with damping
      · rw [← damping.1]
      · have own : some best.parent = (self.trees tree).parent := by
          by_contra other
          exact damping ⟨stays.1, other, stays.2⟩
        have same : best = current :=
          eq_of_mem_candidates env self member known.1
            (Option.some.inj (own.trans known.2.symm))
        rw [same]
    · right
      refine ⟨fun other kept => ?_, ?_⟩
      · rw [Stays, offered] at kept
        cases kept.1
        exact stays kept.2
      · simp only [damped, offered]
        rw [if_neg]
        exact fun damping => stays ⟨damping.1, damping.2.2⟩

theorem tree_fixTree (tree : Fin treeCount) :
    (self.fixTree env tree).trees tree = match self.chosen env tree with
      | none =>
        { parent := none
          root := self.pubKey
          rootSeq := (self.trees tree).rootSeq + 1
          parentCost := 0 }
      | some candidate =>
        { parent := some candidate.parent
          root := candidate.root
          rootSeq := (self.trees tree).rootSeq
          parentCost := candidate.cost } := by
  have here :
      ∀ value : TreeState, (self.setTree tree value).trees tree = value :=
    fun value => if_pos rfl
  unfold fixTree noteChange
  cases self.chosen env tree with
  | none =>
    dsimp only
    unfold becomeRoot
    split_ifs <;> simp only [here]
  | some candidate =>
    dsimp only
    unfold joinTree
    split_ifs <;> simp only [here]

theorem chosen_eq_some (chosen : self.chosen env tree = some candidate) :
    ∃ best, self.bestCandidate env tree = some best ∧
      best ∈ self.candidates env tree ∧
      (∀ other ∈ self.candidates env tree, other.better best = false) ∧
      candidate = self.damped env tree best := by
  have unbeaten := unbeaten_bestCandidate env self tree
  unfold ControlState.chosen at chosen
  cases offered : self.bestCandidate env tree with
  | none =>
    rw [offered] at chosen
    cases chosen
  | some best =>
    rw [offered] at chosen unbeaten
    dsimp only at chosen
    split_ifs at chosen
    exact ⟨best, rfl, unbeaten.1, unbeaten.2, (Option.some.inj chosen).symm⟩

/-- The parent chosen costs at most the margin more than any with its root. -/
theorem chosen_offers (chosen : self.chosen env tree = some candidate) :
    (∃ ann, Offers env self tree candidate.parent ann candidate.cost ∧
      ann.root = candidate.root) ∧
      ∀ other ann cost, Offers env self tree other ann cost →
        ann.root = candidate.root →
        candidate.cost.toNat ≤ cost.toNat + parentSwitchMarginUs.toNat := by
  rcases chosen_eq_some env self chosen with ⟨best, _, member, unbeaten, rfl⟩
  rcases (mem_candidates_iff_offers env self).mp member with
    ⟨bestAnn, bestOffers, bestRoot, bestMetric⟩
  have cheapest :
      ∀ other ann cost, Offers env self tree other ann cost →
        ann.root = best.root → best.cost.toNat ≤ cost.toNat := by
    intro other ann cost offers same
    have offered :
        (⟨other, ann.root, metricIn C tree (currentTreeEpoch env) ann.root,
          cost⟩ :
          Candidate) ∈ self.candidates env tree :=
      (mem_candidates_iff_offers env self).mpr ⟨ann, offers, rfl, rfl⟩
    have level := Candidate.better_eq_false_iff.mp (unbeaten _ offered)
    apply level.2
    rw [bestMetric, ← bestRoot, ← same]
  rcases damped_cases env self member with
    ⟨current, ⟨incumbent, metric, near⟩, damped⟩ | ⟨_, damped⟩
  · have known := (incumbent_eq_some_iff env self).mp incumbent
    rcases (mem_candidates_iff_offers env self).mp known.1 with
      ⟨ann, offers, root, annMetric⟩
    rw [damped]
    refine ⟨⟨ann, offers, ?_⟩, ?_⟩
    · apply metricIn_injective C tree (currentTreeEpoch env)
      rw [← annMetric, metric, bestMetric, bestRoot]
    · intro other otherAnn cost otherOffers same
      have least := cheapest other otherAnn cost otherOffers same
      have bounded := toNat_saturatingAdd_le best.cost parentSwitchMarginUs
      have close := UInt64.le_iff_toNat_le.mp near
      change current.cost.toNat ≤ _
      omega
  · rw [damped]
    refine ⟨⟨bestAnn, bestOffers, bestRoot.symm⟩, ?_⟩
    intro other ann cost offers same
    exact (cheapest other ann cost offers same).trans (Nat.le_add_right _ _)

/-- Fixing a tree makes a least choice. -/
theorem leastChoice_fixTree (tree : Fin treeCount) :
    LeastChoice env self tree ((self.fixTree env tree).trees tree) := by
  have settled := settled_chosen env self tree
  have offered :
      ∀ candidate ∈ self.candidates env tree,
        ∃ key ann cost, Offers env self tree key ann cost ∧
          ann.root = candidate.root := by
    intro candidate member
    rcases (mem_candidates_iff_offers env self).mp member with
      ⟨ann, offers, root, _⟩
    exact ⟨_, ann, _, offers, root.symm⟩
  have least :
      ∀ {root : Bytes 32}, BestRoot env self tree root →
        ∀ key ann cost, Offers env self tree key ann cost →
          ¬ metricIn C tree (currentTreeEpoch env) ann.root <
            metricIn C tree (currentTreeEpoch env) root := by
    intro root settled key ann cost offers
    exact
      settled.best
        ⟨key, ann.root, metricIn C tree (currentTreeEpoch env) ann.root, cost⟩
        ((mem_candidates_iff_offers env self).mpr ⟨ann, offers, rfl, rfl⟩)
  have known :
      ∀ {root : Bytes 32}, BestRoot env self tree root →
        root = self.pubKey ∨
          ∃ key ann cost, Offers env self tree key ann cost ∧
            ann.root = root := by
    intro root settled
    rcases settled.origin with own | ⟨candidate, member, rfl⟩
    · exact Or.inl own
    · exact Or.inr (offered candidate member)
  rw [tree_fixTree]
  cases chosen : self.chosen env tree with
  | none =>
    rw [chosen] at settled
    refine ⟨known settled, settled.own, least settled, ?_, ?_,
      fun _ => ⟨rfl, rfl⟩⟩
    · intro key parent
      cases parent
    · intro key parent
      cases parent
  | some candidate =>
    rw [chosen] at settled
    have offers := chosen_offers env self chosen
    refine ⟨known settled, settled.own, least settled, ?_, ?_, ?_⟩
    · rintro key ⟨⟩
      exact offers.1
    · intro key _
      exact offers.2
    · intro alone
      cases alone

section Order

variable (order : IterationOrder)

theorem mem_candidates_reordered {tree : Fin treeCount}
    {candidate : Candidate} :
    candidate ∈ self.candidates (env.reordered order) tree ↔
      candidate ∈ self.candidates env tree := by
  rw [mem_candidates, mem_candidates]
  rfl

theorem incumbent_reordered (tree : Fin treeCount) :
    self.incumbent (env.reordered order) tree =
      self.incumbent env tree := by
  apply Option.ext
  intro current
  rw [incumbent_eq_some_iff, incumbent_eq_some_iff, mem_candidates_reordered]

theorem bestCandidate_reordered (tree : Fin treeCount) :
    (self.bestCandidate env tree = none ∧
      self.bestCandidate (env.reordered order) tree = none) ∨
      ∃ best other, self.bestCandidate env tree = some best ∧
        self.bestCandidate (env.reordered order) tree = some other ∧
        best.metric = other.metric ∧ best.cost = other.cost := by
  have unbeaten := unbeaten_bestCandidate env self tree
  have unbeatenOther := unbeaten_bestCandidate (env.reordered order) self tree
  cases first : self.bestCandidate env tree with
  | none =>
    rw [first] at unbeaten
    cases second : self.bestCandidate (env.reordered order) tree with
    | none => exact Or.inl ⟨rfl, rfl⟩
    | some other =>
      rw [second] at unbeatenOther
      have member :=
        (mem_candidates_reordered env self order).mp unbeatenOther.1
      rw [show self.candidates env tree = [] from unbeaten] at member
      exact (List.not_mem_nil member).elim
  | some best =>
    rw [first] at unbeaten
    have memberBest := (mem_candidates_reordered env self order).mpr unbeaten.1
    cases second : self.bestCandidate (env.reordered order) tree with
    | none =>
      rw [second] at unbeatenOther
      rw [show self.candidates (env.reordered order) tree = [] from
        unbeatenOther] at memberBest
      exact (List.not_mem_nil memberBest).elim
    | some other =>
      rw [second] at unbeatenOther
      have memberOther :=
        (mem_candidates_reordered env self order).mp unbeatenOther.1
      have one :=
        Candidate.better_eq_false_iff.mp (unbeaten.2 other memberOther)
      have two :=
        Candidate.better_eq_false_iff.mp (unbeatenOther.2 best memberBest)
      have level : best.metric = other.metric := Bytes.eq_of_not_lt two.1 one.1
      refine Or.inr ⟨best, other, rfl, rfl, level, ?_⟩
      apply UInt64.toNat_inj.mp
      exact Nat.le_antisymm (one.2 level.symm) (two.2 level)

/-- The order of the peers does not affect the root or the cost. -/
theorem chosen_reordered (tree : Fin treeCount) :
    (self.chosen env tree = none ∧
      self.chosen (env.reordered order) tree = none) ∨
      ∃ candidate other, self.chosen env tree = some candidate ∧
        self.chosen (env.reordered order) tree = some other ∧
        candidate.root = other.root ∧ candidate.cost = other.cost := by
  have unbeaten := unbeaten_bestCandidate env self tree
  have unbeatenOther := unbeaten_bestCandidate (env.reordered order) self tree
  rcases bestCandidate_reordered env self order tree with
    ⟨first, second⟩ | ⟨best, other, first, second, level, cost⟩
  · left
    simp only [chosen, first, second, and_self]
  · rw [first] at unbeaten
    rw [second] at unbeatenOther
    have memberOther :=
      (mem_candidates_reordered env self order).mp unbeatenOther.1
    by_cases ownBest :
        metricLess (metricIn C tree (currentTreeEpoch env) self.pubKey)
          best.metric
    · left
      have ownBestOther := ownBest
      rw [level] at ownBestOther
      simp only [chosen, first, second, if_pos ownBest]
      exact ⟨trivial, if_pos ownBestOther⟩
    · right
      have ownBestOther := ownBest
      rw [level] at ownBestOther
      refine
        ⟨self.damped env tree best, self.damped (env.reordered order) tree
          other, ?_, ?_, ?_, ?_⟩
      · simp only [chosen, first, if_neg ownBest]
      · simp only [chosen, second]
        exact if_neg ownBestOther
      · rw [root_damped, root_damped]
        apply metricIn_injective C tree (currentTreeEpoch env)
        rw [← metric_of_mem_candidates env self unbeaten.1,
          ← metric_of_mem_candidates env self memberOther, level]
      · have sameStays :
            ∀ current, self.Stays env tree best current ↔
              self.Stays (env.reordered order) tree other current := by
          intro current
          rw [Stays, Stays, incumbent_reordered, level, cost]
        rcases damped_cases env self unbeaten.1 with
          ⟨current, stays, damped⟩ | ⟨leaves, damped⟩
        · rcases damped_cases (env.reordered order) self unbeatenOther.1 with
            ⟨again, staysAgain, dampedOther⟩ | ⟨leavesOther, _⟩
          · rw [damped, dampedOther]
            have same := stays.1.symm.trans ((sameStays again).mpr staysAgain).1
            rw [Option.some.inj same]
          · exact (leavesOther current ((sameStays current).mp stays)).elim
        · rcases damped_cases (env.reordered order) self unbeatenOther.1 with
            ⟨again, staysAgain, _⟩ | ⟨_, dampedOther⟩
          · exact (leaves again ((sameStays again).mpr staysAgain)).elim
          · rw [damped, dampedOther, cost]

theorem fixTree_reordered (tree : Fin treeCount) :
    ((self.fixTree (env.reordered order) tree).trees tree).root =
        ((self.fixTree env tree).trees tree).root ∧
      ((self.fixTree (env.reordered order) tree).trees tree).parentCost =
        ((self.fixTree env tree).trees tree).parentCost := by
  rw [tree_fixTree, tree_fixTree]
  rcases chosen_reordered env self order tree with
    ⟨first, second⟩ | ⟨candidate, other, first, second, root, cost⟩
  · rw [first, second]
    exact ⟨rfl, rfl⟩
  · rw [first, second]
    exact ⟨root.symm, cost.symm⟩

end Order

/--
`fix_tree` takes the least root there is, through a parent that is at most a
margin dearer than the cheapest, whatever the order of the peer map.
-/
theorem fixTree_takes_least_root_in_any_order (tree : Fin treeCount) :
    LeastChoice env self tree ((self.fixTree env tree).trees tree) ∧
      ∀ order,
        ((self.fixTree (env.reordered order) tree).trees tree).root =
            ((self.fixTree env tree).trees tree).root ∧
          ((self.fixTree (env.reordered order) tree).trees tree).parentCost =
            ((self.fixTree env tree).trees tree).parentCost :=
  ⟨leastChoice_fixTree env self tree,
    fun order => fixTree_reordered env self order tree⟩

end ControlState

end Norn.Control
