import Norn.Onion.Handlers

/-!
# The two containers of the replay cache

The router keeps the digests it has seen twice: `onion_seen` is a queue from
which the oldest digest leaves, `onion_seen_set` answers whether a digest is
there.  `onion_digest_seen` changes both, and between calls both hold what the
cache of recent keys holds: the last digests that were new.
-/

namespace Norn.Onion

open Foundation RecentKeys

/-- `onion_seen` and `onion_seen_set`. -/
structure SeenDigests where
  onionSeen : List (Bytes 32)
  onionSeenSet : Finset (Bytes 32)

namespace SeenDigests

/-- The containers of `RouterState::new`. -/
def new : SeenDigests where
  onionSeen := []
  onionSeenSet := ∅

/-- The oldest digest leaves both containers. -/
def popFront (self : SeenDigests) : SeenDigests := match self.onionSeen with
  | [] => self
  | evicted :: rest =>
    { onionSeen := rest
      onionSeenSet := self.onionSeenSet.erase evicted }

/-- `onion_digest_seen`. -/
def onionDigestSeen (self : SeenDigests) (digest : Bytes 32) :
    Bool × SeenDigests :=
  if digest ∈ self.onionSeenSet then
    (true, self)
  else
    let noted :=
      { self with onionSeenSet := insert digest self.onionSeenSet }
    let roomy :=
      if onionReplayCacheSize ≤ noted.onionSeen.length then noted.popFront
      else noted
    (false, { roomy with onionSeen := roomy.onionSeen ++ [digest] })

/-- Both containers hold the keys of a cache. -/
structure Mirrors (digests : SeenDigests) (cache : ReplayCache) : Prop where
  onionSeen : digests.onionSeen = cache.keys
  onionSeenSet : digests.onionSeenSet = cache.keys.toFinset

theorem mirrors_new :
    Mirrors new (RecentKeys.empty onionReplayCacheSize_pos) where
  onionSeen := rfl
  onionSeenSet := rfl

variable {self : SeenDigests} {cache : ReplayCache}

theorem Mirrors.mem_iff (mirrors : Mirrors self cache) (digest : Bytes 32) :
    digest ∈ self.onionSeenSet ↔ digest ∈ cache.keys := by
  rw [mirrors.onionSeenSet, List.mem_toFinset]

/-- A new digest has taken the place of the oldest one. -/
theorem Mirrors.popFront (mirrors : Mirrors self cache)
    {digest : Bytes 32} (fresh : digest ∉ cache.keys) :
    let popped :=
      ({ self with
        onionSeenSet := insert digest self.onionSeenSet }).popFront
    popped.onionSeen = cache.keys.tail ∧
      popped.onionSeenSet = insert digest cache.keys.tail.toFinset := by
  have distinct := cache.distinct
  unfold SeenDigests.popFront
  rw [mirrors.onionSeen, mirrors.onionSeenSet]
  cases content : cache.keys with
  | nil => exact ⟨rfl, rfl⟩
  | cons oldest rest =>
    rw [content] at distinct fresh
    have other : digest ≠ oldest := by
      rintro rfl
      exact fresh List.mem_cons_self
    have gone : oldest ∉ rest.toFinset := by
      rw [List.mem_toFinset]
      exact (List.nodup_cons.mp distinct).1
    refine ⟨rfl, ?_⟩
    change (insert digest (oldest :: rest).toFinset).erase oldest = _
    rw [List.toFinset_cons, Finset.erase_insert_of_ne other,
      Finset.erase_insert gone]
    rfl

/-- A call does to the containers what it does to the cache. -/
theorem Mirrors.onionDigestSeen (mirrors : Mirrors self cache)
    (digest : Bytes 32) :
    (self.onionDigestSeen digest).1 = (cache.seen digest).1 ∧
      Mirrors (self.onionDigestSeen digest).2 (cache.seen digest).2 := by
  by_cases member : digest ∈ cache.keys
  · rw [seen_of_mem member, SeenDigests.onionDigestSeen,
      if_pos ((mirrors.mem_iff digest).mpr member)]
    exact ⟨rfl, mirrors⟩
  · rw [seen_of_fresh member, SeenDigests.onionDigestSeen,
      if_neg (mt (mirrors.mem_iff digest).mp member)]
    refine ⟨rfl, ?_⟩
    have popped := mirrors.popFront member
    have length := congrArg List.length mirrors.onionSeen
    by_cases full : onionReplayCacheSize ≤ cache.keys.length
    · constructor
      · simp only [length, full, if_true, popped.1, RecentKeys.record,
          RecentKeys.kept]
      · simp only [length, full, if_true, popped.2, RecentKeys.record,
          RecentKeys.kept, List.toFinset_append, List.toFinset_cons,
          List.toFinset_nil, insert_empty_eq, Finset.union_singleton]
    · constructor
      · simp only [full, if_false, mirrors.onionSeen, RecentKeys.record,
          RecentKeys.kept]
      · simp only [length, full, if_false, mirrors.onionSeenSet,
          RecentKeys.record, RecentKeys.kept, List.toFinset_append,
          List.toFinset_cons, List.toFinset_nil, insert_empty_eq,
          Finset.union_singleton]

/-- A call, and the digests for which calls returned false, newest first. -/
def call (history : SeenDigests × List (Bytes 32)) (digest : Bytes 32) :
    SeenDigests × List (Bytes 32) :=
  let answer := history.1.onionDigestSeen digest
  (answer.2, if answer.1 then history.2 else digest :: history.2)

/-- What calls for the given digests leave behind. -/
def afterCalls (digests : List (Bytes 32)) : SeenDigests × List (Bytes 32) :=
  digests.foldl call (new, [])

/-- The containers mirror a cache of the last digests that were new. -/
def Remembers (history : SeenDigests × List (Bytes 32)) : Prop :=
  ∃ cache, Mirrors history.1 cache ∧
    cache.newest = history.2.take onionReplayCacheSize

theorem remembers_call {history : SeenDigests × List (Bytes 32)}
    (remembers : Remembers history) (digest : Bytes 32) :
    Remembers (call history digest) := by
  rcases remembers with ⟨cache, mirrors, newest⟩
  have called := mirrors.onionDigestSeen digest
  refine ⟨(cache.seen digest).2, called.2, ?_⟩
  simp only [call, called.1]
  by_cases member : digest ∈ cache.keys
  · rw [seen_of_mem member]
    exact newest
  · rw [seen_of_fresh member, newest_record, newest,
      take_cons_take]
    rfl

theorem remembers_afterCalls (digests : List (Bytes 32)) :
    Remembers (afterCalls digests) := by
  have fold :
      ∀ history, Remembers history →
        Remembers (digests.foldl call history) := by
    induction digests with
    | nil => exact fun _ remembers => remembers
    | cons digest digests induction =>
      exact fun history remembers =>
        induction (call history digest) (remembers_call remembers digest)
  exact fold _ ⟨_, mirrors_new, rfl⟩

/--
Whatever calls have been made, the two containers hold the same digests, each
of them once and no more than the capacity, and the next call returns true
just for the last digests for which a call returned false.
-/
theorem replay_cache_remembers (digests : List (Bytes 32)) (digest : Bytes 32) :
    (afterCalls digests).1.onionSeen.Nodup ∧
      (∀ other, other ∈ (afterCalls digests).1.onionSeen ↔
        other ∈ (afterCalls digests).1.onionSeenSet) ∧
      (afterCalls digests).1.onionSeen.length ≤ onionReplayCacheSize ∧
      (afterCalls digests).1.onionSeenSet.card ≤ onionReplayCacheSize ∧
      (((afterCalls digests).1.onionDigestSeen digest).1 = true ↔
        digest ∈ (afterCalls digests).2.take onionReplayCacheSize) := by
  rcases remembers_afterCalls digests with ⟨cache, mirrors, newest⟩
  rw [mirrors.onionSeen, (mirrors.onionDigestSeen digest).1, ← newest,
    mem_newest]
  refine ⟨cache.distinct, ?_, cache.bounded, ?_, ?_⟩
  · exact fun other => (mirrors.mem_iff other).symm
  · rw [mirrors.onionSeenSet]
    exact (List.toFinset_card_le _).trans cache.bounded
  · by_cases member : digest ∈ cache.keys
    · simp [seen_of_mem member, member]
    · simp [seen_of_fresh member, member]

end SeenDigests

end Norn.Onion
