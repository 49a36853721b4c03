import Norn.Control.Machine

/-!
# Filters that arrive out of order

A peer numbers the filters it sends for a tree by their generation.  Over
parallel links they can overtake each other, and `handle_cuckoo` compares the
generation of each with the highest one before it: a newer filter takes the
place of the stored one.  The other branch is meant for the same generation,
but it is also taken for an older one, and it replaces the filter as well.
So the stored filter is always the one that came last, and it is the newest
one only as long as no older filter with another content comes late.
-/

namespace Norn.Control

open Foundation Foundation.Run Packet Router Session

variable {P : Primitives} {C : Crates} {L : FilterOps}

/-- A filter from a peer, with the surroundings in which it arrives. -/
abbrev Receipt (L : FilterOps) := ControlEnv L × CuckooMsg L

/--
The most recently received filter among those of the highest generation: none
before it has a higher generation, and all after it have a lower one.
-/
def Newest (receipts : List (Receipt L)) (best : Receipt L) : Prop :=
  ∃ before after,
    receipts = before ++ best :: after ∧
      (∀ receipt ∈ before, receipt.2.generation ≤ best.2.generation) ∧
        ∀ receipt ∈ after, receipt.2.generation < best.2.generation

theorem Newest.concat {receipts : List (Receipt L)}
    {best late : Receipt L} (newest : Newest receipts best)
    (older : late.2.generation < best.2.generation) :
    Newest (receipts ++ [late]) best := by
  rcases newest with ⟨before, after, rfl, notAbove, below⟩
  refine ⟨before, after ++ [late], by simp, notAbove, ?_⟩
  intro receipt member
  rcases List.mem_append.mp member with earlier | last
  · exact below receipt earlier
  · rwa [List.mem_singleton.mp last]

/-- The newest filter came last, or an older one came after it. -/
theorem Newest.cases_last {receipts : List (Receipt L)}
    {best : Receipt L} (newest : Newest receipts best) :
    (∃ front, receipts = front ++ [best]) ∨
      ∃ front late,
        receipts = front ++ [late] ∧ Newest front best ∧
          late.2.generation < best.2.generation := by
  rcases newest with ⟨before, after, rfl, notAbove, below⟩
  rcases List.eq_nil_or_concat after with rfl | ⟨rest, late, rfl⟩
  · exact Or.inl ⟨before, rfl⟩
  · refine Or.inr ⟨before ++ best :: rest, late, by simp, ?_, ?_⟩
    · exact ⟨before, rest, rfl, notAbove, fun receipt member =>
        below receipt (by simp [member])⟩
    · exact below late (by simp)

namespace ControlState

/-- The filter that is stored for a peer in a tree. -/
def storedFilter (self : ControlState P C L) (key : Bytes 32)
    (tree : Fin treeCount) : Option L.Filter :=
  (self.peers.lookup key).map fun peer => peer.cuckoo tree

/-- A filter arrives from a peer. -/
def receiveFilter (key : Bytes 32) (self : ControlState P C L)
    (receipt : Receipt L) : ControlState P C L :=
  self.handleCuckoo receipt.1 key receipt.2

variable {self : ControlState P C L} {key : Bytes 32}

theorem mem_keys_receiveFilter (connected : key ∈ self.peers.keys)
    (receipt : Receipt L) :
    key ∈ (self.receiveFilter key receipt).peers.keys := by
  unfold receiveFilter handleCuckoo
  cases treeIndex receipt.2.treeId with
  | none => exact connected
  | some tree =>
    dsimp only [onPeer]
    rwa [KeyedMap.keys_modify]

theorem storedFilter_receiveFilter (connected : key ∈ self.peers.keys)
    {receipt : Receipt L} {tree : Fin treeCount}
    (known : treeIndex receipt.2.treeId = some tree) :
    (self.receiveFilter key receipt).storedFilter key tree =
      some (L.decode receipt.2.data) := by
  rcases KeyedMap.exists_lookup_of_mem_keys connected with ⟨peer, found⟩
  simp [receiveFilter, handleCuckoo, known, storedFilter, onPeer,
    KeyedMap.lookup_modify_self, found, Peer.setFilter]

/-- The stored filter is the one that came last, whatever its generation. -/
theorem storedFilter_run (connected : key ∈ self.peers.keys)
    (front : List (Receipt L)) {last : Receipt L} {tree : Fin treeCount}
    (known : treeIndex last.2.treeId = some tree) :
    (run (receiveFilter key) self (front ++ [last])).storedFilter key
        tree = some (L.decode last.2.data) := by
  rw [run_append]
  refine storedFilter_receiveFilter ?_ known
  exact @invariant_run_of_forall _ _ (receiveFilter key)
    (fun router => key ∈ router.peers.keys)
    (fun _ receipt member => mem_keys_receiveFilter member receipt) _ _
    connected

/--
Throughout a sequence of filters of a connected peer for one tree, the stored
filter is that of the most recently received message of the highest
generation exactly if no message of an older generation with another content
arrives late.
-/
theorem newest_filter_stored_iff (router : ControlState P C L)
    {sender : Bytes 32} (connected : sender ∈ router.peers.keys)
    {tree : Fin treeCount} {receipts : List (Receipt L)}
    (sameTree : ∀ receipt ∈ receipts, treeIndex receipt.2.treeId = some tree) :
    (∀ front best, front <+: receipts → Newest front best →
      (run (receiveFilter sender) router front).storedFilter sender
          tree = some (L.decode best.2.data)) ↔
      ∀ front late best, front ++ [late] <+: receipts →
        Newest front best →
          late.2.generation < best.2.generation →
            L.decode late.2.data = L.decode best.2.data := by
  have stored {front : List (Receipt L)} {last : Receipt L}
      (start : front ++ [last] <+: receipts) :
      (run (receiveFilter sender) router
          (front ++ [last])).storedFilter sender tree =
        some (L.decode last.2.data) :=
    storedFilter_run connected front (sameTree last (start.subset (by simp)))
  constructor
  · intro always front late best start newest older
    have expected := always _ best start (newest.concat older)
    rw [stored start] at expected
    exact Option.some.inj expected
  · intro harmless front best start newest
    rcases newest.cases_last with ⟨rest, rfl⟩ | ⟨rest, late, rfl, before, older⟩
    · exact stored start
    · rw [stored start, harmless rest late best start before older]

end ControlState

/-- A router with one peer. -/
def filterRouter : SampleRouter :=
  (newRouter rootKey).addPeer (sampleAt 0 0) nearKey

/-- The tree of the filters. -/
def filterTree : Fin treeCount := ⟨0, treeCount_pos⟩

/-- A filter with the same fingerprint in all slots. -/
def fullFilter : Cuckoo.CuckooFilter := .ofBuckets fun _ _ => 1

/-- A filter for the first tree. -/
def filterReceipt (generation : UInt64) (filter : Cuckoo.CuckooFilter) :
    Receipt sampleFilters :=
  (sampleAt 0 0,
    { treeId := 0, generation := generation, data := filter.encode })

theorem fullFilter_ne_new : fullFilter ≠ Cuckoo.CuckooFilter.new := by
  intro same
  have slots := congrArg (fun filter => filter.buckets 0 0) same
  exact absurd slots (by decide)

/-- The second filter is older, and takes the place of the first. -/
theorem older_filter_replaces_newer :
    ¬ ∀ front best,
      front <+: [filterReceipt 2 fullFilter, filterReceipt 1 .new] →
        Newest front best →
          (run (ControlState.receiveFilter nearKey) filterRouter
              front).storedFilter nearKey filterTree =
            some (sampleFilters.decode best.2.data) := by
  intro always
  have expected := always _ (filterReceipt 2 fullFilter) (List.prefix_refl _)
    ⟨[], [filterReceipt 1 .new], rfl, by simp, by decide⟩
  have last := @ControlState.storedFilter_run _ _ _ filterRouter nearKey
    (by decide +kernel) [filterReceipt 2 fullFilter]
    (filterReceipt 1 .new) filterTree rfl
  have same := Option.some.inj (expected.symm.trans last)
  change Cuckoo.CuckooFilter.decode (Cuckoo.CuckooFilter.encode _) =
    Cuckoo.CuckooFilter.decode (Cuckoo.CuckooFilter.encode _) at same
  rw [Cuckoo.CuckooFilter.decode_encode,
    Cuckoo.CuckooFilter.decode_encode] at same
  exact fullFilter_ne_new same

/-- In the order of their generations the newest filter is stored. -/
theorem filters_in_order_stored :
    (run (ControlState.receiveFilter nearKey) filterRouter
        [filterReceipt 1 .new,
          filterReceipt 2 fullFilter]).storedFilter nearKey filterTree =
      some (sampleFilters.decode (filterReceipt 2 fullFilter).2.data) := by
  refine (ControlState.newest_filter_stored_iff filterRouter
    (by decide +kernel) ?_).mpr ?_ _ _ (List.prefix_refl _)
    ⟨[filterReceipt 1 .new], [], rfl, by decide, by simp⟩
  · intro receipt member
    simp only [List.mem_cons, List.not_mem_nil, or_false] at member
    rcases member with rfl | rfl <;> rfl
  · intro front late best start newest older
    have ordered :
        [filterReceipt 1 .new, filterReceipt 2 fullFilter].Pairwise
          fun first second =>
            first.2.generation ≤ second.2.generation := by
      decide
    have kept := List.pairwise_append.mp (ordered.sublist start.sublist)
    rcases newest with ⟨before, after, rfl, _⟩
    have notOlder := kept.2.2 best (by simp) late (by simp)
    exact absurd older (UInt64.not_lt.mpr notOlder)

end Norn.Control
