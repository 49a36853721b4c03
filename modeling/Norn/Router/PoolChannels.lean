import Norn.Router.Dispatch

/-!
# The channels of the crypto pool

Each worker has a channel, and `try_submit` hashes a destination to one of
them.  The lemmas say what one call does to the channels.
-/

namespace Norn.Router

open Foundation Session

namespace CryptoPool

/-- The pool with another state of one channel. -/
def withQueue (self : CryptoPool) (idx : Nat) (queue : CryptoQueue) :
    CryptoPool where
  senders := self.senders.set idx queue

section Channels

variable {pool after : CryptoPool} {idx : Nat}
variable {queue next : CryptoQueue} {payload : List UInt8}
variable {dst : Bytes 32} {job : CryptoJob}

theorem trySubmit_eq_true
    (accepted : pool.trySubmit payload dst = (true, after)) :
    ∃ queue, pool.senders[pool.index dst]? = some queue ∧
      queue.closed = false ∧
        after =
          pool.withQueue (pool.index dst)
            { queue with jobs := queue.jobs ++ [⟨payload, dst⟩] } := by
  unfold trySubmit at accepted
  split at accepted
  · cases accepted
  · split at accepted
    · cases accepted
    · rename_i queue found
      split at accepted <;> cases accepted
      rename_i room
      exact ⟨queue, found, eq_false_of_ne_true fun shut =>
        room (Or.inl shut), rfl⟩

theorem receive_eq_some (taken : pool.receive idx = some (job, after)) :
    ∃ queue jobs, pool.senders[idx]? = some queue ∧
      queue.jobs = job :: jobs ∧
        after = pool.withQueue idx { queue with jobs } := by
  unfold receive at taken
  split at taken
  · cases taken
  · rename_i queue found
    split at taken <;> cases taken
    rename_i jobs shape
    exact ⟨queue, jobs, found, shape, rfl⟩

theorem close_of_found (found : pool.senders[idx]? = some queue) :
    pool.close idx =
      pool.withQueue idx { queue with jobs := [], closed := true } := by
  rcases List.getElem?_eq_some_iff.mp found with ⟨inside, content⟩
  rw [close, withQueue, List.modify_eq_set_get _ inside, List.get_eq_getElem,
    content]

theorem close_of_absent (absent : pool.senders[idx]? = none) :
    pool.close idx = pool := by
  rw [close, List.modify_eq_self (List.getElem?_eq_none_iff.mp absent)]

end Channels

end CryptoPool

end Norn.Router
