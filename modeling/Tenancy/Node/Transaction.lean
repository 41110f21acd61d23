/-
**Transactions on the ledger.**

A node serves every request in one transaction: it takes the lock on the ledger's key, loads the
ledger, has the request served on the loaded copy, saves the copy if it was changed, and gives the
lock back.  A copy that cannot be saved is thrown away, so that the stored ledger is either the
changed one or the one before.  The steps are definitions of their own, because the steps of several
nodes may interleave.

Main definitions:

* `Tenancy.Backend` — what the nodes of a cluster share: the lock table and the store;
* `Tenancy.Outcome` — how a transaction ended;
* `Tenancy.Settings.load`, `Tenancy.Settings.settle` — loading the ledger; serving the request on
  the loaded copy and saving it;
* `Tenancy.Settings.transact` — **the whole transaction**.

Main results:

* `Tenancy.Settings.locks_transact` — **after a transaction the same resources are held as before**,
  however it ended.
-/

import Tenancy.Ledger.Request
import Tenancy.Lock
import Tenancy.Node.Settings
import Tenancy.Store.Faulty

set_option relaxedAutoImplicit false
set_option autoImplicit false

namespace Tenancy

/-- **What the nodes of a cluster share.** -/
structure Backend where
  locks : LockTable
  store : FaultyStore
deriving DecidableEq

/-- How a transaction ended. -/
inductive Outcome (α : Type) where
  /-- It was answered, and there was nothing to save. -/
  | answered (answer : α)
  /-- It was answered, and the changed ledger was saved. -/
  | committed (answer : α) (ledger : Ledger)
  /-- It failed, and nothing had been changed. -/
  | refused (failure : Failure)
  /-- It failed, and a changed copy was thrown away. -/
  | rolledBack (failure : Failure)
deriving DecidableEq

/-- What the caller gets to know of an outcome. -/
def Outcome.result {α : Type} : Outcome α → Except Failure α
  | .answered answer => .ok answer
  | .committed answer _ => .ok answer
  | .refused failure => .error failure
  | .rolledBack failure => .error failure

namespace Settings

/-- Loads the ledger.  Where there is none yet, it starts empty at the node's first slot. -/
def load (s : Settings) (store : FaultyStore) : Except Failure Ledger × FaultyStore :=
  match store.load s.key with
  | (.ok (some ledger), store) => (.ok ledger, store)
  | (.ok none, store) => (.ok (.empty s.slots.first), store)
  | (.error fault, store) => (.error (.transactionFailed (.load s.key fault)), store)

/-- Serves a request on the loaded ledger, and saves the changed copy if there is one. -/
def settle (s : Settings) (loaded : Ledger) (r : Request) (store : FaultyStore) :
    Outcome r.Answer × FaultyStore :=
  match loaded.serve s.slots r with
  | .error failure => (.refused failure, store)
  | .ok (answer, none) => (.answered answer, store)
  | .ok (answer, some changed) =>
      match store.save s.key (changed.advance loaded) with
      | (.ok (), store) => (.committed answer (changed.advance loaded), store)
      | (.error fault, store) => (.rolledBack (.transactionFailed (.save s.key fault)), store)

/-- What a transaction does to the store while it holds the lock. -/
def loadAndSettle (s : Settings) (r : Request) (store : FaultyStore) :
    Outcome r.Answer × FaultyStore :=
  match s.load store with
  | (.ok ledger, store) => s.settle ledger r store
  | (.error failure, store) => (.refused failure, store)

/-- **Serves a request in a transaction.** -/
def transact (s : Settings) (r : Request) (b : Backend) : Outcome r.Answer × Backend :=
  match b.locks.acquire s.key s.lockTimeout with
  | .error failure => (.refused failure, b)
  | .ok locks =>
      let (outcome, store) := s.loadAndSettle r b.store
      (outcome, ⟨locks.release s.key, store⟩)

/-- A held key refuses every request after the node's timeout, and nothing is touched. -/
theorem transact_of_held {s : Settings} {b : Backend} (h : s.key ∈ b.locks.held) (r : Request) :
    s.transact r b = (.refused (.lockUnavailable s.key s.lockTimeout), b) := by
  simp [transact, LockTable.acquire_of_mem h]

/-- With the key free, a transaction is what it does to the store. -/
theorem transact_of_free {s : Settings} {b : Backend} (h : s.key ∉ b.locks.held) (r : Request) :
    s.transact r b =
      ((s.loadAndSettle r b.store).1, ⟨b.locks, (s.loadAndSettle r b.store).2⟩) := by
  have ha := LockTable.acquire_of_not_mem h s.lockTimeout
  simp only [transact, ha, LockTable.release_acquire ha]

/-- **After a transaction the same resources are held as before.** -/
@[simp] theorem locks_transact (s : Settings) (r : Request) (b : Backend) :
    (s.transact r b).2.locks = b.locks := by
  by_cases h : s.key ∈ b.locks.held
  · rw [transact_of_held h]
  · rw [transact_of_free h]

end Settings

end Tenancy
