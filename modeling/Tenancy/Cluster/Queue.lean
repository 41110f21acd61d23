/-
**Calls that queue up at a lock.**

While a host holds the lock on a node's key, calls to nodes of that key wait for it, and when it is
dropped they are served in the order in which they came.  Calls to nodes of another key do not wait,
nor does a node whose timeout is zero: these are served, or refused, while the lock is held.

Main definitions:

* `Tenancy.Cluster.Call`, `Tenancy.Cluster.Served` — a request to a node, and a request with its
  answer;
* `Tenancy.Cluster.waits` — whether a call waits for a key;
* `Tenancy.Cluster.serveUnlessWaiting`, `Tenancy.Cluster.serveWaiting` — serving the calls that do
  not wait, then those that do;
* `Tenancy.Cluster.queue` — **the answers of calls made while a key is held**, in the order of the
  calls.
-/

import Tenancy.Cluster.Basic

set_option relaxedAutoImplicit false
set_option autoImplicit false

namespace Tenancy.Cluster

variable {n : Nat}

/-- A request to one of the nodes. -/
structure Call (n : Nat) where
  node : Fin n
  request : Request
deriving DecidableEq

/-- A request with its answer. -/
abbrev Served := (r : Request) × Except Failure r.Answer

/-- Serves one call. -/
def serve (c : Cluster n) (call : Call n) : Served × Cluster n :=
  let (answer, c) := c.call call.node call.request
  (⟨call.request, answer⟩, c)

/-- Whether a call waits while `key` is held. -/
def waits (c : Cluster n) (key : String) (call : Call n) : Bool :=
  let settings := (c.node call.node).settings
  settings.key == key && !settings.lockTimeout.isZero

/-- Serves the calls that do not wait for `key`, in order, and leaves the others as they are. -/
def serveUnlessWaiting (key : String) (c : Cluster n) :
    List (Call n) → List (Served ⊕ Call n) × Cluster n
  | [] => ([], c)
  | call :: calls =>
      if c.waits key call then
        let (others, c) := serveUnlessWaiting key c calls
        (.inr call :: others, c)
      else
        let (served, c) := c.serve call
        let (others, c) := serveUnlessWaiting key c calls
        (.inl served :: others, c)

/-- Serves the calls that have been waiting, in order. -/
def serveWaiting (c : Cluster n) : List (Served ⊕ Call n) → List Served × Cluster n
  | [] => ([], c)
  | .inl served :: calls =>
      let (others, c) := c.serveWaiting calls
      (served :: others, c)
  | .inr call :: calls =>
      let (served, c) := c.serve call
      let (others, c) := c.serveWaiting calls
      (served :: others, c)

/-- How long a host waits for the lock at which calls are to queue up. -/
def queueTimeout : Duration := .ofMicroseconds 100

/-- **Takes the lock on a node's key, lets calls queue up, and drops the lock.**  The answers come
in the order of the calls. -/
def queue (c : Cluster n) (i : Fin n) (calls : List (Call n)) :
    Except Failure (List Served) × Cluster n :=
  let key := (c.node i).settings.key
  match c.backend.locks.acquire key queueTimeout with
  | .error failure => (.error failure, c)
  | .ok locks =>
      let (pending, c) := serveUnlessWaiting key (c.withLocks locks) calls
      let (answers, c) := (c.withLocks (c.backend.locks.release key)).serveWaiting pending
      (.ok answers, c)

/-- Every call is answered. -/
theorem length_serveWaiting (c : Cluster n) (calls : List (Served ⊕ Call n)) :
    (c.serveWaiting calls).1.length = calls.length := by
  induction calls generalizing c with
  | nil => rfl
  | cons call calls ih =>
      cases call with
      | inl served => simp [serveWaiting, ih]
      | inr call => simp [serveWaiting, ih]

end Tenancy.Cluster
