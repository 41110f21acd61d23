/-
**What a node counts.**

Every node counts its own successful calls, the slots it handed out and took back, the changes it
had to throw away, the references it could not give back, and its failed calls by their label; and
it keeps the number of tenants as of its last commit.  Only starts, look-ups and stops are counted;
readings of a lease or of the ledger leave no trace.

Main definitions:

* `Tenancy.Counters` — **the counts**;
* `Tenancy.Counters.noteAnswer`, `Tenancy.Counters.noteFailure` — a call that succeeded, and one
  that failed;
* `Tenancy.Counters.note` — **the counts after a transaction**.
-/

import Tenancy.Metrics
import Tenancy.Node.Transaction

set_option relaxedAutoImplicit false
set_option autoImplicit false

namespace Tenancy

/-- **The counts of a node.** -/
structure Counters where
  starts : Nat
  stops : Nat
  lookups : Nat
  /-- First references handed out. -/
  allocations : Nat
  /-- Slots given back. -/
  releases : Nat
  /-- Changed copies thrown away. -/
  rollbacks : Nat
  /-- References taken for a cache that could not be given back. -/
  leakedReferences : Nat
  /-- Tenants with a slot as of the last commit. -/
  activeTenants : Metrics.Gauge
  /-- Failed calls by label. -/
  errors : Metrics.Tally
deriving DecidableEq

/-- Whether a request is counted: readings are not. -/
def Request.isCounted : Request → Bool
  | .start _ | .get _ | .stop _ => true
  | .lease _ | .ledger => false

namespace Counters

/-- The counts of a node that has done nothing. -/
def zero : Counters := ⟨0, 0, 0, 0, 0, 0, 0, .new, .empty⟩

/-- Counts a call that succeeded. -/
def noteAnswer (c : Counters) : (r : Request) → r.Answer → Counters
  | .start _, lease =>
      { c with
        starts := c.starts + 1
        allocations := c.allocations + if lease.references = 1 then 1 else 0 }
  | .get _, _ => { c with lookups := c.lookups + 1 }
  | .stop _, .released _ => { c with stops := c.stops + 1, releases := c.releases + 1 }
  | .stop _, .decremented _ _ => { c with stops := c.stops + 1 }
  | .stop _, .notAllocated => { c with stops := c.stops + 1 }
  | .lease _, _ => c
  | .ledger, _ => c

/-- Counts a call that failed. -/
def noteFailure (c : Counters) (r : Request) (failure : Failure) : Counters :=
  if r.isCounted then { c with errors := c.errors.inc failure.label } else c

/-- **The counts after a transaction.** -/
def note (c : Counters) (r : Request) : Outcome r.Answer → Counters
  | .answered answer => c.noteAnswer r answer
  | .committed answer ledger =>
      { c.noteAnswer r answer with activeTenants := c.activeTenants.set ledger.size }
  | .refused failure => c.noteFailure r failure
  | .rolledBack failure => { c.noteFailure r failure with rollbacks := c.rollbacks + 1 }

/-- Counts a reference that could not be given back. -/
def noteLeak (c : Counters) : Counters := { c with leakedReferences := c.leakedReferences + 1 }

end Counters

end Tenancy
