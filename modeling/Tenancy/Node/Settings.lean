/-
**Settings of a node.**

Under which key a node finds the ledger, how long it waits for the lock, how many indexed caches
share the group channel, and which slots it hands out.  Settings are valid together with a table of
kinds when they name a key, allow some time, begin a non-empty range of slots at one or above, and
the table verifies over that range.

Main definitions:

* `Tenancy.Settings` — **the settings**;
* `Tenancy.Settings.standard` — the settings of every deployment;
* `Tenancy.Settings.validate` — **the check of settings and a table**.
-/

import Tenancy.Cache.Table
import Tenancy.Ledger.Slots

set_option relaxedAutoImplicit false
set_option autoImplicit false

namespace Tenancy

/-- **How a node allocates slots.** -/
structure Settings where
  /-- The key of the ledger, which is also the resource that is locked. -/
  key : String
  /-- How long to wait for the lock. -/
  lockTimeout : Duration
  /-- How many indexed caches share the group channel. -/
  indexedCaches : UInt16
  /-- The slots that are handed out. -/
  slots : SlotPolicy
deriving DecidableEq, Repr

namespace Settings

/-- The settings of every deployment.  Slots start at two, because at slot one the standard table
gives two kinds the same mux id. -/
def standard : Settings where
  key := "__mux_id_generator__"
  lockTimeout := .ofSeconds 10
  indexedCaches := 4
  slots := ⟨2, 1000, .whenExhausted⟩

/-- **Checks the settings**, and the table over the range of slots; the first fault found is the
failure. -/
def validate (s : Settings) (table : Cache.Table) : Except Failure Unit :=
  if s.key = "" then .error (.config .emptyKey)
  else if s.lockTimeout.isZero then .error (.config .zeroTimeout)
  else if s.slots.first = 0 then .error (.config .zeroFirst)
  else if s.slots.last < s.slots.first then
    .error (.config (.reversedRange s.slots.first s.slots.last))
  else table.verify s.slots.first s.slots.last s.indexedCaches

end Settings

end Tenancy
