/-
**The ledger of slots.**

The one shared value behind the allocation of slots: which tenants hold a slot and how many
references each has, which slots have been given back, and from where on no slot has ever been used.
It is only ever loaded and saved as a whole, and its version counts the saves.

Main definitions:

* `Tenancy.Lease` — what a tenant holds;
* `Tenancy.Ledger` — **the ledger**;
* `Tenancy.Ledger.empty` — the ledger of no tenant;
* `Tenancy.Ledger.lease?`, `Tenancy.Ledger.size` — what a tenant holds, and how many hold something;
* `Tenancy.Ledger.put`, `Tenancy.Ledger.drop` — a changed lease, and a lease that ends.

Main results:

* `Tenancy.Ledger.lease?_put`, `Tenancy.Ledger.lease?_drop` — **changing one lease leaves the others
  alone**.
-/

import Std.Data.ExtTreeMap
import Std.Data.ExtTreeSet
import Tenancy.Cache.MuxId

set_option relaxedAutoImplicit false
set_option autoImplicit false

namespace Tenancy

/-- What a tenant holds: a slot, and as many references to it as it has caches started. -/
structure Lease where
  references : UInt32
  slot : Slot
deriving DecidableEq, Repr

/-- **The state of the allocation of slots.** -/
structure Ledger where
  /-- No slot from here on has been used. -/
  nextSlot : Slot
  /-- The tenants that hold a slot. -/
  leases : Std.ExtTreeMap String Lease
  /-- The slots given back and not yet handed out again. -/
  released : Std.ExtTreeSet UInt16
  /-- How many changes have been saved. -/
  version : UInt64
deriving DecidableEq

namespace Ledger

/-- The ledger of no tenant, whose first slot will be `first`. -/
def empty (first : Slot) : Ledger := ⟨first, ∅, ∅, 0⟩

/-- What a tenant holds. -/
def lease? (l : Ledger) (tenant : String) : Option Lease := l.leases[tenant]?

/-- How many tenants hold a slot. -/
def size (l : Ledger) : Nat := l.leases.size

/-- The ledger with the tenant's lease set. -/
def put (l : Ledger) (tenant : String) (lease : Lease) : Ledger :=
  { l with leases := l.leases.insert tenant lease }

/-- The ledger without the tenant's lease, and with the lease's slot given back. -/
def drop (l : Ledger) (tenant : String) (slot : Slot) : Ledger :=
  { l with leases := l.leases.erase tenant, released := l.released.insert slot }

@[simp] theorem lease?_empty (first : Slot) (tenant : String) :
    (empty first).lease? tenant = none := by
  simp [lease?, empty]

/-- Setting one lease leaves the others alone. -/
theorem lease?_put (l : Ledger) (tenant : String) (lease : Lease) (other : String) :
    (l.put tenant lease).lease? other = if tenant = other then some lease else l.lease? other := by
  simp only [lease?, put, Std.ExtTreeMap.getElem?_insert, Std.LawfulEqCmp.compare_eq_iff_eq]

/-- Ending one lease leaves the others alone. -/
theorem lease?_drop (l : Ledger) (tenant : String) (slot : Slot) (other : String) :
    (l.drop tenant slot).lease? other = if tenant = other then none else l.lease? other := by
  simp only [lease?, drop, Std.ExtTreeMap.getElem?_erase, Std.LawfulEqCmp.compare_eq_iff_eq]

/-- The slot of a lease that ends is given back, next to those given back before. -/
theorem mem_released_drop (l : Ledger) (tenant : String) (slot s : Slot) :
    s ∈ (l.drop tenant slot).released ↔ slot = s ∨ s ∈ l.released := by
  simp [drop, Std.ExtTreeSet.mem_insert]

end Ledger

end Tenancy
