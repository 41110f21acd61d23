/-
**Requests to the ledger.**

What nodes ask of a ledger, and how a ledger answers.  A first start takes a slot for the tenant,
any other adds a reference; a stop drops a reference, and with the last one the slot is given back.
The other requests only read.  A request that changes nothing asks for nothing to be saved.

Main definitions:

* `Tenancy.Release` — what became of a reference that was dropped;
* `Tenancy.Ledger.start`, `Tenancy.Ledger.stop` — **a reference more, and a reference less**;
* `Tenancy.Request`, `Tenancy.Request.Answer` — the requests, and what each is answered with;
* `Tenancy.Ledger.serve` — **the answer to a request**, and the changed ledger if there is one.

Main results:

* `Tenancy.Ledger.lease?_start`, `Tenancy.Ledger.lease?_start_of_ne` — after a start the tenant
  holds the lease that was answered, and every other tenant what it held before;
* `Tenancy.Ledger.stop_of_none` — a stop of a tenant without a lease changes nothing.
-/

import Tenancy.Ledger.Slots

set_option relaxedAutoImplicit false
set_option autoImplicit false

namespace Tenancy

/-- What became of a reference that was to be dropped. -/
inductive Release where
  /-- Other references to the slot remain. -/
  | decremented (slot : Slot) (remaining : UInt32)
  /-- It was the last one, and the slot is given back. -/
  | released (slot : Slot)
  /-- The tenant had none. -/
  | notAllocated
deriving DecidableEq, Repr

/-- The references that remain. -/
def Release.remaining : Release → UInt32
  | .decremented _ remaining => remaining
  | .released _ => 0
  | .notAllocated => 0

/-- A request to the ledger. -/
inductive Request where
  /-- Add a reference for a tenant. -/
  | start (tenant : String)
  /-- Find the slot of a tenant. -/
  | get (tenant : String)
  /-- Drop a reference of a tenant. -/
  | stop (tenant : String)
  /-- Read what a tenant holds. -/
  | lease (tenant : String)
  /-- Read the whole ledger. -/
  | ledger
deriving DecidableEq, Repr

/-- **What a request is answered with**: a start with the lease as it then is, a look-up with the
slot, a stop with what became of the reference, and a reading with what was read. -/
@[reducible] def Request.Answer : Request → Type
  | .start _ => Lease
  | .get _ => Slot
  | .stop _ => Release
  | .lease _ => Option Lease
  | .ledger => Ledger

instance : (r : Request) → DecidableEq r.Answer
  | .start _ => inferInstanceAs (DecidableEq Lease)
  | .get _ => inferInstanceAs (DecidableEq Slot)
  | .stop _ => inferInstanceAs (DecidableEq Release)
  | .lease _ => inferInstanceAs (DecidableEq (Option Lease))
  | .ledger => inferInstanceAs (DecidableEq Ledger)

namespace Ledger

/-! ### References -/

/-- **Adds a reference for a tenant**, taking a slot for it if it has none. -/
def start (l : Ledger) (p : SlotPolicy) (tenant : String) : Except Failure (Lease × Ledger) :=
  match l.lease? tenant with
  | some lease =>
      if lease.references.toNat + 1 < UInt32.size then
        let lease := { lease with references := lease.references + 1 }
        .ok (lease, l.put tenant lease)
      else .error (.internal s!"reference count overflow for {tenant}")
  | none =>
      match l.takeSlot? p with
      | some (slot, l) => .ok (⟨1, slot⟩, l.put tenant ⟨1, slot⟩)
      | none => .error (.slotsExhausted p.last)

/-- **Drops a reference of a tenant**, giving its slot back if no other remains. -/
def stop (l : Ledger) (tenant : String) : Release × Ledger :=
  match l.lease? tenant with
  | none => (.notAllocated, l)
  | some lease =>
      if 1 < lease.references then
        let remaining := lease.references - 1
        (.decremented lease.slot remaining, l.put tenant { lease with references := remaining })
      else (.released lease.slot, l.drop tenant lease.slot)

/-! ### Serving requests -/

/-- **The answer to a request**, and the changed ledger if the request changes it. -/
def serve (l : Ledger) (p : SlotPolicy) :
    (r : Request) → Except Failure (r.Answer × Option Ledger)
  | .start tenant => (l.start p tenant).map fun (lease, changed) => (lease, some changed)
  | .get tenant =>
      match l.lease? tenant with
      | some lease => .ok (lease.slot, none)
      | none => .error (.tenantNotAllocated tenant)
  | .stop tenant =>
      match l.stop tenant with
      | (.notAllocated, _) => .ok (.notAllocated, none)
      | (release, changed) => .ok (release, some changed)
  | .lease tenant => .ok (l.lease? tenant, none)
  | .ledger => .ok (l, none)

/-- The ledger as it is saved after a change of `before`: its version is one higher. -/
def advance (changed before : Ledger) : Ledger := { changed with version := before.version + 1 }

@[simp] theorem lease?_advance (changed before : Ledger) (tenant : String) :
    (changed.advance before).lease? tenant = changed.lease? tenant := rfl

/-! ### What a start and a stop change -/

/-- A successful start in its two forms. -/
theorem start_eq_ok {l l' : Ledger} {p : SlotPolicy} {tenant : String} {lease : Lease}
    (h : l.start p tenant = .ok (lease, l')) :
    (∃ old, l.lease? tenant = some old ∧ old.references.toNat + 1 < UInt32.size ∧
      lease = { old with references := old.references + 1 } ∧ l' = l.put tenant lease) ∨
    (∃ slot m, l.lease? tenant = none ∧ l.takeSlot? p = some (slot, m) ∧ lease = ⟨1, slot⟩ ∧
      l' = m.put tenant lease) := by
  simp only [start] at h
  split at h
  · rename_i old ho
    split at h
    · rename_i hr
      cases h
      exact .inl ⟨old, ho, hr, rfl, rfl⟩
    · cases h
  · rename_i ho
    split at h
    · rename_i slot m hm
      cases h
      exact .inr ⟨slot, m, ho, hm, rfl, rfl⟩
    · cases h

/-- After a start the tenant holds the lease that was answered. -/
theorem lease?_start {l l' : Ledger} {p : SlotPolicy} {tenant : String} {lease : Lease}
    (h : l.start p tenant = .ok (lease, l')) : l'.lease? tenant = some lease := by
  rcases start_eq_ok h with ⟨_, _, _, _, rfl⟩ | ⟨_, _, _, _, _, rfl⟩ <;> simp [lease?_put]

/-- A start leaves the other tenants alone. -/
theorem lease?_start_of_ne {l l' : Ledger} {p : SlotPolicy} {tenant other : String} {lease : Lease}
    (h : l.start p tenant = .ok (lease, l')) (hne : tenant ≠ other) :
    l'.lease? other = l.lease? other := by
  rcases start_eq_ok h with ⟨_, _, _, _, rfl⟩ | ⟨_, m, _, hm, _, rfl⟩
  · simp [lease?_put, hne]
  · rw [lease?_put, if_neg hne, lease?, lease?, leases_takeSlot? hm]

/-- A stop of a tenant without a lease changes nothing. -/
theorem stop_of_none {l : Ledger} {tenant : String} (h : l.lease? tenant = none) :
    l.stop tenant = (.notAllocated, l) := by
  simp [stop, h]

/-- A stop leaves the other tenants alone. -/
theorem lease?_stop_of_ne (l : Ledger) {tenant other : String} (hne : tenant ≠ other) :
    (l.stop tenant).2.lease? other = l.lease? other := by
  simp only [stop]
  split
  · rfl
  · split
    · simp [lease?_put, hne]
    · simp [lease?_drop, hne]

end Ledger

end Tenancy
