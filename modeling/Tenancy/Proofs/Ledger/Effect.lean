/-
**What a request does to the leases.**

Slots given back, the next slot and the version set aside, a ledger says what each tenant holds.
Whatever a request is answered with tells what the tenant held and what it holds now, and no request
touches what another tenant holds.

Main definitions:

* `Tenancy.Request.Effect` — **the answers to the requests**, each with what the tenants hold before
  and after it;
* `Tenancy.Counted` — every lease has a reference.

Main results:

* `Tenancy.Ledger.effect_of_serve`, `Tenancy.Ledger.effect_of_serve_eq_error` — **serving a request
  has one of these effects**;
* `Tenancy.Request.Effect.counted` — none of them leaves a lease without a reference.
-/

import Mathlib.Logic.Function.Basic
import Tenancy.Proofs.Ledger.Change

set_option relaxedAutoImplicit false
set_option autoImplicit false

namespace Tenancy

open Function (update)
open Ledger (toNat_add_one toNat_sub_one)

/-! ### The effects -/

/-- **The answers to requests** where the tenants hold `held`, and what they hold afterwards. -/
inductive Request.Effect (held : String → Option Lease) :
    (r : Request) → Except Failure r.Answer → (String → Option Lease) → Prop where
  /-- The lock is not granted. -/
  | locked (r : Request) (key : String) (timeout : Duration) :
      Effect held r (.error (.lockUnavailable key timeout)) held
  /-- The store fails. -/
  | faulted (r : Request) (fault : TransactionFault) :
      Effect held r (.error (.transactionFailed fault)) held
  /-- A first reference, to a slot that is handed out. -/
  | allocated (tenant : String) (slot : Slot) (absent : held tenant = none) :
      Effect held (.start tenant) (.ok ⟨1, slot⟩) (update held tenant (some ⟨1, slot⟩))
  /-- One reference more. -/
  | retained (tenant : String) (lease : Lease) (present : held tenant = some lease)
      (room : lease.references.toNat + 1 < UInt32.size) :
      Effect held (.start tenant) (.ok { lease with references := lease.references + 1 })
        (update held tenant (some { lease with references := lease.references + 1 }))
  /-- No slot is left for a first reference. -/
  | exhausted (tenant : String) (last : Slot) (absent : held tenant = none) :
      Effect held (.start tenant) (.error (.slotsExhausted last)) held
  /-- No further reference can be counted. -/
  | overflowed (tenant : String) (lease : Lease) (present : held tenant = some lease)
      (full : UInt32.size ≤ lease.references.toNat + 1) :
      Effect held (.start tenant) (.error (.internal s!"reference count overflow for {tenant}"))
        held
  /-- The slot of a tenant is found. -/
  | found (tenant : String) (lease : Lease) (present : held tenant = some lease) :
      Effect held (.get tenant) (.ok lease.slot) held
  /-- The tenant has no slot that could be found. -/
  | notFound (tenant : String) (absent : held tenant = none) :
      Effect held (.get tenant) (.error (.tenantNotAllocated tenant)) held
  /-- One reference less, and others remain. -/
  | returned (tenant : String) (lease : Lease) (present : held tenant = some lease)
      (others : 1 < lease.references) :
      Effect held (.stop tenant) (.ok (.decremented lease.slot (lease.references - 1)))
        (update held tenant (some { lease with references := lease.references - 1 }))
  /-- The last reference less. -/
  | released (tenant : String) (lease : Lease) (present : held tenant = some lease)
      (last : ¬ 1 < lease.references) :
      Effect held (.stop tenant) (.ok (.released lease.slot)) (update held tenant none)
  /-- The tenant has no reference that could be dropped. -/
  | notHeld (tenant : String) (absent : held tenant = none) :
      Effect held (.stop tenant) (.ok .notAllocated) held
  /-- What a tenant holds is read. -/
  | read (tenant : String) : Effect held (.lease tenant) (.ok (held tenant)) held
  /-- The whole ledger is read. -/
  | readAll (ledger : Ledger) (same : ledger.lease? = held) :
      Effect held .ledger (.ok ledger) held

/-! ### Serving has an effect -/

namespace Ledger

variable {l : Ledger} {p : SlotPolicy} {r : Request}

theorem lease?_put_eq_update (l : Ledger) (tenant : String) (lease : Lease) :
    (l.put tenant lease).lease? = update l.lease? tenant (some lease) := by
  funext other
  rw [lease?_put, Function.update_apply]
  simp only [eq_comm]

theorem lease?_drop_eq_update (l : Ledger) (tenant : String) (slot : Slot) :
    (l.drop tenant slot).lease? = update l.lease? tenant none := by
  funext other
  rw [lease?_drop, Function.update_apply]
  simp only [eq_comm]

theorem effect_of_start {l' : Ledger} {tenant : String} {lease : Lease}
    (h : l.start p tenant = .ok (lease, l')) :
    Request.Effect l.lease? (.start tenant) (.ok lease) l'.lease? := by
  rcases start_eq_ok h with ⟨old, ho, hr, rfl, rfl⟩ | ⟨slot, m, ho, hm, rfl, rfl⟩
  · rw [lease?_put_eq_update]
    exact .retained tenant old ho hr
  · -- taking the slot has left the leases alone
    have hleases : m.lease? = l.lease? := by
      funext other
      rw [lease?, leases_takeSlot? hm, lease?]
    rw [lease?_put_eq_update, hleases]
    exact .allocated tenant slot ho

/-- **A request that is served has one of the effects.** -/
theorem effect_of_serve {answer : r.Answer} {changed : Option Ledger}
    (h : l.serve p r = .ok (answer, changed)) :
    r.Effect l.lease? (.ok answer) (changed.getD l).lease? := by
  cases r with
  | start tenant =>
      obtain ⟨l', rfl, hstart⟩ := start_of_serve h
      exact effect_of_start hstart
  | get tenant =>
      simp only [serve] at h
      split at h
      · rename_i lease hl
        cases h
        exact .found tenant lease hl
      · cases h
  | stop tenant =>
      simp only [serve, stop] at h
      cases hl : l.lease? tenant with
      | none =>
          simp only [hl] at h
          cases h
          exact .notHeld tenant hl
      | some lease =>
          by_cases ho : 1 < lease.references
          · simp only [hl, if_pos ho] at h
            cases h
            rw [Option.getD_some, lease?_put_eq_update]
            exact .returned tenant lease hl ho
          · simp only [hl, if_neg ho] at h
            cases h
            rw [Option.getD_some, lease?_drop_eq_update]
            exact .released tenant lease hl ho
  | lease tenant =>
      cases h
      exact .read tenant
  | ledger =>
      cases h
      exact .readAll l rfl

/-- **So has a request that is denied.** -/
theorem effect_of_serve_eq_error {failure : Failure} (h : l.serve p r = .error failure) :
    r.Effect l.lease? (.error failure) l.lease? := by
  cases r with
  | start tenant =>
      simp only [serve, start] at h
      cases hl : l.lease? tenant with
      | none =>
          cases ht : l.takeSlot? p with
          | none =>
              simp only [hl, ht] at h
              cases h
              exact .exhausted tenant p.last hl
          | some taken =>
              simp only [hl, ht] at h
              cases h
      | some lease =>
          by_cases hr : lease.references.toNat + 1 < UInt32.size
          · simp only [hl, if_pos hr] at h
            cases h
          · simp only [hl, if_neg hr] at h
            cases h
            exact .overflowed tenant lease hl (Nat.le_of_not_lt hr)
  | get tenant =>
      simp only [serve] at h
      split at h
      · cases h
      · rename_i hl
        cases h
        exact .notFound tenant hl
  | stop tenant =>
      simp only [serve] at h
      split at h <;> cases h
  | lease tenant => cases h
  | ledger => cases h

end Ledger

/-- **No request touches what another tenant holds.** -/
theorem Request.Effect.eq_of_ne {held held' : String → Option Lease} {r : Request}
    {answer : Except Failure r.Answer} (h : r.Effect held answer held') {other : String}
    (hne : r.tenant? ≠ some other) : held' other = held other := by
  cases h with
  | allocated tenant slot absent => exact Function.update_of_ne (fun he => hne (congrArg some he.symm)) _ _
  | retained tenant lease present room =>
      exact Function.update_of_ne (fun he => hne (congrArg some he.symm)) _ _
  | returned tenant lease present others =>
      exact Function.update_of_ne (fun he => hne (congrArg some he.symm)) _ _
  | released tenant lease present last =>
      exact Function.update_of_ne (fun he => hne (congrArg some he.symm)) _ _
  | locked | faulted | exhausted | overflowed | found | notFound | notHeld | read | readAll => rfl

/-! ### Counts of references -/

/-- Every lease has a reference. -/
def Counted (held : String → Option Lease) : Prop :=
  ∀ tenant lease, held tenant = some lease → 1 ≤ lease.references.toNat

/-- How many references a tenant has. -/
def references (held : String → Option Lease) (tenant : String) : Nat :=
  match held tenant with
  | some lease => lease.references.toNat
  | none => 0

variable {held held' : String → Option Lease} {tenant : String} {lease : Lease}

theorem references_of_some (h : held tenant = some lease) :
    references held tenant = lease.references.toNat := by
  rw [references, h]

theorem references_of_none (h : held tenant = none) : references held tenant = 0 := by
  rw [references, h]

@[simp] theorem references_update_some (held : String → Option Lease) (tenant : String)
    (lease : Lease) : references (update held tenant (some lease)) tenant =
      lease.references.toNat :=
  references_of_some (Function.update_self ..)

@[simp] theorem references_update_none (held : String → Option Lease) (tenant : String) :
    references (update held tenant none) tenant = 0 :=
  references_of_none (Function.update_self ..)

/-- A tenant has references exactly when it has a lease. -/
theorem Counted.references_pos_iff (h : Counted held) :
    0 < references held tenant ↔ ∃ lease, held tenant = some lease := by
  cases hl : held tenant with
  | none =>
      rw [references_of_none hl]
      simp
  | some lease =>
      rw [references_of_some hl]
      exact iff_of_true (h tenant lease hl) ⟨lease, rfl⟩

theorem Counted.update_some (h : Counted held) (hl : 1 ≤ lease.references.toNat) :
    Counted (update held tenant (some lease)) := by
  intro other kept hk
  rw [Function.update_apply] at hk
  split at hk
  · cases hk
    exact hl
  · exact h other kept hk

theorem Counted.update_none (h : Counted held) : Counted (update held tenant none) := by
  intro other kept hk
  rw [Function.update_apply] at hk
  split at hk
  · cases hk
  · exact h other kept hk

/-- **No effect leaves a lease without a reference.** -/
theorem Request.Effect.counted {r : Request} {answer : Except Failure r.Answer}
    (h : r.Effect held answer held') (hc : Counted held) : Counted held' := by
  cases h with
  | allocated tenant slot absent => exact hc.update_some (Nat.le_refl 1)
  | retained tenant lease present room =>
      refine hc.update_some ?_
      rw [toNat_add_one room]
      exact Nat.le_add_left 1 _
  | returned tenant lease present others =>
      refine hc.update_some ?_
      rw [toNat_sub_one others]
      rw [UInt32.lt_iff_toNat_lt] at others
      exact Nat.le_sub_of_add_le others
  | released tenant lease present last => exact hc.update_none
  | locked | faulted | exhausted | overflowed | found | notFound | notHeld | read | readAll =>
      exact hc

end Tenancy
