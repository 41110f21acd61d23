/-
**What a log of answers says of the leases.**

A log lists requests with their answers, oldest first.  From the log alone one can tell how many
references each tenant has: one for every start that was answered, less one for every stop that
dropped one.  One can also tell the slot: until the last reference of a tenant is dropped, every
answer that names a slot names the same one.

Main definitions:

* `Tenancy.Cluster.outstanding` — **starts of a tenant less the stops that dropped a reference**;
* `Tenancy.Cluster.Served.slot?` — the slot that an answer names for a tenant;
* `Tenancy.Cluster.Effects` — **a log whose answers, one after the other, have their effects**.

Main results:

* `Tenancy.Cluster.Effects.references_eq` — **the references are those outstanding**;
* `Tenancy.Cluster.Effects.slot_eq` — **until the last reference is dropped the slot stays**.
-/

import Mathlib.Algebra.Group.Int.Defs
import Tenancy.Cluster.Queue
import Tenancy.Proofs.Ledger.Effect

set_option relaxedAutoImplicit false
set_option autoImplicit false

namespace Tenancy.Cluster

open Function (update)
open Ledger (toNat_add_one toNat_sub_one)

/-! ### What an answer tells of a tenant -/

namespace Served

/-- Whether it is a start of the tenant that was answered. -/
def starts (tenant : String) : Served → Bool
  | ⟨.start t, .ok _⟩ => t = tenant
  | _ => false

/-- Whether it is a stop of the tenant that dropped a reference. -/
def drops (tenant : String) : Served → Bool
  | ⟨.stop t, .ok (.decremented _ _)⟩ => t = tenant
  | ⟨.stop t, .ok (.released _)⟩ => t = tenant
  | _ => false

/-- Whether it is a stop of the tenant that dropped the last reference. -/
def releases (tenant : String) : Served → Bool
  | ⟨.stop t, .ok (.released _)⟩ => t = tenant
  | _ => false

/-- **The slot that it names for the tenant**, if it names one. -/
def slot? (tenant : String) : Served → Option Slot
  | ⟨.start t, .ok lease⟩ => if t = tenant then some lease.slot else none
  | ⟨.get t, .ok slot⟩ => if t = tenant then some slot else none
  | ⟨.stop t, .ok (.decremented slot _)⟩ => if t = tenant then some slot else none
  | ⟨.stop t, .ok (.released slot)⟩ => if t = tenant then some slot else none
  | _ => none

/-! Failures count for nothing, and answers about another tenant name no slot of this one. -/

variable {tenant : String} {r : Request}

@[simp] theorem starts_error (failure : Failure) : starts tenant ⟨r, .error failure⟩ = false := by
  cases r <;> rfl

@[simp] theorem drops_error (failure : Failure) : drops tenant ⟨r, .error failure⟩ = false := by
  cases r <;> rfl

@[simp] theorem slot?_error (failure : Failure) : slot? tenant ⟨r, .error failure⟩ = none := by
  cases r <;> rfl

theorem starts_of_ne (h : r.tenant? ≠ some tenant) (answer : Except Failure r.Answer) :
    starts tenant ⟨r, answer⟩ = false := by
  cases r with
  | start t =>
      cases answer with
      | error failure => rfl
      | ok lease => exact decide_eq_false fun he => h (congrArg some he)
  | get | stop | lease | ledger => rfl

theorem drops_of_ne (h : r.tenant? ≠ some tenant) (answer : Except Failure r.Answer) :
    drops tenant ⟨r, answer⟩ = false := by
  cases r with
  | stop t =>
      have hne : ¬ t = tenant := fun he => h (congrArg some he)
      rcases answer with failure | (_ | _ | _)
      · rfl
      · exact decide_eq_false hne
      · exact decide_eq_false hne
      · rfl
  | start | get | lease | ledger => rfl

theorem slot?_of_ne (h : r.tenant? ≠ some tenant) (answer : Except Failure r.Answer) :
    slot? tenant ⟨r, answer⟩ = none := by
  have hne : ∀ t, r.tenant? = some t → ¬ t = tenant := fun t ht he => h (he ▸ ht)
  cases answer with
  | error failure => exact slot?_error failure
  | ok answer =>
      cases r with
      | start t => exact if_neg (hne t rfl)
      | get t => exact if_neg (hne t rfl)
      | stop t =>
          rcases answer with _ | _ | _
          · exact if_neg (hne t rfl)
          · exact if_neg (hne t rfl)
          · rfl
      | lease | ledger => rfl

end Served

/-- **How many starts of a tenant were answered, less the stops that dropped a reference.** -/
def outstanding (log : List Served) (tenant : String) : Int :=
  log.countP (Served.starts tenant) - log.countP (Served.drops tenant)

@[simp] theorem outstanding_nil (tenant : String) : outstanding [] tenant = 0 := rfl

theorem outstanding_cons (e : Served) (log : List Served) (tenant : String) :
    outstanding (e :: log) tenant = outstanding [e] tenant + outstanding log tenant := by
  simp only [outstanding, List.countP_cons, List.countP_nil]
  omega

theorem outstanding_singleton (e : Served) (tenant : String) :
    outstanding [e] tenant =
      (if e.starts tenant then 1 else 0) - (if e.drops tenant then 1 else 0) := by
  simp only [outstanding, List.countP_cons, List.countP_nil, Nat.zero_add]
  split <;> split <;> rfl

/-! ### What one answer tells -/

section One

variable {held held' : String → Option Lease} {r : Request} {answer : Except Failure r.Answer}

/-- The references of a tenant before and after one answer. -/
theorem references_effect (h : r.Effect held answer held') (hc : Counted held) (tenant : String) :
    (references held' tenant : Int) =
      references held tenant + outstanding [⟨r, answer⟩] tenant := by
  rw [outstanding_singleton]
  by_cases hr : r.tenant? = some tenant
  · cases h with
    | allocated t slot absent =>
        cases hr
        rw [references_update_some, references_of_none absent]
        simp [Served.starts, Served.drops]
    | retained t lease present room =>
        cases hr
        rw [references_update_some, references_of_some present, toNat_add_one room]
        simp [Served.starts, Served.drops]
    | returned t lease present others =>
        cases hr
        have hpos := hc _ _ present
        rw [references_update_some, references_of_some present, toNat_sub_one others]
        simp [Served.starts, Served.drops]
        omega
    | released t lease present last =>
        cases hr
        -- there was exactly one reference
        have hpos := hc _ _ present
        rw [UInt32.lt_iff_toNat_lt] at last
        have hone : lease.references.toNat = 1 := Nat.le_antisymm (Nat.le_of_not_lt last) hpos
        rw [references_update_none, references_of_some present, hone]
        simp [Served.starts, Served.drops]
    | locked | faulted => simp
    | exhausted | overflowed | found | notFound | notHeld | read | readAll =>
        exact (Int.add_zero _).symm
  · have hsame : references held' tenant = references held tenant := by
      rw [references, h.eq_of_ne hr, references]
    rw [hsame, Served.starts_of_ne hr, Served.drops_of_ne hr]
    simp

/-- The slot that a tenant holds. -/
def slotOf (held : String → Option Lease) (tenant : String) : Option Slot :=
  (held tenant).map Lease.slot

theorem slotOf_of_some {tenant : String} {lease : Lease} (h : held tenant = some lease) :
    slotOf held tenant = some lease.slot := by
  rw [slotOf, h, Option.map_some]

/-- The slot stays, unless the last reference is dropped. -/
theorem slotOf_effect (h : r.Effect held answer held') {tenant : String} {slot : Slot}
    (hs : slotOf held tenant = some slot) (hkept : Served.releases tenant ⟨r, answer⟩ = false) :
    slotOf held' tenant = some slot := by
  by_cases hr : r.tenant? = some tenant
  · cases h with
    | allocated t new absent =>
        cases hr
        rw [slotOf, absent] at hs
        cases hs
    | retained t lease present room =>
        cases hr
        rw [slotOf_of_some present] at hs
        rw [slotOf, Function.update_self]
        exact hs
    | returned t lease present others =>
        cases hr
        rw [slotOf_of_some present] at hs
        rw [slotOf, Function.update_self]
        exact hs
    | released t lease present last =>
        cases hr
        exact absurd hkept (by simp [Served.releases])
    | locked | faulted | exhausted | overflowed | found | notFound | notHeld | read | readAll =>
        exact hs
  · rw [slotOf, h.eq_of_ne hr]
    exact hs

/-- The slot that an answer names is the one held before or, at a first reference, afterwards. -/
theorem slotOf_of_slot? (h : r.Effect held answer held') {tenant : String} {named : Slot}
    (hn : Served.slot? tenant ⟨r, answer⟩ = some named) :
    slotOf held tenant = some named ∨ held tenant = none ∧ slotOf held' tenant = some named := by
  have hr : r.tenant? = some tenant := by
    by_contra hne
    rw [Served.slot?_of_ne hne] at hn
    cases hn
  cases h with
  | allocated t new absent =>
      cases hr
      refine .inr ⟨absent, ?_⟩
      rw [slotOf, Function.update_self]
      simpa [Served.slot?] using hn
  | retained t lease present room =>
      cases hr
      rw [slotOf_of_some present]
      exact .inl (by simpa [Served.slot?] using hn)
  | found t lease present =>
      cases hr
      rw [slotOf_of_some present]
      exact .inl (by simpa [Served.slot?] using hn)
  | returned t lease present others =>
      cases hr
      rw [slotOf_of_some present]
      exact .inl (by simpa [Served.slot?] using hn)
  | released t lease present last =>
      cases hr
      rw [slotOf_of_some present]
      exact .inl (by simpa [Served.slot?] using hn)
  | locked | faulted =>
      rw [Served.slot?_error] at hn
      cases hn
  | exhausted | overflowed | notFound | notHeld | read | readAll => cases hn

end One

/-! ### A whole log -/

/-- **A log whose answers, one after the other, have their effects**, from what the tenants hold
first to what they hold last. -/
inductive Effects : (String → Option Lease) → List Served → (String → Option Lease) → Prop where
  | nil (held : String → Option Lease) : Effects held [] held
  | cons {held mid held' : String → Option Lease} {r : Request} {answer : Except Failure r.Answer}
      {log : List Served} (first : r.Effect held answer mid) (rest : Effects mid log held') :
      Effects held (⟨r, answer⟩ :: log) held'

namespace Effects

variable {held mid held' : String → Option Lease} {log log' : List Served} {tenant : String}

theorem append (h : Effects held log mid) (h' : Effects mid log' held') :
    Effects held (log ++ log') held' := by
  induction h with
  | nil held => exact h'
  | cons first rest ih => exact .cons first (ih h')

/-- A log may be cut anywhere. -/
theorem of_append (h : Effects held (log ++ log') held') :
    ∃ mid, Effects held log mid ∧ Effects mid log' held' := by
  induction log generalizing held with
  | nil => exact ⟨held, .nil held, h⟩
  | cons e log ih =>
      obtain ⟨⟩ | ⟨first, rest⟩ := h
      obtain ⟨mid, hlog, hlog'⟩ := ih rest
      exact ⟨mid, .cons first hlog, hlog'⟩

theorem counted (h : Effects held log held') (hc : Counted held) : Counted held' := by
  induction h with
  | nil held => exact hc
  | cons first rest ih => exact ih (first.counted hc)

/-- **The references that a tenant has at the end are those that it had at first and those that are
outstanding.** -/
theorem references_eq (h : Effects held log held') (hc : Counted held) (tenant : String) :
    (references held' tenant : Int) = references held tenant + outstanding log tenant := by
  induction h with
  | nil held => simp
  | cons first rest ih =>
      rw [outstanding_cons, ih (first.counted hc), references_effect first hc, Int.add_assoc]

/-- Until the last reference is dropped the slot stays. -/
theorem slotOf_eq (h : Effects held log held') {slot : Slot} (hs : slotOf held tenant = some slot)
    (hkept : ∀ e ∈ log, Served.releases tenant e = false) : slotOf held' tenant = some slot := by
  induction h with
  | nil held => exact hs
  | cons first rest ih =>
      refine ih (slotOf_effect first hs (hkept _ List.mem_cons_self)) fun e he => ?_
      exact hkept e (List.mem_cons_of_mem _ he)

/-- **Until the last reference of a tenant is dropped, all answers name one slot.** -/
theorem slot_eq {first last : Served} {between : List Served}
    (h : Effects held (first :: between ++ [last]) held') {slot slot' : Slot}
    (hfirst : first.slot? tenant = some slot) (hlast : last.slot? tenant = some slot')
    (hkept : ∀ e ∈ first :: between, Served.releases tenant e = false) : slot' = slot := by
  obtain ⟨mid, hlog, hend⟩ := h.of_append
  have hmid : slotOf mid tenant = some slot := by
    obtain ⟨⟩ | ⟨begins, rest⟩ := hlog
    have hafter := hkept _ List.mem_cons_self
    refine rest.slotOf_eq ?_ fun e he => hkept e (List.mem_cons_of_mem _ he)
    rcases slotOf_of_slot? begins hfirst with hbefore | ⟨-, hnow⟩
    · exact slotOf_effect begins hbefore hafter
    · exact hnow
  obtain ⟨⟩ | ⟨ends, -⟩ := hend
  rcases slotOf_of_slot? ends hlast with hbefore | ⟨hnone, -⟩
  · rw [hmid] at hbefore
    exact (Option.some.inj hbefore).symm
  · rw [slotOf, hnone] at hmid
    cases hmid

end Effects

end Tenancy.Cluster
