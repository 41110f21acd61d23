/-
**Room for leases.**

A first lease takes a slot: one that was given back, or one from the next one on.  So the leases and
the slots that are left, counted together, never become more, whatever requests are made.  A ledger
with room for both has a form, and so has every ledger that comes from it.

Main definitions:

* `Tenancy.Ledger.slotsLeft` — how many slots can still be taken;
* `Tenancy.Ledger.Roomy` — **a ledger whose leases could be counted if all slots were taken**.

Main results:

* `Tenancy.Ledger.Change.leases_add_slotsLeft_le` — a change makes leases and slots left no more;
* `Tenancy.Ledger.roomy_invariant` — **so having room is an invariant of all clusters**.
-/

import Tenancy.Proofs.Ledger.Reading

set_option relaxedAutoImplicit false
set_option autoImplicit false

namespace Tenancy.Ledger

open Octets (TextFits wordCount)

/-- How many slots can still be taken: those given back, and those from the next one on. -/
def slotsLeft (l : Ledger) : Nat := l.released.size + (UInt16.size - l.nextSlot.toNat)

/-- **A ledger whose names fit and whose leases could be counted in eight octets if all slots that
are left were taken**, as those of any ledger in a memory could. -/
structure Roomy (l : Ledger) : Prop where
  names : l.NamesFit
  leases : l.leases.size + l.slotsLeft < wordCount 8

variable {p : SlotPolicy} {l l' : Ledger} {tenant : String}

theorem contains_leases {lease : Lease} (h : l.lease? tenant = some lease) :
    l.leases.contains tenant = true :=
  Std.ExtTreeMap.isSome_getElem?_eq_contains.symm.trans (Option.isSome_iff_exists.2 ⟨lease, h⟩)

/-- Another lease of a tenant who has one is no lease more. -/
theorem size_leases_put {old : Lease} (h : l.lease? tenant = some old) (lease : Lease) :
    (l.put tenant lease).leases.size = l.leases.size :=
  Std.ExtTreeMap.size_insert.trans (if_pos (contains_leases h))

/-- The end of a lease is a lease less. -/
theorem size_leases_drop {lease : Lease} (h : l.lease? tenant = some lease) :
    (l.drop tenant lease.slot).leases.size + 1 = l.leases.size := by
  have hsize : (l.drop tenant lease.slot).leases.size = l.leases.size - 1 :=
    Std.ExtTreeMap.size_erase.trans (if_pos (contains_leases h))
  have hpos : 0 < l.leases.size := by
    rw [← Std.ExtTreeMap.length_toList]
    exact List.length_pos_of_mem (Std.ExtTreeMap.mem_toList_iff_getElem?_eq_some.2 h)
  omega

/-- A slot that is handed out again is one less to hand out. -/
theorem size_released_erase {slot : Slot} (h : slot ∈ l.released) :
    (l.released.erase slot).size + 1 = l.released.size := by
  have hsize : (l.released.erase slot).size = l.released.size - 1 :=
    Std.ExtTreeSet.size_erase.trans (if_pos (Std.ExtTreeSet.contains_iff_mem.2 h))
  have hpos : 0 < l.released.size := by
    rw [← Std.ExtTreeSet.length_toList]
    exact List.length_pos_of_mem (Std.ExtTreeSet.mem_toList.2 h)
  omega

/-- **A change makes leases and slots left together no more.** -/
theorem Change.leases_add_slotsLeft_le (h : l.Change p tenant l') :
    l'.leases.size + l'.slotsLeft ≤ l.leases.size + l.slotsLeft := by
  cases h with
  | retained lease held room => exact Nat.le_of_eq (congrArg (· + _) (size_leases_put held _))
  | returned lease held others => exact Nat.le_of_eq (congrArg (· + _) (size_leases_put held _))
  | released lease held last =>
      have hleases := size_leases_drop held
      have hreleased : (l.drop tenant lease.slot).released.size ≤ l.released.size + 1 :=
        Std.ExtTreeSet.size_insert_le
      have hnext : (l.drop tenant lease.slot).nextSlot = l.nextSlot := rfl
      simp only [slotsLeft, hnext]
      omega
  | fresh slot absent least inRange followed =>
      have hleases : (l.leases.insert tenant ⟨1, slot⟩).size ≤ l.leases.size + 1 :=
        Std.ExtTreeMap.size_insert_le
      have hnext : l.nextSlot.toNat ≤ slot.toNat := by
        rw [least, toNat_max]
        exact Nat.le_max_left ..
      show (l.leases.insert tenant ⟨1, slot⟩).size +
        (l.released.size + (UInt16.size - (slot + 1).toNat)) ≤ _
      rw [toNat_next followed, slotsLeft]
      omega
  | reused slot absent least =>
      have hleases : (l.leases.insert tenant ⟨1, slot⟩).size ≤ l.leases.size + 1 :=
        Std.ExtTreeMap.size_insert_le
      have hreleased := size_released_erase (Std.ExtTreeSet.min?_mem least)
      show (l.leases.insert tenant ⟨1, slot⟩).size +
        ((l.released.erase slot).size + (UInt16.size - l.nextSlot.toNat)) ≤ _
      rw [slotsLeft]
      omega

theorem Roomy.fits (h : l.Roomy) : l.Fits where
  names := h.names
  leases := Nat.lt_of_le_of_lt (Nat.le_add_right ..) h.leases
  released := by
    have hleases := h.leases
    rw [slotsLeft] at hleases
    omega

theorem roomy_empty (first : Slot) : (Ledger.empty first).Roomy where
  names tenant lease h := by simp at h
  leases := by
    have hcount : UInt16.size < wordCount 8 := by decide
    simp only [Ledger.empty, slotsLeft, Std.ExtTreeMap.size_empty, Std.ExtTreeSet.size_empty]
    omega

/-- **Having room is an invariant of all clusters**, whatever the settings of their nodes. -/
theorem roomy_invariant (S : Settings → Prop) : Invariant S Roomy where
  fits _ h := h.fits
  empty s _ := roomy_empty s.slots.first
  change {s l l' tenant} _ ht h hc := by
    have hnames : l'.NamesFit := h.names.change ht hc
    exact ⟨hnames, Nat.lt_of_le_of_lt hc.leases_add_slotsLeft_le h.leases⟩

end Tenancy.Ledger
