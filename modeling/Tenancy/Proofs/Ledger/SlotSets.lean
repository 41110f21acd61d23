/-
**The slots of a ledger as finite sets.**

A ledger knows two kinds of slots: those that tenants hold and those that were given back.  Seen as
finite sets of natural numbers they can be united and counted.  A slot that was ever handed out is
in one of the two sets from then on: each of the five changes moves at most one slot between them,
and only a first lease of a slot that was never used adds one.

Main definitions:

* `Tenancy.Ledger.heldSlots`, `Tenancy.Ledger.releasedSlots` — **the two sets**;
* `Tenancy.Ledger.usedSlots` — their union.

Main results:

* `Tenancy.Ledger.mem_heldSlots`, `Tenancy.Ledger.mem_releasedSlots` — their members;
* `Tenancy.Ledger.usedSlots_recount`, `Tenancy.Ledger.usedSlots_drop`,
  `Tenancy.Ledger.usedSlots_take_fresh`, `Tenancy.Ledger.usedSlots_take_released` — **what the
  changes make of the union**;
* `Tenancy.Ledger.size_released_le` — no more slots are given back than there are.
-/

import Mathlib.Data.Finset.Card
import Mathlib.Data.Finset.Insert
import Tenancy.Proofs.Ledger.Change

set_option relaxedAutoImplicit false
set_option autoImplicit false

namespace Tenancy.Ledger

/-- **The slots that tenants hold.** -/
def heldSlots (l : Ledger) : Finset Nat :=
  (l.leases.toList.map fun entry => entry.2.slot.toNat).toFinset

/-- **The slots that were given back** and not handed out again. -/
def releasedSlots (l : Ledger) : Finset Nat := (l.released.toList.map UInt16.toNat).toFinset

/-- **The slots that are in use**: a slot stays in use when it is given back. -/
def usedSlots (l : Ledger) : Finset Nat := l.heldSlots ∪ l.releasedSlots

/-! ### Members -/

variable {l : Ledger} {tenant : String} {slot : Slot} {k : Nat}

theorem mem_heldSlots :
    k ∈ l.heldSlots ↔ ∃ tenant slot, l.slot? tenant = some slot ∧ slot.toNat = k := by
  simp only [heldSlots, List.mem_toFinset, List.mem_map, Prod.exists,
    Std.ExtTreeMap.mem_toList_iff_getElem?_eq_some]
  constructor
  · rintro ⟨tenant, lease, hl, rfl⟩
    exact ⟨tenant, lease.slot, slot?_of_lease? hl, rfl⟩
  · rintro ⟨tenant, slot, hs, rfl⟩
    obtain ⟨lease, hl, rfl⟩ := slot?_eq_some.1 hs
    exact ⟨tenant, lease, hl, rfl⟩

theorem mem_releasedSlots : k ∈ l.releasedSlots ↔ ∃ slot ∈ l.released, slot.toNat = k := by
  simp [releasedSlots, Std.ExtTreeSet.mem_toList]

theorem mem_heldSlots_of_slot? (h : l.slot? tenant = some slot) : slot.toNat ∈ l.heldSlots :=
  mem_heldSlots.2 ⟨tenant, slot, h, rfl⟩

theorem toNat_mem_releasedSlots : slot.toNat ∈ l.releasedSlots ↔ slot ∈ l.released := by
  rw [mem_releasedSlots]
  constructor
  · rintro ⟨other, ho, he⟩
    rwa [← UInt16.toNat.inj he]
  · intro h
    exact ⟨slot, h, rfl⟩

@[simp] theorem heldSlots_empty (first : Slot) : (empty first).heldSlots = ∅ := by
  ext k
  simp [mem_heldSlots]

@[simp] theorem releasedSlots_empty (first : Slot) : (empty first).releasedSlots = ∅ := by
  ext k
  simp [mem_releasedSlots, empty]

/-- A used slot is a number below `UInt16.size`. -/
theorem usedSlots_subset_range (l : Ledger) : l.usedSlots ⊆ Finset.range UInt16.size := by
  intro k hk
  rw [Finset.mem_range]
  rcases Finset.mem_union.1 hk with hk | hk
  · obtain ⟨tenant, slot, -, rfl⟩ := mem_heldSlots.1 hk
    exact slot.toNat_lt
  · obtain ⟨slot, -, rfl⟩ := mem_releasedSlots.1 hk
    exact slot.toNat_lt

theorem card_releasedSlots (l : Ledger) : l.releasedSlots.card = l.released.size := by
  have hnodup : (l.released.toList.map UInt16.toNat).Nodup := by
    refine List.Nodup.map (fun _ _ => UInt16.toNat.inj) ?_
    refine Std.ExtTreeSet.distinct_toList.imp ?_
    rintro a b hne rfl
    simp at hne
  rw [releasedSlots, List.toFinset_card_of_nodup hnodup, List.length_map,
    Std.ExtTreeSet.length_toList]

theorem size_released_le (l : Ledger) : l.released.size ≤ UInt16.size := by
  rw [← l.card_releasedSlots, ← Finset.card_range UInt16.size]
  exact Finset.card_le_card (Finset.subset_union_right.trans l.usedSlots_subset_range)

/-! ### What the changes make of the held slots -/

theorem heldSlots_recount {lease : Lease} (h : l.lease? tenant = some lease)
    (references : UInt32) : (l.put tenant ⟨references, lease.slot⟩).heldSlots = l.heldSlots := by
  ext k
  simp only [mem_heldSlots, slot?_recount h]

/-- A first lease adds its slot.  The ledger `m` from which the slot was taken has the leases of
`l`. -/
theorem heldSlots_first {m : Ledger} (hleases : m.leases = l.leases) (h : l.lease? tenant = none)
    (slot : Slot) : (m.put tenant ⟨1, slot⟩).heldSlots = insert slot.toNat l.heldSlots := by
  have hslot : ∀ t, m.slot? t = l.slot? t := fun t => by
    rw [slot?, lease?, hleases, slot?, lease?]
  ext k
  rw [mem_heldSlots, Finset.mem_insert, mem_heldSlots]
  simp only [slot?_put, hslot]
  constructor
  · rintro ⟨other, s, ho, rfl⟩
    split at ho
    · cases ho
      exact .inl rfl
    · exact .inr ⟨other, s, ho, rfl⟩
  · rintro (rfl | ⟨other, s, ho, rfl⟩)
    · exact ⟨tenant, slot, if_pos rfl, rfl⟩
    · -- the tenant is not among those who held a slot before
      have hne : tenant ≠ other := by
        rintro rfl
        rw [slot?_eq_none.2 h] at ho
        cases ho
      exact ⟨other, s, by rw [if_neg hne, ho], rfl⟩

/-- The end of a lease takes its slot away, if no other tenant holds the slot. -/
theorem heldSlots_drop (h : l.slot? tenant = some slot)
    (halone : ∀ other, l.slot? other = some slot → tenant = other) :
    (l.drop tenant slot).heldSlots = l.heldSlots.erase slot.toNat := by
  ext k
  rw [mem_heldSlots, Finset.mem_erase, mem_heldSlots]
  constructor
  · rintro ⟨other, s, ho, rfl⟩
    rw [slot?_drop] at ho
    split at ho
    · cases ho
    · rename_i hne
      -- who still holds a slot holds another one, since only the tenant held this one
      refine ⟨fun he => hne (halone other ?_), other, s, ho, rfl⟩
      rw [ho, UInt16.toNat.inj he]
  · rintro ⟨hne, other, s, ho, rfl⟩
    have hot : tenant ≠ other := by
      rintro rfl
      rw [h] at ho
      cases ho
      exact hne rfl
    exact ⟨other, s, by rw [slot?_drop, if_neg hot, ho], rfl⟩

/-! ### What the changes make of the slots given back -/

/-- The end of a lease gives its slot back. -/
theorem releasedSlots_drop :
    (l.drop tenant slot).releasedSlots = insert slot.toNat l.releasedSlots := by
  ext k
  rw [mem_releasedSlots, Finset.mem_insert, mem_releasedSlots]
  simp only [mem_released_drop]
  constructor
  · rintro ⟨s, rfl | hs, rfl⟩
    · exact .inl rfl
    · exact .inr ⟨s, hs, rfl⟩
  · rintro (rfl | ⟨s, hs, rfl⟩)
    · exact ⟨slot, .inl rfl, rfl⟩
    · exact ⟨s, .inr hs, rfl⟩

/-- A slot that is handed out again is no longer given back. -/
theorem releasedSlots_erase :
    { l with released := l.released.erase slot }.releasedSlots =
      l.releasedSlots.erase slot.toNat := by
  ext k
  rw [mem_releasedSlots, Finset.mem_erase, mem_releasedSlots]
  simp only [Std.ExtTreeSet.mem_erase, ne_eq, Std.LawfulEqCmp.compare_eq_iff_eq]
  constructor
  · rintro ⟨s, ⟨hne, hs⟩, rfl⟩
    exact ⟨fun he => hne (UInt16.toNat.inj he).symm, s, hs, rfl⟩
  · rintro ⟨hne, s, hs, rfl⟩
    exact ⟨s, ⟨fun he => hne (by rw [he]), hs⟩, rfl⟩

/-! ### What the changes make of the used slots -/

@[simp] theorem usedSlots_empty (first : Slot) : (empty first).usedSlots = ∅ := by
  simp [usedSlots]

theorem usedSlots_recount {lease : Lease} (h : l.lease? tenant = some lease)
    (references : UInt32) : (l.put tenant ⟨references, lease.slot⟩).usedSlots = l.usedSlots := by
  rw [usedSlots, heldSlots_recount h]
  rfl

/-- A slot whose lease ends stays in use: it changes sides. -/
theorem usedSlots_drop (h : l.slot? tenant = some slot)
    (halone : ∀ other, l.slot? other = some slot → tenant = other) :
    (l.drop tenant slot).usedSlots = l.usedSlots := by
  calc (l.drop tenant slot).heldSlots ∪ (l.drop tenant slot).releasedSlots
      = l.heldSlots.erase slot.toNat ∪ insert slot.toNat l.releasedSlots := by
        rw [heldSlots_drop h halone, releasedSlots_drop]
    _ = l.heldSlots ∪ insert slot.toNat l.releasedSlots :=
        Finset.erase_union_of_mem (Finset.mem_insert_self ..) _
    _ = insert slot.toNat l.heldSlots ∪ l.releasedSlots := (Finset.insert_union_comm ..).symm
    _ = l.heldSlots ∪ l.releasedSlots := by
        rw [Finset.insert_eq_of_mem (mem_heldSlots_of_slot? h)]

/-- A first lease of a slot that was never used adds the slot. -/
theorem usedSlots_take_fresh (h : l.lease? tenant = none) (slot next : Slot) :
    ({ l with nextSlot := next }.put tenant ⟨1, slot⟩).usedSlots =
      insert slot.toNat l.usedSlots := by
  have hheld : ({ l with nextSlot := next }.put tenant ⟨1, slot⟩).heldSlots =
      insert slot.toNat l.heldSlots := heldSlots_first rfl h slot
  rw [usedSlots, hheld, Finset.insert_union]
  rfl

/-- A first lease of a slot that was given back: it changes sides. -/
theorem usedSlots_take_released (h : l.lease? tenant = none) (hs : slot ∈ l.released) :
    ({ l with released := l.released.erase slot }.put tenant ⟨1, slot⟩).usedSlots =
      l.usedSlots := by
  have hheld : ({ l with released := l.released.erase slot }.put tenant ⟨1, slot⟩).heldSlots =
      insert slot.toNat l.heldSlots := heldSlots_first rfl h slot
  calc ({ l with released := l.released.erase slot }.put tenant ⟨1, slot⟩).heldSlots ∪
        { l with released := l.released.erase slot }.releasedSlots
      = insert slot.toNat l.heldSlots ∪ l.releasedSlots.erase slot.toNat := by
        rw [hheld, releasedSlots_erase]
    _ = l.heldSlots ∪ insert slot.toNat (l.releasedSlots.erase slot.toNat) :=
        Finset.insert_union_comm ..
    _ = l.heldSlots ∪ l.releasedSlots := by
        rw [Finset.insert_erase (toNat_mem_releasedSlots.2 hs)]

end Tenancy.Ledger
