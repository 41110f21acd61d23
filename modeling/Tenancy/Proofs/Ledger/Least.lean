/-
**The slot that is taken is the least one.**

Of the slots given back the least is taken, and of those never used the next one.  Where all slots
up to the next one are in use, the next one is the least that was never used; and since a slot in
use that no tenant holds was given back, the least slot given back, or else the next one, is the
least that no tenant holds.  So a ledger keeps enough to find the least slot of either sort,
although it keeps no history.

Main results:

* `Tenancy.Ledger.isLeast_min?_released` — the least slot given back is the least of its set;
* `Tenancy.Ledger.Partitioned.isLeast_of_lowestReleased` — **a node that prefers slots given back
  takes the least one that no tenant holds**;
* `Tenancy.Ledger.Partitioned.isLeast_of_whenExhausted` — **a node that prefers fresh slots takes
  the least one that was never used**, and when there is none, the least that no tenant holds.
-/

import Mathlib.Order.Bounds.Defs
import Tenancy.Proofs.Ledger.Taking

set_option relaxedAutoImplicit false
set_option autoImplicit false

namespace Tenancy.Ledger

variable {l m : Ledger} {p : SlotPolicy} {first last slot : Slot}

/-- The least slot given back is the least of its set. -/
theorem isLeast_min?_released (h : l.released.min? = some slot) :
    slot.toNat ∈ l.releasedSlots ∧ ∀ k ∈ l.releasedSlots, slot.toNat ≤ k := by
  obtain ⟨hmem, hleast⟩ := min?_released_eq_some_iff.1 h
  refine ⟨toNat_mem_releasedSlots.2 hmem, fun k hk => ?_⟩
  obtain ⟨other, ho, rfl⟩ := mem_releasedSlots.1 hk
  exact UInt16.le_iff_toNat_le.1 (hleast other ho)

namespace Partitioned

/-- A slot of the range that no tenant holds was given back or lies ahead. -/
theorem released_or_ahead (h : l.Partitioned first last) {k : Nat} (hfirst : first.toNat ≤ k)
    (hk : k ∉ l.heldSlots) : k ∈ l.releasedSlots ∨ l.nextSlot.toNat ≤ k := by
  by_cases hahead : l.nextSlot.toNat ≤ k
  · exact .inr hahead
  · have hused : k ∈ l.usedSlots := by
      rw [h.used, Finset.mem_Ico]
      omega
    exact .inl ((Finset.mem_union.1 hused).resolve_left hk)

/-- **The least slot given back is the least that no tenant holds.** -/
theorem isLeast_released (h : l.Partitioned first last) (hl : l.Sound)
    (hmin : l.released.min? = some slot) :
    IsLeast {k | first.toNat ≤ k ∧ k ∉ l.heldSlots} slot.toNat := by
  obtain ⟨hmem, hleast⟩ := isLeast_min?_released hmin
  have hbounds := h.bounds (Finset.mem_union_right _ hmem)
  refine ⟨⟨hbounds.1, Finset.disjoint_right.1 hl.disjoint hmem⟩, fun k hk => ?_⟩
  rcases h.released_or_ahead hk.1 hk.2 with hreleased | hahead
  · exact hleast k hreleased
  · omega

/-- A slot that is taken fresh is the next one, and it lies in the range. -/
theorem toNat_of_takeFresh? (h : l.Partitioned first last) (hp : p.Spans first last)
    (ht : l.takeFresh? p = some (slot, m)) :
    slot.toNat = l.nextSlot.toNat ∧ slot.toNat ≤ last.toNat := by
  obtain ⟨hslot, hle, -, -⟩ := takeFresh?_eq_some ht
  rw [hp.1] at hslot
  rw [hp.2, UInt16.le_iff_toNat_le] at hle
  exact ⟨by rw [hslot, h.toNat_fresh], hle⟩

/-- **A fresh slot is the least that was never used.** -/
theorem isLeast_fresh (h : l.Partitioned first last) (hp : p.Spans first last)
    (ht : l.takeFresh? p = some (slot, m)) :
    IsLeast {k | k ∈ Finset.Icc first.toNat last.toNat ∧ k ∉ l.usedSlots} slot.toNat := by
  obtain ⟨hslot, hle⟩ := h.toNat_of_takeFresh? hp ht
  have hfirst := h.first_le
  rw [h.used]
  refine ⟨⟨Finset.mem_Icc.2 ⟨by omega, hle⟩, fun hused => ?_⟩, fun k ⟨hk, hunused⟩ => ?_⟩
  · have hbelow := (Finset.mem_Ico.1 hused).2
    omega
  · rw [Finset.mem_Icc] at hk
    by_contra hless
    exact hunused (Finset.mem_Ico.2 (by omega))

/-- Where nothing was given back, it is the least that no tenant holds as well. -/
theorem isLeast_fresh_of_dry (h : l.Partitioned first last)
    (hp : p.Spans first last) (hdry : l.takeReleased? = none)
    (ht : l.takeFresh? p = some (slot, m)) :
    IsLeast {k | first.toNat ≤ k ∧ k ∉ l.heldSlots} slot.toNat := by
  obtain ⟨hslot, -⟩ := h.toNat_of_takeFresh? hp ht
  have hfirst := h.first_le
  have hempty := takeReleased?_eq_none_iff.1 hdry
  refine ⟨⟨by omega, fun hheld => ?_⟩, fun k hk => ?_⟩
  · have hbelow := (h.bounds (Finset.mem_union_left _ hheld)).2
    omega
  · rcases h.released_or_ahead hk.1 hk.2 with hreleased | hahead
    · rw [hempty] at hreleased
      exact absurd hreleased (Finset.notMem_empty k)
    · omega

/-- Where no fresh slot is left, all slots of the range were used, if the range does not end at the
last number of all. -/
theorem Icc_subset_of_dry (h : l.Partitioned first last) (hp : p.Spans first last)
    (hlast : last.toNat + 1 < UInt16.size) (hdry : l.takeFresh? p = none) :
    Finset.Icc first.toNat last.toNat ⊆ l.usedSlots := by
  intro k hk
  have hoffer : k ∈ usableSlots first last := by
    rw [Finset.mem_Icc] at hk
    exact mem_usableSlots.2 ⟨hk, by omega⟩
  exact (h.takeFresh?_eq_none_iff hp).1 hdry hoffer

/-- **A node that prefers slots given back takes the least slot that no tenant holds.** -/
theorem isLeast_of_lowestReleased (h : l.Partitioned first last) (hl : l.Sound)
    (hp : p.Spans first last) (hreuse : p.reuse = .lowestReleased)
    (ht : l.takeSlot? p = some (slot, m)) :
    IsLeast {k | first.toNat ≤ k ∧ k ∉ l.heldSlots} slot.toNat := by
  simp only [takeSlot?, hreuse, Option.or_eq_some_iff] at ht
  rcases ht with hreleased | ⟨hdry, hfresh⟩
  · exact h.isLeast_released hl (takeReleased?_eq_some hreleased).1
  · exact h.isLeast_fresh_of_dry hp hdry hfresh

/-- **A node that prefers fresh slots takes the least slot of the range that was never used**; when
all were used, it takes the least that no tenant holds. -/
theorem isLeast_of_whenExhausted (h : l.Partitioned first last) (hl : l.Sound)
    (hp : p.Spans first last) (hlast : last.toNat + 1 < UInt16.size)
    (hreuse : p.reuse = .whenExhausted) (ht : l.takeSlot? p = some (slot, m)) :
    ((∃ k ∈ Finset.Icc first.toNat last.toNat, k ∉ l.usedSlots) →
      IsLeast {k | k ∈ Finset.Icc first.toNat last.toNat ∧ k ∉ l.usedSlots} slot.toNat) ∧
    ((∀ k ∈ Finset.Icc first.toNat last.toNat, k ∈ l.usedSlots) →
      IsLeast {k | k ∈ Finset.Icc first.toNat last.toNat ∧ k ∉ l.heldSlots} slot.toNat) := by
  simp only [takeSlot?, hreuse, Option.or_eq_some_iff] at ht
  rcases ht with hfresh | ⟨hdry, hreleased⟩
  · have hleast := h.isLeast_fresh hp hfresh
    exact ⟨fun _ => hleast, fun hall => absurd (hall _ hleast.1.1) hleast.1.2⟩
  · have hall := h.Icc_subset_of_dry hp hlast hdry
    have hmin := (takeReleased?_eq_some hreleased).1
    obtain ⟨hin, hleast⟩ := h.isLeast_released hl hmin
    obtain ⟨hmem, -⟩ := isLeast_min?_released hmin
    constructor
    · rintro ⟨k, hk, hunused⟩
      exact absurd (hall hk) hunused
    · intro _
      -- what was given back is on offer, so it lies in the range
      obtain ⟨hrange, -⟩ := mem_usableSlots.1 (h.releasedSlots_subset hmem)
      refine ⟨⟨Finset.mem_Icc.2 hrange, hin.2⟩, ?_⟩
      rintro k ⟨hk, hfree⟩
      exact hleast ⟨(Finset.mem_Icc.1 hk).1, hfree⟩

end Partitioned

end Tenancy.Ledger
