/-
**When a slot can be taken, and from where.**

In a ledger whose used slots are divided into held ones and those given back, a slot can be taken
unless every slot that the range has to offer is held.  One slot is never on offer: no number
follows the last one of all, so that the next slot would have no value after it was taken, and it
stays out of use even where it is the end of the range.

A fresh slot is the next one, raised to the first of the node's range, and it lies in the range.
Once the next slot is past the range there is none: the slots of the range below it are passed over,
even if none of them was ever used.  A slot that was given back is taken without a look at the
range.

Main definitions:

* `Tenancy.usableSlots` — the slots that a range has to offer;
* `Tenancy.Ledger.PastRange` — **the next slot is past a node's range**;
* `Tenancy.Ledger.ReusesOutside` — the slot that a node would hand out again is not of its range.

Main results:

* `Tenancy.Ledger.takeFresh?_eq_none_iff` — no fresh slot can be taken exactly when the next one is
  past the range;

* `Tenancy.Ledger.Partitioned.takeSlot?_eq_none_iff` — **no slot can be taken exactly when all those
  on offer are held**;
* `Tenancy.Ledger.contains_takeSlot?_iff` — **a slot that is taken is of the node's range unless it
  is handed out again from outside**.
-/

import Mathlib.Data.Finset.Basic
import Tenancy.Proofs.Ledger.Origin
import Tenancy.Proofs.Ledger.Partition

set_option relaxedAutoImplicit false
set_option autoImplicit false

namespace Tenancy

/-! ### The slots on offer -/

/-- **The slots from `first` to `last` that a number follows.** -/
def usableSlots (first last : Slot) : Finset Nat :=
  {k ∈ Finset.Icc first.toNat last.toNat | k + 1 < UInt16.size}

theorem mem_usableSlots {first last : Slot} {k : Nat} :
    k ∈ usableSlots first last ↔
      (first.toNat ≤ k ∧ k ≤ last.toNat) ∧ k + 1 < UInt16.size := by
  rw [usableSlots, Finset.mem_filter, Finset.mem_Icc]

namespace Ledger

variable {l m : Ledger} {p : SlotPolicy} {first last slot : Slot}

/-! ### Dry sources -/

/-- **The next slot is past the range of a node**: raised to the first slot of the range it is
greater than the last one, or it is the last number of all. -/
def PastRange (l : Ledger) (p : SlotPolicy) : Prop :=
  p.last < max l.nextSlot p.first ∨ max l.nextSlot p.first = 65535

instance (l : Ledger) (p : SlotPolicy) : Decidable (l.PastRange p) :=
  inferInstanceAs (Decidable (p.last < max l.nextSlot p.first ∨ max l.nextSlot p.first = 65535))

/-- The last number of all is the one that no number follows. -/
theorem eq_last_of_all_iff : slot = 65535 ↔ ¬ slot.toNat + 1 < UInt16.size := by
  have hlast : (65535 : Slot).toNat + 1 = UInt16.size := rfl
  have hlt := slot.toNat_lt_size
  rw [← UInt16.toNat_inj]
  omega

/-- **No fresh slot can be taken exactly when the next one is past the range.** -/
theorem takeFresh?_eq_none_iff : l.takeFresh? p = none ↔ l.PastRange p := by
  rw [PastRange, eq_last_of_all_iff, ← UInt16.not_le, ← not_and_or]
  unfold takeFresh?
  dsimp only
  split
  · rename_i hfresh
    simp [hfresh]
  · rename_i hdry
    simp [hdry]

-- no slot of the range was ever used
example : (⟨11, ∅, ∅, 2⟩ : Ledger).PastRange ⟨2, 9, .whenExhausted⟩ := by decide

theorem takeReleased?_eq_none_iff : l.takeReleased? = none ↔ l.releasedSlots = ∅ := by
  rw [takeReleased?, Option.map_eq_none_iff, Std.ExtTreeSet.min?_eq_none_iff]
  constructor
  · intro h
    ext k
    simp [mem_releasedSlots, h]
  · intro h
    ext slot
    rw [← toNat_mem_releasedSlots, h]
    simp

namespace Partitioned

/-- No fresh slot is left when all those on offer have come into use. -/
theorem takeFresh?_eq_none_iff (h : l.Partitioned first last) (hp : p.Spans first last) :
    l.takeFresh? p = none ↔ usableSlots first last ⊆ l.usedSlots := by
  obtain ⟨rfl, rfl⟩ := hp
  have hfirst := h.first_le
  rw [Ledger.takeFresh?_eq_none_iff, PastRange, eq_last_of_all_iff, UInt16.lt_iff_toNat_lt, h.used,
    h.toNat_fresh]
  constructor
  · intro hdry k hk
    obtain ⟨⟨hf, hl⟩, hu⟩ := mem_usableSlots.1 hk
    rw [Finset.mem_Ico]
    omega
  · intro hall
    by_contra hleft
    -- the next slot itself would be on offer, and it is not in use
    have hnext := hall (mem_usableSlots.2 ⟨⟨hfirst, by omega⟩, by omega⟩)
    rw [Finset.mem_Ico] at hnext
    exact absurd hnext.2 (Nat.lt_irrefl _)

/-- Whatever was given back is on offer. -/
theorem releasedSlots_subset (h : l.Partitioned first last) :
    l.releasedSlots ⊆ usableSlots first last := by
  intro k hk
  obtain ⟨hf, hn⟩ := h.bounds (Finset.mem_union_right _ hk)
  have hnext := h.next_le
  have hsize := l.nextSlot.toNat_lt_size
  rw [mem_usableSlots]
  omega

/-- **No slot can be taken exactly when all those on offer are held.** -/
theorem takeSlot?_eq_none_iff (h : l.Partitioned first last) (hl : l.Sound)
    (hp : p.Spans first last) :
    l.takeSlot? p = none ↔ usableSlots first last ⊆ l.heldSlots := by
  rw [Ledger.takeSlot?_eq_none_iff, h.takeFresh?_eq_none_iff hp, takeReleased?_eq_none_iff]
  constructor
  · rintro ⟨hused, hreleased⟩
    rwa [usedSlots, hreleased, Finset.union_empty] at hused
  · intro hheld
    refine ⟨hheld.trans Finset.subset_union_left, ?_⟩
    -- a slot given back would be on offer, hence held, but no slot is both
    have hboth : l.releasedSlots ⊆ l.heldSlots := h.releasedSlots_subset.trans hheld
    exact Finset.disjoint_self_iff_empty _ |>.1 (hl.disjoint.mono_left hboth)

/-- The last number of all is never held. -/
theorem succ_lt_of_held (h : l.Partitioned first last) {k : Nat} (hk : k ∈ l.heldSlots) :
    k + 1 < UInt16.size := by
  have hn := (h.bounds (Finset.mem_union_left _ hk)).2
  exact Nat.lt_of_le_of_lt hn l.nextSlot.toNat_lt_size

end Partitioned

/-- While fewer tenants hold a slot than slots are on offer, not all of these are held. -/
theorem Sound.not_subset_heldSlots (hl : l.Sound) (h : l.size < (usableSlots first last).card) :
    ¬ usableSlots first last ⊆ l.heldSlots := by
  intro hall
  have hcard := Finset.card_le_card hall
  rw [hl.card_heldSlots] at hcard
  exact absurd h (Nat.not_lt.2 hcard)

/-! ### Slots from outside the range -/

/-- **The least slot given back is not of the node's range**, and the node would hand it out again:
it prefers such slots, or the next slot is past its range. -/
def ReusesOutside (l : Ledger) (p : SlotPolicy) : Prop :=
  ∃ slot ∈ l.released, (∀ other ∈ l.released, slot ≤ other) ∧ ¬ p.Contains slot ∧
    (p.reuse = .lowestReleased ∨ l.PastRange p)

/-- The slot that would be handed out again is the least one given back. -/
theorem min?_released_eq_some_iff :
    l.released.min? = some slot ↔ slot ∈ l.released ∧ ∀ other ∈ l.released, slot ≤ other := by
  rw [Std.ExtTreeSet.min?_eq_some_iff_mem_and_forall]
  simp only [Std.isLE_compare]

/-- Where the node hands a slot out again, the slot tells whether it reuses one from outside. -/
theorem contains_takeReleased?_iff (h : l.takeReleased? = some (slot, m))
    (hsource : p.reuse = .lowestReleased ∨ l.PastRange p) :
    p.Contains slot ↔ ¬ l.ReusesOutside p := by
  obtain ⟨hmin, -⟩ := takeReleased?_eq_some h
  obtain ⟨hmem, hleast⟩ := min?_released_eq_some_iff.1 hmin
  constructor
  · rintro hin ⟨other, hother, hleast', hout, -⟩
    -- there is one least slot
    obtain rfl := UInt16.le_antisymm (hleast other hother) (hleast' slot hmem)
    exact hout hin
  · intro hno
    by_contra hout
    exact hno ⟨slot, hmem, hleast, hout, hsource⟩

theorem contains_takeFresh? (h : l.takeFresh? p = some (slot, m)) : p.Contains slot := by
  obtain ⟨hs, hle, -, -⟩ := takeFresh?_eq_some h
  exact contains_fresh hs hle

/-- **A slot that is taken is of the node's range unless it is handed out again from outside.** -/
theorem contains_takeSlot?_iff (h : l.takeSlot? p = some (slot, m)) :
    p.Contains slot ↔ ¬ l.ReusesOutside p := by
  unfold takeSlot? at h
  cases hreuse : p.reuse with
  | whenExhausted =>
      simp only [hreuse, Option.or_eq_some_iff] at h
      rcases h with hf | ⟨hdry, hr⟩
      · -- until the next slot is past the range, none is handed out again
        refine iff_of_true (contains_takeFresh? hf) ?_
        rintro ⟨other, -, -, -, hprefers | hpast⟩
        · rw [hreuse] at hprefers
          cases hprefers
        · rw [takeFresh?_eq_none_iff.2 hpast] at hf
          cases hf
      · exact contains_takeReleased?_iff hr (.inr (takeFresh?_eq_none_iff.1 hdry))
  | lowestReleased =>
      simp only [hreuse, Option.or_eq_some_iff] at h
      rcases h with hr | ⟨hnone, hf⟩
      · exact contains_takeReleased?_iff hr (.inl hreuse)
      · refine iff_of_true (contains_takeFresh? hf) ?_
        rintro ⟨other, hother, -⟩
        have hempty := takeReleased?_eq_none_iff.1 hnone
        rw [← toNat_mem_releasedSlots, hempty] at hother
        exact absurd hother (Finset.notMem_empty _)

end Ledger

end Tenancy
