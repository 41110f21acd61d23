/-
**No slot is lost.**

When all nodes hand out slots of one range, the slots that were ever used are an initial piece of
that range, and each of them is either held or given back.  A change moves a slot from one side to
the other or adds the next one, and it never drops one: a slot that is taken is given to the tenant
in the same change.

Main definitions:

* `Tenancy.SlotPolicy.Spans` — the slots of a node are those of a given range;
* `Tenancy.Ledger.Partitioned` — **the used slots are divided into held ones and those given back**.

Main results:

* `Tenancy.Ledger.Partitioned.change` — **all five changes keep the division**;
* `Tenancy.Ledger.partitioned_invariant` — so it is an invariant of clusters of one range.
-/

import Mathlib.Order.Interval.Finset.Nat
import Tenancy.Proofs.Ledger.Sound

set_option relaxedAutoImplicit false
set_option autoImplicit false

namespace Tenancy

/-- The slots that are handed out are those from `first` to `last`. -/
def SlotPolicy.Spans (p : SlotPolicy) (first last : Slot) : Prop :=
  p.first = first ∧ p.last = last

instance (p : SlotPolicy) (first last : Slot) : Decidable (p.Spans first last) :=
  inferInstanceAs (Decidable (p.first = first ∧ p.last = last))

namespace Ledger

/-- **The slots in use are those from the first of the range up to the next one**, which is at most
one past the range. -/
structure Partitioned (first last : Slot) (l : Ledger) : Prop where
  /-- The next slot is not below the range. -/
  first_le : first.toNat ≤ l.nextSlot.toNat
  /-- The next slot is at most one past the range. -/
  next_le : l.nextSlot.toNat ≤ last.toNat + 1
  /-- Every slot up to the next one is held or was given back, and no other slot is. -/
  used : l.usedSlots = Finset.Ico first.toNat l.nextSlot.toNat

namespace Partitioned

variable {first last : Slot} {l l' : Ledger} {tenant : String} {slot : Slot}

theorem empty (h : first ≤ last) : (Ledger.empty first).Partitioned first last where
  first_le := Nat.le_refl _
  next_le := Nat.le_succ_of_le (UInt16.le_iff_toNat_le.1 h)
  used := by
    rw [usedSlots_empty]
    exact (Finset.Ico_self _).symm

theorem advance (h : l.Partitioned first last) (before : Ledger) :
    (l.advance before).Partitioned first last :=
  ⟨h.first_le, h.next_le, h.used⟩

/-- A slot in use lies in the range, below the next one. -/
theorem bounds (h : l.Partitioned first last) {k : Nat} (hk : k ∈ l.usedSlots) :
    first.toNat ≤ k ∧ k < l.nextSlot.toNat := by
  rw [h.used] at hk
  exact Finset.mem_Ico.1 hk

/-- In a range all of whose slots up to the next one are in use, the next one is the slot that was
never used. -/
theorem toNat_fresh (h : l.Partitioned first last) :
    (max l.nextSlot first).toNat = l.nextSlot.toNat := by
  rw [toNat_max, Nat.max_eq_left h.first_le]

/-- A first lease of the next slot puts it in use and moves on. -/
theorem take_fresh (h : l.Partitioned first last) (hn : l.lease? tenant = none)
    (hs : slot = max l.nextSlot first) (hle : slot ≤ last) (hf : slot.toNat + 1 < UInt16.size) :
    ({ l with nextSlot := slot + 1 }.put tenant ⟨1, slot⟩).Partitioned first last := by
  have hslot : slot.toNat = l.nextSlot.toNat := by rw [hs, h.toNat_fresh]
  have hnext : (slot + 1).toNat = l.nextSlot.toNat + 1 := by rw [toNat_next hf, hslot]
  constructor
  · show first.toNat ≤ (slot + 1).toNat
    rw [hnext]
    exact Nat.le_succ_of_le h.first_le
  · show (slot + 1).toNat ≤ last.toNat + 1
    rw [toNat_next hf]
    exact Nat.succ_le_succ (UInt16.le_iff_toNat_le.1 hle)
  · -- the slot that is taken is the one at which the used ones end
    show _ = Finset.Ico first.toNat (slot + 1).toNat
    rw [usedSlots_take_fresh hn, h.used, hslot, hnext]
    exact (Nat.Ico_succ_right_eq_insert_Ico h.first_le).symm

/-- **All five changes keep the division**, made by nodes of the one range. -/
theorem change {p : SlotPolicy} (h : l.Partitioned first last) (hl : l.Sound)
    (hp : p.Spans first last) (hc : l.Change p tenant l') : l'.Partitioned first last := by
  obtain ⟨rfl, rfl⟩ := hp
  cases hc with
  | retained lease held room =>
      exact ⟨h.first_le, h.next_le, (usedSlots_recount held _).trans h.used⟩
  | returned lease held others =>
      exact ⟨h.first_le, h.next_le, (usedSlots_recount held _).trans h.used⟩
  | released lease held last =>
      have hs : l.slot? tenant = some lease.slot := slot?_of_lease? held
      have hused := usedSlots_drop hs fun _ hu => hl.unique hs hu
      exact ⟨h.first_le, h.next_le, hused.trans h.used⟩
  | fresh slot absent least inRange followed => exact h.take_fresh absent least inRange followed
  | reused slot absent least =>
      have hused := usedSlots_take_released absent (Std.ExtTreeSet.min?_mem least)
      exact ⟨h.first_le, h.next_le, hused.trans h.used⟩

end Partitioned

/-- **The division is an invariant of clusters of one range.** -/
theorem partitioned_invariant {first last : Slot} (h : first ≤ last) :
    Invariant (fun s => s.slots.Spans first last)
      fun l => (l.Sound ∧ l.NamesFit) ∧ l.Partitioned first last := by
  refine (sound_invariant _).and ?_ ?_
  · intro s hs
    rw [hs.1]
    exact .empty h
  · intro s l l' tenant hs hl hparts hc
    exact (hparts.change hl.1 hs hc).advance l

end Ledger

end Tenancy
