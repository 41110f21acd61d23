/-
**Taking a slot.**

Where the slot of a tenant's first reference comes from.  There are two sources: the fresh slots,
from the next one on up to the last of the node's range, and the slots given back, the least one
first.  The reuse policy says which source is asked first.  The next slot only ever goes up, so the
slots of a range below it are passed over, even if none of them was ever used.

Main definitions:

* `Tenancy.Reuse`, `Tenancy.SlotPolicy` — which source comes first, and a node's range of slots;
* `Tenancy.Ledger.takeFresh?`, `Tenancy.Ledger.takeReleased?` — the two sources;
* `Tenancy.Ledger.takeSlot?` — **the slot that is handed out**, if there is one.

Main results:

* `Tenancy.Ledger.leases_takeSlot?`, `Tenancy.Ledger.version_takeSlot?` — taking a slot touches
  neither the leases nor the version;
* `Tenancy.Ledger.takeSlot?_eq_none_iff` — there is no slot exactly when both sources are dry.
-/

import Tenancy.Ledger.Basic

set_option relaxedAutoImplicit false
set_option autoImplicit false

namespace Tenancy

/-- When slots that have been given back are handed out again. -/
inductive Reuse where
  /-- Once the next slot is past the range of the node. -/
  | whenExhausted
  /-- Before any fresh slot. -/
  | lowestReleased
deriving DecidableEq, Repr, Inhabited

/-- Which slots a node hands out, and in which order. -/
structure SlotPolicy where
  first : Slot
  last : Slot
  reuse : Reuse
deriving DecidableEq, Repr

namespace Ledger

/-! ### The two sources -/

/-- Takes the next slot, raised to the first of the range, as long as it is in the range.  Slots of
the range below the next one are passed over, even if they were never used.  The last number of all
is never handed out this way, because no number follows it. -/
def takeFresh? (l : Ledger) (p : SlotPolicy) : Option (Slot × Ledger) :=
  let slot := max l.nextSlot p.first
  if slot ≤ p.last ∧ slot.toNat + 1 < UInt16.size then
    some (slot, { l with nextSlot := slot + 1 })
  else none

/-- Takes the least slot that has been given back. -/
def takeReleased? (l : Ledger) : Option (Slot × Ledger) :=
  l.released.min?.map fun slot => (slot, { l with released := l.released.erase slot })

/-- **Takes a slot**, from the source that the policy prefers if it has one. -/
def takeSlot? (l : Ledger) (p : SlotPolicy) : Option (Slot × Ledger) :=
  match p.reuse with
  | .whenExhausted => (l.takeFresh? p).or l.takeReleased?
  | .lowestReleased => l.takeReleased?.or (l.takeFresh? p)

/-! ### What taking a slot changes -/

theorem takeFresh?_eq_some {l l' : Ledger} {p : SlotPolicy} {slot : Slot}
    (h : l.takeFresh? p = some (slot, l')) :
    slot = max l.nextSlot p.first ∧ slot ≤ p.last ∧ slot.toNat + 1 < UInt16.size ∧
      l' = { l with nextSlot := slot + 1 } := by
  simp only [takeFresh?] at h
  split at h
  · rename_i hs
    cases h
    exact ⟨rfl, hs.1, hs.2, rfl⟩
  · cases h

theorem takeReleased?_eq_some {l l' : Ledger} {slot : Slot}
    (h : l.takeReleased? = some (slot, l')) :
    l.released.min? = some slot ∧ l' = { l with released := l.released.erase slot } := by
  simp only [takeReleased?, Option.map_eq_some_iff, Prod.mk.injEq] at h
  obtain ⟨s, hs, rfl, rfl⟩ := h
  exact ⟨hs, rfl⟩

/-- A slot comes from one of the two sources. -/
theorem takeSlot?_eq_some {l l' : Ledger} {p : SlotPolicy} {slot : Slot}
    (h : l.takeSlot? p = some (slot, l')) :
    l.takeFresh? p = some (slot, l') ∨ l.takeReleased? = some (slot, l') := by
  simp only [takeSlot?] at h
  split at h <;> rw [Option.or_eq_some_iff] at h
  · exact h.imp_right (·.2)
  · exact h.elim .inr fun h => .inl h.2

/-- There is no slot to take exactly when both sources are dry. -/
theorem takeSlot?_eq_none_iff {l : Ledger} {p : SlotPolicy} :
    l.takeSlot? p = none ↔ l.takeFresh? p = none ∧ l.takeReleased? = none := by
  simp only [takeSlot?]
  split <;> rw [Option.or_eq_none_iff]
  exact and_comm

/-- Taking a slot leaves the leases alone. -/
theorem leases_takeSlot? {l l' : Ledger} {p : SlotPolicy} {slot : Slot}
    (h : l.takeSlot? p = some (slot, l')) : l'.leases = l.leases := by
  rcases takeSlot?_eq_some h with h | h
  · rw [(takeFresh?_eq_some h).2.2.2]
  · rw [(takeReleased?_eq_some h).2]

/-- Taking a slot leaves the version alone. -/
theorem version_takeSlot? {l l' : Ledger} {p : SlotPolicy} {slot : Slot}
    (h : l.takeSlot? p = some (slot, l')) : l'.version = l.version := by
  rcases takeSlot?_eq_some h with h | h
  · rw [(takeFresh?_eq_some h).2.2.2]
  · rw [(takeReleased?_eq_some h).2]

end Ledger

end Tenancy
