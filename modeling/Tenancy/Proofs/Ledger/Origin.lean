/-
**Where slots come from.**

A slot comes into use only by a first lease of a fresh slot, and that lies in the range of the node
that took it.  A slot that was given back is in use already: it is handed out again without a look
at the range.

Main definitions:

* `Tenancy.SlotPolicy.Contains` — a slot lies in the range of a node.

Main results:

* `Tenancy.Ledger.contains_fresh` — a fresh slot lies in the range;
* `Tenancy.Ledger.Change.mem_usedSlots` — **a slot comes into use within the range**.
-/

import Tenancy.Proofs.Ledger.Sound

set_option relaxedAutoImplicit false
set_option autoImplicit false

namespace Tenancy

/-- A slot lies in the range of a node. -/
def SlotPolicy.Contains (p : SlotPolicy) (slot : Slot) : Prop := p.first ≤ slot ∧ slot ≤ p.last

instance (p : SlotPolicy) (slot : Slot) : Decidable (p.Contains slot) :=
  inferInstanceAs (Decidable (p.first ≤ slot ∧ slot ≤ p.last))

namespace Ledger

/-- A fresh slot that a node takes lies in its range. -/
theorem contains_fresh {l : Ledger} {p : SlotPolicy} {slot : Slot}
    (hs : slot = max l.nextSlot p.first) (hle : slot ≤ p.last) : p.Contains slot := by
  refine ⟨?_, hle⟩
  rw [UInt16.le_iff_toNat_le, hs, toNat_max]
  exact Nat.le_max_right ..

/-- **A slot comes into use within the range** of the node that takes it. -/
theorem Change.mem_usedSlots {p : SlotPolicy} {l l' : Ledger} {tenant : String}
    (hc : l.Change p tenant l') (hl : l.Sound) {slot : Slot} (hs : slot.toNat ∈ l'.usedSlots) :
    slot.toNat ∈ l.usedSlots ∨ p.Contains slot := by
  cases hc with
  | retained lease held room =>
      rw [usedSlots_recount held] at hs
      exact .inl hs
  | returned lease held others =>
      rw [usedSlots_recount held] at hs
      exact .inl hs
  | released lease held last =>
      rw [usedSlots_drop (slot?_of_lease? held) fun _ hu =>
        hl.unique (slot?_of_lease? held) hu] at hs
      exact .inl hs
  | fresh taken absent least inRange followed =>
      rw [usedSlots_take_fresh absent, Finset.mem_insert] at hs
      rcases hs with he | hs
      · rw [UInt16.toNat.inj he]
        exact .inr (contains_fresh least inRange)
      · exact .inl hs
  | reused taken absent least =>
      rw [usedSlots_take_released absent (Std.ExtTreeSet.min?_mem least)] at hs
      exact .inl hs

end Ledger

end Tenancy
