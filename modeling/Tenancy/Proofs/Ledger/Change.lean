/-
**How a request changes a ledger.**

A request that is served with a changed ledger has made one of five changes for its tenant: a
reference more, a reference less, the end of a lease, a first lease of a fresh slot, or a first
lease of a slot that was given back.  Whatever requests keep is proved from these five.

Main definitions:

* `Tenancy.Ledger.slot?` — the slot that a tenant holds;
* `Tenancy.Request.tenant?` — the tenant that a request is about;
* `Tenancy.Ledger.Change` — **the five changes**.

Main results:

* `Tenancy.Ledger.change_of_serve` — **a served request makes one of them**;
* `Tenancy.Ledger.toNat_next`, `Tenancy.Ledger.toNat_max` — the slot after one and the later of two,
  as natural numbers.
-/

import Tenancy.Ledger.Request

set_option relaxedAutoImplicit false
set_option autoImplicit false

namespace Tenancy

/-- The tenant that a request is about. -/
def Request.tenant? : Request → Option String
  | .start tenant | .get tenant | .stop tenant | .lease tenant => some tenant
  | .ledger => none

namespace Ledger

/-! ### The slot that a tenant holds -/

/-- The slot that a tenant holds. -/
def slot? (l : Ledger) (tenant : String) : Option Slot := (l.lease? tenant).map Lease.slot

theorem slot?_eq_some {l : Ledger} {tenant : String} {slot : Slot} :
    l.slot? tenant = some slot ↔ ∃ lease, l.lease? tenant = some lease ∧ lease.slot = slot :=
  Option.map_eq_some_iff

theorem slot?_of_lease? {l : Ledger} {tenant : String} {lease : Lease}
    (h : l.lease? tenant = some lease) : l.slot? tenant = some lease.slot :=
  slot?_eq_some.2 ⟨lease, h, rfl⟩

@[simp] theorem slot?_eq_none {l : Ledger} {tenant : String} :
    l.slot? tenant = none ↔ l.lease? tenant = none :=
  Option.map_eq_none_iff

@[simp] theorem slot?_empty (first : Slot) (tenant : String) :
    (empty first).slot? tenant = none := by
  simp

theorem slot?_put (l : Ledger) (tenant : String) (lease : Lease) (other : String) :
    (l.put tenant lease).slot? other = if tenant = other then some lease.slot else l.slot? other := by
  rw [slot?, lease?_put]
  split <;> rfl

/-- Another count of references moves no slot. -/
theorem slot?_recount {l : Ledger} {tenant : String} {lease : Lease}
    (h : l.lease? tenant = some lease) (references : UInt32) (other : String) :
    (l.put tenant ⟨references, lease.slot⟩).slot? other = l.slot? other := by
  rw [slot?_put]
  split
  · rename_i he
    rw [← he, slot?_of_lease? h]
  · rfl

theorem slot?_drop (l : Ledger) (tenant : String) (slot : Slot) (other : String) :
    (l.drop tenant slot).slot? other = if tenant = other then none else l.slot? other := by
  rw [slot?, lease?_drop]
  split <;> rfl

/-! ### Slots and counts as natural numbers -/

/-- A slot that some number follows is one below the next. -/
theorem toNat_next {slot : Slot} (h : slot.toNat + 1 < UInt16.size) :
    (slot + 1).toNat = slot.toNat + 1 := by
  rw [UInt16.toNat_add]
  exact Nat.mod_eq_of_lt h

/-- The later of two slots. -/
theorem toNat_max (a b : Slot) : (max a b).toNat = max a.toNat b.toNat := by
  show (if a ≤ b then b else a).toNat = max a.toNat b.toNat
  split
  · rename_i h
    rw [UInt16.le_iff_toNat_le] at h
    omega
  · rename_i h
    rw [UInt16.le_iff_toNat_le] at h
    omega

/-- One reference more, if it can be counted. -/
theorem toNat_add_one {count : UInt32} (h : count.toNat + 1 < UInt32.size) :
    (count + 1).toNat = count.toNat + 1 := by
  rw [UInt32.toNat_add]
  exact Nat.mod_eq_of_lt h

/-- One reference less, if others remain. -/
theorem toNat_sub_one {count : UInt32} (h : 1 < count) : (count - 1).toNat = count.toNat - 1 := by
  rw [UInt32.toNat_sub_of_le _ _ (UInt32.le_of_lt h)]
  rfl

/-! ### The five changes -/

/-- **What a request of `tenant` can make of the ledger `l`** at a node with the slots `p`. -/
inductive Change (p : SlotPolicy) (tenant : String) (l : Ledger) : Ledger → Prop where
  /-- One reference more to the slot that the tenant holds. -/
  | retained (lease : Lease) (held : l.lease? tenant = some lease)
      (room : lease.references.toNat + 1 < UInt32.size) :
      Change p tenant l (l.put tenant { lease with references := lease.references + 1 })
  /-- One reference less, and others remain. -/
  | returned (lease : Lease) (held : l.lease? tenant = some lease) (others : 1 < lease.references) :
      Change p tenant l (l.put tenant { lease with references := lease.references - 1 })
  /-- The last reference less: the slot is given back. -/
  | released (lease : Lease) (held : l.lease? tenant = some lease)
      (last : ¬ 1 < lease.references) : Change p tenant l (l.drop tenant lease.slot)
  /-- A first reference, to the next slot, raised to the first of the range. -/
  | fresh (slot : Slot) (absent : l.lease? tenant = none) (least : slot = max l.nextSlot p.first)
      (inRange : slot ≤ p.last) (followed : slot.toNat + 1 < UInt16.size) :
      Change p tenant l ({ l with nextSlot := slot + 1 }.put tenant ⟨1, slot⟩)
  /-- A first reference, to the least slot that was given back. -/
  | reused (slot : Slot) (absent : l.lease? tenant = none) (least : l.released.min? = some slot) :
      Change p tenant l ({ l with released := l.released.erase slot }.put tenant ⟨1, slot⟩)

variable {p : SlotPolicy} {l l' : Ledger} {tenant : String}

theorem change_of_start {lease : Lease} (h : l.start p tenant = .ok (lease, l')) :
    Change p tenant l l' := by
  rcases start_eq_ok h with ⟨old, ho, hr, rfl, rfl⟩ | ⟨slot, m, ho, hm, rfl, rfl⟩
  · exact .retained old ho hr
  · rcases takeSlot?_eq_some hm with hf | hr
    · obtain ⟨hs, hl, hn, rfl⟩ := takeFresh?_eq_some hf
      exact .fresh slot ho hs hl hn
    · obtain ⟨hs, rfl⟩ := takeReleased?_eq_some hr
      exact .reused slot ho hs

theorem change_of_stop {release : Release} (h : l.stop tenant = (release, l'))
    (hr : release ≠ .notAllocated) : Change p tenant l l' := by
  simp only [stop] at h
  cases hl : l.lease? tenant with
  | none =>
      rw [hl] at h
      cases h
      exact absurd rfl hr
  | some lease =>
      simp only [hl] at h
      split at h
      · rename_i ho
        cases h
        exact .returned lease hl ho
      · rename_i ho
        cases h
        exact .released lease hl ho

/-- A start that is served is a start that succeeds. -/
theorem start_of_serve {tenant : String} {lease : Lease} {changed : Option Ledger}
    (h : l.serve p (.start tenant) = .ok (lease, changed)) :
    ∃ l', changed = some l' ∧ l.start p tenant = .ok (lease, l') := by
  simp only [serve] at h
  cases hs : l.start p tenant with
  | error failure =>
      rw [hs] at h
      cases h
  | ok result =>
      rw [hs] at h
      cases h
      exact ⟨result.2, rfl, rfl⟩

/-- **A request that is served with a changed ledger made one of the five changes** for its
tenant. -/
theorem change_of_serve {r : Request} {answer : r.Answer}
    (h : l.serve p r = .ok (answer, some l')) : ∃ tenant ∈ r.tenant?, Change p tenant l l' := by
  cases r with
  | start tenant =>
      obtain ⟨l', ⟨⟩, hstart⟩ := start_of_serve h
      exact ⟨tenant, rfl, change_of_start hstart⟩
  | stop tenant =>
      refine ⟨tenant, rfl, ?_⟩
      simp only [serve] at h
      split at h
      · cases h
      · rename_i release changed hne hs
        cases h
        exact change_of_stop hs hne
  | get tenant =>
      -- a request that only reads is never served with a changed ledger
      simp only [serve] at h
      split at h <;> cases h
  | lease tenant => cases h
  | ledger => cases h

end Ledger

end Tenancy
