/-
**When a start finds no slot.**

A start of a tenant that holds no slot either is refused, because no slot is left, or hands one out.
With one range for all nodes it is refused exactly when every slot on offer is held; the last number
of all is not on offer, so a range that ends there is exhausted one slot early.

Main results:

* `Tenancy.Cluster.Reachable.exhausted_iff` — **a start finds the slots exhausted exactly when all
  those on offer are held**;
* `Tenancy.Cluster.exhausted_before_last_of_all` — a range that ends at the last number of all is
  exhausted while that slot is free.
-/

import Tenancy.Proofs.Cluster.Slots
import Tenancy.Proofs.Ledger.Taking

set_option relaxedAutoImplicit false
set_option autoImplicit false

namespace Tenancy

/-! ### Starts of tenants that hold no slot -/

/-- A start of a tenant that holds no slot fails only where no slot can be taken. -/
theorem Ledger.start_eq_exhausted_iff {l : Ledger} {p : SlotPolicy} {tenant : String}
    (h : l.lease? tenant = none) :
    l.start p tenant = .error (.slotsExhausted p.last) ↔ l.takeSlot? p = none := by
  simp only [start, h]
  cases ht : l.takeSlot? p with
  | none => simp
  | some taken => simp

namespace Cluster

variable {n : Nat} {c : Cluster n} {i : Fin n} {ledger : Ledger}
  {tenant : String}

/-- With the key free and the ledger loaded, a start fails for want of a slot exactly when the start
on the loaded ledger does. -/
theorem call_start_eq_exhausted_iff
    (hfree : (c.node i).settings.key ∉ c.backend.locks.held) (hl : c.loaded i = .ok ledger)
    {last : Slot} :
    (c.call i (.start tenant)).1 = .error (.slotsExhausted last) ↔
      ledger.start (c.node i).settings.slots tenant = .error (.slotsExhausted last) := by
  show ((c.node i).settings.transact (.start tenant) c.backend).1.result = _ ↔ _
  rw [Settings.transact_of_load hfree hl, Settings.result_settle_eq_error_iff (by simp)]
  simp only [Ledger.serve]
  cases ledger.start (c.node i).settings.slots tenant with
  | error failure => simp [Except.map]
  | ok result => simp [Except.map]

/-- A start that is answered was made on the loaded ledger. -/
theorem start_of_call {lease : Lease} (hl : c.loaded i = .ok ledger)
    (h : (c.call i (.start tenant)).1 = .ok lease) :
    ∃ changed, ledger.start (c.node i).settings.slots tenant = .ok (lease, changed) := by
  obtain ⟨saved, hserve⟩ := Settings.serve_of_transact h hl
  simp only [Ledger.serve] at hserve
  cases hs : ledger.start (c.node i).settings.slots tenant with
  | error failure =>
      rw [hs] at hserve
      cases hserve
  | ok result =>
      rw [hs] at hserve
      cases hserve
      exact ⟨result.2, rfl⟩

/-! ### Exhaustion -/

/-- **A start of a tenant that holds no slot finds the slots exhausted exactly when all those on
offer are held.**  These are all slots of the range but the last number of all, which is never held.
While fewer tenants hold a slot than slots are on offer, no start finds them exhausted. -/
theorem Reachable.exhausted_iff {first last : Slot} (hle : first ≤ last)
    (h : c.Reachable fun s => s.slots.Spans first last)
    (hfree : (c.node i).settings.key ∉ c.backend.locks.held) (hl : c.loaded i = .ok ledger)
    (hnone : ledger.lease? tenant = none) :
    ((c.call i (.start tenant)).1 = .error (.slotsExhausted last) ↔
        usableSlots first last ⊆ ledger.heldSlots) ∧
      65535 ∉ ledger.heldSlots ∧
      (Finset.Icc first.toNat last.toNat ⊆ ledger.heldSlots ↔
        usableSlots first last ⊆ ledger.heldSlots ∧ last.toNat + 1 < UInt16.size) ∧
      (ledger.size < (usableSlots first last).card →
        (c.call i (.start tenant)).1 ≠ .error (.slotsExhausted last)) := by
  have hI := Ledger.partitioned_invariant hle
  obtain ⟨⟨hsound, -⟩, hparts⟩ := h.of_loaded hI hl
  have hspans := (h.upholds hI).settings i
  have hexhausted : (c.call i (.start tenant)).1 = .error (.slotsExhausted last) ↔
      usableSlots first last ⊆ ledger.heldSlots := by
    rw [call_start_eq_exhausted_iff hfree hl, ← hspans.2, Ledger.start_eq_exhausted_iff hnone,
      hspans.2]
    exact hparts.takeSlot?_eq_none_iff hsound hspans
  refine ⟨hexhausted, fun hheld => absurd (hparts.succ_lt_of_held hheld) (by decide), ?_, ?_⟩
  · constructor
    · intro hall
      -- the end of the range is held as well, so a number follows it
      refine ⟨(Finset.filter_subset _ _).trans hall, hparts.succ_lt_of_held (hall ?_)⟩
      exact Finset.right_mem_Icc.2 (UInt16.le_iff_toNat_le.1 hle)
    · rintro ⟨hoffer, hlast⟩ k hk
      have hk' := Finset.mem_Icc.1 hk
      exact hoffer (mem_usableSlots.2 ⟨hk', by omega⟩)
  · intro hfew hno
    exact hsound.not_subset_heldSlots hfew (hexhausted.1 hno)

/-- The one slot of the range is held, so that the other node finds none. -/
theorem exhausted_after_only_slot :
    (((likeNodes 7 7).run [.request 0 (.start "a")]).2.call 1 (.start "b")).1 =
      .error (.slotsExhausted 7) := by
  have hc : ((likeNodes 7 7).run [.request 0 (.start "a")]).2.Reachable
      fun s => s.slots.Spans 7 7 := (reachable_likeNodes 7 7).run (by decide)
  have hl : ((likeNodes 7 7).run [.request 0 (.start "a")]).2.loaded 1 =
      .ok ⟨8, .ofList [("a", Lease.mk 1 7)], ∅, 1⟩ := by cbv
  have hall : usableSlots 7 7 ⊆
      (⟨8, .ofList [("a", Lease.mk 1 7)], ∅, 1⟩ : Ledger).heldSlots := by decide +kernel
  exact (Reachable.exhausted_iff (by decide) hc (by decide +kernel) hl (by decide +kernel)).1.2
    hall

/-- **A range that ends at the last number of all is exhausted while that slot is free.** -/
theorem exhausted_before_last_of_all :
    (likeNodes 65535 65535).Reachable (fun s => s.slots.Spans 65535 65535) ∧
      (likeNodes 65535 65535).backend.locks.held = ∅ ∧
      (likeNodes 65535 65535).loaded 0 = .ok (.empty 65535) ∧
      ((likeNodes 65535 65535).call 0 (.start "a")).1 = .error (.slotsExhausted 65535) ∧
      ¬ Finset.Icc 65535 65535 ⊆ (Ledger.empty 65535).heldSlots := by
  refine ⟨reachable_likeNodes 65535 65535, rfl, by cbv, by cbv, fun hall => ?_⟩
  have hheld := hall (Finset.mem_Icc.2 ⟨Nat.le_refl _, Nat.le_refl _⟩)
  rw [Ledger.heldSlots_empty] at hheld
  exact absurd hheld (Finset.notMem_empty _)

end Cluster

end Tenancy
