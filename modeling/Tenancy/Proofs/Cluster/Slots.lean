/-
**No slot is shared, and none is lost.**

What the two invariants of ledgers say of clusters.  Nodes may hand out slots of ranges that differ
and overlap, by policies that differ, while stores fail and locks are refused: no two tenants ever
hold the same slot.  When the nodes agree on the range, every slot that ever came into use is still
accounted for: it is held or was given back.

Main definitions:

* `Tenancy.Settings.ofSlots` — the standard settings with slots of another range and policy;
* `Tenancy.Cluster.unlikeNodes`, `Tenancy.Cluster.likeNodes` — two nodes over an empty store, with
  ranges that overlap and with one range.

Main results:

* `Tenancy.Cluster.Reachable.sound_of_stored` — **in a stored ledger no slot is shared**;
* `Tenancy.Cluster.Reachable.partition_of_stored` — **in a stored ledger of one range no slot is
  lost**.
-/

import Mathlib
import Tenancy.Proofs.Cluster.Reachable
import Tenancy.Proofs.Ledger.Partition

set_option relaxedAutoImplicit false
set_option autoImplicit false

namespace Tenancy

/-- The standard settings with slots of another range and policy. -/
def Settings.ofSlots (first last : Slot) (reuse : Reuse) : Settings :=
  { standard with slots := ⟨first, last, reuse⟩ }

namespace Cluster

/-! ### Two nodes -/

/-- Two nodes over an empty store, whose ranges overlap and whose policies differ. -/
def unlikeNodes : Cluster 2 :=
  .new .inMemory #v[.ofSlots 2 9 .whenExhausted, .ofSlots 5 20 .lowestReleased]

theorem reachable_unlikeNodes : unlikeNodes.Reachable fun _ => True :=
  .new Store.isEmpty_inMemory fun _ => trivial

/-- Two nodes over an empty store, of one range, whose policies differ. -/
def likeNodes (first last : Slot) : Cluster 2 :=
  .new .inMemory #v[.ofSlots first last .whenExhausted, .ofSlots first last .lowestReleased]

theorem reachable_likeNodes (first last : Slot) :
    (likeNodes first last).Reachable fun s => s.slots.Spans first last := by
  refine .new Store.isEmpty_inMemory fun i => ?_
  match i with
  | 0 => exact ⟨rfl, rfl⟩
  | 1 => exact ⟨rfl, rfl⟩

/-! ### No slot is shared -/

/-- **In a stored ledger no slot is shared, in use twice or ahead of the next**, whatever the ranges
and policies of the nodes are and however the steps that led to it went. -/
theorem Reachable.sound_of_stored {n : Nat} {S : Settings → Prop} {c : Cluster n}
    (h : c.Reachable S) {key : String} {ledger : Ledger}
    (hs : c.stored key = .ok (some ledger)) : ledger.Sound :=
  (h.of_stored (Ledger.sound_invariant S) hs).1

/-- A start at each of two unlike nodes, a start that cannot be saved, a stop and a lease of the slot
that was given back. -/
def unlikeSteps : List (Step 2) :=
  [.request 0 (.start "a"), .request 1 (.start "b"), .failSave 0, .request 0 (.start "c"),
    .request 0 (.stop "a"), .request 1 (.start "d")]

theorem sound_after_unlikeSteps :
    ∃ ledger, (unlikeNodes.run unlikeSteps).2.stored Settings.standard.key = .ok (some ledger) ∧
      ledger.slot? "b" = some 5 ∧ ledger.slot? "d" = some 2 ∧ ledger.Sound := by
  have hc : (unlikeNodes.run unlikeSteps).2.Reachable fun _ => True :=
    reachable_unlikeNodes.run (by decide)
  have hs : (unlikeNodes.run unlikeSteps).2.stored Settings.standard.key =
      .ok (some ⟨6, .ofList [("b", Lease.mk 1 5), ("d", Lease.mk 1 2)], ∅, 4⟩) := by cbv
  exact ⟨_, hs, by decide +kernel, by decide +kernel, hc.sound_of_stored hs⟩

/-! ### No slot is lost -/

/-- **In a stored ledger of one range no slot is lost**: the held slots and those given back are
disjoint, together they are those from the first up to the next one, and the next one is at most one
past the range. -/
theorem Reachable.partition_of_stored {n : Nat} {first last : Slot} (hle : first ≤ last)
    {c : Cluster n} (h : c.Reachable fun s => s.slots.Spans first last) {key : String}
    {ledger : Ledger} (hs : c.stored key = .ok (some ledger)) :
    Disjoint ledger.heldSlots ledger.releasedSlots ∧
      ledger.heldSlots ∪ ledger.releasedSlots =
        Finset.Ico first.toNat ledger.nextSlot.toNat ∧
      first.toNat ≤ ledger.nextSlot.toNat ∧ ledger.nextSlot.toNat ≤ last.toNat + 1 := by
  obtain ⟨⟨hsound, -⟩, hparts⟩ := h.of_stored (Ledger.partitioned_invariant hle) hs
  exact ⟨hsound.disjoint, hparts.used, hparts.first_le, hparts.next_le⟩

/-- All slots of the range come into use, a start is refused by the lock, and a slot is given
back. -/
def likeSteps : List (Step 2) :=
  [.request 0 (.start "a"), .lock Settings.standard.key (.ofSeconds 1) "g",
    .request 1 (.start "b"), .unlock "g", .request 1 (.start "b"), .request 0 (.stop "a")]

theorem partition_after_likeSteps :
    ∃ ledger, ((likeNodes 2 3).run likeSteps).2.stored Settings.standard.key = .ok (some ledger) ∧
      ledger.slot? "b" = some 3 ∧ Disjoint ledger.heldSlots ledger.releasedSlots ∧
      ledger.heldSlots ∪ ledger.releasedSlots = Finset.Ico 2 4 := by
  have hc : ((likeNodes 2 3).run likeSteps).2.Reachable fun s => s.slots.Spans 2 3 :=
    (reachable_likeNodes 2 3).run (by decide)
  have hs : ((likeNodes 2 3).run likeSteps).2.stored Settings.standard.key =
      .ok (some ⟨4, .ofList [("b", Lease.mk 1 3)], (∅ : Std.ExtTreeSet UInt16).insert 2, 3⟩) := by
    cbv
  obtain ⟨hdisjoint, hunion, -, -⟩ := Reachable.partition_of_stored (by decide) hc hs
  exact ⟨_, hs, by decide +kernel, hdisjoint, hunion⟩

end Cluster

end Tenancy
