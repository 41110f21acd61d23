/-
**Sound ledgers.**

A ledger is sound when no slot has two holders, no held slot counts as given back, every slot in
use lies below the next one, and every lease has a reference.  That no slot has two holders is not
kept by itself: a fresh slot is unused only because all used ones lie below the next, and a slot
that is handed out again is unused only because held slots are never given back.  Together the four
are kept by all five changes, whatever the ranges and policies of the nodes are.

Main definitions:

* `Tenancy.Ledger.Sound` — **no slot is shared, in use twice or ahead of the next**;
* `Tenancy.Ledger.NamesFit` — the tenants' names have an octet form.

Main results:

* `Tenancy.Ledger.Sound.take` — a first lease of an unused slot keeps a ledger sound;
* `Tenancy.Ledger.Sound.change` — **all five changes do**;
* `Tenancy.Ledger.Sound.fits` — a sound ledger is small enough to have an octet form;
* `Tenancy.Ledger.sound_invariant` — so soundness is an invariant of all clusters.
-/

import Tenancy.Proofs.Ledger.SlotSets
import Tenancy.Proofs.Node.Transaction

set_option relaxedAutoImplicit false
set_option autoImplicit false

namespace Tenancy.Ledger

/-- **A ledger in which no slot is shared, in use twice or ahead of the next.** -/
structure Sound (l : Ledger) : Prop where
  /-- No two tenants hold the same slot. -/
  unique : ∀ {t u slot}, l.slot? t = some slot → l.slot? u = some slot → t = u
  /-- No tenant holds a slot that counts as given back. -/
  not_released : ∀ {t slot}, l.slot? t = some slot → slot ∉ l.released
  /-- A held slot is below the next one. -/
  held_lt : ∀ {t slot}, l.slot? t = some slot → slot < l.nextSlot
  /-- A slot given back is below the next one. -/
  released_lt : ∀ {slot}, slot ∈ l.released → slot < l.nextSlot
  /-- Every lease has at least one reference. -/
  counted : ∀ {t lease}, l.lease? t = some lease → 1 ≤ lease.references

namespace Sound

variable {l l' : Ledger} {tenant : String} {slot : Slot}

theorem empty (first : Slot) : (Ledger.empty first).Sound where
  unique h := by simp at h
  not_released h := by simp at h
  held_lt h := by simp at h
  released_lt h := by simp [Ledger.empty] at h
  counted h := by simp at h

theorem advance (h : l.Sound) (before : Ledger) : (l.advance before).Sound :=
  ⟨h.unique, h.not_released, h.held_lt, h.released_lt, h.counted⟩

/-! ### The five changes -/

/-- Another count of references, of at least one. -/
theorem recount (h : l.Sound) {lease : Lease} (hl : l.lease? tenant = some lease)
    {references : UInt32} (hr : 1 ≤ references) :
    (l.put tenant ⟨references, lease.slot⟩).Sound where
  unique ht hu := by
    rw [slot?_recount hl] at ht hu
    exact h.unique ht hu
  not_released ht := by
    rw [slot?_recount hl] at ht
    exact h.not_released ht
  held_lt ht := by
    rw [slot?_recount hl] at ht
    exact h.held_lt ht
  released_lt := h.released_lt
  counted ht := by
    rw [lease?_put] at ht
    split at ht
    · cases ht
      exact hr
    · exact h.counted ht

/-- The end of a lease. -/
theorem drop (h : l.Sound) (hs : l.slot? tenant = some slot) : (l.drop tenant slot).Sound where
  unique {t u s} ht hu := by
    rw [slot?_drop] at ht hu
    split at ht
    · cases ht
    · split at hu
      · cases hu
      · exact h.unique ht hu
  not_released {t s} ht := by
    rw [slot?_drop] at ht
    split at ht
    · cases ht
    · rename_i hne
      rw [mem_released_drop]
      rintro (rfl | hr)
      · -- who still holds the slot would be the tenant whose lease ended
        exact hne (h.unique hs ht)
      · exact h.not_released ht hr
  held_lt ht := by
    rw [slot?_drop] at ht
    split at ht
    · cases ht
    · exact h.held_lt ht
  released_lt hr := by
    rcases (mem_released_drop ..).1 hr with rfl | hr
    · exact h.held_lt hs
    · exact h.released_lt hr
  counted ht := by
    rw [lease?_drop] at ht
    split at ht
    · cases ht
    · exact h.counted ht

/-- **A first lease of a slot that is not in use.**  Of the ledger `m` from which the slot was taken
only matters that it has the leases of `l`, does not count the slot as given back, and has its next
slot above it. -/
theorem take {m : Ledger} (h : l.Sound) (hleases : m.leases = l.leases)
    (hunused : ∀ t, l.slot? t ≠ some slot) (hreleased : ∀ s ∈ m.released, s ∈ l.released ∧ s ≠ slot)
    (hnext : l.nextSlot ≤ m.nextSlot) (hslot : slot < m.nextSlot) :
    (m.put tenant ⟨1, slot⟩).Sound := by
  have hlease : ∀ t, m.lease? t = l.lease? t := fun t => by rw [lease?, hleases, lease?]
  -- whoever holds a slot is the new tenant with the new slot, or held it before
  have hcases : ∀ {t s}, (m.put tenant ⟨1, slot⟩).slot? t = some s →
      tenant = t ∧ slot = s ∨ l.slot? t = some s := by
    intro t s ht
    rw [slot?_put] at ht
    split at ht
    · rename_i he
      exact .inl ⟨he, Option.some.inj ht⟩
    · rw [slot?, hlease] at ht
      exact .inr ht
  have hlt : ∀ {s}, s < l.nextSlot → s < m.nextSlot := fun hs => by
    rw [UInt16.lt_iff_toNat_lt] at hs ⊢
    rw [UInt16.le_iff_toNat_le] at hnext
    omega
  constructor
  · intro t u s ht hu
    rcases hcases ht with ⟨rfl, rfl⟩ | ht
    · rcases hcases hu with ⟨rfl, -⟩ | hu
      · rfl
      · exact absurd hu (hunused u)
    · rcases hcases hu with ⟨rfl, rfl⟩ | hu
      · exact absurd ht (hunused t)
      · exact h.unique ht hu
  · intro t s ht hs
    obtain ⟨hs, hne⟩ := hreleased s hs
    rcases hcases ht with ⟨-, rfl⟩ | ht
    · exact hne rfl
    · exact h.not_released ht hs
  · intro t s ht
    rcases hcases ht with ⟨-, rfl⟩ | ht
    · exact hslot
    · exact hlt (h.held_lt ht)
  · intro s hs
    exact hlt (h.released_lt (hreleased s hs).1)
  · -- the count of the new lease is one, the other counts are as before
    intro t lease ht
    rw [lease?_put] at ht
    split at ht
    · cases ht
      exact Nat.le_refl 1
    · rw [hlease] at ht
      exact h.counted ht

/-- A first lease of a slot that was never used. -/
theorem take_fresh {p : SlotPolicy} (h : l.Sound) (hs : slot = max l.nextSlot p.first)
    (hf : slot.toNat + 1 < UInt16.size) :
    ({ l with nextSlot := slot + 1 }.put tenant ⟨1, slot⟩).Sound := by
  have hnext : l.nextSlot.toNat ≤ slot.toNat := by
    rw [hs, toNat_max]
    exact Nat.le_max_left ..
  -- all slots in use are below the next one, which is at most the slot that is taken
  have hbelow : ∀ {s}, s < l.nextSlot → s ≠ slot := by
    rintro s hlt rfl
    rw [UInt16.lt_iff_toNat_lt] at hlt
    omega
  refine h.take rfl (fun t ht => hbelow (h.held_lt ht) rfl) ?_ ?_ ?_
  · exact fun s hs => ⟨hs, hbelow (h.released_lt hs)⟩
  · rw [UInt16.le_iff_toNat_le, toNat_next hf]
    omega
  · rw [UInt16.lt_iff_toNat_lt, toNat_next hf]
    omega

/-- A first lease of a slot that was given back. -/
theorem take_released (h : l.Sound) (hs : l.released.min? = some slot) :
    ({ l with released := l.released.erase slot }.put tenant ⟨1, slot⟩).Sound := by
  have hmem : slot ∈ l.released := Std.ExtTreeSet.min?_mem hs
  refine h.take rfl (fun t ht => h.not_released ht hmem) ?_ (UInt16.le_refl _) (h.released_lt hmem)
  intro s hs
  rw [Std.ExtTreeSet.mem_erase, ne_eq, Std.LawfulEqCmp.compare_eq_iff_eq] at hs
  exact ⟨hs.2, Ne.symm hs.1⟩

/-- **All five changes keep a ledger sound.** -/
theorem change {p : SlotPolicy} (h : l.Sound) (hc : l.Change p tenant l') : l'.Sound := by
  cases hc with
  | retained lease held room =>
      refine h.recount held ?_
      -- the count does not wrap around to zero
      rw [UInt32.le_iff_toNat_le, toNat_add_one room]
      exact Nat.le_add_left 1 _
  | returned lease held others =>
      refine h.recount held ?_
      rw [UInt32.le_iff_toNat_le, toNat_sub_one others]
      rw [UInt32.lt_iff_toNat_lt] at others
      exact Nat.le_sub_of_add_le others
  | released lease held last => exact h.drop (slot?_of_lease? held)
  | fresh slot absent least inRange followed => exact h.take_fresh least followed
  | reused slot absent least => exact h.take_released least

/-! ### Sound ledgers as sets -/

/-- No slot is held and given back at once. -/
theorem disjoint (h : l.Sound) : Disjoint l.heldSlots l.releasedSlots := by
  rw [Finset.disjoint_left]
  intro k hk hr
  obtain ⟨t, slot, hs, rfl⟩ := mem_heldSlots.1 hk
  exact h.not_released hs (toNat_mem_releasedSlots.1 hr)

/-- Every tenant holds a slot of its own. -/
theorem card_heldSlots (h : l.Sound) : l.heldSlots.card = l.size := by
  have hnodup : (l.leases.toList.map fun entry => entry.2.slot.toNat).Nodup := by
    refine List.Nodup.map_on ?_ ?_
    · -- entries with one slot are entries of one tenant
      rintro ⟨t, a⟩ ha ⟨u, b⟩ hb he
      rw [Std.ExtTreeMap.mem_toList_iff_getElem?_eq_some] at ha hb
      have hslot : a.slot = b.slot := UInt16.toNat.inj he
      have htu : t = u :=
        h.unique (slot?_of_lease? ha) (hslot ▸ slot?_of_lease? hb)
      subst htu
      rw [ha] at hb
      cases hb
      rfl
    · refine Std.ExtTreeMap.distinct_keys_toList.imp ?_
      rintro a b hne rfl
      simp at hne
  rw [heldSlots, List.toFinset_card_of_nodup hnodup, List.length_map,
    Std.ExtTreeMap.length_toList, size]

/-- No more tenants hold a slot than there are slots. -/
theorem size_le (h : l.Sound) : l.size ≤ UInt16.size := by
  rw [← h.card_heldSlots, ← Finset.card_range UInt16.size]
  exact Finset.card_le_card (Finset.subset_union_left.trans l.usedSlots_subset_range)

end Sound

/-! ### An invariant of all clusters -/

/-- The names of the tenants have an octet form. -/
def NamesFit (l : Ledger) : Prop :=
  ∀ tenant lease, l.lease? tenant = some lease → Octets.TextFits tenant

/-- A change for a tenant whose name fits keeps the names fitting. -/
theorem NamesFit.change {p : SlotPolicy} {l l' : Ledger} {tenant : String} (h : l.NamesFit)
    (ht : Octets.TextFits tenant) (hc : l.Change p tenant l') : l'.NamesFit := by
  have hput : ∀ {m : Ledger} {lease : Lease}, m.leases = l.leases →
      (m.put tenant lease).NamesFit := by
    intro m lease hm other kept hk
    rw [lease?_put] at hk
    split at hk
    · rename_i he
      exact he ▸ ht
    · rw [lease?, hm] at hk
      exact h other kept hk
  cases hc with
  | retained lease held room => exact hput rfl
  | returned lease held others => exact hput rfl
  | released lease held last =>
      intro other kept hk
      rw [lease?_drop] at hk
      split at hk
      · cases hk
      · exact h other kept hk
  | fresh slot absent least inRange followed => exact hput rfl
  | reused slot absent least => exact hput rfl

/-- A sound ledger is small enough to have an octet form: there are no more leases than slots. -/
theorem Sound.fits {l : Ledger} (h : l.Sound) (hnames : l.NamesFit) : l.Fits := by
  have hsize : UInt16.size < Octets.wordCount 8 := by decide
  exact ⟨hnames, Nat.lt_of_le_of_lt h.size_le hsize,
    Nat.lt_of_le_of_lt l.size_released_le hsize⟩

/-- **Soundness is an invariant of all clusters**, whatever the settings of their nodes. -/
theorem sound_invariant (S : Settings → Prop) :
    Invariant S fun l => l.Sound ∧ l.NamesFit where
  fits _ h := h.1.fits h.2
  empty s _ := ⟨.empty s.slots.first, fun tenant lease h => by simp at h⟩
  change _ ht h hc := by
    have hnames := h.2.change ht hc
    exact ⟨(h.1.change hc).advance _, hnames⟩

end Tenancy.Ledger
