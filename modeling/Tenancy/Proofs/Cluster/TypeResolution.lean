/-
**What the start of a cache answers.**

Once a node has taken a reference, the slot and the types of the kind decide on the answer.  At a
slot of the range for which the node's table was verified every kind has a mux id, and what is left
are the types: if all are known the cache is described with their handles, and otherwise the least
that is not is the failure.  A tenant may hold a slot outside of this range, taken by a node of
another range; there a kind need not have a mux id, and this is found before any type is looked at.
The registry made from the table itself never lacks a type.

Main results:

* `Tenancy.Node.startCache_of_start` — after the start the description is the answer;
* `Tenancy.Node.startCache_tells` — **the slot and the types decide on the answer**;
* `Tenancy.Node.overflow_before_types` — outside of the range the types may not be looked at.
-/

import Tenancy.Proofs.Cache.Exact
import Tenancy.Proofs.Cache.Types
import Tenancy.Proofs.Cluster.Caches

set_option relaxedAutoImplicit false
set_option autoImplicit false

namespace Tenancy

theorem Resolver.new_of_validate {s : Settings} {table : Cache.Table}
    (h : s.validate table = .ok ()) (source : Cache.TypeSource) :
    Resolver.new s table source = .ok ⟨table, source⟩ := by
  simp only [Resolver.new, h]
  rfl

namespace Node

variable {n : Node} {resolver : Resolver} {table : Cache.Table} {source : Cache.TypeSource}
  {tenant : String} {kind : Cache.Kind} {b : Backend} {lease : Lease}

/-! ### Answers -/

/-- **After the start the description is the answer.** -/
theorem startCache_of_start (h : (n.call (.start tenant) b).1 = .ok lease) :
    (n.startCache resolver tenant kind b).1 =
      Cache.describe resolver.table resolver.source n.settings.indexedCaches tenant kind
        lease.slot := by
  cases hanswer : (n.startCache resolver tenant kind b).1 with
  | ok description =>
      obtain ⟨found, hfound, -, hdescribe⟩ := startCache_eq_ok hanswer
      obtain rfl : found = lease := Except.ok.inj (hfound.symm.trans h)
      exact hdescribe.symm
  | error failure =>
      rcases startCache_eq_error hanswer with hrefused | ⟨found, hfound, hdescribe⟩
      · rw [h] at hrefused
        cases hrefused
      · obtain rfl : found = lease := Except.ok.inj (hfound.symm.trans h)
        exact hdescribe.symm

/-- No request fails with a type. -/
theorem call_ne_unknownType (n : Node) (r : Request) (b : Backend) (name : String) :
    (n.call r b).1 ≠ .error (.unknownType name) := by
  intro h
  have heffect := Settings.effect_of_result_eq_error h
  cases heffect

/-! ### Slots and types -/

/-- A verified table has signs for which a mux id is lacking only if it does not fit. -/
theorem startCache_of_not_fits (hsign : (table.spec kind).HasSign)
    (hstart : (n.call (.start tenant) b).1 = .ok lease)
    (hfits : ¬ (table.spec kind).Fits n.settings.indexedCaches lease.slot) :
    (n.startCache ⟨table, source⟩ tenant kind b).1 =
      .error (.muxIdOverflow lease.slot (table.spec kind).sign (table.spec kind).offset) := by
  rw [startCache_of_start hstart]
  exact Cache.describe_of_muxId_eq_error ((Cache.Spec.muxId_eq_error_iff hsign).2 ⟨hfits, rfl⟩)

/-- **With a mux id the types decide on the answer.** -/
theorem decidedByTypes_startCache (hsign : (table.spec kind).HasSign)
    (hstart : (n.call (.start tenant) b).1 = .ok lease)
    (hfits : (table.spec kind).Fits n.settings.indexedCaches lease.slot) :
    Cache.DecidedByTypes source (table.spec kind).types
      (n.startCache ⟨table, source⟩ tenant kind b).1 := by
  obtain ⟨id, hid⟩ := hfits.exists_id
  rw [startCache_of_start hstart]
  exact Cache.decidedByTypes_describe ((Cache.Spec.muxId_eq_ok_iff hsign).2 hid)

/-- **The registry of the table never lacks a type.** -/
theorem startCache_ne_unknownType (hsign : (table.spec kind).HasSign) (name : String) :
    (n.startCache ⟨table, (Cache.Registry.ofTable table).resolve?⟩ tenant kind b).1 ≠
      .error (.unknownType name) := by
  intro h
  rcases startCache_eq_error h with hrefused | ⟨lease, hstart, -⟩
  · exact call_ne_unknownType n (.start tenant) b name hrefused
  · by_cases hfits : (table.spec kind).Fits n.settings.indexedCaches lease.slot
    · obtain ⟨description, hok⟩ := (decidedByTypes_startCache hsign hstart hfits).ok_iff.2
        fun _ hmem => ⟨_, Cache.Registry.resolve?_ofTable_of_mem hmem⟩
      rw [h] at hok
      cases hok
    · rw [startCache_of_not_fits hsign hstart hfits] at h
      cases h

/-- **What the start of a cache answers**, at a node with a resolver.  Once a reference is taken,
the kind has a mux id at every slot of the node's range, and perhaps at others; where it has one the
types decide, and where it has none this is the failure.  With the registry of the table no type is
ever unknown, and the handles are the names themselves. -/
theorem startCache_tells (h : Resolver.new n.settings table source = .ok resolver)
    (tenant : String) (kind : Cache.Kind) (b : Backend) :
    (∀ lease, (n.call (.start tenant) b).1 = .ok lease →
      (n.settings.slots.first ≤ lease.slot → lease.slot ≤ n.settings.slots.last →
        (table.spec kind).Fits n.settings.indexedCaches lease.slot) ∧
      ((table.spec kind).Fits n.settings.indexedCaches lease.slot →
        Cache.DecidedByTypes source (table.spec kind).types
          (n.startCache resolver tenant kind b).1) ∧
      (¬ (table.spec kind).Fits n.settings.indexedCaches lease.slot →
        (n.startCache resolver tenant kind b).1 =
          .error (.muxIdOverflow lease.slot (table.spec kind).sign (table.spec kind).offset))) ∧
    (source = (Cache.Registry.ofTable table).resolve? →
      (∀ name, (n.startCache resolver tenant kind b).1 ≠ .error (.unknownType name)) ∧
      ∀ description, (n.startCache resolver tenant kind b).1 = .ok description →
        ∃ names, Cache.NamesOf (table.spec kind).types names ∧
          description.types = names.map fun name => ⟨name, name⟩) := by
  obtain ⟨hvalid, rfl⟩ := Resolver.new_eq_ok h
  obtain ⟨-, -, -, -, hverify⟩ := Settings.validate_eq_ok_iff.1 hvalid
  have hsign : (table.spec kind).HasSign := (Cache.Table.verify_eq_ok_iff.1 hverify).1 kind
  refine ⟨fun lease hstart => ⟨fun hfirst hlast => ?_, fun hfits => ?_, fun hfits => ?_⟩, ?_⟩
  · obtain ⟨ids, -, hids⟩ := Cluster.separates_of_validate hvalid hfirst hlast
    exact Cache.Spec.fits_of_exact ((Cache.Spec.muxId_eq_ok_iff hsign).1 (hids kind))
  · exact decidedByTypes_startCache hsign hstart hfits
  · exact startCache_of_not_fits hsign hstart hfits
  · rintro rfl
    refine ⟨startCache_ne_unknownType hsign, fun description hok => ?_⟩
    obtain ⟨lease, hstart, -, hdescribe⟩ := startCache_eq_ok hok
    obtain ⟨-, hid⟩ := Cache.describe_eq_ok hdescribe
    exact Cache.Registry.exists_names_of_handlesOf
      ((Cache.decidedByTypes_describe hid).handles description hdescribe)

theorem startCache_tells_logs :
    Cache.DecidedByTypes (Cache.Registry.ofTable .standard).resolve?
        (Cache.Table.standard.spec .logs).types
        ((Node.new (Cluster.smallRange .whenExhausted)).startCache
          ⟨.standard, (Cache.Registry.ofTable .standard).resolve?⟩ "a" .logs
          ⟨.empty, .new .inMemory⟩).1 ∧
      ((Node.new (Cluster.smallRange .whenExhausted)).startCache
        ⟨.standard, (Cache.Registry.ofTable .standard).resolve?⟩ "a" .logs
        ⟨.empty, .new .inMemory⟩).1 ≠ .error (.unknownType "RequestLogs") := by
  obtain ⟨hvalid, -⟩ := Resolver.new_eq_ok Cluster.new_smallRange
  have hnew := Resolver.new_of_validate hvalid (Cache.Registry.ofTable .standard).resolve?
  have hstart : ((Node.new (Cluster.smallRange .whenExhausted)).call (.start "a")
      ⟨.empty, .new .inMemory⟩).1 = .ok ⟨1, 2⟩ := by decide +kernel
  have htells := startCache_tells (n := .new (Cluster.smallRange .whenExhausted)) hnew "a" .logs
    ⟨.empty, .new .inMemory⟩
  obtain ⟨hrange, hdecided, -⟩ := htells.1 ⟨1, 2⟩ hstart
  exact ⟨hdecided (hrange (by decide) (by decide)), (htells.2 rfl).1 "RequestLogs"⟩

/-- A store in which a node of a far range has taken a slot for a tenant. -/
def takenFar : Backend :=
  ((Node.new { Settings.standard with slots := ⟨20000, 20000, .whenExhausted⟩ }).call (.start "a")
    ⟨.empty, .new .inMemory⟩).2.2

/-- **Outside of the range the types may not be looked at**: here none is known, but what is found
first is that the kind has no mux id at the slot of the tenant. -/
theorem overflow_before_types :
    Resolver.new (Cluster.smallRange .whenExhausted) .standard (fun _ => none) =
        .ok ⟨.standard, fun _ => none⟩ ∧
      ((Node.new (Cluster.smallRange .whenExhausted)).call (.start "a") takenFar).1 =
        .ok ⟨2, 20000⟩ ∧
      ((Node.new (Cluster.smallRange .whenExhausted)).startCache ⟨.standard, fun _ => none⟩ "a"
        .tasks takenFar).1 = .error (.muxIdOverflow 20000 1 0) ∧
      ¬ Cache.DecidedByTypes (fun _ => none) (Cache.Table.standard.spec .tasks).types
        ((Node.new (Cluster.smallRange .whenExhausted)).startCache ⟨.standard, fun _ => none⟩ "a"
          .tasks takenFar).1 := by
  have hanswer : ((Node.new (Cluster.smallRange .whenExhausted)).startCache
      ⟨.standard, fun _ => none⟩ "a" .tasks takenFar).1 = .error (.muxIdOverflow 20000 1 0) := by
    decide +kernel
  refine ⟨Cluster.new_smallRange, by decide +kernel, hanswer, fun h => ?_⟩
  obtain ⟨name, -, hname⟩ := h.unknown _ hanswer
  cases hname

end Node

end Tenancy
