/-
**Mux ids of caches never clash.**

Two facts meet here.  A table that was verified over a range of slots separates the kinds at every
slot of the range, and nodes of one range hand out slots of that range only, whatever is reused,
given back or thrown away.  So a cache that is started always has a mux id, the caches of a tenant
have different ones, and each keeps its own until the tenant's last reference is dropped.

Main definitions:

* `Tenancy.Settings.Alike` — settings that agree in all that mux ids depend on;
* `Tenancy.Cluster.Uses` — all resolvers of a cluster have one table;
* `Tenancy.Cluster.Step.muxId?` — the mux id that the reply to a step names for a cache.

Main results:

* `Tenancy.Cluster.Reachable.separates` — **at the slot of a tenant the kinds are separated**;
* `Tenancy.Cluster.Reachable.mux_ids_apart` — **no mux id overflows, two kinds never share one, and
  a cache keeps its own**.
-/

import Tenancy.Proofs.Cache.Verified
import Tenancy.Proofs.Cluster.History
import Tenancy.Proofs.Ledger.Partition

set_option relaxedAutoImplicit false
set_option autoImplicit false

namespace Tenancy

open Ledger (Invariant)

/-! ### Nodes that agree -/

/-- **Settings that agree with `s₀` in all that mux ids depend on.**  How long a node waits and
which slots it prefers is its own matter. -/
def Settings.Alike (s₀ s : Settings) : Prop :=
  s.key = s₀.key ∧ s.slots.Spans s₀.slots.first s₀.slots.last ∧ s.indexedCaches = s₀.indexedCaches

/-- What every change keeps at all nodes, it keeps at some of them. -/
theorem Ledger.Invariant.mono {S S' : Settings → Prop} {I : Ledger → Prop} (hI : Invariant S I)
    (h : ∀ s, S' s → S s) : Invariant S' I where
  fits := hI.fits
  empty s hs := hI.empty s (h s hs)
  change hs := hI.change (h _ hs)

theorem Ledger.Partitioned.mem_range {first last slot : Slot} {l : Ledger} {tenant : String}
    (h : l.Partitioned first last) (hs : l.slot? tenant = some slot) :
    first ≤ slot ∧ slot ≤ last := by
  obtain ⟨hfirst, hnext⟩ :=
    h.bounds (Finset.mem_union_left _ (Ledger.mem_heldSlots_of_slot? hs))
  have hlast := h.next_le
  rw [UInt16.le_iff_toNat_le, UInt16.le_iff_toNat_le]
  omega

/-! ### Caches at a node -/

namespace Node

variable {n : Node} {resolver : Resolver} {tenant : String} {kind : Cache.Kind} {b : Backend}

/-- A cache is started with the slot of an answered start. -/
theorem startCache_eq_ok {description : Cache.Description}
    (h : (n.startCache resolver tenant kind b).1 = .ok description) :
    ∃ lease, (n.call (.start tenant) b).1 = .ok lease ∧
      n.startCacheCalls resolver tenant kind b = [⟨.start tenant, .ok lease⟩] ∧
      Cache.describe resolver.table resolver.source n.settings.indexedCaches tenant kind
        lease.slot = .ok description := by
  have hsettings := settings_call n (.start tenant) b
  simp only [startCache, startCacheCalls] at h ⊢
  generalize n.call (.start tenant) b = called at h hsettings ⊢
  obtain ⟨answer, m, b'⟩ := called
  cases answer with
  | error failure => cases h
  | ok lease =>
      dsimp only at h hsettings ⊢
      rw [hsettings] at h ⊢
      cases hdescribe : Cache.describe resolver.table resolver.source n.settings.indexedCaches
        tenant kind lease.slot with
      | error failure =>
          rw [hdescribe] at h
          cases h
      | ok found =>
          rw [hdescribe] at h
          cases h
          exact ⟨lease, rfl, rfl, hdescribe⟩

/-- A cache that is not started was refused a slot or could not be described. -/
theorem startCache_eq_error {failure : Failure}
    (h : (n.startCache resolver tenant kind b).1 = .error failure) :
    (n.call (.start tenant) b).1 = .error failure ∨
      ∃ lease, (n.call (.start tenant) b).1 = .ok lease ∧
        Cache.describe resolver.table resolver.source n.settings.indexedCaches tenant kind
          lease.slot = .error failure := by
  have hsettings := settings_call n (.start tenant) b
  simp only [startCache] at h
  generalize n.call (.start tenant) b = called at h hsettings ⊢
  obtain ⟨answer, m, b'⟩ := called
  cases answer with
  | error refusal =>
      cases h
      exact .inl rfl
  | ok lease =>
      dsimp only at h hsettings ⊢
      rw [hsettings] at h
      cases hdescribe : Cache.describe resolver.table resolver.source n.settings.indexedCaches
        tenant kind lease.slot with
      | error fault =>
          rw [hdescribe] at h
          cases h
          exact .inr ⟨lease, rfl, hdescribe⟩
      | ok found =>
          rw [hdescribe] at h
          cases h

theorem muxId_eq (n : Node) (resolver : Resolver) (tenant : String) (kind : Cache.Kind)
    (b : Backend) : (n.muxId resolver tenant kind b).1 =
      match (n.call (.get tenant) b).1 with
      | .error failure => .error failure
      | .ok slot => resolver.table.muxId kind slot n.settings.indexedCaches := by
  have hsettings := settings_call n (.get tenant) b
  simp only [muxId]
  generalize n.call (.get tenant) b = called at hsettings ⊢
  obtain ⟨answer, m, b'⟩ := called
  cases answer with
  | error failure => rfl
  | ok slot =>
      dsimp only at hsettings ⊢
      rw [hsettings]

theorem resolver_giveBack (n : Node) (tenant : String) (b : Backend) :
    (n.giveBack tenant b).1.resolver = n.resolver := by
  have hcall := resolver_call n (.stop tenant) b
  simp only [giveBack]
  split <;> rename_i heq <;> rw [heq] at hcall <;> exact hcall

theorem resolver_startCache (n : Node) (resolver : Resolver) (tenant : String) (kind : Cache.Kind)
    (b : Backend) : (n.startCache resolver tenant kind b).2.1.resolver = n.resolver := by
  have hcall := resolver_call n (.start tenant) b
  simp only [startCache]
  split <;> rename_i heq <;> rw [heq] at hcall
  · exact hcall
  · split
    · exact hcall
    · rw [resolver_giveBack]
      exact hcall

theorem resolver_muxId (n : Node) (resolver : Resolver) (tenant : String) (kind : Cache.Kind)
    (b : Backend) : (n.muxId resolver tenant kind b).2.1.resolver = n.resolver := by
  have hcall := resolver_call n (.get tenant) b
  simp only [muxId]
  split <;> rename_i heq <;> rw [heq] at hcall <;> exact hcall

end Node

namespace Cluster

variable {n : Nat} {c : Cluster n} {s₀ : Settings} {table : Cache.Table}

/-! ### The table of the resolvers -/

/-- All resolvers of the cluster have one table. -/
def Uses (c : Cluster n) (table : Cache.Table) : Prop :=
  ∀ i resolver, (c.node i).resolver = some resolver → resolver.table = table

/-- A step that makes no resolver with another table. -/
def Step.Uses (table : Cache.Table) : Step n → Prop
  | .resolve _ t _ => t = table
  | _ => True

namespace Uses

theorem new (store : Store) (settings : Vector Settings n) :
    (Cluster.new store settings).Uses table := by
  intro i resolver hr
  change (settings.map Node.new)[i.val].resolver = some resolver at hr
  rw [Vector.getElem_map] at hr
  cases hr

theorem congr {c' : Cluster n} (h : c.Uses table) (hnodes : c'.nodes = c.nodes) :
    c'.Uses table := by
  intro i resolver hr
  rw [Cluster.node, hnodes] at hr
  exact h i resolver hr

theorem update (h : c.Uses table) (i : Fin n) {m : Node} (b : Backend)
    (hm : ∀ resolver, m.resolver = some resolver → resolver.table = table) :
    (c.update i m b).Uses table := by
  intro j resolver hr
  by_cases hij : i = j
  · subst hij
    rw [node_update_self] at hr
    exact hm resolver hr
  · rw [node_update_of_ne c m b hij] at hr
    exact h j resolver hr

theorem call (h : c.Uses table) (i : Fin n) (r : Request) : (c.call i r).2.Uses table :=
  h.update i _ (h i)

theorem throughResolver {α : Type} (h : c.Uses table) (i : Fin n)
    (act : Node → Resolver → Backend → Except Failure α × Node × Backend)
    (hact : ∀ resolver, (act (c.node i) resolver c.backend).2.1.resolver = (c.node i).resolver) :
    (c.throughResolver i act).2.Uses table := by
  simp only [Cluster.throughResolver]
  split
  · exact h
  · rename_i resolver _
    refine h.update i _ ?_
    rw [hact resolver]
    exact h i

theorem serveUnlessWaiting (key : String) (calls : List (Call n)) (h : c.Uses table) :
    (Cluster.serveUnlessWaiting key c calls).2.Uses table := by
  induction calls generalizing c with
  | nil => exact h
  | cons call calls ih =>
      simp only [Cluster.serveUnlessWaiting]
      split
      · exact ih h
      · exact ih (h.call call.node call.request)

theorem serveWaiting (pending : List (Served ⊕ Call n)) (h : c.Uses table) :
    (c.serveWaiting pending).2.Uses table := by
  induction pending generalizing c with
  | nil => exact h
  | cons first pending ih =>
      cases first with
      | inl served => exact ih h
      | inr call => exact ih (h.call call.node call.request)

theorem queue (i : Fin n) (calls : List (Call n)) (h : c.Uses table) :
    (c.queue i calls).2.Uses table := by
  simp only [Cluster.queue]
  split
  · exact h
  · rename_i locks _
    have hbegun : (c.withLocks locks).Uses table := h.congr rfl
    have hheld := hbegun.serveUnlessWaiting (c.node i).settings.key calls
    refine serveWaiting _ ?_
    exact hheld.congr rfl

theorem unlock (h : c.Uses table) (name : String) : (c.unlock name).2.Uses table := by
  simp only [Cluster.unlock]
  split
  · exact h
  · exact h.congr rfl

theorem lock (h : c.Uses table) (resource : String) (timeout : Duration) (name : String) :
    (c.lock resource timeout name).2.Uses table := by
  simp only [Cluster.lock]
  split
  · exact h
  · rename_i locks _
    have hlocks : (c.withLocks locks).Uses table := h.congr rfl
    exact (hlocks.unlock name).congr rfl

/-- **Only a step that makes a resolver changes a table.** -/
theorem perform (h : c.Uses table) {step : Step n} (hstep : step.Uses table) :
    (c.perform step).2.Uses table := by
  cases step with
  | request i r => exact h.call i r
  | queue i calls => exact h.queue i calls
  | lock resource timeout name => exact h.lock resource timeout name
  | unlock name => exact h.unlock name
  | resolve i t source =>
      simp only [Cluster.perform]
      split
      · exact h
      · rename_i made hnew
        obtain ⟨-, rfl⟩ := Resolver.new_eq_ok hnew
        refine h.update i _ fun resolver hr => ?_
        cases hr
        exact hstep
  | startCache i tenant kind =>
      refine h.throughResolver i (fun node resolver => node.startCache resolver tenant kind) ?_
      exact fun resolver => Node.resolver_startCache ..
  | stopCache i tenant kind =>
      refine h.throughResolver i (fun node _ => node.stopCache tenant) ?_
      exact fun resolver => Node.resolver_call ..
  | muxId i tenant kind =>
      refine h.throughResolver i (fun node resolver => node.muxId resolver tenant kind) ?_
      exact fun resolver => Node.resolver_muxId ..
  | restart =>
      intro i resolver hr
      have hnone : (c.restart.node i).resolver = none := by
        simp [Cluster.restart, Cluster.node, withStore, Node.new]
      rw [show (c.perform .restart).2 = c.restart from rfl, hnone] at hr
      cases hr
  | put key ledger => exact h.congr rfl
  | writeFile file content => exact h.congr rfl
  | load key => exact h.congr rfl
  | failLoad => exact h.congr rfl
  | failSave after => exact h.congr rfl
  | counters | errors | faults | status | files => exact h

theorem run (h : c.Uses table) {steps : List (Step n)}
    (hsteps : ∀ step ∈ steps, step.Uses table) : (c.run steps).2.Uses table := by
  induction steps generalizing c with
  | nil => exact h
  | cons step steps ih =>
      refine ih (h.perform (hsteps step List.mem_cons_self)) fun other ho => ?_
      exact hsteps other (List.mem_cons_of_mem _ ho)

end Uses

/-! ### The slots of tenants -/

/-- A ledger in which every slot is held by one tenant and is of the range of `s₀`. -/
abbrev InRange (s₀ : Settings) (l : Ledger) : Prop :=
  (l.Sound ∧ l.NamesFit) ∧ l.Partitioned s₀.slots.first s₀.slots.last

theorem inRange_invariant (hle : s₀.slots.first ≤ s₀.slots.last) :
    Invariant s₀.Alike (InRange s₀) :=
  (Ledger.partitioned_invariant hle).mono fun _ hs => hs.2.1

/-- Where settings and table have passed their check, slots of the range separate the kinds. -/
theorem separates_of_validate (hvalid : s₀.validate table = .ok ()) {slot : Slot}
    (hfirst : s₀.slots.first ≤ slot) (hlast : slot ≤ s₀.slots.last) :
    table.Separates s₀.indexedCaches slot := by
  obtain ⟨-, -, -, -, hverify⟩ := Settings.validate_eq_ok_iff.1 hvalid
  exact (Cache.Table.verify_eq_ok_iff.1 hverify).2 slot hfirst hlast

theorem range_of_validate (hvalid : s₀.validate table = .ok ()) :
    s₀.slots.first ≤ s₀.slots.last :=
  (Settings.validate_eq_ok_iff.1 hvalid).2.2.2.1

namespace Reachable

/-- **At the slot of a tenant the kinds are separated.** -/
theorem separates (h : c.Reachable s₀.Alike) (hvalid : s₀.validate table = .ok ()) {key : String}
    {tenant : String} {lease : Lease} (hl : c.held key tenant = some lease) :
    table.Separates s₀.indexedCaches lease.slot := by
  rw [held, Store.held] at hl
  split at hl
  · rename_i ledger hstored
    obtain ⟨-, hparts⟩ := h.of_stored (inRange_invariant (range_of_validate hvalid)) hstored
    obtain ⟨hfirst, hlast⟩ := hparts.mem_range (Ledger.slot?_of_lease? hl)
    exact separates_of_validate hvalid hfirst hlast
  · cases hl

/-- So they are at the slot with which a start is answered. -/
theorem separates_of_start (h : c.Reachable s₀.Alike) (hvalid : s₀.validate table = .ok ())
    {i : Fin n} {tenant : String} {lease : Lease}
    (hstart : (c.call i (.start tenant)).1 = .ok lease) :
    table.Separates s₀.indexedCaches lease.slot := by
  have hI := inRange_invariant (range_of_validate hvalid)
  obtain ⟨loaded, changed, hload, hserve⟩ := Settings.serve_of_result_eq_ok hstart
  obtain ⟨⟨hsound, -⟩, hparts⟩ := h.of_loaded hI hload
  obtain ⟨l', -, hstarted⟩ := Ledger.start_of_serve hserve
  -- the slot is held after the change, which keeps to the range
  have hspans := ((h.upholds hI).settings i).2.1
  have hchanged := hparts.change hsound hspans (Ledger.change_of_start hstarted)
  obtain ⟨hfirst, hlast⟩ :=
    hchanged.mem_range (Ledger.slot?_of_lease? (Ledger.lease?_start hstarted))
  exact separates_of_validate hvalid hfirst hlast

/-- So they are at the slot that a look-up finds. -/
theorem separates_of_get (h : c.Reachable s₀.Alike) (hvalid : s₀.validate table = .ok ())
    {i : Fin n} {tenant : String} {slot : Slot} (hget : (c.call i (.get tenant)).1 = .ok slot) :
    table.Separates s₀.indexedCaches slot := by
  obtain ⟨held', heffect⟩ := Settings.effect_of_result_eq_ok hget
  cases heffect with
  | found _ lease present => exact h.separates hvalid present

end Reachable

/-! ### Steps about caches -/

/-- The mux id that the reply to a step names for a tenant's cache of a kind. -/
def Step.muxId? (tenant : String) (kind : Cache.Kind) :
    Step n → Except Failure Reply → Option Int16
  | .startCache _ t k, .ok (.cache description) =>
      if t = tenant ∧ k = kind then some description.muxId else none
  | .muxId _ t k, .ok (.muxId id) => if t = tenant ∧ k = kind then some id else none
  | _, _ => none

/-- No request fails with an overflow. -/
theorem call_ne_overflow (c : Cluster n) (i : Fin n) (r : Request) (slot : Slot)
    (sign offset : Int8) : (c.call i r).1 ≠ .error (.muxIdOverflow slot sign offset) := by
  intro h
  have heffect := Settings.effect_of_result_eq_error h
  cases heffect

section Steps

variable (hc : c.Reachable s₀.Alike) (hvalid : s₀.validate table = .ok ())
include hc hvalid

theorem indexedCaches_eq (i : Fin n) : (c.node i).settings.indexedCaches = s₀.indexedCaches :=
  ((hc.upholds (inRange_invariant (range_of_validate hvalid))).settings i).2.2

variable (htable : c.Uses table)
include htable

/-- A cache that is started has a mux id. -/
theorem startCache_ne_overflow (i : Fin n) (tenant : String) (kind : Cache.Kind) (slot : Slot)
    (sign offset : Int8) :
    (c.perform (.startCache i tenant kind)).1 ≠ .error (.muxIdOverflow slot sign offset) := by
  intro h
  simp only [perform, throughResolver] at h
  cases hresolver : (c.node i).resolver with
  | none =>
      simp only [hresolver] at h
      cases h
  | some resolver =>
      simp only [hresolver] at h
      cases hanswer : ((c.node i).startCache resolver tenant kind c.backend).1 with
      | ok description =>
          rw [hanswer] at h
          cases h
      | error failure =>
          rw [hanswer] at h
          cases h
          rcases Node.startCache_eq_error hanswer with hstart | ⟨lease, hstart, hdescribe⟩
          · exact call_ne_overflow c i (.start tenant) slot sign offset hstart
          · obtain ⟨ids, -, hids⟩ := hc.separates_of_start hvalid hstart
            rw [htable i resolver hresolver, indexedCaches_eq hc hvalid i] at hdescribe
            obtain ⟨name, hname⟩ := Cache.describe_eq_error (hids kind) hdescribe
            cases hname

/-- A cache of a tenant that holds a slot has a mux id. -/
theorem muxId_ne_overflow (i : Fin n) (tenant : String) (kind : Cache.Kind) (slot : Slot)
    (sign offset : Int8) :
    (c.perform (.muxId i tenant kind)).1 ≠ .error (.muxIdOverflow slot sign offset) := by
  intro h
  simp only [perform, throughResolver] at h
  cases hresolver : (c.node i).resolver with
  | none =>
      simp only [hresolver] at h
      cases h
  | some resolver =>
      simp only [hresolver, Node.muxId_eq] at h
      cases hanswer : (c.call i (.get tenant)).1 with
      | error failure =>
          rw [show ((c.node i).call (.get tenant) c.backend).1 = _ from hanswer] at h
          cases h
          exact call_ne_overflow c i (.get tenant) slot sign offset hanswer
      | ok found =>
          obtain ⟨ids, -, hids⟩ := hc.separates_of_get hvalid hanswer
          rw [show ((c.node i).call (.get tenant) c.backend).1 = _ from hanswer] at h
          dsimp only at h
          rw [htable i resolver hresolver, indexedCaches_eq hc hvalid i, hids kind] at h
          cases h

/-- A reply that names a mux id comes from one call, whose answer names the slot. -/
theorem exists_call_of_muxId? {step : Step n} {tenant : String} {kind : Cache.Kind} {id : Int16}
    (h : step.muxId? tenant kind (c.perform step).1 = some id) :
    ∃ e slot, c.calls step = [e] ∧ e.slot? tenant = some slot ∧
      Served.releases tenant e = false ∧ table.muxId kind slot s₀.indexedCaches = .ok id := by
  cases step with
  | startCache i t k =>
      simp only [calls, perform, throughResolver] at h ⊢
      cases hresolver : (c.node i).resolver with
      | none =>
          simp only [hresolver] at h
          cases h
      | some resolver =>
          simp only [hresolver] at h ⊢
          cases hanswer : ((c.node i).startCache resolver t k c.backend).1 with
          | error failure =>
              rw [hanswer] at h
              cases h
          | ok description =>
              obtain ⟨lease, -, hcalls, hdescribe⟩ := Node.startCache_eq_ok hanswer
              rw [hanswer] at h
              obtain ⟨⟨rfl, rfl⟩, hid⟩ := Option.ite_none_right_eq_some.1 h
              cases hid
              rw [htable i resolver hresolver, indexedCaches_eq hc hvalid i] at hdescribe
              exact ⟨_, lease.slot, hcalls, if_pos rfl, rfl, (Cache.describe_eq_ok hdescribe).2⟩
  | muxId i t k =>
      simp only [calls, perform, throughResolver] at h ⊢
      cases hresolver : (c.node i).resolver with
      | none =>
          simp only [hresolver] at h
          cases h
      | some resolver =>
          simp only [hresolver, Node.muxId_eq] at h ⊢
          cases hanswer : (c.call i (.get t)).1 with
          | error failure =>
              rw [show ((c.node i).call (.get t) c.backend).1 = _ from hanswer] at h
              cases h
          | ok slot =>
              rw [show ((c.node i).call (.get t) c.backend).1 = _ from hanswer] at h
              dsimp only at h
              rw [htable i resolver hresolver, indexedCaches_eq hc hvalid i] at h
              cases hid : table.muxId k slot s₀.indexedCaches with
              | error failure =>
                  rw [hid] at h
                  cases h
              | ok found =>
                  rw [hid] at h
                  obtain ⟨⟨rfl, rfl⟩, he⟩ := Option.ite_none_right_eq_some.1 h
                  cases he
                  exact ⟨_, slot, rfl, if_pos rfl, rfl, hid⟩
  | _ => cases h

end Steps

/-- A step whose reply names a mux id makes no resolver. -/
theorem uses_of_muxId? {step : Step n} {tenant : String} {kind : Cache.Kind}
    {reply : Except Failure Reply} {id : Int16} (h : step.muxId? tenant kind reply = some id) :
    step.Uses table := by
  cases step with
  | resolve i t source => cases h
  | _ => trivial

/-- Settings of a small range. -/
def smallRange (reuse : Reuse) : Settings :=
  { Settings.standard with slots := ⟨2, 9, reuse⟩ }

theorem new_smallRange : Resolver.new (smallRange .whenExhausted) .standard (fun _ => none) =
    .ok ⟨.standard, fun _ => none⟩ := by
  have hvalid : (smallRange .whenExhausted).validate .standard = .ok () := by decide +kernel
  simp only [Resolver.new, hvalid]
  rfl

/-- Two nodes of one range over an empty store. -/
def smallNodes : Cluster 2 :=
  .new .inMemory #v[smallRange .whenExhausted, smallRange .lowestReleased]

theorem reachable_smallNodes : smallNodes.Reachable (smallRange .whenExhausted).Alike := by
  refine .new Store.isEmpty_inMemory fun i => ?_
  match i with
  | 0 => exact ⟨rfl, ⟨rfl, rfl⟩, rfl⟩
  | 1 => exact ⟨rfl, ⟨rfl, rfl⟩, rfl⟩

/-- Two nodes get a resolver that knows no types. -/
def resolveSteps (i j : Fin 2) : List (Step 2) :=
  [.resolve i .standard fun _ => none, .resolve j .standard fun _ => none]

/-- A cache that cannot be described, a start that cannot be saved, and a start and a stop. -/
def meanwhile (i j : Fin 2) : List (Step 2) :=
  [.startCache j "a" .tasks, .failSave 0, .request j (.start "a"), .request j (.start "a"),
    .request i (.stop "a")]

end Cluster

end Tenancy
