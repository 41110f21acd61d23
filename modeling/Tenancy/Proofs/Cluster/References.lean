/-
**No reference goes unaccounted for.**

In a cluster whose tenants are served through caches only, every reference in the ledger was taken
for a cache.  A cache that was started and not stopped has one, and so has each start that failed
and could not give its reference back, which the node has counted as leaked.  There are no others: a
start of a cache that fails leaves the leases as they were, or it leaves one reference more for its
tenant, and the node counts it.

Main definitions:

* `Tenancy.Cluster.totalReferences` — **the references of all tenants in the stored ledger**;
* `Tenancy.Cluster.Step.ThroughCaches` — a step that leaves the leases to the starts and stops of
  caches;
* `Tenancy.Cluster.leaked` — the references that the nodes have counted as leaked;
* `Tenancy.Cluster.Leaves` — what a start of a cache that failed may leave.

Main results:

* `Tenancy.Cluster.Recorded.total_eq` — the references of all tenants are those outstanding;
* `Tenancy.Cluster.Recorded.balance_calls` — what a step takes and gives back, its reply and the
  counts of leaks tell;
* `Tenancy.Cluster.references_accounted` — **a failed start leaves nothing that is not counted, and
  the references are those of the caches started and not stopped, and those leaked**.
-/

import Mathlib.Algebra.BigOperators.Group.Finset.Piecewise
import Mathlib.Algebra.BigOperators.Group.List.Basic
import Mathlib.Algebra.BigOperators.Ring.Finset
import Mathlib.Data.Fintype.Basic
import Tenancy.Proofs.Cluster.Caches
import Tenancy.Proofs.Node.CacheStart

set_option relaxedAutoImplicit false
set_option autoImplicit false

namespace Tenancy

open Finset (sum_congr sum_subset sum_eq_zero sum_add_distrib)

/-! ### References of all tenants -/

/-- How many references all tenants have together. -/
def Ledger.totalReferences (l : Ledger) : Nat :=
  (l.leases.toList.map fun entry => entry.2.references.toNat).sum

/-- They are the sum over any tenants among which are all those with a lease. -/
theorem Ledger.totalReferences_eq_sum (l : Ledger) {tenants : Finset String}
    (h : ∀ tenant ∈ l.leases, tenant ∈ tenants) :
    l.totalReferences = ∑ tenant ∈ tenants, references l.lease? tenant := by
  have hlist : l.leases.toList.map (fun entry => entry.2.references.toNat) =
      l.leases.keys.map (references l.lease?) := by
    rw [← Std.ExtTreeMap.map_fst_toList_eq_keys, List.map_map]
    refine List.map_congr_left fun entry he => ?_
    exact (references_of_some (Std.ExtTreeMap.mem_toList_iff_getElem?_eq_some.1 he)).symm
  have hkeys : l.leases.keys.toFinset ⊆ tenants := by
    intro tenant ht
    exact h tenant (Std.ExtTreeMap.mem_keys.1 (List.mem_toFinset.1 ht))
  rw [totalReferences, hlist, ← List.sum_toFinset _ Std.ExtTreeMap.nodup_keys]
  refine sum_subset hkeys fun tenant _ hnot => references_of_none ?_
  refine Std.ExtTreeMap.getElem?_eq_none fun hmem => hnot ?_
  exact List.mem_toFinset.2 (Std.ExtTreeMap.mem_keys.2 hmem)

namespace Cluster

variable {n : Nat} {key : String}

/-- **The references of all tenants** in the ledger stored under a key. -/
def totalReferences (c : Cluster n) (key : String) : Nat :=
  match c.stored key with
  | .ok (some ledger) => ledger.totalReferences
  | _ => 0

theorem held_eq_match (c : Cluster n) (key : String) :
    c.held key = match c.stored key with
      | .ok (some ledger) => ledger.lease?
      | _ => fun _ => none := by
  funext tenant
  rw [held, Store.held, stored]
  rcases c.backend.store.inner.load key with fault | (_ | ledger) <;> rfl

/-- They are the sum over any tenants among which are all the holders. -/
theorem exists_totalReferences_eq_sum (c : Cluster n) (key : String) :
    ∃ holders : Finset String, ∀ tenants, holders ⊆ tenants →
      c.totalReferences key = ∑ tenant ∈ tenants, references (c.held key) tenant := by
  rw [held_eq_match]
  simp only [totalReferences]
  split
  · rename_i ledger _
    refine ⟨ledger.leases.keys.toFinset, fun tenants hall => ?_⟩
    refine ledger.totalReferences_eq_sum fun tenant ht => hall ?_
    exact List.mem_toFinset.2 (Std.ExtTreeMap.mem_keys.2 ht)
  · -- nothing is stored, so there are no references of anyone
    exact ⟨∅, fun tenants _ => (sum_eq_zero fun tenant _ => rfl).symm⟩

/-! ### What a log takes and gives back -/

/-- Whether it is a start that was answered. -/
def Served.takes : Served → Bool
  | ⟨.start _, .ok _⟩ => true
  | _ => false

/-- Whether it is a stop that dropped a reference. -/
def Served.gives : Served → Bool
  | ⟨.stop _, .ok (.decremented _ _)⟩ => true
  | ⟨.stop _, .ok (.released _)⟩ => true
  | _ => false

namespace Served

variable {e : Served} {tenant : String}

theorem starts_of_tenant (h : e.1.tenant? = some tenant) : e.starts tenant = e.takes := by
  obtain ⟨r, answer⟩ := e
  cases r with
  | start t =>
      cases h
      cases answer with
      | error failure => rfl
      | ok lease => exact decide_eq_true rfl
  | get | stop | lease | ledger => rfl

theorem drops_of_tenant (h : e.1.tenant? = some tenant) : e.drops tenant = e.gives := by
  obtain ⟨r, answer⟩ := e
  cases r with
  | stop t =>
      cases h
      rcases answer with failure | (_ | _ | _)
      · rfl
      · exact decide_eq_true rfl
      · exact decide_eq_true rfl
      · rfl
  | start | get | lease | ledger => rfl

end Served

/-- **How many starts were answered, less the stops that dropped a reference.** -/
def balance (log : List Served) : Int := log.countP Served.takes - log.countP Served.gives

@[simp] theorem balance_nil : balance [] = 0 := rfl

theorem balance_append (log log' : List Served) :
    balance (log ++ log') = balance log + balance log' := by
  simp only [balance, List.countP_append]
  omega

theorem balance_cons (e : Served) (log : List Served) :
    balance (e :: log) = balance [e] + balance log :=
  balance_append [e] log

theorem outstanding_of_tenant {e : Served} {tenant : String} (h : e.1.tenant? = some tenant) :
    outstanding [e] tenant = balance [e] := by
  simp only [outstanding, balance, List.countP_cons, List.countP_nil, Served.starts_of_tenant h,
    Served.drops_of_tenant h]

theorem outstanding_of_ne {e : Served} {tenant : String} (h : e.1.tenant? ≠ some tenant) :
    outstanding [e] tenant = 0 := by
  rw [outstanding_singleton, Served.starts_of_ne h, Served.drops_of_ne h]
  rfl

/-- The balance is that of all tenants together, if those in the log are among them. -/
theorem sum_outstanding {log : List Served} {tenants : Finset String}
    (h : ∀ e ∈ log, ∀ tenant, e.1.tenant? = some tenant → tenant ∈ tenants) :
    ∑ tenant ∈ tenants, outstanding log tenant = balance log := by
  induction log with
  | nil => exact sum_eq_zero fun tenant _ => outstanding_nil tenant
  | cons e log ih =>
      have hrest := ih fun other ho => h other (List.mem_cons_of_mem _ ho)
      have hfirst : ∑ tenant ∈ tenants, outstanding [e] tenant = balance [e] := by
        cases he : e.1.tenant? with
        | none =>
            have hzero : balance [e] = 0 := by
              obtain ⟨r, answer⟩ := e
              cases r with
              | ledger => rfl
              | start | get | stop | lease => cases he
            rw [hzero]
            exact sum_eq_zero fun tenant _ => outstanding_of_ne (he ▸ nofun)
        | some t =>
            rw [← outstanding_of_tenant he]
            have hmem := h e List.mem_cons_self t he
            refine Finset.sum_eq_single_of_mem t hmem fun tenant _ hne => ?_
            exact outstanding_of_ne fun ht => hne (Option.some.inj (ht.symm.trans he))
      rw [balance_cons, ← hfirst, ← hrest, ← sum_add_distrib]
      exact sum_congr rfl fun tenant _ => outstanding_cons e log tenant

/-- **The references of all tenants are those outstanding.** -/
theorem Recorded.total_eq {c : Cluster n} {log : List Served} (h : Recorded key c log) :
    (c.totalReferences key : Int) = balance log := by
  obtain ⟨holders, hsum⟩ := c.exists_totalReferences_eq_sum key
  have hnamed : ∀ e ∈ log, ∀ tenant, e.1.tenant? = some tenant →
      tenant ∈ holders ∪ (log.filterMap fun e => e.1.tenant?).toFinset := by
    intro e he tenant ht
    exact Finset.mem_union_right _ (List.mem_toFinset.2 (List.mem_filterMap.2 ⟨e, he, ht⟩))
  rw [← sum_outstanding hnamed, hsum _ Finset.subset_union_left, Nat.cast_sum]
  exact sum_congr rfl fun tenant _ => h.references_eq tenant

/-! ### Leaks -/

/-- How many references a node has counted as leaked. -/
def leaks (c : Cluster n) (i : Fin n) : Nat := (c.node i).counters.leakedReferences

/-- **The references that the nodes have counted as leaked.** -/
def leaked (c : Cluster n) : Nat := ∑ i, c.leaks i

theorem leaks_update (c : Cluster n) (i : Fin n) (m : Node) (b : Backend) {k : Nat}
    (h : m.counters.leakedReferences = c.leaks i + k) (j : Fin n) :
    (c.update i m b).leaks j = c.leaks j + if j = i then k else 0 := by
  by_cases hij : i = j
  · subst hij
    rw [leaks, node_update_self, h, if_pos rfl]
  · rw [leaks, node_update_of_ne c m b hij, if_neg (Ne.symm hij), Nat.add_zero, leaks]

/-- Leaks at one node are leaks of the cluster. -/
theorem leaked_of_leaks {c c' : Cluster n} {i : Fin n} {k : Nat}
    (h : ∀ j, c'.leaks j = c.leaks j + if j = i then k else 0) : c'.leaked = c.leaked + k := by
  have hsum : c'.leaked = ∑ j, (c.leaks j + if j = i then k else 0) :=
    sum_congr rfl fun j _ => h j
  rw [hsum, sum_add_distrib, Finset.sum_ite_eq' Finset.univ i, if_pos (Finset.mem_univ i)]
  rfl

/-- Where the node leaks nothing, nothing is leaked. -/
theorem leaked_update (c : Cluster n) (i : Fin n) {m : Node} (b : Backend)
    (h : m.counters.leakedReferences = c.leaks i) : (c.update i m b).leaked = c.leaked :=
  leaked_of_leaks (k := 0) (leaks_update c i m b h)

theorem leaked_congr {c c' : Cluster n} (h : c'.nodes = c.nodes) : c'.leaked = c.leaked := by
  simp only [leaked, leaks, node, h]

/-! ### Starts of caches -/

/-- A cache that is started takes one reference, and one that is not takes those that it leaks. -/
theorem balance_of_cacheStart {held held' : String → Option Lease} {tenant : String}
    {answer : Except Failure Cache.Description} {calls : List Served} {leaks : Nat}
    (h : Node.CacheStart tenant answer calls leaks) (he : Effects held calls held')
    (hc : Counted held) : balance calls = (if answer.isOk then 1 else 0) + leaks := by
  cases h with
  | refused failure => rfl
  | described lease description => rfl
  | leaked lease failure refusal => rfl
  | givenBack lease failure release =>
      obtain ⟨-, hdrops⟩ := he.eq_of_givenBack hc
      cases release with
      | decremented slot remaining => rfl
      | released slot => rfl
      | notAllocated => cases hdrops

/-- **What a start of a cache of `tenant` at node `i` that failed may leave.** -/
inductive Leaves (key : String) (i : Fin n) (tenant : String) (c c' : Cluster n) : Prop where
  /-- All leases are as before, and so are the counts of leaks. -/
  | nothing (same : c'.held key = c.held key) (uncounted : ∀ j, c'.leaks j = c.leaks j)
  /-- The tenant has one reference more, and the node has counted one leak more. -/
  | leak (more : references (c'.held key) tenant = references (c.held key) tenant + 1)
      (slot : ∀ slot, slotOf (c.held key) tenant = some slot →
        slotOf (c'.held key) tenant = some slot)
      (others : ∀ other, other ≠ tenant → c'.held key other = c.held key other)
      (counted : c'.leaks i = c.leaks i + 1) (elsewhere : ∀ j, j ≠ i → c'.leaks j = c.leaks j)

/-- How a step that starts a cache ends, if the node has a resolver. -/
theorem startCache_ends {c : Cluster n} {i : Fin n} {resolver : Resolver}
    (hresolver : (c.node i).resolver = some resolver) (tenant : String) (kind : Cache.Kind) :
    ∃ answer leaks, (c.perform (.startCache i tenant kind)).1 = answer.map .cache ∧
      Node.CacheStart tenant answer (c.calls (.startCache i tenant kind)) leaks ∧
      ∀ j, (c.perform (.startCache i tenant kind)).2.leaks j =
        c.leaks j + if j = i then leaks else 0 := by
  obtain ⟨leaks, hends, hleaks⟩ := (c.node i).startCache_ends resolver tenant kind c.backend
  simp only [perform, throughResolver, Cluster.calls, hresolver]
  exact ⟨_, leaks, rfl, hends, leaks_update c i _ _ hleaks⟩

/-- The calls of a step have their effects. -/
theorem Recorded.effects_perform {c : Cluster n} {log : List Served} (h : Recorded key c log)
    {step : Step n} (hstep : step.ThroughNodes) :
    Effects (c.held key) (c.calls step) ((c.perform step).2.held key) :=
  Cluster.effects_perform (Ledger.sound_invariant _) (fun _ hs => hs)
    (h.reachable.upholds (Ledger.sound_invariant _)) hstep

theorem Recorded.counted {c : Cluster n} {log : List Served} (h : Recorded key c log) :
    Counted (c.held key) :=
  h.effects.counted fun _ _ hl => by cases hl

/-- **A start of a cache that fails leaves nothing that is not counted.** -/
theorem Recorded.leaves {c : Cluster n} {log : List Served} (h : Recorded key c log) {i : Fin n}
    {tenant : String} {kind : Cache.Kind} {failure : Failure} (ht : Octets.TextFits tenant)
    (hfails : (c.perform (.startCache i tenant kind)).1 = .error failure) :
    Leaves key i tenant c (c.perform (.startCache i tenant kind)).2 := by
  cases hresolver : (c.node i).resolver with
  | none =>
      have hsame : (c.perform (.startCache i tenant kind)).2 = c := by
        simp only [Cluster.perform, throughResolver, hresolver]
      rw [hsame]
      exact .nothing rfl fun _ => rfl
  | some resolver =>
      obtain ⟨answer, leaks, hreply, hends, hleaks⟩ := startCache_ends hresolver tenant kind
      have heffects : Effects _ (c.calls (.startCache i tenant kind)) _ := h.effects_perform ht
      rw [hreply] at hfails
      obtain ⟨failure, rfl⟩ : ∃ failure, answer = .error failure := by
        cases answer with
        | error failure => exact ⟨failure, rfl⟩
        | ok description => cases hfails
      rcases hends.leaves heffects h.counted with ⟨rfl, hsame⟩ | ⟨rfl, hmore, hslot, hothers⟩
      · refine .nothing hsame fun j => (hleaks j).trans ?_
        rw [ite_self, Nat.add_zero]
      · refine .leak hmore hslot hothers ?_ fun j hj => ?_
        · rw [hleaks i, if_pos rfl]
        · rw [hleaks j, if_neg hj, Nat.add_zero]

/-! ### Steps -/

/-- Whether a step leaves the leases to the starts and stops of caches, and the counts to the
nodes. -/
def Step.leavesLeases : Step n → Bool
  | .request _ (.start _) | .request _ (.stop _) | .queue _ _ | .restart => false
  | _ => true

/-- **A step through which tenants are served as the hosts of caches**: caches are started, stopped
and looked up, resolvers are made, locks are held, stores fail and anything is read. -/
def Step.ThroughCaches (step : Step n) : Prop := step.ThroughNodes ∧ step.leavesLeases

instance (step : Step n) : Decidable step.ThroughCaches :=
  inferInstanceAs (Decidable (step.ThroughNodes ∧ step.leavesLeases))

/-- Whether a step has started a cache. -/
def Step.startsCache : Step n → Except Failure Reply → Bool
  | .startCache _ _ _, .ok _ => true
  | _, _ => false

/-- Whether a step has stopped a cache and dropped its reference. -/
def Step.stopsCache : Step n → Except Failure Reply → Bool
  | .stopCache _ _ _, .ok (.answer (.stop _) (.decremented _ _)) => true
  | .stopCache _ _ _, .ok (.answer (.stop _) (.released _)) => true
  | _, _ => false

/-- In how many steps of a run the step and its reply are as `p` says. -/
def tally (p : Step n → Except Failure Reply → Bool) (c : Cluster n) (steps : List (Step n)) :
    Nat :=
  (steps.zip (c.run steps).1).countP fun done => p done.1 done.2

theorem tally_cons (p : Step n → Except Failure Reply → Bool) (c : Cluster n) (step : Step n)
    (steps : List (Step n)) : c.tally p (step :: steps) =
      (if p step (c.perform step).1 then 1 else 0) + (c.perform step).2.tally p steps := by
  rw [Nat.add_comm]
  simp only [tally, run, List.zip_cons_cons, List.countP_cons]

theorem leaked_unlock (c : Cluster n) (name : String) : (c.unlock name).2.leaked = c.leaked := by
  simp only [unlock]
  split <;> exact leaked_congr rfl

theorem leaked_lock (c : Cluster n) (resource : String) (timeout : Duration) (name : String) :
    (c.lock resource timeout name).2.leaked = c.leaked := by
  simp only [lock]
  split
  · rfl
  · exact leaked_unlock (c.withLocks _) name

theorem leaked_throughResolver {α : Type} (c : Cluster n) (i : Fin n)
    (act : Node → Resolver → Backend → Except Failure α × Node × Backend)
    (hact : ∀ resolver, (act (c.node i) resolver c.backend).2.1.counters.leakedReferences =
      c.leaks i) : (c.throughResolver i act).2.leaked = c.leaked := by
  simp only [throughResolver]
  split
  · rfl
  · rename_i resolver _
    exact leaked_update c i _ (hact resolver)

/-- Only starts of caches leak references. -/
theorem leaked_perform (c : Cluster n) {step : Step n} (hstep : step.ThroughCaches)
    (hother : ∀ i tenant kind, step ≠ .startCache i tenant kind) :
    (c.perform step).2.leaked = c.leaked := by
  cases step with
  | startCache i tenant kind => exact absurd rfl (hother i tenant kind)
  | request i r => exact leaked_update c i _ (Node.leakedReferences_call ..)
  | stopCache i tenant kind =>
      exact leaked_throughResolver c i (fun node _ => node.stopCache tenant)
        fun _ => Node.leakedReferences_call ..
  | muxId i tenant kind =>
      exact leaked_throughResolver c i (fun node resolver => node.muxId resolver tenant kind)
        fun resolver => Node.leakedReferences_muxId ..
  | resolve i table source =>
      simp only [perform]
      split
      · rfl
      · exact leaked_update c i _ rfl
  | lock resource timeout name => exact leaked_lock c resource timeout name
  | unlock name => exact leaked_unlock c name
  | failLoad | failSave | load => exact leaked_congr rfl
  | counters | errors | faults | status | files => rfl
  | queue | restart => cases hstep.2
  | put | writeFile => exact hstep.1.elim

/-- What a step that starts a cache takes and gives back. -/
theorem Recorded.balance_startCache {c : Cluster n} {log : List Served} (h : Recorded key c log)
    (i : Fin n) {tenant : String} (kind : Cache.Kind) (ht : Octets.TextFits tenant) :
    balance (c.calls (.startCache i tenant kind)) =
      (if (c.perform (.startCache i tenant kind)).1.isOk then 1 else 0) +
        ((c.perform (.startCache i tenant kind)).2.leaked - c.leaked : Int) := by
  cases hresolver : (c.node i).resolver with
  | none =>
      simp only [Cluster.calls, Cluster.perform, throughResolver, hresolver]
      rw [Int.sub_self]
      rfl
  | some resolver =>
      have heffects : Effects _ (c.calls (.startCache i tenant kind)) _ := h.effects_perform ht
      obtain ⟨answer, leaks, hreply, hends, hleaks⟩ := startCache_ends hresolver tenant kind
      have hok : (answer.map Reply.cache).isOk = answer.isOk := by cases answer <;> rfl
      rw [balance_of_cacheStart hends heffects h.counted, hreply, hok, leaked_of_leaks hleaks]
      omega

/-- **What a step takes and gives back, its reply and the counts of leaks tell.** -/
theorem Recorded.balance_calls {c : Cluster n} {log : List Served} (h : Recorded key c log)
    {step : Step n} (hstep : step.ThroughCaches) :
    balance (c.calls step) = (if step.startsCache (c.perform step).1 then 1 else 0) -
      (if step.stopsCache (c.perform step).1 then 1 else 0) +
      ((c.perform step).2.leaked - c.leaked : Int) := by
  cases step with
  | startCache i tenant kind =>
      rw [h.balance_startCache i kind hstep.1]
      cases (c.perform (.startCache i tenant kind)).1 <;> rfl
  | stopCache i tenant kind =>
      rw [leaked_perform c hstep (by simp), Int.sub_self, Int.add_zero]
      cases hresolver : (c.node i).resolver with
      | none =>
          simp only [Cluster.calls, Cluster.perform, throughResolver, hresolver]
          rfl
      | some resolver =>
          simp only [Cluster.calls, Cluster.perform, throughResolver, hresolver]
          rw [show (c.call i (.stop tenant)).1 = ((c.node i).stopCache tenant c.backend).1 from rfl]
          rcases ((c.node i).stopCache tenant c.backend).1 with failure | (_ | _ | _) <;> rfl
  | muxId i tenant kind =>
      rw [leaked_perform c hstep (by simp), Int.sub_self]
      simp only [Cluster.calls]
      cases (c.node i).resolver <;> rfl
  | request i r =>
      rw [leaked_perform c hstep (by simp), Int.sub_self]
      cases r with
      | start | stop => cases hstep.2
      | get | lease | ledger => rfl
  | queue | restart => cases hstep.2
  | put | writeFile => exact hstep.1.elim
  | _ =>
      -- no calls are made
      rw [leaked_perform c hstep (by simp), Int.sub_self]
      rfl

/-- **What a run takes and gives back, its replies and the counts of leaks tell.** -/
theorem Recorded.balance_log {c : Cluster n} {log : List Served} (h : Recorded key c log)
    {steps : List (Step n)} (hsteps : ∀ step ∈ steps, step.ThroughCaches) :
    balance (c.log steps) = c.tally Step.startsCache steps - c.tally Step.stopsCache steps +
      ((c.run steps).2.leaked - c.leaked : Int) := by
  -- induction on the steps, over the cluster from which they begin
  induction steps generalizing c log with
  | nil => simp [Cluster.log, tally, Cluster.run]
  | cons step steps ih =>
      have hstep := hsteps step List.mem_cons_self
      have hrest := ih (h.perform hstep.1) fun other ho => hsteps other (List.mem_cons_of_mem _ ho)
      rw [Cluster.log, balance_append, h.balance_calls hstep, hrest, tally_cons, tally_cons]
      simp only [Cluster.run]
      push_cast
      omega

/-- **No reference goes unaccounted for.**  Nodes of one key begin over an empty store, and tenants
are served through caches only.  Then a start of a cache that fails leaves the leases as they were,
or it leaves one reference more for its tenant and the node counts a leak; and the references of all
tenants are as many as the caches that were started, less the stops that dropped a reference, plus
the references that the nodes have counted as leaked. -/
theorem references_accounted {store : Store} {settings : Vector Settings n}
    (hempty : store.IsEmpty) (hkey : ∀ i : Fin n, (settings.get i).key = key)
    {steps : List (Step n)} (hsteps : ∀ step ∈ steps, step.ThroughCaches) :
    (∀ i tenant kind failure, Octets.TextFits tenant →
      (((new store settings).run steps).2.perform (.startCache i tenant kind)).1 =
        .error failure →
      Leaves key i tenant ((new store settings).run steps).2
        (((new store settings).run steps).2.perform (.startCache i tenant kind)).2) ∧
      (((new store settings).run steps).2.totalReferences key : Int) =
        (new store settings).tally Step.startsCache steps -
          (new store settings).tally Step.stopsCache steps +
          ((new store settings).run steps).2.leaked := by
  have hnew : Recorded key (new store settings) [] := .new hempty hkey
  have hrun := hnew.run fun step hs => (hsteps step hs).1
  refine ⟨fun i tenant kind failure ht hfails => hrun.leaves ht hfails, ?_⟩
  have hleaked : (new store settings).leaked = 0 := by
    refine sum_eq_zero fun i _ => ?_
    show ((settings.map Node.new)[i.val]).counters.leakedReferences = 0
    rw [Vector.getElem_map]
    rfl
  rw [hrun.total_eq, List.nil_append, hnew.balance_log hsteps, hleaked, Int.natCast_zero,
    Int.sub_zero]

/-- Two nodes get a resolver that knows no types.  A cache is started, another one cannot be
described and leaks its reference, the first is stopped, and a save will fail again. -/
def leakySteps (i j : Fin 2) : List (Step 2) :=
  [.resolve i .standard fun _ => none, .resolve j .standard fun _ => none,
    .startCache i "a" .channel, .failSave 1, .startCache j "a" .tasks, .stopCache i "a" .channel,
    .failSave 1]

theorem references_after_leakySteps :
    Leaves Settings.standard.key 0 "b" (smallNodes.run (leakySteps 0 1)).2
        ((smallNodes.run (leakySteps 0 1)).2.perform (.startCache 0 "b" .tasks)).2 ∧
      ((smallNodes.run (leakySteps 0 1)).2.totalReferences Settings.standard.key : Int) =
        1 - 1 + 1 := by
  have hkey : ∀ i : Fin 2, ((#v[smallRange .whenExhausted,
      smallRange .lowestReleased] : Vector Settings 2).get i).key =
        Settings.standard.key := by decide
  have hsteps : ∀ step ∈ leakySteps 0 1, step.ThroughCaches := by decide
  obtain ⟨hleaves, htotal⟩ := references_accounted Store.isEmpty_inMemory hkey hsteps
  have hstarted : smallNodes.tally Step.startsCache (leakySteps 0 1) = 1 := by decide +kernel
  have hstopped : smallNodes.tally Step.stopsCache (leakySteps 0 1) = 1 := by decide +kernel
  have hleaked : (smallNodes.run (leakySteps 0 1)).2.leaked = 1 := by decide +kernel
  have hfails : ((smallNodes.run (leakySteps 0 1)).2.perform (.startCache 0 "b" .tasks)).1.isOk =
      false := by decide +kernel
  refine ⟨?_, ?_⟩
  · cases hreply : ((smallNodes.run (leakySteps 0 1)).2.perform (.startCache 0 "b" .tasks)).1 with
    | error failure => exact hleaves 0 "b" .tasks failure (by decide) hreply
    | ok reply =>
        rw [hreply] at hfails
        cases hfails
  · rw [smallNodes, htotal]
    rw [smallNodes] at hstarted hstopped hleaked
    rw [hstarted, hstopped, hleaked]
    rfl

end Cluster

end Tenancy
