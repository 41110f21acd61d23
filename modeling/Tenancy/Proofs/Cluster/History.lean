/-
**The history of a tenant.**

A cluster of one key begins over an empty store, and every call is written to a log with its answer,
be it made by the host, from a queue or for a cache.  The log then tells what each tenant holds:
whatever other tenants do, whatever fails and whichever nodes are asked, a tenant has as many
references as it has starts less dropped references, and until the last one is dropped it is told
one and the same slot.

Main definitions:

* `Tenancy.Cluster.held` — what a tenant holds in the ledger stored under a key;
* `Tenancy.Cluster.calls` — the calls that a step makes, with their answers;
* `Tenancy.Cluster.Recorded` — **the clusters of one key reached from an empty store, with the log
  of the calls that were made**;
* `Tenancy.Cluster.Accounted` — what the log tells of a tenant.

Main results:

* `Tenancy.Settings.effect_transact` — a transaction has the effect that its answer tells;
* `Tenancy.Cluster.effects_perform` — **so do the calls of a step, one after the other**;
* `Tenancy.Cluster.Recorded.accounted` — **the log accounts for what every tenant holds**.
-/

import Tenancy.Proofs.Cluster.Log
import Tenancy.Proofs.Cluster.Reachable
import Tenancy.Proofs.Ledger.Sound
import Tenancy.Proofs.Node.Ending
import Tenancy.Proofs.Store.Saved

set_option relaxedAutoImplicit false
set_option autoImplicit false

namespace Tenancy

open Ledger (Invariant)

/-! ### What is held in a store -/

/-- What a tenant holds in the ledger stored under a key, if there is one. -/
def Store.held (store : Store) (key tenant : String) : Option Lease :=
  match store.load key with
  | .ok (some ledger) => ledger.lease? tenant
  | _ => none

theorem Store.held_of_load {store : Store} {key : String} {ledger : Ledger}
    (h : store.load key = .ok (some ledger)) : store.held key = ledger.lease? := by
  funext tenant
  rw [held, h]

theorem Store.IsEmpty.held {store : Store} (h : store.IsEmpty) (key : String) :
    store.held key = fun _ => none := by
  funext tenant
  cases store with
  | memory ledgers =>
      obtain rfl : ledgers = ∅ := h
      rfl
  | directory dir =>
      have hfiles : dir.files = ∅ := h
      have hload : (Store.directory dir).load key = .ok none ∨
          (Store.directory dir).load key = .error .nameTooLong := by
        simp only [Store.load, Directory.load, hfiles, Std.ExtTreeMap.getElem?_empty]
        split
        · exact .inl rfl
        · exact .inr rfl
      rcases hload with hload | hload <;> rw [Store.held, hload]

/-! ### Transactions -/

namespace Settings

variable {S : Settings → Prop} {I : Ledger → Prop} {s : Settings} {r : Request} {b : Backend}

/-- The ledger that a node loads says what is held under its key. -/
theorem lease?_of_load {store : FaultyStore} {loaded : Ledger}
    (h : (s.load store).1 = .ok loaded) : loaded.lease? = store.inner.held s.key := by
  rcases (load_eq_ok h).2 with hstored | ⟨hnone, rfl⟩
  · exact (Store.held_of_load hstored).symm
  · funext tenant
    rw [Ledger.lease?_empty, Store.held, hnone]

/-- An answer tells what was held. -/
theorem effect_of_result_eq_ok {answer : r.Answer} (h : (s.transact r b).1.result = .ok answer) :
    ∃ held', r.Effect (b.store.inner.held s.key) (.ok answer) held' := by
  obtain ⟨loaded, changed, hload, hserve⟩ := serve_of_result_eq_ok h
  rw [← lease?_of_load hload]
  exact ⟨_, Ledger.effect_of_serve hserve⟩

/-- A failure leaves what is held as it was. -/
theorem effect_of_result_eq_error {failure : Failure}
    (h : (s.transact r b).1.result = .error failure) :
    r.Effect (b.store.inner.held s.key) (.error failure) (b.store.inner.held s.key) := by
  have hending := s.ending_transact r b
  generalize (s.transact r b).1 = outcome at h hending
  generalize (s.transact r b).2.store.inner = inner at hending
  cases hending with
  | locked held =>
      cases h
      exact .locked r s.key s.lockTimeout
  | notLoaded fault free load =>
      cases h
      exact .faulted r _
  | denied loaded denial free load serve =>
      cases h
      rw [← lease?_of_load load]
      exact Ledger.effect_of_serve_eq_error serve
  | notSaved loaded changed answer fault free load serve =>
      cases h
      exact .faulted r _
  | answered | committed => cases h

/-- What is kept has a form, so that a saved change is what is found afterwards. -/
theorem load_of_saved (hI : Invariant S I) (hs : S s) (hkept : b.store.inner.Keeps I)
    (hr : r.NamesFit) {loaded changed : Ledger} {answer : r.Answer} {store : Store}
    (load : (s.load b.store).1 = .ok loaded)
    (serve : loaded.serve s.slots r = .ok (answer, some changed))
    (save : b.store.inner.save s.key (changed.advance loaded) = .ok store) :
    store.load s.key = .ok (some (changed.advance loaded)) := by
  obtain ⟨tenant, ht, hchange⟩ := Ledger.change_of_serve serve
  have hfits := hI.fits _ (hI.change hs (hr tenant ht) (hI.of_load hs hkept load) hchange)
  exact Store.load_save_self (fun _ _ => hfits) save

/-- **A transaction has the effect that its answer tells.** -/
theorem effect_transact (hI : Invariant S I) (hs : S s) (hkept : b.store.inner.Keeps I)
    (hr : r.NamesFit) : r.Effect (b.store.inner.held s.key) (s.transact r b).1.result
      ((s.transact r b).2.store.inner.held s.key) := by
  have hending := s.ending_transact r b
  generalize (s.transact r b).1 = outcome at hending ⊢
  generalize (s.transact r b).2.store.inner = inner at hending ⊢
  cases hending with
  | locked held => exact .locked r s.key s.lockTimeout
  | notLoaded fault free load => exact .faulted r _
  | denied loaded failure free load serve =>
      rw [← lease?_of_load load]
      exact Ledger.effect_of_serve_eq_error serve
  | answered loaded answer free load serve =>
      rw [← lease?_of_load load]
      exact Ledger.effect_of_serve serve
  | committed loaded changed answer store free load serve save =>
      rw [Store.held_of_load (load_of_saved hI hs hkept hr load serve save),
        ← lease?_of_load load]
      exact Ledger.effect_of_serve serve
  | notSaved loaded changed answer fault free load serve => exact .faulted r _

/-- With the key free and the ledger loaded, a look-up finds what is held. -/
theorem result_get (hfree : s.key ∉ b.locks.held) {loaded : Ledger}
    (hload : (s.load b.store).1 = .ok loaded) (tenant : String) :
    (s.transact (.get tenant) b).1.result =
      match b.store.inner.held s.key tenant with
      | some lease => .ok lease.slot
      | none => .error (.tenantNotAllocated tenant) := by
  rw [transact_of_load hfree hload, ← lease?_of_load hload]
  simp only [settle, Ledger.serve]
  cases loaded.lease? tenant <;> rfl

end Settings

/-! ### Calls of a node -/

namespace Node

open Cluster (Served Effects)

/-- The calls that are made to start a cache, with their answers. -/
def startCacheCalls (n : Node) (resolver : Resolver) (tenant : String) (kind : Cache.Kind)
    (b : Backend) : List Served :=
  match n.call (.start tenant) b with
  | (.error failure, _, _) => [⟨.start tenant, .error failure⟩]
  | (.ok lease, n, b) =>
      match Cache.describe resolver.table resolver.source n.settings.indexedCaches tenant kind
          lease.slot with
      | .ok _ => [⟨.start tenant, .ok lease⟩]
      | .error _ => [⟨.start tenant, .ok lease⟩, ⟨.stop tenant, (n.call (.stop tenant) b).1⟩]

variable {S : Settings → Prop} {I : Ledger → Prop} {key : String} {n : Node} {b : Backend}

theorem effect_call (hI : Invariant S I) (hkey : ∀ s, S s → s.key = key) (h : n.Upholds S I b)
    {r : Request} (hr : r.NamesFit) :
    r.Effect (b.store.inner.held key) (n.call r b).1 ((n.call r b).2.2.store.inner.held key) := by
  rw [← hkey n.settings h.settings]
  exact Settings.effect_transact hI h.settings h.ledgers hr

/-- Giving a reference back is a stop. -/
theorem backend_giveBack (n : Node) (tenant : String) (b : Backend) :
    (n.giveBack tenant b).2 = (n.call (.stop tenant) b).2.2 := by
  simp only [giveBack]
  split <;> rename_i heq <;> rw [heq]

/-- Finding a mux id is a look-up. -/
theorem backend_muxId (n : Node) (resolver : Resolver) (tenant : String) (kind : Cache.Kind)
    (b : Backend) : (n.muxId resolver tenant kind b).2.2 = (n.call (.get tenant) b).2.2 := by
  simp only [muxId]
  split <;> rename_i heq <;> rw [heq]

theorem effects_startCache (hI : Invariant S I) (hkey : ∀ s, S s → s.key = key)
    (h : n.Upholds S I b) (resolver : Resolver) {tenant : String} (kind : Cache.Kind)
    (ht : Octets.TextFits tenant) :
    Effects (b.store.inner.held key) (n.startCacheCalls resolver tenant kind b)
      ((n.startCache resolver tenant kind b).2.2.store.inner.held key) := by
  have hnames : Request.NamesFit (.start tenant) := Request.namesFit_of_tenant rfl ht
  have hnames' : Request.NamesFit (.stop tenant) := Request.namesFit_of_tenant rfl ht
  have hstart := effect_call hI hkey h hnames
  have hafter := h.call hI hnames
  simp only [startCache, startCacheCalls]
  generalize n.call (.start tenant) b = called at hstart hafter ⊢
  obtain ⟨answer, m, b'⟩ := called
  cases answer with
  | error failure => exact .cons hstart (.nil _)
  | ok lease =>
      dsimp only at hstart hafter ⊢
      cases Cache.describe resolver.table resolver.source m.settings.indexedCaches tenant kind
        lease.slot with
      | ok description => exact .cons hstart (.nil _)
      | error failure =>
          -- the reference is given back
          refine .cons hstart (.cons (effect_call hI hkey hafter hnames') ?_)
          simp only [backend_giveBack]
          exact .nil _

end Node

namespace Cluster

variable {n : Nat} {S : Settings → Prop} {I : Ledger → Prop} {key : String}

/-- What a tenant holds in the ledger stored under a key. -/
def held (c : Cluster n) (key : String) : String → Option Lease := c.backend.store.inner.held key

/-- A call changes the settings of no node. -/
theorem settings_call (c : Cluster n) (i j : Fin n) (r : Request) :
    ((c.call i r).2.node j).settings = (c.node j).settings := by
  show ((c.update i ((c.node i).call r c.backend).2.1 _).node j).settings = _
  by_cases hij : i = j
  · subst hij
    rw [node_update_self, Node.settings_call]
  · rw [node_update_of_ne _ _ _ hij]

/-! ### Queues -/

/-- While the key is held, calls that do not wait are refused, and nothing is touched. -/
theorem serveUnlessWaiting_of_held {c : Cluster n} (hheld : key ∈ c.backend.locks.held)
    (hkey : ∀ i, (c.node i).settings.key = key) (calls : List (Call n)) :
    (serveUnlessWaiting key c calls).2.backend = c.backend ∧
      ∀ served, .inl served ∈ (serveUnlessWaiting key c calls).1 →
        ∃ r timeout, served = ⟨r, .error (.lockUnavailable key timeout)⟩ := by
  -- induction on the calls, over the cluster that those before have left
  induction calls generalizing c with
  | nil => exact ⟨rfl, fun served hs => by cases hs⟩
  | cons call calls ih =>
      simp only [serveUnlessWaiting]
      split
      · obtain ⟨hbackend, hserved⟩ := ih hheld hkey
        refine ⟨hbackend, fun served hs => ?_⟩
        rcases List.mem_cons.1 hs with he | hs
        · cases he
        · exact hserved served hs
      · have hrefused := Settings.transact_of_held ((hkey call.node).symm ▸ hheld) call.request
        have hanswer : (c.serve call).1 = ⟨call.request, .error (.lockUnavailable key
            (c.node call.node).settings.lockTimeout)⟩ := by
          rw [← hkey call.node]
          exact congrArg (fun ended => (⟨call.request, ended.1.result⟩ : Served)) hrefused
        have hafter : (c.serve call).2.backend = c.backend := congrArg Prod.snd hrefused
        have hkey' : ∀ i, ((c.serve call).2.node i).settings.key = key := by
          intro i
          rw [serve, settings_call]
          exact hkey i
        obtain ⟨hbackend, hserved⟩ := ih (hafter ▸ hheld) hkey'
        refine ⟨hbackend.trans hafter, fun served hs => ?_⟩
        rcases List.mem_cons.1 hs with he | hs
        · cases he
          exact ⟨_, _, hanswer⟩
        · exact hserved served hs

theorem effects_serveWaiting (hI : Invariant S I) (hkey : ∀ s, S s → s.key = key)
    {pending : List (Served ⊕ Call n)}
    (hserved : ∀ served, .inl served ∈ pending →
      ∃ r timeout, served = ⟨r, .error (.lockUnavailable key timeout)⟩)
    (hcalls : ∀ call, .inr call ∈ pending → call.request.NamesFit) {c : Cluster n}
    (h : c.Upholds S I) :
    Effects (c.held key) (c.serveWaiting pending).1 ((c.serveWaiting pending).2.held key) := by
  induction pending generalizing c with
  | nil => exact .nil _
  | cons first pending ih =>
      have hserved' := fun served hs => hserved served (List.mem_cons_of_mem _ hs)
      have hcalls' := fun call hc => hcalls call (List.mem_cons_of_mem _ hc)
      cases first with
      | inl served =>
          obtain ⟨r, timeout, rfl⟩ := hserved served List.mem_cons_self
          exact .cons (.locked r key timeout) (ih hserved' hcalls' h)
      | inr call =>
          have hr := hcalls call List.mem_cons_self
          exact .cons (Node.effect_call hI hkey (h.node call.node) hr)
            (ih hserved' hcalls' (h.call hI call.node hr))

/-- A queue at a lock that is not granted changes nothing. -/
theorem queue_eq_error {c : Cluster n} {i : Fin n} {calls : List (Call n)} {failure : Failure}
    (h : (c.queue i calls).1 = .error failure) : (c.queue i calls).2 = c := by
  simp only [queue] at h ⊢
  split
  · rfl
  · rename_i locks hlocks
    rw [hlocks] at h
    cases h

/-- The answers to the calls of a queue have their effects one after the other: those that did not
wait were refused, and the others were served in order. -/
theorem effects_queue (hI : Invariant S I) (hkey : ∀ s, S s → s.key = key) (i : Fin n)
    {calls : List (Call n)} (hcalls : ∀ call ∈ calls, call.request.NamesFit) {c : Cluster n}
    (h : c.Upholds S I) {served : List Served} (hs : (c.queue i calls).1 = .ok served) :
    Effects (c.held key) served ((c.queue i calls).2.held key) := by
  have hi : (c.node i).settings.key = key := hkey _ (h.settings i)
  simp only [queue, hi] at hs ⊢
  cases hlocks : c.backend.locks.acquire key queueTimeout with
  | error failure =>
      simp only [hlocks] at hs
      cases hs
  | ok locks =>
      simp only [hlocks, Except.ok.injEq] at hs ⊢
      subst hs
      have hheld : key ∈ locks.held := LockTable.mem_of_acquire hlocks
      have hbegun := h.withLocks locks
      obtain ⟨hbackend, hserved⟩ := serveUnlessWaiting_of_held (c := c.withLocks locks) hheld
        (fun j => hkey _ (h.settings j)) calls
      have hpending := hbegun.serveUnlessWaiting hI key hcalls
      -- the lock table apart, the cluster is then as it was
      rw [held, ← show (c.withLocks locks).backend.store.inner.held key =
        c.backend.store.inner.held key from rfl, ← hbackend]
      have hfree := hpending.withLocks
        ((serveUnlessWaiting key (c.withLocks locks) calls).2.backend.locks.release key)
      exact effects_serveWaiting hI hkey hserved
        (fun call hc => hcalls call (Upholds.mem_of_waiting key _ hc)) hfree

/-! ### Steps -/

/-- **The calls that a step makes**, with their answers, in the order in which they are listed or
made. -/
def calls (c : Cluster n) : Step n → List Served
  | .request i r => [⟨r, (c.call i r).1⟩]
  | .queue i calls =>
      match (c.queue i calls).1 with
      | .ok served => served
      | .error _ => []
  | .startCache i tenant kind =>
      match (c.node i).resolver with
      | some resolver => (c.node i).startCacheCalls resolver tenant kind c.backend
      | none => []
  | .stopCache i tenant _ =>
      match (c.node i).resolver with
      | some _ => [⟨.stop tenant, (c.call i (.stop tenant)).1⟩]
      | none => []
  | .muxId i tenant _ =>
      match (c.node i).resolver with
      | some _ => [⟨.get tenant, (c.call i (.get tenant)).1⟩]
      | none => []
  | _ => []

/-- The calls that the steps of a run make. -/
def log (c : Cluster n) : List (Step n) → List Served
  | [] => []
  | step :: steps => c.calls step ++ (c.perform step).2.log steps

theorem store_unlock (c : Cluster n) (name : String) :
    (c.unlock name).2.backend.store = c.backend.store := by
  simp only [unlock]
  split <;> rfl

theorem store_lock (c : Cluster n) (resource : String) (timeout : Duration) (name : String) :
    (c.lock resource timeout name).2.backend.store = c.backend.store := by
  simp only [lock]
  split
  · rfl
  · exact store_unlock ..

/-- **The calls of a step have their effects, one after the other.** -/
theorem effects_perform (hI : Invariant S I) (hkey : ∀ s, S s → s.key = key) {c : Cluster n}
    (h : c.Upholds S I) {step : Step n} (hstep : step.ThroughNodes) :
    Effects (c.held key) (c.calls step) ((c.perform step).2.held key) := by
  cases step with
  | request i r => exact .cons (Node.effect_call hI hkey (h.node i) hstep) (.nil _)
  | queue i calls =>
      cases hs : (c.queue i calls).1 with
      | ok served =>
          simp only [Cluster.calls, hs]
          exact effects_queue hI hkey i hstep h hs
      | error failure =>
          simp only [Cluster.calls, hs, perform]
          rw [queue_eq_error hs]
          exact .nil _
  | startCache i tenant kind =>
      simp only [Cluster.calls, perform, throughResolver]
      cases (c.node i).resolver with
      | none => exact .nil _
      | some resolver => exact Node.effects_startCache hI hkey (h.node i) resolver kind hstep
  | stopCache i tenant kind =>
      simp only [Cluster.calls, perform, throughResolver]
      cases (c.node i).resolver with
      | none => exact .nil _
      | some resolver =>
          refine .cons (Node.effect_call hI hkey (h.node i) ?_) (.nil _)
          exact Request.namesFit_of_tenant rfl hstep
  | muxId i tenant kind =>
      simp only [Cluster.calls, perform, throughResolver]
      cases (c.node i).resolver with
      | none => exact .nil _
      | some resolver =>
          dsimp only
          rw [held, held, show (c.update i _ _).backend = _ from Node.backend_muxId ..]
          refine .cons (Node.effect_call hI hkey (h.node i) ?_) (.nil _)
          exact Request.namesFit_of_tenant rfl hstep
  | put key ledger => exact hstep.elim
  | writeFile file content => exact hstep.elim
  | load other =>
      have hinner := FaultyStore.inner_load c.backend.store other
      simp only [Cluster.calls, perform, held, withStore, hinner]
      exact .nil _
  | lock resource timeout name =>
      simp only [Cluster.calls, perform, held, store_lock]
      exact .nil _
  | unlock name =>
      simp only [Cluster.calls, perform, held, store_unlock]
      exact .nil _
  | resolve i table source =>
      simp only [Cluster.calls, perform]
      split
      · exact .nil _
      · exact .nil _
  | counters | errors | failLoad | failSave | faults | status | files | restart => exact .nil _

/-- **So have the calls of a run.** -/
theorem effects_run (hI : Invariant S I) (hkey : ∀ s, S s → s.key = key) {steps : List (Step n)}
    (hsteps : ∀ step ∈ steps, step.ThroughNodes) {c : Cluster n} (h : c.Upholds S I) :
    Effects (c.held key) (c.log steps) ((c.run steps).2.held key) := by
  induction steps generalizing c with
  | nil => exact .nil _
  | cons step steps ih =>
      have hstep := hsteps step List.mem_cons_self
      refine (effects_perform hI hkey h hstep).append ?_
      exact ih (fun other ho => hsteps other (List.mem_cons_of_mem _ ho)) (h.perform hI hstep)

/-! ### Recorded runs -/

/-- **The clusters of one key reached from an empty store**, with the calls that were made since,
oldest first. -/
inductive Recorded (key : String) : {n : Nat} → Cluster n → List Served → Prop where
  /-- Nothing has been done yet. -/
  | new {n : Nat} {store : Store} {settings : Vector Settings n} :
      store.IsEmpty → (∀ i : Fin n, (settings.get i).key = key) →
      Recorded key (Cluster.new store settings) []
  /-- The host made a step. -/
  | perform {n : Nat} {c : Cluster n} {log : List Served} {step : Step n} :
      Recorded key c log → step.ThroughNodes →
      Recorded key (c.perform step).2 (log ++ c.calls step)
  /-- The host opened the store again with other nodes. -/
  | reopen {n m : Nat} {c : Cluster n} {log : List Served} {settings : Vector Settings m} :
      Recorded key c log → (∀ i : Fin m, (settings.get i).key = key) →
      Recorded key (c.reopen settings) log

namespace Recorded

variable {c : Cluster n} {log : List Served}

theorem reachable (h : Recorded key c log) : c.Reachable fun s => s.key = key := by
  induction h with
  | new hempty hsettings => exact .new hempty hsettings
  | perform _ hstep ih => exact ih.perform hstep
  | reopen _ hsettings ih => exact ih.reopen hsettings

theorem key_eq (h : Recorded key c log) (i : Fin n) : (c.node i).settings.key = key :=
  (h.reachable.upholds (Ledger.sound_invariant _)).settings i

/-- A run goes on recording. -/
theorem run (h : Recorded key c log) {steps : List (Step n)}
    (hsteps : ∀ step ∈ steps, step.ThroughNodes) :
    Recorded key (c.run steps).2 (log ++ c.log steps) := by
  induction steps generalizing c log with
  | nil =>
      rw [Cluster.log, List.append_nil]
      exact h
  | cons step steps ih =>
      rw [Cluster.log, ← List.append_assoc]
      refine ih (h.perform (hsteps step List.mem_cons_self)) fun other ho => ?_
      exact hsteps other (List.mem_cons_of_mem _ ho)

/-- What the tenants hold comes from the effects of the log. -/
theorem effects (h : Recorded key c log) : Effects (fun _ => none) log (c.held key) := by
  have hI := Ledger.sound_invariant fun s => s.key = key
  induction h with
  | @new n store settings hempty hsettings =>
      rw [held, show (Cluster.new store settings).backend.store.inner = store from rfl,
        hempty.held]
      exact .nil _
  | perform hc hstep ih =>
      exact ih.append (effects_perform hI (fun _ hs => hs) (hc.reachable.upholds hI) hstep)
  | reopen hc hsettings ih => exact ih

/-- A tenant has as many references as are outstanding. -/
theorem references_eq (h : Recorded key c log) (tenant : String) :
    (references (c.held key) tenant : Int) = outstanding log tenant := by
  have hrefs := h.effects.references_eq (fun _ _ hl => by cases hl) tenant
  rwa [show references (fun _ => none) tenant = 0 from rfl, Int.natCast_zero, Int.zero_add]
    at hrefs

end Recorded

/-- A stop that is answered tells how many references there were. -/
theorem stop_effect {held held' : String → Option Lease} {tenant : String} {release : Release}
    (h : Request.Effect held (.stop tenant) (.ok release) held') (hc : Counted held) {count : Int}
    (hcount : (references held tenant : Int) = count) :
    (release = .notAllocated ↔ count = 0) ∧ ((∃ slot, release = .released slot) ↔ count = 1) ∧
      ((∃ slot remaining, release = .decremented slot remaining) ↔ 1 < count) ∧
      ∀ slot remaining, release = .decremented slot remaining →
        (remaining.toNat : Int) = count - 1 := by
  subst hcount
  cases h with
  | returned _ lease present others =>
      have hmany : 1 < lease.references.toNat := UInt32.lt_iff_toNat_lt.1 others
      rw [references_of_some present]
      refine ⟨iff_of_false nofun (by omega), iff_of_false nofun (by omega),
        iff_of_true ⟨_, _, rfl⟩ (by omega), ?_⟩
      intro slot remaining he
      cases he
      rw [Ledger.toNat_sub_one others]
      omega
  | released _ lease present last =>
      have hpos := hc _ _ present
      have hone : ¬ 1 < lease.references.toNat := fun h => last (UInt32.lt_iff_toNat_lt.2 h)
      rw [references_of_some present]
      exact ⟨iff_of_false nofun (by omega), iff_of_true ⟨_, rfl⟩ (by omega),
        iff_of_false nofun (by omega), nofun⟩
  | notHeld _ absent =>
      rw [references_of_none absent]
      exact ⟨iff_of_true rfl rfl, iff_of_false nofun (by omega), iff_of_false nofun (by omega),
        nofun⟩

/-! ### The account of a tenant -/

/-- **What a log tells of a tenant** in a cluster of one key. -/
structure Accounted (c : Cluster n) (key : String) (log : List Served) (tenant : String) : Prop where
  /-- A lease is stored exactly while references are outstanding. -/
  held_iff : (∃ lease, c.held key tenant = some lease) ↔ 0 < outstanding log tenant
  /-- It counts just these. -/
  references : ∀ lease, c.held key tenant = some lease →
    (lease.references.toNat : Int) = outstanding log tenant
  /-- A look-up that gets to see the ledger finds a slot exactly while references are outstanding,
  and says otherwise that there is none. -/
  get : ∀ (i : Fin n) ledger, key ∉ c.backend.locks.held → c.loaded i = .ok ledger →
    ((∃ slot, (c.call i (.get tenant)).1 = .ok slot) ↔ 0 < outstanding log tenant) ∧
      ((c.call i (.get tenant)).1 = .error (.tenantNotAllocated tenant) ↔
        ¬ 0 < outstanding log tenant)
  /-- A stop that is answered tells how many references were outstanding. -/
  stop : ∀ (i : Fin n) release, (c.call i (.stop tenant)).1 = .ok release →
    (release = .notAllocated ↔ outstanding log tenant = 0) ∧
      ((∃ slot, release = .released slot) ↔ outstanding log tenant = 1) ∧
      ((∃ slot remaining, release = .decremented slot remaining) ↔ 1 < outstanding log tenant) ∧
      ∀ slot remaining, release = .decremented slot remaining →
        (remaining.toNat : Int) = outstanding log tenant - 1
  /-- Until the last reference is dropped, all answers name one slot. -/
  slot : ∀ (earlier : List Served) first between last later a b,
    log = earlier ++ (first :: between ++ [last]) ++ later →
      (∀ e ∈ first :: between, Served.releases tenant e = false) →
      first.slot? tenant = some a → last.slot? tenant = some b → b = a

/-- **The log accounts for what every tenant holds.** -/
theorem Recorded.accounted {c : Cluster n} {log : List Served} (h : Recorded key c log)
    (tenant : String) : c.Accounted key log tenant := by
  have hcounted : Counted (c.held key) := h.effects.counted fun _ _ hl => by cases hl
  have hrefs := h.references_eq tenant
  have hheld : (∃ lease, c.held key tenant = some lease) ↔ 0 < outstanding log tenant := by
    rw [← hcounted.references_pos_iff, ← hrefs]
    omega
  have hkey := h.key_eq
  refine ⟨hheld, ?_, ?_, ?_, ?_⟩
  · intro lease hl
    rw [← hrefs, references_of_some hl]
  · intro i ledger hfree hload
    have hanswer : (c.call i (.get tenant)).1 = _ :=
      Settings.result_get ((hkey i).symm ▸ hfree) hload tenant
    rw [hanswer, hkey i, ← hheld, show c.backend.store.inner.held key = c.held key from rfl]
    cases c.held key tenant with
    | none => simp
    | some lease => simp
  · intro i release hr
    obtain ⟨held', heffect⟩ := Settings.effect_of_result_eq_ok hr
    rw [hkey i] at heffect
    exact stop_effect heffect hcounted hrefs
  · intro earlier first between last later a b hlog hkept hfirst hlast
    have heffects := h.effects
    rw [hlog] at heffects
    obtain ⟨mid, hupto, -⟩ := heffects.of_append
    obtain ⟨before, -, hspan⟩ := hupto.of_append
    exact hspan.slot_eq hfirst hlast hkept

/-- Two nodes over an empty store, whose ranges overlap. -/
def twoNodes : Cluster 2 :=
  .new .inMemory #v[.standard, { Settings.standard with slots := ⟨5, 20, .lowestReleased⟩ }]

theorem recorded_twoNodes : Recorded Settings.standard.key twoNodes [] := by
  refine .new Store.isEmpty_inMemory fun i => ?_
  match i with
  | 0 => rfl
  | 1 => rfl

/-- Starts of a tenant at two nodes, one of which cannot be saved, a start of another tenant and a
stop. -/
def mixedSteps (i j : Fin 2) : List (Step 2) :=
  [.request i (.start "a"), .failSave 0, .request j (.start "a"), .request i (.start "b"),
    .request j (.start "a"), .request i (.stop "a")]

theorem accounted_mixedSteps :
    (∃ lease, (twoNodes.run (mixedSteps 0 1)).2.held Settings.standard.key "a" = some lease) ∧
      ∀ lease, (twoNodes.run (mixedSteps 0 1)).2.held Settings.standard.key "a" = some lease →
        (lease.references.toNat : Int) = 1 := by
  have hrecorded : Recorded Settings.standard.key (twoNodes.run (mixedSteps 0 1)).2
      ([] ++ twoNodes.log (mixedSteps 0 1)) := recorded_twoNodes.run (by decide)
  have haccount := hrecorded.accounted "a"
  have hcount : outstanding ([] ++ twoNodes.log (mixedSteps 0 1)) "a" = 1 := by decide +kernel
  have hheld := haccount.held_iff
  have hreferences := haccount.references
  rw [hcount] at hheld hreferences
  exact ⟨hheld.2 (by decide), hreferences⟩

end Cluster

end Tenancy
