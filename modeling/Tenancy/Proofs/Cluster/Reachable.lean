/-
**The states that a cluster reaches.**

A cluster begins over an empty store.  From then on its host makes any steps in any order, with
locks taken and dropped, faults switched on, and calls queued up or made through caches; the host
may also open the store again with other nodes.  The only steps left out are those that write to
the store past the nodes.  An invariant of ledgers then holds of everything that is ever stored.

Main definitions:

* `Tenancy.Cluster.stored`, `Tenancy.Cluster.loaded` — the ledger under a key, and the one that a
  node would load;
* `Tenancy.Cluster.Step.ThroughNodes` — a step that leaves the ledgers to the nodes;
* `Tenancy.Cluster.reopen` — the cluster of other nodes over the same store;
* `Tenancy.Cluster.Reachable` — **the clusters reached from an empty store** by nodes whose
  settings satisfy a predicate.

Main results:

* `Tenancy.Cluster.Reachable.run` — a run of steps stays among the reachable states;
* `Tenancy.Cluster.Reachable.upholds` — **an invariant holds in every reachable state**;
* `Tenancy.Cluster.Reachable.of_stored`, `Tenancy.Cluster.Reachable.of_loaded` — so it holds of
  every stored ledger and of every ledger that a node loads.
-/

import Tenancy.Cluster.Step
import Tenancy.Proofs.Node.Transaction

set_option relaxedAutoImplicit false
set_option autoImplicit false

namespace Tenancy

open Ledger (Invariant)

/-! ### Nodes -/

/-- A node whose settings satisfy `S`, over a store that keeps `I`. -/
structure Node.Upholds (S : Settings → Prop) (I : Ledger → Prop) (n : Node) (b : Backend) :
    Prop where
  settings : S n.settings
  ledgers : b.store.inner.Keeps I

namespace Node.Upholds

variable {S : Settings → Prop} {I : Ledger → Prop} {n : Node} {b : Backend}

theorem call (hI : Invariant S I) (h : n.Upholds S I b) {r : Request} (hr : r.NamesFit) :
    (n.call r b).2.1.Upholds S I (n.call r b).2.2 :=
  ⟨h.settings, hI.keeps_transact h.settings hr h.ledgers⟩

theorem giveBack (hI : Invariant S I) (h : n.Upholds S I b) {tenant : String}
    (ht : Octets.TextFits tenant) :
    (n.giveBack tenant b).1.Upholds S I (n.giveBack tenant b).2 := by
  have hcall := h.call hI (Request.namesFit_of_tenant (r := .stop tenant) rfl ht)
  simp only [Node.giveBack]
  -- a reference that cannot be given back is only counted
  split <;> rename_i heq <;> rw [heq] at hcall
  · exact hcall
  · exact ⟨hcall.settings, hcall.ledgers⟩

theorem startCache (hI : Invariant S I) (h : n.Upholds S I b) (resolver : Resolver)
    {tenant : String} (kind : Cache.Kind) (ht : Octets.TextFits tenant) :
    (n.startCache resolver tenant kind b).2.1.Upholds S I
      (n.startCache resolver tenant kind b).2.2 := by
  have hcall := h.call hI (Request.namesFit_of_tenant (r := .start tenant) rfl ht)
  simp only [Node.startCache]
  split <;> rename_i heq <;> rw [heq] at hcall
  · exact hcall
  · split
    · exact hcall
    · -- the cache cannot be described: the reference is given back
      exact hcall.giveBack hI ht

theorem stopCache (hI : Invariant S I) (h : n.Upholds S I b) {tenant : String}
    (ht : Octets.TextFits tenant) :
    (n.stopCache tenant b).2.1.Upholds S I (n.stopCache tenant b).2.2 :=
  h.call hI (Request.namesFit_of_tenant rfl ht)

theorem muxId (hI : Invariant S I) (h : n.Upholds S I b) (resolver : Resolver) {tenant : String}
    (kind : Cache.Kind) (ht : Octets.TextFits tenant) :
    (n.muxId resolver tenant kind b).2.1.Upholds S I (n.muxId resolver tenant kind b).2.2 := by
  have hcall := h.call hI (Request.namesFit_of_tenant (r := .get tenant) rfl ht)
  simp only [Node.muxId]
  split <;> rename_i heq <;> rw [heq] at hcall <;> exact hcall

end Node.Upholds

namespace Cluster

variable {n : Nat} {S : Settings → Prop} {I : Ledger → Prop}

/-- The ledger that is stored under a key. -/
def stored (c : Cluster n) (key : String) : Except StorageFault (Option Ledger) :=
  c.backend.store.inner.load key

/-- The ledger that a transaction of a node would load now: the stored one, or an empty one where
there is none yet. -/
def loaded (c : Cluster n) (i : Fin n) : Except Failure Ledger :=
  ((c.node i).settings.load c.backend.store).1

/-! ### Clusters -/

/-- A cluster of nodes whose settings satisfy `S`, over a store that keeps `I`. -/
structure Upholds (S : Settings → Prop) (I : Ledger → Prop) (c : Cluster n) : Prop where
  settings : ∀ i, S (c.node i).settings
  ledgers : c.backend.store.inner.Keeps I

namespace Upholds

variable {c c' : Cluster n}

theorem node (h : c.Upholds S I) (i : Fin n) : (c.node i).Upholds S I c.backend :=
  ⟨h.settings i, h.ledgers⟩

/-- Locks, guards and the switches of the store do not matter. -/
theorem congr (h : c.Upholds S I) (hnodes : c'.nodes = c.nodes)
    (hinner : c'.backend.store.inner = c.backend.store.inner) : c'.Upholds S I := by
  refine ⟨fun i => ?_, hinner ▸ h.ledgers⟩
  rw [Cluster.node, hnodes]
  exact h.settings i

theorem withLocks (h : c.Upholds S I) (locks : LockTable) : (c.withLocks locks).Upholds S I :=
  h.congr rfl rfl

/-- What a node did in keeping with `S` and `I`, the cluster has done. -/
theorem update (h : c.Upholds S I) (i : Fin n) {m : Node} {b : Backend} (hm : m.Upholds S I b) :
    (c.update i m b).Upholds S I := by
  refine ⟨fun j => ?_, hm.ledgers⟩
  by_cases hij : i = j
  · subst hij
    rw [node_update_self]
    exact hm.settings
  · rw [node_update_of_ne c m b hij]
    exact h.settings j

theorem call (hI : Invariant S I) (h : c.Upholds S I) (i : Fin n) {r : Request}
    (hr : r.NamesFit) : (c.call i r).2.Upholds S I :=
  h.update i ((h.node i).call hI hr)

theorem throughResolver {α : Type} (h : c.Upholds S I) (i : Fin n)
    (act : Node → Resolver → Backend → Except Failure α × Node × Backend)
    (hact : ∀ resolver, (act (c.node i) resolver c.backend).2.1.Upholds S I
      (act (c.node i) resolver c.backend).2.2) : (c.throughResolver i act).2.Upholds S I := by
  simp only [Cluster.throughResolver]
  split
  · exact h
  · rename_i resolver _
    exact h.update i (hact resolver)

theorem unlock (h : c.Upholds S I) (name : String) : (c.unlock name).2.Upholds S I := by
  simp only [Cluster.unlock]
  split
  · exact h
  · exact h.congr rfl rfl

theorem lock (h : c.Upholds S I) (resource : String) (timeout : Duration) (name : String) :
    (c.lock resource timeout name).2.Upholds S I := by
  simp only [Cluster.lock]
  split
  · exact h
  · rename_i locks _
    have hlocks : (c.withLocks locks).Upholds S I := h.congr rfl rfl
    exact (hlocks.unlock name).congr rfl rfl

theorem restart (h : c.Upholds S I) : c.restart.Upholds S I := by
  refine ⟨fun i => ?_, h.ledgers⟩
  have hi : (c.restart.node i).settings = (c.node i).settings := by
    simp [Cluster.restart, Cluster.node, withStore, Node.new]
  rw [hi]
  exact h.settings i

/-! ### Calls that queue up -/

theorem serveUnlessWaiting (hI : Invariant S I) (key : String) {calls : List (Call n)}
    (hcalls : ∀ call ∈ calls, call.request.NamesFit) (h : c.Upholds S I) :
    (serveUnlessWaiting key c calls).2.Upholds S I := by
  -- induction on the calls, over the cluster that those before have left
  induction calls generalizing c with
  | nil => exact h
  | cons call calls ih =>
      have hrest := fun other ho => hcalls other (List.mem_cons_of_mem _ ho)
      simp only [Cluster.serveUnlessWaiting]
      split
      · exact ih hrest h
      · exact ih hrest (h.call hI call.node (hcalls call List.mem_cons_self))

/-- The calls that are left waiting are among those that were made. -/
theorem mem_of_waiting (key : String) {calls : List (Call n)} (c : Cluster n) {call : Call n}
    (h : .inr call ∈ (Cluster.serveUnlessWaiting key c calls).1) : call ∈ calls := by
  induction calls generalizing c with
  | nil => cases h
  | cons first calls ih =>
      simp only [Cluster.serveUnlessWaiting] at h
      split at h <;> rcases List.mem_cons.1 h with he | ht
      · cases he
        exact List.mem_cons_self
      · exact List.mem_cons_of_mem _ (ih c ht)
      · cases he
      · exact List.mem_cons_of_mem _ (ih _ ht)

theorem serveWaiting (hI : Invariant S I) {pending : List (Served ⊕ Call n)}
    (hpending : ∀ call, .inr call ∈ pending → call.request.NamesFit) (h : c.Upholds S I) :
    (c.serveWaiting pending).2.Upholds S I := by
  induction pending generalizing c with
  | nil => exact h
  | cons first pending ih =>
      have hrest := fun call hc => hpending call (List.mem_cons_of_mem _ hc)
      cases first with
      | inl served => exact ih hrest h
      | inr call => exact ih hrest (h.call hI call.node (hpending call List.mem_cons_self))

theorem queue (hI : Invariant S I) (i : Fin n) {calls : List (Call n)}
    (hcalls : ∀ call ∈ calls, call.request.NamesFit) (h : c.Upholds S I) :
    (c.queue i calls).2.Upholds S I := by
  simp only [Cluster.queue]
  split
  · exact h
  · rename_i locks _
    have hlocks : (c.withLocks locks).Upholds S I := h.congr rfl rfl
    have hheld := hlocks.serveUnlessWaiting hI (c.node i).settings.key hcalls
    refine serveWaiting hI (fun call hc => hcalls call (mem_of_waiting _ _ hc)) ?_
    exact hheld.congr rfl rfl

end Upholds

/-! ### Steps -/

/-- **A step that leaves the ledgers to the nodes**, about tenants whose names fit. -/
def Step.ThroughNodes : Step n → Prop
  | .request _ r => r.NamesFit
  | .queue _ calls => ∀ call ∈ calls, call.request.NamesFit
  | .startCache _ tenant _ | .stopCache _ tenant _ | .muxId _ tenant _ => Octets.TextFits tenant
  | .put _ _ | .writeFile _ _ => False
  | _ => True

instance : (step : Step n) → Decidable step.ThroughNodes
  | .request _ r => inferInstanceAs (Decidable r.NamesFit)
  | .queue _ calls => inferInstanceAs (Decidable (∀ call ∈ calls, call.request.NamesFit))
  | .startCache _ tenant _ | .stopCache _ tenant _ | .muxId _ tenant _ =>
      inferInstanceAs (Decidable (Octets.TextFits tenant))
  | .put _ _ | .writeFile _ _ => .isFalse id
  | .counters _ | .errors _ _ | .failLoad | .failSave _ | .faults | .load _ | .lock _ _ _
  | .unlock _ | .status _ | .resolve _ _ _ | .files | .restart => .isTrue trivial

/-- **One step keeps an invariant.** -/
theorem Upholds.perform (hI : Invariant S I) {c : Cluster n} (h : c.Upholds S I) {step : Step n}
    (hstep : step.ThroughNodes) : (c.perform step).2.Upholds S I := by
  -- the steps about a tenant make transactions; of the others none reaches a ledger
  cases step with
  | request i r => exact h.call hI i hstep
  | queue i calls => exact h.queue hI i hstep
  | failLoad => exact h.congr rfl rfl
  | failSave after => exact h.congr rfl rfl
  | load key => exact h.congr rfl (FaultyStore.inner_load c.backend.store key)
  | lock resource timeout name => exact h.lock resource timeout name
  | unlock name => exact h.unlock name
  | resolve i table source =>
      simp only [Cluster.perform]
      split
      · exact h
      · exact h.update i ⟨h.settings i, h.ledgers⟩
  | startCache i tenant kind =>
      refine h.throughResolver i (fun node resolver => node.startCache resolver tenant kind) ?_
      exact fun resolver => (h.node i).startCache hI resolver kind hstep
  | stopCache i tenant kind =>
      refine h.throughResolver i (fun node _ => node.stopCache tenant) ?_
      exact fun _ => (h.node i).stopCache hI hstep
  | muxId i tenant kind =>
      refine h.throughResolver i (fun node resolver => node.muxId resolver tenant kind) ?_
      exact fun resolver => (h.node i).muxId hI resolver kind hstep
  | restart => exact h.restart
  | put key ledger => exact hstep.elim
  | writeFile file content => exact hstep.elim
  | counters i => exact h
  | errors i label => exact h
  | faults => exact h
  | status resource => exact h
  | files => exact h

/-! ### Reachable states -/

/-- The cluster of nodes with other settings over the same store; what is held stays held. -/
def reopen {m : Nat} (c : Cluster n) (settings : Vector Settings m) : Cluster m where
  backend := ⟨c.backend.locks, .new c.backend.store.inner⟩
  guards := c.guards
  nodes := settings.map .new

theorem settings_new (store : Store) (settings : Vector Settings n) (i : Fin n) :
    ((Cluster.new store settings).node i).settings = settings.get i := by
  show (settings.map Node.new)[i.val].settings = settings[i.val]
  rw [Vector.getElem_map]
  rfl

theorem settings_reopen {m : Nat} (c : Cluster n) (settings : Vector Settings m) (i : Fin m) :
    ((c.reopen settings).node i).settings = settings.get i :=
  settings_new c.backend.store.inner settings i

/-- **The clusters reached from an empty store**, all nodes at all times having settings that
satisfy `S`. -/
inductive Reachable (S : Settings → Prop) : {n : Nat} → Cluster n → Prop where
  /-- Nothing has been done yet. -/
  | new {n : Nat} {store : Store} {settings : Vector Settings n} :
      store.IsEmpty → (∀ i : Fin n, S (settings.get i)) → Reachable S (Cluster.new store settings)
  /-- The host made a step. -/
  | perform {n : Nat} {c : Cluster n} {step : Step n} :
      Reachable S c → step.ThroughNodes → Reachable S (c.perform step).2
  /-- The host opened the store again with other nodes. -/
  | reopen {n m : Nat} {c : Cluster n} {settings : Vector Settings m} :
      Reachable S c → (∀ i : Fin m, S (settings.get i)) → Reachable S (c.reopen settings)

namespace Reachable

variable {c : Cluster n}

/-- **A run of steps stays among the reachable states.** -/
theorem run (h : Reachable S c) {steps : List (Step n)}
    (hsteps : ∀ step ∈ steps, step.ThroughNodes) : Reachable S (c.run steps).2 := by
  -- induction on the steps, over the cluster from which they begin
  induction steps generalizing c with
  | nil => exact h
  | cons step steps ih =>
      exact ih (h.perform (hsteps step List.mem_cons_self)) fun other ho =>
        hsteps other (List.mem_cons_of_mem _ ho)

/-- **An invariant holds in every reachable state.** -/
theorem upholds (hI : Invariant S I) (h : Reachable S c) : c.Upholds S I := by
  -- induction on how the cluster was reached
  induction h with
  | new hempty hsettings =>
      refine ⟨fun i => ?_, hempty.keeps⟩
      rw [settings_new]
      exact hsettings i
  | perform _ hstep ih => exact ih.perform hI hstep
  | reopen _ hsettings ih =>
      refine ⟨fun i => ?_, ih.ledgers⟩
      rw [settings_reopen]
      exact hsettings i

/-- Every stored ledger has the property. -/
theorem of_stored (hI : Invariant S I) (h : Reachable S c) {key : String} {ledger : Ledger}
    (hs : c.stored key = .ok (some ledger)) : I ledger :=
  (h.upholds hI).ledgers.of_load hI.fits hs

/-- Every ledger that a node loads has the property. -/
theorem of_loaded (hI : Invariant S I) (h : Reachable S c) {i : Fin n} {ledger : Ledger}
    (hl : c.loaded i = .ok ledger) : I ledger :=
  hI.of_load ((h.upholds hI).settings i) (h.upholds hI).ledgers hl

end Reachable

end Cluster

end Tenancy
