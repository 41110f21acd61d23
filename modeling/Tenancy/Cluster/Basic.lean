/-
**Clusters.**

A number of nodes over one lock table and one store, and the guards that a host holds on resources
of its own choice under names of its own choice.

Main definitions:

* `Tenancy.Cluster` — **a cluster of `n` nodes**;
* `Tenancy.Cluster.call` — a request to one of its nodes;
* `Tenancy.Cluster.lock`, `Tenancy.Cluster.unlock` — taking and dropping a guard;
* `Tenancy.Cluster.restart` — the cluster after all its nodes were started anew over the same store.
-/

import Tenancy.Node.Basic

set_option relaxedAutoImplicit false
set_option autoImplicit false

namespace Tenancy

/-- **A cluster of `n` nodes.** -/
structure Cluster (n : Nat) where
  backend : Backend
  /-- The resource held under each name. -/
  guards : Std.ExtTreeMap String String
  nodes : Vector Node n

namespace Cluster

variable {n : Nat}

/-- A cluster of nodes with the given settings over a store, with nothing locked. -/
def new (store : Store) (settings : Vector Settings n) : Cluster n where
  backend := ⟨.empty, .new store⟩
  guards := ∅
  nodes := settings.map .new

/-- The node with the given number. -/
def node (c : Cluster n) (i : Fin n) : Node := c.nodes[i]

/-- The cluster after something was done at one node. -/
def update (c : Cluster n) (i : Fin n) (node : Node) (backend : Backend) : Cluster n :=
  { c with nodes := c.nodes.set i node, backend }

@[simp] theorem node_update_self (c : Cluster n) (i : Fin n) (node : Node) (backend : Backend) :
    (c.update i node backend).node i = node := by
  simp [Cluster.node, update]

theorem node_update_of_ne (c : Cluster n) {i j : Fin n} (node : Node) (backend : Backend)
    (h : i ≠ j) : (c.update i node backend).node j = c.node j := by
  simp only [Cluster.node, update, Fin.getElem_fin]
  exact Vector.getElem_set_ne i.isLt j.isLt fun he => h (Fin.ext he)

/-! ### Requests -/

/-- Makes a request to one node. -/
def call (c : Cluster n) (i : Fin n) (r : Request) : Except Failure r.Answer × Cluster n :=
  let (answer, node, backend) := (c.node i).call r c.backend
  (answer, c.update i node backend)

/-- How often calls have failed with a label, over all nodes. -/
def errorCount (c : Cluster n) (label : String) : Nat :=
  (c.nodes.toList.map fun node => node.counters.errors.count label).foldr (· + ·) 0

/-! ### Guards -/

/-- The cluster with another lock table. -/
def withLocks (c : Cluster n) (locks : LockTable) : Cluster n :=
  { c with backend := { c.backend with locks } }

/-- The cluster with another store. -/
def withStore (c : Cluster n) (store : FaultyStore) : Cluster n :=
  { c with backend := { c.backend with store } }

/-- Drops the guard under a name, if there is one, and gives its resource back. -/
def unlock (c : Cluster n) (name : String) : Bool × Cluster n :=
  match c.guards[name]? with
  | none => (false, c)
  | some resource =>
      (true,
        { c.withLocks (c.backend.locks.release resource) with guards := c.guards.erase name })

/-- Takes a resource and holds it under a name.  Once it is granted, a guard held under that name
before is dropped. -/
def lock (c : Cluster n) (resource : String) (timeout : Duration) (name : String) :
    Except Failure Unit × Cluster n :=
  match c.backend.locks.acquire resource timeout with
  | .error failure => (.error failure, c)
  | .ok locks =>
      let c := ((c.withLocks locks).unlock name).2
      (.ok (), { c with guards := c.guards.insert name resource })

/-! ### Starting anew -/

/-- Starts all nodes anew over the same store: counts and faults are gone and no node has a
resolver, while guards stay. -/
def restart (c : Cluster n) : Cluster n :=
  { c.withStore (.new c.backend.store.inner) with
    nodes := c.nodes.map fun node => .new node.settings }

end Cluster

end Tenancy
