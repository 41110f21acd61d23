/-
**Steps of a cluster.**

Everything that a host can do to a cluster, one step at a time, and what it is told.  A step that
fails says why, and a run goes on with the cluster as the step left it.

Main definitions:

* `Tenancy.Cluster.Step`, `Tenancy.Cluster.Reply` — the steps and what they are answered with;
* `Tenancy.Cluster.perform` — **one step**;
* `Tenancy.Cluster.run` — the steps of a list, one after the other.

Main results:

* `Tenancy.Cluster.run_append` — a run may be cut anywhere.
-/

import Tenancy.Cluster.Queue

set_option relaxedAutoImplicit false
set_option autoImplicit false

namespace Tenancy.Cluster

variable {n : Nat}

/-- **What a host can do to a cluster of `n` nodes.** -/
inductive Step (n : Nat) where
  /-- Make a request to a node. -/
  | request (node : Fin n) (request : Request)
  /-- Let requests queue up at the lock of a node's key. -/
  | queue (node : Fin n) (calls : List (Call n))
  /-- Read what a node has counted. -/
  | counters (node : Fin n)
  /-- Read how often calls failed with a label, over all nodes and at one. -/
  | errors (node : Fin n) (label : String)
  /-- Make the next load fail. -/
  | failLoad
  /-- Let some saves pass and make the next one fail. -/
  | failSave (after : Nat)
  /-- Read what the store has counted. -/
  | faults
  /-- Save a ledger past the nodes. -/
  | put (key : String) (ledger : Ledger)
  /-- Load a ledger past the nodes. -/
  | load (key : String)
  /-- Take a resource and hold it under a name. -/
  | lock (resource : String) (timeout : Duration) (name : String)
  /-- Drop what is held under a name. -/
  | unlock (name : String)
  /-- Read whether a resource is held. -/
  | status (resource : String)
  /-- Give a node a resolver. -/
  | resolve (node : Fin n) (table : Cache.Table) (source : Cache.TypeSource)
  /-- Start a cache of a tenant. -/
  | startCache (node : Fin n) (tenant : String) (kind : Cache.Kind)
  /-- Stop a cache of a tenant. -/
  | stopCache (node : Fin n) (tenant : String) (kind : Cache.Kind)
  /-- Find the mux id of a tenant's cache. -/
  | muxId (node : Fin n) (tenant : String) (kind : Cache.Kind)
  /-- Read the files of the store. -/
  | files
  /-- Write a file past the store. -/
  | writeFile (file : String) (content : Octets)
  /-- Start all nodes anew. -/
  | restart

/-- What a step is answered with. -/
inductive Reply where
  /-- The step was done, and there is nothing to tell. -/
  | done
  /-- The answer to a request. -/
  | answer (request : Request) (answer : request.Answer)
  /-- The answers of the requests that queued up. -/
  | answers (served : List Served)
  /-- What a node has counted. -/
  | counters (counters : Counters)
  /-- How often calls failed with a label, over all nodes and at one. -/
  | errors (total own : Nat)
  /-- What the store has counted. -/
  | faults (counts : FaultCounts)
  /-- A stored ledger. -/
  | stored (ledger : Option Ledger)
  /-- The resource that is now held. -/
  | guard (resource : String)
  /-- Whether something was held. -/
  | dropped (held : Bool)
  /-- Whether a resource is held. -/
  | status (status : LockStatus)
  /-- The cache that may be started. -/
  | cache (description : Cache.Description)
  /-- The mux id of a cache. -/
  | muxId (muxId : Int16)
  /-- The files of the store. -/
  | files (files : List (String × Octets))

/-- Does something at a node through its resolver. -/
def throughResolver {α : Type} (c : Cluster n) (i : Fin n)
    (act : Node → Resolver → Backend → Except Failure α × Node × Backend) :
    Except Failure α × Cluster n :=
  match (c.node i).resolver with
  | none => (.error (.internal s!"node {i.val} has no resolver"), c)
  | some resolver =>
      let (answer, node, backend) := act (c.node i) resolver c.backend
      (answer, c.update i node backend)

/-- **One step.** -/
def perform (c : Cluster n) : Step n → Except Failure Reply × Cluster n
  | .request i r =>
      let (answer, c) := c.call i r
      (answer.map (.answer r), c)
  | .queue i calls =>
      let (answers, c) := c.queue i calls
      (answers.map .answers, c)
  | .counters i => (.ok (.counters (c.node i).counters), c)
  | .errors i label =>
      (.ok (.errors (c.errorCount label) ((c.node i).counters.errors.count label)), c)
  | .failLoad => (.ok .done, c.withStore c.backend.store.failNextLoad)
  | .failSave after => (.ok .done, c.withStore (c.backend.store.failSaveAfter after))
  | .faults => (.ok (.faults c.backend.store.counts), c)
  | .put key ledger =>
      let (saved, store) := c.backend.store.save key ledger
      ((saved.mapError .storage).map fun _ => .done, c.withStore store)
  | .load key =>
      let (loaded, store) := c.backend.store.load key
      ((loaded.mapError .storage).map .stored, c.withStore store)
  | .lock resource timeout name =>
      let (granted, c) := c.lock resource timeout name
      (granted.map fun _ => .guard resource, c)
  | .unlock name =>
      let (held, c) := c.unlock name
      (.ok (.dropped held), c)
  | .status resource => (.ok (.status (c.backend.locks.status resource)), c)
  | .resolve i table source =>
      match Resolver.new (c.node i).settings table source with
      | .error failure => (.error failure, c)
      | .ok resolver =>
          (.ok .done, c.update i { c.node i with resolver := some resolver } c.backend)
  | .startCache i tenant kind =>
      let (answer, c) := c.throughResolver i fun node resolver =>
        node.startCache resolver tenant kind
      (answer.map .cache, c)
  | .stopCache i tenant _ =>
      let (answer, c) := c.throughResolver i fun node _ => node.stopCache tenant
      (answer.map (.answer (.stop tenant)), c)
  | .muxId i tenant kind =>
      let (answer, c) := c.throughResolver i fun node resolver => node.muxId resolver tenant kind
      (answer.map .muxId, c)
  | .files => (.ok (.files c.backend.store.inner.files), c)
  | .writeFile file content =>
      let store := c.backend.store
      (.ok .done, c.withStore { store with inner := store.inner.writeFile file content })
  | .restart => (.ok .done, c.restart)

/-- **The steps of a list, one after the other.** -/
def run (c : Cluster n) : List (Step n) → List (Except Failure Reply) × Cluster n
  | [] => ([], c)
  | step :: steps =>
      let (reply, c) := c.perform step
      let (replies, c) := c.run steps
      (reply :: replies, c)

/-- A run may be cut anywhere. -/
theorem run_append (c : Cluster n) (first second : List (Step n)) :
    c.run (first ++ second) =
      ((c.run first).1 ++ ((c.run first).2.run second).1, ((c.run first).2.run second).2) := by
  induction first generalizing c with
  | nil => simp [run]
  | cons step steps ih => simp [run, ih]

end Tenancy.Cluster
