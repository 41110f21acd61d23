/-
**Nodes.**

A node allocates slots to tenants out of the ledger that it shares with other nodes, and brings
tenant caches online.  Starting a cache takes a reference to the tenant's slot and then describes
the cache; if it cannot be described, the reference is given back, and if that fails too, it is
counted as leaked.  The failure that is answered is always the first one.

Main definitions:

* `Tenancy.Resolver` — the table of kinds and the source of types with which caches are described;
* `Tenancy.Node` — **a node**;
* `Tenancy.Node.call` — a request served and counted;
* `Tenancy.Node.startCache`, `Tenancy.Node.stopCache`, `Tenancy.Node.muxId` — **bringing a cache
  online, taking it off, and its mux id**.

Main results:

* `Tenancy.Node.settings_call`, `Tenancy.Node.locks_call` — a call changes neither the settings of
  the node nor which resources are held.
-/

import Tenancy.Cache.Description
import Tenancy.Node.Counters

set_option relaxedAutoImplicit false
set_option autoImplicit false

namespace Tenancy

/-- With what caches are described. -/
structure Resolver where
  table : Cache.Table
  source : Cache.TypeSource

/-- The resolver of a node with the given settings, which must be valid with the table. -/
def Resolver.new (settings : Settings) (table : Cache.Table) (source : Cache.TypeSource) :
    Except Failure Resolver := do
  settings.validate table
  return ⟨table, source⟩

/-- **A node of a cluster.** -/
structure Node where
  settings : Settings
  counters : Counters
  resolver : Option Resolver

namespace Node

/-- A node that has done nothing yet. -/
def new (settings : Settings) : Node := ⟨settings, .zero, none⟩

/-- Serves a request in a transaction and counts it. -/
def call (n : Node) (r : Request) (b : Backend) : Except Failure r.Answer × Node × Backend :=
  let (outcome, b) := n.settings.transact r b
  (outcome.result, { n with counters := n.counters.note r outcome }, b)

@[simp] theorem settings_call (n : Node) (r : Request) (b : Backend) :
    (n.call r b).2.1.settings = n.settings := rfl

@[simp] theorem resolver_call (n : Node) (r : Request) (b : Backend) :
    (n.call r b).2.1.resolver = n.resolver := rfl

@[simp] theorem locks_call (n : Node) (r : Request) (b : Backend) :
    (n.call r b).2.2.locks = b.locks :=
  n.settings.locks_transact r b

/-! ### Caches -/

/-- Gives back the reference that was taken for a cache; one that cannot be given back is counted as
leaked. -/
def giveBack (n : Node) (tenant : String) (b : Backend) : Node × Backend :=
  match n.call (.stop tenant) b with
  | (.ok _, n, b) => (n, b)
  | (.error _, n, b) => ({ n with counters := n.counters.noteLeak }, b)

/-- **Takes a reference for a tenant and describes the cache of a kind.**  If the cache cannot be
described, the reference is given back before the failure is answered. -/
def startCache (n : Node) (resolver : Resolver) (tenant : String) (kind : Cache.Kind)
    (b : Backend) : Except Failure Cache.Description × Node × Backend :=
  match n.call (.start tenant) b with
  | (.error failure, n, b) => (.error failure, n, b)
  | (.ok lease, n, b) =>
      match Cache.describe resolver.table resolver.source n.settings.indexedCaches tenant kind
          lease.slot with
      | .ok description => (.ok description, n, b)
      | .error failure => (.error failure, n.giveBack tenant b)

/-- Gives back the reference that was taken for a cache of the tenant. -/
def stopCache (n : Node) (tenant : String) (b : Backend) :
    Except Failure Release × Node × Backend :=
  n.call (.stop tenant) b

/-- The mux id of a running tenant's cache of a kind. -/
def muxId (n : Node) (resolver : Resolver) (tenant : String) (kind : Cache.Kind) (b : Backend) :
    Except Failure Int16 × Node × Backend :=
  match n.call (.get tenant) b with
  | (.error failure, n, b) => (.error failure, n, b)
  | (.ok slot, n, b) => (resolver.table.muxId kind slot n.settings.indexedCaches, n, b)

end Node

end Tenancy
