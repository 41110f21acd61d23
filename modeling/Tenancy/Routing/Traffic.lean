/-
**Routing and its traffic.**

The four ways of asking a router: where to add an entity, where to delete it from, where to run a
query, and where to add a batch of entities.  The router counts them, and it counts which lookups
went to the default shard for want of a name and which named no shard.  A batch stops at the first
key that names no shard; the keys up to that one are counted.

Main definitions:

* `Tenancy.Routing.Traffic` — **the counts**;
* `Tenancy.Routing.Router.findName`, `Tenancy.Routing.Router.findKey` — the shard of a name and of a
  key;
* `Tenancy.Routing.Router.addition`, `Tenancy.Routing.Router.deletion`,
  `Tenancy.Routing.Router.query`, `Tenancy.Routing.Router.batch` — **the four ways of asking**;
* `Tenancy.Routing.Lookup`, `Tenancy.Routing.Router.look` — any of the four, and its answer.

Main results:

* `Tenancy.Routing.Router.findKey_eq_findName`, `Tenancy.Routing.Router.findKey_eq_default` — a key
  goes where its name goes, or to the default shard.
-/

import Tenancy.Routing.Router

set_option relaxedAutoImplicit false
set_option autoImplicit false

universe u

namespace Tenancy.Routing

/-- **What a router has counted.** -/
structure Traffic where
  additions : Nat
  deletions : Nat
  queries : Nat
  /-- Lookups without a name, which the default shard serves. -/
  defaultRoutes : Nat
  /-- Lookups of a name that no shard has. -/
  misses : Nat
deriving DecidableEq, Repr

namespace Traffic

/-- Nothing has been counted. -/
def zero : Traffic := ⟨0, 0, 0, 0, 0⟩

/-- One more addition. -/
def addition (t : Traffic) : Traffic := { t with additions := t.additions + 1 }

/-- One more deletion. -/
def deletion (t : Traffic) : Traffic := { t with deletions := t.deletions + 1 }

/-- One more query. -/
def query (t : Traffic) : Traffic := { t with queries := t.queries + 1 }

/-- One more lookup that the default shard serves. -/
def defaultRoute (t : Traffic) : Traffic := { t with defaultRoutes := t.defaultRoutes + 1 }

/-- One more name that no shard has. -/
def miss (t : Traffic) : Traffic := { t with misses := t.misses + 1 }

end Traffic

/-- The places of keys in a batch, by the number of the shard that the keys go to. -/
abbrev Groups := Std.ExtTreeMap Nat (List Nat)

/-- Puts one more place under a shard, behind those already there. -/
def addPlace (groups : Groups) (index place : Nat) : Groups :=
  groups.insert index (groups.getD index [] ++ [place])

namespace Router

variable {η : Type u}

/-! ### The shard of a name and of a key -/

/-- The shard of a name. -/
def findName (r : Router η) (name : String) (t : Traffic) :
    Except Failure (Fin r.shards.length) × Traffic :=
  match r.byName[name]? with
  | some index => (.ok index, t)
  | none => (.error (.shardNotFound name), t.miss)

/-- The shard of a key: that of the name it carries, or the default shard. -/
def findKey (r : Router η) (key : String) (t : Traffic) :
    Except Failure (Fin r.shards.length) × Traffic :=
  match Routing.shardName? key r.options.separator with
  | some name => r.findName name t
  | none => (.ok r.defaultIndex, t.defaultRoute)

theorem findKey_eq_findName {r : Router η} {key name : String}
    (h : Routing.shardName? key r.options.separator = some name) (t : Traffic) :
    r.findKey key t = r.findName name t := by
  simp [findKey, h]

theorem findKey_eq_default {r : Router η} {key : String}
    (h : Routing.shardName? key r.options.separator = none) (t : Traffic) :
    r.findKey key t = (.ok r.defaultIndex, t.defaultRoute) := by
  simp [findKey, h]

/-! ### The four ways of asking -/

/-- **The shard that stores the entity with a key.** -/
def addition (r : Router η) (key : String) (t : Traffic) : Except Failure η × Traffic :=
  let (found, t) := r.findKey key t.addition
  (found.map r.shard, t)

/-- **The shards to delete the entity with a key from**: always one. -/
def deletion (r : Router η) (key : String) (t : Traffic) : Except Failure (List η) × Traffic :=
  let (found, t) := r.findKey key t.deletion
  (found.map fun index => [r.shard index], t)

/-- **The shards that a query runs against**: the one named by the first filter, or the default
shard if there is no filter.  Other filters do not matter. -/
def query (r : Router η) (filters : List String) (t : Traffic) :
    Except Failure (List η) × Traffic :=
  match filters with
  | [] => (.ok [r.defaultShard], t.query.defaultRoute)
  | name :: _ =>
      let (found, t) := r.findName name t.query
      (found.map fun index => [r.shard index], t)

/-- Sorts the keys of a batch from `place` on into groups, up to the first key that names no
shard. -/
def batchFrom (r : Router η) (place : Nat) :
    List String → Groups → Traffic → Except Failure Groups × Traffic
  | [], groups, t => (.ok groups, t)
  | key :: keys, groups, t =>
      match r.findKey key t.addition with
      | (.error failure, t) => (.error failure, t)
      | (.ok index, t) => r.batchFrom (place + 1) keys (addPlace groups index place) t

/-- **The places of the keys of a batch, by shard.** -/
def batch (r : Router η) (keys : List String) (t : Traffic) : Except Failure Groups × Traffic :=
  r.batchFrom 0 keys ∅ t

end Router

/-! ### Any lookup -/

/-- Something that a router is asked. -/
inductive Lookup where
  | addition (key : String)
  | deletion (key : String)
  | query (filters : List String)
  | batch (keys : List String)
deriving DecidableEq, Repr

/-- What a router answers. -/
inductive Found (η : Type u) where
  | shard (handle : η)
  | shards (handles : List η)
  | groups (groups : Groups)

/-- **The answer to a lookup**, and the counts after it. -/
def Router.look {η : Type u} (r : Router η) (lookup : Lookup) (t : Traffic) :
    Except Failure (Found η) × Traffic :=
  match lookup with
  | .addition key =>
      let (found, t) := r.addition key t
      (found.map .shard, t)
  | .deletion key =>
      let (found, t) := r.deletion key t
      (found.map .shards, t)
  | .query filters =>
      let (found, t) := r.query filters t
      (found.map .shards, t)
  | .batch keys =>
      let (found, t) := r.batch keys t
      (found.map .groups, t)

end Tenancy.Routing
