/-
**The shard router.**

A router holds the shards in order and the names of some of them.  The first shard is the default
shard: it serves the keys that carry no shard name, and it never has a name itself.  A key that
carries a name goes to the shard of that name, a query to the shard named by its first filter.

Main definitions:

* `Tenancy.Routing.Options` — the separator of keys and the marker of properties;
* `Tenancy.Routing.Router` — **a router** over shards of any type;
* `Tenancy.Routing.nameTable` — the shards that have a name, by name;
* `Tenancy.Routing.Router.new`, `Tenancy.Routing.Router.ofText` — building a router;
* `Tenancy.Routing.Router.shardIndex?`, `Tenancy.Routing.Router.shardName?` — the shard of a name,
  and the name of a shard.
-/

import Tenancy.Routing.Key
import Tenancy.Routing.Names

set_option relaxedAutoImplicit false
set_option autoImplicit false

universe u

namespace Tenancy.Routing

/-- How keys and properties are read. -/
structure Options where
  /-- What stands between an identifier and a shard name in a key. -/
  separator : String
  /-- What stands before a shard's number in the key of a property. -/
  marker : String
deriving DecidableEq, Repr

/-- The options of a router that is told nothing else. -/
def Options.standard : Options := ⟨defaultSeparator, "index_name."⟩

/-- **A router** over shards with handles of type `η`. -/
structure Router (η : Type u) where
  options : Options
  /-- The shards in order; the first is the default shard. -/
  shards : List η
  /-- The shards that have a name, by name. -/
  byName : Std.ExtTreeMap String (Fin shards.length)
  nonempty : 0 < shards.length

/-- The shards that have a name, by name, if there are `count` shards.  A name for the default shard
or for a shard that does not exist is ignored; of several shards of one name the last counts. -/
def nameTable (count : Nat) (names : Names) : Std.ExtTreeMap String (Fin count) :=
  names.toList.foldl
    (fun table (index, name) =>
      if h : 0 < index ∧ index < count then table.insert name ⟨index, h.2⟩ else table)
    ∅

namespace Router

variable {η : Type u}

/-- **A router over shards**, with some of them named. -/
def new (shards : List η) (names : Names) (options : Options) : Except Failure (Router η) :=
  if options.separator = "" then .error (.config .emptySeparator)
  else if h : 0 < shards.length then .ok ⟨options, shards, nameTable shards.length names, h⟩
  else .error (.config .noShards)

/-- A router over shards that are named by a properties text. -/
def ofText (shards : List η) (text : String) (options : Options) : Except Failure (Router η) :=
  match Names.parse options.marker text with
  | .ok names => new shards names options
  | .error failure => .error failure

/-- The number of the default shard. -/
def defaultIndex (r : Router η) : Fin r.shards.length := ⟨0, r.nonempty⟩

/-- The shard with the given number. -/
def shard (r : Router η) (index : Fin r.shards.length) : η := r.shards[index]

/-- The default shard. -/
def defaultShard (r : Router η) : η := r.shard r.defaultIndex

/-- How many shards there are, the default shard included. -/
def size (r : Router η) : Nat := r.shards.length

/-- The number of the shard of a name. -/
def shardIndex? (r : Router η) (name : String) : Option Nat := r.byName[name]?.map Fin.val

/-- The name of the shard with the given number, if it has one. -/
def shardName? (r : Router η) (index : Nat) : Option String :=
  (r.byName.toList.find? fun entry => entry.2.val == index).map Prod.fst

/-- The number of a shard is below the number of shards. -/
theorem shardIndex?_lt {r : Router η} {name : String} {index : Nat}
    (h : r.shardIndex? name = some index) : index < r.size := by
  simp only [shardIndex?, Option.map_eq_some_iff] at h
  obtain ⟨i, _, rfl⟩ := h
  exact i.isLt

end Router

end Tenancy.Routing
