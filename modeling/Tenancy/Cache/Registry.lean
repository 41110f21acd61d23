/-
**Types and their indexes.**

The host knows which types are indexed and under which index name.  A registry is a fixed answer to
that question: a type registered again keeps only its last index name.

Main definitions:

* `Tenancy.Cache.TypeHandle` — a type and its index;
* `Tenancy.Cache.Registry` — **a fixed set of handles**, one for each type name;
* `Tenancy.Cache.Registry.ofTable` — the types of a table, each indexed under its own name.

Main results:

* `Tenancy.Cache.Registry.resolve?_withType` — what is registered is found, the last handle of a
  name before the others.
-/

import Std.Data.ExtTreeMap
import Tenancy.Cache.Table

set_option relaxedAutoImplicit false
set_option autoImplicit false

namespace Tenancy.Cache

/-- A type and the index that it is stored in. -/
structure TypeHandle where
  name : String
  indexName : String
deriving DecidableEq, Repr

/-- **A fixed set of types**: the index name of each registered type name. -/
structure Registry where
  indexNames : Std.ExtTreeMap String String
deriving DecidableEq

namespace Registry

/-- The registry of no type. -/
def empty : Registry := ⟨∅⟩

/-- The registry with one more type, or with another index for a type it has. -/
def withType (r : Registry) (name indexName : String) : Registry :=
  ⟨r.indexNames.insert name indexName⟩

/-- The handle of a type, if it is registered. -/
def resolve? (r : Registry) (name : String) : Option TypeHandle :=
  r.indexNames[name]?.map fun indexName => ⟨name, indexName⟩

/-- How many types are registered. -/
def size (r : Registry) : Nat := r.indexNames.size

/-- Whether no type is registered. -/
def isEmpty (r : Registry) : Bool := r.indexNames.isEmpty

/-- The registry of the listed types and index names. -/
def ofList (types : List (String × String)) : Registry :=
  types.foldl (fun r (name, indexName) => r.withType name indexName) empty

/-- The types that a table names, each indexed under its own name. -/
def ofTable (t : Table) : Registry :=
  ofList ((Kind.all.flatMap fun kind => (t.spec kind).types.toList).map fun name => (name, name))

/-- The types of the standard table. -/
def standard : Registry := ofTable .standard

@[simp] theorem resolve?_empty (name : String) : empty.resolve? name = none := by
  simp [resolve?, empty]

/-- What is registered is found. -/
theorem resolve?_withType (r : Registry) (name indexName other : String) :
    (r.withType name indexName).resolve? other =
      if name = other then some ⟨name, indexName⟩ else r.resolve? other := by
  simp only [resolve?, withType, Std.ExtTreeMap.getElem?_insert, Std.LawfulEqCmp.compare_eq_iff_eq]
  split
  · rename_i h; subst h; rfl
  · rfl

end Registry

end Tenancy.Cache
