/-
**The description of a tenant cache.**

What a host needs to bring one cache of one tenant online: the name of the cache, the tenant's slot,
the mux id on the group channel and the handles of the indexed types in the order of their names.

Main definitions:

* `Tenancy.Cache.cacheName` — the name of a tenant's cache of a kind;
* `Tenancy.Cache.TypeSource` — who resolves type names;
* `Tenancy.Cache.resolveTypes` — the handles of some types, or the first name that has none;
* `Tenancy.Cache.describe` — **the description**.

Main results:

* `Tenancy.Cache.resolveTypes_cons` — types are resolved in order, up to the first unknown one.
-/

import Tenancy.Cache.Registry

set_option relaxedAutoImplicit false
set_option autoImplicit false

namespace Tenancy.Cache

/-- The name of the cache of `kind` that belongs to `tenant`. -/
def cacheName (tenant : String) (kind : Kind) : String := tenant ++ "_" ++ kind.name

/-- **A tenant cache, ready to be started by a host.** -/
structure Description where
  tenant : String
  kind : Kind
  name : String
  slot : Slot
  muxId : Int16
  types : List TypeHandle
deriving DecidableEq, Repr

/-- Who resolves type names: a registry, or anything else that a host has. -/
abbrev TypeSource := String → Option TypeHandle

/-- The handle of a type. -/
def resolveType (source : TypeSource) (name : String) : Except Failure TypeHandle :=
  match source name with
  | some handle => .ok handle
  | none => .error (.unknownType name)

/-- The handles of the named types, in order; the first name without a handle is the failure. -/
def resolveTypes (source : TypeSource) (names : List String) : Except Failure (List TypeHandle) :=
  names.mapM (resolveType source)

/-- **Describes the cache of `kind` at a slot.**  The mux id is computed before the types are
resolved. -/
def describe (table : Table) (source : TypeSource) (count : UInt16) (tenant : String) (kind : Kind)
    (slot : Slot) : Except Failure Description := do
  let muxId ← table.muxId kind slot count
  let types ← resolveTypes source (table.spec kind).types.toList
  return ⟨tenant, kind, cacheName tenant kind, slot, muxId, types⟩

@[simp] theorem resolveTypes_nil (source : TypeSource) : resolveTypes source [] = .ok [] := rfl

theorem resolveTypes_cons (source : TypeSource) (name : String) (names : List String) :
    resolveTypes source (name :: names) =
      match source name with
      | none => .error (.unknownType name)
      | some handle => (resolveTypes source names).map (handle :: ·) := by
  simp only [resolveTypes, List.mapM_cons, resolveType]
  cases source name with
  | none => rfl
  | some handle => cases names.mapM (resolveType source) <;> rfl

end Tenancy.Cache
