/-
**The table of cache kinds.**

Each kind has a sign, an offset and a set of types that are indexed in its caches.  A table gives
every kind its spec.  Before a table is used for a range of slots it is verified: the signs are -1,
0 or 1, and at each slot of the range the ids of the six kinds exist and differ.

Main definitions:

* `Tenancy.Cache.Spec`, `Tenancy.Cache.Table` — the spec of a kind, and a spec for every kind;
* `Tenancy.Cache.Table.standard` — the table of every deployment;
* `Tenancy.Cache.Table.withSpec` — a table with another spec for one kind;
* `Tenancy.Cache.Table.verify` — **the check of a table over a range of slots**.

Main results:

* `Tenancy.Cache.Table.spec_withSpec_self`, `Tenancy.Cache.Table.spec_withSpec_of_ne` — a
  replacement changes one spec only;
* `Tenancy.Cache.mem_slotsBetween` — the slots of a range are those within its ends.
-/

import Std.Data.ExtTreeSet
import Tenancy.Cache.MuxId

set_option relaxedAutoImplicit false
set_option autoImplicit false

namespace Tenancy.Cache

/-! ### Specs and tables -/

/-- What distinguishes the caches of one kind. -/
structure Spec where
  /-- The sign applied to the slot. -/
  sign : Int8
  /-- The constant added after scaling. -/
  offset : Int8
  /-- The types indexed in the caches of the kind. -/
  types : Std.ExtTreeSet String
deriving DecidableEq

namespace Spec

/-- The spec with the listed types; a type listed twice counts once. -/
def ofList (sign offset : Int8) (types : List String) : Spec :=
  ⟨sign, offset, Std.ExtTreeSet.ofList types⟩

/-- The mux id, at a slot, of the kind that has this spec. -/
def muxId (s : Spec) (slot : Slot) (count : UInt16) : Except Failure Int16 :=
  Cache.muxId slot s.sign s.offset count

/-- Whether the sign is one of -1, 0 and 1. -/
def HasSign (s : Spec) : Prop := s.sign = -1 ∨ s.sign = 0 ∨ s.sign = 1

instance (s : Spec) : Decidable s.HasSign := inferInstanceAs (Decidable (_ ∨ _))

end Spec

/-- **A spec for every kind.** -/
structure Table where
  spec : Kind → Spec

namespace Table

/-- The table of every deployment. -/
def standard : Table where
  spec
    | .default => .ofList 1 (-1) ["Entity"]
    | .search => .ofList (-1) 1 ["Document"]
    | .prospectiveSearch => .ofList (-1) 0 ["Subscription"]
    | .tasks => .ofList 1 0 ["Task"]
    | .logs => .ofList 1 (-2) ["RequestLogs", "AppLogLine"]
    | .channel => .ofList (-1) 2 []

/-- The table with another spec for one kind. -/
def withSpec (t : Table) (kind : Kind) (spec : Spec) : Table where
  spec k := if k = kind then spec else t.spec k

/-- The mux id of a kind at a slot. -/
def muxId (t : Table) (kind : Kind) (slot : Slot) (count : UInt16) : Except Failure Int16 :=
  (t.spec kind).muxId slot count

@[simp] theorem spec_withSpec_self (t : Table) (kind : Kind) (spec : Spec) :
    (t.withSpec kind spec).spec kind = spec := by
  simp [withSpec]

theorem spec_withSpec_of_ne (t : Table) {kind k : Kind} (spec : Spec) (h : k ≠ kind) :
    (t.withSpec kind spec).spec k = t.spec k := by
  simp [withSpec, h]

end Table

/-! ### Verification -/

/-- The slots from `first` to `last`, both included, ascending. -/
def slotsBetween (first last : Slot) : List Slot :=
  (List.range' first.toNat (last.toNat + 1 - first.toNat)).map UInt16.ofNat

theorem mem_slotsBetween {first last slot : Slot} :
    slot ∈ slotsBetween first last ↔ first ≤ slot ∧ slot ≤ last := by
  have hl := last.toNat_lt
  simp only [slotsBetween, List.mem_map, List.mem_range'_1, UInt16.le_iff_toNat_le]
  constructor
  · rintro ⟨n, ⟨h₁, h₂⟩, rfl⟩
    rw [UInt16.toNat_ofNat_of_lt' (by simp [UInt16.size]; omega)]
    omega
  · rintro ⟨h₁, h₂⟩
    exact ⟨slot.toNat, by omega, by simp⟩

namespace Table

/-- Refuses the first kind whose sign is not -1, 0 or 1. -/
def checkSigns (t : Table) : Except Failure Unit :=
  Kind.all.forM fun kind =>
    if (t.spec kind).HasSign then .ok () else .error (.config (.badSign kind (t.spec kind).sign))

/-- Computes the ids of the kinds in order, and refuses the first that overflows or has been `seen`
before. -/
def checkKinds (t : Table) (count : UInt16) (slot : Slot) :
    List (Int16 × Kind) → List Kind → Except Failure Unit
  | _, [] => .ok ()
  | seen, kind :: kinds =>
      match t.muxId kind slot count with
      | .error failure => .error failure
      | .ok id =>
          match seen.lookup id with
          | some first => .error (.muxIdCollision first kind slot id)
          | none => t.checkKinds count slot ((id, kind) :: seen) kinds

/-- Checks that the six ids at one slot exist and differ. -/
def checkSlot (t : Table) (count : UInt16) (slot : Slot) : Except Failure Unit :=
  t.checkKinds count slot [] Kind.all

/-- **Checks a table for the slots from `first` to `last`**: first the signs of all kinds, then the
ids slot by slot. -/
def verify (t : Table) (first last : Slot) (count : UInt16) : Except Failure Unit := do
  t.checkSigns
  (slotsBetween first last).forM (t.checkSlot count)

end Table

end Tenancy.Cache
