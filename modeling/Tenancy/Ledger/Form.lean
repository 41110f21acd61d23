/-
**The octet form of a ledger.**

Next slot, leases, released slots and version, in this order; leases and slots stand behind their
number.  Octets may list leases and slots in any order and repeatedly, so the form is first read
into an image that keeps the lists as they stand; of repeated leases of a tenant the last one
counts.  The form of a ledger lists both ascending.  What follows the form is left alone.

Main definitions:

* `Tenancy.Ledger.Image` — what octets say, list by list;
* `Tenancy.Ledger.Image.write`, `Tenancy.Ledger.readImage` — the form of an image and its reader;
* `Tenancy.Ledger.image`, `Tenancy.Ledger.ofImage` — a ledger as an image, and back;
* `Tenancy.Ledger.encode`, `Tenancy.Ledger.decode` — **the form of a ledger and its reading**.

Main results:

* `Tenancy.Ledger.ofImage_image` — **a ledger is the ledger of its image**.
-/

import Tenancy.Ledger.Basic
import Tenancy.Octets.Field

set_option relaxedAutoImplicit false
set_option autoImplicit false

namespace Tenancy.Ledger

open Octets

/-- What octets say about a ledger: the lists stand as they are written. -/
structure Image where
  nextSlot : Slot
  leases : List (String × Lease)
  released : List Slot
  version : UInt64
deriving DecidableEq, Repr

/-! ### Images and ledgers -/

/-- The image of a ledger: both lists ascend. -/
def image (l : Ledger) : Image := ⟨l.nextSlot, l.leases.toList, l.released.toList, l.version⟩

/-- The ledger of an image: the last lease listed for a tenant counts. -/
def ofImage (i : Image) : Ledger :=
  ⟨i.nextSlot, Std.ExtTreeMap.ofList i.leases, Std.ExtTreeSet.ofList i.released, i.version⟩

/-! ### Writing -/

/-- The form of a slot. -/
def writeSlot (slot : Slot) : Octets := ofWord 2 slot.toNat

/-- The form of a tenant and its lease. -/
def writeLease (entry : String × Lease) : Octets :=
  ofText entry.1 ++ ofWord 4 entry.2.references.toNat ++ writeSlot entry.2.slot

/-- The form of an image. -/
def Image.write (i : Image) : Octets :=
  writeSlot i.nextSlot ++ ofList writeLease i.leases ++ ofList writeSlot i.released ++
    ofWord 8 i.version.toNat

/-- **The form of a ledger.** -/
def encode (l : Ledger) : Octets := l.image.write

/-! ### Reading -/

/-- Takes a slot. -/
def readSlot : Reader Slot := do
  let n ← Reader.word 2
  pure (UInt16.ofNat n)

/-- Takes a tenant and its lease. -/
def readLease : Reader (String × Lease) := do
  let tenant ← Reader.text
  let references ← Reader.word 4
  let slot ← readSlot
  pure (tenant, ⟨UInt32.ofNat references, slot⟩)

/-- Takes an image. -/
def readImage : Reader Image := do
  let nextSlot ← readSlot
  let leases ← Reader.list readLease
  let released ← Reader.list readSlot
  let version ← Reader.word 8
  pure ⟨nextSlot, leases, released, UInt64.ofNat version⟩

/-- **The ledger that octets begin with.** -/
def decode (bs : Octets) : Except Malformed Ledger := (readImage.read bs).map ofImage

/-! ### A ledger is the ledger of its image -/

theorem leases_ofList_toList (m : Std.ExtTreeMap String Lease) :
    Std.ExtTreeMap.ofList m.toList = m := by
  apply Std.ExtTreeMap.ext_getElem?
  intro tenant
  cases h : m[tenant]? with
  | some lease =>
      exact Std.ExtTreeMap.getElem?_ofList_of_mem (k := tenant) (by simp)
        Std.ExtTreeMap.distinct_keys_toList (Std.ExtTreeMap.mem_toList_iff_getElem?_eq_some.2 h)
  | none =>
      apply Std.ExtTreeMap.getElem?_ofList_of_contains_eq_false
      simp only [Std.ExtTreeMap.map_fst_toList_eq_keys, List.contains_eq_mem,
        decide_eq_false_iff_not, Std.ExtTreeMap.mem_keys]
      simpa using h

theorem released_ofList_toList (s : Std.ExtTreeSet UInt16) :
    Std.ExtTreeSet.ofList s.toList = s := by
  apply Std.ExtTreeSet.ext_mem
  intro slot
  simp [Std.ExtTreeSet.mem_ofList, Std.ExtTreeSet.mem_toList]

/-- **A ledger is the ledger of its image.** -/
theorem ofImage_image (l : Ledger) : ofImage l.image = l := by
  simp [ofImage, image, leases_ofList_toList, released_ofList_toList]

end Tenancy.Ledger
