/-
**A written ledger is read back.**

A ledger has an octet form when its lists and its texts can be counted in eight octets; it need not
have one otherwise, since the lengths would be cut.  Under that condition the reader takes back
exactly the ledger that was written and leaves what follows its form alone.

Main definitions:

* `Tenancy.Octets.TextFits` — the octets of a text can be counted in eight octets;
* `Tenancy.Ledger.Fits`, `Tenancy.Ledger.Image.Fits` — so can the lists of a ledger or of an image
  and the names in it.

Main results:

* `Tenancy.Ledger.readImage_write` — **the reader takes back the image that was written**;
* `Tenancy.Ledger.decode_encode_append` — a ledger that fits is read back, whatever follows it.
-/

import Tenancy.Ledger.Form

set_option relaxedAutoImplicit false
set_option autoImplicit false

namespace Tenancy

/-- The octets of a text can be counted in eight octets, as those of any text in memory can. -/
def Octets.TextFits (s : String) : Prop := (Utf8.encode s).length < Octets.wordCount 8

instance (s : String) : Decidable (Octets.TextFits s) :=
  inferInstanceAs (Decidable ((Utf8.encode s).length < Octets.wordCount 8))

namespace Ledger

open Octets

/-- A ledger whose lists and names can be counted in eight octets. -/
structure Fits (l : Ledger) : Prop where
  /-- The names of the tenants fit. -/
  names : ∀ tenant lease, l.lease? tenant = some lease → TextFits tenant
  /-- The tenants can be counted. -/
  leases : l.leases.size < wordCount 8
  /-- The slots given back can be counted. -/
  released : l.released.size < wordCount 8

/-- An image whose lists and names can be counted in eight octets. -/
structure Image.Fits (i : Image) : Prop where
  /-- The names of the tenants fit. -/
  names : ∀ entry ∈ i.leases, TextFits entry.1
  /-- The leases can be counted. -/
  leases : i.leases.length < wordCount 8
  /-- The slots given back can be counted. -/
  released : i.released.length < wordCount 8

/-! ### Field by field -/

theorem readSlot_writeSlot (slot : Slot) (rest : Octets) :
    readSlot (writeSlot slot ++ rest) = .ok (slot, rest) := by
  have hw := @Reader.word_ofWord 2 slot.toNat slot.toNat_lt rest
  simp only [readSlot, writeSlot, bind, StateT.bind, hw, Except.bind, UInt16.ofNat_toNat]
  rfl

theorem readLease_writeLease {entry : String × Lease} (h : TextFits entry.1) (rest : Octets) :
    readLease (writeLease entry ++ rest) = .ok (entry, rest) := by
  obtain ⟨tenant, references, slot⟩ := entry
  have ht := Reader.text_ofText h (ofWord 4 references.toNat ++ (writeSlot slot ++ rest))
  have hr := @Reader.word_ofWord 4 references.toNat references.toNat_lt (writeSlot slot ++ rest)
  simp only [readLease, writeLease, List.append_assoc, bind, StateT.bind, ht, Except.bind, hr,
    readSlot_writeSlot, UInt32.ofNat_toNat]
  rfl

/-! ### The whole form -/

/-- **The reader takes back the image that was written**, and leaves what follows. -/
theorem readImage_write {i : Image} (h : i.Fits) (rest : Octets) :
    readImage (i.write ++ rest) = .ok (i, rest) := by
  obtain ⟨nextSlot, leases, released, version⟩ := i
  have hv := fun rest => @Reader.word_ofWord 8 version.toNat version.toNat_lt rest
  have hl := fun rest => Reader.list_ofList h.leases
    (fun entry he => readLease_writeLease (h.names entry he)) rest
  have hs := fun rest => Reader.list_ofList h.released
    (fun slot _ => readSlot_writeSlot slot) rest
  dsimp only at hl hs
  simp only [readImage, Image.write, List.append_assoc, bind, StateT.bind,
    readSlot_writeSlot, Except.bind, hl, hs, hv, UInt64.ofNat_toNat]
  rfl

theorem decode_write {i : Image} (h : i.Fits) (rest : Octets) :
    decode (i.write ++ rest) = .ok (ofImage i) := by
  simp only [decode, Reader.read, readImage_write h rest, Except.map]

/-- The image of a ledger that fits does. -/
theorem Fits.image {l : Ledger} (h : l.Fits) : l.image.Fits where
  names entry he := h.names entry.1 entry.2 (Std.ExtTreeMap.mem_toList_iff_getElem?_eq_some.1 he)
  leases := by
    rw [Ledger.image, Std.ExtTreeMap.length_toList]
    exact h.leases
  released := by
    rw [Ledger.image, Std.ExtTreeSet.length_toList]
    exact h.released

/-- **A ledger that fits is read back**, whatever follows it. -/
theorem decode_encode_append {l : Ledger} (h : l.Fits) (rest : Octets) :
    decode (l.encode ++ rest) = .ok l := by
  rw [encode, decode_write h.image, ofImage_image]

/-- A ledger that fits is read back. -/
theorem decode_encode {l : Ledger} (h : l.Fits) : decode l.encode = .ok l := by
  have hread := decode_encode_append h []
  rwa [List.append_nil] at hread

end Ledger

end Tenancy
