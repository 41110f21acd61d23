/-
**Which octets a ledger is written back to.**

Octets may list tenants and slots in any order and repeatedly, and anything may follow; they are
read all the same.  The ledger that was read has a form of its own.  It lists nothing that the
octets did not list, and nothing twice, so it is never longer; and it is what the octets begin with
exactly when they listed both in ascending order.

Main results:

* `Tenancy.Ledger.length_encode_ofImage_le` — a ledger is written with no more octets than an image
  of it;
* `Tenancy.Ledger.encode_prefix_iff` — **the form of a ledger is what the octets begin with exactly
  when they list in ascending order**;
* `Tenancy.Ledger.written_back_of_decode` — both, for octets from which a ledger was read.
-/

import Mathlib.Data.List.Flatten
import Mathlib.Data.List.Perm.Subperm
import Tenancy.Proofs.Ledger.Layout
import Tenancy.Proofs.Ledger.Reading

set_option relaxedAutoImplicit false
set_option autoImplicit false

namespace Tenancy.Ledger

open Octets

variable {i i' : Image} {bs rest rest' : Octets}

/-! ### Nothing is listed twice -/

/-- The lists of a ledger are among those of the image, each member once. -/
theorem subperm_image_ofImage (i : Image) :
    (ofImage i).image.leases.Subperm i.leases ∧
      (ofImage i).image.released.Subperm i.released := by
  have hascending := ascending_image (ofImage i)
  constructor
  · have hnodup : (ofImage i).image.leases.Nodup :=
      hascending.names.imp fun hlt heq => ne_of_lt hlt (congrArg Prod.fst heq)
    refine hnodup.subperm ?_
    rintro ⟨tenant, lease⟩ hmem
    rw [hascending.mem_leases_iff, ofImage_image] at hmem
    exact mem_leases_of_lease? hmem
  · have hnodup : (ofImage i).image.released.Nodup :=
      hascending.released.imp fun hlt => UInt16.ne_of_lt hlt
    refine hnodup.subperm ?_
    intro slot hmem
    simpa [image, ofImage, Std.ExtTreeSet.mem_ofList] using hmem

theorem length_ofList_le_of_subperm {α : Type} {items items' : List α} (write : α → Octets)
    (h : items.Subperm items') : (ofList write items).length ≤ (ofList write items').length := by
  obtain ⟨kept, hperm, hsub⟩ := h
  have hkept := (hperm.flatMap_right write).length_eq
  have hle := (hsub.flatMap write).length_le
  simp only [ofList, ofLength, List.length_append, length_ofWord]
  omega

/-- **A ledger is written with no more octets than an image of it.** -/
theorem length_encode_ofImage_le (i : Image) : (ofImage i).encode.length ≤ i.write.length := by
  obtain ⟨hleases, hreleased⟩ := subperm_image_ofImage i
  have hle := length_ofList_le_of_subperm writeLease hleases
  have hle' := length_ofList_le_of_subperm writeSlot hreleased
  simp only [encode, Image.write, writeSlot, List.length_append, length_ofWord] at hle' ⊢
  omega

/-! ### Octets that begin with the form of what they say -/

/-- Octets say one thing only. -/
theorem Image.Fits.write_append_inj (h : i.Fits) (h' : i'.Fits)
    (hsame : i.write ++ rest = i'.write ++ rest') : i = i' ∧ rest = rest' := by
  have hread := readImage_write h rest
  rw [hsame, readImage_write h' rest'] at hread
  cases hread
  exact ⟨rfl, rfl⟩

/-- **The form of a ledger is what the octets begin with exactly when they list in ascending
order.** -/
theorem encode_prefix_iff (h : i.Fits) (hl : (ofImage i).Fits) :
    (ofImage i).encode <+: i.write ++ rest ↔ i.Ascending := by
  constructor
  · rintro ⟨more, hsame⟩
    obtain ⟨himage, -⟩ := Image.Fits.write_append_inj hl.image h hsame
    rw [← himage]
    exact ascending_image (ofImage i)
  · intro hascending
    rw [encode, hascending.image_ofImage]
    exact List.prefix_append i.write rest

example : (Image.mk 9 [("Z", ⟨1, 5⟩), ("a", ⟨1, 4⟩), ("é", ⟨2, 3⟩)] [7, 8] 6).Ascending := by decide
example : ¬ (Image.mk 9 [("a", ⟨1, 4⟩), ("Z", ⟨1, 5⟩)] [7, 8] 6).Ascending := by decide

/-- **What a ledger that was read is written back to.**  The octets are an image, field by field,
and what follows it, in one way only.  The ledger is that of the image, of repeated leases the last
one; its form is no longer than the octets, and they begin with it exactly when the names, by their
octets, and the slots given back ascend. -/
theorem written_back_of_decode {l : Ledger} (h : decode bs = .ok l) :
    ∃ i : Image, ∃ rest, i.Fits ∧ bs = i.layout ++ rest ∧
      (∀ (i' : Image) rest', i'.Fits → bs = i'.layout ++ rest' → i' = i ∧ rest' = rest) ∧
      l.encode.length ≤ bs.length ∧
      (l.encode <+: bs ↔
        (i.leases.map fun entry => entry.1.toUTF8.data.toList).Pairwise (· < ·) ∧
          i.released.Pairwise (· < ·)) ∧
      l.nextSlot = i.nextSlot ∧ l.version = i.version ∧
      (∀ tenant lease, l.lease? tenant = some lease ↔ i.LastFor tenant lease) ∧
      ∀ slot, slot ∈ l.released ↔ slot ∈ i.released := by
  have hfits := (fits_of_decode h).1
  obtain ⟨i, rest, hi, rfl, rfl⟩ := exists_image_of_decode h
  refine ⟨i, rest, hi, by rw [Image.write_eq_layout], ?_, ?_, ?_, rfl, rfl,
    fun tenant lease => lease?_ofImage_iff, fun slot => by simp [ofImage]⟩
  · intro i' rest' hi' hsame
    rw [← Image.write_eq_layout] at hsame
    exact hi'.write_append_inj hi hsame.symm
  · have hle := length_encode_ofImage_le i
    rw [List.length_append]
    omega
  · rw [encode_prefix_iff hi hfits]
    simp only [Utf8.toUTF8_eq_encode]
    exact ⟨fun hi => ⟨hi.leases, hi.released⟩, fun hi => ⟨hi.1, hi.2⟩⟩

/-- An image that lists one tenant twice, and neither names nor slots in ascending order. -/
def unsorted : Image := ⟨5, [("b", ⟨1, 2⟩), ("a", ⟨1, 3⟩), ("b", ⟨2, 4⟩)], [3, 2, 3], 6⟩

theorem written_back_unsorted :
    ¬ (ofImage unsorted).encode <+: unsorted.write ++ [0xFF] ∧
      (ofImage unsorted).encode.length ≤ (unsorted.write ++ [0xFF]).length ∧
      (ofImage unsorted).lease? "b" = some ⟨2, 4⟩ := by
  have hfits : unsorted.Fits := ⟨by decide, by decide, by decide⟩
  obtain ⟨i, rest, -, -, hone, hlength, hcanonical, -, -, hlast, -⟩ :=
    written_back_of_decode (decode_write hfits [0xFF])
  obtain ⟨rfl, rfl⟩ := hone unsorted [0xFF] hfits (by rw [Image.write_eq_layout])
  refine ⟨fun h => ?_, hlength, (hlast "b" ⟨2, 4⟩).2 ⟨[("b", ⟨1, 2⟩), ("a", ⟨1, 3⟩)], [], rfl, ?_⟩⟩
  · have hslots : ¬ unsorted.released.Pairwise (· < ·) := by decide
    exact hslots (hcanonical.1 h).2
  · exact fun _ he => (List.not_mem_nil he).elim

end Tenancy.Ledger
