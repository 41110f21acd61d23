/-
**A ledger that was read can be written.**

Octets from which a ledger was read begin with the written form of an image of it.  The lists in
them were counted in eight octets, and so were the names; a ledger that was read therefore fits its
form, and one more lease still fits unless the octets were as many as can be counted at all.

Main definitions:

* `Tenancy.Octets.Addressable` — octets as many as a memory can hold.

Main results:

* `Tenancy.Ledger.readImage_eq_ok` — **octets from which an image was read are its written form and
  the rest**;
* `Tenancy.Ledger.fits_of_decode` — a ledger that was read fits;
* `Tenancy.Ledger.Change.fits` — so does a change of it, if one more lease can be counted.
-/

import Tenancy.Proofs.Ledger.Layout
import Tenancy.Proofs.Ledger.Sound
import Tenancy.Proofs.Octets.Field

set_option relaxedAutoImplicit false
set_option autoImplicit false

namespace Tenancy

/-- Octets as many as a memory can hold: half of what eight octets can count. -/
def Octets.Addressable (bs : Octets) : Prop := 2 * bs.length < Octets.wordCount 8

instance (bs : Octets) : Decidable bs.Addressable :=
  inferInstanceAs (Decidable (2 * bs.length < Octets.wordCount 8))

namespace Ledger

open Octets

variable {bs rest : Octets}

/-! ### Field by field -/

theorem readSlot_eq_ok {slot : Slot} (h : readSlot bs = .ok (slot, rest)) :
    bs = writeSlot slot ++ rest := by
  rw [readSlot] at h
  obtain ⟨n, left, hn, hread⟩ := Reader.bind_eq_ok h
  obtain ⟨rfl, rfl⟩ := Reader.pure_eq_ok hread
  obtain ⟨hlt, rfl⟩ := Reader.word_eq_ok hn
  rw [writeSlot, UInt16.toNat_ofNat_of_lt' hlt]

theorem readLease_eq_ok {entry : String × Lease} (h : readLease bs = .ok (entry, rest)) :
    TextFits entry.1 ∧ bs = writeLease entry ++ rest := by
  rw [readLease] at h
  obtain ⟨tenant, behind, htenant, hbehind⟩ := Reader.bind_eq_ok h
  obtain ⟨references, middle, hreferences, hmiddle⟩ := Reader.bind_eq_ok hbehind
  obtain ⟨slot, left, hslot, hread⟩ := Reader.bind_eq_ok hmiddle
  obtain ⟨rfl, rfl⟩ := Reader.pure_eq_ok hread
  obtain ⟨hfits, rfl⟩ := Reader.text_eq_ok htenant
  obtain ⟨hlt, rfl⟩ := Reader.word_eq_ok hreferences
  obtain rfl := readSlot_eq_ok hslot
  refine ⟨hfits, ?_⟩
  simp only [writeLease, UInt32.toNat_ofNat_of_lt' hlt, List.append_assoc]

/-! ### The whole form -/

/-- **Octets from which an image was read are its written form and the rest.** -/
theorem readImage_eq_ok {i : Image} (h : readImage bs = .ok (i, rest)) :
    i.Fits ∧ bs = i.write ++ rest := by
  rw [readImage] at h
  obtain ⟨nextSlot, behind, hnext, hbehind⟩ := Reader.bind_eq_ok h
  obtain ⟨leases, middle, hleases, hmiddle⟩ := Reader.bind_eq_ok hbehind
  obtain ⟨released, before, hreleased, hbefore⟩ := Reader.bind_eq_ok hmiddle
  obtain ⟨version, left, hversion, hread⟩ := Reader.bind_eq_ok hbefore
  obtain ⟨rfl, rfl⟩ := Reader.pure_eq_ok hread
  obtain rfl := readSlot_eq_ok hnext
  obtain ⟨hcount, hnames, rfl⟩ := Reader.list_eq_ok (fun _ _ _ => readLease_eq_ok) hleases
  obtain ⟨hcount', -, rfl⟩ := Reader.list_eq_ok (P := fun _ => True)
    (fun _ _ _ h => ⟨trivial, readSlot_eq_ok h⟩) hreleased
  obtain ⟨hlt, rfl⟩ := Reader.word_eq_ok hversion
  refine ⟨⟨hnames, hcount, hcount'⟩, ?_⟩
  simp only [Image.write, UInt64.toNat_ofNat_of_lt' hlt, List.append_assoc]

/-- Octets from which a ledger was read begin with the written form of an image of it. -/
theorem exists_image_of_decode {l : Ledger} (h : decode bs = .ok l) :
    ∃ (i : Image) (rest : Octets), i.Fits ∧ l = ofImage i ∧ bs = i.write ++ rest := by
  simp only [decode, Reader.read] at h
  cases hread : readImage bs with
  | error fault => simp [hread, Except.map] at h
  | ok taken =>
      obtain ⟨i, left⟩ := taken
      simp only [hread, Except.map, Except.ok.injEq] at h
      obtain ⟨hfits, hbs⟩ := readImage_eq_ok hread
      exact ⟨i, left, hfits, h.symm, hbs⟩

/-! ### What was read fits -/

theorem length_ofList (write : String × Lease → Octets) (items : List (String × Lease))
    (hpos : ∀ entry, 1 ≤ (write entry).length) : items.length ≤ (ofList write items).length := by
  have hflat : items.length ≤ (items.flatMap write).length := by
    induction items with
    | nil => exact Nat.le_refl 0
    | cons entry items ih =>
        have hentry := hpos entry
        rw [List.flatMap_cons, List.length_append, List.length_cons]
        omega
  rw [ofList, List.length_append]
  omega

theorem length_writeLease_pos (entry : String × Lease) : 1 ≤ (writeLease entry).length := by
  rw [writeLease, writeSlot, List.length_append, length_ofWord]
  omega

theorem length_leases_le (i : Image) : i.leases.length ≤ i.write.length := by
  have hleases := length_ofList writeLease i.leases length_writeLease_pos
  simp only [Image.write, List.length_append]
  omega

/-- **A ledger that was read fits**, and it has no more leases than there were octets. -/
theorem fits_of_decode {l : Ledger} (h : decode bs = .ok l) :
    l.Fits ∧ l.leases.size ≤ bs.length := by
  obtain ⟨i, rest, ⟨hnames, hleases, hreleased⟩, rfl, rfl⟩ := exists_image_of_decode h
  have hsize : (Std.ExtTreeMap.ofList i.leases).size ≤ i.leases.length :=
    Std.ExtTreeMap.size_ofList_le
  have hsize' : (Std.ExtTreeSet.ofList i.released).size ≤ i.released.length :=
    Std.ExtTreeSet.size_ofList_le
  refine ⟨⟨?_, Nat.lt_of_le_of_lt hsize hleases, Nat.lt_of_le_of_lt hsize' hreleased⟩, ?_⟩
  · -- a tenant of the ledger is named by an entry of the image
    intro tenant lease hl
    exact hnames (tenant, lease) (mem_leases_of_lease? hl)
  · have himage := length_leases_le i
    rw [List.length_append]
    exact Nat.le_trans hsize (Nat.le_trans himage (Nat.le_add_right ..))

/-! ### Changes of what was read -/

theorem Fits.advance {l : Ledger} (h : l.Fits) (before : Ledger) : (l.advance before).Fits :=
  ⟨h.names, h.leases, h.released⟩

/-- A change adds at most one lease. -/
theorem Change.size_leases_le {p : SlotPolicy} {l l' : Ledger} {tenant : String}
    (h : l.Change p tenant l') : l'.leases.size ≤ l.leases.size + 1 := by
  cases h with
  | retained lease held room => exact Std.ExtTreeMap.size_insert_le
  | returned lease held others => exact Std.ExtTreeMap.size_insert_le
  | released lease held last =>
      exact Nat.le_trans Std.ExtTreeMap.size_erase_le (Nat.le_succ _)
  | fresh slot absent least inRange followed => exact Std.ExtTreeMap.size_insert_le
  | reused slot absent least => exact Std.ExtTreeMap.size_insert_le

/-- **A change of a ledger that fits still fits**, if one more lease can be counted. -/
theorem Change.fits {p : SlotPolicy} {l l' : Ledger} {tenant : String} (h : l.Change p tenant l')
    (ht : TextFits tenant) (hl : l.NamesFit) (hsize : l.leases.size + 1 < wordCount 8) :
    l'.Fits where
  names := hl.change ht h
  leases := Nat.lt_of_le_of_lt h.size_leases_le hsize
  released := by
    have hcount : UInt16.size < wordCount 8 := by decide
    exact Nat.lt_of_le_of_lt l'.size_released_le hcount

end Ledger

end Tenancy
