/-
**The octets of a ledger, field by field.**

A ledger has one form: the next slot, the tenants with what they hold, the slots given back and the
version, each number as a word of fixed width, least octet first, each name and each list behind its
length in eight octets.  The tenants stand in the order of the octets of their names, the slots in
their own.  The layout is told here by the numbers' digits and the octets of the library's texts,
without the writers; the form is the one the writers produce, and the reader takes it back whatever
follows.

Main definitions:

* `Tenancy.Octets.littleEndian` — a number as the digits of its octets;
* `Tenancy.Ledger.Image.LastFor` — the last lease that an image lists for a tenant;
* `Tenancy.Ledger.Image.Ascending` — both lists of an image ascend;
* `Tenancy.Ledger.Image.layout` — the form of an image, number by number and text by text;
* `Tenancy.Ledger.LaidOut` — **the layout of a ledger**.

Main results:

* `Tenancy.Ledger.lease?_ofImage_iff` — **of repeated leases of a tenant the last one counts**;
* `Tenancy.Ledger.Image.Ascending.image_ofImage` — an image that ascends is that of its ledger;
* `Tenancy.Ledger.laidOut_iff` — the layout is what is written;
* `Tenancy.Ledger.laidOut_and_decode` — **a ledger has one form, and the form is read back**.
-/

import Tenancy.Proofs.Ledger.RoundTrip
import Tenancy.Proofs.Ledger.SlotSets
import Tenancy.Proofs.Octets.Order
import Mathlib.Data.List.Sort

set_option relaxedAutoImplicit false
set_option autoImplicit false

namespace Tenancy

/-! ### Words as digits -/

/-- A number as `width` octets, least first: the octet at place `i` is the digit of the number at
this place, to the base 256. -/
def Octets.littleEndian (width n : Nat) : Octets :=
  (List.range width).map fun i => UInt8.ofNat (n / 256 ^ i)

theorem Octets.ofWord_eq_littleEndian (width n : Nat) : ofWord width n = littleEndian width n := by
  -- induction on the number of octets, from the lowest one on
  induction width generalizing n with
  | zero => rfl
  | succ width ih =>
      have hlow : UInt8.ofNat (n % 256) = UInt8.ofNat (n / 256 ^ 0) := by
        rw [Nat.pow_zero, Nat.div_one]
        exact UInt8.toNat_inj.1 (by simp)
      have hrest : ∀ i, n / 256 / 256 ^ i = n / 256 ^ (i + 1) := fun i => by
        rw [Nat.div_div_eq_div_mul, Nat.pow_succ, Nat.mul_comm]
      rw [ofWord, ih, littleEndian, littleEndian, List.range_succ_eq_map, List.map_cons,
        List.map_map, hlow]
      simp only [hrest, Function.comp_def]

namespace Ledger

open Octets

/-! ### What an image lists -/

section Listed

variable {i : Image} {tenant : String} {lease : Lease}

/-- **The last lease that the image lists for a tenant.** -/
def Image.LastFor (i : Image) (tenant : String) (lease : Lease) : Prop :=
  ∃ before after, i.leases = before ++ (tenant, lease) :: after ∧
    ∀ entry ∈ after, entry.1 ≠ tenant

theorem getElem?_ofList_iff {leases : List (String × Lease)} :
    (Std.ExtTreeMap.ofList leases)[tenant]? = some lease ↔
      ∃ before after, leases = before ++ (tenant, lease) :: after ∧
        ∀ entry ∈ after, entry.1 ≠ tenant := by
  -- of the leases entered one after the other the search finds the last one
  rw [Std.ExtTreeMap.ofList_eq_insertMany_empty, Std.ExtTreeMap.getElem?_insertMany_list,
    Std.ExtTreeMap.getElem?_empty, Option.or_none, List.findSomeRev?_eq_findSome?_reverse,
    List.findSome?_eq_some_iff]
  simp only [Std.LawfulEqCmp.compare_eq_iff_eq]
  constructor
  · rintro ⟨later, ⟨name, held⟩, earlier, hsplit, hentry, hlater⟩
    rw [Option.ite_none_right_eq_some] at hentry
    obtain ⟨rfl, hheld⟩ := hentry
    cases hheld
    refine ⟨earlier.reverse, later.reverse, ?_, ?_⟩
    · rw [List.reverse_eq_iff.1 hsplit]
      simp
    · intro entry he hsame
      have hnone := hlater entry (List.mem_reverse.1 he)
      rw [if_pos hsame] at hnone
      cases hnone
  · rintro ⟨before, after, rfl, hlast⟩
    refine ⟨after.reverse, (tenant, lease), before.reverse, by simp, if_pos rfl, ?_⟩
    intro entry he
    exact if_neg (hlast entry (List.mem_reverse.1 he))

/-- **Of repeated leases of a tenant the last one counts.** -/
theorem lease?_ofImage_iff : (ofImage i).lease? tenant = some lease ↔ i.LastFor tenant lease :=
  getElem?_ofList_iff

/-- What a ledger holds is listed in any image of it. -/
theorem mem_leases_of_lease? (h : (ofImage i).lease? tenant = some lease) :
    (tenant, lease) ∈ i.leases := by
  obtain ⟨before, after, hsplit, -⟩ := lease?_ofImage_iff.1 h
  rw [hsplit]
  exact List.mem_append_right before List.mem_cons_self

end Listed

/-! ### Images that ascend -/

namespace Image

/-- Both lists of the image ascend: the leases by the octets of the names, the slots as they are. -/
structure Ascending (i : Image) : Prop where
  /-- No name stands behind one that has greater octets, or twice. -/
  leases : (i.leases.map fun entry => Utf8.encode entry.1).Pairwise (· < ·)
  /-- No slot stands behind a greater one, or twice. -/
  released : i.released.Pairwise (· < ·)

instance (i : Image) : Decidable i.Ascending :=
  decidable_of_iff ((i.leases.map fun entry => Utf8.encode entry.1).Pairwise (· < ·) ∧
    i.released.Pairwise (· < ·)) ⟨fun h => ⟨h.1, h.2⟩, fun h => ⟨h.leases, h.released⟩⟩

variable {i : Image}

/-- The names ascend as texts. -/
theorem Ascending.names (h : i.Ascending) : i.leases.Pairwise fun e f => e.1 < f.1 :=
  (List.pairwise_map.1 h.leases).imp fun hlt => Utf8.encode_lt_iff.1 hlt

/-- What is listed is what the ledger of the image holds. -/
theorem Ascending.mem_leases_iff (h : i.Ascending) {tenant : String} {lease : Lease} :
    (tenant, lease) ∈ i.leases ↔ (ofImage i).lease? tenant = some lease := by
  have hdistinct : i.leases.Pairwise fun e f => ¬compare e.1 f.1 = Ordering.eq :=
    h.names.imp fun hlt => by
      rw [Std.LawfulEqCmp.compare_eq_iff_eq]
      exact ne_of_lt hlt
  exact ⟨fun hmem => Std.ExtTreeMap.getElem?_ofList_of_mem (by simp) hdistinct hmem,
    mem_leases_of_lease?⟩

end Image

/-- The image of a ledger ascends. -/
theorem ascending_image (l : Ledger) : l.image.Ascending where
  leases := by
    rw [List.pairwise_map]
    exact Std.ExtTreeMap.ordered_keys_toList.imp fun hlt =>
      Utf8.encode_lt_iff.2 (compare_lt_iff_lt.1 hlt)
  released := Std.ExtTreeSet.ordered_toList.imp fun hlt => Std.compare_eq_lt.1 hlt

/-- **An image that ascends is that of its ledger.** -/
theorem Image.Ascending.image_ofImage {i : Image} (h : i.Ascending) : (ofImage i).image = i := by
  -- both lists have the same members, and both ascend
  have hleases : (ofImage i).image.leases = i.leases := by
    have hasym : Std.Antisymm fun e f : String × Lease => e.1 < f.1 :=
      ⟨fun _ _ hlt hgt => (lt_asymm hlt hgt).elim⟩
    have hirrefl : Std.Irrefl fun e f : String × Lease => e.1 < f.1 := ⟨fun _ => lt_irrefl _⟩
    refine List.Pairwise.eq_of_mem_iff (ascending_image (ofImage i)).names h.names ?_
    rintro ⟨tenant, lease⟩
    rw [(ascending_image _).mem_leases_iff, h.mem_leases_iff, ofImage_image]
  have hreleased : (ofImage i).image.released = i.released := by
    refine List.Pairwise.eq_of_mem_iff (ascending_image (ofImage i)).released h.released ?_
    intro slot
    simp [image, ofImage, Std.ExtTreeSet.mem_ofList]
  rw [Image.mk.injEq]
  exact ⟨rfl, hleases, hreleased, rfl⟩

/-! ### The layout -/

/-- The form of an image, number by number and text by text. -/
def Image.layout (i : Image) : Octets :=
  littleEndian 2 i.nextSlot.toNat ++
    littleEndian 8 i.leases.length ++
    (i.leases.flatMap fun entry =>
      littleEndian 8 entry.1.utf8ByteSize ++ entry.1.toUTF8.data.toList ++
        littleEndian 4 entry.2.references.toNat ++ littleEndian 2 entry.2.slot.toNat) ++
    littleEndian 8 i.released.length ++
    (i.released.flatMap fun slot => littleEndian 2 slot.toNat) ++
    littleEndian 8 i.version.toNat

theorem Image.write_eq_layout (i : Image) : i.write = i.layout := by
  have hslot : writeSlot = fun slot => littleEndian 2 slot.toNat :=
    funext fun slot => ofWord_eq_littleEndian 2 slot.toNat
  have hlease : writeLease = fun entry =>
      littleEndian 8 entry.1.utf8ByteSize ++ entry.1.toUTF8.data.toList ++
        littleEndian 4 entry.2.references.toNat ++ littleEndian 2 entry.2.slot.toNat := by
    funext entry
    simp only [writeLease, hslot, ofText, ofLength, Utf8.length_encode, ofWord_eq_littleEndian,
      Utf8.toUTF8_eq_encode]
  simp only [write, layout, ofList, ofLength, hslot, hlease, ofWord_eq_littleEndian,
    List.append_assoc]

/-- **The layout of a ledger**: its tenants with what they hold and its slots given back are listed
in ascending order, all of them and each once. -/
inductive LaidOut (l : Ledger) : Octets → Prop
  | intro (tenants : List (String × Lease)) (slots : List Slot)
      (held : ∀ tenant lease, (tenant, lease) ∈ tenants ↔ l.lease? tenant = some lease)
      (byName : (tenants.map fun entry => entry.1.toUTF8.data.toList).Pairwise (· < ·))
      (givenBack : ∀ slot, slot ∈ slots ↔ slot ∈ l.released)
      (bySlot : slots.Pairwise (· < ·)) :
      LaidOut l (Image.layout ⟨l.nextSlot, tenants, slots, l.version⟩)

/-- What is laid out is an image that ascends. -/
theorem LaidOut.exists_image {l : Ledger} {form : Octets} (h : l.LaidOut form) :
    ∃ i : Image, i.Ascending ∧ ofImage i = l ∧ form = i.write := by
  obtain ⟨tenants, slots, held, byName, givenBack, bySlot⟩ := h
  let i : Image := ⟨l.nextSlot, tenants, slots, l.version⟩
  have hascending : i.Ascending := by
    simp only [Utf8.toUTF8_eq_encode] at byName
    exact ⟨byName, bySlot⟩
  have hleases : (ofImage i).leases = l.leases := by
    apply Std.ExtTreeMap.ext_getElem?
    intro tenant
    apply Option.ext
    intro lease
    exact hascending.mem_leases_iff.symm.trans (held tenant lease)
  have hreleased : (ofImage i).released = l.released := by
    apply Std.ExtTreeSet.ext_mem
    intro slot
    rw [← givenBack slot]
    simp [i, ofImage, Std.ExtTreeSet.mem_ofList]
  refine ⟨i, hascending, ?_, i.write_eq_layout.symm⟩
  rw [Ledger.mk.injEq]
  exact ⟨rfl, hleases, hreleased, rfl⟩

/-- What is written is laid out. -/
theorem laidOut_encode (l : Ledger) : l.LaidOut l.encode := by
  have held : ∀ tenant lease, (tenant, lease) ∈ l.image.leases ↔ l.lease? tenant = some lease :=
    fun tenant lease => by rw [(ascending_image l).mem_leases_iff, ofImage_image]
  have byName : (l.image.leases.map fun entry => entry.1.toUTF8.data.toList).Pairwise (· < ·) := by
    simpa only [Utf8.toUTF8_eq_encode] using (ascending_image l).leases
  have givenBack : ∀ slot, slot ∈ l.image.released ↔ slot ∈ l.released := fun slot => by
    rw [image, Std.ExtTreeSet.mem_toList]
  rw [encode, Image.write_eq_layout]
  exact .intro l.image.leases l.image.released held byName givenBack (ascending_image l).released

/-- **The layout is what is written.** -/
theorem laidOut_iff {l : Ledger} {form : Octets} : l.LaidOut form ↔ form = l.encode := by
  constructor
  · intro h
    obtain ⟨i, hascending, rfl, rfl⟩ := h.exists_image
    rw [encode, hascending.image_ofImage]
  · rintro rfl
    exact laidOut_encode l

/-! ### The form is read back -/

/-- A ledger fits whose tenants and the octets of whose names can be counted: of slots there are
never too many. -/
theorem Fits.of_counts {l : Ledger}
    (hnames : ∀ tenant lease, l.lease? tenant = some lease → tenant.utf8ByteSize < 2 ^ 64)
    (hsize : l.size < 2 ^ 64) : l.Fits where
  names tenant lease h := by
    rw [TextFits, Utf8.length_encode]
    exact hnames tenant lease h
  leases := hsize
  released := Nat.lt_of_le_of_lt l.size_released_le (by decide)

/-- **A ledger has one form, and the form is read back whatever follows it.**  The form is laid out
as told above; its lengths can be counted in eight octets, as those of anything in memory can. -/
theorem laidOut_and_decode {l : Ledger}
    (hnames : ∀ tenant lease, l.lease? tenant = some lease → tenant.utf8ByteSize < 2 ^ 64)
    (hsize : l.size < 2 ^ 64) (s : Octets) :
    (∀ form, l.LaidOut form ↔ form = l.encode) ∧ decode (l.encode ++ s) = .ok l :=
  ⟨fun _ => laidOut_iff, decode_encode_append (Fits.of_counts hnames hsize) s⟩

theorem laidOut_and_decode_two_tenants :
    (∀ form, LaidOut (((empty 20002).put "zürich" ⟨2, 20000⟩).put "日本" ⟨1, 20001⟩) form ↔
        form = (((empty 20002).put "zürich" ⟨2, 20000⟩).put "日本" ⟨1, 20001⟩).encode) ∧
      decode ((((empty 20002).put "zürich" ⟨2, 20000⟩).put "日本" ⟨1, 20001⟩).encode ++ [0xFF]) =
        .ok (((empty 20002).put "zürich" ⟨2, 20000⟩).put "日本" ⟨1, 20001⟩) := by
  refine laidOut_and_decode ?_ ?_ [0xFF]
  · intro tenant lease h
    rw [lease?_put, lease?_put, lease?_empty] at h
    split at h
    · subst_vars
      decide
    · split at h
      · subst_vars
        decide
      · cases h
  · decide +kernel

example : (((empty 20002).put "zürich" ⟨2, 20000⟩).put "日本" ⟨1, 20001⟩).encode =
    [0x22, 0x4E, 2, 0, 0, 0, 0, 0, 0, 0,
      7, 0, 0, 0, 0, 0, 0, 0, 0x7A, 0xC3, 0xBC, 0x72, 0x69, 0x63, 0x68, 2, 0, 0, 0, 0x20, 0x4E,
      6, 0, 0, 0, 0, 0, 0, 0, 0xE6, 0x97, 0xA5, 0xE6, 0x9C, 0xAC, 1, 0, 0, 0, 0x21, 0x4E,
      0, 0, 0, 0, 0, 0, 0, 0, 0, 0, 0, 0, 0, 0, 0, 0] := by decide +kernel

end Ledger

end Tenancy
