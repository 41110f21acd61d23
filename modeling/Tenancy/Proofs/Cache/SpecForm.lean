/-
**The form of a kind and its spec.**

The number of the kind stands in four octets, least first, sign and offset in one octet each as
two's complements, and the types behind their number, each name behind its length.  The types of a
spec are written in the order of the octets of their names.  Octets may list them in any order and
repeatedly; they are read all the same, and what follows is left.  So a spec is read back from its
form, no beginning of the form is read as anything, and octets begin with the form of what was read
exactly when they list the names in strictly ascending order.

Main definitions:

* `Tenancy.Octets.twosComplement` — a signed number as an octet;
* `Tenancy.Cache.Listing` — what octets say about a kind and its spec, name by name;
* `Tenancy.Cache.Listing.layout`, `Tenancy.Cache.SpecLaidOut` — the form of a listing, and **the
  layout of a kind and its spec**.

Main results:

* `Tenancy.Cache.readListing_write`, `Tenancy.Cache.readListing_eq_ok` — **the reader takes back
  what was written, and nothing else**;
* `Tenancy.Cache.steady_readListing` — more octets do not change what the reader answers;
* `Tenancy.Cache.writeSpec_prefix_iff` — octets begin with the form of what they list exactly when
  the names ascend;
* `Tenancy.Cache.spec_form_and_decode` — **a kind and its spec have one form, and the form is read
  back**.
-/

import Tenancy.Cache.Form
import Tenancy.Proofs.Cache.Types
import Tenancy.Proofs.Ledger.Layout
import Tenancy.Proofs.Octets.Cut

set_option relaxedAutoImplicit false
set_option autoImplicit false

namespace Tenancy

/-! ### Signed numbers -/

/-- **A signed number as an octet**: itself, or for a negative number what is left of 256. -/
def Octets.twosComplement (n : Int8) : UInt8 := UInt8.ofNat (n.toInt % 256).toNat

theorem Octets.toUInt8_eq_twosComplement (n : Int8) : n.toUInt8 = twosComplement n := by
  have hmod : n.toInt % 256 = (n.toUInt8.toNat : Int) := by
    have hbound : n.toUInt8.toNat < 256 := n.toUInt8.toNat_lt
    have hbits : n.toInt = Int.bmod n.toUInt8.toNat 256 := BitVec.toInt_eq_toNat_bmod n.toBitVec
    have hback : Int.bmod n.toUInt8.toNat 256 % 256 = (n.toUInt8.toNat : Int) % 256 :=
      Int.bmod_emod
    rw [hbits, hback]
    omega
  rw [twosComplement, hmod, Int.toNat_natCast, UInt8.ofNat_toNat]

namespace Cache

open Octets

/-! ### Listings -/

/-- **What octets say about a kind and its spec**: the types stand as they are written. -/
structure Listing where
  kind : Kind
  sign : Int8
  offset : Int8
  types : List String
deriving DecidableEq, Repr

namespace Listing

/-- The spec that is listed; a type listed twice counts once. -/
def spec (i : Listing) : Spec := .ofList i.sign i.offset i.types

/-- The types and the octets of their names can be counted in eight octets. -/
structure Fits (i : Listing) : Prop where
  names : ∀ name ∈ i.types, TextFits name
  count : i.types.length < wordCount 8

/-- No name stands behind one that has greater octets, or twice. -/
def Ascending (i : Listing) : Prop :=
  (i.types.map fun name => name.toUTF8.data.toList).Pairwise (· < ·)

instance (i : Listing) : Decidable i.Ascending :=
  inferInstanceAs (Decidable ((i.types.map fun name => name.toUTF8.data.toList).Pairwise (· < ·)))

/-- The written form of a listing. -/
def write (i : Listing) : Octets :=
  ofWord 4 i.kind.index ++ writeSigned i.sign ++ writeSigned i.offset ++ ofList ofText i.types

/-- The form of a listing, number by number and text by text. -/
def layout (i : Listing) : Octets :=
  littleEndian 4 i.kind.index ++ [twosComplement i.sign, twosComplement i.offset] ++
    littleEndian 8 i.types.length ++
    i.types.flatMap fun name => littleEndian 8 name.utf8ByteSize ++ name.toUTF8.data.toList

theorem write_eq_layout (i : Listing) : i.write = i.layout := by
  have htext : ofText =
      fun name => littleEndian 8 name.utf8ByteSize ++ name.toUTF8.data.toList := by
    funext name
    rw [ofText, ofLength, Utf8.length_encode, ofWord_eq_littleEndian, Utf8.toUTF8_eq_encode]
  simp only [write, layout, writeSigned, toUInt8_eq_twosComplement, ofList, ofLength, htext,
    ofWord_eq_littleEndian, List.append_assoc, List.cons_append, List.nil_append]

end Listing

variable {i i' : Listing} {kind : Kind} {spec : Spec} {bs rest rest' : Octets}

/-- The listing of a kind and its spec. -/
def listingOf (kind : Kind) (spec : Spec) : Listing :=
  ⟨kind, spec.sign, spec.offset, spec.types.toList⟩

theorem writeSpec_eq_write (kind : Kind) (spec : Spec) :
    writeSpec kind spec = (listingOf kind spec).write := rfl

theorem spec_listingOf (kind : Kind) (spec : Spec) : (listingOf kind spec).spec = spec := by
  have htypes : Std.ExtTreeSet.ofList spec.types.toList = spec.types := by
    apply Std.ExtTreeSet.ext_mem
    intro name
    simp [Std.ExtTreeSet.mem_ofList, Std.ExtTreeSet.mem_toList]
  rw [listingOf, Listing.spec, Spec.ofList, htypes]

theorem ascending_listingOf (kind : Kind) (spec : Spec) : (listingOf kind spec).Ascending :=
  (namesOf_toList spec.types).ascending

/-- The names in a set have one ascending order. -/
theorem NamesOf.eq_toList {types : Std.ExtTreeSet String} {names : List String}
    (h : NamesOf types names) : names = types.toList := by
  have hascending := h.ascending
  simp only [List.pairwise_map, Utf8.toUTF8_eq_encode, Utf8.encode_lt_iff] at hascending
  refine List.Pairwise.eq_of_mem_iff hascending (pairwise_types types) ?_
  intro name
  rw [h.mem_iff, Std.ExtTreeSet.mem_toList]

/-- **A listing that ascends is that of its spec.** -/
theorem Listing.Ascending.listingOf_spec (h : i.Ascending) : listingOf i.kind i.spec = i := by
  have hnames : NamesOf i.spec.types i.types := by
    refine ⟨?_, h⟩
    intro name
    simp [Listing.spec, Spec.ofList, Std.ExtTreeSet.mem_ofList]
  rw [listingOf, ← hnames.eq_toList]
  rfl

/-! ### Reading a listing -/

/-- Takes a listing. -/
def readListing : Reader Listing := do
  let kind ← readKind
  let sign ← readSigned
  let offset ← readSigned
  let types ← Reader.list Reader.text
  pure ⟨kind, sign, offset, types⟩

/-- A kind and its spec are read as a listing. -/
theorem readSpec_eq_map : readSpec = (fun i => (i.kind, i.spec)) <$> readListing := by
  simp only [readSpec, readListing, map_bind, map_pure]
  rfl

theorem decodeSpec_eq_map (bs : Octets) :
    decodeSpec bs = (readListing.read bs).map fun i => (i.kind, i.spec) := by
  rw [decodeSpec, readSpec_eq_map]
  simp only [Reader.read, Functor.map, StateT.map, bind, Except.bind]
  cases readListing bs with
  | error fault => rfl
  | ok taken => rfl

/-- What was read is listed at the beginning of the octets. -/
theorem exists_listing_of_decodeSpec (h : decodeSpec bs = .ok (kind, spec)) :
    ∃ i rest, readListing bs = .ok (i, rest) ∧ i.kind = kind ∧ i.spec = spec := by
  rw [decodeSpec_eq_map] at h
  cases hread : readListing bs with
  | error fault =>
      simp only [Reader.read, hread, Except.map] at h
      cases h
  | ok taken =>
      obtain ⟨i, rest⟩ := taken
      simp only [Reader.read, hread, Except.map, Except.ok.injEq, Prod.mk.injEq] at h
      exact ⟨i, rest, rfl, h.1, h.2⟩

/-! ### What is written is taken back -/

/-- **The reader takes back the listing that was written**, and leaves what follows. -/
theorem readListing_write (h : i.Fits) (rest : Octets) :
    readListing (i.write ++ rest) = .ok (i, rest) := by
  have htypes := Reader.list_ofList h.count
    (fun name hname => Reader.text_ofText (h.names name hname)) rest
  simp only [readListing, Listing.write, List.append_assoc, bind, StateT.bind, readKind_ofWord,
    Except.bind, readSigned_writeSigned, htypes]
  rfl

theorem decodeSpec_write (h : i.Fits) (rest : Octets) :
    decodeSpec (i.write ++ rest) = .ok (i.kind, i.spec) := by
  rw [decodeSpec_eq_map, Reader.read, readListing_write h rest]
  rfl

/-- Octets list one thing only. -/
theorem Listing.Fits.write_append_inj (h : i.Fits) (h' : i'.Fits)
    (hsame : i.write ++ rest = i'.write ++ rest') : i = i' ∧ rest = rest' := by
  have hread := readListing_write h rest
  rw [hsame, readListing_write h' rest'] at hread
  cases hread
  exact ⟨rfl, rfl⟩

/-! ### Only what is written is taken -/

theorem readKind_eq_ok (h : readKind bs = .ok (kind, rest)) :
    bs = ofWord 4 kind.index ++ rest := by
  rw [readKind] at h
  obtain ⟨index, left, hindex, hread⟩ := Reader.bind_eq_ok h
  obtain ⟨-, rfl⟩ := Reader.word_eq_ok hindex
  cases hkind : Kind.ofIndex? index with
  | none =>
      rw [hkind] at hread
      cases hread
  | some found =>
      rw [hkind] at hread
      obtain ⟨rfl, rfl⟩ := Reader.pure_eq_ok hread
      rw [Kind.index_of_ofIndex? hkind]

theorem readSigned_eq_ok {n : Int8} (h : readSigned bs = .ok (n, rest)) :
    bs = writeSigned n ++ rest := by
  rw [readSigned] at h
  obtain ⟨word, left, hword, hread⟩ := Reader.bind_eq_ok h
  obtain ⟨rfl, rfl⟩ := Reader.pure_eq_ok hread
  obtain ⟨hlt, rfl⟩ := Reader.word_eq_ok hword
  have hone : word % 256 = word := Nat.mod_eq_of_lt hlt
  have hsame : (UInt8.ofNat word).toInt8.toUInt8 = UInt8.ofNat word := UInt8.toUInt8_toInt8 _
  rw [writeSigned, hsame, ofWord, hone]
  rfl

/-- **Octets from which a listing was read are its written form and the rest.** -/
theorem readListing_eq_ok (h : readListing bs = .ok (i, rest)) :
    i.Fits ∧ bs = i.write ++ rest := by
  rw [readListing] at h
  obtain ⟨kind, behind, hkind, hbehind⟩ := Reader.bind_eq_ok h
  obtain ⟨sign, middle, hsign, hmiddle⟩ := Reader.bind_eq_ok hbehind
  obtain ⟨offset, before, hoffset, hbefore⟩ := Reader.bind_eq_ok hmiddle
  obtain ⟨types, left, htypes, hread⟩ := Reader.bind_eq_ok hbefore
  obtain ⟨rfl, rfl⟩ := Reader.pure_eq_ok hread
  obtain rfl := readKind_eq_ok hkind
  obtain rfl := readSigned_eq_ok hsign
  obtain rfl := readSigned_eq_ok hoffset
  obtain ⟨hcount, hnames, rfl⟩ := Reader.list_eq_ok (fun _ _ _ => Reader.text_eq_ok) htypes
  refine ⟨⟨hnames, hcount⟩, ?_⟩
  simp only [Listing.write, List.append_assoc]

/-! ### Beginnings of a form -/

theorem steady_readKind : readKind.Steady := by
  refine .bind (.word 4) fun index => ?_
  cases Kind.ofIndex? index with
  | none => exact .throw (.badChoice index Kind.all.length)
  | some kind => exact .pure kind

theorem steady_readSigned : readSigned.Steady :=
  .bind (.word 1) fun n => .pure (UInt8.ofNat n).toInt8

/-- **More octets do not change what the reader answers.** -/
theorem steady_readListing : readListing.Steady :=
  .bind steady_readKind fun _ => .bind steady_readSigned fun _ =>
    .bind steady_readSigned fun _ => .bind (.list .text) fun _ => .pure _

/-- A proper beginning of a form is refused as cut off. -/
theorem exists_cut_of_prefix_write (h : i.Fits) {p : Octets} (hp : p <+: i.write)
    (hne : p ≠ i.write) : ∃ fault : Malformed, fault.IsCut ∧ decodeSpec p = .error fault := by
  have hform : readListing i.write = .ok (i, []) := by
    have hread := readListing_write h []
    rwa [List.append_nil] at hread
  obtain ⟨fault, hcut, hp⟩ := steady_readListing.cut hform hp hne
  refine ⟨fault, hcut, ?_⟩
  rw [decodeSpec_eq_map, Reader.read, hp]
  rfl

/-! ### Octets that begin with the form of what they list -/

/-- The spec of a listing that fits lists no more names, and no others. -/
theorem Listing.Fits.listingOf_spec (h : i.Fits) : (listingOf i.kind i.spec).Fits where
  names name hname := by
    refine h.names name ?_
    simpa [listingOf, Listing.spec, Spec.ofList, Std.ExtTreeSet.mem_toList] using hname
  count := by
    have hsize : (Std.ExtTreeSet.ofList i.types).size ≤ i.types.length :=
      Std.ExtTreeSet.size_ofList_le
    rw [listingOf, Std.ExtTreeSet.length_toList]
    exact Nat.lt_of_le_of_lt hsize h.count

/-- **Octets begin with the form of what they list exactly when the names ascend.** -/
theorem writeSpec_prefix_iff (h : i.Fits) (rest : Octets) :
    writeSpec i.kind i.spec <+: i.write ++ rest ↔ i.Ascending := by
  rw [writeSpec_eq_write]
  constructor
  · rintro ⟨more, hsame⟩
    obtain ⟨hlisting, -⟩ := h.listingOf_spec.write_append_inj h hsame
    rw [← hlisting]
    exact ascending_listingOf i.kind i.spec
  · intro hascending
    rw [hascending.listingOf_spec]
    exact List.prefix_append i.write rest

/-! ### The layout -/

/-- **The layout of a kind and its spec**: the types are listed in ascending order, all of them and
each once. -/
inductive SpecLaidOut (kind : Kind) (spec : Spec) : Octets → Prop
  | intro (names : List String) (listed : NamesOf spec.types names) :
      SpecLaidOut kind spec (Listing.layout ⟨kind, spec.sign, spec.offset, names⟩)

/-- **The layout is what is written.** -/
theorem specLaidOut_iff {form : Octets} :
    SpecLaidOut kind spec form ↔ form = writeSpec kind spec := by
  constructor
  · rintro ⟨names, listed⟩
    rw [listed.eq_toList, ← Listing.write_eq_layout]
    rfl
  · rintro rfl
    rw [writeSpec_eq_write, Listing.write_eq_layout]
    exact .intro spec.types.toList (namesOf_toList spec.types)

/-- The listing of a spec fits if its types and the octets of their names can be counted. -/
theorem fits_listingOf (kind : Kind) (hnames : ∀ name ∈ spec.types, name.utf8ByteSize < 2 ^ 64)
    (hcount : spec.types.size < 2 ^ 64) : (listingOf kind spec).Fits where
  names name hname := by
    rw [TextFits, Utf8.length_encode]
    exact hnames name (Std.ExtTreeSet.mem_toList.1 hname)
  count := by
    rw [listingOf, Std.ExtTreeSet.length_toList]
    exact hcount

/-- **A kind and its spec have one form, and the form is read back whatever follows it.**  No
proper beginning of the form is read as anything.  Octets from which a kind and a spec were read are
a listing of them and what follows it, in one way only; they begin with the form of what was read
exactly when the names in them, by their octets, strictly ascend.  The lengths can be counted in
eight octets, as those of anything in memory can. -/
theorem spec_form_and_decode (hnames : ∀ name ∈ spec.types, name.utf8ByteSize < 2 ^ 64)
    (hcount : spec.types.size < 2 ^ 64) (kind : Kind) :
    (∀ form, SpecLaidOut kind spec form ↔ form = writeSpec kind spec) ∧
      (∀ s, decodeSpec (writeSpec kind spec ++ s) = .ok (kind, spec)) ∧
      (∀ p, p <+: writeSpec kind spec → p ≠ writeSpec kind spec →
        ∃ fault : Malformed, fault.IsCut ∧ decodeSpec p = .error fault) ∧
      ∀ bs kind' spec', decodeSpec bs = .ok (kind', spec') →
        ∃ (i : Listing) (rest : Octets), i.Fits ∧ bs = i.layout ++ rest ∧
          (∀ (i' : Listing) rest', i'.Fits → bs = i'.layout ++ rest' → i' = i ∧ rest' = rest) ∧
          i.kind = kind' ∧ i.spec = spec' ∧
          (writeSpec kind' spec' <+: bs ↔
            (i.types.map fun name => name.toUTF8.data.toList).Pairwise (· < ·)) := by
  have hfits := fits_listingOf kind hnames hcount
  refine ⟨fun form => specLaidOut_iff, ?_, ?_, ?_⟩
  · intro s
    rw [writeSpec_eq_write, decodeSpec_write hfits s, spec_listingOf]
    rfl
  · intro p hp hne
    exact exists_cut_of_prefix_write hfits hp hne
  · intro bs kind' spec' h
    obtain ⟨i, rest, hread, rfl, rfl⟩ := exists_listing_of_decodeSpec h
    obtain ⟨hi, rfl⟩ := readListing_eq_ok hread
    refine ⟨i, rest, hi, by rw [Listing.write_eq_layout], ?_, rfl, rfl,
      writeSpec_prefix_iff hi rest⟩
    intro i' rest' hi' hsame
    rw [← Listing.write_eq_layout] at hsame
    exact hi'.write_append_inj hi hsame.symm

/-- A listing that names one type twice, and not in ascending order. -/
def unsortedListing : Listing := ⟨.logs, -128, -2, ["é", "Entry", "é"]⟩

/-- What it lists is read back from its own form; but the octets of the listing are not those. -/
theorem spec_form_and_decode_unsorted :
    decodeSpec (writeSpec .logs unsortedListing.spec ++ [0xFF]) =
        .ok (.logs, unsortedListing.spec) ∧
      (∃ fault : Malformed, fault.IsCut ∧ decodeSpec [] = .error fault) ∧
      decodeSpec (unsortedListing.write ++ [0xFF]) = .ok (.logs, unsortedListing.spec) ∧
      ¬ writeSpec .logs unsortedListing.spec <+: unsortedListing.write ++ [0xFF] := by
  have hfits : unsortedListing.Fits := ⟨by decide, by decide⟩
  have hsize : unsortedListing.spec.types.size ≤ 3 := Std.ExtTreeSet.size_ofList_le
  have hnames : ∀ name ∈ unsortedListing.spec.types, name.utf8ByteSize < 2 ^ 64 := by
    intro name hname
    have hlisted : name ∈ unsortedListing.types := by
      simpa [Listing.spec, Spec.ofList, Std.ExtTreeSet.mem_ofList] using hname
    rw [← Utf8.length_encode]
    exact hfits.names name hlisted
  obtain ⟨-, hback, hcut, hlisted⟩ := spec_form_and_decode hnames (by omega) .logs
  have hread : decodeSpec (unsortedListing.write ++ [0xFF]) = .ok (.logs, unsortedListing.spec) :=
    decodeSpec_write hfits [0xFF]
  refine ⟨hback [0xFF], hcut [] (List.nil_prefix) (by decide), hread, ?_⟩
  obtain ⟨i, rest, -, -, hone, -, -, hascend⟩ := hlisted _ _ _ hread
  obtain ⟨rfl, rfl⟩ := hone unsortedListing [0xFF] hfits (by rw [Listing.write_eq_layout])
  intro hprefix
  have hnot : ¬ unsortedListing.Ascending := by decide
  exact hnot (hascend.1 hprefix)

end Cache

end Tenancy
