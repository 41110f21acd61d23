/-
**What the check of a table finds.**

The check goes through the kinds to look at their signs, then through the slots of the range and at
each slot through the kinds, and stops at the first thing that is wrong.  What it finds is told here
in exact integers and without the steps of the loop: a table passes exactly if the six integers of
every slot lie within 16 bits and differ, and what a failure reports is the first fault, at the least
slot that has one.

Main definitions:

* `Tenancy.Cache.Table.CleanAt` — **the six integers of a slot lie within 16 bits and differ**;
* `Tenancy.Cache.Table.FreshAt`, `Tenancy.Cache.Table.Fault` — nothing is wrong with a kind at a
  slot, given the kinds before it, and what is wrong with it otherwise;
* `Tenancy.Cache.Table.FirstFault` — the first fault of a table over a range.

Main results:

* `Tenancy.Cache.Table.checkSlot_eq_error_iff` — the check of a slot fails with the first kind that
  is not fresh;
* `Tenancy.Cache.Table.verify_eq_error_iff` — **the check fails exactly with the first fault**;
* `Tenancy.Cache.Table.verify_tells` — what a host may conclude from each outcome.
-/

import Tenancy.Proofs.Cache.Exact
import Tenancy.Proofs.Cache.Verified

set_option relaxedAutoImplicit false
set_option autoImplicit false

namespace Tenancy.Cache

namespace Table

variable {t : Table} {count : UInt16} {slot first last : Slot} {kind : Kind} {failure : Failure}

/-! ### What can be wrong at a slot -/

/-- The integer that stands for the mux id of a kind at a slot. -/
def exact (t : Table) (count : UInt16) (slot : Slot) (kind : Kind) : Int :=
  (t.spec kind).exact count slot

/-- That integer lies within 16 bits. -/
def Fits (t : Table) (count : UInt16) (slot : Slot) (kind : Kind) : Prop :=
  (t.spec kind).Fits count slot

instance (t : Table) (count : UInt16) (slot : Slot) (kind : Kind) :
    Decidable (t.Fits count slot kind) :=
  inferInstanceAs (Decidable (Spec.Fits _ _ _))

/-- **The six integers of a slot lie within 16 bits and differ.** -/
structure CleanAt (t : Table) (count : UInt16) (slot : Slot) : Prop where
  fits : ∀ kind, t.Fits count slot kind
  differ : ∀ kind kind', kind ≠ kind' → t.exact count slot kind ≠ t.exact count slot kind'

/-- The integer of a kind lies within 16 bits, and no kind before has the same. -/
structure FreshAt (t : Table) (count : UInt16) (slot : Slot) (kind : Kind) : Prop where
  fits : t.Fits count slot kind
  differs : ∀ before : Kind, before.index < kind.index →
    t.exact count slot before ≠ t.exact count slot kind

/-- **What is wrong with a kind at a slot**, and what is reported of it. -/
inductive Fault (t : Table) (count : UInt16) (slot : Slot) (kind : Kind) : Failure → Prop where
  /-- Its integer does not lie within 16 bits. -/
  | overflow (hfits : ¬ t.Fits count slot kind) :
      t.Fault count slot kind (.muxIdOverflow slot (t.spec kind).sign (t.spec kind).offset)
  /-- Its integer is that of a kind before it. -/
  | collision (before : Kind) (id : Int16) (hbefore : before.index < kind.index)
      (hfirst : t.exact count slot before = id.toInt)
      (hsecond : t.exact count slot kind = id.toInt) :
      t.Fault count slot kind (.muxIdCollision before kind slot id)

/-- Of the fresh kinds only one has a given integer. -/
theorem FreshAt.eq_of_exact_eq {k k' : Kind} (hk : t.FreshAt count slot k)
    (hk' : t.FreshAt count slot k') (hsame : t.exact count slot k = t.exact count slot k') :
    k = k' := by
  rcases Nat.lt_trichotomy k.index k'.index with hlt | heq | hlt
  · exact absurd hsame (hk'.differs k hlt)
  · exact Kind.index_inj heq
  · exact absurd hsame.symm (hk.differs k' hlt)

/-- A slot is clean if nothing is wrong with any of its kinds. -/
theorem cleanAt_iff : t.CleanAt count slot ↔ ∀ kind, t.FreshAt count slot kind := by
  constructor
  · intro h kind
    refine ⟨h.fits kind, ?_⟩
    intro before hbefore
    refine h.differ before kind ?_
    rintro rfl
    exact Nat.lt_irrefl _ hbefore
  · intro h
    refine ⟨fun kind => (h kind).fits, ?_⟩
    intro kind kind' hne hsame
    exact hne ((h kind).eq_of_exact_eq (h kind') hsame)

/-! ### A kind and a slot -/

theorem hasId_iff {id : Int16} (hsign : (t.spec kind).HasSign) :
    t.HasId count slot id kind ↔ t.exact count slot kind = id.toInt :=
  Spec.muxId_eq_ok_iff hsign

/-- The check of a kind passes if nothing is wrong with it. -/
theorem checkKind_eq_ok_iff_freshAt (hsigns : ∀ kind, (t.spec kind).HasSign) :
    t.checkKind count slot kind = .ok () ↔ t.FreshAt count slot kind := by
  rw [checkKind_eq_ok_iff]
  simp only [hasId_iff (hsigns _)]
  constructor
  · rintro ⟨id, hid, hnew⟩
    refine ⟨Spec.fits_of_exact hid, ?_⟩
    intro before hbefore hsame
    exact hnew before hbefore (hsame.trans hid)
  · rintro ⟨hfits, hdiffers⟩
    obtain ⟨id, hid⟩ := Spec.Fits.exists_id hfits
    refine ⟨id, hid, ?_⟩
    intro before hbefore hsame
    exact hdiffers before hbefore (hsame.trans hid.symm)

/-- The check of a kind fails with what is wrong with it, if the kinds before are fresh. -/
theorem checkKind_eq_error_iff (hsigns : ∀ kind, (t.spec kind).HasSign)
    (hfresh : ∀ k : Kind, k.index < kind.index → t.FreshAt count slot k) :
    t.checkKind count slot kind = .error failure ↔ t.Fault count slot kind failure := by
  cases hid : t.muxId kind slot count with
  | error found =>
      obtain ⟨hfits, rfl⟩ := (Spec.muxId_eq_error_iff (hsigns kind)).1 hid
      simp only [checkKind, hid]
      constructor
      · intro h
        cases h
        exact .overflow hfits
      · intro h
        cases h with
        | overflow _ => rfl
        | collision before id hbefore hfirst hsecond =>
            exact absurd (Spec.fits_of_exact hsecond) hfits
  | ok id =>
      have hexact := (hasId_iff (hsigns kind)).1 hid
      simp only [checkKind, hid]
      cases hfind : (Kind.all.take kind.index).find? fun before => t.HasId count slot id before with
      | some before =>
          have hbefore := Kind.mem_take_index.1 (List.mem_of_find?_eq_some hfind)
          have hsame : t.HasId count slot id before := by simpa using List.find?_some hfind
          have hfirst := (hasId_iff (hsigns before)).1 hsame
          constructor
          · intro h
            cases h
            exact .collision before id hbefore hfirst hexact
          · intro h
            cases h with
            | overflow hfits => exact absurd (Spec.fits_of_exact hexact) hfits
            | collision other id' hother hfirst' hsecond =>
                have hids : id = id' := Int16.toInt_inj.1 (hexact.symm.trans hsecond)
                subst hids
                have hkinds := (hfresh before hbefore).eq_of_exact_eq (hfresh other hother)
                  (hfirst.trans hfirst'.symm)
                rw [hkinds]
      | none =>
          constructor
          · intro h
            cases h
          · intro h
            cases h with
            | overflow hfits => exact absurd (Spec.fits_of_exact hexact) hfits
            | collision before id' hbefore hfirst hsecond =>
                have hids : id = id' := Int16.toInt_inj.1 (hexact.symm.trans hsecond)
                subst hids
                have hsame := (hasId_iff (hsigns before)).2 hfirst
                have hnew := List.find?_eq_none.1 hfind before (Kind.mem_take_index.2 hbefore)
                exact absurd (decide_eq_true hsame) hnew

/-- The check of a slot passes exactly if the slot is clean. -/
theorem checkSlot_eq_ok_iff_cleanAt (hsigns : ∀ kind, (t.spec kind).HasSign) :
    t.checkSlot count slot = .ok () ↔ t.CleanAt count slot := by
  rw [checkSlot_eq_forM, forM_eq_ok_iff, cleanAt_iff]
  simp only [checkKind_eq_ok_iff_freshAt hsigns, Kind.mem_all, true_implies]

/-- The check of a slot fails with what is wrong with the first kind that is not fresh. -/
theorem checkSlot_eq_error_iff (hsigns : ∀ kind, (t.spec kind).HasSign) :
    t.checkSlot count slot = .error failure ↔
      ∃ kind, (∀ k : Kind, k.index < kind.index → t.FreshAt count slot k) ∧
        t.Fault count slot kind failure := by
  rw [checkSlot_eq_forM, forM_eq_error_iff Kind.pairwise_all]
  simp only [checkKind_eq_ok_iff_freshAt hsigns, Kind.mem_all, true_implies, true_and]
  refine exists_congr ?_
  intro kind
  rw [and_comm]
  refine and_congr_right ?_
  intro hfresh
  exact checkKind_eq_error_iff hsigns hfresh

/-! ### A range of slots -/

/-- **The first fault of a table over a range of slots.**  The signs of all kinds come first, then
the slots in order, and at a slot the kinds in order. -/
inductive FirstFault (t : Table) (first last : Slot) (count : UInt16) : Failure → Prop where
  /-- A sign is not -1, 0 or 1. -/
  | sign (kind : Kind) (hsign : ¬ (t.spec kind).HasSign)
      (hbefore : ∀ before : Kind, before.index < kind.index → (t.spec before).HasSign) :
      t.FirstFault first last count (.config (.badSign kind (t.spec kind).sign))
  /-- All signs are right, and something is wrong with a kind at a slot. -/
  | slot (slot : Slot) (kind : Kind) (failure : Failure)
      (hsigns : ∀ kind, (t.spec kind).HasSign) (hfirst : first ≤ slot) (hlast : slot ≤ last)
      (hclean : ∀ earlier : Slot, first ≤ earlier → earlier < slot → t.CleanAt count earlier)
      (hbefore : ∀ before : Kind, before.index < kind.index → t.FreshAt count slot before)
      (hfault : t.Fault count slot kind failure) : t.FirstFault first last count failure

theorem checkSigns_eq_error_iff :
    t.checkSigns = .error failure ↔
      ∃ kind, ¬ (t.spec kind).HasSign ∧ failure = .config (.badSign kind (t.spec kind).sign) ∧
        ∀ before : Kind, before.index < kind.index → (t.spec before).HasSign := by
  rw [checkSigns, forM_eq_error_iff Kind.pairwise_all]
  constructor
  · rintro ⟨kind, -, hfails, hbefore⟩
    refine ⟨kind, ?_⟩
    split at hfails
    · cases hfails
    · rename_i hsign
      refine ⟨hsign, (Except.error.inj hfails).symm, ?_⟩
      intro before hlt
      by_contra hno
      have hpasses := hbefore before (Kind.mem_all before) hlt
      rw [if_neg hno] at hpasses
      cases hpasses
  · rintro ⟨kind, hsign, rfl, hbefore⟩
    refine ⟨kind, Kind.mem_all kind, if_neg hsign, ?_⟩
    intro before _ hlt
    exact if_pos (hbefore before hlt)

/-- **The check of a table passes exactly if all signs are right and every slot is clean.** -/
theorem verify_eq_ok_iff_cleanAt : t.verify first last count = .ok () ↔
    (∀ kind, (t.spec kind).HasSign) ∧
      ∀ slot, first ≤ slot → slot ≤ last → t.CleanAt count slot := by
  rw [verify_eq_ok_iff]
  refine and_congr_right ?_
  intro hsigns
  simp only [← checkSlot_eq_ok_iff, checkSlot_eq_ok_iff_cleanAt hsigns]

/-- **The check of a table fails exactly with the first fault.** -/
theorem verify_eq_error_iff :
    t.verify first last count = .error failure ↔ t.FirstFault first last count failure := by
  show (t.checkSigns >>= fun _ => (slotsBetween first last).forM (t.checkSlot count)) =
    .error failure ↔ _
  cases hcheck : t.checkSigns with
  | error found =>
      obtain ⟨kind, hsign, rfl, hbefore⟩ := checkSigns_eq_error_iff.1 hcheck
      constructor
      · intro h
        cases h
        exact .sign kind hsign hbefore
      · intro h
        cases h with
        | sign kind' hsign' hbefore' =>
            have hsame := checkSigns_eq_error_iff.2 ⟨kind', hsign', rfl, hbefore'⟩
            rw [hcheck] at hsame
            exact hsame
        | slot slot kind' failure hsigns =>
            exact absurd (hsigns kind) hsign
  | ok done =>
      have hsigns := checkSigns_eq_ok_iff.1 hcheck
      show (slotsBetween first last).forM (t.checkSlot count) = .error failure ↔ _
      rw [forM_eq_error_iff (pairwise_slotsBetween first last)]
      constructor
      · rintro ⟨slot, hslot, hfails, hbefore⟩
        obtain ⟨hfirst, hlast⟩ := mem_slotsBetween.1 hslot
        obtain ⟨kind, hfresh, hfault⟩ := (checkSlot_eq_error_iff hsigns).1 hfails
        refine .slot slot kind failure hsigns hfirst hlast ?_ hfresh hfault
        intro earlier hearlier hlt
        have hmem : earlier ∈ slotsBetween first last :=
          mem_slotsBetween.2 ⟨hearlier, UInt16.le_trans (UInt16.le_of_lt hlt) hlast⟩
        exact (checkSlot_eq_ok_iff_cleanAt hsigns).1 (hbefore earlier hmem hlt)
      · intro h
        cases h with
        | sign kind hsign => exact absurd (hsigns kind) hsign
        | slot slot kind failure _ hfirst hlast hclean hfresh hfault =>
            refine ⟨slot, mem_slotsBetween.2 ⟨hfirst, hlast⟩,
              (checkSlot_eq_error_iff hsigns).2 ⟨kind, hfresh, hfault⟩, ?_⟩
            intro earlier hmem hlt
            obtain ⟨hearlier, -⟩ := mem_slotsBetween.1 hmem
            exact (checkSlot_eq_ok_iff_cleanAt hsigns).2 (hclean earlier hearlier hlt)

/-- **What a host may conclude from each outcome.**  A table passes exactly if all signs are right
and the six integers of every slot lie within 16 bits and differ.  A collision names the two kinds
in their order, with the id that both have, and an overflow the sign and the offset of a kind that
has no id, in either case at the least slot of the range that is not clean.  Settings are valid with
a table exactly if it passes over their slots, there is a key and time to wait for the lock, and the
slots begin at one or above and do not end before they begin. -/
theorem verify_tells (t : Table) (first last : Slot) (count : UInt16) :
    (t.verify first last count = .ok () ↔
      (∀ kind, (t.spec kind).sign = -1 ∨ (t.spec kind).sign = 0 ∨ (t.spec kind).sign = 1) ∧
        ∀ slot, first ≤ slot → slot ≤ last → t.CleanAt count slot) ∧
    (∀ (kind kind' : Kind) (slot : Slot) (id : Int16),
      t.verify first last count = .error (.muxIdCollision kind kind' slot id) →
        kind.index < kind'.index ∧
          t.exact count slot kind = id.toInt ∧ t.exact count slot kind' = id.toInt ∧
          first ≤ slot ∧ slot ≤ last ∧
          ∀ earlier, first ≤ earlier → earlier < slot → t.CleanAt count earlier) ∧
    (∀ (slot : Slot) (sign offset : Int8),
      t.verify first last count = .error (.muxIdOverflow slot sign offset) →
        (∃ kind, (t.spec kind).sign = sign ∧ (t.spec kind).offset = offset ∧
          ¬ t.Fits count slot kind) ∧
          first ≤ slot ∧ slot ≤ last ∧
          ∀ earlier, first ≤ earlier → earlier < slot → t.CleanAt count earlier) ∧
    ∀ s : Settings, s.validate t = .ok () ↔
      s.key ≠ "" ∧ 0 < s.lockTimeout.nanoseconds ∧
        1 ≤ s.slots.first ∧ s.slots.first ≤ s.slots.last ∧
        (∀ kind, (t.spec kind).sign = -1 ∨ (t.spec kind).sign = 0 ∨ (t.spec kind).sign = 1) ∧
        ∀ slot, s.slots.first ≤ slot → slot ≤ s.slots.last → t.CleanAt s.indexedCaches slot := by
  refine ⟨verify_eq_ok_iff_cleanAt, ?_, ?_, ?_⟩
  · intro kind kind' slot id h
    cases verify_eq_error_iff.1 h with
    | slot _ _ _ hsigns hfirst hlast hclean hfresh hfault =>
        cases hfault with
        | collision _ _ horder hkind hkind' =>
            exact ⟨horder, hkind, hkind', hfirst, hlast, hclean⟩
  · intro slot sign offset h
    cases verify_eq_error_iff.1 h with
    | slot _ kind _ hsigns hfirst hlast hclean hfresh hfault =>
        cases hfault with
        | overflow hfits => exact ⟨⟨kind, rfl, rfl, hfits⟩, hfirst, hlast, hclean⟩
  · intro s
    have htime : s.lockTimeout.isZero = false ↔ 0 < s.lockTimeout.nanoseconds := by
      rw [Duration.isZero, beq_eq_false_iff_ne, Nat.pos_iff_ne_zero]
    have hone : s.slots.first ≠ 0 ↔ 1 ≤ s.slots.first := by
      rw [ne_eq, ← UInt16.toNat_inj, UInt16.le_iff_toNat_le]
      exact Nat.pos_iff_ne_zero.symm
    rw [Settings.validate_eq_ok_iff, verify_eq_ok_iff_cleanAt, htime, hone]
    rfl

theorem verify_tells_standard :
    standard.verify 1 2 4 = .error (.muxIdCollision .logs .channel 1 0) ∧
      standard.exact 4 1 .logs = 0 ∧ standard.exact 4 1 .channel = 0 ∧
      standard.verify 16383 16384 4 = .error (.muxIdOverflow 16384 1 0) ∧
      standard.CleanAt 4 16383 ∧
      (∃ kind, (standard.spec kind).sign = 1 ∧ (standard.spec kind).offset = 0 ∧
        ¬ standard.Fits 4 16384 kind) := by
  have hcollision : standard.verify 1 2 4 = .error (.muxIdCollision .logs .channel 1 0) := by rfl
  have hoverflow : standard.verify 16383 16384 4 = .error (.muxIdOverflow 16384 1 0) := by rfl
  obtain ⟨-, hcollides, -, -⟩ := verify_tells standard 1 2 4
  obtain ⟨-, -, hoverflows, -⟩ := verify_tells standard 16383 16384 4
  obtain ⟨-, hlogs, hchannel, -⟩ := hcollides _ _ _ _ hcollision
  obtain ⟨hkind, -, -, hclean⟩ := hoverflows _ _ _ hoverflow
  exact ⟨hcollision, hlogs, hchannel, hoverflow, hclean 16383 (by decide) (by decide), hkind⟩

end Table

end Tenancy.Cache
