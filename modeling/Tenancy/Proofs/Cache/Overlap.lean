/-
**Which caches share a mux id.**

With the table of every deployment the mux ids of a slot lie on both sides of zero: each kind has a
side and a small gap, and its id is that side times the scaled slot less the gap.  Two ids on one
side can only be equal if the distance between the slots makes up for the difference of the gaps,
which is two at most.  So there is just one way for two caches to share an id: half the number of
indexed caches is two, the slots are neighbours, and the kinds are tasks and logs, or prospective
search and channel.

Main definitions:

* `Tenancy.Cache.Kind.side`, `Tenancy.Cache.Kind.gap` — the side of a kind, and its gap;
* `Tenancy.Cache.Meets` — **one cache meets the other at the next slot**.

Main results:

* `Tenancy.Cache.exact_standard` — an id is the side times the scaled slot less the gap;
* `Tenancy.Cache.exact_standard_eq_iff` — two such integers are equal for one cache, or where two
  caches meet;
* `Tenancy.Cache.standard_ids_eq_iff` — **the caches that share a mux id**.
-/

import Tenancy.Proofs.Cache.Verdict

set_option relaxedAutoImplicit false
set_option autoImplicit false

namespace Tenancy.Cache

/-! ### Sides and gaps -/

namespace Kind

/-- The side of zero on which the ids of a kind lie. -/
def side : Kind → Int
  | .default | .tasks | .logs => 1
  | .search | .prospectiveSearch | .channel => -1

/-- How much nearer to zero than the scaled slot the ids of a kind lie. -/
def gap : Kind → Nat
  | .tasks | .prospectiveSearch => 0
  | .default | .search => 1
  | .logs | .channel => 2

theorem side_eq (kind : Kind) : kind.side = 1 ∨ kind.side = -1 := by
  cases kind <;> simp [side]

theorem gap_le (kind : Kind) : kind.gap ≤ 2 := by
  cases kind <;> simp [gap]

/-- A kind is known by its side and its gap. -/
theorem eq_of_side_of_gap {a b : Kind} (hside : a.side = b.side) (hgap : a.gap = b.gap) :
    a = b := by
  cases a <;> cases b <;> simp_all [side, gap]

end Kind

/-- The scaled slot: half the number of indexed caches times the slot. -/
def scaledSlot (count : UInt16) (slot : Slot) : Nat := count.toNat / 2 * slot.toNat

/-- **An id is the side times the scaled slot less the gap.** -/
theorem exact_standard (count : UInt16) (slot : Slot) (kind : Kind) :
    Table.standard.exact count slot kind = kind.side * (scaledSlot count slot - kind.gap) := by
  rw [Table.exact, Spec.exact, exactMuxId, ← scaledSlot]
  cases kind <;> simp [Table.standard, Spec.ofList, Kind.side, Kind.gap] <;> omega

/-! ### Neighbouring slots -/

/-- Multiples of a step that differ by two at most are those of neighbours, and the step is two. -/
theorem neighbours_of_lt {step a b gap gap' : Nat} (hstep : 2 ≤ step) (hlt : a < b)
    (hgap : gap' ≤ 2) (h : step * b + gap = step * a + gap') :
    step = 2 ∧ b = a + 1 ∧ gap' = gap + 2 := by
  obtain ⟨more, rfl⟩ := Nat.exists_eq_add_of_lt hlt
  have hexpand : step * (a + more + 1) = step * a + step * more + step := by
    rw [Nat.mul_add, Nat.mul_add, Nat.mul_one]
  have hnone : step * more = 0 := by omega
  have hmore : more = 0 := by
    rcases Nat.mul_eq_zero.1 hnone with hzero | hzero
    · omega
    · exact hzero
  omega

/-- **One cache meets the other at the next slot**: tasks meet logs, and prospective search meets
the channel. -/
def Meets (kind kind' : Kind) (slot slot' : Slot) : Prop :=
  (kind = .tasks ∧ kind' = .logs ∨ kind = .prospectiveSearch ∧ kind' = .channel) ∧
    slot'.toNat = slot.toNat + 1

instance (kind kind' : Kind) (slot slot' : Slot) : Decidable (Meets kind kind' slot slot') :=
  inferInstanceAs (Decidable (_ ∧ _))

/-- Kinds on one side meet if their gaps differ by two. -/
theorem meets_iff {kind kind' : Kind} {slot slot' : Slot} :
    Meets kind kind' slot slot' ↔
      (kind.side = kind'.side ∧ kind'.gap = kind.gap + 2) ∧ slot'.toNat = slot.toNat + 1 := by
  refine and_congr_left ?_
  intro _
  cases kind <;> cases kind' <;> simp [Kind.side, Kind.gap]

section Standard

variable {count : UInt16} {slot slot' : Slot} {kind kind' : Kind}

/-- On the same side the integers are equal if the scaled slots differ as the gaps do. -/
theorem exact_standard_eq_iff_of_side (hpos : kind.gap < scaledSlot count slot)
    (hpos' : kind'.gap < scaledSlot count slot') :
    Table.standard.exact count slot kind = Table.standard.exact count slot' kind' ↔
      kind.side = kind'.side ∧
        scaledSlot count slot + kind'.gap = scaledSlot count slot' + kind.gap := by
  rw [exact_standard, exact_standard]
  rcases kind.side_eq with hside | hside <;> rcases kind'.side_eq with hside' | hside' <;>
    rw [hside, hside'] <;> omega

/-- **Two integers are equal for one cache, or where two caches meet.** -/
theorem exact_standard_eq_iff (hcount : 2 ≤ count.toNat / 2)
    (hpos : kind.gap < scaledSlot count slot) (hpos' : kind'.gap < scaledSlot count slot') :
    Table.standard.exact count slot kind = Table.standard.exact count slot' kind' ↔
      kind = kind' ∧ slot = slot' ∨
        count.toNat / 2 = 2 ∧ (Meets kind kind' slot slot' ∨ Meets kind' kind slot' slot) := by
  rw [exact_standard_eq_iff_of_side hpos hpos']
  constructor
  · rintro ⟨hside, hequal⟩
    rcases Nat.lt_trichotomy slot.toNat slot'.toNat with hlt | heq | hlt
    · obtain ⟨hhalf, hslot, hgap⟩ :=
        neighbours_of_lt hcount hlt kind'.gap_le hequal.symm
      exact .inr ⟨hhalf, .inl (meets_iff.2 ⟨⟨hside, hgap⟩, hslot⟩)⟩
    · have hslots : slot = slot' := UInt16.toNat_inj.1 heq
      subst hslots
      exact .inl ⟨Kind.eq_of_side_of_gap hside (by omega), rfl⟩
    · obtain ⟨hhalf, hslot, hgap⟩ := neighbours_of_lt hcount hlt kind.gap_le hequal
      exact .inr ⟨hhalf, .inr (meets_iff.2 ⟨⟨hside.symm, hgap⟩, hslot⟩)⟩
  · rintro (⟨rfl, rfl⟩ | ⟨hhalf, hmeets | hmeets⟩)
    · exact ⟨rfl, rfl⟩
    · obtain ⟨⟨hside, hgap⟩, hslot⟩ := meets_iff.1 hmeets
      refine ⟨hside, ?_⟩
      rw [scaledSlot, scaledSlot, hhalf]
      omega
    · obtain ⟨⟨hside, hgap⟩, hslot⟩ := meets_iff.1 hmeets
      refine ⟨hside.symm, ?_⟩
      rw [scaledSlot, scaledSlot, hhalf]
      omega

/-- All signs of the table of every deployment are right. -/
theorem hasSign_standard (kind : Kind) : (Table.standard.spec kind).HasSign := by
  cases kind <;> decide

/-- **The caches that share a mux id.**  With the table of every deployment and four indexed caches
or more, the ids of two caches at slots from two on are equal only if it is the same cache, or if
half the number of indexed caches is two and one cache meets the other at the next slot.  With six
indexed caches or more no two caches share an id, whatever their slots. -/
theorem standard_ids_eq_iff {id id' : Int16}
    (hid : Table.standard.muxId kind slot count = .ok id)
    (hid' : Table.standard.muxId kind' slot' count = .ok id') :
    (4 ≤ count → 2 ≤ slot → 2 ≤ slot' →
      (id = id' ↔ kind = kind' ∧ slot = slot' ∨
        count / 2 = 2 ∧ (Meets kind kind' slot slot' ∨ Meets kind' kind slot' slot))) ∧
    (6 ≤ count → 1 ≤ slot → 1 ≤ slot' → (id = id' ↔ kind = kind' ∧ slot = slot')) := by
  have hexact := (Table.hasId_iff (hasSign_standard kind)).1 hid
  have hexact' := (Table.hasId_iff (hasSign_standard kind')).1 hid'
  have hhalf : count / 2 = 2 ↔ count.toNat / 2 = 2 := by
    rw [← UInt16.toNat_inj, UInt16.toNat_div]
    rfl
  have hgap := kind.gap_le
  have hgap' := kind'.gap_le
  rw [← Int16.toInt_inj, ← hexact, ← hexact', hhalf]
  constructor
  · intro hcount hslot hslot'
    rw [UInt16.le_iff_toNat_le] at hcount hslot hslot'
    have hstep : 2 ≤ count.toNat / 2 := by
      change 4 ≤ count.toNat at hcount
      omega
    have hfar : 2 * 2 ≤ scaledSlot count slot := Nat.mul_le_mul hstep hslot
    have hfar' : 2 * 2 ≤ scaledSlot count slot' := Nat.mul_le_mul hstep hslot'
    exact exact_standard_eq_iff hstep (by omega) (by omega)
  · intro hcount hslot hslot'
    rw [UInt16.le_iff_toNat_le] at hcount hslot hslot'
    have hstep : 3 ≤ count.toNat / 2 := by
      change 6 ≤ count.toNat at hcount
      omega
    have hfar : 3 * 1 ≤ scaledSlot count slot := Nat.mul_le_mul hstep hslot
    have hfar' : 3 * 1 ≤ scaledSlot count slot' := Nat.mul_le_mul hstep hslot'
    rw [exact_standard_eq_iff (by omega) (by omega) (by omega)]
    constructor
    · rintro (hsame | ⟨htwo, -⟩)
      · exact hsame
      · omega
    · exact .inl

theorem standard_ids_shared :
    Table.standard.muxId .prospectiveSearch 2 5 = .ok (-4) ∧
      Table.standard.muxId .channel 3 5 = .ok (-4) ∧
      ((5 : UInt16) / 2 = 2 ∧ (Meets .prospectiveSearch .channel 2 3 ∨
        Meets .channel .prospectiveSearch 3 2)) ∧
      Table.standard.muxId .tasks 2 6 = .ok 6 ∧ Table.standard.muxId .logs 3 6 = .ok 7 ∧
      ((6 : Int16) = 7 ↔ Kind.tasks = .logs ∧ (2 : Slot) = 3) := by
  have hprospective : Table.standard.muxId .prospectiveSearch 2 5 = .ok (-4) := by rfl
  have hchannel : Table.standard.muxId .channel 3 5 = .ok (-4) := by rfl
  have htasks : Table.standard.muxId .tasks 2 6 = .ok 6 := by rfl
  have hlogs : Table.standard.muxId .logs 3 6 = .ok 7 := by rfl
  obtain ⟨hfive, -⟩ := standard_ids_eq_iff hprospective hchannel
  obtain ⟨-, hsix⟩ := standard_ids_eq_iff htasks hlogs
  refine ⟨hprospective, hchannel, ?_, htasks, hlogs, hsix (by decide) (by decide) (by decide)⟩
  rcases (hfive (by decide) (by decide) (by decide)).1 rfl with ⟨hkind, -⟩ | hmeets
  · cases hkind
  · exact hmeets

end Standard

end Tenancy.Cache
