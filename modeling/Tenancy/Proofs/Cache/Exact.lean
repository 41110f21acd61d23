/-
**Mux ids as exact integers.**

The mux id of a cache is computed in words of 16 and of 32 bits.  The computation has four results
on its way: half the number of indexed caches, that times the slot, that times the sign, and the sum
with the offset.  A word is the integer that the formula stands for as long as each of these results
is one that 32 bits can hold.  The largest that can come up with a sign of -1, 0 or 1 is less than a
hundred thousand away from the end of 32 bits, so that nothing wraps with these signs; with any other
sign something does, at the last slot of the largest number of caches.  An id exists exactly if the
integer lies within 16 bits, and it is this integer then.

Main definitions:

* `Tenancy.Cache.exactMuxId` — **the integer that the formula stands for**;
* `Tenancy.Cache.FitsWord` — an integer that a word of 32 bits can hold;
* `Tenancy.Cache.wordSteps`, `Tenancy.Cache.exactSteps` — the results on the way to a mux id, as
  words and as integers;
* `Tenancy.Cache.Spec.exact`, `Tenancy.Cache.Spec.Fits` — the integer of a spec at a slot, and
  whether it lies within 16 bits.

Main results:

* `Tenancy.Cache.map_toInt_wordSteps_iff` — the words are the integers exactly if a word can hold
  each of them;
* `Tenancy.Cache.forall_fitsWord_iff` — **the signs with which nothing wraps** are -1, 0 and 1;
* `Tenancy.Cache.muxId_eq_ok_iff`, `Tenancy.Cache.muxId_eq_error_iff` — when there is an id, and what
  goes wrong otherwise;
* `Tenancy.Cache.muxId_never_wraps` — **what a host may rely on when it computes an id**.
-/

import Tenancy.Cache.Table

set_option relaxedAutoImplicit false
set_option autoImplicit false

namespace Tenancy.Cache

/-- **The integer that stands for a mux id**: half the number of indexed caches times the slot times
the sign, plus the offset. -/
def exactMuxId (slot : Slot) (sign offset : Int8) (count : UInt16) : Int :=
  (count.toNat / 2 * slot.toNat : Nat) * sign.toInt + offset.toInt

/-! ### Words of 32 bits -/

/-- An integer that a word of 32 bits can hold. -/
def FitsWord (n : Int) : Prop := -2147483648 ≤ n ∧ n ≤ 2147483647

instance (n : Int) : Decidable (FitsWord n) := inferInstanceAs (Decidable (_ ∧ _))

theorem fitsWord_toInt (w : Int32) : FitsWord w.toInt := by
  have hsmall := w.le_toInt
  have hlarge := w.toInt_lt
  exact ⟨by omega, by omega⟩

/-- A product is exact if a word can hold it, and only then. -/
theorem toInt_mul_iff {a b : Int32} :
    (a * b).toInt = a.toInt * b.toInt ↔ FitsWord (a.toInt * b.toInt) := by
  constructor
  · intro h
    rw [← h]
    exact fitsWord_toInt (a * b)
  · rintro ⟨hsmall, hlarge⟩
    rw [Int32.toInt_mul]
    exact Int.bmod_eq_of_le (by omega) (by omega)

/-- A sum is exact if a word can hold it, and only then. -/
theorem toInt_add_iff {a b : Int32} :
    (a + b).toInt = a.toInt + b.toInt ↔ FitsWord (a.toInt + b.toInt) := by
  constructor
  · intro h
    rw [← h]
    exact fitsWord_toInt (a + b)
  · rintro ⟨hsmall, hlarge⟩
    rw [Int32.toInt_add]
    exact Int.bmod_eq_of_le (by omega) (by omega)

/-- A word of 16 bits without a sign is widened as it is. -/
theorem toInt_widen (w : UInt16) : (Int32.ofNat w.toNat).toInt = w.toNat := by
  have hlt := w.toNat_lt
  exact Int32.toInt_ofNat_of_lt (by omega)

/-! ### The results on the way to a mux id -/

/-- The results of the formula in the order in which they come up, over any kind of numbers. -/
def steps {α : Type} [Mul α] [Add α] (half slot sign offset : α) : List α :=
  [half, half * slot, half * slot * sign, half * slot * sign + offset]

/-- **The words** that are computed on the way to a mux id. -/
def wordSteps (slot : Slot) (sign offset : Int8) (count : UInt16) : List Int32 :=
  steps (Int32.ofNat (scale count).toNat) (Int32.ofNat slot.toNat) sign.toInt32 offset.toInt32

/-- **The integers** that these words stand for. -/
def exactSteps (slot : Slot) (sign offset : Int8) (count : UInt16) : List Int :=
  steps (count.toNat / 2 : Nat) slot.toNat sign.toInt offset.toInt

/-- The results in words are those in integers exactly if a word can hold each of these. -/
theorem map_toInt_steps_iff {half slot sign offset : Int32} :
    (steps half slot sign offset).map Int32.toInt =
        steps half.toInt slot.toInt sign.toInt offset.toInt ↔
      ∀ n ∈ steps half.toInt slot.toInt sign.toInt offset.toInt, FitsWord n := by
  constructor
  · intro h n hn
    rw [← h] at hn
    obtain ⟨w, -, rfl⟩ := List.mem_map.1 hn
    exact fitsWord_toInt w
  · intro h
    simp only [steps, List.forall_mem_cons] at h
    obtain ⟨-, hscaled, hsigned, hsum, -⟩ := h
    -- A result is exact once the one before it is.
    have hscaled' : (half * slot).toInt = half.toInt * slot.toInt := toInt_mul_iff.2 hscaled
    have hsigned' : (half * slot * sign).toInt = half.toInt * slot.toInt * sign.toInt := by
      rw [← hscaled'] at hsigned ⊢
      exact toInt_mul_iff.2 hsigned
    have hsum' : (half * slot * sign + offset).toInt =
        half.toInt * slot.toInt * sign.toInt + offset.toInt := by
      rw [← hsigned'] at hsum ⊢
      exact toInt_add_iff.2 hsum
    simp only [steps, List.map_cons, List.map_nil, hscaled', hsigned', hsum']

section Steps

variable {slot : Slot} {sign offset : Int8} {count : UInt16}

/-- The last of the words is the mux id before it is cut. -/
theorem getLast?_wordSteps :
    (wordSteps slot sign offset count).getLast? = some (rawMuxId slot sign offset count) := rfl

/-- The last of the integers is the one that stands for the mux id. -/
theorem getLast?_exactSteps :
    (exactSteps slot sign offset count).getLast? = some (exactMuxId slot sign offset count) := by
  rw [exactMuxId, Int.natCast_mul]
  rfl

/-- Nothing is lost when the arguments are made words. -/
theorem exactSteps_eq : exactSteps slot sign offset count =
    steps (Int32.ofNat (scale count).toNat).toInt (Int32.ofNat slot.toNat).toInt
      sign.toInt32.toInt offset.toInt32.toInt := by
  have hhalf : (scale count).toNat = count.toNat / 2 := UInt16.toNat_div count 2
  rw [toInt_widen, toInt_widen, hhalf, Int8.toInt_toInt32, Int8.toInt_toInt32]
  rfl

/-- **The words are the integers exactly if a word can hold each of them.** -/
theorem map_toInt_wordSteps_iff :
    (wordSteps slot sign offset count).map Int32.toInt = exactSteps slot sign offset count ↔
      ∀ n ∈ exactSteps slot sign offset count, FitsWord n := by
  rw [exactSteps_eq]
  exact map_toInt_steps_iff

/-! ### Signs with which nothing wraps -/

/-- Half of a count times a slot is far from the end of 32 bits. -/
theorem half_mul_slot_le (slot : Slot) (count : UInt16) :
    count.toNat / 2 * slot.toNat ≤ 2147385345 := by
  have hcount := count.toNat_lt
  have hslot := slot.toNat_lt
  have hhalf : count.toNat / 2 ≤ 32767 := by omega
  exact Nat.mul_le_mul hhalf (by omega : slot.toNat ≤ 65535)

/-- With a sign of -1, 0 or 1 a word can hold every result. -/
theorem fitsWord_of_mem_exactSteps (hsign : sign = -1 ∨ sign = 0 ∨ sign = 1) :
    ∀ n ∈ exactSteps slot sign offset count, FitsWord n := by
  have hcount := count.toNat_lt
  have hbound := half_mul_slot_le slot count
  have hsmall := offset.le_toInt
  have hlarge := offset.toInt_lt
  have hunit : sign.toInt = -1 ∨ sign.toInt = 0 ∨ sign.toInt = 1 := by
    rcases hsign with rfl | rfl | rfl <;> decide
  have hsigned : -2147385345 ≤ (count.toNat / 2 * slot.toNat : Nat) * sign.toInt ∧
      (count.toNat / 2 * slot.toNat : Nat) * sign.toInt ≤ 2147385345 := by
    rcases hunit with h | h | h <;> rw [h] <;> omega
  simp only [exactSteps, steps, ← Int.natCast_mul, List.forall_mem_cons, FitsWord]
  refine ⟨⟨by omega, by omega⟩, ⟨by omega, by omega⟩, ⟨by omega, by omega⟩,
    ⟨by omega, by omega⟩, ?_⟩
  intro n hn
  exact (List.not_mem_nil hn).elim

/-- With any other sign the last slot of the largest number of caches is beyond 32 bits. -/
theorem sign_of_fitsWord (h : ∀ n ∈ exactSteps 65535 sign 0 65535, FitsWord n) :
    sign = -1 ∨ sign = 0 ∨ sign = 1 := by
  have hsigned : FitsWord (2147385345 * sign.toInt) :=
    h (2147385345 * sign.toInt) (by simp [exactSteps, steps])
  obtain ⟨hsmall, hlarge⟩ := hsigned
  have hunit : sign.toInt = -1 ∨ sign.toInt = 0 ∨ sign.toInt = 1 := by omega
  simp only [← Int8.toInt_inj]
  exact hunit

/-- **The signs with which nothing wraps** at any slot are -1, 0 and 1: just those that the check of
a table lets pass. -/
theorem forall_fitsWord_iff :
    (∀ (slot : Slot) (offset : Int8) (count : UInt16),
      ∀ n ∈ exactSteps slot sign offset count, FitsWord n) ↔
      sign = -1 ∨ sign = 0 ∨ sign = 1 := by
  constructor
  · intro h
    exact sign_of_fitsWord (h 65535 0 65535)
  · intro hsign slot offset count
    exact fitsWord_of_mem_exactSteps hsign

/-! ### Ids of 16 bits -/

/-- The word of 32 bits is the exact integer if nothing wraps on the way. -/
theorem toInt_rawMuxId (hfits : ∀ n ∈ exactSteps slot sign offset count, FitsWord n) :
    (rawMuxId slot sign offset count).toInt = exactMuxId slot sign offset count := by
  have hlast := congrArg List.getLast? (map_toInt_wordSteps_iff.2 hfits)
  rw [List.getLast?_map, getLast?_wordSteps, getLast?_exactSteps] at hlast
  exact Option.some.inj hlast

/-- The word of 32 bits fits in 16 exactly if the integer does. -/
theorem fitsMuxId_iff (hfits : ∀ n ∈ exactSteps slot sign offset count, FitsWord n) :
    FitsMuxId (rawMuxId slot sign offset count) ↔
      -32768 ≤ exactMuxId slot sign offset count ∧ exactMuxId slot sign offset count ≤ 32767 := by
  rw [FitsMuxId, toInt_rawMuxId hfits]

/-- **There is an id exactly if it is the integer.** -/
theorem muxId_eq_ok_iff {id : Int16}
    (hfits : ∀ n ∈ exactSteps slot sign offset count, FitsWord n) :
    muxId slot sign offset count = .ok id ↔ exactMuxId slot sign offset count = id.toInt := by
  by_cases hid : FitsMuxId (rawMuxId slot sign offset count)
  · have hword : (rawMuxId slot sign offset count).toInt16.toInt =
        exactMuxId slot sign offset count := by
      obtain ⟨hsmall, hlarge⟩ := (fitsMuxId_iff hfits).1 hid
      rw [Int32.toInt_toInt16, toInt_rawMuxId hfits]
      exact Int.bmod_eq_of_le (by omega) (by omega)
    rw [muxId_eq_ok hid, Except.ok.injEq, ← hword, Int16.toInt_inj]
  · rw [muxId_eq_error hid]
    constructor
    · intro h
      cases h
    · intro h
      have hsmall := id.le_toInt
      have hlarge := id.toInt_lt
      rw [← h] at hsmall hlarge
      exact absurd ((fitsMuxId_iff hfits).2 ⟨by omega, by omega⟩) hid

/-- **There is no id exactly if the integer does not lie within 16 bits**, which is what is
reported. -/
theorem muxId_eq_error_iff {failure : Failure}
    (hfits : ∀ n ∈ exactSteps slot sign offset count, FitsWord n) :
    muxId slot sign offset count = .error failure ↔
      ¬ (-32768 ≤ exactMuxId slot sign offset count ∧
          exactMuxId slot sign offset count ≤ 32767) ∧
        failure = .muxIdOverflow slot sign offset := by
  rw [← fitsMuxId_iff hfits]
  by_cases hid : FitsMuxId (rawMuxId slot sign offset count)
  · rw [muxId_eq_ok hid]
    constructor
    · intro h
      cases h
    · intro h
      exact absurd hid h.1
  · rw [muxId_eq_error hid, Except.error.injEq]
    constructor
    · intro h
      exact ⟨hid, h.symm⟩
    · intro h
      exact h.2.symm

end Steps

/-- **What a host may rely on when it computes an id** with a sign of -1, 0 or 1.  The words on the
way, of which the last is the id before it is cut, are the integers that they stand for, and all of
these lie within 32 bits.  The id is the integer that the formula stands for, if that lies within 16
bits, and otherwise an overflow is reported. -/
theorem muxId_never_wraps (slot : Slot) (sign offset : Int8) (count : UInt16)
    (hsign : sign = -1 ∨ sign = 0 ∨ sign = 1) :
    (wordSteps slot sign offset count).getLast? = some (rawMuxId slot sign offset count) ∧
    (wordSteps slot sign offset count).map Int32.toInt = exactSteps slot sign offset count ∧
    (∀ n ∈ exactSteps slot sign offset count, -2147483648 ≤ n ∧ n ≤ 2147483647) ∧
    (∀ v : Int, (∃ id : Int16, id.toInt = v ∧ muxId slot sign offset count = .ok id) ↔
      exactMuxId slot sign offset count = v ∧ -32768 ≤ v ∧ v ≤ 32767) ∧
    ∀ failure : Failure, muxId slot sign offset count = .error failure ↔
      ¬ (-32768 ≤ exactMuxId slot sign offset count ∧
          exactMuxId slot sign offset count ≤ 32767) ∧
        failure = .muxIdOverflow slot sign offset := by
  have hfits : ∀ n ∈ exactSteps slot sign offset count, FitsWord n :=
    fitsWord_of_mem_exactSteps hsign
  refine ⟨getLast?_wordSteps, map_toInt_wordSteps_iff.2 hfits, hfits, ?_, ?_⟩
  · intro v
    constructor
    · rintro ⟨id, rfl, hid⟩
      have hsmall := id.le_toInt
      have hlarge := id.toInt_lt
      exact ⟨(muxId_eq_ok_iff hfits).1 hid, by omega, by omega⟩
    · rintro ⟨hexact, hsmall, hlarge⟩
      have hv : (Int16.ofInt v).toInt = v :=
        Int16.toInt_ofInt_of_le (by omega) (by omega)
      exact ⟨Int16.ofInt v, hv, (muxId_eq_ok_iff hfits).2 (hexact.trans hv.symm)⟩
  · intro failure
    exact muxId_eq_error_iff hfits

theorem muxId_never_wraps_farthest :
    ((-1 : Int8) = -1 ∨ (-1 : Int8) = 0 ∨ (-1 : Int8) = 1) ∧
      (wordSteps 65535 (-1) (-128) 65535).map Int32.toInt =
        [32767, 2147385345, -2147385345, -2147385473] ∧
      muxId 65535 (-1) (-128) 65535 = .error (.muxIdOverflow 65535 (-1) (-128)) ∧
      (∃ id : Int16, id.toInt = -32768 ∧ muxId 32767 (-1) (-1) 3 = .ok id) := by
  have hsign : (-1 : Int8) = -1 ∨ (-1 : Int8) = 0 ∨ (-1 : Int8) = 1 := .inl rfl
  obtain ⟨-, hsteps, -, -, herror⟩ := muxId_never_wraps 65535 (-1) (-128) 65535 hsign
  obtain ⟨-, -, -, hok, -⟩ := muxId_never_wraps 32767 (-1) (-1) 3 hsign
  exact ⟨hsign, hsteps, (herror _).2 ⟨by decide, rfl⟩, (hok (-32768)).2 (by decide)⟩

/-! ### Specs -/

namespace Spec

variable {s : Spec} {count : UInt16} {slot : Slot} {id : Int16}

/-- The integer that stands for the mux id, at a slot, of the kind that has this spec. -/
def exact (s : Spec) (count : UInt16) (slot : Slot) : Int :=
  exactMuxId slot s.sign s.offset count

/-- That integer lies within 16 bits. -/
def Fits (s : Spec) (count : UInt16) (slot : Slot) : Prop :=
  -32768 ≤ s.exact count slot ∧ s.exact count slot ≤ 32767

instance (s : Spec) (count : UInt16) (slot : Slot) : Decidable (s.Fits count slot) :=
  inferInstanceAs (Decidable (_ ∧ _))

/-- What is an id lies within 16 bits. -/
theorem fits_of_exact (h : s.exact count slot = id.toInt) : s.Fits count slot := by
  have hsmall := id.le_toInt
  have hlarge := id.toInt_lt
  rw [Fits, h]
  omega

/-- What fits is an id. -/
theorem Fits.exists_id (h : s.Fits count slot) : ∃ id : Int16, s.exact count slot = id.toInt := by
  obtain ⟨hsmall, hlarge⟩ := h
  refine ⟨Int16.ofInt (s.exact count slot), ?_⟩
  rw [Int16.toInt_ofInt_of_le (by omega) (by omega)]

/-- **A kind has an id exactly if that is the integer.** -/
theorem muxId_eq_ok_iff (hsign : s.HasSign) :
    s.muxId slot count = .ok id ↔ s.exact count slot = id.toInt :=
  Cache.muxId_eq_ok_iff (fitsWord_of_mem_exactSteps hsign)

/-- **A kind has no id exactly if the integer does not fit**, which is what is reported. -/
theorem muxId_eq_error_iff (hsign : s.HasSign) {failure : Failure} :
    s.muxId slot count = .error failure ↔
      ¬ s.Fits count slot ∧ failure = .muxIdOverflow slot s.sign s.offset :=
  Cache.muxId_eq_error_iff (fitsWord_of_mem_exactSteps hsign)

end Spec

end Tenancy.Cache
