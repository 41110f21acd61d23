/-
**Mux ids.**

All caches of all tenants share one group channel, on which each is told apart by its mux id.  The
id follows from the tenant's slot, the sign and the offset of the cache's kind and the number of
indexed caches: half that number times the slot times the sign, plus the offset.  It is computed in
words of 32 bits and must fit in 16; an id that does not fit is refused, never wrapped.

Main definitions:

* `Tenancy.Cache.scale` — half the number of indexed caches;
* `Tenancy.Cache.rawMuxId` — the id as a word of 32 bits;
* `Tenancy.Cache.muxId` — **the id of a cache, or the overflow**.

Main results:

* `Tenancy.Cache.muxId_eq_ok`, `Tenancy.Cache.muxId_eq_error` — an id is the 32 bit word exactly
  when that lies within 16 bits.
-/

import Tenancy.Failure

set_option relaxedAutoImplicit false
set_option autoImplicit false

namespace Tenancy

/-- A tenant's place in the shared space of mux ids. -/
abbrev Slot := UInt16

namespace Cache

/-- Half the number of indexed caches: the distance between neighbouring slots. -/
def scale (count : UInt16) : UInt16 := count / 2

/-- The id of a cache before it is cut to 16 bits. -/
def rawMuxId (slot : Slot) (sign offset : Int8) (count : UInt16) : Int32 :=
  Int32.ofNat (scale count).toNat * Int32.ofNat slot.toNat * sign.toInt32 + offset.toInt32

/-- Whether a word of 32 bits fits in 16. -/
def FitsMuxId (raw : Int32) : Prop := -32768 ≤ raw.toInt ∧ raw.toInt ≤ 32767

instance (raw : Int32) : Decidable (FitsMuxId raw) := inferInstanceAs (Decidable (_ ∧ _))

/-- **The mux id of a cache**, unless it does not fit in 16 bits. -/
def muxId (slot : Slot) (sign offset : Int8) (count : UInt16) : Except Failure Int16 :=
  let raw := rawMuxId slot sign offset count
  if FitsMuxId raw then .ok raw.toInt16 else .error (.muxIdOverflow slot sign offset)

theorem muxId_eq_ok {slot : Slot} {sign offset : Int8} {count : UInt16}
    (h : FitsMuxId (rawMuxId slot sign offset count)) :
    muxId slot sign offset count = .ok (rawMuxId slot sign offset count).toInt16 := by
  simp [muxId, h]

theorem muxId_eq_error {slot : Slot} {sign offset : Int8} {count : UInt16}
    (h : ¬ FitsMuxId (rawMuxId slot sign offset count)) :
    muxId slot sign offset count = .error (.muxIdOverflow slot sign offset) := by
  simp [muxId, h]

example : muxId 3 (-1) 2 4 = .ok (-4) := rfl
example : muxId 16384 1 0 4 = .error (.muxIdOverflow 16384 1 0) := rfl

end Cache

end Tenancy
