/-
**Fixed-width words, least octet first.**

A natural number as a given number of octets, the least significant one first, and back.

Main definitions:

* `Tenancy.Octets` — a sequence of octets;
* `Tenancy.Octets.wordCount` — how many numbers fit in `width` octets;
* `Tenancy.Octets.ofWord` — a number as `width` octets;
* `Tenancy.Octets.toWord` — the number that octets stand for.

Main results:

* `Tenancy.Octets.toWord_ofWord` — **a number that fits is read back**;
* `Tenancy.Octets.ofWord_toWord` — **and octets are written back**, so the two forms correspond
  one to one;
* `Tenancy.Octets.toWord_lt` — a number that octets stand for fits in as many octets.
-/

set_option relaxedAutoImplicit false
set_option autoImplicit false

namespace Tenancy

/-- A sequence of octets. -/
abbrev Octets := List UInt8

namespace Octets

/-- How many numbers fit in `width` octets. -/
def wordCount : Nat → Nat
  | 0 => 1
  | width + 1 => 256 * wordCount width

/-- The lowest `width` octets of a number, least significant first. -/
def ofWord : Nat → Nat → Octets
  | 0, _ => []
  | width + 1, n => UInt8.ofNat (n % 256) :: ofWord width (n / 256)

/-- The number that octets, least significant first, stand for. -/
def toWord : Octets → Nat
  | [] => 0
  | b :: bs => b.toNat + 256 * toWord bs

theorem wordCount_eight : wordCount 8 = 18446744073709551616 := rfl

@[simp] theorem length_ofWord (width n : Nat) : (ofWord width n).length = width := by
  induction width generalizing n with
  | zero => rfl
  | succ width ih => simp [ofWord, ih]

/-- Reading back keeps the number modulo the width. -/
theorem toWord_ofWord_mod (width n : Nat) : toWord (ofWord width n) = n % wordCount width := by
  induction width generalizing n with
  | zero => simp [ofWord, toWord, wordCount, Nat.mod_one]
  | succ width ih =>
      have h : (UInt8.ofNat (n % 256)).toNat = n % 256 := by
        rw [UInt8.toNat_ofNat']; omega
      rw [ofWord, toWord, ih, h, wordCount, Nat.mod_mul]

/-- **A number that fits is read back.** -/
theorem toWord_ofWord {width n : Nat} (h : n < wordCount width) : toWord (ofWord width n) = n := by
  rw [toWord_ofWord_mod, Nat.mod_eq_of_lt h]

/-- A number that octets stand for fits in as many octets. -/
theorem toWord_lt (bs : Octets) : toWord bs < wordCount bs.length := by
  induction bs with
  | nil => simp [toWord, wordCount]
  | cons b bs ih =>
      have hb : b.toNat < 256 := b.toNat_lt
      rw [toWord, List.length_cons, wordCount]
      omega

/-- **Octets are written back.** -/
theorem ofWord_toWord (bs : Octets) : ofWord bs.length (toWord bs) = bs := by
  induction bs with
  | nil => rfl
  | cons b bs ih =>
      have hb : b.toNat < 256 := b.toNat_lt
      have hm : (b.toNat + 256 * toWord bs) % 256 = b.toNat := by omega
      have hd : (b.toNat + 256 * toWord bs) / 256 = toWord bs := by omega
      rw [List.length_cons, toWord, ofWord, hm, hd, ih, UInt8.ofNat_toNat]

end Octets

end Tenancy
