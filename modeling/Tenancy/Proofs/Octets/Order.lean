/-
**Texts are ordered as their octets are.**

A character takes one to four octets, the first of which tells how many follow, and the others are
the digits of its number to the base 64.  A smaller character has a smaller first octet, or the same
one and smaller digits; so texts compare character by character as their forms do octet by octet.

Main definitions:

* `Tenancy.Utf8.followers` — the octets of a character behind its first one.

Main results:

* `Tenancy.Utf8.encode_eq_toByteArray` — **the octets of a text are those of the library**;
* `Tenancy.Utf8.encodeChar_append_lt` — a smaller character has smaller octets;
* `Tenancy.Utf8.encode_lt_iff` — **texts are ordered as their octets are**.
-/

import Tenancy.Proofs.Octets.Utf8
import Mathlib.Data.String.Basic

set_option relaxedAutoImplicit false
set_option autoImplicit false

namespace Tenancy.Utf8

variable {s t : String}

/-! ### The octets of the library -/

/-- The octets of a character are those of the library. -/
theorem encodeChar_eq_utf8EncodeChar (c : Char) : encodeChar c = String.utf8EncodeChar c := by
  have hbounds := toNat_bounds c
  have hn : c.val.toNat = c.toNat := rfl
  have h₂ : c.toNat < 0x800 → c.toNat / 64 % 0x20 + 0xC0 = 0xC0 + c.toNat / 64 := by omega
  have h₃ : c.toNat < 0x10000 → c.toNat / 4096 % 0x10 + 0xE0 = 0xE0 + c.toNat / 4096 := by omega
  have h₄ : c.toNat / 262144 % 0x08 + 0xF0 = 0xF0 + c.toNat / 262144 := by omega
  have hlast : ∀ n : Nat, n % 0x40 + 0x80 = 0x80 + n % 0x40 := fun n => Nat.add_comm ..
  simp only [encodeChar, String.utf8EncodeChar, hn, hlast, h₄]
  by_cases hone : c.toNat < 0x80
  · rw [if_pos hone, if_pos (show c.toNat ≤ 0x7f by omega)]
  · rw [if_neg hone, if_neg (show ¬ c.toNat ≤ 0x7f by omega)]
    by_cases htwo : c.toNat < 0x800
    · rw [if_pos htwo, if_pos (show c.toNat ≤ 0x7ff by omega), h₂ htwo]
    · rw [if_neg htwo, if_neg (show ¬ c.toNat ≤ 0x7ff by omega)]
      by_cases hthree : c.toNat < 0x10000
      · rw [if_pos hthree, if_pos (show c.toNat ≤ 0xffff by omega), h₃ hthree]
      · rw [if_neg hthree, if_neg (show ¬ c.toNat ≤ 0xffff by omega)]

/-- **The octets of a text are those of the library.** -/
theorem encode_eq_toByteArray (s : String) : encode s = s.toByteArray.data.toList := by
  have hchars : encodeChar = String.utf8EncodeChar := funext encodeChar_eq_utf8EncodeChar
  have hs : s.toByteArray = s.toList.utf8Encode := by
    rw [← String.toByteArray_ofList, String.ofList_toList]
  rw [encode, hs, List.utf8Encode, List.data_toByteArray, hchars]

theorem toUTF8_eq_encode (s : String) : s.toUTF8.data.toList = encode s := by
  rw [String.toUTF8_eq_toByteArray, encode_eq_toByteArray]

theorem length_encode (s : String) : (encode s).length = s.utf8ByteSize := by
  rw [encode_eq_toByteArray]
  rfl

/-! ### The order of characters -/

/-- The octets behind the first one: `k` digits to the base 64. -/
def followers : Nat → Nat → Octets
  | 0, _ => []
  | k + 1, n => UInt8.ofNat (0x80 + n / 0x40 ^ k % 0x40) :: followers k n

/-- Octets with known numbers, in front of what follows them. -/
theorem ofNat_cons_lt {m n : Nat} {r r' : Octets} (hm : m < 256) (hn : n < 256) (hle : m ≤ n)
    (h : m = n → r < r') : UInt8.ofNat m :: r < UInt8.ofNat n :: r' := by
  rw [List.cons_lt_cons_iff, UInt8.lt_iff_toNat_lt, UInt8.toNat_ofNat_of_lt' hm,
    UInt8.toNat_ofNat_of_lt' hn]
  rcases Nat.lt_or_eq_of_le hle with hlt | rfl
  · exact .inl hlt
  · exact .inr ⟨rfl, h rfl⟩

/-- Numbers that agree above their last `k` digits are told apart by these digits. -/
theorem followers_append_lt {k m n : Nat} (hlt : m < n) (hsame : m / 0x40 ^ k = n / 0x40 ^ k)
    (r r' : Octets) : followers k m ++ r < followers k n ++ r' := by
  -- induction on the number of digits, from the first of them on
  induction k with
  | zero =>
      rw [Nat.pow_zero, Nat.div_one, Nat.div_one] at hsame
      omega
  | succ k ih =>
      have hle : m / 0x40 ^ k ≤ n / 0x40 ^ k := Nat.div_le_div_right (Nat.le_of_lt hlt)
      rw [Nat.pow_succ, ← Nat.div_div_eq_div_mul, ← Nat.div_div_eq_div_mul] at hsame
      refine ofNat_cons_lt (by omega) (by omega) (by omega) fun hdigit => ih ?_
      omega

/-- A character is one octet that tells how many follow, and these. -/
theorem encodeChar_eq_cons (c : Char) :
    ∃ k lead, encodeChar c = UInt8.ofNat lead :: followers k c.toNat ∧
      (k = 0 ∧ lead = c.toNat ∧ c.toNat < 0x80 ∨
        k = 1 ∧ lead = 0xC0 + c.toNat / 0x40 ∧ 0x80 ≤ c.toNat ∧ c.toNat < 0x800 ∨
        k = 2 ∧ lead = 0xE0 + c.toNat / 0x1000 ∧ 0x800 ≤ c.toNat ∧ c.toNat < 0x10000 ∨
        k = 3 ∧ lead = 0xF0 + c.toNat / 0x40000 ∧ 0x10000 ≤ c.toNat ∧ c.toNat < 0x110000) := by
  have hbounds := toNat_bounds c
  simp only [encodeChar]
  split
  · exact ⟨0, _, rfl, by omega⟩
  · split
    · refine ⟨1, _, ?_, .inr (.inl ⟨rfl, rfl, by omega, by omega⟩)⟩
      simp [followers]
    · split
      · refine ⟨2, _, ?_, .inr (.inr (.inl ⟨rfl, rfl, by omega, by omega⟩))⟩
        simp [followers]
      · refine ⟨3, _, ?_, .inr (.inr (.inr ⟨rfl, rfl, by omega, by omega⟩))⟩
        simp [followers]

/-- **A smaller character has smaller octets**, whatever follows either. -/
theorem encodeChar_append_lt {c d : Char} (h : c < d) (r r' : Octets) :
    encodeChar c ++ r < encodeChar d ++ r' := by
  have hlt : c.toNat < d.toNat := h
  obtain ⟨k, lead, hc, hlead⟩ := encodeChar_eq_cons c
  obtain ⟨k', lead', hd, hlead'⟩ := encodeChar_eq_cons d
  rw [hc, hd]
  refine ofNat_cons_lt (by omega) (by omega) (by omega) fun hsame => ?_
  -- equal first octets: as many follow, and the numbers agree above these digits
  obtain rfl : k = k' := by omega
  refine followers_append_lt hlt ?_ r r'
  rcases hlead with ⟨rfl, h₀⟩ | ⟨rfl, h₁⟩ | ⟨rfl, h₂⟩ | ⟨rfl, h₃⟩ <;> omega

/-! ### The order of texts -/

theorem flatMap_encodeChar_lt {cs ds : List Char} (h : cs < ds) :
    cs.flatMap encodeChar < ds.flatMap encodeChar := by
  induction cs generalizing ds with
  | nil =>
      cases ds with
      | nil => exact (List.not_lt_nil _ h).elim
      | cons d ds =>
          have hpos := length_encodeChar_pos d
          cases hd : encodeChar d with
          | nil => simp [hd] at hpos
          | cons b bs =>
              rw [List.flatMap_cons, hd]
              exact List.nil_lt_cons ..
  | cons c cs ih =>
      cases ds with
      | nil => exact (List.not_lt_nil _ h).elim
      | cons d ds =>
          rw [List.flatMap_cons, List.flatMap_cons]
          rcases List.cons_lt_cons_iff.1 h with hlt | ⟨rfl, hrest⟩
          · exact encodeChar_append_lt hlt _ _
          · exact List.append_left_lt (ih hrest)

/-- **Texts are ordered as their octets are.** -/
theorem encode_lt_iff : encode s < encode t ↔ s < t := by
  have hlt : ∀ {s t : String}, s < t → encode s < encode t := fun h =>
    flatMap_encodeChar_lt (String.lt_iff_toList_lt.1 h)
  refine ⟨fun h => ?_, hlt⟩
  rcases lt_trichotomy s t with hst | rfl | hts
  · exact hst
  · exact (List.lt_irrefl _ h).elim
  · exact (List.lt_asymm h (hlt hts)).elim

theorem encode_le_iff : encode s ≤ encode t ↔ s ≤ t := by
  rw [← List.not_lt, ← String.not_lt, encode_lt_iff]

end Tenancy.Utf8
