/-
**File names of records.**

A directory keeps the ledger of each key in a file of its own.  The name is built octet by octet
from the key: a letter, a digit, a low line or a hyphen stands for itself, any other octet is
written as a percent sign and two capital hexadecimal digits.  A draft is written beside the file
and then takes its place.

Main definitions:

* `Tenancy.Store.isPlain`, `Tenancy.Store.escapeOctet` — the octets that stand for themselves, and
  the written form of an octet;
* `Tenancy.Store.stem` — the written form of a key;
* `Tenancy.Store.recordFile`, `Tenancy.Store.draftFile` — **the names of a key's file and draft**;
* `Tenancy.Store.maxFileName` — how many octets a name may have.

Main results:

* `Tenancy.Store.unescape_escape` — **the octets of a key can be read off its written form**, so two
  keys never share a file.
-/

import Tenancy.Octets.Utf8

set_option relaxedAutoImplicit false
set_option autoImplicit false

namespace Tenancy.Store

/-! ### The written form of a key -/

/-- Whether an octet stands for itself: an ASCII letter or digit, a low line or a hyphen. -/
def isPlain (b : UInt8) : Bool :=
  let n := b.toNat
  (0x30 ≤ n && n ≤ 0x39) || (0x41 ≤ n && n ≤ 0x5A) || (0x61 ≤ n && n ≤ 0x7A) ||
    n == 0x5F || n == 0x2D

/-- A capital hexadecimal digit. -/
def hexDigit (n : Nat) : Char := Char.ofNat (if n < 10 then 0x30 + n else 0x37 + n)

/-- The written form of an octet. -/
def escapeOctet (b : UInt8) : List Char :=
  if isPlain b then [Char.ofNat b.toNat]
  else ['%', hexDigit (b.toNat / 16), hexDigit (b.toNat % 16)]

/-- The written form of octets. -/
def escape (bs : Octets) : List Char := bs.flatMap escapeOctet

/-- The written form of a key. -/
def stem (key : String) : List Char := escape (Utf8.encode key)

/-! ### Names -/

/-- **The name of the file that holds the ledger of a key.** -/
def recordFile (key : String) : String := String.ofList (stem key ++ ['.', 'b', 'i', 'n'])

/-- The name under which a new content is written before it takes the place of the file.  The
extension of the file's name is replaced; the file of the empty key has a name without a stem, which
is kept whole. -/
def draftFile (key : String) : String :=
  if stem key = [] then ".bin.tmp" else String.ofList (stem key ++ ['.', 't', 'm', 'p'])

/-- How many octets a file name may have. -/
def maxFileName : Nat := 255

/-- Whether the name of a key's file is short enough.  Its characters are ASCII, so that their
number is the number of its octets. -/
def HasFile (key : String) : Prop := (recordFile key).length ≤ maxFileName

instance (key : String) : Decidable (HasFile key) := inferInstanceAs (Decidable (_ ≤ _))

/-! ### The octets of a key can be read off its written form -/

/-- The number of a capital hexadecimal digit. -/
def hexValue (c : Char) : Nat := if c.toNat < 0x41 then c.toNat - 0x30 else c.toNat - 0x37

/-- The octets of a written form. -/
def unescape : List Char → Octets
  | '%' :: high :: low :: rest => UInt8.ofNat (16 * hexValue high + hexValue low) :: unescape rest
  | c :: rest => UInt8.ofNat c.toNat :: unescape rest
  | [] => []

/-- The character of an octet that stands for itself has the number of the octet, and is no percent
sign. -/
theorem ofNat_toNat_of_plain {b : UInt8} (h : isPlain b = true) :
    (Char.ofNat b.toNat).toNat = b.toNat ∧ Char.ofNat b.toNat ≠ '%' := by
  simp only [isPlain, Bool.or_eq_true, Bool.and_eq_true, decide_eq_true_eq, beq_iff_eq] at h
  have hn : (Char.ofNat b.toNat).toNat = b.toNat := by
    have hv : b.toNat.isValidChar := .inl (by omega)
    rw [Char.ofNat, dif_pos hv]
    rfl
  refine ⟨hn, fun he => ?_⟩
  have hp : b.toNat = 0x25 := by rw [← hn, he]; rfl
  omega

theorem hexValue_hexDigit {n : Nat} (h : n < 16) : hexValue (hexDigit n) = n := by
  have hall : ∀ n < 16, hexValue (hexDigit n) = n := by decide
  exact hall n h

/-- An octet's written form is read back, whatever follows it. -/
theorem unescape_escapeOctet (b : UInt8) (rest : List Char) :
    unescape (escapeOctet b ++ rest) = b :: unescape rest := by
  by_cases h : isPlain b = true
  · obtain ⟨hn, hp⟩ := ofNat_toNat_of_plain h
    simp only [escapeOctet, h, if_true, List.cons_append, List.nil_append]
    rw [unescape]
    · rw [hn, UInt8.ofNat_toNat]
    · intro _ _ _ he _
      exact hp he
  · have hb : b.toNat < 256 := b.toNat_lt
    simp only [escapeOctet, if_neg h, List.cons_append, List.nil_append, unescape]
    rw [hexValue_hexDigit (by omega), hexValue_hexDigit (by omega), Nat.div_add_mod,
      UInt8.ofNat_toNat]

/-- **The octets can be read off their written form.** -/
theorem unescape_escape (bs : Octets) : unescape (escape bs) = bs := by
  induction bs with
  | nil => rfl
  | cons b bs ih =>
      rw [escape, List.flatMap_cons, unescape_escapeOctet]
      exact congrArg (b :: ·) ih

end Tenancy.Store
