/-
**Text as octets.**

The UTF-8 form of a text and its strict reading.  The reader is a machine that takes one octet at a
time; it refuses overlong forms, surrogates and numbers above the last code point at the first octet
that rules them out, and it reports where the character began that could not be read and how many of
its octets were still in order.

Main definitions:

* `Tenancy.Utf8.encodeChar`, `Tenancy.Utf8.encode` — the octets of a character and of a text;
* `Tenancy.Utf8.Fault` — why octets are not a text;
* `Tenancy.Utf8.Pending`, `Tenancy.Utf8.lead` — the state of the machine inside a character, and
  the state after its first octet;
* `Tenancy.Utf8.decode` — **the strict reading**.

Main results:

* `Tenancy.Utf8.decodeFrom_encodeChar` — the machine reads one written character and goes on;
* `Tenancy.Utf8.decode_encode` — **a written text is read back**.
-/

import Tenancy.Octets.Word

set_option relaxedAutoImplicit false
set_option autoImplicit false

namespace Tenancy.Utf8

/-! ### Writing -/

/-- The octet with the given number. -/
private abbrev octet (n : Nat) : UInt8 := UInt8.ofNat n

/-- The octets of a character: one to four, by the size of its number. -/
def encodeChar (c : Char) : Octets :=
  let n := c.toNat
  if n < 0x80 then [octet n]
  else if n < 0x800 then [octet (0xC0 + n / 0x40), octet (0x80 + n % 0x40)]
  else if n < 0x10000 then
    [octet (0xE0 + n / 0x1000), octet (0x80 + n / 0x40 % 0x40), octet (0x80 + n % 0x40)]
  else
    [octet (0xF0 + n / 0x40000), octet (0x80 + n / 0x1000 % 0x40),
      octet (0x80 + n / 0x40 % 0x40), octet (0x80 + n % 0x40)]

/-- **The octets of a text.** -/
def encode (s : String) : Octets := s.toList.flatMap encodeChar

/-! ### Reading -/

/-- Why a sequence of octets is not a text. -/
inductive Fault where
  /-- The `length` octets from `start` on are no character and begin none. -/
  | invalid (length start : Nat)
  /-- The sequence ends inside the character that begins at `start`. -/
  | incomplete (start : Nat)
deriving DecidableEq, Repr

/-- The wording of a fault. -/
def Fault.message : Fault → String
  | .invalid length start => s!"invalid utf-8 sequence of {length} bytes from index {start}"
  | .incomplete start => s!"incomplete utf-8 byte sequence from index {start}"

/-- The state inside a character: how many octets are still `owed`, how many were `seen`, the bounds
of the next one and the `payload` collected so far. -/
structure Pending where
  owed : Nat
  seen : Nat
  low : Nat
  high : Nat
  payload : Nat
deriving DecidableEq, Repr

/-- The state after the first octet of a character of several octets. -/
def lead (b : Nat) : Option Pending :=
  if 0xC2 ≤ b ∧ b ≤ 0xDF then some ⟨1, 1, 0x80, 0xBF, b - 0xC0⟩
  else if 0xE0 ≤ b ∧ b ≤ 0xEF then
    some ⟨2, 1, if b = 0xE0 then 0xA0 else 0x80, if b = 0xED then 0x9F else 0xBF, b - 0xE0⟩
  else if 0xF0 ≤ b ∧ b ≤ 0xF4 then
    some ⟨3, 1, if b = 0xF0 then 0x90 else 0x80, if b = 0xF4 then 0x8F else 0xBF, b - 0xF0⟩
  else none

/-- The machine, with the character now being read beginning at `start`. -/
def decodeFrom (start : Nat) : Option Pending → Octets → Except Fault (List Char)
  | none, [] => .ok []
  | some _, [] => .error (.incomplete start)
  | none, b :: rest =>
      if b.toNat < 0x80 then
        (decodeFrom (start + 1) none rest).map (Char.ofNat b.toNat :: ·)
      else
        match lead b.toNat with
        | none => .error (.invalid 1 start)
        | some p => decodeFrom start (some p) rest
  | some p, b :: rest =>
      if p.low ≤ b.toNat ∧ b.toNat ≤ p.high then
        let payload := p.payload * 0x40 + (b.toNat - 0x80)
        if p.owed ≤ 1 then
          (decodeFrom (start + (p.seen + 1)) none rest).map (Char.ofNat payload :: ·)
        else decodeFrom start (some ⟨p.owed - 1, p.seen + 1, 0x80, 0xBF, payload⟩) rest
      else .error (.invalid p.seen start)

/-- **The text with the given octets**, or where and how they stop being one. -/
def decode (bs : Octets) : Except Fault String := (decodeFrom 0 none bs).map String.ofList

@[simp] theorem encode_empty : encode "" = [] := rfl

theorem encode_append (s t : String) : encode (s ++ t) = encode s ++ encode t := by
  simp [encode]

/-! ### What is written is read back -/

private theorem toNat_octet {n : Nat} (h : n < 256) : (octet n).toNat = n := by
  rw [UInt8.toNat_ofNat']; omega

/-- A character's number is a code point that is no surrogate. -/
theorem toNat_bounds (c : Char) : c.toNat < 0xD800 ∨ (0xDFFF < c.toNat ∧ c.toNat < 0x110000) :=
  c.valid

/-- The machine reads one written character and goes on behind it. -/
theorem decodeFrom_encodeChar (c : Char) (start : Nat) (rest : Octets) :
    decodeFrom start none (encodeChar c ++ rest) =
      (decodeFrom (start + (encodeChar c).length) none rest).map (c :: ·) := by
  have hv := toNat_bounds c
  generalize hn : c.toNat = n at hv
  have hc : Char.ofNat n = c := by rw [← hn, Char.ofNat_toNat]
  simp only [encodeChar, hn]
  split
  · rename_i h1
    simp only [List.cons_append, List.nil_append, decodeFrom, toNat_octet (n := n) (by omega), h1,
      if_true, hc, List.length_cons, List.length_nil]
  · split
    · rename_i h1 h2
      have ha : (octet (0xC0 + n / 0x40)).toNat = 0xC0 + n / 0x40 := toNat_octet (by omega)
      have hb : (octet (0x80 + n % 0x40)).toNat = 0x80 + n % 0x40 := toNat_octet (by omega)
      have hl : lead (0xC0 + n / 0x40) = some ⟨1, 1, 0x80, 0xBF, n / 0x40⟩ := by
        rw [lead, if_pos (by omega)]
        simp
      have hp : n / 0x40 * 0x40 + n % 0x40 = n := by omega
      simp only [List.cons_append, List.nil_append, decodeFrom, ha, hb, hl,
        if_neg (show ¬ 0xC0 + n / 0x40 < 0x80 by omega)]
      rw [if_pos (by omega)]
      simp [hp, hc]
    · split
      · rename_i h1 h2 h3
        have ha : (octet (0xE0 + n / 0x1000)).toNat = 0xE0 + n / 0x1000 := toNat_octet (by omega)
        have hb : (octet (0x80 + n / 0x40 % 0x40)).toNat = 0x80 + n / 0x40 % 0x40 :=
          toNat_octet (by omega)
        have hd : (octet (0x80 + n % 0x40)).toNat = 0x80 + n % 0x40 := toNat_octet (by omega)
        have hl : lead (0xE0 + n / 0x1000) =
            some ⟨2, 1, if 0xE0 + n / 0x1000 = 0xE0 then 0xA0 else 0x80,
              if 0xE0 + n / 0x1000 = 0xED then 0x9F else 0xBF, n / 0x1000⟩ := by
          rw [lead, if_neg (by omega), if_pos (by omega)]
          simp
        have hp : (n / 0x1000 * 0x40 + n / 0x40 % 0x40) * 0x40 + n % 0x40 = n := by omega
        simp only [List.cons_append, List.nil_append, decodeFrom, ha, hb, hd, hl,
          if_neg (show ¬ 0xE0 + n / 0x1000 < 0x80 by omega)]
        rw [if_pos (by split <;> split <;> omega)]
        simp only [Nat.add_sub_cancel_left]
        rw [if_neg (by omega), if_pos (by omega), if_pos (by omega)]
        simp [hp, hc]
      · rename_i h1 h2 h3
        have ha : (octet (0xF0 + n / 0x40000)).toNat = 0xF0 + n / 0x40000 :=
          toNat_octet (by omega)
        have hb : (octet (0x80 + n / 0x1000 % 0x40)).toNat = 0x80 + n / 0x1000 % 0x40 :=
          toNat_octet (by omega)
        have hd : (octet (0x80 + n / 0x40 % 0x40)).toNat = 0x80 + n / 0x40 % 0x40 :=
          toNat_octet (by omega)
        have he : (octet (0x80 + n % 0x40)).toNat = 0x80 + n % 0x40 := toNat_octet (by omega)
        have hl : lead (0xF0 + n / 0x40000) =
            some ⟨3, 1, if 0xF0 + n / 0x40000 = 0xF0 then 0x90 else 0x80,
              if 0xF0 + n / 0x40000 = 0xF4 then 0x8F else 0xBF, n / 0x40000⟩ := by
          rw [lead, if_neg (by omega), if_neg (by omega), if_pos (by omega)]
          simp
        have hp : ((n / 0x40000 * 0x40 + n / 0x1000 % 0x40) * 0x40 + n / 0x40 % 0x40) * 0x40 +
            n % 0x40 = n := by omega
        simp only [List.cons_append, List.nil_append, decodeFrom, ha, hb, hd, he, hl,
          if_neg (show ¬ 0xF0 + n / 0x40000 < 0x80 by omega)]
        rw [if_pos (by split <;> split <;> omega)]
        simp only [Nat.add_sub_cancel_left]
        rw [if_neg (by omega), if_pos (by omega), if_neg (by omega), if_pos (by omega),
          if_pos (by omega)]
        simp [hp, hc]

private theorem decodeFrom_flatMap (cs : List Char) (start : Nat) :
    decodeFrom start none (cs.flatMap encodeChar) = .ok cs := by
  induction cs generalizing start with
  | nil => rfl
  | cons c cs ih => rw [List.flatMap_cons, decodeFrom_encodeChar, ih]; rfl

/-- **A written text is read back.** -/
theorem decode_encode (s : String) : decode (encode s) = .ok s := by
  rw [decode, encode, decodeFrom_flatMap]
  simp [Except.map]

end Tenancy.Utf8
