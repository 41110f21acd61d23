/-
**Quoted text.**

How a name is shown inside a message: between double quotes, with the characters that would be
misread or not be seen written as escapes.  A double quote and a backslash follow a backslash; NUL,
tab, line feed and carriage return have a letter each; any other character that does not print by
itself is shown by its number in hexadecimal.  A single quote stands for itself.

Main definitions:

* `Tenancy.Text.hexDigits` — a number in lower case hexadecimal without leading zeros;
* `Tenancy.Text.escape` — the written form of one character;
* `Tenancy.Text.quoted` — **the written form of a text**.
-/

import Tenancy.Text.Printable

set_option relaxedAutoImplicit false
set_option autoImplicit false

namespace Tenancy.Text

/-- A number in lower case hexadecimal, without leading zeros. -/
def hexDigits (n : Nat) : List Char := Nat.toDigits 16 n

/-- The written form of one character inside double quotes. -/
def escape (c : Char) : List Char :=
  if c = '"' ∨ c = '\\' then ['\\', c]
  else if c = '\x00' then ['\\', '0']
  else if c = '\t' then ['\\', 't']
  else if c = '\n' then ['\\', 'n']
  else if c = '\r' then ['\\', 'r']
  else if isPrintable c then [c]
  else ['\\', 'u', '\x7b'] ++ hexDigits c.toNat ++ ['\x7d']

/-- **A text between double quotes**, every character in its written form. -/
def quoted (s : String) : String :=
  String.ofList ('"' :: s.toList.flatMap escape ++ ['"'])

/-- A printable character that is neither a double quote nor a backslash is written as it is. -/
theorem escape_of_printable {c : Char} (h : isPrintable c = true) (hq : c ≠ '"') (hb : c ≠ '\\') :
    escape c = [c] := by
  have h0 : c ≠ '\x00' := by rintro rfl; exact absurd h (by decide)
  have ht : c ≠ '\t' := by rintro rfl; exact absurd h (by decide)
  have hn : c ≠ '\n' := by rintro rfl; exact absurd h (by decide)
  have hr : c ≠ '\r' := by rintro rfl; exact absurd h (by decide)
  simp [escape, h, hq, hb, h0, ht, hn, hr]

example : quoted "tenant\t\"x\"" = "\"tenant\\t\\\"x\\\"\"" := by decide

end Tenancy.Text
