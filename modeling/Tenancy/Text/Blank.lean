/-
**White space.**

Which characters separate words, and the three ways of cutting them off a text.  The class is the
Unicode property `White_Space`; it holds the ASCII blanks, the line ends and the typographic
spaces, but neither the zero width space nor the byte order mark.

Main definitions:

* `Tenancy.Text.isBlank` — the class;
* `Tenancy.Text.trimStart`, `Tenancy.Text.trimEnd`, `Tenancy.Text.trim` — a text without the
  blanks at its start, at its end, at both.

Main results:

* `Tenancy.Text.isBlank_of_isWhitespace` — every ASCII blank of the core library is in the class;
* `Tenancy.Text.trim_eq_self` — a text with a solid character at each end is left as it is.
-/

set_option relaxedAutoImplicit false
set_option autoImplicit false

namespace Tenancy.Text

/-! ### The class -/

/-- **The white space characters.** -/
def isBlank (c : Char) : Bool :=
  let n := c.toNat
  (9 ≤ n && n ≤ 13) || n == 0x20 || n == 0x85 || n == 0xA0 || n == 0x1680 ||
    (0x2000 ≤ n && n ≤ 0x200A) || n == 0x2028 || n == 0x2029 || n == 0x202F || n == 0x205F ||
    n == 0x3000

/-- The class contains the blanks of the core library. -/
theorem isBlank_of_isWhitespace {c : Char} (h : c.isWhitespace = true) : isBlank c = true := by
  simp only [Char.isWhitespace, Bool.or_eq_true, decide_eq_true_eq] at h
  rcases h with ((rfl | rfl) | rfl) | rfl <;> decide

theorem isBlank_newline : isBlank '\n' = true := by decide

/-! ### Cutting blanks off -/

/-- The text from its first solid character on. -/
def trimStart (cs : List Char) : List Char := cs.dropWhile isBlank

/-- The text up to its last solid character. -/
def trimEnd (cs : List Char) : List Char := (cs.reverse.dropWhile isBlank).reverse

/-- The text between its first and its last solid character. -/
def trim (cs : List Char) : List Char := trimEnd (trimStart cs)

@[simp] theorem trimStart_nil : trimStart [] = [] := rfl

@[simp] theorem trim_nil : trim [] = [] := rfl

theorem trimStart_cons_of_blank {c : Char} {cs : List Char} (h : isBlank c = true) :
    trimStart (c :: cs) = trimStart cs := by
  simp [trimStart, h]

theorem trimStart_cons_of_solid {c : Char} {cs : List Char} (h : isBlank c = false) :
    trimStart (c :: cs) = c :: cs := by
  simp [trimStart, h]

theorem trimEnd_concat_of_solid {c : Char} {cs : List Char} (h : isBlank c = false) :
    trimEnd (cs ++ [c]) = cs ++ [c] := by
  simp [trimEnd, h]

theorem trimEnd_concat_of_blank {c : Char} {cs : List Char} (h : isBlank c = true) :
    trimEnd (cs ++ [c]) = trimEnd cs := by
  simp [trimEnd, h]

/-- A text with a solid character at each end has nothing to cut off. -/
theorem trim_eq_self {cs : List Char} (hs : trimStart cs = cs) (he : trimEnd cs = cs) :
    trim cs = cs := by
  rw [trim, hs, he]

end Tenancy.Text
