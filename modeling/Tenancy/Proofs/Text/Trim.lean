/-
**What trimming leaves.**

Trimming is cutting off blanks from both ends, one after the other.  What it leaves is told here by
the text alone: the text without blanks around it, and with no blank at its own ends.  There is just
one such part of a text.

Main definitions:

* `Tenancy.Text.SolidEnds` — a text with no blank at its ends;
* `Tenancy.Text.Trimmed` — **a part of a text with nothing but blanks around it**.

Main results:

* `Tenancy.Text.trimStart_append`, `Tenancy.Text.trimEnd_append` — blanks are cut off up to the
  first character that is none;
* `Tenancy.Text.trim_eq_iff` — **trimming leaves this part**.
-/

import Mathlib.Data.List.DropRight
import Tenancy.Text.Blank

set_option relaxedAutoImplicit false
set_option autoImplicit false

namespace Tenancy.Text

/-! ### Cutting at one end -/

/-- The blanks before a text that does not begin with one are cut off. -/
theorem trimStart_append {before rest : List Char} (hbefore : ∀ c ∈ before, isBlank c = true)
    (hrest : ∀ c ∈ rest.head?, isBlank c = false) : trimStart (before ++ rest) = rest := by
  rw [trimStart, List.dropWhile_append_of_pos hbefore]
  cases rest with
  | nil => rfl
  | cons c cs => exact trimStart_cons_of_solid (hrest c rfl)

/-- The blanks before a character that is none are cut off. -/
theorem trimStart_append_cons {before : List Char} (hbefore : ∀ c ∈ before, isBlank c = true)
    {c : Char} (hc : isBlank c = false) (rest : List Char) :
    trimStart (before ++ c :: rest) = c :: rest := by
  refine trimStart_append hbefore ?_
  intro first hfirst
  cases hfirst
  exact hc

/-- The blanks behind a text that does not end in one are cut off. -/
theorem trimEnd_append {rest after : List Char} (hafter : ∀ c ∈ after, isBlank c = true)
    (hrest : ∀ c ∈ rest.getLast?, isBlank c = false) : trimEnd (rest ++ after) = rest := by
  have hreversed : trimStart (after.reverse ++ rest.reverse) = rest.reverse := by
    refine trimStart_append ?_ ?_
    · intro c hc
      exact hafter c (List.mem_reverse.1 hc)
    · intro c hc
      rw [List.head?_reverse] at hc
      exact hrest c hc
  rw [trimEnd, List.reverse_append]
  rw [trimStart] at hreversed
  rw [hreversed, List.reverse_reverse]

/-- Nothing but blanks leaves nothing. -/
theorem trim_eq_nil {text : List Char} (h : ∀ c ∈ text, isBlank c = true) : trim text = [] := by
  have hstart : trimStart (text ++ []) = [] := trimStart_append h (by simp)
  rw [List.append_nil] at hstart
  rw [trim, hstart]
  rfl

/-- A text that has been cut at its start does not begin with a blank. -/
theorem solid_head?_trimStart (text : List Char) :
    ∀ c ∈ (trimStart text).head?, isBlank c = false := by
  intro c hc
  have hhead := List.head?_dropWhile_not isBlank text
  rw [trimStart] at hc
  rw [hc] at hhead
  exact hhead

/-- A text that has been cut at its end does not end in a blank. -/
theorem solid_getLast?_trimEnd (text : List Char) :
    ∀ c ∈ (trimEnd text).getLast?, isBlank c = false := by
  intro c hc
  refine solid_head?_trimStart text.reverse c ?_
  rw [trimEnd, List.getLast?_reverse] at hc
  exact hc

/-- What is cut off at the end is blank. -/
theorem exists_trimEnd_append (text : List Char) :
    ∃ after, text = trimEnd text ++ after ∧ ∀ c ∈ after, isBlank c = true := by
  refine ⟨text.rtakeWhile isBlank, List.rdropWhile_append_rtakeWhile.symm, ?_⟩
  intro c hc
  exact List.mem_rtakeWhile_imp hc

/-- A text that does not begin with a blank keeps its first character. -/
theorem exists_trimEnd_cons {c : Char} (hc : isBlank c = false) (cs : List Char) :
    ∃ rest, trimEnd (c :: cs) = c :: rest := by
  obtain ⟨after, hsplit, hafter⟩ := exists_trimEnd_append (c :: cs)
  cases hcut : trimEnd (c :: cs) with
  | nil =>
      rw [hcut, List.nil_append] at hsplit
      have hblank := hafter c (by rw [← hsplit]; exact List.mem_cons_self)
      rw [hc] at hblank
      cases hblank
  | cons first rest =>
      rw [hcut, List.cons_append] at hsplit
      cases hsplit
      exact ⟨rest, rfl⟩

/-! ### Cutting at both ends -/

/-- **A text with no blank at its ends.** -/
structure SolidEnds (text : List Char) : Prop where
  head : ∀ c ∈ text.head?, isBlank c = false
  last : ∀ c ∈ text.getLast?, isBlank c = false

instance (text : List Char) : Decidable (SolidEnds text) :=
  decidable_of_iff
    (text.head?.all (!isBlank ·) = true ∧ text.getLast?.all (!isBlank ·) = true) (by
      simp only [Option.all_eq_true, Bool.not_eq_true']
      exact ⟨fun ⟨hhead, hlast⟩ => ⟨hhead, hlast⟩, fun h => ⟨h.head, h.last⟩⟩)

/-- A text without blanks has none at its ends. -/
theorem SolidEnds.of_forall {text : List Char} (h : ∀ c ∈ text, isBlank c = false) :
    SolidEnds text := by
  refine ⟨?_, ?_⟩
  · intro c hc
    exact h c (List.mem_of_mem_head? hc)
  · intro c hc
    exact h c (List.mem_of_mem_getLast? hc)

/-- Whatever stands between two texts, the ends are those of the two. -/
theorem SolidEnds.append {front back : List Char} (hfront : SolidEnds front)
    (hback : SolidEnds back) (hne : front ≠ []) (hne' : back ≠ []) (between : List Char) :
    SolidEnds (front ++ (between ++ back)) := by
  refine ⟨?_, ?_⟩
  · intro c hc
    rw [List.head?_append_of_ne_nil _ hne] at hc
    exact hfront.head c hc
  · intro c hc
    have hbehind : between ++ back ≠ [] := List.append_ne_nil_of_right_ne_nil between hne'
    rw [List.getLast?_append_of_ne_nil _ hbehind, List.getLast?_append_of_ne_nil _ hne'] at hc
    exact hback.last c hc

/-- **A part of a text with nothing but blanks around it**, and with none at its own ends. -/
def Trimmed (text core : List Char) : Prop :=
  ∃ before after, text = before ++ core ++ after ∧ (∀ c ∈ before, isBlank c = true) ∧
    (∀ c ∈ after, isBlank c = true) ∧ SolidEnds core

/-- A text with no blank at its ends is such a part of itself, whatever blanks follow it. -/
theorem SolidEnds.trimmed_append {text after : List Char} (h : SolidEnds text)
    (hafter : ∀ c ∈ after, isBlank c = true) : Trimmed (text ++ after) text :=
  ⟨[], after, rfl, by simp, hafter, h⟩

theorem SolidEnds.trimmed {text : List Char} (h : SolidEnds text) : Trimmed text text :=
  ⟨[], [], by simp, by simp, by simp, h⟩

/-- Trimming leaves such a part. -/
theorem trimmed_trim (text : List Char) : Trimmed text (trim text) := by
  obtain ⟨after, hsplit, hafter⟩ := exists_trimEnd_append (trimStart text)
  refine ⟨text.takeWhile isBlank, after, ?_, ?_, hafter, ?_, solid_getLast?_trimEnd _⟩
  · rw [trim, List.append_assoc, ← hsplit, trimStart, List.takeWhile_append_dropWhile]
  · intro c hc
    exact List.mem_takeWhile_imp hc
  · -- what is left begins as the text did when its start was cut
    intro c hc
    refine solid_head?_trimStart text c ?_
    rw [trim] at hc
    rw [hsplit, List.head?_append, hc]
    rfl

/-- There is just one such part. -/
theorem Trimmed.trim_eq {text core : List Char} (h : Trimmed text core) : trim text = core := by
  obtain ⟨before, after, rfl, hbefore, hafter, hsolid⟩ := h
  cases hcore : core with
  | nil =>
      refine trim_eq_nil ?_
      intro c hc
      rw [List.append_nil] at hc
      rcases List.mem_append.1 hc with hc | hc
      · exact hbefore c hc
      · exact hafter c hc
  | cons first rest =>
      rw [hcore] at hsolid
      have hstart : trimStart (before ++ (first :: rest ++ after)) = first :: rest ++ after :=
        trimStart_append hbefore hsolid.head
      rw [trim, List.append_assoc, hstart, trimEnd_append hafter hsolid.last]

/-- **Trimming leaves the part with nothing but blanks around it.** -/
theorem trim_eq_iff {text core : List Char} : trim text = core ↔ Trimmed text core := by
  constructor
  · rintro rfl
    exact trimmed_trim text
  · exact Trimmed.trim_eq

end Tenancy.Text
