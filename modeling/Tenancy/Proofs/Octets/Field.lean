/-
**Only written fields are read.**

The readers of words, texts and sequences accept nothing but what their writers produce: if a field
was taken off the front of some octets, these octets are the written form of the field and what is
left.  What was read can therefore be counted in eight octets, however it came about.

Main results:

* `Tenancy.Octets.Reader.word_eq_ok`, `Tenancy.Octets.Reader.text_eq_ok`,
  `Tenancy.Octets.Reader.list_eq_ok` — **octets from which a field was taken are its written form and
  the rest**.
-/

import Tenancy.Octets.Field
import Tenancy.Proofs.Octets.Utf8

set_option relaxedAutoImplicit false
set_option autoImplicit false

namespace Tenancy.Octets.Reader

variable {α β : Type} {bs rest : Octets}

/-! ### Readers one after the other -/

theorem bind_eq_ok {r : Reader α} {f : α → Reader β} {b : β}
    (h : (r >>= f) bs = .ok (b, rest)) :
    ∃ a middle, r bs = .ok (a, middle) ∧ f a middle = .ok (b, rest) := by
  simp only [bind, StateT.bind] at h
  cases hr : r bs with
  | error fault => simp [hr, Except.bind] at h
  | ok taken =>
      rw [hr] at h
      exact ⟨taken.1, taken.2, rfl, h⟩

theorem pure_eq_ok {a b : α} (h : (pure a : Reader α) bs = .ok (b, rest)) : a = b ∧ bs = rest := by
  cases h
  exact ⟨rfl, rfl⟩

/-! ### Words and texts -/

theorem word_eq_ok {width n : Nat} (h : word width bs = .ok (n, rest)) :
    n < wordCount width ∧ bs = ofWord width n ++ rest := by
  simp only [word] at h
  split at h
  · rename_i hwidth
    cases h
    have hlt := toWord_lt (bs.take width)
    have hback := ofWord_toWord (bs.take width)
    rw [hwidth] at hlt hback
    exact ⟨hlt, by rw [hback, List.take_append_drop]⟩
  · cases h

theorem octets_eq_ok {n : Nat} {field : Octets} (h : octets n bs = .ok (field, rest)) :
    field.length = n ∧ bs = field ++ rest := by
  simp only [octets] at h
  split at h
  · rename_i hlength
    cases h
    exact ⟨hlength, (List.take_append_drop n bs).symm⟩
  · cases h

theorem text_eq_ok {s : String} (h : text bs = .ok (s, rest)) :
    (Utf8.encode s).length < wordCount 8 ∧ bs = ofText s ++ rest := by
  rw [text] at h
  obtain ⟨length, behind, hlength, hbehind⟩ := bind_eq_ok h
  obtain ⟨field, left, hfield, hread⟩ := bind_eq_ok hbehind
  obtain ⟨hlt, rfl⟩ := word_eq_ok hlength
  obtain ⟨rfl, rfl⟩ := octets_eq_ok hfield
  cases hs : Utf8.decode field with
  | error fault =>
      rw [hs] at hread
      cases hread
  | ok found =>
      rw [hs] at hread
      obtain ⟨rfl, rfl⟩ := pure_eq_ok hread
      -- the octets of the text are the ones that were counted
      have hencode := Utf8.encode_of_decode hs
      rw [hencode]
      refine ⟨hlt, ?_⟩
      rw [ofText, ofLength, hencode, List.append_assoc]

/-! ### Sequences -/

section Sequences

variable {P : α → Prop} {write : α → Octets} {item : Reader α}

/-- Fields are taken off one after the other in their written form, if each is. -/
theorem times_eq_ok (hitem : ∀ bs a rest, item bs = .ok (a, rest) → P a ∧ bs = write a ++ rest)
    {n : Nat} {items : List α} (h : times item n bs = .ok (items, rest)) :
    items.length = n ∧ (∀ a ∈ items, P a) ∧ bs = items.flatMap write ++ rest := by
  -- induction on the number of fields, over the octets that are left
  induction n generalizing bs items with
  | zero =>
      obtain ⟨rfl, rfl⟩ := pure_eq_ok h
      exact ⟨rfl, fun a ha => by simp at ha, rfl⟩
  | succ n ih =>
      rw [times] at h
      obtain ⟨first, behind, hfirst, hbehind⟩ := bind_eq_ok h
      obtain ⟨others, left, hothers, hread⟩ := bind_eq_ok hbehind
      obtain ⟨rfl, rfl⟩ := pure_eq_ok hread
      obtain ⟨hp, rfl⟩ := hitem _ _ _ hfirst
      obtain ⟨hcount, hall, rfl⟩ := ih hothers
      refine ⟨by rw [List.length_cons, hcount], ?_, ?_⟩
      · intro a ha
        rcases List.mem_cons.1 ha with rfl | ha
        · exact hp
        · exact hall a ha
      · rw [List.flatMap_cons, List.append_assoc]

theorem list_eq_ok (hitem : ∀ bs a rest, item bs = .ok (a, rest) → P a ∧ bs = write a ++ rest)
    {items : List α} (h : list item bs = .ok (items, rest)) :
    items.length < wordCount 8 ∧ (∀ a ∈ items, P a) ∧ bs = ofList write items ++ rest := by
  rw [list] at h
  obtain ⟨length, behind, hlength, hbehind⟩ := bind_eq_ok h
  obtain ⟨hlt, rfl⟩ := word_eq_ok hlength
  obtain ⟨rfl, hall, rfl⟩ := times_eq_ok hitem hbehind
  refine ⟨hlt, hall, ?_⟩
  rw [ofList, ofLength, List.append_assoc]

end Sequences

end Tenancy.Octets.Reader
