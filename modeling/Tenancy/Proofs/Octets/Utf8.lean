/-
**Only the written form of a text is read.**

The strict reading of octets accepts a character in one form only, the one in which it is written:
overlong forms, surrogates and numbers above the last code point are refused.  So octets that are
read as a text are the octets of that text.

Main results:

* `Tenancy.Utf8.encode_of_decode` — **octets that are read as a text are its written form**.
-/

import Tenancy.Octets.Utf8

set_option relaxedAutoImplicit false
set_option autoImplicit false

namespace Tenancy.Utf8

variable {start : Nat} {p : Pending} {b : UInt8} {bs rest : Octets} {cs : List Char}

/-- A character in front of what is read was put in front of it. -/
theorem read_of_map {c : Char} (h : (decodeFrom start none rest).map (c :: ·) = .ok cs) :
    ∃ next others, decodeFrom next none rest = .ok others ∧ cs = c :: others := by
  cases hrest : decodeFrom start none rest with
  | error fault => simp [hrest, Except.map] at h
  | ok others =>
      simp only [hrest, Except.map, Except.ok.injEq] at h
      exact ⟨start, others, hrest, h.symm⟩

/-! ### Octets inside a character -/

/-- Inside a character another octet must follow, within the bounds of the state. -/
theorem decodeFrom_pending (h : decodeFrom start (some p) bs = .ok cs) :
    ∃ b rest, bs = b :: rest ∧ p.low ≤ b.toNat ∧ b.toNat ≤ p.high := by
  cases bs with
  | nil => cases h
  | cons b rest =>
      simp only [decodeFrom] at h
      split at h
      · rename_i hb
        exact ⟨b, rest, rfl, hb.1, hb.2⟩
      · cases h

/-- The last octet of a character. -/
theorem decodeFrom_last (howed : p.owed ≤ 1) (hlow : p.low ≤ b.toNat) (hhigh : b.toNat ≤ p.high)
    (h : decodeFrom start (some p) (b :: rest) = .ok cs) :
    ∃ next others, decodeFrom next none rest = .ok others ∧
      cs = Char.ofNat (p.payload * 0x40 + (b.toNat - 0x80)) :: others := by
  simp only [decodeFrom, if_pos (And.intro hlow hhigh), if_pos howed] at h
  exact read_of_map h

/-- An octet of a character before the last one. -/
theorem decodeFrom_more (howed : ¬ p.owed ≤ 1) (hlow : p.low ≤ b.toNat)
    (hhigh : b.toNat ≤ p.high) (h : decodeFrom start (some p) (b :: rest) = .ok cs) :
    decodeFrom start
      (some ⟨p.owed - 1, p.seen + 1, 0x80, 0xBF, p.payload * 0x40 + (b.toNat - 0x80)⟩) rest =
        .ok cs := by
  simpa only [decodeFrom, if_pos (And.intro hlow hhigh), if_neg howed] using h

/-! ### Characters -/

/-- The octets of a character whose number is known. -/
theorem encodeChar_ofNat {n : Nat} (hn : n < 0xD800 ∨ (0xDFFF < n ∧ n < 0x110000)) :
    encodeChar (Char.ofNat n) =
      if n < 0x80 then [UInt8.ofNat n]
      else if n < 0x800 then [UInt8.ofNat (0xC0 + n / 0x40), UInt8.ofNat (0x80 + n % 0x40)]
      else if n < 0x10000 then
        [UInt8.ofNat (0xE0 + n / 0x1000), UInt8.ofNat (0x80 + n / 0x40 % 0x40),
          UInt8.ofNat (0x80 + n % 0x40)]
      else
        [UInt8.ofNat (0xF0 + n / 0x40000), UInt8.ofNat (0x80 + n / 0x1000 % 0x40),
          UInt8.ofNat (0x80 + n / 0x40 % 0x40), UInt8.ofNat (0x80 + n % 0x40)] := by
  have hnum : (Char.ofNat n).toNat = n := by
    rw [Char.ofNat, dif_pos hn]
    rfl
  simp only [encodeChar, hnum]

theorem length_encodeChar_pos (c : Char) : 0 < (encodeChar c).length := by
  unfold encodeChar
  dsimp only
  split
  · exact Nat.one_pos
  · split
    · exact Nat.two_pos
    · split
      · exact Nat.succ_pos 2
      · exact Nat.succ_pos 3

/-- An octet with a known number. -/
theorem ofNat_eq {b : UInt8} {n : Nat} (h : n = b.toNat) : UInt8.ofNat n = b := by
  rw [h, UInt8.ofNat_toNat]

/-- A lead octet says how many octets are owed, and within which bounds the next one lies. -/
theorem lead_eq_some (h : lead b.toNat = some p) :
    (0xC2 ≤ b.toNat ∧ b.toNat ≤ 0xDF ∧ p = ⟨1, 1, 0x80, 0xBF, b.toNat - 0xC0⟩) ∨
    (0xE0 ≤ b.toNat ∧ b.toNat ≤ 0xEF ∧
      p = ⟨2, 1, if b.toNat = 0xE0 then 0xA0 else 0x80, if b.toNat = 0xED then 0x9F else 0xBF,
        b.toNat - 0xE0⟩) ∨
    (0xF0 ≤ b.toNat ∧ b.toNat ≤ 0xF4 ∧
      p = ⟨3, 1, if b.toNat = 0xF0 then 0x90 else 0x80, if b.toNat = 0xF4 then 0x8F else 0xBF,
        b.toNat - 0xF0⟩) := by
  simp only [lead] at h
  split at h
  · rename_i hb
    exact .inl ⟨hb.1, hb.2, (Option.some.inj h).symm⟩
  · split at h
    · rename_i hb
      exact .inr (.inl ⟨hb.1, hb.2, (Option.some.inj h).symm⟩)
    · split at h
      · rename_i hb
        exact .inr (.inr ⟨hb.1, hb.2, (Option.some.inj h).symm⟩)
      · cases h

/-- A character of two octets is read in its written form. -/
theorem encodeChar_two {b₁ b₂ : UInt8} (h₁ : 0xC2 ≤ b₁.toNat ∧ b₁.toNat ≤ 0xDF)
    (h₂ : 0x80 ≤ b₂.toNat ∧ b₂.toNat ≤ 0xBF) :
    encodeChar (Char.ofNat ((b₁.toNat - 0xC0) * 0x40 + (b₂.toNat - 0x80))) = [b₁, b₂] := by
  rw [encodeChar_ofNat (by omega), if_neg (by omega), if_pos (by omega), ofNat_eq (b := b₁)
    (by omega), ofNat_eq (b := b₂) (by omega)]

/-- A character of three octets is read in its written form: the bounds of the second octet leave
out the numbers that two octets can hold, and the surrogates. -/
theorem encodeChar_three {b₁ b₂ b₃ : UInt8} (h₁ : 0xE0 ≤ b₁.toNat ∧ b₁.toNat ≤ 0xEF)
    (h₂ : 0x80 ≤ b₂.toNat ∧ b₂.toNat ≤ 0xBF) (hlow : b₁.toNat = 0xE0 → 0xA0 ≤ b₂.toNat)
    (hhigh : b₁.toNat = 0xED → b₂.toNat ≤ 0x9F) (h₃ : 0x80 ≤ b₃.toNat ∧ b₃.toNat ≤ 0xBF) :
    encodeChar (Char.ofNat
      (((b₁.toNat - 0xE0) * 0x40 + (b₂.toNat - 0x80)) * 0x40 + (b₃.toNat - 0x80))) =
        [b₁, b₂, b₃] := by
  rw [encodeChar_ofNat (by omega), if_neg (by omega), if_neg (by omega), if_pos (by omega),
    ofNat_eq (b := b₁) (by omega), ofNat_eq (b := b₂) (by omega), ofNat_eq (b := b₃) (by omega)]

/-- A character of four octets is read in its written form: the bounds of the second octet leave
out the numbers that three octets can hold, and those above the last code point. -/
theorem encodeChar_four {b₁ b₂ b₃ b₄ : UInt8} (h₁ : 0xF0 ≤ b₁.toNat ∧ b₁.toNat ≤ 0xF4)
    (h₂ : 0x80 ≤ b₂.toNat ∧ b₂.toNat ≤ 0xBF) (hlow : b₁.toNat = 0xF0 → 0x90 ≤ b₂.toNat)
    (hhigh : b₁.toNat = 0xF4 → b₂.toNat ≤ 0x8F) (h₃ : 0x80 ≤ b₃.toNat ∧ b₃.toNat ≤ 0xBF)
    (h₄ : 0x80 ≤ b₄.toNat ∧ b₄.toNat ≤ 0xBF) :
    encodeChar (Char.ofNat
      ((((b₁.toNat - 0xF0) * 0x40 + (b₂.toNat - 0x80)) * 0x40 + (b₃.toNat - 0x80)) * 0x40 +
        (b₄.toNat - 0x80))) = [b₁, b₂, b₃, b₄] := by
  rw [encodeChar_ofNat (by omega), if_neg (by omega), if_neg (by omega), if_neg (by omega),
    ofNat_eq (b := b₁) (by omega), ofNat_eq (b := b₂) (by omega), ofNat_eq (b := b₃) (by omega),
    ofNat_eq (b := b₄) (by omega)]

/-! ### Texts -/

/-- One character is read off the front, in its written form. -/
theorem decodeFrom_cons (h : decodeFrom start none (b :: rest) = .ok cs) :
    ∃ c next others after, decodeFrom next none after = .ok others ∧ cs = c :: others ∧
      b :: rest = encodeChar c ++ after := by
  rw [decodeFrom] at h
  split at h
  · rename_i hb
    obtain ⟨next, others, hothers, rfl⟩ := read_of_map h
    refine ⟨_, next, others, rest, hothers, rfl, ?_⟩
    rw [encodeChar_ofNat (by omega), if_pos hb, UInt8.ofNat_toNat]
    rfl
  · split at h
    · cases h
    · rename_i p hlead
      obtain ⟨b₂, rest, rfl, hlow, hhigh⟩ := decodeFrom_pending h
      rcases lead_eq_some hlead with ⟨hb, hb', rfl⟩ | ⟨hb, hb', rfl⟩ | ⟨hb, hb', rfl⟩
      · obtain ⟨next, others, hothers, rfl⟩ := decodeFrom_last (Nat.le_refl 1) hlow hhigh h
        refine ⟨_, next, others, rest, hothers, rfl, ?_⟩
        rw [encodeChar_two ⟨hb, hb'⟩ ⟨hlow, hhigh⟩]
        rfl
      · have h := decodeFrom_more (by simp) hlow hhigh h
        obtain ⟨b₃, rest, rfl, hlow₃, hhigh₃⟩ := decodeFrom_pending h
        obtain ⟨next, others, hothers, rfl⟩ := decodeFrom_last (by simp) hlow₃ hhigh₃ h
        refine ⟨_, next, others, rest, hothers, rfl, ?_⟩
        dsimp only at hlow hhigh
        rw [encodeChar_three ⟨hb, hb'⟩ ?_ ?_ ?_ ⟨hlow₃, hhigh₃⟩]
        · rfl
        · split at hlow <;> split at hhigh <;> omega
        · intro he
          rwa [if_pos he] at hlow
        · intro he
          rwa [if_pos he] at hhigh
      · have h := decodeFrom_more (by simp) hlow hhigh h
        obtain ⟨b₃, rest, rfl, hlow₃, hhigh₃⟩ := decodeFrom_pending h
        have h := decodeFrom_more (by simp) hlow₃ hhigh₃ h
        obtain ⟨b₄, rest, rfl, hlow₄, hhigh₄⟩ := decodeFrom_pending h
        obtain ⟨next, others, hothers, rfl⟩ := decodeFrom_last (by simp) hlow₄ hhigh₄ h
        refine ⟨_, next, others, rest, hothers, rfl, ?_⟩
        dsimp only at hlow hhigh
        rw [encodeChar_four ⟨hb, hb'⟩ ?_ ?_ ?_ ⟨hlow₃, hhigh₃⟩ ⟨hlow₄, hhigh₄⟩]
        · rfl
        · split at hlow <;> split at hhigh <;> omega
        · intro he
          rwa [if_pos he] at hlow
        · intro he
          rwa [if_pos he] at hhigh

theorem flatMap_of_decodeFrom (bs : Octets) : ∀ start cs, decodeFrom start none bs = .ok cs →
    cs.flatMap encodeChar = bs := by
  -- induction on the number of octets: every character takes at least one
  induction hlen : bs.length using Nat.strongRecOn generalizing bs with
  | ind len ih =>
      intro start cs h
      cases bs with
      | nil =>
          cases h
          rfl
      | cons b rest =>
          obtain ⟨c, next, others, after, hothers, rfl, hfront⟩ := decodeFrom_cons h
          have hshort : after.length < len := by
            have hpos := length_encodeChar_pos c
            have htotal := congrArg List.length hfront
            rw [List.length_append] at htotal
            omega
          rw [List.flatMap_cons, ih after.length hshort after rfl next others hothers, hfront]

/-- **Octets that are read as a text are its written form.** -/
theorem encode_of_decode {bs : Octets} {s : String} (h : decode bs = .ok s) : encode s = bs := by
  simp only [decode] at h
  cases hcs : decodeFrom 0 none bs with
  | error fault => simp [hcs, Except.map] at h
  | ok cs =>
      simp only [hcs, Except.map, Except.ok.injEq] at h
      subst h
      rw [encode, String.toList_ofList]
      exact flatMap_of_decodeFrom bs 0 cs hcs

end Tenancy.Utf8
