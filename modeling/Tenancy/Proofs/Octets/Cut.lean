/-
**Octets that end too early.**

A reader looks at octets from the front and only notices their end when it asks for more.  So more
octets behind what it took change nothing, and neither do they change a refusal of what it saw; they
only help where the octets ended too early.  A proper beginning of a form can therefore not be read
as anything: had the reader accepted it, or refused it for what it says, it would have done so
before the whole form as well.

Main definitions:

* `Tenancy.Octets.Malformed.IsCut` — the octets ended too early;
* `Tenancy.Octets.Reader.Steady` — a reader whose answer more octets do not change, unless the
  octets ended too early.

Main results:

* `Tenancy.Octets.Reader.Steady.bind`, `Tenancy.Octets.Reader.Steady.list` — steady readers one
  after the other are steady;
* `Tenancy.Octets.Reader.Steady.cut` — **a proper beginning of a form ends too early**.
-/

import Tenancy.Proofs.Octets.Field

set_option relaxedAutoImplicit false
set_option autoImplicit false

namespace Tenancy.Octets

/-- The octets ended before all that was expected was there. -/
def Malformed.IsCut (fault : Malformed) : Prop := fault = .numberCut ∨ fault = .textCut

instance (fault : Malformed) : Decidable fault.IsCut :=
  inferInstanceAs (Decidable (fault = .numberCut ∨ fault = .textCut))

namespace Reader

variable {α β : Type} {bs rest : Octets} {fault : Malformed}

/-- **More octets do not change what a reader answers**, unless the octets ended too early. -/
structure Steady (r : Reader α) : Prop where
  /-- What was read is read before more octets as well, which are left. -/
  ok_append : ∀ {bs a rest}, r bs = .ok (a, rest) → ∀ more, r (bs ++ more) = .ok (a, rest ++ more)
  /-- What was refused for what it says is refused before more octets as well. -/
  error_append : ∀ {bs fault}, r bs = .error fault → ¬ fault.IsCut →
    ∀ more, r (bs ++ more) = .error fault

/-! ### Readers one after the other -/

theorem bind_eq_error {r : Reader α} {f : α → Reader β} (h : (r >>= f) bs = .error fault) :
    r bs = .error fault ∨ ∃ a middle, r bs = .ok (a, middle) ∧ f a middle = .error fault := by
  simp only [bind, StateT.bind] at h
  cases hr : r bs with
  | error fault' =>
      rw [hr] at h
      cases h
      exact .inl rfl
  | ok taken =>
      rw [hr] at h
      exact .inr ⟨taken.1, taken.2, rfl, h⟩

theorem bind_of_ok {r : Reader α} {f : α → Reader β} {a : α} (h : r bs = .ok (a, rest)) :
    (r >>= f) bs = f a rest := by
  simp only [bind, StateT.bind, h, Except.bind]

theorem bind_of_error {r : Reader α} {f : α → Reader β} (h : r bs = .error fault) :
    (r >>= f) bs = .error fault := by
  simp only [bind, StateT.bind, h, Except.bind]

namespace Steady

theorem pure (a : α) : Steady (Pure.pure a : Reader α) where
  ok_append h more := by
    obtain ⟨rfl, rfl⟩ := pure_eq_ok h
    rfl
  error_append h := by cases h

theorem throw (fault : Malformed) : Steady (MonadExcept.throw fault : Reader α) where
  ok_append h := by cases h
  error_append h _ more := by
    cases h
    rfl

theorem bind {r : Reader α} {f : α → Reader β} (hr : Steady r) (hf : ∀ a, Steady (f a)) :
    Steady (r >>= f) where
  ok_append h more := by
    obtain ⟨a, middle, ha, hb⟩ := bind_eq_ok h
    rw [bind_of_ok (hr.ok_append ha more)]
    exact (hf a).ok_append hb more
  error_append h hcut more := by
    rcases bind_eq_error h with hfirst | ⟨a, middle, ha, hb⟩
    · exact bind_of_error (hr.error_append hfirst hcut more)
    · rw [bind_of_ok (hr.ok_append ha more)]
      exact (hf a).error_append hb hcut more

/-! ### Words and texts -/

theorem word (width : Nat) : Steady (Reader.word width) where
  ok_append h more := by
    obtain ⟨hlt, rfl⟩ := word_eq_ok h
    rw [List.append_assoc, word_ofWord hlt]
  error_append h hcut := by
    simp only [Reader.word] at h
    split at h
    · cases h
    · cases h
      exact (hcut (.inl rfl)).elim

theorem octets (n : Nat) : Steady (Reader.octets n) where
  ok_append h more := by
    obtain ⟨rfl, rfl⟩ := octets_eq_ok h
    rw [List.append_assoc, octets_append]
  error_append h hcut := by
    simp only [Reader.octets] at h
    split at h
    · cases h
    · cases h
      exact (hcut (.inr rfl)).elim

theorem text : Steady Reader.text := by
  refine bind (word 8) fun length => bind (octets length) fun field => ?_
  cases Utf8.decode field with
  | ok s => exact pure s
  | error fault => exact throw (.badText fault)

/-! ### Sequences -/

theorem times {item : Reader α} (h : Steady item) (n : Nat) : Steady (Reader.times item n) := by
  induction n with
  | zero => exact pure []
  | succ n ih => exact bind h fun first => bind ih fun others => pure (first :: others)

theorem list {item : Reader α} (h : Steady item) : Steady (Reader.list item) :=
  bind (word 8) (times h)

/-! ### Beginnings of a form -/

/-- **A proper beginning of a form ends too early**: a steady reader refuses it as cut. -/
theorem cut {r : Reader α} (hr : Steady r) {form p : Octets} {a : α} (hform : r form = .ok (a, []))
    (hp : p <+: form) (hne : p ≠ form) : ∃ fault : Malformed, fault.IsCut ∧ r p = .error fault := by
  obtain ⟨more, rfl⟩ := hp
  cases h : r p with
  | error fault =>
      by_cases hcut : fault.IsCut
      · exact ⟨fault, hcut, rfl⟩
      · -- the whole form would be refused for the same reason
        rw [hr.error_append h hcut more] at hform
        cases hform
  | ok taken =>
      -- the whole form would be read with octets left behind it
      obtain ⟨b, left⟩ := taken
      rw [hr.ok_append h more] at hform
      have hnone : left ++ more = [] := congrArg Prod.snd (Except.ok.inj hform)
      rw [List.append_eq_nil_iff] at hnone
      exact (hne (by rw [hnone.2, List.append_nil])).elim

end Steady

end Reader

end Tenancy.Octets
