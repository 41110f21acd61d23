/-
**What holds of every ledger in a store.**

A property of ledgers is kept by a store when every ledger in it has the property: in memory the
ledgers themselves, in a directory the ledgers whose forms the files are.  An empty store keeps every
property, and saving a ledger with the property goes on keeping it.  Since a load finds what was
kept, whatever is loaded has the property too; in a directory this needs the form to be read back,
so the property must include that the ledger fits its form.

Main definitions:

* `Tenancy.Store.IsEmpty` — a store in which nothing has been saved;
* `Tenancy.Store.Keeps` — every ledger of the store has a property.

Main results:

* `Tenancy.Store.Keeps.of_load` — **what is loaded has the property**;
* `Tenancy.Store.Keeps.save` — saving a ledger with the property keeps it;
* `Tenancy.FaultyStore.load_eq_ok`, `Tenancy.FaultyStore.save_eq_ok` — a load or a save that
  succeeds through the switches is one of the store inside.
-/

import Tenancy.Proofs.Ledger.RoundTrip
import Tenancy.Store.Faulty

set_option relaxedAutoImplicit false
set_option autoImplicit false

namespace Tenancy

namespace Store

/-- A store in which nothing has been saved. -/
def IsEmpty : Store → Prop
  | .memory ledgers => ledgers = ∅
  | .directory dir => dir.files = ∅

/-- **Every ledger of the store has the property `P`**: a file is the form of such a ledger. -/
def Keeps (P : Ledger → Prop) : Store → Prop
  | .memory ledgers => ∀ (key : String) ledger, ledgers[key]? = some ledger → P ledger
  | .directory dir =>
      ∀ (file : String) content, dir.files[file]? = some content →
        ∃ ledger, P ledger ∧ ledger.encode = content

variable {P : Ledger → Prop} {store store' : Store} {key : String} {ledger : Ledger}

theorem isEmpty_inMemory : inMemory.IsEmpty := rfl

theorem isEmpty_inDirectory (path : String) : (inDirectory path).IsEmpty := rfl

/-- An empty store keeps everything. -/
theorem IsEmpty.keeps (h : store.IsEmpty) : store.Keeps P := by
  cases store with
  | memory ledgers =>
      obtain rfl : ledgers = ∅ := h
      intro key ledger hl
      simp at hl
  | directory dir =>
      have hfiles : dir.files = ∅ := h
      intro file content hc
      rw [hfiles] at hc
      simp at hc

/-- **What is loaded has the property.** -/
theorem Keeps.of_load (hfits : ∀ l, P l → l.Fits) (h : store.Keeps P)
    (hl : store.load key = .ok (some ledger)) : P ledger := by
  cases store with
  | memory ledgers => exact h key ledger (Except.ok.inj hl)
  | directory dir =>
      simp only [load, Directory.load] at hl
      split at hl
      · cases hfile : dir.files[recordFile key]? with
        | none => simp [hfile] at hl
        | some content =>
            -- the content of the file is the form of a ledger that fits, so it is read back
            obtain ⟨kept, hk, rfl⟩ := h _ _ hfile
            simp only [hfile, Ledger.decode_encode (hfits kept hk)] at hl
            cases hl
            exact hk
      · cases hl

/-- **Saving a ledger with the property keeps it** of every ledger of the store. -/
theorem Keeps.save (h : store.Keeps P) (hp : P ledger)
    (hs : store.save key ledger = .ok store') : store'.Keeps P := by
  cases store with
  | memory ledgers =>
      cases hs
      intro other kept hk
      rw [Std.ExtTreeMap.getElem?_insert] at hk
      split at hk
      · cases hk; exact hp
      · exact h other kept hk
  | directory dir =>
      simp only [Store.save, Directory.save] at hs
      split at hs
      · cases hs
        intro file content hc
        -- the file is the key's own, or it was there before and is not the draft
        rw [Std.ExtTreeMap.getElem?_insert, Std.ExtTreeMap.getElem?_erase] at hc
        split at hc
        · cases hc; exact ⟨ledger, hp, rfl⟩
        · split at hc
          · cases hc
          · exact h file content hc
      · cases hs

end Store

namespace FaultyStore

variable {s : FaultyStore} {key : String}

/-- A load that succeeds found the switch off and asked the store inside. -/
theorem load_eq_ok {loaded : Option Ledger} (h : (s.load key).1 = .ok loaded) :
    s.loadFails = false ∧ s.inner.load key = .ok loaded := by
  simp only [load] at h
  split at h
  · cases h
  · rename_i hoff
    exact ⟨by simpa using hoff, h⟩

theorem passSave_eq_ok {ledger : Ledger} (h : (s.passSave key ledger).1 = .ok ()) :
    s.inner.save key ledger = .ok (s.passSave key ledger).2.inner := by
  simp only [passSave] at h ⊢
  cases hs : s.inner.save key ledger with
  | ok inner => rfl
  | error fault => simp [hs] at h

/-- A save that succeeds is one of the store inside. -/
theorem save_eq_ok {ledger : Ledger} (h : (s.save key ledger).1 = .ok ()) :
    s.inner.save key ledger = .ok (s.save key ledger).2.inner := by
  simp only [save] at h ⊢
  cases hs : s.savesUntilFault with
  | none => rw [hs] at h; exact passSave_eq_ok h
  | some n =>
      rw [hs] at h
      cases n with
      | zero => cases h
      | succ n => exact passSave_eq_ok (s := { s with savesUntilFault := some n }) h

end FaultyStore

end Tenancy
