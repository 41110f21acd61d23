/-
**Stores that agree on a key.**

Two stores agree on a key when they hold the same under it, whatever they hold elsewhere.  They then
answer the loads and saves of the key alike and go on agreeing on it, while a save under another key
is not noticed.  With both switches off a store does just what the store inside does.

Main definitions:

* `Tenancy.Store.AgreeOn` — **two stores that hold the same under a key**;
* `Tenancy.FaultyStore.Reliable` — a store that fails on no demand;
* `Tenancy.FaultyStore.AgreeOn` — two such stores that agree inside.

Main results:

* `Tenancy.Store.AgreeOn.load`, `Tenancy.Store.AgreeOn.save` — **stores that agree answer alike and
  go on agreeing**;
* `Tenancy.Store.agreeOn_save_of_ne` — a save under another key is not noticed;
* `Tenancy.Store.exists_save_of_load` — what can be loaded can be saved.
-/

import Tenancy.Proofs.Store.Kept
import Tenancy.Proofs.Store.Saved

set_option relaxedAutoImplicit false
set_option autoImplicit false

namespace Tenancy

namespace Store

/-! ### The stores inside -/

/-- **Two stores that hold the same under a key**: the same ledger in memory, or the same file in
directories of one path. -/
inductive AgreeOn (key : String) : Store → Store → Prop where
  | memory {ledgers ledgers' : Std.ExtTreeMap String Ledger}
      (same : ledgers[key]? = ledgers'[key]?) : AgreeOn key (.memory ledgers) (.memory ledgers')
  | directory {dir dir' : Directory} (path : dir.path = dir'.path)
      (same : dir.files[recordFile key]? = dir'.files[recordFile key]?) :
      AgreeOn key (.directory dir) (.directory dir')

variable {store store' store'' : Store} {key other : String} {ledger : Ledger}

/-- A key that has a file can be saved. -/
theorem save_directory_of_hasFile (hfile : HasFile key) (dir : Directory) (ledger : Ledger) :
    (Store.directory dir).save key ledger = .ok (.directory { dir with
      files := (dir.files.erase (draftFile key)).insert (recordFile key) ledger.encode }) := by
  rw [save, Directory.save, if_pos hfile]
  rfl

theorem AgreeOn.refl (key : String) : (store : Store) → store.AgreeOn key store
  | .memory _ => .memory rfl
  | .directory _ => .directory rfl rfl

theorem AgreeOn.symm (h : store.AgreeOn key store') : store'.AgreeOn key store := by
  cases h with
  | memory same => exact .memory same.symm
  | directory path same => exact .directory path.symm same.symm

theorem AgreeOn.trans (h : store.AgreeOn key store') (h' : store'.AgreeOn key store'') :
    store.AgreeOn key store'' := by
  cases h with
  | memory same =>
      obtain ⟨same'⟩ := h'
      exact .memory (same.trans same')
  | directory path same =>
      cases h' with
      | directory path' same' => exact .directory (path.trans path') (same.trans same')

/-- **Stores that agree on a key answer loads of it alike.** -/
theorem AgreeOn.load (h : store.AgreeOn key store') : store.load key = store'.load key := by
  cases h with
  | memory same => exact congrArg Except.ok same
  | directory path same => simp only [Store.load, Directory.load, path, same]

/-- **Saves under the key end alike in both, and they go on agreeing.** -/
theorem AgreeOn.save (h : store.AgreeOn key store') (ledger : Ledger) :
    (∃ after after', store.save key ledger = .ok after ∧ store'.save key ledger = .ok after' ∧
      after.AgreeOn key after') ∨
    ∃ fault, store.save key ledger = .error fault ∧ store'.save key ledger = .error fault := by
  cases h with
  | memory same =>
      refine .inl ⟨_, _, rfl, rfl, .memory ?_⟩
      simp only [Std.ExtTreeMap.getElem?_insert_self]
  | @directory dir dir' path same =>
      by_cases hfile : HasFile key
      · refine .inl ⟨_, _, save_directory_of_hasFile hfile dir ledger,
          save_directory_of_hasFile hfile dir' ledger, .directory path ?_⟩
        simp only [Std.ExtTreeMap.getElem?_insert_self]
      · refine .inr ⟨.nameTooLong, ?_, ?_⟩ <;>
          simp only [Store.save, Directory.save_of_not_hasFile _ hfile, Except.map]

/-- **A save under another key is not noticed.** -/
theorem agreeOn_save_of_ne (h : store.save other ledger = .ok store') (hne : other ≠ key) :
    store.AgreeOn key store' := by
  cases store with
  | memory ledgers =>
      cases h
      refine .memory ?_
      rw [Std.ExtTreeMap.getElem?_insert, if_neg (by simpa using hne)]
  | directory dir =>
      obtain ⟨-, rfl⟩ := save_directory_eq_ok h
      refine .directory rfl ?_
      rw [getElem?_files_save, if_neg hne]

/-- Where a ledger can be loaded, or it is found that there is none, one can be saved. -/
theorem exists_save_of_load {stored : Option Ledger} (h : store.load key = .ok stored)
    (ledger : Ledger) : ∃ after, store.save key ledger = .ok after := by
  cases store with
  | memory ledgers => exact ⟨_, rfl⟩
  | directory dir =>
      by_cases hfile : HasFile key
      · exact ⟨_, save_directory_of_hasFile hfile dir ledger⟩
      · rw [Store.load, Directory.load_of_not_hasFile _ hfile] at h
        cases h

end Store

namespace FaultyStore

/-! ### Stores that fail on no demand -/

/-- **A store that fails on no demand**: both switches are off. -/
structure Reliable (s : FaultyStore) : Prop where
  loads : s.loadFails = false
  saves : s.savesUntilFault = none

variable {s s' : FaultyStore} {key : String} {ledger : Ledger}

theorem reliable_new (inner : Store) : (new inner).Reliable := ⟨rfl, rfl⟩

namespace Reliable

/-- A load is one of the store inside, and leaves the store as it was. -/
theorem load (h : s.Reliable) (key : String) : s.load key = (s.inner.load key, s) := by
  rw [FaultyStore.load, h.loads]
  rfl

/-- A save is one of the store inside, and it is counted. -/
theorem save_of_ok (h : s.Reliable) {inner : Store} (hs : s.inner.save key ledger = .ok inner) :
    s.save key ledger =
      (.ok (), { s with inner, counts := { s.counts with saves := s.counts.saves + 1 } }) := by
  simp only [FaultyStore.save, h.saves, passSave, hs]

theorem save_of_error (h : s.Reliable) {fault : StorageFault}
    (hs : s.inner.save key ledger = .error fault) :
    s.save key ledger =
      (.error fault, { s with counts := { s.counts with saves := s.counts.saves + 1 } }) := by
  simp only [FaultyStore.save, h.saves, passSave, hs]

/-- It does not come to fail by being used. -/
theorem after_save (h : s.Reliable) (key : String) (ledger : Ledger) :
    (s.save key ledger).2.Reliable := by
  cases hs : s.inner.save key ledger with
  | ok inner =>
      rw [h.save_of_ok hs]
      exact ⟨h.loads, h.saves⟩
  | error fault =>
      rw [h.save_of_error hs]
      exact ⟨h.loads, h.saves⟩

end Reliable

/-- **Two stores that fail on no demand and agree on a key.** -/
structure AgreeOn (key : String) (s s' : FaultyStore) : Prop where
  left : s.Reliable
  right : s'.Reliable
  inner : s.inner.AgreeOn key s'.inner

namespace AgreeOn

theorem refl (h : s.Reliable) (key : String) : s.AgreeOn key s := ⟨h, h, .refl key s.inner⟩

/-- Saves under the key end alike in both, and they go on agreeing. -/
theorem save (h : s.AgreeOn key s') (ledger : Ledger) :
    (s.save key ledger).1 = (s'.save key ledger).1 ∧
      (s.save key ledger).2.AgreeOn key (s'.save key ledger).2 := by
  rcases h.inner.save ledger with ⟨after, after', hs, hs', hafter⟩ | ⟨fault, hs, hs'⟩
  · rw [h.left.save_of_ok hs, h.right.save_of_ok hs']
    exact ⟨rfl, ⟨h.left.loads, h.left.saves⟩, ⟨h.right.loads, h.right.saves⟩, hafter⟩
  · rw [h.left.save_of_error hs, h.right.save_of_error hs']
    exact ⟨rfl, ⟨h.left.loads, h.left.saves⟩, ⟨h.right.loads, h.right.saves⟩, h.inner⟩

/-- A save under another key, into the one store, is not noticed. -/
theorem save_of_ne (h : s.AgreeOn key s') {other : String} (hne : other ≠ key)
    (ledger : Ledger) : (s.save other ledger).2.AgreeOn key s' := by
  refine ⟨h.left.after_save other ledger, h.right, ?_⟩
  cases hs : s.inner.save other ledger with
  | ok inner =>
      rw [h.left.save_of_ok hs]
      exact (Store.agreeOn_save_of_ne hs hne).symm.trans h.inner
  | error fault =>
      rw [h.left.save_of_error hs]
      exact h.inner

end AgreeOn

end FaultyStore

end Tenancy
