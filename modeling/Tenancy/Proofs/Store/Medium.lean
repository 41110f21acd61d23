/-
**What was saved is all that a store holds.**

The saves to a store, listed in their order, tell what it holds: under each key the ledger that was
saved last.  In memory this is the ledger itself.  In a directory it is the content of the key's
file, and there are no other files, least of all drafts.  A load finds it in either case, and a save
adds an entry to the list; so what a store answers does not depend on where the ledgers are kept.

Main definitions:

* `Tenancy.Saves` — ledgers that were saved, each with its key;
* `Tenancy.Saves.last?` — **the ledger saved last under a key**;
* `Tenancy.Directory.Holds` — **the files of a directory are those of the keys that were saved**;
* `Tenancy.Directory.Records` — what these files tell of the saves;
* `Tenancy.Store.Holds`, `Tenancy.FaultyStore.Holds` — the same of a store in either medium, and of
  one whose switches are off.

Main results:

* `Tenancy.FaultyStore.Holds.load`, `Tenancy.FaultyStore.Holds.save` — **loads find what was saved
  last, and saves are added**;
* `Tenancy.Directory.Holds.records` — a directory has one file for each key that was saved, and the
  file decodes to the ledger saved last.
-/

import Tenancy.Proofs.Ledger.Room
import Tenancy.Proofs.Store.Saved

set_option relaxedAutoImplicit false
set_option autoImplicit false

namespace Tenancy

/-! ### Lists of saves -/

/-- Ledgers that were saved, each with its key, the first save first. -/
abbrev Saves := List (String × Ledger)

namespace Saves

/-- **The ledger saved last under a key.** -/
def last? (saves : Saves) (key : String) : Option Ledger := saves.reverse.lookup key

/-- Every saved ledger has room. -/
def Roomy (saves : Saves) : Prop := ∀ entry ∈ saves, entry.2.Roomy

variable {saves : Saves} {key : String} {ledger : Ledger}

/-- A save replaces what was saved under its key and nothing else. -/
theorem last?_concat (saves : Saves) (key : String) (ledger : Ledger) (other : String) :
    last? (saves ++ [(key, ledger)]) other =
      if key = other then some ledger else saves.last? other := by
  rw [last?, List.reverse_append, List.reverse_singleton, List.singleton_append,
    List.lookup_cons, last?]
  by_cases h : key = other
  · subst h
    simp
  · rw [if_neg h, beq_false_of_ne (Ne.symm h)]

theorem mem_of_last? (h : saves.last? key = some ledger) : (key, ledger) ∈ saves := by
  obtain ⟨before, after, hsplit, -⟩ := List.lookup_eq_some_iff.1 h
  rw [← List.mem_reverse, hsplit]
  simp

/-- Something was saved under the keys that are listed, and only under these. -/
theorem exists_last?_iff :
    (∃ ledger, saves.last? key = some ledger) ↔ key ∈ saves.map Prod.fst := by
  constructor
  · rintro ⟨ledger, h⟩
    exact List.mem_map.2 ⟨_, mem_of_last? h, rfl⟩
  · intro h
    obtain ⟨entry, hmem, rfl⟩ := List.mem_map.1 h
    rw [← Option.isSome_iff_exists, Option.isSome_iff_ne_none]
    intro hnone
    have hother := List.lookup_eq_none_iff.1 hnone entry (List.mem_reverse.2 hmem)
    simp at hother

end Saves

/-! ### Files -/

namespace Directory

/-- **The files of a directory are those of the keys that were saved**, each with the form of the
ledger saved last. -/
def Holds (dir : Directory) (saves : Saves) : Prop :=
  ∀ (file : String) content, dir.files[file]? = some content ↔
    ∃ key ledger, saves.last? key = some ledger ∧ Store.recordFile key = file ∧
      ledger.encode = content

variable {dir : Directory} {saves : Saves} {key : String}

theorem holds_empty (path : String) : (empty path).Holds [] := by
  intro file content
  refine iff_of_false (fun h => ?_) fun ⟨key, ledger, hlast, _⟩ => ?_
  · rw [empty, Std.ExtTreeMap.getElem?_empty] at h
    cases h
  · cases hlast

/-- The file of a key has the form of what was saved last under the key. -/
theorem Holds.getElem?_recordFile (h : dir.Holds saves) (key : String) :
    dir.files[Store.recordFile key]? = (saves.last? key).map Ledger.encode := by
  ext content
  rw [Option.map_eq_some_iff, h]
  constructor
  · rintro ⟨other, ledger, hlast, hfile, hform⟩
    rw [Store.recordFile_inj] at hfile
    exact ⟨ledger, hfile ▸ hlast, hform⟩
  · rintro ⟨ledger, hlast, hform⟩
    exact ⟨key, ledger, hlast, rfl, hform⟩

theorem Holds.mem_files (h : dir.Holds saves) (file : String) :
    file ∈ dir.files ↔ ∃ key ∈ saves.map Prod.fst, Store.recordFile key = file := by
  rw [Std.ExtTreeMap.mem_iff_isSome_getElem?, Option.isSome_iff_exists]
  constructor
  · rintro ⟨content, hfile⟩
    obtain ⟨key, ledger, hlast, hname, -⟩ := (h file content).1 hfile
    exact ⟨key, Saves.exists_last?_iff.1 ⟨ledger, hlast⟩, hname⟩
  · rintro ⟨key, hkey, rfl⟩
    obtain ⟨ledger, hlast⟩ := Saves.exists_last?_iff.2 hkey
    rw [h.getElem?_recordFile, hlast]
    exact ⟨ledger.encode, rfl⟩

/-- **What the files of a directory tell of the saves.** -/
structure Records (dir : Directory) (saves : Saves) : Prop where
  /-- There is a file for each key that was saved, and every file is that of just one such key. -/
  files : ∀ file, file ∈ dir.files ↔ ∃! key, key ∈ saves.map Prod.fst ∧ Store.recordFile key = file
  /-- There is no draft. -/
  no_draft : ∀ key, Store.draftFile key ∉ dir.files
  /-- The file of a key decodes to the ledger saved last. -/
  decode : ∀ key ledger, saves.last? key = some ledger →
    ∃ content, dir.files[Store.recordFile key]? = some content ∧ Ledger.decode content = .ok ledger

theorem Holds.records (h : dir.Holds saves) (hroomy : saves.Roomy) : dir.Records saves where
  files file := by
    rw [h.mem_files]
    constructor
    · rintro ⟨key, hkey, rfl⟩
      exact ⟨key, ⟨hkey, rfl⟩, fun other ho => Store.recordFile_inj.1 ho.2⟩
    · rintro ⟨key, hkey, -⟩
      exact ⟨key, hkey⟩
  no_draft key hdraft := by
    obtain ⟨other, -, hname⟩ := (h.mem_files _).1 hdraft
    exact Store.draftFile_ne_recordFile key other hname.symm
  decode key ledger hlast := by
    refine ⟨ledger.encode, ?_, Ledger.decode_encode (hroomy _ (Saves.mem_of_last? hlast)).fits⟩
    rw [h.getElem?_recordFile, hlast, Option.map_some]

/-- **A save is added**: its file takes the place of the key's, and the draft is gone. -/
theorem Holds.save (h : dir.Holds saves) (key : String) (ledger : Ledger) :
    Holds { dir with
      files := (dir.files.erase (Store.draftFile key)).insert (Store.recordFile key)
        ledger.encode } (saves ++ [(key, ledger)]) := by
  intro file content
  constructor
  · intro hfile
    simp only [Std.ExtTreeMap.getElem?_insert, Std.ExtTreeMap.getElem?_erase,
      Std.LawfulEqCmp.compare_eq_iff_eq] at hfile
    split at hfile
    · rename_i hname
      cases hfile
      refine ⟨key, ledger, ?_, hname, rfl⟩
      rw [Saves.last?_concat, if_pos rfl]
    · rename_i hname
      split at hfile
      · cases hfile
      · obtain ⟨other, kept, hlast, rfl, hform⟩ := (h file content).1 hfile
        have hne : key ≠ other := fun he => hname (congrArg Store.recordFile he)
        refine ⟨other, kept, ?_, rfl, hform⟩
        rw [Saves.last?_concat, if_neg hne]
        exact hlast
  · rintro ⟨other, kept, hlast, rfl, rfl⟩
    rw [Saves.last?_concat] at hlast
    simp only [Store.getElem?_files_save]
    split at hlast
    · rename_i he
      cases hlast
      rw [if_pos he]
    · rename_i hne
      rw [if_neg hne, h.getElem?_recordFile, hlast, Option.map_some]

end Directory

/-! ### Stores in either medium -/

/-- Where a store keeps its ledgers. -/
inductive Medium where
  | memory
  | files
deriving DecidableEq, Repr

/-- **All that a store holds are the ledgers saved last.** -/
inductive Store.Holds : Store → Medium → Saves → Prop where
  /-- In memory, the ledgers themselves. -/
  | memory {ledgers : Std.ExtTreeMap String Ledger} {saves : Saves}
      (h : ∀ key : String, ledgers[key]? = saves.last? key) :
      Holds (.memory ledgers) .memory saves
  /-- In a directory, their files. -/
  | directory {dir : Directory} {saves : Saves} (h : dir.Holds saves) :
      Holds (.directory dir) .files saves

namespace Store

variable {store : Store} {medium : Medium} {saves : Saves} {key : String}

theorem holds_inMemory : inMemory.Holds .memory [] :=
  .memory fun _ => Std.ExtTreeMap.getElem?_empty

theorem holds_inDirectory (path : String) : (inDirectory path).Holds .files [] :=
  .directory (Directory.holds_empty path)

/-- **A load finds what was saved last.** -/
theorem Holds.load (h : store.Holds medium saves) (hroomy : saves.Roomy) (hfile : HasFile key) :
    store.load key = .ok (saves.last? key) := by
  cases h with
  | memory h => exact congrArg Except.ok (h key)
  | directory h =>
      simp only [Store.load, Directory.load, if_pos hfile, h.getElem?_recordFile]
      cases hlast : saves.last? key with
      | none => rfl
      | some ledger =>
          have hfits := (hroomy _ (Saves.mem_of_last? hlast)).fits
          simp only [Option.map_some, Ledger.decode_encode hfits]

/-- **A save is added.** -/
theorem Holds.save (h : store.Holds medium saves) (hfile : HasFile key) (ledger : Ledger) :
    ∃ store', store.save key ledger = .ok store' ∧
      store'.Holds medium (saves ++ [(key, ledger)]) := by
  cases h with
  | @memory ledgers _ h =>
      refine ⟨.memory (ledgers.insert key ledger), rfl, .memory fun other => ?_⟩
      simp only [Std.ExtTreeMap.getElem?_insert, Std.LawfulEqCmp.compare_eq_iff_eq,
        Saves.last?_concat, h]
  | directory h =>
      refine ⟨_, ?_, .directory (h.save key ledger)⟩
      rw [Store.save, Directory.save, if_pos hfile]
      rfl

end Store

namespace FaultyStore

/-- **All that a store holds are the ledgers saved last, and it fails on no demand.** -/
structure Holds (store : FaultyStore) (medium : Medium) (saves : Saves) : Prop where
  inner : store.inner.Holds medium saves
  loads : store.loadFails = false
  saves : store.savesUntilFault = none

variable {store : FaultyStore} {medium : Medium} {saves : Saves} {key : String}

theorem holds_new {inner : Store} (h : inner.Holds medium saves) :
    (new inner).Holds medium saves :=
  ⟨h, rfl, rfl⟩

/-- **A load finds what was saved last**, and leaves the store as it was. -/
theorem Holds.load (h : store.Holds medium saves) (hroomy : saves.Roomy)
    (hfile : Store.HasFile key) : store.load key = (.ok (saves.last? key), store) := by
  rw [FaultyStore.load, h.loads, h.inner.load hroomy hfile]
  rfl

/-- **A save is added.** -/
theorem Holds.save (h : store.Holds medium saves) (hfile : Store.HasFile key) (ledger : Ledger) :
    (store.save key ledger).1 = .ok () ∧
      (store.save key ledger).2.Holds medium (saves ++ [(key, ledger)]) := by
  obtain ⟨inner, hsave, hinner⟩ := h.inner.save hfile ledger
  simp only [FaultyStore.save, h.saves, passSave, hsave]
  exact ⟨trivial, hinner, h.loads, rfl⟩

end FaultyStore

end Tenancy
