/-
**What a save leaves under each key.**

A save replaces what its key holds and nothing else.  In a directory this rests on the names of
files: two keys never share a file, and a draft, which a save clears away, is never the file of any
key.  What was saved is loaded again; in a directory this needs the ledger to fit its form.

Main definitions:

* `Tenancy.Store.Content`, `Tenancy.Store.content?` — **what a store holds under a key**, whether or
  not it is a ledger;
* `Tenancy.Store.contentOf` — what a save makes of a ledger.

Main results:

* `Tenancy.Store.recordFile_inj`, `Tenancy.Store.draftFile_ne_recordFile` — files of different keys
  are different, and drafts are other files;
* `Tenancy.Store.content?_save` — **a save changes what its key holds and nothing else**;
* `Tenancy.Store.load_save_self`, `Tenancy.Store.load_save_of_ne` — so do the loads after it.
-/

import Tenancy.Proofs.Ledger.RoundTrip
import Tenancy.Store.Basic

set_option relaxedAutoImplicit false
set_option autoImplicit false

namespace Tenancy.Store

/-! ### Names of files -/

theorem stem_injective {k₁ k₂ : String} (h : stem k₁ = stem k₂) : k₁ = k₂ := by
  have hoctets : Utf8.encode k₁ = Utf8.encode k₂ := by
    rw [← unescape_escape (Utf8.encode k₁), ← unescape_escape (Utf8.encode k₂)]
    exact congrArg unescape h
  have hread : Utf8.decode (Utf8.encode k₁) = Utf8.decode (Utf8.encode k₂) := by rw [hoctets]
  rw [Utf8.decode_encode, Utf8.decode_encode] at hread
  exact Except.ok.inj hread

/-- Two keys never share a file. -/
theorem recordFile_inj {k₁ k₂ : String} : recordFile k₁ = recordFile k₂ ↔ k₁ = k₂ := by
  constructor
  · intro h
    have hchars := String.ofList_inj.1 h
    exact stem_injective (List.append_cancel_right hchars)
  · rintro rfl
    rfl

/-- A draft is never the file of a key: their names end differently. -/
theorem draftFile_ne_recordFile (k₁ k₂ : String) : draftFile k₁ ≠ recordFile k₂ := by
  intro h
  have hlast : (draftFile k₁).toList.getLast? = (recordFile k₂).toList.getLast? := by rw [h]
  have hrecord : (recordFile k₂).toList.getLast? = some 'n' := by
    simp [recordFile]
  have hdraft : (draftFile k₁).toList.getLast? = some 'p' := by
    unfold draftFile
    split
    · rfl
    · simp
  rw [hrecord, hdraft] at hlast
  simp at hlast

/-! ### What a key holds -/

/-- What a store may hold under a key: a ledger, or the octets of a file. -/
inductive Content where
  | ledger (ledger : Ledger)
  | octets (octets : Octets)
deriving DecidableEq

/-- **What a store holds under a key.** -/
def content? : Store → String → Option Content
  | .memory ledgers, key => ledgers[key]?.map .ledger
  | .directory dir, key => dir.files[recordFile key]?.map .octets

/-- What a save makes of a ledger. -/
def contentOf : Store → Ledger → Content
  | .memory _, ledger => .ledger ledger
  | .directory _, ledger => .octets ledger.encode

variable {store store' : Store} {key : String} {ledger : Ledger}

/-- A save to a directory was possible, and it left the files so. -/
theorem save_directory_eq_ok {dir : Directory}
    (h : (Store.directory dir).save key ledger = .ok store') :
    HasFile key ∧ store' = .directory { dir with
      files := (dir.files.erase (draftFile key)).insert (recordFile key) ledger.encode } := by
  simp only [save, Directory.save] at h
  split at h
  · rename_i hfile
    cases h
    exact ⟨hfile, rfl⟩
  · cases h

/-- After a save the file of a key is the new one if the key is the saved one, and unchanged
otherwise. -/
theorem getElem?_files_save (dir : Directory) (key other : String) (content : Octets) :
    ((dir.files.erase (draftFile key)).insert (recordFile key) content)[recordFile other]? =
      if key = other then some content else dir.files[recordFile other]? := by
  simp only [Std.ExtTreeMap.getElem?_insert, Std.ExtTreeMap.getElem?_erase,
    Std.LawfulEqCmp.compare_eq_iff_eq, recordFile_inj, if_neg (draftFile_ne_recordFile key other)]

/-- **A save changes what its key holds and nothing else.** -/
theorem content?_save (h : store.save key ledger = .ok store') (other : String) :
    store'.content? other =
      if key = other then some (store.contentOf ledger) else store.content? other := by
  cases store with
  | memory ledgers =>
      cases h
      simp only [content?, contentOf, Std.ExtTreeMap.getElem?_insert,
        Std.LawfulEqCmp.compare_eq_iff_eq]
      split <;> rfl
  | directory dir =>
      obtain ⟨-, rfl⟩ := save_directory_eq_ok h
      simp only [content?, contentOf, getElem?_files_save]
      split <;> rfl

/-- **What was saved is loaded again**, in a directory if the ledger fits its form. -/
theorem load_save_self (hfits : ∀ dir, store = .directory dir → ledger.Fits)
    (h : store.save key ledger = .ok store') : store'.load key = .ok (some ledger) := by
  cases store with
  | memory ledgers =>
      rw [load_memory_save h, if_pos rfl]
  | directory dir =>
      obtain ⟨hfile, rfl⟩ := save_directory_eq_ok h
      simp only [load, Directory.load, if_pos hfile, getElem?_files_save, if_pos,
        Ledger.decode_encode (hfits dir rfl)]

/-- The loads of other keys are as before. -/
theorem load_save_of_ne (h : store.save key ledger = .ok store') {other : String}
    (hne : key ≠ other) : store'.load other = store.load other := by
  cases store with
  | memory ledgers =>
      rw [load_memory_save h, if_neg hne]
  | directory dir =>
      obtain ⟨-, rfl⟩ := save_directory_eq_ok h
      simp only [load, Directory.load, getElem?_files_save, if_neg hne]

end Tenancy.Store
