/-
**Files tell keys apart and stay in their directory.**

The name of a key's file is the written form of the key and an ending.  The written form has
letters, digits, low lines, percent signs and hyphens only; so a name contains nothing that would
lead out of the directory, and its only dot is that of the ending.  A draft has the name of the file
with its ending replaced.  The file of the empty key has a name that begins with its only dot, which
begins no ending: the name is kept whole, so that the draft has two dots and is nobody else's.

Main definitions:

* `Tenancy.Store.IsNameChar` — the characters of written forms;
* `Tenancy.Store.beforeLastDot?`, `Tenancy.Store.withEnding` — what stands before the last dot of a
  name, and **a name with its ending replaced**.

Main results:

* `Tenancy.Store.isNameChar_of_mem_stem` — the characters of a written form;
* `Tenancy.Store.draftFile_eq_withEnding` — **a draft has the name of the file with its ending
  replaced**;
* `Tenancy.Store.draftFile_inj` — drafts of different keys are different;
* `Tenancy.Store.files_kept_apart` — **files tell keys apart and stay in their directory**.
-/

import Tenancy.Proofs.Store.Saved

set_option relaxedAutoImplicit false
set_option autoImplicit false

namespace Tenancy.Store

variable {key other : String} {c : Char}

/-! ### The characters of a written form -/

/-- An ASCII letter or digit, a low line, a percent sign or a hyphen. -/
def IsNameChar (c : Char) : Prop := c.isAlphanum = true ∨ c = '_' ∨ c = '%' ∨ c = '-'

instance (c : Char) : Decidable (IsNameChar c) :=
  inferInstanceAs (Decidable (c.isAlphanum = true ∨ c = '_' ∨ c = '%' ∨ c = '-'))

/-- Letters and digits by their numbers. -/
theorem isAlphanum_iff : c.isAlphanum = true ↔ (0x30 ≤ c.toNat ∧ c.toNat ≤ 0x39) ∨
    (0x41 ≤ c.toNat ∧ c.toNat ≤ 0x5A) ∨ (0x61 ≤ c.toNat ∧ c.toNat ≤ 0x7A) := by
  have hn : c.val.toNat = c.toNat := rfl
  have hclasses : c.isAlphanum = (decide (c.val ≥ 'A'.val ∧ c.val ≤ 'Z'.val) ||
      decide (c.val ≥ 'a'.val) && decide (c.val ≤ 'z'.val) ||
      decide (c.val ≥ '0'.val) && decide (c.val ≤ '9'.val)) := rfl
  simp only [hclasses, Bool.or_eq_true, Bool.and_eq_true, decide_eq_true_eq, ge_iff_le,
    UInt32.le_iff_toNat_le, hn, Char.reduceVal, UInt32.reduceToNat]
  omega

theorem isNameChar_hexDigit {n : Nat} (h : n < 16) : IsNameChar (hexDigit n) := by
  have hall : ∀ n < 16, IsNameChar (hexDigit n) := by decide
  exact hall n h

/-- An octet is written in these characters. -/
theorem isNameChar_of_mem_escapeOctet {b : UInt8} (h : c ∈ escapeOctet b) : IsNameChar c := by
  unfold escapeOctet at h
  split at h
  · rename_i hplain
    obtain ⟨hn, -⟩ := ofNat_toNat_of_plain hplain
    rw [List.mem_singleton] at h
    rw [← h] at hn
    simp only [isPlain, Bool.or_eq_true, Bool.and_eq_true, decide_eq_true_eq, beq_iff_eq] at hplain
    rw [← hn] at hplain
    rcases hplain with ((hletter | hlow) | hhyphen)
    · exact .inl (isAlphanum_iff.2 (by omega))
    · exact .inr (.inl (Char.toNat_inj.1 hlow))
    · exact .inr (.inr (.inr (Char.toNat_inj.1 hhyphen)))
  · have hb : b.toNat < 256 := b.toNat_lt
    simp only [List.mem_cons, List.not_mem_nil, or_false] at h
    rcases h with rfl | rfl | rfl
    · decide
    · exact isNameChar_hexDigit (by omega)
    · exact isNameChar_hexDigit (by omega)

/-- **A key is written in these characters.** -/
theorem isNameChar_of_mem_stem (h : c ∈ stem key) : IsNameChar c := by
  obtain ⟨b, -, hc⟩ := List.mem_flatMap.1 h
  exact isNameChar_of_mem_escapeOctet hc

theorem not_mem_stem (h : ¬ IsNameChar c) (key : String) : c ∉ stem key :=
  fun hc => h (isNameChar_of_mem_stem hc)

/-- Only the empty key is written with no character. -/
theorem stem_eq_nil_iff : stem key = [] ↔ key = "" := by
  constructor
  · intro h
    exact stem_injective h
  · rintro rfl
    rfl

/-! ### Endings -/

/-- What stands before the last dot of a name, if there is a dot. -/
def beforeLastDot? : List Char → Option (List Char)
  | [] => none
  | c :: cs =>
      match beforeLastDot? cs with
      | some before => some (c :: before)
      | none => if c = '.' then some [] else none

/-- **The name with its ending replaced.**  An ending begins at the last dot, but not at the first
character; a name without an ending is kept whole.  One dot and two dots name no file, and stay as
they are. -/
def withEnding (name ending : String) : String :=
  if name = "." ∨ name = ".." then name
  else
    match beforeLastDot? name.toList with
    | some (c :: before) => String.ofList (c :: before) ++ "." ++ ending
    | _ => name ++ "." ++ ending

theorem beforeLastDot?_append {text before : List Char} (h : beforeLastDot? text = some before)
    (front : List Char) : beforeLastDot? (front ++ text) = some (front ++ before) := by
  induction front with
  | nil => exact h
  | cons c front ih => rw [List.cons_append, beforeLastDot?, ih, List.cons_append]

/-- The last dot of a file's name is that of its ending. -/
theorem beforeLastDot?_recordFile (key : String) :
    beforeLastDot? (recordFile key).toList = some (stem key) := by
  have hending : beforeLastDot? ['.', 'b', 'i', 'n'] = some [] := rfl
  rw [recordFile, String.toList_ofList, beforeLastDot?_append hending, List.append_nil]

/-- The name of a file is neither of the names that lead to directories. -/
theorem recordFile_ne_dots (key : String) : recordFile key ≠ "." ∧ recordFile key ≠ ".." := by
  have hmem : 'b' ∈ (recordFile key).toList := by
    rw [recordFile, String.toList_ofList]
    simp
  constructor
  · intro h
    rw [h] at hmem
    exact absurd hmem (by decide)
  · intro h
    rw [h] at hmem
    exact absurd hmem (by decide)

/-- A character of no written form is in no name of a file, if it is not in the ending either. -/
theorem not_mem_recordFile (h : ¬ IsNameChar c) (hending : c ∉ ['.', 'b', 'i', 'n'])
    (key : String) : c ∉ (recordFile key).toList := by
  rw [recordFile, String.toList_ofList, List.mem_append, not_or]
  exact ⟨not_mem_stem h key, hending⟩

/-! ### Drafts -/

/-- **A draft has the name of the file with its ending replaced.** -/
theorem draftFile_eq_withEnding (key : String) :
    draftFile key = withEnding (recordFile key) "tmp" := by
  obtain ⟨hone, htwo⟩ := recordFile_ne_dots key
  rw [withEnding, if_neg (not_or.2 ⟨hone, htwo⟩), beforeLastDot?_recordFile]
  cases hstem : stem key with
  | nil =>
      -- the name begins with its only dot
      obtain rfl := stem_eq_nil_iff.1 hstem
      decide
  | cons c rest =>
      have hne : stem key ≠ [] := by
        rw [hstem]
        exact List.cons_ne_nil c rest
      have hending : ['.', 't', 'm', 'p'] = ".".toList ++ "tmp".toList := by decide
      rw [draftFile, if_neg hne, hstem, hending, ← String.toList_inj]
      simp only [String.toList_append, String.toList_ofList, List.append_assoc]

/-- What stands before the last dot of a draft: the written form of the key, or what the name of the
file of the empty key is. -/
theorem beforeLastDot?_draftFile (key : String) :
    beforeLastDot? (draftFile key).toList =
      some (if stem key = [] then ['.', 'b', 'i', 'n'] else stem key) := by
  have hending : beforeLastDot? ['.', 't', 'm', 'p'] = some [] := rfl
  unfold draftFile
  split
  · decide
  · rw [String.toList_ofList, beforeLastDot?_append hending, List.append_nil]

/-- **Drafts of different keys are different.** -/
theorem draftFile_inj : draftFile key = draftFile other ↔ key = other := by
  constructor
  · intro h
    have hdot : ∀ k, '.' ∉ stem k := not_mem_stem (by decide)
    have hbefore := beforeLastDot?_draftFile key
    rw [h, beforeLastDot?_draftFile other, Option.some.injEq] at hbefore
    split at hbefore
    · rename_i hother
      split at hbefore
      · rename_i hkey
        rw [stem_eq_nil_iff.1 hkey, stem_eq_nil_iff.1 hother]
      · -- only the draft of the empty key has a second dot
        exact (hdot key (hbefore ▸ List.mem_cons_self)).elim
    · split at hbefore
      · exact (hdot other (hbefore ▸ List.mem_cons_self)).elim
      · exact stem_injective hbefore.symm
  · rintro rfl
    rfl

/-! ### Files kept apart -/

/-- A save writes the file of its key, clears its draft away, and touches no other file. -/
theorem files_of_save (hfile : HasFile key) (dir : Directory) (ledger : Ledger) :
    ∃ dir', dir.save key ledger = .ok dir' ∧
      dir'.files[recordFile key]? = some ledger.encode ∧ dir'.files[draftFile key]? = none ∧
      ∀ file, file ≠ recordFile key → file ≠ draftFile key →
        dir'.files[file]? = dir.files[file]? := by
  refine ⟨_, if_pos hfile, ?_, ?_, ?_⟩
  · exact Std.ExtTreeMap.getElem?_insert_self
  · have hne := (draftFile_ne_recordFile key key).symm
    simp only [Std.ExtTreeMap.getElem?_insert, Std.ExtTreeMap.getElem?_erase,
      Std.LawfulEqCmp.compare_eq_iff_eq, if_neg hne, if_pos]
  · intro file hrecord hdraft
    simp only [Std.ExtTreeMap.getElem?_insert, Std.ExtTreeMap.getElem?_erase,
      Std.LawfulEqCmp.compare_eq_iff_eq, if_neg hrecord.symm, if_neg hdraft.symm]

/-- **Files tell keys apart and stay in their directory.**  Two keys have one file only if they are
the same.  A name is letters, digits, low lines, percent signs and hyphens before its ending; so it
has no separator of paths in it, and it is none of the names that lead to directories.  The draft
of a key, which has the name of the file with its ending replaced, is no file and no draft of any
other key.  A save uses these two names and no others. -/
theorem files_kept_apart (key other : String) :
    (recordFile key = recordFile other ↔ key = other) ∧
      (∃ written, (recordFile key).toList = written ++ ".bin".toList ∧
        ∀ c ∈ written, IsNameChar c) ∧
      '/' ∉ (recordFile key).toList ∧ '\\' ∉ (recordFile key).toList ∧
      recordFile key ≠ "." ∧ recordFile key ≠ ".." ∧
      draftFile key = withEnding (recordFile key) "tmp" ∧
      draftFile key ≠ recordFile other ∧
      (draftFile key = draftFile other ↔ key = other) ∧
      (HasFile key → ∀ (dir : Directory) (ledger : Ledger),
        ∃ dir', dir.save key ledger = .ok dir' ∧
          dir'.files[recordFile key]? = some ledger.encode ∧ dir'.files[draftFile key]? = none ∧
          ∀ file, file ≠ recordFile key → file ≠ draftFile key →
            dir'.files[file]? = dir.files[file]?) := by
  obtain ⟨hone, htwo⟩ := recordFile_ne_dots key
  refine ⟨recordFile_inj, ⟨stem key, ?_, fun c => isNameChar_of_mem_stem⟩, ?_, ?_, hone, htwo,
    draftFile_eq_withEnding key, draftFile_ne_recordFile key other, draftFile_inj,
    fun hfile => files_of_save hfile⟩
  · rw [recordFile, String.toList_ofList]
    rfl
  · exact not_mem_recordFile (by decide) (by decide) key
  · exact not_mem_recordFile (by decide) (by decide) key

theorem files_kept_apart_empty :
    recordFile "" = ".bin" ∧ draftFile "" = ".bin.tmp" ∧
      recordFile "../%" = "%2E%2E%2F%25.bin" ∧ recordFile "" ≠ recordFile "../%" ∧
      draftFile "" ≠ draftFile "../%" ∧
      ∀ (dir : Directory) (ledger : Ledger), ∃ dir', dir.save "" ledger = .ok dir' ∧
        dir'.files[".bin"]? = some ledger.encode ∧ dir'.files[".bin.tmp"]? = none ∧
        dir'.files["%2E%2E%2F%25.bin"]? = dir.files["%2E%2E%2F%25.bin"]? := by
  have hrecord : recordFile "" = ".bin" := by decide +kernel
  have hdraft : draftFile "" = ".bin.tmp" := by decide +kernel
  have hescaped : recordFile "../%" = "%2E%2E%2F%25.bin" := by decide +kernel
  obtain ⟨hfiles, -, -, -, -, -, -, -, hdrafts, hsaves⟩ := files_kept_apart "" "../%"
  have hne : ¬ "" = "../%" := by decide
  refine ⟨hrecord, hdraft, hescaped, fun h => hne (hfiles.1 h), fun h => hne (hdrafts.1 h), ?_⟩
  intro dir ledger
  obtain ⟨dir', hsave, hwritten, hcleared, hrest⟩ := hsaves (by decide +kernel) dir ledger
  rw [hrecord] at hwritten hrest
  rw [hdraft] at hcleared hrest
  exact ⟨dir', hsave, hwritten, hcleared, hrest _ (by decide) (by decide)⟩

end Tenancy.Store
