/-
**Stores of ledgers.**

A store keeps one ledger for each key and loads and saves it as a whole.  In memory the ledgers are
kept as they are.  In a directory each ledger is the content of a file; a directory may also hold
files that no save has written, and refuses names that are too long.

Main definitions:

* `Tenancy.Directory` — a directory of files;
* `Tenancy.Directory.load`, `Tenancy.Directory.save` — the ledger in a key's file;
* `Tenancy.Store` — **a store**, in memory or in a directory;
* `Tenancy.Store.load`, `Tenancy.Store.save` — loading and saving a ledger.

Main results:

* `Tenancy.Store.load_memory_save` — **in memory a save is what later loads of the key find**, and
  other keys are left alone.
-/

import Tenancy.Ledger.Form
import Tenancy.Store.FileName

set_option relaxedAutoImplicit false
set_option autoImplicit false

namespace Tenancy

/-! ### Directories -/

/-- A directory: where it is, and the content of each file by its name. -/
structure Directory where
  path : String
  files : Std.ExtTreeMap String Octets
deriving DecidableEq

namespace Directory

/-- A directory without files. -/
def empty (path : String) : Directory := ⟨path, ∅⟩

/-- The directory with a file's content set. -/
def write (d : Directory) (file : String) (content : Octets) : Directory :=
  { d with files := d.files.insert file content }

/-- The ledger in a key's file, if the file exists. -/
def load (d : Directory) (key : String) : Except StorageFault (Option Ledger) :=
  if Store.HasFile key then
    match d.files[Store.recordFile key]? with
    | none => .ok none
    | some content =>
        match Ledger.decode content with
        | .ok ledger => .ok (some ledger)
        | .error fault =>
            .error (.deserialization s!"{d.path}/{Store.recordFile key}: {fault.message}")
  else .error .nameTooLong

/-- Saves a ledger in a key's file: it is written as a draft, which then takes the place of the
file, so that no draft remains. -/
def save (d : Directory) (key : String) (ledger : Ledger) : Except StorageFault Directory :=
  if Store.HasFile key then
    .ok { d with
      files := (d.files.erase (Store.draftFile key)).insert (Store.recordFile key) ledger.encode }
  else .error .nameTooLong

theorem load_of_not_hasFile (d : Directory) {key : String} (h : ¬ Store.HasFile key) :
    d.load key = .error .nameTooLong :=
  if_neg h

theorem save_of_not_hasFile (d : Directory) {key : String} (h : ¬ Store.HasFile key)
    (ledger : Ledger) : d.save key ledger = .error .nameTooLong :=
  if_neg h

end Directory

/-! ### Stores -/

/-- **Where ledgers are kept.** -/
inductive Store where
  /-- In memory, by their keys. -/
  | memory (ledgers : Std.ExtTreeMap String Ledger)
  /-- In the files of a directory. -/
  | directory (dir : Directory)
deriving DecidableEq

namespace Store

/-- A store in memory without ledgers. -/
def inMemory : Store := .memory ∅

/-- A store in an empty directory. -/
def inDirectory (path : String) : Store := .directory (.empty path)

/-- Loads the ledger of a key, if there is one. -/
def load : Store → String → Except StorageFault (Option Ledger)
  | .memory ledgers, key => .ok ledgers[key]?
  | .directory dir, key => dir.load key

/-- Saves the ledger of a key. -/
def save : Store → String → Ledger → Except StorageFault Store
  | .memory ledgers, key, ledger => .ok (.memory (ledgers.insert key ledger))
  | .directory dir, key, ledger => (dir.save key ledger).map .directory

/-- The files of a store with their contents, ascending by name; a store in memory has none. -/
def files : Store → List (String × Octets)
  | .memory _ => []
  | .directory dir => dir.files.toList

/-- Writes a file past the store; a store in memory has no place for it. -/
def writeFile : Store → String → Octets → Store
  | .memory ledgers, _, _ => .memory ledgers
  | .directory dir, file, content => .directory (dir.write file content)

/-- In memory a save is what later loads of the key find, and other keys are left alone. -/
theorem load_memory_save {ledgers : Std.ExtTreeMap String Ledger} {s : Store} {key : String}
    {ledger : Ledger} (h : (Store.memory ledgers).save key ledger = .ok s) (other : String) :
    s.load other =
      if key = other then .ok (some ledger) else (Store.memory ledgers).load other := by
  cases h
  simp only [load, Std.ExtTreeMap.getElem?_insert, Std.LawfulEqCmp.compare_eq_iff_eq]
  split <;> rfl

end Store

end Tenancy
