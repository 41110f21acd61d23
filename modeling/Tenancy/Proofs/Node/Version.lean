/-
**What a node loads it can save, as the next version.**

A node loads the ledger that is stored under its key, or an empty one where there is none.  What was
read from a file fits its form, and a change of it fits as well, as long as one more lease can be
counted; so what a transaction saves is what is loaded next, and its version is one higher.  In
memory nothing has to fit.

Main definitions:

* `Tenancy.Store.Addressable` — a store whose files a memory can hold;
* `Tenancy.Store.version`, `Tenancy.Store.leaseCount` — of the ledger stored under a key;
* `Tenancy.Store.HasRoom` — **how many more leases can be counted** in the file of a key.

Main results:

* `Tenancy.Store.Addressable.hasRoom` — files that a memory can hold have room;
* `Tenancy.Settings.load_of_save` — **what a transaction saves is what is loaded next**;
* `Tenancy.Settings.Ending.version` — **the version counts the saved changes**;
* `Tenancy.Settings.Ending.hasRoom` — a saved change takes at most the room of one lease.
-/

import Tenancy.Proofs.Ledger.Reading
import Tenancy.Proofs.Node.Transaction
import Tenancy.Proofs.Store.Saved

set_option relaxedAutoImplicit false
set_option autoImplicit false

namespace Tenancy

/-! ### Room in a store -/

namespace Store

/-- A store whose files a memory can hold; nothing need be said of a store in memory. -/
def Addressable : Store → Prop
  | .memory _ => True
  | .directory dir =>
      ∀ (file : String) content, dir.files[file]? = some content → content.Addressable

/-- The version of the ledger stored under a key; zero if there is none. -/
def version (store : Store) (key : String) : UInt64 :=
  match store.load key with
  | .ok (some ledger) => ledger.version
  | _ => 0

/-- The number of leases in the ledger stored under a key; zero if there is none. -/
def leaseCount (store : Store) (key : String) : Nat :=
  match store.load key with
  | .ok (some ledger) => ledger.leases.size
  | _ => 0

/-- **In the file of a key so many more leases can be counted**; nothing need be said of a store in
memory. -/
def HasRoom (store : Store) (key : String) (count : Nat) : Prop :=
  ∀ dir, store = .directory dir → store.leaseCount key + count < Octets.wordCount 8

variable {store store' : Store} {dir : Directory} {key : String} {ledger : Ledger}

theorem version_of_load (h : store.load key = .ok (some ledger)) :
    store.version key = ledger.version := by
  rw [version, h]

theorem leaseCount_of_load (h : store.load key = .ok (some ledger)) :
    store.leaseCount key = ledger.leases.size := by
  rw [leaseCount, h]

theorem hasRoom_memory (ledgers : Std.ExtTreeMap String Ledger) (key : String) (count : Nat) :
    (Store.memory ledgers).HasRoom key count := by
  intro dir h
  cases h

theorem HasRoom.mono {m n : Nat} (h : store.HasRoom key n) (hmn : m ≤ n) :
    store.HasRoom key m := by
  intro dir hdir
  have hroom := h dir hdir
  omega

/-- A ledger loaded from a directory was read from a file. -/
theorem exists_file_of_load (h : (Store.directory dir).load key = .ok (some ledger)) :
    ∃ content, dir.files[recordFile key]? = some content ∧
      Ledger.decode content = .ok ledger := by
  simp only [load, Directory.load] at h
  split at h
  · split at h
    · cases h
    · rename_i content hfile
      split at h
      · rename_i read hread
        cases h
        exact ⟨content, hfile, hread⟩
      · cases h
  · cases h

/-- **Files that a memory can hold have room.** -/
theorem Addressable.hasRoom (h : store.Addressable) {count : Nat}
    (hcount : 2 * count ≤ Octets.wordCount 8) : store.HasRoom key count := by
  rintro dir rfl
  rw [leaseCount]
  split
  · rename_i ledger hload
    obtain ⟨content, hfile, hread⟩ := exists_file_of_load hload
    have hsize := (Ledger.fits_of_decode hread).2
    have hcontent := h _ _ hfile
    rw [Octets.Addressable] at hcontent
    omega
  · have hpos : 0 < Octets.wordCount 8 := by decide
    omega

/-- A store of files does not come from one in memory. -/
theorem exists_directory_of_save (h : store.save key ledger = .ok (.directory dir)) :
    ∃ before, store = .directory before := by
  cases store with
  | memory ledgers => cases h
  | directory before => exact ⟨before, rfl⟩

end Store

/-- Whether a change was saved. -/
def Outcome.isCommitted {α : Type} : Outcome α → Bool
  | .committed _ _ => true
  | .answered _ | .refused _ | .rolledBack _ => false

namespace Settings

variable {s : Settings} {r : Request} {b : Backend} {loaded changed : Ledger} {store : Store}
  {count : Nat}

/-! ### What is loaded -/

/-- A load that succeeds leaves the store as it was. -/
theorem store_of_load {before after : FaultyStore} (h : s.load before = (.ok loaded, after)) :
    after = before := by
  have hoff := (load_eq_ok (congrArg Prod.fst h)).1
  have hload : before.load s.key = (before.inner.load s.key, before) := by
    rw [FaultyStore.load, hoff]
    rfl
  simp only [load, hload] at h
  split at h
  · rename_i heq
    cases h
    exact (congrArg Prod.snd heq).symm
  · rename_i heq
    cases h
    exact (congrArg Prod.snd heq).symm
  · cases h

theorem version_of_load (h : (s.load b.store).1 = .ok loaded) :
    loaded.version = b.store.inner.version s.key := by
  rcases (load_eq_ok h).2 with hstored | ⟨hnone, rfl⟩
  · exact (Store.version_of_load hstored).symm
  · rw [Store.version, hnone]
    rfl

theorem leaseCount_of_load (h : (s.load b.store).1 = .ok loaded) :
    loaded.leases.size = b.store.inner.leaseCount s.key := by
  rcases (load_eq_ok h).2 with hstored | ⟨hnone, rfl⟩
  · exact (Store.leaseCount_of_load hstored).symm
  · rw [Store.leaseCount, hnone]
    exact Std.ExtTreeMap.size_empty

/-- The names in what is loaded from a directory fit. -/
theorem namesFit_of_load {dir : Directory} (hdir : b.store.inner = .directory dir)
    (h : (s.load b.store).1 = .ok loaded) : loaded.NamesFit := by
  rcases (load_eq_ok h).2 with hstored | ⟨-, rfl⟩
  · rw [hdir] at hstored
    obtain ⟨content, -, hread⟩ := Store.exists_file_of_load hstored
    exact (Ledger.fits_of_decode hread).1.names
  · intro tenant lease he
    rw [Ledger.lease?_empty] at he
    cases he

/-! ### What is saved -/

/-- **What a transaction saves is what is loaded next**, in a directory if one more lease can be
counted. -/
theorem load_of_save {answer : r.Answer} (load : (s.load b.store).1 = .ok loaded)
    (serve : loaded.serve s.slots r = .ok (answer, some changed))
    (save : b.store.inner.save s.key (changed.advance loaded) = .ok store) (hr : r.NamesFit)
    (hroom : b.store.inner.HasRoom s.key 1) :
    store.load s.key = .ok (some (changed.advance loaded)) := by
  refine Store.load_save_self (fun dir hdir => ?_) save
  obtain ⟨tenant, ht, hchange⟩ := Ledger.change_of_serve serve
  have hsize : loaded.leases.size + 1 < Octets.wordCount 8 := by
    rw [leaseCount_of_load load]
    exact hroom dir hdir
  exact (hchange.fits (hr tenant ht) (namesFit_of_load hdir load) hsize).advance loaded

/-- **The version counts the saved changes.** -/
theorem Ending.version {outcome : Outcome r.Answer} (h : s.Ending r b outcome store)
    (hr : r.NamesFit) (hroom : b.store.inner.HasRoom s.key outcome.isCommitted.toNat) :
    store.version s.key =
      b.store.inner.version s.key + UInt64.ofNat outcome.isCommitted.toNat := by
  cases h with
  | committed loaded changed answer store free load serve save =>
      rw [Store.version_of_load (load_of_save load serve save hr hroom), ← version_of_load load]
      rfl
  | locked | notLoaded | denied | answered | notSaved => exact (UInt64.add_zero _).symm

/-- **A saved change takes at most the room of one lease.** -/
theorem Ending.hasRoom {outcome : Outcome r.Answer} (h : s.Ending r b outcome store)
    (hr : r.NamesFit) (hroom : b.store.inner.HasRoom s.key (outcome.isCommitted.toNat + count)) :
    store.HasRoom s.key count := by
  cases h with
  | committed loaded changed answer store free load serve save =>
      rintro dir rfl
      obtain ⟨before, hbefore⟩ := Store.exists_directory_of_save save
      obtain ⟨tenant, -, hchange⟩ := Ledger.change_of_serve serve
      have hone := hroom.mono (Nat.le_add_right 1 count)
      rw [Store.leaseCount_of_load (load_of_save load serve save hr hone)]
      have hsize : changed.leases.size ≤ loaded.leases.size + 1 := hchange.size_leases_le
      have hcounted : b.store.inner.leaseCount s.key + (1 + count) < Octets.wordCount 8 :=
        hroom before hbefore
      rw [leaseCount_of_load load] at hsize
      show changed.leases.size + count < _
      omega
  | locked | notLoaded | denied | answered | notSaved =>
      exact hroom.mono (Nat.le_add_left ..)

end Settings

end Tenancy
