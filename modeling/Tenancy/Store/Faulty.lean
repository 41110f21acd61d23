/-
**A store that fails on demand.**

A store with two switches.  The one makes the next load fail; the other lets a given number of saves
pass and makes the one after them fail.  Each switch works once.  What fails does not reach the
store inside; everything else does.  Failures and saves are counted.

Main definitions:

* `Tenancy.FaultCounts` — the counts;
* `Tenancy.FaultyStore` — **the store with its switches and counts**;
* `Tenancy.FaultyStore.failNextLoad`, `Tenancy.FaultyStore.failSaveAfter`,
  `Tenancy.FaultyStore.failNextSave` — setting the switches;
* `Tenancy.FaultyStore.load`, `Tenancy.FaultyStore.save` — loading and saving.

Main results:

* `Tenancy.FaultyStore.inner_load` — a load never changes the store inside;
* `Tenancy.FaultyStore.inner_save_of_error` — **a save that fails leaves the store inside as it
  was**.
-/

import Tenancy.Store.Basic

set_option relaxedAutoImplicit false
set_option autoImplicit false

namespace Tenancy

/-- What a faulty store counts. -/
structure FaultCounts where
  failedLoads : Nat
  failedSaves : Nat
  saves : Nat
deriving DecidableEq, Repr

/-- **A store that fails on demand.** -/
structure FaultyStore where
  /-- The store inside. -/
  inner : Store
  /-- Whether the next load is to fail. -/
  loadFails : Bool
  /-- How many saves are to pass before one fails; nothing if none is to fail. -/
  savesUntilFault : Option Nat
  counts : FaultCounts
deriving DecidableEq

namespace FaultyStore

/-- The store with both switches off and nothing counted. -/
def new (inner : Store) : FaultyStore := ⟨inner, false, none, ⟨0, 0, 0⟩⟩

/-- Makes the next load fail. -/
def failNextLoad (s : FaultyStore) : FaultyStore := { s with loadFails := true }

/-- Lets `n` saves pass and makes the one after them fail. -/
def failSaveAfter (s : FaultyStore) (n : Nat) : FaultyStore :=
  { s with savesUntilFault := some n }

/-- Makes the next save fail. -/
def failNextSave (s : FaultyStore) : FaultyStore := s.failSaveAfter 0

/-- **Loads the ledger of a key**, unless this load is to fail. -/
def load (s : FaultyStore) (key : String) :
    Except StorageFault (Option Ledger) × FaultyStore :=
  if s.loadFails then
    (.error (.unavailable s!"injected load failure for {key}"),
      { s with
        loadFails := false
        counts := { s.counts with failedLoads := s.counts.failedLoads + 1 } })
  else (s.inner.load key, s)

/-- A save that reaches the store inside, which may still refuse it. -/
def passSave (s : FaultyStore) (key : String) (ledger : Ledger) :
    Except StorageFault Unit × FaultyStore :=
  let s := { s with counts := { s.counts with saves := s.counts.saves + 1 } }
  match s.inner.save key ledger with
  | .ok inner => (.ok (), { s with inner })
  | .error fault => (.error fault, s)

/-- **Saves the ledger of a key**, unless this save is to fail. -/
def save (s : FaultyStore) (key : String) (ledger : Ledger) :
    Except StorageFault Unit × FaultyStore :=
  match s.savesUntilFault with
  | none => s.passSave key ledger
  | some 0 =>
      (.error (.unavailable s!"injected save failure for {key}"),
        { s with
          savesUntilFault := none
          counts := { s.counts with failedSaves := s.counts.failedSaves + 1 } })
  | some (n + 1) => { s with savesUntilFault := some n }.passSave key ledger

/-- A load never changes the store inside. -/
@[simp] theorem inner_load (s : FaultyStore) (key : String) : (s.load key).2.inner = s.inner := by
  simp only [load]
  split <;> rfl

theorem inner_passSave_of_error {s : FaultyStore} {key : String} {ledger : Ledger}
    {fault : StorageFault} (h : (s.passSave key ledger).1 = .error fault) :
    (s.passSave key ledger).2.inner = s.inner := by
  simp only [passSave] at h ⊢
  split <;> rename_i hs
  · simp [hs] at h
  · rfl

/-- **A save that fails leaves the store inside as it was.** -/
theorem inner_save_of_error {s : FaultyStore} {key : String} {ledger : Ledger}
    {fault : StorageFault} (h : (s.save key ledger).1 = .error fault) :
    (s.save key ledger).2.inner = s.inner := by
  simp only [save] at h ⊢
  split <;> rename_i hs
  · simp only [hs] at h; exact inner_passSave_of_error h
  · rfl
  · simp only [hs] at h; exact inner_passSave_of_error h

end FaultyStore

end Tenancy
