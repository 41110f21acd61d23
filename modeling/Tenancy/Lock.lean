/-
**Locks.**

One table of locks serves all nodes of a cluster.  A resource is held or free; a held resource is
not granted a second time, and a request that cannot be granted has waited for its whole timeout.

Main definitions:

* `Tenancy.LockTable` — **the resources that are held**;
* `Tenancy.LockTable.acquire`, `Tenancy.LockTable.release` — taking and giving back a resource;
* `Tenancy.LockTable.status` — what a resource is now.

Main results:

* `Tenancy.LockTable.release_acquire` — **giving back what was just taken restores the table**.
-/

import Std.Data.ExtTreeSet
import Tenancy.Failure

set_option relaxedAutoImplicit false
set_option autoImplicit false

namespace Tenancy

/-- Whether a resource is held. -/
inductive LockStatus where
  | free
  | held
deriving DecidableEq, Repr

/-- **The resources that are held.** -/
structure LockTable where
  held : Std.ExtTreeSet String
deriving DecidableEq

namespace LockTable

/-- The table in which every resource is free. -/
def empty : LockTable := ⟨∅⟩

theorem not_mem_empty (resource : String) : resource ∉ empty.held :=
  Std.ExtTreeSet.not_mem_empty

/-- What a resource is now. -/
def status (t : LockTable) (resource : String) : LockStatus :=
  if resource ∈ t.held then .held else .free

/-- Takes a resource.  A free one is granted at once, whatever the timeout; a held one is refused
after it. -/
def acquire (t : LockTable) (resource : String) (timeout : Duration) : Except Failure LockTable :=
  if resource ∈ t.held then .error (.lockUnavailable resource timeout)
  else .ok ⟨t.held.insert resource⟩

/-- Gives a resource back. -/
def release (t : LockTable) (resource : String) : LockTable := ⟨t.held.erase resource⟩

theorem acquire_of_mem {t : LockTable} {resource : String} (h : resource ∈ t.held)
    (timeout : Duration) :
    t.acquire resource timeout = .error (.lockUnavailable resource timeout) :=
  if_pos h

theorem acquire_of_not_mem {t : LockTable} {resource : String} (h : resource ∉ t.held)
    (timeout : Duration) : t.acquire resource timeout = .ok ⟨t.held.insert resource⟩ :=
  if_neg h

/-- What was granted is held. -/
theorem mem_of_acquire {t t' : LockTable} {resource : String} {timeout : Duration}
    (h : t.acquire resource timeout = .ok t') : resource ∈ t'.held := by
  by_cases hm : resource ∈ t.held
  · rw [acquire_of_mem hm] at h
    cases h
  · rw [acquire_of_not_mem hm] at h
    cases h
    exact Std.ExtTreeSet.mem_insert_self

/-- **Giving back what was just taken restores the table.** -/
theorem release_acquire {t t' : LockTable} {resource : String} {timeout : Duration}
    (h : t.acquire resource timeout = .ok t') : t'.release resource = t := by
  by_cases hm : resource ∈ t.held
  · rw [acquire_of_mem hm] at h; cases h
  · rw [acquire_of_not_mem hm] at h
    cases h
    cases t with
    | mk held =>
        simp only [release, LockTable.mk.injEq]
        apply Std.ExtTreeSet.ext_mem
        intro r
        simp only [Std.ExtTreeSet.mem_erase, Std.ExtTreeSet.mem_insert,
          Std.LawfulEqCmp.compare_eq_iff_eq, ne_eq]
        constructor
        · rintro ⟨hne, rfl | hr⟩
          · exact absurd rfl hne
          · exact hr
        · intro hr
          exact ⟨fun he => hm (he ▸ hr), .inr hr⟩

end LockTable

end Tenancy
