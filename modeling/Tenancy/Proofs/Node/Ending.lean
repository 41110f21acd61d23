/-
**How a transaction ends.**

A transaction takes one of six ways: the key is held, the ledger cannot be loaded, the request is
denied, it is answered without a change, the change is saved, or the change cannot be saved.  Only
the way on which the change is saved touches the store inside.  Whatever is said of transactions is
proved from these six.

Main definitions:

* `Tenancy.Settings.Ending` — **the six ways**, each with its outcome and the store that it leaves;
* `Tenancy.Request.Commits` — the answers that go with a saved change.

Main results:

* `Tenancy.Settings.ending_transact` — **a transaction takes one of them**;
* `Tenancy.Settings.serve_of_result_eq_ok` — what is answered was served on the loaded ledger;
* `Tenancy.Ledger.commits_iff_of_serve` — a request is served with a changed ledger exactly when its
  answer goes with a saved change.
-/

import Tenancy.Node.Transaction
import Tenancy.Proofs.Ledger.Change
import Tenancy.Proofs.Store.Kept

set_option relaxedAutoImplicit false
set_option autoImplicit false

namespace Tenancy

/-! ### Requests that change the ledger -/

/-- **The answers that go with a saved change**: that of a start, and that of a stop which dropped a
reference. -/
def Request.Commits : (r : Request) → Except Failure r.Answer → Prop
  | .start _, .ok _ => True
  | .stop _, .ok (.decremented _ _) => True
  | .stop _, .ok (.released _) => True
  | _, _ => False

theorem Request.not_commits_error (r : Request) (failure : Failure) :
    ¬ r.Commits (.error failure) := by
  cases r <;> exact id

/-- A request is served with a changed ledger exactly when its answer goes with a saved change. -/
theorem Ledger.commits_iff_of_serve {l : Ledger} {p : SlotPolicy} {r : Request}
    {answer : r.Answer} {changed : Option Ledger} (h : l.serve p r = .ok (answer, changed)) :
    r.Commits (.ok answer) ↔ changed.isSome = true := by
  cases r with
  | start tenant =>
      obtain ⟨l', rfl, -⟩ := start_of_serve h
      exact iff_of_true trivial rfl
  | get tenant =>
      simp only [serve] at h
      split at h
      · cases h
        exact iff_of_false id Bool.false_ne_true
      · cases h
  | stop tenant =>
      simp only [serve] at h
      split at h
      · cases h
        exact iff_of_false id Bool.false_ne_true
      · rename_i after hne _
        cases h
        cases answer with
        | decremented slot remaining => exact iff_of_true trivial rfl
        | released slot => exact iff_of_true trivial rfl
        | notAllocated => exact absurd rfl hne
  | lease tenant =>
      cases h
      exact iff_of_false id Bool.false_ne_true
  | ledger =>
      cases h
      exact iff_of_false id Bool.false_ne_true

namespace Settings

variable {s : Settings}

/-! ### Loading -/

@[simp] theorem inner_load (s : Settings) (store : FaultyStore) :
    (s.load store).2.inner = store.inner := by
  have hl := FaultyStore.inner_load store s.key
  simp only [load]
  split <;> rename_i h <;> rw [h] at hl <;> exact hl

/-- What a node loads is the stored ledger, or an empty one where there is none yet. -/
theorem load_eq_ok {store : FaultyStore} {ledger : Ledger} (h : (s.load store).1 = .ok ledger) :
    store.loadFails = false ∧
      (store.inner.load s.key = .ok (some ledger) ∨
        store.inner.load s.key = .ok none ∧ ledger = .empty s.slots.first) := by
  simp only [load] at h
  split at h
  · rename_i kept after hk
    cases h
    obtain ⟨hoff, hin⟩ := FaultyStore.load_eq_ok (congrArg Prod.fst hk)
    exact ⟨hoff, .inl hin⟩
  · rename_i after hk
    cases h
    obtain ⟨hoff, hin⟩ := FaultyStore.load_eq_ok (congrArg Prod.fst hk)
    exact ⟨hoff, .inr ⟨hin, rfl⟩⟩
  · cases h

/-- A load that fails says so under the node's key. -/
theorem load_eq_error {store : FaultyStore} {failure : Failure}
    (h : (s.load store).1 = .error failure) :
    ∃ fault, failure = .transactionFailed (.load s.key fault) := by
  simp only [load] at h
  split at h
  · cases h
  · cases h
  · rename_i fault after hload
    cases h
    exact ⟨fault, rfl⟩

/-! ### The six ways -/

/-- **How a transaction of `r` over `b` ends**: with which outcome, and with which store inside. -/
inductive Ending (s : Settings) (r : Request) (b : Backend) : Outcome r.Answer → Store → Prop where
  /-- The key is held. -/
  | locked (held : s.key ∈ b.locks.held) :
      Ending s r b (.refused (.lockUnavailable s.key s.lockTimeout)) b.store.inner
  /-- The ledger cannot be loaded. -/
  | notLoaded (fault : StorageFault) (free : s.key ∉ b.locks.held)
      (load : (s.load b.store).1 = .error (.transactionFailed (.load s.key fault))) :
      Ending s r b (.refused (.transactionFailed (.load s.key fault))) b.store.inner
  /-- The request is denied on the loaded ledger. -/
  | denied (loaded : Ledger) (failure : Failure) (free : s.key ∉ b.locks.held)
      (load : (s.load b.store).1 = .ok loaded) (serve : loaded.serve s.slots r = .error failure) :
      Ending s r b (.refused failure) b.store.inner
  /-- The request is answered without a change. -/
  | answered (loaded : Ledger) (answer : r.Answer) (free : s.key ∉ b.locks.held)
      (load : (s.load b.store).1 = .ok loaded)
      (serve : loaded.serve s.slots r = .ok (answer, none)) :
      Ending s r b (.answered answer) b.store.inner
  /-- The change is saved. -/
  | committed (loaded changed : Ledger) (answer : r.Answer) (store : Store)
      (free : s.key ∉ b.locks.held) (load : (s.load b.store).1 = .ok loaded)
      (serve : loaded.serve s.slots r = .ok (answer, some changed))
      (save : b.store.inner.save s.key (changed.advance loaded) = .ok store) :
      Ending s r b (.committed answer (changed.advance loaded)) store
  /-- The change cannot be saved. -/
  | notSaved (loaded changed : Ledger) (answer : r.Answer) (fault : StorageFault)
      (free : s.key ∉ b.locks.held) (load : (s.load b.store).1 = .ok loaded)
      (serve : loaded.serve s.slots r = .ok (answer, some changed)) :
      Ending s r b (.rolledBack (.transactionFailed (.save s.key fault))) b.store.inner

variable {r : Request} {b : Backend}

/-- With the key free and the ledger loaded, settling ends in one of the last four ways. -/
theorem ending_settle {loaded : Ledger} {store : FaultyStore} (free : s.key ∉ b.locks.held)
    (load : (s.load b.store).1 = .ok loaded) (hinner : store.inner = b.store.inner) :
    s.Ending r b (s.settle loaded r store).1 (s.settle loaded r store).2.inner := by
  simp only [settle]
  split
  · rename_i failure hserve
    rw [hinner]
    exact .denied loaded failure free load hserve
  · rename_i answer hserve
    rw [hinner]
    exact .answered loaded answer free load hserve
  · rename_i answer changed hserve
    split
    · rename_i after hsave
      have hpassed := FaultyStore.save_eq_ok (congrArg Prod.fst hsave)
      rw [hsave, hinner] at hpassed
      exact .committed loaded changed answer after.inner free load hserve hpassed
    · rename_i fault after hsave
      have hsame := FaultyStore.inner_save_of_error (congrArg Prod.fst hsave)
      rw [hsave, hinner] at hsame
      rw [hsame]
      exact .notSaved loaded changed answer fault free load hserve

/-- **A transaction ends in one of the six ways.** -/
theorem ending_transact (s : Settings) (r : Request) (b : Backend) :
    s.Ending r b (s.transact r b).1 (s.transact r b).2.store.inner := by
  by_cases hheld : s.key ∈ b.locks.held
  · rw [transact_of_held hheld]
    exact .locked hheld
  · have hinner := s.inner_load b.store
    rw [transact_of_free hheld]
    simp only [loadAndSettle]
    split
    · rename_i loaded after hload
      rw [hload] at hinner
      exact ending_settle hheld (congrArg Prod.fst hload) hinner
    · rename_i failure after hload
      rw [hload] at hinner
      obtain ⟨fault, rfl⟩ := load_eq_error (congrArg Prod.fst hload)
      rw [hinner]
      exact .notLoaded fault hheld (congrArg Prod.fst hload)

/-- What is answered was served on the loaded ledger. -/
theorem serve_of_result_eq_ok {answer : r.Answer} (h : (s.transact r b).1.result = .ok answer) :
    ∃ loaded changed, (s.load b.store).1 = .ok loaded ∧
      loaded.serve s.slots r = .ok (answer, changed) := by
  have hending := s.ending_transact r b
  generalize (s.transact r b).1 = outcome at h hending
  generalize (s.transact r b).2.store.inner = inner at hending
  cases hending with
  | answered loaded served free load serve =>
      cases h
      exact ⟨loaded, none, load, serve⟩
  | committed loaded changed served store free load serve save =>
      cases h
      exact ⟨loaded, some changed, load, serve⟩
  | locked | notLoaded | denied | notSaved => cases h

end Settings

end Tenancy
