/-
**What one call counts.**

A call leaves traces in three places: in the counters of the node, in the counts of the store, and
in the ledger.  What it leaves can be told from the request and its answer alone, on every path:
which counters go up, whether a save has passed or failed, and whether there is one lease more or
less.

Main definitions:

* `Tenancy.Cluster.Served.stops`, `Tenancy.Cluster.Served.allocates`,
  `Tenancy.Cluster.Served.frees`, `Tenancy.Cluster.Served.findsNothing`,
  `Tenancy.Cluster.Served.rollsBack`, `Tenancy.Cluster.Served.failsWith` — what an answer tells;
* `Tenancy.Counters.Adds`, `Tenancy.Counters.Tell` — the counters before and after one call, and
  **the counters that a node has after a list of calls**.

Main results:

* `Tenancy.Settings.commits_transact`, `Tenancy.Settings.rollsBack_transact` — how the answer tells
  of a save that passed, and of one that failed;
* `Tenancy.Counters.adds_note` — **the counters after one more call**;
* `Tenancy.Settings.counts_transact` — what the store counts of it;
* `Tenancy.Settings.leaseCount_transact` — how many leases there are after it.
-/

import Tenancy.Proofs.Cluster.References
import Tenancy.Proofs.Ledger.Room
import Tenancy.Proofs.Node.Version

set_option relaxedAutoImplicit false
set_option autoImplicit false

namespace Tenancy

/-! ### What an answer tells -/

namespace Cluster.Served

/-- Whether it is a stop that was answered. -/
def stops : Served → Bool
  | ⟨.stop _, .ok _⟩ => true
  | _ => false

/-- Whether it is a start that was answered with a first reference. -/
def allocates : Served → Bool
  | ⟨.start _, .ok lease⟩ => lease.references = 1
  | _ => false

/-- Whether it is a stop that dropped a last reference. -/
def frees : Served → Bool
  | ⟨.stop _, .ok (.released _)⟩ => true
  | _ => false

/-- Whether it is a stop that found nothing to drop. -/
def findsNothing : Served → Bool
  | ⟨.stop _, .ok .notAllocated⟩ => true
  | _ => false

/-- Whether it failed because a changed ledger could not be saved. -/
def rollsBack : Served → Bool
  | ⟨_, .error (.transactionFailed (.save _ _))⟩ => true
  | _ => false

/-- Whether it is a start, a look-up or a stop that failed with a label. -/
def failsWith (label : String) : Served → Bool
  | ⟨r, .error failure⟩ => r.isCounted && failure.label == label
  | _ => false

/-- A stop that is answered drops a reference, or it finds nothing to drop. -/
theorem stops_eq (e : Served) : e.stops.toNat = e.gives.toNat + e.findsNothing.toNat := by
  obtain ⟨r, answer⟩ := e
  cases r with
  | stop tenant => rcases answer with failure | (_ | _ | _) <;> rfl
  | start | get | lease | ledger => rfl

theorem countP_singleton (p : Served → Bool) (e : Served) : [e].countP p = (p e).toNat := by
  rw [List.countP_singleton]
  cases p e <;> rfl

theorem countP_concat (p : Served → Bool) (calls : List Served) (e : Served) :
    (calls ++ [e]).countP p = calls.countP p + (p e).toNat := by
  rw [List.countP_append, countP_singleton]

/-- Calls of a sort that is divided into two are those of the one and those of the other. -/
theorem countP_eq_add {p q q' : Served → Bool}
    (h : ∀ e, (p e).toNat = (q e).toNat + (q' e).toNat) (calls : List Served) :
    calls.countP p = calls.countP q + calls.countP q' := by
  induction calls with
  | nil => rfl
  | cons e calls ih =>
      rw [← List.singleton_append]
      simp only [List.countP_append, countP_singleton, ih, h e]
      omega

end Cluster.Served

open Cluster (Served)

/-- A request that is denied is not denied by the store. -/
theorem Ledger.serve_ne_transactionFailed {l : Ledger} {p : SlotPolicy} {r : Request}
    {failure : Failure} (h : l.serve p r = .error failure) (fault : TransactionFault) :
    failure ≠ .transactionFailed fault := by
  rintro rfl
  cases r with
  | start tenant =>
      simp only [serve, start] at h
      split at h
      · split at h <;> cases h
      · split at h <;> cases h
  | get tenant =>
      simp only [serve] at h
      split at h <;> cases h
  | stop tenant =>
      simp only [serve] at h
      split at h <;> cases h
  | lease tenant => cases h
  | ledger => cases h

/-- Whether a changed copy was thrown away. -/
def Outcome.isRolledBack {α : Type} : Outcome α → Bool
  | .rolledBack _ => true
  | .answered _ | .committed _ _ | .refused _ => false

namespace Settings

variable {s : Settings} {r : Request} {b : Backend}

/-- What was saved, the answer tells: a start that was answered, or a stop that dropped a
reference. -/
theorem commits_of_serve {loaded : Ledger} {answer : r.Answer} {changed : Option Ledger}
    (h : loaded.serve s.slots r = .ok (answer, changed)) :
    (Served.takes ⟨r, .ok answer⟩ || Served.gives ⟨r, .ok answer⟩) = changed.isSome := by
  rw [Bool.eq_iff_iff, ← Ledger.commits_iff_of_serve h]
  cases r with
  | start tenant => exact iff_of_true rfl trivial
  | stop tenant => cases answer <;> simp [Served.takes, Served.gives, Request.Commits]
  | get | lease | ledger => exact iff_of_false Bool.false_ne_true id

/-- **Whether a change was saved, the answer tells.** -/
theorem commits_transact (s : Settings) (r : Request) (b : Backend) :
    (Served.takes ⟨r, (s.transact r b).1.result⟩ ||
      Served.gives ⟨r, (s.transact r b).1.result⟩) = (s.transact r b).1.isCommitted := by
  have hfailure : ∀ failure, (Served.takes ⟨r, .error failure⟩ ||
      Served.gives ⟨r, .error failure⟩) = false := by
    intro failure
    cases r <;> rfl
  have hending := s.ending_transact r b
  generalize (s.transact r b).1 = outcome at hending ⊢
  generalize (s.transact r b).2.store.inner = inner at hending
  cases hending with
  | answered loaded answer free load serve => exact commits_of_serve serve
  | committed loaded changed answer store free load serve save => exact commits_of_serve serve
  | locked | notLoaded | denied | notSaved => exact hfailure _

/-- **Whether a change was thrown away, the answer tells.** -/
theorem rollsBack_transact (s : Settings) (r : Request) (b : Backend) :
    Served.rollsBack ⟨r, (s.transact r b).1.result⟩ = (s.transact r b).1.isRolledBack := by
  have hending := s.ending_transact r b
  generalize (s.transact r b).1 = outcome at hending ⊢
  generalize (s.transact r b).2.store.inner = inner at hending
  cases hending with
  | denied loaded failure free load serve =>
      have hne := Ledger.serve_ne_transactionFailed serve
      cases failure with
      | transactionFailed fault => exact absurd rfl (hne fault)
      | _ => rfl
  | locked | notLoaded | answered | committed | notSaved => rfl

end Settings

/-! ### Counters -/

namespace Counters

/-- **The counters before and after one call**, as the answer tells. -/
structure Adds (c c' : Counters) (e : Served) : Prop where
  starts : c'.starts = c.starts + e.takes.toNat
  stops : c'.stops = c.stops + e.stops.toNat
  allocations : c'.allocations = c.allocations + e.allocates.toNat
  releases : c'.releases = c.releases + e.frees.toNat
  rollbacks : c'.rollbacks = c.rollbacks + e.rollsBack.toNat
  errors : ∀ label, c'.errors.count label = c.errors.count label + (e.failsWith label).toNat

/-- **The counters that a node has after a list of calls**, as the answers tell. -/
structure Tell (c : Counters) (calls : List Served) : Prop where
  starts : c.starts = calls.countP Served.takes
  stops : c.stops = calls.countP Served.stops
  allocations : c.allocations = calls.countP Served.allocates
  releases : c.releases = calls.countP Served.frees
  rollbacks : c.rollbacks = calls.countP Served.rollsBack
  errors : ∀ label, c.errors.count label = calls.countP (Served.failsWith label)

variable {c c' : Counters}

theorem tell_zero : zero.Tell [] := ⟨rfl, rfl, rfl, rfl, rfl, Metrics.Tally.count_empty⟩

/-- One more call. -/
theorem Tell.add {calls : List Served} {e : Served} (h : c.Tell calls) (he : c.Adds c' e) :
    c'.Tell (calls ++ [e]) where
  starts := by rw [he.starts, h.starts, Served.countP_concat]
  stops := by rw [he.stops, h.stops, Served.countP_concat]
  allocations := by rw [he.allocations, h.allocations, Served.countP_concat]
  releases := by rw [he.releases, h.releases, Served.countP_concat]
  rollbacks := by rw [he.rollbacks, h.rollbacks, Served.countP_concat]
  errors label := by rw [he.errors, h.errors, Served.countP_concat]

theorem adds_noteAnswer (c : Counters) (r : Request) (answer : r.Answer) :
    c.Adds (c.noteAnswer r answer) ⟨r, .ok answer⟩ := by
  cases r with
  | start tenant =>
      refine ⟨rfl, rfl, ?_, rfl, rfl, fun _ => rfl⟩
      simp only [noteAnswer, Served.allocates]
      split <;> rename_i hone <;> simp [hone]
  | stop tenant => cases answer <;> exact ⟨rfl, rfl, rfl, rfl, rfl, fun _ => rfl⟩
  | get | lease | ledger => exact ⟨rfl, rfl, rfl, rfl, rfl, fun _ => rfl⟩

/-- A failure is counted under its label, and nothing else is. -/
theorem noteFailure_eq (c : Counters) (r : Request) (failure : Failure) :
    c.noteFailure r failure = { c with errors := (c.noteFailure r failure).errors } := by
  rw [noteFailure]
  split <;> rfl

theorem count_noteFailure (c : Counters) (r : Request) (failure : Failure) (label : String) :
    (c.noteFailure r failure).errors.count label =
      c.errors.count label + (Served.failsWith label ⟨r, .error failure⟩).toNat := by
  rw [noteFailure, Served.failsWith]
  cases r.isCounted with
  | false => rfl
  | true =>
      rw [if_pos rfl, Metrics.Tally.count_inc, Bool.true_and]
      split <;> rename_i hlabel <;> simp [hlabel]

/-- A failure by which no changed copy was thrown away. -/
theorem adds_noteFailure (c : Counters) {r : Request} {failure : Failure}
    (h : Served.rollsBack ⟨r, .error failure⟩ = false) :
    c.Adds (c.noteFailure r failure) ⟨r, .error failure⟩ := by
  have herrors := c.count_noteFailure r failure
  rw [noteFailure_eq] at herrors ⊢
  refine ⟨?_, ?_, ?_, ?_, by rw [h]; rfl, herrors⟩ <;> cases r <;> rfl

/-- A failure by which one was. -/
theorem adds_rollback (c : Counters) {r : Request} {failure : Failure}
    (h : Served.rollsBack ⟨r, .error failure⟩ = true) :
    c.Adds { c.noteFailure r failure with rollbacks := c.rollbacks + 1 }
      ⟨r, .error failure⟩ := by
  have herrors := c.count_noteFailure r failure
  rw [noteFailure_eq] at herrors ⊢
  refine ⟨?_, ?_, ?_, ?_, by rw [h]; rfl, herrors⟩ <;> cases r <;> rfl

/-- **The counters after one more call**, if the answer tells whether a changed copy was thrown
away. -/
theorem adds_note (c : Counters) {r : Request} {outcome : Outcome r.Answer}
    (h : Served.rollsBack ⟨r, outcome.result⟩ = outcome.isRolledBack) :
    c.Adds (c.note r outcome) ⟨r, outcome.result⟩ := by
  cases outcome with
  | answered answer => exact c.adds_noteAnswer r answer
  | committed answer ledger =>
      obtain ⟨hstarts, hstops, hallocations, hreleases, hrollbacks, herrors⟩ :=
        c.adds_noteAnswer r answer
      exact ⟨hstarts, hstops, hallocations, hreleases, hrollbacks, herrors⟩
  | refused failure => exact c.adds_noteFailure h
  | rolledBack failure => exact c.adds_rollback h

end Counters

/-! ### Counts of the store -/

namespace FaultyStore

variable {s : FaultyStore} {key : String}

theorem counts_load (s : FaultyStore) (key : String) :
    (s.load key).2.counts.saves = s.counts.saves ∧
      (s.load key).2.counts.failedSaves = s.counts.failedSaves := by
  simp only [load]
  split <;> exact ⟨rfl, rfl⟩

/-- **A save into memory passes, or it fails because it was to fail**, and either is counted. -/
theorem counts_save {ledgers : Std.ExtTreeMap String Ledger} (h : s.inner = .memory ledgers)
    (key : String) (ledger : Ledger) :
    (s.save key ledger).2.counts.saves = s.counts.saves + (s.save key ledger).1.isOk.toNat ∧
      (s.save key ledger).2.counts.failedSaves =
        s.counts.failedSaves + (!(s.save key ledger).1.isOk).toNat := by
  have hinner : s.inner.save key ledger = .ok (.memory (ledgers.insert key ledger)) := by
    rw [h]
    rfl
  rcases hsaves : s.savesUntilFault with _ | _ | count
  · simp only [save, hsaves, passSave, hinner]
    exact ⟨rfl, rfl⟩
  · simp only [save, hsaves]
    exact ⟨rfl, rfl⟩
  · simp only [save, hsaves, passSave, hinner]
    exact ⟨rfl, rfl⟩

end FaultyStore

namespace Settings

variable {s : Settings} {r : Request} {b : Backend} {ledgers : Std.ExtTreeMap String Ledger}

theorem counts_load (s : Settings) (store : FaultyStore) :
    (s.load store).2.counts.saves = store.counts.saves ∧
      (s.load store).2.counts.failedSaves = store.counts.failedSaves := by
  have hcounts := store.counts_load s.key
  simp only [load]
  split <;> rename_i heq <;> rw [heq] at hcounts <;> exact hcounts

theorem counts_settle {store : FaultyStore} (h : store.inner = .memory ledgers)
    (loaded : Ledger) (r : Request) :
    (s.settle loaded r store).2.counts.saves =
        store.counts.saves + (s.settle loaded r store).1.isCommitted.toNat ∧
      (s.settle loaded r store).2.counts.failedSaves =
        store.counts.failedSaves + (s.settle loaded r store).1.isRolledBack.toNat := by
  simp only [settle]
  rcases loaded.serve s.slots r with failure | ⟨answer, _ | changed⟩
  · exact ⟨rfl, rfl⟩
  · exact ⟨rfl, rfl⟩
  · have hcounts := FaultyStore.counts_save h s.key (changed.advance loaded)
    dsimp only
    generalize store.save s.key (changed.advance loaded) = done at hcounts ⊢
    obtain ⟨saved, after⟩ := done
    cases saved <;> exact hcounts

/-- **A store in memory counts the saves of a transaction that passed, and those that failed.** -/
theorem counts_transact (h : b.store.inner = .memory ledgers) (r : Request) :
    (s.transact r b).2.store.counts.saves =
        b.store.counts.saves + (s.transact r b).1.isCommitted.toNat ∧
      (s.transact r b).2.store.counts.failedSaves =
        b.store.counts.failedSaves + (s.transact r b).1.isRolledBack.toNat := by
  by_cases hheld : s.key ∈ b.locks.held
  · rw [transact_of_held hheld]
    exact ⟨rfl, rfl⟩
  · have hcounts := s.counts_load b.store
    have hinner := (s.inner_load b.store).trans h
    rw [transact_of_free hheld]
    simp only [loadAndSettle]
    generalize s.load b.store = done at hcounts hinner ⊢
    obtain ⟨loaded, after⟩ := done
    cases loaded with
    | error failure => exact hcounts
    | ok ledger =>
        obtain ⟨hsaves, hfailed⟩ := counts_settle (s := s) hinner ledger r
        exact ⟨hsaves.trans (congrArg (· + _) hcounts.1),
          hfailed.trans (congrArg (· + _) hcounts.2)⟩

/-- A store in memory stays one. -/
theorem memory_transact (h : b.store.inner = .memory ledgers) (r : Request) :
    ∃ ledgers', (s.transact r b).2.store.inner = .memory ledgers' := by
  have hending := s.ending_transact r b
  generalize (s.transact r b).2.store.inner = inner at hending ⊢
  generalize (s.transact r b).1 = outcome at hending
  cases hending with
  | committed loaded changed answer store free load serve save =>
      rw [h] at save
      cases save
      exact ⟨_, rfl⟩
  | locked | notLoaded | denied | answered | notSaved => exact ⟨ledgers, h⟩

end Settings

/-! ### Leases -/

/-- A first start is one lease more, and the end of a lease is one less. -/
theorem Ledger.size_serve {l : Ledger} {p : SlotPolicy} (hl : l.Sound) {r : Request}
    {answer : r.Answer} {changed : Option Ledger} (h : l.serve p r = .ok (answer, changed)) :
    (changed.getD l).leases.size + (Served.frees ⟨r, .ok answer⟩).toNat =
      l.leases.size + (Served.allocates ⟨r, .ok answer⟩).toNat := by
  cases r with
  | start tenant =>
      obtain ⟨l', rfl, hstart⟩ := start_of_serve h
      rcases start_eq_ok hstart with
        ⟨old, held, room, rfl, rfl⟩ | ⟨slot, m, absent, htake, rfl, rfl⟩
      · -- there was a reference before, so that there are two at least
        have hpos := UInt32.le_iff_toNat_le.1 (hl.counted held)
        have htwo : ¬ old.references + 1 = 1 := by
          intro he
          have hone : (old.references + 1).toNat = 1 := by rw [he]; rfl
          rw [toNat_add_one room] at hone
          have hone' : (1 : UInt32).toNat = 1 := rfl
          omega
        rw [Option.getD_some, size_leases_put held, Served.allocates, decide_eq_false htwo]
        rfl
      · have hleases := leases_takeSlot? htake
        have hnot : tenant ∉ m.leases := by
          rw [hleases, Std.ExtTreeMap.mem_iff_isSome_getElem?,
            show l.leases[tenant]? = none from absent]
          exact Bool.false_ne_true
        have hsize : (m.put tenant ⟨1, slot⟩).leases.size = m.leases.size + 1 :=
          Std.ExtTreeMap.size_insert.trans (if_neg hnot)
        rw [Option.getD_some, hsize, hleases]
        rfl
  | stop tenant =>
      simp only [serve, stop] at h
      cases hlease : l.lease? tenant with
      | none =>
          simp only [hlease] at h
          cases h
          rfl
      | some lease =>
          by_cases hothers : 1 < lease.references
          · simp only [hlease, if_pos hothers] at h
            cases h
            rw [Option.getD_some, size_leases_put hlease]
            rfl
          · simp only [hlease, if_neg hothers] at h
            cases h
            exact size_leases_drop hlease
  | get tenant =>
      simp only [serve] at h
      split at h
      · cases h
        rfl
      · cases h
  | lease tenant =>
      cases h
      rfl
  | ledger =>
      cases h
      rfl

/-- **How many leases there are after a transaction, the answer tells.** -/
theorem Settings.leaseCount_transact {S : Settings → Prop} {s : Settings} {r : Request}
    {b : Backend} (hs : S s) (hkept : b.store.inner.Keeps fun l => l.Sound ∧ l.NamesFit)
    (hr : r.NamesFit) :
    (s.transact r b).2.store.inner.leaseCount s.key +
        (Served.frees ⟨r, (s.transact r b).1.result⟩).toNat =
      b.store.inner.leaseCount s.key +
        (Served.allocates ⟨r, (s.transact r b).1.result⟩).toNat := by
  have hI := Ledger.sound_invariant S
  have hfailure : ∀ failure, Served.frees ⟨r, .error failure⟩ = false ∧
      Served.allocates ⟨r, .error failure⟩ = false := by
    intro failure
    cases r <;> exact ⟨rfl, rfl⟩
  have hending := s.ending_transact r b
  generalize (s.transact r b).1 = outcome at hending ⊢
  generalize (s.transact r b).2.store.inner = inner at hending ⊢
  cases hending with
  | answered loaded answer free load serve =>
      have hsize := Ledger.size_serve (hI.of_load hs hkept load).1 serve
      rw [Option.getD_none, leaseCount_of_load load] at hsize
      exact hsize
  | committed loaded changed answer store free load serve save =>
      rw [Store.leaseCount_of_load (load_of_saved hI hs hkept hr load serve save),
        ← leaseCount_of_load load]
      exact Ledger.size_serve (hI.of_load hs hkept load).1 serve
  | locked | notLoaded | denied | notSaved =>
      rw [show Outcome.result _ = .error _ from rfl, (hfailure _).1, (hfailure _).2]

end Tenancy
