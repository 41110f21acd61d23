/-
**Calls whose steps interleave.**

Any number of calls are under way at once, at any nodes of one key.  Each waits for the lock on the
key, is granted it or gives up, loads the ledger, has its request served on the copy and saves the
copy if it was changed, and gives the lock back; between any two of these steps the other calls may
make steps of theirs.  Still every call is answered as if the calls had been made one whole call at a
time, in the order in which they were granted the lock.

Main definitions:

* `Tenancy.Phase` — where a call is;
* `Tenancy.Cluster.Progress`, `Tenancy.Cluster.Advance` — calls under way, and **one step of one of
  them**;
* `Tenancy.Cluster.serial` — the cluster after one whole call at a time;
* `Tenancy.Cluster.Serialized` — the invariant: all that was done so far is what the calls that were
  granted the lock do one at a time, up to the part that the holder of the lock has done;
* `Tenancy.Cluster.Versioned` — the version is in line with the commits.

Main results:

* `Tenancy.Cluster.Serialized.advance`, `Tenancy.Cluster.Versioned.advance` — **one step keeps the
  invariant**, and the version in line;
* `Tenancy.Cluster.serializable` — **every interleaving answers and stores what the calls do one at
  a time**, and the version counts the commits.
-/

import Mathlib.Logic.Relation
import Tenancy.Proofs.Cluster.History
import Tenancy.Proofs.Node.Version

set_option relaxedAutoImplicit false
set_option autoImplicit false

namespace Tenancy

/-! ### Calls under way -/

/-- **Where a call is** with its request. -/
inductive Phase (r : Request) where
  /-- It waits for the lock. -/
  | waiting
  /-- It holds the lock, and has done nothing else. -/
  | granted
  /-- It holds the lock and a copy of the ledger. -/
  | loaded (copy : Ledger)
  /-- It holds the lock, and is otherwise done. -/
  | settled (outcome : Outcome r.Answer)
  /-- It is done. -/
  | finished (outcome : Outcome r.Answer)
  /-- It has given up waiting. -/
  | timedOut

namespace Phase

variable {r : Request}

/-- Whether the call holds the lock. -/
def Holds : Phase r → Prop
  | .granted | .loaded _ | .settled _ => True
  | .waiting | .finished _ | .timedOut => False

/-- Whether the call was granted the lock at some time. -/
def WasGranted : Phase r → Prop
  | .waiting | .timedOut => False
  | .granted | .loaded _ | .settled _ | .finished _ => True

theorem Holds.wasGranted {phase : Phase r} (h : phase.Holds) : phase.WasGranted := by
  cases phase with
  | waiting | finished | timedOut => exact h.elim
  | granted | loaded | settled => trivial

/-- Whether the call has saved a change. -/
def committed : Phase r → Bool
  | .settled outcome | .finished outcome => outcome.isCommitted
  | .waiting | .granted | .loaded _ | .timedOut => false

/-- Whether the holder of the lock, in this phase, has made `store` of the store of `b`. -/
def Follows (s : Settings) (b : Backend) (store : FaultyStore) : Phase r → Prop
  | .granted => store = b.store
  | .loaded copy => s.load b.store = (.ok copy, store)
  | .settled outcome => s.loadAndSettle r b.store = (outcome, store)
  | .waiting | .finished _ | .timedOut => False

end Phase

namespace Cluster

variable {ι : Type} {n : Nat}

/-- The settings of the node at which a call is made. -/
def settingsOf (c : Cluster n) (call : Call n) : Settings := (c.node call.node).settings

/-! ### One whole call at a time -/

/-- **The cluster after one whole call at a time**, in the given order. -/
def serial (c : Cluster n) (calls : ι → Call n) (order : List ι) : Cluster n :=
  (c.run (order.map fun i => .request (calls i).node (calls i).request)).2

theorem serial_append (c : Cluster n) (calls : ι → Call n) (order : List ι) (i : ι) :
    c.serial calls (order ++ [i]) =
      ((c.serial calls order).call (calls i).node (calls i).request).2 := by
  rw [serial, List.map_append, run_append]
  rfl

theorem settings_serial (c : Cluster n) (calls : ι → Call n) (order : List ι) (j : Fin n) :
    ((c.serial calls order).node j).settings = (c.node j).settings := by
  induction order using List.reverseRecOn with
  | nil => rfl
  | append_singleton order i ih => rw [serial_append, settings_call, ih]

/-- The transaction that a call makes after others were made one at a time. -/
def serialEnd (c : Cluster n) (calls : ι → Call n) (order : List ι) (i : ι) :
    Outcome (calls i).request.Answer × Backend :=
  (c.settingsOf (calls i)).transact (calls i).request (c.serial calls order).backend

theorem call_serial (c : Cluster n) (calls : ι → Call n) (order : List ι) (i : ι) :
    ((c.serial calls order).call (calls i).node (calls i).request).1 =
      (c.serialEnd calls order i).1.result := by
  show (((c.serial calls order).node (calls i).node).settings.transact _ _).1.result = _
  rw [settings_serial]
  rfl

theorem backend_serial_append (c : Cluster n) (calls : ι → Call n) (order : List ι) (i : ι) :
    (c.serial calls (order ++ [i])).backend = (c.serialEnd calls order i).2 := by
  rw [serial_append]
  show (((c.serial calls order).node (calls i).node).settings.transact _ _).2 = _
  rw [settings_serial]
  rfl

/-! ### Steps -/

/-- Calls under way: what the nodes share, where each call is, and which were granted the lock so
far, in this order. -/
structure Progress (calls : ι → Call n) where
  backend : Backend
  phase : ∀ i, Phase (calls i).request
  order : List ι

/-- All calls are waiting. -/
def Progress.start (c : Cluster n) (calls : ι → Call n) : Progress calls :=
  ⟨c.backend, fun _ => .waiting, []⟩

variable [DecidableEq ι]

/-- One call has come to a phase, and left the backend so. -/
def Progress.set {calls : ι → Call n} (s : Progress calls) (i : ι) (phase : Phase (calls i).request)
    (backend : Backend) : Progress calls :=
  { s with phase := Function.update s.phase i phase, backend }

/-- One call is granted the lock, so that `locks` are held. -/
def Progress.grant {calls : ι → Call n} (s : Progress calls) (i : ι) (locks : LockTable) :
    Progress calls :=
  { s.set i .granted ⟨locks, s.backend.store⟩ with order := s.order ++ [i] }

/-- **One step of one of the calls.** -/
inductive Advance (c : Cluster n) {calls : ι → Call n} : Progress calls → Progress calls → Prop where
  /-- A call is granted the lock. -/
  | grant {s : Progress calls} {i : ι} {locks : LockTable} (phase : s.phase i = .waiting)
      (acquire : s.backend.locks.acquire (c.settingsOf (calls i)).key
        (c.settingsOf (calls i)).lockTimeout = .ok locks) :
      Advance c s (s.grant i locks)
  /-- A call gives up waiting. -/
  | timeOut {s : Progress calls} {i : ι} (phase : s.phase i = .waiting) :
      Advance c s (s.set i .timedOut s.backend)
  /-- The holder of the lock loads the ledger. -/
  | load {s : Progress calls} {i : ι} {copy : Ledger} {store : FaultyStore}
      (phase : s.phase i = .granted)
      (load : (c.settingsOf (calls i)).load s.backend.store = (.ok copy, store)) :
      Advance c s (s.set i (.loaded copy) ⟨s.backend.locks, store⟩)
  /-- The holder of the lock cannot load the ledger. -/
  | loadFails {s : Progress calls} {i : ι} {failure : Failure} {store : FaultyStore}
      (phase : s.phase i = .granted)
      (load : (c.settingsOf (calls i)).load s.backend.store = (.error failure, store)) :
      Advance c s (s.set i (.settled (.refused failure)) ⟨s.backend.locks, store⟩)
  /-- The holder of the lock has its request served on the copy, and saves it if it was changed. -/
  | settle {s : Progress calls} {i : ι} {copy : Ledger} {outcome : Outcome (calls i).request.Answer}
      {store : FaultyStore} (phase : s.phase i = .loaded copy)
      (settle : (c.settingsOf (calls i)).settle copy (calls i).request s.backend.store =
        (outcome, store)) :
      Advance c s (s.set i (.settled outcome) ⟨s.backend.locks, store⟩)
  /-- The holder of the lock gives it back. -/
  | release {s : Progress calls} {i : ι} {outcome : Outcome (calls i).request.Answer}
      (phase : s.phase i = .settled outcome) :
      Advance c s (s.set i (.finished outcome)
        ⟨s.backend.locks.release (c.settingsOf (calls i)).key, s.backend.store⟩)

/-! ### The invariant -/

/-- **What was done so far**, up to the part that the holder of the lock has done. -/
inductive Stage (c : Cluster n) {calls : ι → Call n} (s : Progress calls) : Prop where
  /-- No call holds the lock. -/
  | idle (free : ∀ i, ¬ (s.phase i).Holds)
      (backend : s.backend = (c.serial calls s.order).backend)
  /-- The call that was granted the lock last still holds it. -/
  | busy (before : List ι) (i : ι) (order : s.order = before ++ [i])
      (others : ∀ j, (s.phase j).Holds → j = i)
      (locks : (c.serial calls before).backend.locks.acquire (c.settingsOf (calls i)).key
        (c.settingsOf (calls i)).lockTimeout = .ok s.backend.locks)
      (follows : (s.phase i).Follows (c.settingsOf (calls i)) (c.serial calls before).backend
        s.backend.store)

/-- **Calls under way that can be told as one whole call at a time.** -/
structure Serialized (c : Cluster n) {calls : ι → Call n} (s : Progress calls) : Prop where
  /-- No call is granted the lock twice. -/
  nodup : s.order.Nodup
  /-- The order lists the calls that were granted the lock. -/
  mem_order : ∀ i, i ∈ s.order ↔ (s.phase i).WasGranted
  /-- A call that is done ended as it does one whole call at a time. -/
  finished : ∀ i outcome, s.phase i = .finished outcome →
    ∃ k, s.order[k]? = some i ∧ (c.serialEnd calls (s.order.take k) i).1 = outcome
  stage : Stage c s

namespace Progress

variable {calls : ι → Call n} {s : Progress calls} {i j : ι} {phase : Phase (calls i).request}
  {b : Backend}

@[simp] theorem phase_set_self : (s.set i phase b).phase i = phase :=
  Function.update_self ..

theorem set_set (s : Progress calls) (i : ι) (phase phase' : Phase (calls i).request)
    (b b' : Backend) : (s.set i phase b).set i phase' b' = s.set i phase' b' := by
  simp only [set, Function.update_idem]

theorem phase_set_of_ne (h : j ≠ i) : (s.set i phase b).phase j = s.phase j :=
  Function.update_of_ne h ..

@[simp] theorem phase_grant_self {locks : LockTable} : (s.grant i locks).phase i = .granted :=
  Function.update_self ..

theorem phase_grant_of_ne {locks : LockTable} (h : j ≠ i) :
    (s.grant i locks).phase j = s.phase j :=
  Function.update_of_ne h ..

end Progress

namespace Serialized

variable {c : Cluster n} {calls : ι → Call n} {s : Progress calls} {i : ι}

omit [DecidableEq ι] in
theorem start (c : Cluster n) (calls : ι → Call n) : Serialized c (Progress.start c calls) where
  nodup := List.nodup_nil
  mem_order i := iff_of_false List.not_mem_nil id
  finished i outcome h := by cases h
  stage := .idle (fun i => id) rfl

omit [DecidableEq ι] in
/-- While a call holds the lock, it is the one that was granted it last. -/
theorem holder (h : Serialized c s) (hi : (s.phase i).Holds) :
    ∃ before, s.order = before ++ [i] ∧ (∀ j, (s.phase j).Holds → j = i) ∧
      (c.serial calls before).backend.locks.acquire (c.settingsOf (calls i)).key
        (c.settingsOf (calls i)).lockTimeout = .ok s.backend.locks ∧
      (s.phase i).Follows (c.settingsOf (calls i)) (c.serial calls before).backend
        s.backend.store := by
  cases h.stage with
  | idle free backend => exact absurd hi (free i)
  | busy before k order others locks follows =>
      obtain rfl := others i hi
      exact ⟨before, order, others, locks, follows⟩

/-! What one step keeps, part by part. -/

theorem mem_order_set (h : Serialized c s) {phase : Phase (calls i).request} {b : Backend}
    (hphase : (s.phase i).WasGranted ↔ phase.WasGranted) (j : ι) :
    j ∈ s.order ↔ ((s.set i phase b).phase j).WasGranted := by
  by_cases hj : j = i
  · subst hj
    rw [Progress.phase_set_self, ← hphase]
    exact h.mem_order j
  · rw [Progress.phase_set_of_ne hj]
    exact h.mem_order j

theorem finished_set (h : Serialized c s) {phase : Phase (calls i).request} {b : Backend}
    (hphase : ∀ outcome, phase ≠ .finished outcome) {j : ι}
    {outcome : Outcome (calls j).request.Answer}
    (hfinished : (s.set i phase b).phase j = .finished outcome) :
    ∃ k, s.order[k]? = some j ∧ (c.serialEnd calls (s.order.take k) j).1 = outcome := by
  by_cases hj : j = i
  · subst hj
    rw [Progress.phase_set_self] at hfinished
    exact absurd hfinished (hphase outcome)
  · rw [Progress.phase_set_of_ne hj] at hfinished
    exact h.finished j outcome hfinished

theorem holds_set {phase : Phase (calls i).request} {b : Backend} {j : ι}
    (hj : ((s.set i phase b).phase j).Holds) : j = i ∧ phase.Holds ∨ (s.phase j).Holds := by
  by_cases hji : j = i
  · subst hji
    rw [Progress.phase_set_self] at hj
    exact .inl ⟨rfl, hj⟩
  · rw [Progress.phase_set_of_ne hji] at hj
    exact .inr hj

/-! The steps. -/

/-- A call is granted the lock: no other holds it. -/
theorem grant {key : String} (hkey : ∀ j, (c.settingsOf (calls j)).key = key)
    (h : Serialized c s) (hi : s.phase i = .waiting) {locks : LockTable}
    (hlocks : s.backend.locks.acquire (c.settingsOf (calls i)).key
      (c.settingsOf (calls i)).lockTimeout = .ok locks) :
    Serialized c (s.grant i locks) := by
  have hnew : i ∉ s.order := by
    rw [h.mem_order, hi]
    exact id
  cases h.stage with
  | busy before k order others held follows =>
      -- the lock is held, and is not granted a second time
      have hmem := LockTable.mem_of_acquire held
      rw [hkey] at hmem hlocks
      rw [LockTable.acquire_of_mem hmem] at hlocks
      cases hlocks
  | idle free backend =>
      refine ⟨?_, fun j => ?_, fun j outcome hfinished => ?_, .busy s.order i rfl ?_ ?_ ?_⟩
      · show (s.order ++ [i]).Nodup
        rw [List.nodup_append]
        refine ⟨h.nodup, List.nodup_singleton i, fun j hj k hk he => ?_⟩
        rw [← he, List.mem_singleton] at hk
        exact hnew (hk ▸ hj)
      · show j ∈ s.order ++ [i] ↔ _
        rw [List.mem_append, List.mem_singleton]
        by_cases hj : j = i
        · subst hj
          rw [Progress.phase_grant_self]
          exact iff_of_true (.inr rfl) trivial
        · rw [Progress.phase_grant_of_ne hj, h.mem_order j, or_iff_left hj]
      · -- its place in the order is as before
        obtain ⟨k, hk, hend⟩ := h.finished_set (b := s.backend) (fun _ he => by cases he) hfinished
        have hlt : k < s.order.length := (List.getElem?_eq_some_iff.1 hk).1
        refine ⟨k, ?_, ?_⟩
        · show (s.order ++ [i])[k]? = some j
          rw [List.getElem?_append_left hlt, hk]
        · show (c.serialEnd calls ((s.order ++ [i]).take k) j).1 = outcome
          rw [List.take_append_of_le_length (Nat.le_of_lt hlt), hend]
      · intro j hj
        rcases holds_set (b := s.backend) hj with ⟨he, -⟩ | hj
        · exact he
        · exact absurd hj (free j)
      · rw [← backend]
        exact hlocks
      · rw [Progress.phase_grant_self, ← backend]
        exact rfl

/-- A call gives up waiting. -/
theorem timeOut (h : Serialized c s) (hi : s.phase i = .waiting) :
    Serialized c (s.set i .timedOut s.backend) := by
  have hnot : ¬ (s.phase i).Holds := by
    rw [hi]
    exact id
  refine ⟨h.nodup, h.mem_order_set ?_, fun j outcome => h.finished_set (fun _ he => by cases he), ?_⟩
  · rw [hi]
    exact iff_of_false id id
  · cases h.stage with
    | idle free backend =>
        refine .idle (fun j hj => ?_) backend
        rcases holds_set hj with ⟨-, himpossible⟩ | hj
        · exact himpossible
        · exact free j hj
    | busy before k order others locks follows =>
        have hk : k ≠ i := by
          rintro rfl
          rw [hi] at follows
          exact follows
        refine .busy before k order (fun j hj => ?_) locks ?_
        · rcases holds_set hj with ⟨-, himpossible⟩ | hj
          · exact himpossible.elim
          · exact others j hj
        · rw [Progress.phase_set_of_ne hk]
          exact follows

/-- The holder of the lock goes on to another phase in which it holds it. -/
theorem goOn (h : Serialized c s) (hi : (s.phase i).Holds) {phase : Phase (calls i).request}
    {store : FaultyStore} (hphase : phase.Holds)
    (hfollows : ∀ b, (s.phase i).Follows (c.settingsOf (calls i)) b s.backend.store →
      phase.Follows (c.settingsOf (calls i)) b store) :
    Serialized c (s.set i phase ⟨s.backend.locks, store⟩) := by
  obtain ⟨before, horder, hothers, hlocks, hmade⟩ := h.holder hi
  refine ⟨h.nodup, h.mem_order_set (iff_of_true hi.wasGranted hphase.wasGranted),
    fun j outcome => h.finished_set ?_, .busy before i horder (fun j hj => ?_) hlocks ?_⟩
  · rintro ended rfl
    exact hphase
  · rcases holds_set hj with ⟨rfl, -⟩ | hj
    · rfl
    · exact hothers j hj
  · rw [Progress.phase_set_self]
    exact hfollows _ hmade

/-- The holder of the lock gives it back: its call is then one whole call. -/
theorem release (h : Serialized c s) {outcome : Outcome (calls i).request.Answer}
    (hi : s.phase i = .settled outcome) :
    Serialized c (s.set i (.finished outcome)
      ⟨s.backend.locks.release (c.settingsOf (calls i)).key, s.backend.store⟩) := by
  have hholds : (s.phase i).Holds := by
    rw [hi]
    trivial
  obtain ⟨before, horder, hothers, hlocks, hmade⟩ := h.holder hholds
  rw [hi] at hmade
  have hend : c.serialEnd calls before i =
      (outcome, ⟨s.backend.locks.release (c.settingsOf (calls i)).key, s.backend.store⟩) := by
    simp only [serialEnd, Settings.transact, hlocks]
    rw [show (c.settingsOf (calls i)).loadAndSettle _ _ = _ from hmade]
  refine ⟨h.nodup, h.mem_order_set (iff_of_true hholds.wasGranted trivial), ?_,
    .idle (fun j hj => ?_) ?_⟩
  · intro j ended hfinished
    by_cases hj : j = i
    · subst hj
      rw [Progress.phase_set_self] at hfinished
      cases hfinished
      refine ⟨before.length, ?_, ?_⟩
      · show s.order[before.length]? = some j
        rw [horder, List.getElem?_concat_length]
      · show (c.serialEnd calls (s.order.take before.length) j).1 = _
        rw [horder, List.take_left, hend]
    · rw [Progress.phase_set_of_ne hj] at hfinished
      exact h.finished j ended hfinished
  · rcases holds_set hj with ⟨-, himpossible⟩ | hholds
    · exact himpossible
    · obtain rfl := hothers j hholds
      rw [Progress.phase_set_self] at hj
      exact hj
  · show _ = (c.serial calls s.order).backend
    rw [horder, backend_serial_append, hend]
    rfl

/-- **One step keeps the invariant.** -/
theorem advance {key : String} (hkey : ∀ j, (c.settingsOf (calls j)).key = key)
    (h : Serialized c s) {s' : Progress calls} (hs : Advance c s s') : Serialized c s' := by
  cases hs with
  | grant phase acquire => exact h.grant hkey phase acquire
  | timeOut phase => exact h.timeOut phase
  | load phase load =>
      refine h.goOn (phase ▸ trivial) trivial fun b hb => ?_
      rw [phase] at hb
      rw [show s.backend.store = b.store from hb] at load
      exact load
  | loadFails phase load =>
      refine h.goOn (phase ▸ trivial) trivial fun b hb => ?_
      rw [phase] at hb
      rw [show s.backend.store = b.store from hb] at load
      simp only [Phase.Follows, Settings.loadAndSettle, load]
  | settle phase settle =>
      refine h.goOn (phase ▸ trivial) trivial fun b hb => ?_
      rw [phase] at hb
      have hload : (c.settingsOf (calls _)).load b.store = _ := hb
      simp only [Phase.Follows, Settings.loadAndSettle, hload, settle]
  | release phase => exact h.release phase

omit [DecidableEq ι] in
/-- A copy of the ledger is what would be loaded now, as long as its call holds the lock. -/
theorem load_eq (h : Serialized c s) {copy : Ledger} (hi : s.phase i = .loaded copy) :
    (c.settingsOf (calls i)).load s.backend.store = (.ok copy, s.backend.store) := by
  obtain ⟨before, -, -, -, hmade⟩ := h.holder (i := i) (hi ▸ trivial)
  rw [hi] at hmade
  have hload : (c.settingsOf (calls i)).load (c.serial calls before).backend.store =
    (.ok copy, s.backend.store) := hmade
  have hsame := Settings.store_of_load hload
  rw [hsame, hload, hsame]

end Serialized

/-! ### Commits -/

/-- How many calls have saved a change. -/
def Progress.commits {calls : ι → Call n} (s : Progress calls) : Nat :=
  s.order.countP fun i => (s.phase i).committed

/-- **The version counts the commits**, as long as the file of the key has room for them. -/
structure Versioned (c : Cluster n) (key : String) {calls : ι → Call n} (s : Progress calls) :
    Prop where
  /-- Each commit takes at most the room of one lease. -/
  room : ∀ count, c.backend.store.inner.HasRoom key (s.commits + count) →
    s.backend.store.inner.HasRoom key count
  version : c.backend.store.inner.HasRoom key s.commits → s.backend.store.inner.version key =
    c.backend.store.inner.version key + UInt64.ofNat s.commits

section Commits

variable {c : Cluster n} {calls : ι → Call n} {s s' : Progress calls} {key : String}

theorem commits_set {i : ι} {phase : Phase (calls i).request} {b : Backend}
    (h : phase.committed = (s.phase i).committed) : (s.set i phase b).commits = s.commits := by
  have hsame : ∀ j, ((s.set i phase b).phase j).committed = (s.phase j).committed := by
    intro j
    by_cases hj : j = i
    · subst hj
      rw [Progress.phase_set_self, h]
    · rw [Progress.phase_set_of_ne hj]
  simp only [Progress.commits, hsame]
  rfl

theorem commits_grant {i : ι} (hi : s.phase i = .waiting) (locks : LockTable) :
    (s.grant i locks).commits = s.commits := by
  have hset : (s.set i .granted ⟨locks, s.backend.store⟩).commits = s.commits :=
    commits_set (by rw [hi]; rfl)
  show (s.order ++ [i]).countP (fun j => ((s.grant i locks).phase j).committed) = _
  rw [List.countP_append, List.countP_singleton, Progress.phase_grant_self, ← hset]
  rfl

/-- The call that was granted the lock last saves its change. -/
theorem commits_set_last {before : List ι} {i : ι} (horder : s.order = before ++ [i])
    (hnodup : s.order.Nodup) {phase : Phase (calls i).request} {b : Backend}
    (hbefore : (s.phase i).committed = false) :
    (s.set i phase b).commits = s.commits + phase.committed.toNat := by
  rw [horder, List.nodup_append] at hnodup
  have hsame : before.countP (fun j => ((s.set i phase b).phase j).committed) =
      before.countP fun j => (s.phase j).committed := by
    refine List.countP_congr fun j hj => ?_
    have hne : j ≠ i := hnodup.2.2 j hj i (List.mem_singleton_self i)
    rw [Progress.phase_set_of_ne hne]
  show s.order.countP _ = s.order.countP _ + _
  rw [horder, List.countP_append, List.countP_append, hsame, List.countP_singleton,
    List.countP_singleton, Progress.phase_set_self, hbefore]
  cases phase.committed with
  | false => rfl
  | true => rfl

omit [DecidableEq ι] in
/-- A step that commits nothing and leaves the store inside as it was. -/
theorem Versioned.of_same (h : Versioned c key s)
    (hinner : s'.backend.store.inner = s.backend.store.inner) (hcommits : s'.commits = s.commits) :
    Versioned c key s' where
  room := by
    rw [hinner, hcommits]
    exact h.room
  version := by
    rw [hinner, hcommits]
    exact h.version

/-- **One step keeps the version and the commits in line.** -/
theorem Versioned.advance (hkey : ∀ j, (c.settingsOf (calls j)).key = key)
    (hnames : ∀ j, (calls j).request.NamesFit) (hserial : Serialized c s) (h : Versioned c key s)
    (hs : Advance c s s') : Versioned c key s' := by
  cases hs with
  | grant phase acquire => exact h.of_same rfl (commits_grant phase _)
  | timeOut phase => exact h.of_same rfl (commits_set (by rw [phase]; rfl))
  | @load i copy store phase load =>
      refine h.of_same ?_ (commits_set (by rw [phase]; rfl))
      show store.inner = _
      rw [Settings.store_of_load load]
  | @loadFails i failure store phase load =>
      refine h.of_same ?_ (commits_set (by rw [phase]; rfl))
      have hinner := Settings.inner_load (c.settingsOf (calls i)) s.backend.store
      rw [load] at hinner
      exact hinner
  | @settle i copy outcome store phase settle =>
      -- the copy is what would be loaded now, so settling it is the end of a whole transaction
      obtain ⟨before, horder, -, -, -⟩ := hserial.holder (i := i) (phase ▸ trivial)
      have hending := Settings.ending_settle (b := ⟨.empty, s.backend.store⟩)
        (r := (calls i).request) (LockTable.not_mem_empty _)
        (congrArg Prod.fst (hserial.load_eq phase)) rfl
      rw [settle] at hending
      have hcommits : (s.set i (.settled outcome) ⟨s.backend.locks, store⟩).commits =
          s.commits + outcome.isCommitted.toNat :=
        commits_set_last horder hserial.nodup (by rw [phase]; rfl)
      refine ⟨fun count hroom => ?_, fun hroom => ?_⟩
      · rw [hcommits, Nat.add_assoc] at hroom
        have hbefore := h.room _ hroom
        rw [← hkey i] at hbefore ⊢
        exact hending.hasRoom (hnames i) hbefore
      · rw [hcommits] at hroom ⊢
        have hbefore := h.room _ hroom
        rw [← hkey i] at hbefore
        have hversion := hending.version (hnames i) hbefore
        rw [hkey i] at hversion
        show store.inner.version key = _
        rw [hversion, h.version (hroom.mono (Nat.le_add_right ..)), UInt64.add_assoc,
          UInt64.ofNat_add]
  | release phase => exact h.of_same rfl (commits_set (by rw [phase]; rfl))

end Commits

/-! ### Executions -/

/-- **What the calls have come to**, after any steps in any order. -/
def Executes (c : Cluster n) (calls : ι → Call n) (s : Progress calls) : Prop :=
  Relation.ReflTransGen (Advance c) (.start c calls) s

variable {c : Cluster n} {calls : ι → Call n} {s : Progress calls} {key : String}

theorem Executes.serialized (hkey : ∀ i, (c.settingsOf (calls i)).key = key)
    (h : Executes c calls s) : Serialized c s := by
  induction h with
  | refl => exact .start c calls
  | tail _ hs ih => exact ih.advance hkey hs

theorem Executes.versioned (hkey : ∀ i, (c.settingsOf (calls i)).key = key)
    (hnames : ∀ i, (calls i).request.NamesFit) (h : Executes c calls s) : Versioned c key s := by
  induction h with
  | refl =>
      exact ⟨fun count hroom => hroom.mono (Nat.le_add_left ..), fun _ => (UInt64.add_zero _).symm⟩
  | tail hbefore hs ih => exact ih.advance hkey hnames (Executes.serialized hkey hbefore) hs

/-- From the grant of the lock its holder can go on to where only giving it back is left. -/
theorem Executes.exists_settled (h : Executes c calls s) {i : ι} (hi : s.phase i = .granted) :
    ∃ outcome store, Executes c calls (s.set i (.settled outcome) ⟨s.backend.locks, store⟩) := by
  rcases hload : (c.settingsOf (calls i)).load s.backend.store with ⟨loaded, store⟩
  cases loaded with
  | error failure => exact ⟨_, _, h.tail (.loadFails hi hload)⟩
  | ok copy =>
      have hloaded := h.tail (.load hi hload)
      have hsettled := hloaded.tail (.settle Progress.phase_set_self rfl)
      rw [Progress.set_set] at hsettled
      exact ⟨_, _, hsettled⟩

/-- **While no call holds the lock, a call that waits can be carried through**, whatever the others
are waiting for. -/
theorem Executes.exists_finished (h : Executes c calls s) {i : ι} (hi : s.phase i = .waiting)
    (hfree : (c.settingsOf (calls i)).key ∉ s.backend.locks.held) :
    ∃ s' : Progress calls, Executes c calls s' ∧ (∃ outcome, s'.phase i = .finished outcome) ∧
      (∀ j, j ≠ i → s'.phase j = s.phase j) ∧ s'.order = s.order ++ [i] ∧
      s'.backend.locks = s.backend.locks := by
  have hacquire := LockTable.acquire_of_not_mem hfree (c.settingsOf (calls i)).lockTimeout
  have hgranted := h.tail (.grant hi hacquire)
  obtain ⟨outcome, store, hsettled⟩ := Executes.exists_settled hgranted Progress.phase_grant_self
  refine ⟨_, hsettled.tail (.release Progress.phase_set_self),
    ⟨outcome, Progress.phase_set_self⟩, fun j hj => ?_, rfl, ?_⟩
  · rw [Progress.phase_set_of_ne hj, Progress.phase_set_of_ne hj, Progress.phase_grant_of_ne hj]
  · exact LockTable.release_acquire hacquire

/-- **However the steps of the calls interleave, they are answered and leave in the store what they
do one whole call at a time**, in the order in which they were granted the lock: a call that is done
has the answer that it is given after those granted the lock before it, and when no call holds the
lock, the backend is what all of them leave.  A copy of the ledger is what would be loaded now as
long as its call holds the lock, and the version counts the commits, in a file as long as their
leases can be counted there. -/
theorem serializable (hkey : ∀ i, (c.settingsOf (calls i)).key = key) (h : Executes c calls s) :
    s.order.Nodup ∧
      (∀ i outcome, s.phase i = .finished outcome →
        ∃ k, s.order[k]? = some i ∧
          ((c.serial calls (s.order.take k)).call (calls i).node (calls i).request).1 =
            outcome.result) ∧
      ((∀ i, ¬ (s.phase i).Holds) → s.backend = (c.serial calls s.order).backend) ∧
      (∀ i copy, s.phase i = .loaded copy →
        (c.settingsOf (calls i)).load s.backend.store = (.ok copy, s.backend.store)) ∧
      ((∀ i, (calls i).request.NamesFit) → c.backend.store.inner.HasRoom key s.commits →
        s.backend.store.inner.version key =
          c.backend.store.inner.version key + UInt64.ofNat s.commits) := by
  have hserial := h.serialized hkey
  refine ⟨hserial.nodup, ?_, ?_, fun i copy hi => hserial.load_eq hi,
    fun hnames => (h.versioned hkey hnames).version⟩
  · intro i outcome hi
    obtain ⟨k, hk, hend⟩ := hserial.finished i outcome hi
    refine ⟨k, hk, ?_⟩
    rw [call_serial, hend]
  · intro hfree
    cases hserial.stage with
    | idle free backend => exact backend
    | busy before i order others locks follows =>
        -- a holder of the lock follows nothing unless it holds it
        have hi := hfree i
        cases hphase : s.phase i with
        | granted | loaded | settled => exact absurd (hphase ▸ trivial) hi
        | waiting | finished | timedOut =>
            rw [hphase] at follows
            exact follows.elim

/-- Starts of a tenant, each at some node. -/
abbrev startsAt (node : Fin 3 → Fin 2) (i : Fin 3) : Call 2 := ⟨node i, .start "a"⟩

/-- The second start is granted the lock first, and the third one gives up while it holds it. -/
theorem executes_startsAt (node : Fin 3 → Fin 2) : ∃ s : Progress (startsAt node),
    Executes twoNodes (startsAt node) s ∧ s.order = [1, 0] ∧
      (∃ outcome, s.phase 0 = .finished outcome) ∧ (∃ outcome, s.phase 1 = .finished outcome) ∧
      s.phase 2 = .timedOut := by
  have hacquire := LockTable.acquire_of_not_mem
    (LockTable.not_mem_empty (twoNodes.settingsOf (startsAt node 1)).key)
    (twoNodes.settingsOf (startsAt node 1)).lockTimeout
  have hstart : Executes twoNodes (startsAt node) (.start twoNodes (startsAt node)) := .refl
  have hgranted := hstart.tail (.grant (i := 1) rfl hacquire)
  have hgivenUp := hgranted.tail (.timeOut (i := 2) rfl)
  obtain ⟨outcome, store, hsettled⟩ := Executes.exists_settled hgivenUp (i := 1) rfl
  have hreleased := hsettled.tail (.release Progress.phase_set_self)
  obtain ⟨s, hs, hfirst, hothers, horder, -⟩ := Executes.exists_finished hreleased (i := 0) rfl
    ((LockTable.release_acquire hacquire).symm ▸ LockTable.not_mem_empty _)
  exact ⟨s, hs, horder, hfirst, ⟨outcome, hothers 1 (by decide)⟩, hothers 2 (by decide)⟩

theorem serializable_startsAt :
    ∃ s : Progress (startsAt fun i => if i = 0 then 1 else 0),
      Executes twoNodes (startsAt fun i => if i = 0 then 1 else 0) s ∧
      s.backend = (twoNodes.serial (startsAt fun i => if i = 0 then 1 else 0) [1, 0]).backend ∧
      (∃ outcome, s.phase 0 = .finished outcome ∧ outcome.result = .ok ⟨2, 2⟩) ∧
      UInt64.ofNat s.commits = 2 := by
  obtain ⟨s, hs, horder, ⟨outcome, hfirst⟩, ⟨outcome', hsecond⟩, hthird⟩ :=
    executes_startsAt fun i => if i = 0 then 1 else 0
  have hkey : ∀ i : Fin 3, (twoNodes.node (if i = 0 then 1 else 0)).settings.key =
      Settings.standard.key := fun i => recorded_twoNodes.key_eq _
  obtain ⟨-, hanswers, hbackend, -, hversion⟩ := serializable hkey hs
  rw [horder] at hanswers hbackend
  have hfinal : s.backend =
      (twoNodes.serial (startsAt fun i => if i = 0 then 1 else 0) [1, 0]).backend := by
    refine hbackend fun i => ?_
    match i with
    | 0 => exact hfirst ▸ id
    | 1 => exact hsecond ▸ id
    | 2 => exact hthird ▸ id
  refine ⟨s, hs, hfinal, ⟨outcome, hfirst, ?_⟩, ?_⟩
  · obtain ⟨k, hk, hanswer⟩ := hanswers 0 outcome hfirst
    have hk' : k = 1 := by
      match k with
      | 0 => cases hk
      | 1 => rfl
      | k + 2 => cases hk
    subst hk'
    rw [← hanswer]
    decide +kernel
  · have hnames : ∀ i : Fin 3, (Request.start "a").NamesFit := fun _ => by decide
    have hcounted := hversion hnames (Store.hasRoom_memory ∅ _ _)
    have hzero : twoNodes.backend.store.inner.version Settings.standard.key = 0 := rfl
    rw [hfinal, hzero, UInt64.zero_add] at hcounted
    rw [← hcounted]
    decide +kernel

end Cluster

end Tenancy
