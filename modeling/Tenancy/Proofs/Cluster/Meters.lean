/-
**The meters agree with the ledger.**

Each node counts its calls for itself, the store counts saves, and the ledger counts versions,
tenants and references.  None of them looks at another, and yet they agree: after any calls, with
locks held and stores failing, what the nodes have counted together is what the store and the ledger
say.  The reason is the log.  Every meter counts calls of one sort, so each can be read off the log,
and the meters agree because the sorts do.

Main definitions:

* `Tenancy.Cluster.callsAt` — the calls of a log that were made at a node;
* `Tenancy.Cluster.total` — what all nodes have counted together;
* `Tenancy.Cluster.Metered` — **meters that show what the log tells**;
* `Tenancy.Cluster.Balanced` — **meters that agree with the ledger**.

Main results:

* `Tenancy.Cluster.Metered.call`, `Tenancy.Cluster.Metered.makes` — **calls keep the meters telling
  the log**;
* `Tenancy.Cluster.balanced_run` — **after any run the meters agree with the ledger**.
-/

import Tenancy.Proofs.Cluster.Calls
import Tenancy.Proofs.Node.Counted

set_option relaxedAutoImplicit false
set_option autoImplicit false

namespace Tenancy.Cluster

variable {n : Nat} {key : String}

/-! ### Counting calls -/

/-- The calls that were made at a node. -/
def callsAt (log : List (Fin n × Served)) (i : Fin n) : List Served :=
  (log.filter fun e => e.1 = i).map Prod.snd

theorem callsAt_append (log log' : List (Fin n × Served)) (i : Fin n) :
    callsAt (log ++ log') i = callsAt log i ++ callsAt log' i := by
  rw [callsAt, List.filter_append, List.map_append, callsAt, callsAt]

theorem callsAt_singleton (i j : Fin n) (e : Served) :
    callsAt [(i, e)] j = if i = j then [e] else [] := by
  rw [callsAt, List.filter_singleton]
  split <;> rename_i h <;> simp_all

theorem callsAt_perm {log log' : List (Fin n × Served)} (h : log.Perm log') (i : Fin n) :
    (callsAt log i).Perm (callsAt log' i) :=
  (h.filter _).map _

/-- The calls of all nodes are all calls. -/
theorem sum_countP_callsAt (log : List (Fin n × Served)) (p : Served → Bool) :
    ∑ i, (callsAt log i).countP p = (log.map Prod.snd).countP p := by
  induction log with
  | nil => exact Finset.sum_eq_zero fun i _ => rfl
  | cons e log ih =>
      have hone : ∀ i, (callsAt (e :: log) i).countP p =
          (if i = e.1 then (p e.2).toNat else 0) + (callsAt log i).countP p := by
        intro i
        rw [← List.singleton_append, callsAt_append, List.countP_append, callsAt_singleton]
        simp only [eq_comm (a := i)]
        split
        · rw [Served.countP_singleton]
        · rfl
      rw [Finset.sum_congr rfl fun i _ => hone i, Finset.sum_add_distrib, ih,
        Finset.sum_ite_eq' Finset.univ e.1, if_pos (Finset.mem_univ _), List.map_cons,
        ← List.singleton_append, List.countP_append, Served.countP_singleton]

/-- Whether an answer goes with a saved change. -/
def Served.commits (e : Served) : Bool := e.takes || e.gives

theorem Served.commits_eq (e : Served) : e.commits.toNat = e.takes.toNat + e.gives.toNat := by
  obtain ⟨r, answer⟩ := e
  cases r with
  | start tenant => cases answer <;> rfl
  | stop tenant => rcases answer with failure | (_ | _ | _) <;> rfl
  | get | lease | ledger => rfl

/-! ### Meters and the log -/

/-- What all nodes have counted together. -/
def total (c : Cluster n) (count : Counters → Nat) : Nat := ∑ i, count (c.node i).counters

/-- **Meters that show what the log tells**: the counters of each node, the counts of a store in
memory, and the version and the number of leases under a key. -/
structure Metered (c : Cluster n) (key : String) (log : List (Fin n × Served)) : Prop where
  memory : ∃ ledgers, c.backend.store.inner = .memory ledgers
  counters : ∀ i, (c.node i).counters.Tell (callsAt log i)
  saves : c.backend.store.counts.saves = (log.map Prod.snd).countP Served.commits
  failedSaves : c.backend.store.counts.failedSaves = (log.map Prod.snd).countP Served.rollsBack
  version : c.backend.store.inner.version key = UInt64.ofNat c.backend.store.counts.saves
  leases : c.backend.store.inner.leaseCount key + (log.map Prod.snd).countP Served.frees =
    (log.map Prod.snd).countP Served.allocates

namespace Metered

variable {c c' : Cluster n} {log log' : List (Fin n × Served)}

theorem new (settings : Vector Settings n) (key : String) :
    (Cluster.new .inMemory settings).Metered key [] := by
  refine ⟨⟨∅, rfl⟩, fun i => ?_, rfl, rfl, rfl, rfl⟩
  have hcounters : ((Cluster.new .inMemory settings).node i).counters = .zero := by
    show (settings.map Node.new)[i.val].counters = _
    rw [Vector.getElem_map]
    rfl
  rw [hcounters]
  exact Counters.tell_zero

/-- The order of the calls does not matter. -/
theorem perm (h : c.Metered key log) (hperm : log.Perm log') : c.Metered key log' := by
  have hcount : ∀ p : Served → Bool,
      (log.map Prod.snd).countP p = (log'.map Prod.snd).countP p := fun p =>
    (hperm.map Prod.snd).countP_eq p
  refine ⟨h.memory, fun i => ?_, ?_, ?_, h.version, ?_⟩
  · have hcalls : ∀ p : Served → Bool, (callsAt log i).countP p = (callsAt log' i).countP p :=
      fun p => (callsAt_perm hperm i).countP_eq p
    obtain ⟨hstarts, hstops, hallocations, hreleases, hrollbacks, herrors⟩ := h.counters i
    simp only [hcalls] at hstarts hstops hallocations hreleases hrollbacks herrors
    exact ⟨hstarts, hstops, hallocations, hreleases, hrollbacks, herrors⟩
  · rw [h.saves, hcount]
  · rw [h.failedSaves, hcount]
  · rw [← hcount, ← hcount]
    exact h.leases

/-- **A call keeps the meters telling the log.** -/
theorem call {S : Settings → Prop} (h : c.Metered key log) (hkey : ∀ s, S s → s.key = key)
    (hupholds : c.Upholds S fun l => l.Sound ∧ l.NamesFit) (i : Fin n) {r : Request}
    (hr : r.NamesFit) :
    (c.call i r).2.Metered key (log ++ [(i, ⟨r, (c.call i r).1⟩)]) := by
  have hs := hupholds.settings i
  have hi := hkey _ hs
  obtain ⟨ledgers, hmemory⟩ := h.memory
  have hcommits := (c.node i).settings.commits_transact r c.backend
  have hrollsBack := (c.node i).settings.rollsBack_transact r c.backend
  obtain ⟨hsaves, hfailed⟩ := Settings.counts_transact (s := (c.node i).settings) hmemory r
  have hversion := ((c.node i).settings.ending_transact r c.backend).version hr
    (hmemory ▸ Store.hasRoom_memory ledgers _ _)
  have hleases := Settings.leaseCount_transact hs hupholds.ledgers hr
  rw [hi] at hversion hleases
  have hcount : ∀ p : Served → Bool,
      ((log ++ [(i, (⟨r, (c.call i r).1⟩ : Served))]).map Prod.snd).countP p =
        (log.map Prod.snd).countP p + (p ⟨r, (c.call i r).1⟩).toNat := by
    intro p
    rw [List.map_append]
    exact Served.countP_concat p _ _
  have hsaved : (c.call i r).2.backend.store.counts.saves =
      c.backend.store.counts.saves + (Served.commits ⟨r, (c.call i r).1⟩).toNat :=
    hsaves.trans (congrArg (fun saved : Bool => _ + saved.toNat) hcommits.symm)
  refine ⟨Settings.memory_transact hmemory r, fun j => ?_, ?_, ?_, ?_, ?_⟩
  · rw [callsAt_append, callsAt_singleton]
    by_cases hij : i = j
    · subst hij
      have hcounters : ((c.call i r).2.node i).counters =
          (c.node i).counters.note r ((c.node i).settings.transact r c.backend).1 :=
        congrArg Node.counters (node_update_self ..)
      rw [if_pos rfl, hcounters]
      exact (h.counters i).add (Counters.adds_note _ hrollsBack)
    · have hnode : (c.call i r).2.node j = c.node j := node_update_of_ne c _ _ hij
      rw [if_neg hij, List.append_nil, hnode]
      exact h.counters j
  · rw [hsaved, hcount, h.saves]
  · rw [hcount, ← h.failedSaves]
    exact hfailed.trans (congrArg (fun failed : Bool => _ + failed.toNat) hrollsBack.symm)
  · -- a save that passes is the next version
    rw [hsaved, UInt64.ofNat_add, ← h.version]
    exact hversion.trans (congrArg (fun saved : Bool => _ + UInt64.ofNat saved.toNat) hcommits.symm)
  · rw [hcount, hcount, ← h.leases]
    have hafter : (c.call i r).2.backend.store.inner.leaseCount key +
        (Served.frees ⟨r, (c.call i r).1⟩).toNat = c.backend.store.inner.leaseCount key +
          (Served.allocates ⟨r, (c.call i r).1⟩).toNat := hleases
    omega

/-- What is of no account keeps them telling it too. -/
theorem quiet (h : c.Metered key log) (hq : Quiet c c') : c'.Metered key log := by
  refine ⟨hq.inner ▸ h.memory, fun i => ?_, ?_, ?_, ?_, ?_⟩
  · obtain ⟨leaked, hcounters⟩ := hq.counters i
    obtain ⟨hstarts, hstops, hallocations, hreleases, hrollbacks, herrors⟩ := h.counters i
    rw [hcounters]
    exact ⟨hstarts, hstops, hallocations, hreleases, hrollbacks, herrors⟩
  · rw [hq.saves, h.saves]
  · rw [hq.failedSaves, h.failedSaves]
  · rw [hq.inner, hq.saves, h.version]
  · rw [hq.inner, h.leases]

/-- **So do many calls.** -/
theorem makes {S : Settings → Prop} (h : c.Metered key log) (hkey : ∀ s, S s → s.key = key)
    (hupholds : c.Upholds S fun l => l.Sound ∧ l.NamesFit) (hm : Makes c log' c') :
    c'.Metered key (log ++ log') := by
  induction hm generalizing log with
  | call c i names => exact h.call hkey hupholds i names
  | quiet hq =>
      rw [List.append_nil]
      exact h.quiet hq
  | append first rest ih ih' =>
      rw [← List.append_assoc]
      exact ih' (ih h hupholds) (hupholds.makes (Ledger.sound_invariant S) first)

/-- What all nodes have counted together are the calls of one sort. -/
theorem total_eq {count : Counters → Nat} {p : Served → Bool}
    (h : ∀ i, count (c.node i).counters = (callsAt log i).countP p) :
    c.total count = (log.map Prod.snd).countP p := by
  rw [total, Finset.sum_congr rfl fun i _ => h i, sum_countP_callsAt]

end Metered

/-! ### Meters and the ledger -/

/-- **Meters that agree with the ledger under a key**, and with a log of calls. -/
structure Balanced (c : Cluster n) (key : String) (log : List (Fin n × Served)) : Prop where
  /-- The slots handed out less those given back are the tenants that hold one. -/
  tenants : (c.total Counters.allocations - c.total Counters.releases : Int) =
    c.backend.store.inner.leaseCount key
  /-- The starts less the stops that dropped a reference are the references. -/
  references : (c.total Counters.starts - c.total Counters.stops : Int) +
    (log.map Prod.snd).countP Served.findsNothing = c.totalReferences key
  /-- The starts and the stops that dropped a reference are the saves. -/
  saves : (c.total Counters.starts + c.total Counters.stops : Int) -
    (log.map Prod.snd).countP Served.findsNothing = c.backend.store.counts.saves
  /-- The saves are the version. -/
  version : c.backend.store.inner.version key = UInt64.ofNat c.backend.store.counts.saves
  /-- The changed copies thrown away are the saves that failed. -/
  rollbacks : c.total Counters.rollbacks = c.backend.store.counts.failedSaves
  /-- Each node has counted its failed calls under their labels. -/
  errors : ∀ i label, (c.node i).counters.errors.count label =
    (callsAt log i).countP (Served.failsWith label)

/-- Meters that show what the log tells agree with the ledger, if its references are those that the
log leaves. -/
theorem Metered.balanced {c : Cluster n} {log : List (Fin n × Served)} (h : c.Metered key log)
    (hreferences : (c.totalReferences key : Int) = balance (log.map Prod.snd)) :
    c.Balanced key log := by
  have hstarts := total_eq fun i => (h.counters i).starts
  have hstops := total_eq fun i => (h.counters i).stops
  have hallocations := total_eq fun i => (h.counters i).allocations
  have hreleases := total_eq fun i => (h.counters i).releases
  have hrollbacks := total_eq fun i => (h.counters i).rollbacks
  have hleases := h.leases
  have hdivided := Served.countP_eq_add Served.stops_eq (log.map Prod.snd)
  have hcommits := Served.countP_eq_add Served.commits_eq (log.map Prod.snd)
  rw [balance] at hreferences
  constructor
  · rw [hallocations, hreleases]
    omega
  · rw [hstarts, hstops, hreferences]
    omega
  · rw [hstarts, hstops, h.saves]
    omega
  · exact h.version
  · rw [hrollbacks, h.failedSaves]
  · exact fun i label => (h.counters i).errors label

/-- **After any run the meters agree with the ledger.**  Nodes of one key begin over an empty store
in memory.  Requests are made, caches are started, stopped and looked up, calls queue up, locks are
held and stores fail; only the ledgers are left to the nodes, and the nodes are not started anew.
Then what the nodes have counted, what the store has counted and what the ledger says agree, as do
the errors of each node with its calls. -/
theorem balanced_run {settings : Vector Settings n} (hkey : ∀ i : Fin n, (settings.get i).key = key)
    {steps : List (Step n)} (hsteps : ∀ step ∈ steps, step.ThroughCalls) :
    ((new .inMemory settings).run steps).2.Balanced key
      ((new .inMemory settings).madeLog steps) := by
  have hnew : Recorded key (new .inMemory settings) [] := .new Store.isEmpty_inMemory hkey
  have hupholds := hnew.reachable.upholds (Ledger.sound_invariant _)
  obtain ⟨log, hmakes, hperm⟩ := makes_run (new .inMemory settings) hsteps
  have hmetered := (Metered.new settings key).makes (fun _ hs => hs) hupholds hmakes
  refine (hmetered.perm hperm.symm).balanced ?_
  rw [map_snd_madeLog]
  exact (hnew.run fun step hs => (hsteps step hs).1).total_eq

/-- A start, another one that cannot be saved, a cache that leaks its reference, a stop of a tenant
that holds nothing, a look-up while the lock is held, and a last stop. -/
def meteredSteps (i j : Fin 2) : List (Step 2) :=
  [.request i (.start "a"), .failSave 0, .request i (.start "b"),
    .resolve j .standard fun _ => none, .failSave 1, .startCache j "a" .tasks,
    .request j (.stop "b"),
    .lock Settings.standard.key (.ofSeconds 1) "host", .request i (.get "a"), .unlock "host",
    .request j (.stop "a")]

theorem balanced_meteredSteps :
    (twoNodes.run (meteredSteps 0 1)).2.total Counters.rollbacks = 2 ∧
      (twoNodes.run (meteredSteps 0 1)).2.totalReferences Settings.standard.key = 1 ∧
      (twoNodes.run (meteredSteps 0 1)).2.backend.store.inner.version Settings.standard.key = 3 ∧
      ((twoNodes.run (meteredSteps 0 1)).2.node 0).counters.errors.count
        "lock_unavailable" = 1 := by
  have hkey : ∀ i : Fin 2, ((#v[.standard, { Settings.standard with
      slots := ⟨5, 20, .lowestReleased⟩ }] : Vector Settings 2).get i).key =
        Settings.standard.key := by decide
  have hsteps : ∀ step ∈ meteredSteps 0 1, step.ThroughCalls := by decide
  have hbalanced : (twoNodes.run (meteredSteps 0 1)).2.Balanced Settings.standard.key
      (twoNodes.madeLog (meteredSteps 0 1)) := balanced_run hkey hsteps
  have hfailed : (twoNodes.run (meteredSteps 0 1)).2.backend.store.counts.failedSaves = 2 := by
    decide +kernel
  have hsaves : (twoNodes.run (meteredSteps 0 1)).2.backend.store.counts.saves = 3 := by
    decide +kernel
  have hlocked : (callsAt (twoNodes.madeLog (meteredSteps 0 1)) 0).countP
      (Served.failsWith "lock_unavailable") = 1 := by decide +kernel
  have hstarts : (twoNodes.run (meteredSteps 0 1)).2.total Counters.starts = 2 := by decide +kernel
  have hstops : (twoNodes.run (meteredSteps 0 1)).2.total Counters.stops = 2 := by decide +kernel
  have hidle : ((twoNodes.madeLog (meteredSteps 0 1)).map Prod.snd).countP
      Served.findsNothing = 1 := by decide +kernel
  have hreferences := hbalanced.references
  have hversion := hbalanced.version
  have hrollbacks := hbalanced.rollbacks
  rw [hstarts, hstops, hidle] at hreferences
  rw [hsaves] at hversion
  rw [hfailed] at hrollbacks
  refine ⟨hrollbacks, by omega, hversion, ?_⟩
  rw [hbalanced.errors, hlocked]

end Tenancy.Cluster
