/-
**Which node made which call.**

Every step comes down to calls of nodes: one for a request, one or two for a cache, any number for a
queue.  What a step does besides is of no account to the ledger and to what the nodes count of their
calls: locks are taken and dropped, switches are set, leaks are counted.  In a queue the calls that
do not wait are served before the others, so the order of service is not that of the answers; but
the calls are the same.

Main definitions:

* `Tenancy.Cluster.Step.nodes`, `Tenancy.Cluster.made` — **the calls that a step makes, each with
  its node**, and `Tenancy.Cluster.madeLog` — those of a run;
* `Tenancy.Cluster.Quiet` — a change that is of no account;
* `Tenancy.Cluster.Makes` — **one cluster becomes another by calls**, in the order of service.

Main results:

* `Tenancy.Cluster.map_snd_made` — but for the nodes, these are the calls of the log;
* `Tenancy.Cluster.makes_perform`, `Tenancy.Cluster.makes_run` — **steps come down to calls**.
-/

import Mathlib.Data.List.Perm.Basic
import Tenancy.Proofs.Cluster.Restarts

set_option relaxedAutoImplicit false
set_option autoImplicit false

namespace Tenancy.Cluster

open Ledger (Invariant)

variable {n : Nat}

/-! ### Calls and their nodes -/

/-- The nodes at which the calls of a step are made. -/
def Step.nodes : Step n → List (Fin n)
  | .request i _ | .stopCache i _ _ | .muxId i _ _ => [i]
  | .queue _ calls => calls.map Call.node
  -- a reference may have to be given back
  | .startCache i _ _ => [i, i]
  | _ => []

/-- **The calls that a step makes, each with its node.** -/
def made (c : Cluster n) (step : Step n) : List (Fin n × Served) := step.nodes.zip (c.calls step)

/-- The calls that the steps of a run make, each with its node. -/
def madeLog (c : Cluster n) : List (Step n) → List (Fin n × Served)
  | [] => []
  | step :: steps => c.made step ++ (c.perform step).2.madeLog steps

theorem length_serveUnlessWaiting (key : String) (c : Cluster n) (calls : List (Call n)) :
    (serveUnlessWaiting key c calls).1.length = calls.length := by
  induction calls generalizing c with
  | nil => rfl
  | cons call calls ih =>
      simp only [serveUnlessWaiting]
      split <;> exact congrArg (· + 1) (ih _)

/-- There are no more calls than nodes for them. -/
theorem length_calls_le (c : Cluster n) (step : Step n) :
    (c.calls step).length ≤ step.nodes.length := by
  cases step with
  | request i r => exact Nat.le_refl _
  | queue i calls =>
      simp only [Cluster.calls, queue, Step.nodes, List.length_map]
      cases c.backend.locks.acquire (c.node i).settings.key queueTimeout with
      | error failure => exact Nat.zero_le _
      | ok locks =>
          dsimp only
          rw [length_serveWaiting, length_serveUnlessWaiting]
  | startCache i tenant kind =>
      simp only [Cluster.calls]
      split
      · simp only [Node.startCacheCalls]
        split
        · exact Nat.le_succ 1
        · split
          · exact Nat.le_succ 1
          · exact Nat.le_refl 2
      · exact Nat.zero_le _
  | stopCache i tenant kind =>
      simp only [Cluster.calls]
      split
      · exact Nat.le_refl 1
      · exact Nat.zero_le _
  | muxId i tenant kind =>
      simp only [Cluster.calls]
      split
      · exact Nat.le_refl 1
      · exact Nat.zero_le _
  | _ => exact Nat.le_refl 0

/-- But for the nodes, the calls are those of the log. -/
theorem map_snd_made (c : Cluster n) (step : Step n) : (c.made step).map Prod.snd = c.calls step :=
  List.map_snd_zip (c.length_calls_le step)

theorem map_snd_madeLog (c : Cluster n) (steps : List (Step n)) :
    (c.madeLog steps).map Prod.snd = c.log steps := by
  induction steps generalizing c with
  | nil => rfl
  | cons step steps ih => rw [madeLog, List.map_append, map_snd_made, ih, log]

/-! ### Changes that are of no account -/

/-- **A change of a cluster that is of no account to the ledger, nor to what the nodes and the store
count of calls.** -/
structure Quiet (c c' : Cluster n) : Prop where
  settings : ∀ i, (c'.node i).settings = (c.node i).settings
  inner : c'.backend.store.inner = c.backend.store.inner
  saves : c'.backend.store.counts.saves = c.backend.store.counts.saves
  failedSaves : c'.backend.store.counts.failedSaves = c.backend.store.counts.failedSaves
  /-- Only leaks are counted. -/
  counters : ∀ i, ∃ leaked,
    (c'.node i).counters = { (c.node i).counters with leakedReferences := leaked }

namespace Quiet

variable {c c' : Cluster n}

theorem refl (c : Cluster n) : Quiet c c := ⟨fun _ => rfl, rfl, rfl, rfl, fun _ => ⟨_, rfl⟩⟩

/-- Locks, guards and switches are of no account. -/
theorem of_nodes (hnodes : c'.nodes = c.nodes)
    (hinner : c'.backend.store.inner = c.backend.store.inner)
    (hsaves : c'.backend.store.counts.saves = c.backend.store.counts.saves)
    (hfailed : c'.backend.store.counts.failedSaves = c.backend.store.counts.failedSaves) :
    Quiet c c' := by
  have hnode : ∀ i, c'.node i = c.node i := fun i => by rw [node, hnodes, node]
  exact ⟨fun i => by rw [hnode], hinner, hsaves, hfailed, fun i => ⟨_, by rw [hnode]⟩⟩

/-- Nor is a resolver or a leak. -/
theorem update (c : Cluster n) (i : Fin n) {m : Node} {leaked : Nat}
    (hsettings : m.settings = (c.node i).settings)
    (hcounters : m.counters = { (c.node i).counters with leakedReferences := leaked }) :
    Quiet c (c.update i m c.backend) := by
  refine ⟨fun j => ?_, rfl, rfl, rfl, fun j => ?_⟩ <;> by_cases hij : i = j
  · subst hij
    rw [node_update_self, hsettings]
  · rw [node_update_of_ne c m _ hij]
  · subst hij
    exact ⟨leaked, by rw [node_update_self, hcounters]⟩
  · exact ⟨_, by rw [node_update_of_ne c m _ hij]⟩

theorem unlock (c : Cluster n) (name : String) : Quiet c (c.unlock name).2 := by
  simp only [Cluster.unlock]
  split
  · exact .refl c
  · exact .of_nodes rfl rfl rfl rfl

theorem lock (c : Cluster n) (resource : String) (timeout : Duration) (name : String) :
    Quiet c (c.lock resource timeout name).2 := by
  simp only [Cluster.lock]
  split
  · exact .refl c
  · rename_i locks _
    obtain ⟨hsettings, hinner, hsaves, hfailed, hcounters⟩ := unlock (c.withLocks locks) name
    exact ⟨hsettings, hinner, hsaves, hfailed, hcounters⟩

theorem load (c : Cluster n) (key : String) :
    Quiet c (c.withStore (c.backend.store.load key).2) := by
  refine .of_nodes rfl (FaultyStore.inner_load c.backend.store key) ?_ ?_ <;>
  · simp only [withStore, FaultyStore.load]
    split <;> rfl

end Quiet

/-! ### Clusters that become others by calls -/

/-- **One cluster becomes another by calls**, in the order in which they are served. -/
inductive Makes : Cluster n → List (Fin n × Served) → Cluster n → Prop where
  /-- A node serves a call. -/
  | call (c : Cluster n) (i : Fin n) {r : Request} (names : r.NamesFit) :
      Makes c [(i, ⟨r, (c.call i r).1⟩)] (c.call i r).2
  /-- Nothing happens that is of account. -/
  | quiet {c c' : Cluster n} (h : Quiet c c') : Makes c [] c'
  /-- One thing happens after the other. -/
  | append {c c' c'' : Cluster n} {log log' : List (Fin n × Served)} (first : Makes c log c')
      (rest : Makes c' log' c'') : Makes c (log ++ log') c''

/-- Calls go on upholding what the cluster upholds. -/
theorem Upholds.makes {S : Settings → Prop} {I : Ledger → Prop} (hI : Invariant S I)
    {c c' : Cluster n} {log : List (Fin n × Served)} (h : c.Upholds S I) (hm : Makes c log c') :
    c'.Upholds S I := by
  induction hm with
  | call c i names => exact h.call hI i names
  | quiet hq => exact ⟨fun i => hq.settings i ▸ h.settings i, hq.inner ▸ h.ledgers⟩
  | append first rest ih ih' => exact ih' (ih h)

/-- Calls leave the settings of the nodes alone. -/
theorem Makes.settings {c c' : Cluster n} {log : List (Fin n × Served)} (hm : Makes c log c')
    (i : Fin n) : (c'.node i).settings = (c.node i).settings := by
  induction hm with
  | call c j names => exact settings_call c j i _
  | quiet hq => exact hq.settings i
  | append first rest ih ih' => exact ih'.trans ih

/-! ### Caches -/

theorem update_update (c : Cluster n) (i : Fin n) (m m' : Node) (b b' : Backend) :
    (c.update i m b).update i m' b' = c.update i m' b' := by
  simp only [update, Vector.set_set]

/-- To give a reference back is a stop, and perhaps a leak. -/
theorem makes_giveBack (c : Cluster n) (i : Fin n) {tenant : String}
    (ht : Octets.TextFits tenant) :
    Makes c [(i, ⟨.stop tenant, (c.call i (.stop tenant)).1⟩)]
      (c.update i ((c.node i).giveBack tenant c.backend).1
        ((c.node i).giveBack tenant c.backend).2) := by
  have hstop := Makes.call c i (Request.namesFit_of_tenant (r := .stop tenant) rfl ht)
  simp only [Node.giveBack, Cluster.call] at hstop ⊢
  generalize (c.node i).call (.stop tenant) c.backend = called at hstop ⊢
  obtain ⟨answer, m, b⟩ := called
  cases answer with
  | ok release => exact hstop
  | error failure =>
      -- the leak is counted after the call
      have hleak : Quiet (c.update i m b)
          ((c.update i m b).update i { m with counters := m.counters.noteLeak } b) :=
        .update (c.update i m b) i (by rw [node_update_self]) (by rw [node_update_self]; rfl)
      rw [update_update] at hleak
      exact hstop.append (.quiet hleak)

theorem makes_startCache (c : Cluster n) (i : Fin n) (resolver : Resolver) {tenant : String}
    (kind : Cache.Kind) (ht : Octets.TextFits tenant) :
    Makes c ([i, i].zip ((c.node i).startCacheCalls resolver tenant kind c.backend))
      (c.update i ((c.node i).startCache resolver tenant kind c.backend).2.1
        ((c.node i).startCache resolver tenant kind c.backend).2.2) := by
  have hstart := Makes.call c i (Request.namesFit_of_tenant (r := .start tenant) rfl ht)
  simp only [Node.startCache, Node.startCacheCalls, Cluster.call] at hstart ⊢
  generalize (c.node i).call (.start tenant) c.backend = called at hstart ⊢
  obtain ⟨answer, m, b⟩ := called
  cases answer with
  | error failure => exact hstart
  | ok lease =>
      dsimp only at hstart ⊢
      cases Cache.describe resolver.table resolver.source m.settings.indexedCaches tenant kind
        lease.slot with
      | ok description => exact hstart
      | error failure =>
          have hback := makes_giveBack (c.update i m b) i ht
          simp only [Cluster.call, node_update_self, update_update] at hback
          exact hstart.append hback

/-- To find a mux id is a look-up. -/
theorem makes_muxId (c : Cluster n) (i : Fin n) (resolver : Resolver) {tenant : String}
    (kind : Cache.Kind) (ht : Octets.TextFits tenant) :
    Makes c [(i, ⟨.get tenant, (c.call i (.get tenant)).1⟩)]
      (c.update i ((c.node i).muxId resolver tenant kind c.backend).2.1
        ((c.node i).muxId resolver tenant kind c.backend).2.2) := by
  have hget := Makes.call c i (Request.namesFit_of_tenant (r := .get tenant) rfl ht)
  simp only [Node.muxId, Cluster.call] at hget ⊢
  generalize (c.node i).call (.get tenant) c.backend = called at hget ⊢
  obtain ⟨answer, m, b⟩ := called
  cases answer with
  | error failure => exact hget
  | ok slot => exact hget

/-! ### Queues -/

/-- The calls of a queue that are not left waiting, each with its node. -/
def earlyOf : List (Call n) → List (Served ⊕ Call n) → List (Fin n × Served)
  | call :: calls, .inl served :: pending => (call.node, served) :: earlyOf calls pending
  | _ :: calls, .inr _ :: pending => earlyOf calls pending
  | _, _ => []

/-- Those that are left waiting are where they were. -/
theorem waiting_serveUnlessWaiting (key : String) (c : Cluster n) (calls : List (Call n)) :
    List.Forall₂ (fun call pending => ∀ waiting, pending = .inr waiting → waiting = call) calls
      (serveUnlessWaiting key c calls).1 := by
  induction calls generalizing c with
  | nil => exact .nil
  | cons call calls ih =>
      simp only [serveUnlessWaiting]
      split
      · exact .cons (fun waiting h => (Sum.inr.inj h).symm) (ih c)
      · refine .cons ?_ (ih _)
        intro waiting h
        cases h

theorem makes_serveUnlessWaiting (key : String) (c : Cluster n) {calls : List (Call n)}
    (hcalls : ∀ call ∈ calls, call.request.NamesFit) :
    Makes c (earlyOf calls (serveUnlessWaiting key c calls).1)
      (serveUnlessWaiting key c calls).2 := by
  -- induction on the calls, over the cluster that those before have left
  induction calls generalizing c with
  | nil => exact .quiet (.refl c)
  | cons call calls ih =>
      have hrest := fun other ho => hcalls other (List.mem_cons_of_mem _ ho)
      simp only [serveUnlessWaiting]
      split
      · exact ih c hrest
      · exact (Makes.call c call.node (hcalls call List.mem_cons_self)).append (ih _ hrest)

/-- Together with those that did not wait, the calls that are served now are all calls. -/
theorem makes_serveWaiting (c : Cluster n) {calls : List (Call n)}
    (hcalls : ∀ call ∈ calls, call.request.NamesFit) {pending : List (Served ⊕ Call n)}
    (hpending : List.Forall₂ (fun call pending => ∀ waiting, pending = .inr waiting →
      waiting = call) calls pending) :
    ∃ late, Makes c late (c.serveWaiting pending).2 ∧
      ((calls.map Call.node).zip (c.serveWaiting pending).1).Perm
        (earlyOf calls pending ++ late) := by
  induction hpending generalizing c with
  | nil => exact ⟨[], .quiet (.refl c), .refl _⟩
  | @cons call entry calls pending hentry hrest ih =>
      have hcalls' := fun other ho => hcalls other (List.mem_cons_of_mem _ ho)
      cases entry with
      | inl served =>
          obtain ⟨late, hmakes, hperm⟩ := ih c hcalls'
          exact ⟨late, hmakes, hperm.cons _⟩
      | inr waiting =>
          obtain rfl := hentry waiting rfl
          obtain ⟨late, hmakes, hperm⟩ := ih (c.serve waiting).2 hcalls'
          have hcall := Makes.call c waiting.node (hcalls waiting List.mem_cons_self)
          -- in the list of answers the call stands where it was made
          exact ⟨_, hcall.append hmakes, (hperm.cons _).trans List.perm_middle.symm⟩

theorem makes_queue (c : Cluster n) (i : Fin n) {calls : List (Call n)}
    (hcalls : ∀ call ∈ calls, call.request.NamesFit) :
    ∃ log, Makes c log (c.queue i calls).2 ∧ (c.made (.queue i calls)).Perm log := by
  simp only [made, Cluster.calls, queue, Step.nodes]
  cases c.backend.locks.acquire (c.node i).settings.key queueTimeout with
  | error failure =>
      refine ⟨[], .quiet (.refl c), ?_⟩
      simp
  | ok locks =>
      have hheld : Quiet c (c.withLocks locks) := .of_nodes rfl rfl rfl rfl
      have hearly := makes_serveUnlessWaiting (c.node i).settings.key (c.withLocks locks) hcalls
      have hwaiting :=
        waiting_serveUnlessWaiting (c.node i).settings.key (c.withLocks locks) calls
      dsimp only
      generalize serveUnlessWaiting (c.node i).settings.key (c.withLocks locks) calls = served
        at hearly hwaiting ⊢
      obtain ⟨pending, c'⟩ := served
      have hfree : Quiet c'
          (c'.withLocks (c'.backend.locks.release (c.node i).settings.key)) :=
        .of_nodes rfl rfl rfl rfl
      obtain ⟨late, hlate, hperm⟩ := makes_serveWaiting
        (c'.withLocks (c'.backend.locks.release (c.node i).settings.key)) hcalls hwaiting
      have hlast := (Makes.quiet hfree).append hlate
      exact ⟨_, (Makes.quiet hheld).append (hearly.append hlast), hperm⟩

/-! ### Steps -/

/-- **A step that leaves the ledgers to the nodes, and the counts as they are.** -/
def Step.ThroughCalls (step : Step n) : Prop := step.ThroughNodes ∧ step.isRestart = false

instance (step : Step n) : Decidable step.ThroughCalls :=
  inferInstanceAs (Decidable (step.ThroughNodes ∧ step.isRestart = false))

/-- **A step comes down to its calls.** -/
theorem makes_perform (c : Cluster n) {step : Step n} (hstep : step.ThroughCalls) :
    ∃ log, Makes c log (c.perform step).2 ∧ (c.made step).Perm log := by
  obtain ⟨hnodes, hstays⟩ := hstep
  cases step with
  | request i r => exact ⟨_, .call c i hnodes, .refl _⟩
  | queue i calls => exact makes_queue c i hnodes
  | startCache i tenant kind =>
      simp only [made, Cluster.calls, perform, throughResolver, Step.nodes]
      cases (c.node i).resolver with
      | none => exact ⟨[], .quiet (.refl c), .refl _⟩
      | some resolver => exact ⟨_, makes_startCache c i resolver kind hnodes, .refl _⟩
  | stopCache i tenant kind =>
      simp only [made, Cluster.calls, perform, throughResolver, Step.nodes]
      cases (c.node i).resolver with
      | none => exact ⟨[], .quiet (.refl c), .refl _⟩
      | some resolver =>
          exact ⟨_, .call c i (Request.namesFit_of_tenant (r := .stop tenant) rfl hnodes), .refl _⟩
  | muxId i tenant kind =>
      simp only [made, Cluster.calls, perform, throughResolver, Step.nodes]
      cases (c.node i).resolver with
      | none => exact ⟨[], .quiet (.refl c), .refl _⟩
      | some resolver => exact ⟨_, makes_muxId c i resolver kind hnodes, .refl _⟩
  | resolve i table source =>
      refine ⟨[], .quiet ?_, .refl _⟩
      simp only [perform]
      split
      · exact .refl c
      · exact .update c i rfl rfl
  | lock resource timeout name => exact ⟨[], .quiet (.lock c resource timeout name), .refl _⟩
  | unlock name => exact ⟨[], .quiet (.unlock c name), .refl _⟩
  | load key => exact ⟨[], .quiet (.load c key), .refl _⟩
  | failLoad | failSave => exact ⟨[], .quiet (.of_nodes rfl rfl rfl rfl), .refl _⟩
  | counters | errors | faults | status | files => exact ⟨[], .quiet (.refl c), .refl _⟩
  | put | writeFile => exact hnodes.elim
  | restart => cases hstays

/-- **So does a run.** -/
theorem makes_run (c : Cluster n) {steps : List (Step n)}
    (hsteps : ∀ step ∈ steps, step.ThroughCalls) :
    ∃ log, Makes c log (c.run steps).2 ∧ (c.madeLog steps).Perm log := by
  -- induction on the steps, over the cluster from which they begin
  induction steps generalizing c with
  | nil => exact ⟨[], .quiet (.refl c), .refl _⟩
  | cons step steps ih =>
      obtain ⟨log, hfirst, hperm⟩ := makes_perform c (hsteps step List.mem_cons_self)
      obtain ⟨log', hrest, hperm'⟩ :=
        ih (c.perform step).2 fun other ho => hsteps other (List.mem_cons_of_mem _ ho)
      exact ⟨log ++ log', hfirst.append hrest, hperm.append hperm'⟩

end Tenancy.Cluster
