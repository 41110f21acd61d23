/-
**Files instead of memory, and restarts.**

The nodes of a cluster keep nothing between two requests that is not in the store, and what a store
answers does not depend on where it keeps the ledgers.  So a cluster over files may be started anew
at any time: it answers as one over memory that was never started anew, and at any time its
directory has a file for each key that was saved, with the ledger saved last, and nothing else.

Main definitions:

* `Tenancy.Settings.outcome` — how a transaction ends where nothing fails, by what was saved;
* `Tenancy.Cluster.saved` — **the saves that a run has made**;
* `Tenancy.Cluster.Follows` — **a cluster that goes by what was saved**;
* `Tenancy.Cluster.Step.Faultless` — a request, a save or a load past the nodes, or a new start;
* `Tenancy.Cluster.answers` — the replies of a run but for those to new starts.

Main results:

* `Tenancy.Settings.transact_of_holds` — a transaction goes by what was saved, and adds to it;
* `Tenancy.Cluster.Follows.perform` — **so does every step**;
* `Tenancy.Cluster.files_follow_memory` — **files with restarts answer as memory without, and the
  directory holds what was saved last**.
-/

import Tenancy.Proofs.Cluster.History
import Tenancy.Proofs.Store.Medium

set_option relaxedAutoImplicit false
set_option autoImplicit false

namespace Tenancy

/-! ### Transactions -/

/-- The ledger that was saved. -/
def Outcome.saved? {α : Type} : Outcome α → Option Ledger
  | .committed _ ledger => some ledger
  | .answered _ | .refused _ | .rolledBack _ => none

namespace Settings

/-- The save of a transaction that ended so. -/
def savesOf {α : Type} (s : Settings) (outcome : Outcome α) : Saves :=
  (outcome.saved?.map fun ledger => (s.key, ledger)).toList

/-- The ledger with which a transaction begins: the one saved last, or an empty one. -/
def ledgerOf (s : Settings) (saves : Saves) : Ledger :=
  (saves.last? s.key).getD (.empty s.slots.first)

/-- **How a transaction ends where nothing fails**, by what was saved before. -/
def outcome (s : Settings) (saves : Saves) (r : Request) : Outcome r.Answer :=
  match (s.ledgerOf saves).serve s.slots r with
  | .error failure => .refused failure
  | .ok (answer, none) => .answered answer
  | .ok (answer, some changed) => .committed answer (changed.advance (s.ledgerOf saves))

variable {s : Settings} {r : Request} {b : Backend} {store : FaultyStore} {medium : Medium}
  {saves : Saves}

theorem load_of_holds (h : store.Holds medium saves) (hroomy : saves.Roomy)
    (hfile : Store.HasFile s.key) : s.load store = (.ok (s.ledgerOf saves), store) := by
  simp only [load, h.load hroomy hfile, ledgerOf]
  cases saves.last? s.key <;> rfl

theorem settle_of_holds (h : store.Holds medium saves) (hfile : Store.HasFile s.key)
    (r : Request) : (s.settle (s.ledgerOf saves) r store).1 = s.outcome saves r ∧
      (s.settle (s.ledgerOf saves) r store).2.Holds medium
        (saves ++ s.savesOf (s.outcome saves r)) := by
  simp only [settle, outcome]
  rcases (s.ledgerOf saves).serve s.slots r with failure | ⟨answer, _ | changed⟩
  · exact ⟨rfl, (List.append_nil saves).symm ▸ h⟩
  · exact ⟨rfl, (List.append_nil saves).symm ▸ h⟩
  · obtain ⟨hsaved, hafter⟩ := h.save hfile (changed.advance (s.ledgerOf saves))
    dsimp only
    generalize store.save s.key (changed.advance (s.ledgerOf saves)) = done at hsaved hafter ⊢
    obtain ⟨_, after⟩ := done
    cases hsaved
    exact ⟨rfl, hafter⟩

/-- **A transaction goes by what was saved, and adds to it.** -/
theorem transact_of_holds (hfree : s.key ∉ b.locks.held) (h : b.store.Holds medium saves)
    (hroomy : saves.Roomy) (hfile : Store.HasFile s.key) (r : Request) :
    (s.transact r b).1 = s.outcome saves r ∧
      (s.transact r b).2.store.Holds medium (saves ++ s.savesOf (s.outcome saves r)) := by
  simp only [transact_of_free hfree, loadAndSettle, load_of_holds h hroomy hfile]
  exact settle_of_holds h hfile r

/-- The ledger with which a transaction begins has room. -/
theorem roomy_ledgerOf (hroomy : saves.Roomy) : (s.ledgerOf saves).Roomy := by
  rw [ledgerOf]
  cases hlast : saves.last? s.key with
  | none => exact Ledger.roomy_empty s.slots.first
  | some ledger => exact hroomy _ (Saves.mem_of_last? hlast)

/-- What a transaction saves has room. -/
theorem roomy_savesOf (hroomy : saves.Roomy) (hr : r.NamesFit) :
    (s.savesOf (s.outcome saves r)).Roomy := by
  simp only [outcome]
  rcases hserve : (s.ledgerOf saves).serve s.slots r with failure | ⟨answer, _ | changed⟩
  · nofun
  · nofun
  · obtain ⟨tenant, ht, hchange⟩ := Ledger.change_of_serve hserve
    intro entry he
    obtain rfl := List.mem_singleton.1 he
    exact (Ledger.roomy_invariant fun _ => True).change trivial (hr tenant ht)
      (roomy_ledgerOf hroomy) hchange

end Settings

theorem Saves.Roomy.append {saves saves' : Saves} (h : saves.Roomy) (h' : saves'.Roomy) :
    (saves ++ saves').Roomy := by
  intro entry he
  rcases List.mem_append.1 he with he | he
  · exact h entry he
  · exact h' entry he

namespace Cluster

variable {n : Nat}

/-! ### Steps at which nothing fails -/

namespace Step

/-- **A step at which nothing fails**: a request, a save or a load past the nodes, or a new start of
all nodes.  Keys have a file, and the names in the ledgers and their leases can be counted. -/
def Faultless : Step n → Prop
  | .request _ r => r.NamesFit
  | .put key ledger => Store.HasFile key ∧ ledger.Roomy
  | .load key => Store.HasFile key
  | .restart => True
  | _ => False

/-- Whether it is a new start of all nodes. -/
def isRestart : Step n → Bool
  | .restart => true
  | _ => false

theorem eq_restart {step : Step n} (h : step.isRestart = true) : step = .restart := by
  cases step with
  | restart => rfl
  | _ => cases h

end Step

/-- The saves that a request, or a save past the nodes, has made. -/
def saves (c : Cluster n) : Step n → Saves
  | .request i r =>
      (c.node i).settings.savesOf ((c.node i).settings.transact r c.backend).1
  | .put key ledger =>
      match (c.backend.store.save key ledger).1 with
      | .ok _ => [(key, ledger)]
      | .error _ => []
  | _ => []

/-- **The saves that a run has made**, in their order. -/
def saved (c : Cluster n) : List (Step n) → Saves
  | [] => []
  | step :: steps => c.saves step ++ (c.perform step).2.saved steps

/-- The replies of a run, but for those to new starts. -/
def answers (c : Cluster n) (steps : List (Step n)) : List (Except Failure Reply) :=
  ((steps.zip (c.run steps).1).filter fun done => !done.1.isRestart).map Prod.snd

theorem answers_cons (c : Cluster n) (step : Step n) (steps : List (Step n)) :
    c.answers (step :: steps) =
      if step.isRestart then (c.perform step).2.answers steps
      else (c.perform step).1 :: (c.perform step).2.answers steps := by
  simp only [answers, run, List.zip_cons_cons, List.filter_cons]
  cases step.isRestart <;> rfl

/-! ### Clusters that go by what was saved -/

/-- **A cluster that goes by what was saved**, with free locks and nodes of the given settings. -/
structure Follows (c : Cluster n) (settings : Vector Settings n) (medium : Medium) (saves : Saves) :
    Prop where
  store : c.backend.store.Holds medium saves
  free : c.backend.locks = .empty
  settings : ∀ i : Fin n, (c.node i).settings = settings.get i

/-- What such a cluster saves in a step. -/
def Step.savesAfter (settings : Vector Settings n) (saves : Saves) : Step n → Saves
  | .request i r => (settings.get i).savesOf ((settings.get i).outcome saves r)
  | .put key ledger => [(key, ledger)]
  | _ => []

/-- What it replies. -/
def Step.replyAfter (settings : Vector Settings n) (saves : Saves) :
    Step n → Except Failure Reply
  | .request i r => ((settings.get i).outcome saves r).result.map (.answer r)
  | .load key => .ok (.stored (saves.last? key))
  | _ => .ok .done

/-- It has room. -/
theorem Step.roomy_savesAfter {settings : Vector Settings n} {saves : Saves} {step : Step n}
    (hroomy : saves.Roomy) (hstep : step.Faultless) : (step.savesAfter settings saves).Roomy := by
  cases step with
  | request i r => exact Settings.roomy_savesOf hroomy hstep
  | put key ledger =>
      intro entry he
      obtain rfl := List.mem_singleton.1 he
      exact hstep.2
  | load | restart => nofun
  | _ => exact hstep.elim

namespace Follows

variable {c : Cluster n} {settings : Vector Settings n} {medium : Medium} {saves : Saves}

theorem new {store : Store} (h : store.Holds medium []) (settings : Vector Settings n) :
    (Cluster.new store settings).Follows settings medium [] :=
  ⟨FaultyStore.holds_new h, rfl, settings_new store settings⟩

theorem restart (h : c.Follows settings medium saves) :
    c.restart.Follows settings medium saves := by
  refine ⟨FaultyStore.holds_new h.store.inner, h.free, fun i => ?_⟩
  rw [← h.settings i]
  simp [Cluster.restart, Cluster.node, withStore, Node.new]

theorem withStore (h : c.Follows settings medium saves) {store : FaultyStore} {saves' : Saves}
    (hstore : store.Holds medium saves') : (c.withStore store).Follows settings medium saves' :=
  ⟨hstore, h.free, h.settings⟩

/-- **A step goes by what was saved, and adds to it**: its reply and its saves are told by what was
saved before, in either medium. -/
theorem perform (h : c.Follows settings medium saves) (hroomy : saves.Roomy)
    (hkeys : ∀ i : Fin n, Store.HasFile (settings.get i).key) {step : Step n}
    (hstep : step.Faultless) :
    (c.perform step).1 = step.replyAfter settings saves ∧
      c.saves step = step.savesAfter settings saves ∧
      (c.perform step).2.Follows settings medium (saves ++ step.savesAfter settings saves) := by
  cases step with
  | request i r =>
      have hi := h.settings i
      have hfree : (c.node i).settings.key ∉ c.backend.locks.held := by
        rw [h.free]
        exact LockTable.not_mem_empty _
      obtain ⟨houtcome, hafter⟩ := Settings.transact_of_holds hfree h.store hroomy
        (hi ▸ hkeys i) r
      have hsaves : Step.savesAfter settings saves (.request i r) =
          (c.node i).settings.savesOf ((c.node i).settings.outcome saves r) := by
        rw [hi]
        rfl
      have hreply : Step.replyAfter settings saves (.request i r) =
          ((c.node i).settings.outcome saves r).result.map (.answer r) := by
        rw [hi]
        rfl
      rw [hsaves, hreply, ← houtcome]
      rw [← houtcome] at hafter
      refine ⟨rfl, rfl, hafter, ?_, fun j => ?_⟩
      · exact ((c.node i).locks_call r c.backend).trans h.free
      · exact (settings_call c i j r).trans (h.settings j)
  | put key ledger =>
      obtain ⟨hsaved, hafter⟩ := h.store.save hstep.1 ledger
      simp only [Cluster.perform, Cluster.saves, hsaved]
      exact ⟨rfl, rfl, h.withStore hafter⟩
  | load key =>
      simp only [Cluster.perform, Cluster.saves, h.store.load hroomy hstep]
      exact ⟨rfl, rfl, (List.append_nil saves).symm ▸ h.withStore h.store⟩
  | restart => exact ⟨rfl, rfl, (List.append_nil saves).symm ▸ h.restart⟩
  | _ => exact hstep.elim

/-- **So does a run.** -/
theorem run (h : c.Follows settings medium saves) (hroomy : saves.Roomy)
    (hkeys : ∀ i : Fin n, Store.HasFile (settings.get i).key) {steps : List (Step n)}
    (hsteps : ∀ step ∈ steps, step.Faultless) :
    (c.run steps).2.Follows settings medium (saves ++ c.saved steps) ∧
      (saves ++ c.saved steps).Roomy := by
  -- induction on the steps, over the cluster from which they begin
  induction steps generalizing c saves with
  | nil =>
      rw [saved, List.append_nil]
      exact ⟨h, hroomy⟩
  | cons step steps ih =>
      have hstep := hsteps step List.mem_cons_self
      obtain ⟨-, hsaves, hafter⟩ := h.perform hroomy hkeys hstep
      rw [saved, hsaves, ← List.append_assoc]
      exact ih hafter (hroomy.append (Step.roomy_savesAfter hroomy hstep))
        fun other ho => hsteps other (List.mem_cons_of_mem _ ho)

/-- **Two clusters that go by the same saves answer alike**, though the one is started anew now and
then. -/
theorem answers_eq {c' : Cluster n} {medium' : Medium} (h : c.Follows settings medium saves)
    (h' : c'.Follows settings medium' saves) (hroomy : saves.Roomy)
    (hkeys : ∀ i : Fin n, Store.HasFile (settings.get i).key) {steps : List (Step n)}
    (hsteps : ∀ step ∈ steps, step.Faultless) :
    c.answers steps = (c'.run (steps.filter fun step => !step.isRestart)).1 := by
  -- induction on the steps, over the two clusters from which they begin
  induction steps generalizing c c' saves with
  | nil => rfl
  | cons step steps ih =>
      have hstep := hsteps step List.mem_cons_self
      have hrest := fun other ho => hsteps other (List.mem_cons_of_mem step ho)
      have hroomy' : (saves ++ step.savesAfter settings saves).Roomy :=
        hroomy.append (Step.roomy_savesAfter hroomy hstep)
      rw [answers_cons]
      by_cases hrestart : step.isRestart
      · -- the other cluster goes on as it is
        obtain rfl := Step.eq_restart hrestart
        rw [if_pos hrestart, List.filter_cons_of_neg (by simp [Step.isRestart])]
        exact ih h.restart h' hroomy hrest
      · obtain ⟨hreply, -, hafter⟩ := h.perform hroomy hkeys hstep
        obtain ⟨hreply', -, hafter'⟩ := h'.perform hroomy hkeys hstep
        rw [if_neg hrestart, List.filter_cons_of_pos (by simpa using hrestart)]
        simp only [Cluster.run]
        rw [hreply, hreply', ih hafter hafter' hroomy' hrest]

end Follows

/-- **Files with restarts answer as memory without.**  Every key has a file, and nothing fails.
Then a cluster over a directory that is started anew now and then gives the answers of one over
memory that never is; and after each of its steps the directory has just one file for each key that
was saved so far, which decodes to the ledger saved last, and no draft. -/
theorem files_follow_memory {settings : Vector Settings n} (path : String)
    (hkeys : ∀ i : Fin n, Store.HasFile (settings.get i).key) {steps : List (Step n)}
    (hsteps : ∀ step ∈ steps, step.Faultless) :
    (new (.inDirectory path) settings).answers steps =
        ((new .inMemory settings).run (steps.filter fun step => !step.isRestart)).1 ∧
      ∀ earlier, earlier <+: steps →
        ∃ dir, ((new (.inDirectory path) settings).run earlier).2.backend.store.inner =
            .directory dir ∧
          dir.Records ((new (.inDirectory path) settings).saved earlier) := by
  have hfiles := Follows.new (Store.holds_inDirectory path) settings
  have hmemory := Follows.new Store.holds_inMemory settings
  have hroomy : Saves.Roomy [] := nofun
  refine ⟨hfiles.answers_eq hmemory hroomy hkeys hsteps, fun earlier hearlier => ?_⟩
  obtain ⟨hrun, hsaved⟩ := hfiles.run hroomy hkeys fun step hs => hsteps step (hearlier.subset hs)
  have hholds := hrun.store.inner
  generalize ((new (.inDirectory path) settings).run earlier).2.backend.store.inner = inner
    at hholds ⊢
  cases hholds with
  | directory h => exact ⟨_, rfl, h.records hsaved⟩

/-- The settings of two nodes whose ranges overlap. -/
def twoSettings : Vector Settings 2 :=
  #v[.standard, { Settings.standard with slots := ⟨5, 9, .lowestReleased⟩ }]

/-- Starts of a tenant at two nodes and a save past them, with new starts in between. -/
def restartSteps (i j : Fin 2) : List (Step 2) :=
  [.request i (.start "a"), .restart, .put "other" (.empty 7), .request j (.start "a"), .restart,
    .load "other", .request i (.get "a")]

theorem faultless_restartSteps (i j : Fin 2) : ∀ step ∈ restartSteps i j, step.Faultless := by
  have hname : Octets.TextFits "a" := by decide
  have hfile : Store.HasFile "other" := by decide
  have hrequest {r : Request} (hr : r.tenant? = some "a") : r.NamesFit :=
    Request.namesFit_of_tenant hr hname
  simp only [restartSteps, List.forall_mem_cons]
  exact ⟨hrequest rfl, trivial, ⟨hfile, Ledger.roomy_empty 7⟩, hrequest rfl, trivial, hfile,
    hrequest rfl, nofun⟩

theorem twoSettings_follow_memory :
    (new (.inDirectory "ledgers") twoSettings).answers (restartSteps 0 1) =
        ((new .inMemory twoSettings).run [.request 0 (.start "a"), .put "other" (.empty 7),
          .request 1 (.start "a"), .load "other", .request 0 (.get "a")]).1 ∧
      ∃ dir, ((new (.inDirectory "ledgers") twoSettings).run
          [.request 0 (.start "a"), .restart, .put "other" (.empty 7)]).2.backend.store.inner =
            .directory dir ∧
        "other.bin" ∈ dir.files ∧ "other.tmp" ∉ dir.files := by
  have hkeys : ∀ i : Fin 2, Store.HasFile (twoSettings.get i).key := by decide
  obtain ⟨hanswers, hrecords⟩ :=
    files_follow_memory "ledgers" hkeys (faultless_restartSteps 0 1)
  have hsaved : ((new (.inDirectory "ledgers") twoSettings).saved
      [.request 0 (.start "a"), .restart, .put "other" (.empty 7)]).map Prod.fst =
        [Settings.standard.key, "other"] := by decide +kernel
  have hrecord : Store.recordFile "other" = "other.bin" := by decide
  have hdraft : Store.draftFile "other" = "other.tmp" := by decide
  obtain ⟨dir, hdir, hfiles⟩ := hrecords
    [.request 0 (.start "a"), .restart, .put "other" (.empty 7)] ⟨_, rfl⟩
  refine ⟨hanswers, dir, hdir, ?_, ?_⟩
  · rw [← hrecord, hfiles.files, hsaved]
    exact ⟨"other", ⟨by decide, rfl⟩, fun key hkey => Store.recordFile_inj.1 hkey.2⟩
  · rw [← hdraft]
    exact hfiles.no_draft "other"

end Cluster

end Tenancy
