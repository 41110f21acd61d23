/-
**Keys are isolated.**

Nodes of several keys share one lock table and one store.  To the nodes of one key it makes no
difference what is done under the other keys: they answer as in the run in which only their own
calls are made, and their resource is locked and unlocked as before, and the ledger under their key
comes out the same.

The two runs are compared step by step.  The clusters agree on the key: it is held in both or free
in both, the same guards hold it, and the stores hold the same under it.  A step that concerns the
key is made in both runs and answered alike; any other step is made in one of them and is not
noticed.

Main definitions:

* `Tenancy.Cluster.onKey`, `Tenancy.Cluster.stepsOn` — **what of a step, and of a run, concerns a
  key**;
* `Tenancy.Cluster.answersAt` — the replies to the requests at the nodes of a key;
* `Tenancy.Cluster.AgreeOn` — two clusters that agree on a key.

Main results:

* `Tenancy.Settings.transact_of_agreeOn`, `Tenancy.Settings.agreeOn_transact_of_ne` — transactions
  under the key are answered alike, and those under another key are not noticed;
* `Tenancy.Cluster.AgreeOn.step` — **so are steps**;
* `Tenancy.Cluster.answers_isolated` — **what is done under other keys makes no difference**.
-/

import Tenancy.Proofs.Cluster.Calls
import Tenancy.Proofs.Store.Agree

set_option relaxedAutoImplicit false
set_option autoImplicit false

namespace Tenancy

/-! ### Transactions -/

namespace Settings

variable {s : Settings} {r : Request} {b b' : Backend} {store store' : FaultyStore} {key : String}

theorem load_of_agreeOn (h : store.AgreeOn s.key store') :
    ∃ loaded, s.load store = (loaded, store) ∧ s.load store' = (loaded, store') := by
  simp only [load, h.left.load, h.right.load, h.inner.load]
  rcases store'.inner.load s.key with fault | (_ | ledger) <;> exact ⟨_, rfl, rfl⟩

theorem settle_of_agreeOn (h : store.AgreeOn s.key store') (loaded : Ledger) (r : Request) :
    (s.settle loaded r store).1 = (s.settle loaded r store').1 ∧
      (s.settle loaded r store).2.AgreeOn s.key (s.settle loaded r store').2 := by
  simp only [settle]
  rcases loaded.serve s.slots r with failure | ⟨answer, _ | changed⟩
  · exact ⟨rfl, h⟩
  · exact ⟨rfl, h⟩
  · obtain ⟨hsame, hafter⟩ := h.save (changed.advance loaded)
    dsimp only
    generalize store.save s.key (changed.advance loaded) = done at hsame hafter ⊢
    generalize store'.save s.key (changed.advance loaded) = done' at hsame hafter ⊢
    obtain ⟨saved, after⟩ := done
    obtain ⟨saved', after'⟩ := done'
    obtain rfl : saved = saved' := hsame
    cases saved <;> exact ⟨rfl, hafter⟩

/-- **Transactions under a key on which the backends agree are answered alike**, and the stores go
on agreeing. -/
theorem transact_of_agreeOn (hheld : s.key ∈ b.locks.held ↔ s.key ∈ b'.locks.held)
    (hstore : b.store.AgreeOn s.key b'.store) (r : Request) :
    (s.transact r b).1 = (s.transact r b').1 ∧
      (s.transact r b).2.store.AgreeOn s.key (s.transact r b').2.store := by
  by_cases hkey : s.key ∈ b.locks.held
  · rw [transact_of_held hkey, transact_of_held (hheld.1 hkey)]
    exact ⟨rfl, hstore⟩
  · rw [transact_of_free hkey, transact_of_free fun h => hkey (hheld.2 h)]
    obtain ⟨loaded, hload, hload'⟩ := load_of_agreeOn hstore
    simp only [loadAndSettle, hload, hload']
    cases loaded with
    | error failure => exact ⟨rfl, hstore⟩
    | ok ledger => exact settle_of_agreeOn hstore ledger r

/-- **A transaction under another key is not noticed.** -/
theorem agreeOn_transact_of_ne (hne : s.key ≠ key) (h : b.store.AgreeOn key store') (r : Request) :
    (s.transact r b).2.store.AgreeOn key store' := by
  by_cases hkey : s.key ∈ b.locks.held
  · rw [transact_of_held hkey]
    exact h
  · rw [transact_of_free hkey]
    obtain ⟨loaded, hload, -⟩ := load_of_agreeOn (s := s) (.refl h.left s.key)
    simp only [loadAndSettle, hload]
    cases loaded with
    | error failure => exact h
    | ok ledger =>
        simp only [settle]
        rcases ledger.serve s.slots r with failure | ⟨answer, _ | changed⟩
        · exact h
        · exact h
        · have hafter := h.save_of_ne hne (changed.advance ledger)
          dsimp only
          split <;> rename_i heq <;> rw [heq] at hafter <;> exact hafter

end Settings

namespace Cluster

variable {n : Nat}

/-! ### Locks and guards -/

section Guards

variable (c : Cluster n) (resource : String) (timeout : Duration) (name : String)

/-- What is held after a guard was dropped. -/
theorem mem_held_unlock (key : String) :
    key ∈ (c.unlock name).2.backend.locks.held ↔
      key ∈ c.backend.locks.held ∧ c.guards[name]? ≠ some key := by
  cases hguard : c.guards[name]? with
  | none => simp [unlock, hguard]
  | some other =>
      simp only [unlock, hguard, withLocks, LockTable.release, Std.ExtTreeSet.mem_erase, ne_eq,
        Std.LawfulEqCmp.compare_eq_iff_eq, Option.some.injEq]
      exact and_comm

theorem getElem?_guards_unlock (other : String) :
    (c.unlock name).2.guards[other]? = if name = other then none else c.guards[other]? := by
  cases hguard : c.guards[name]? with
  | none =>
      simp only [unlock, hguard]
      split
      · rename_i he
        rw [← he, hguard]
      · rfl
  | some held =>
      simp only [unlock, hguard, Std.ExtTreeMap.getElem?_erase, Std.LawfulEqCmp.compare_eq_iff_eq]

/-- A resource that is held is not granted. -/
theorem lock_of_mem {c : Cluster n} {resource : String} (h : resource ∈ c.backend.locks.held) :
    (c.lock resource timeout name).2 = c := by
  rw [lock, LockTable.acquire_of_mem h]

/-- What is held after a resource was granted: a guard held under the name before is dropped. -/
theorem mem_held_lock {c : Cluster n} {resource : String} (h : resource ∉ c.backend.locks.held)
    (key : String) :
    key ∈ (c.lock resource timeout name).2.backend.locks.held ↔
      (resource = key ∨ key ∈ c.backend.locks.held) ∧ c.guards[name]? ≠ some key := by
  rw [lock, LockTable.acquire_of_not_mem h]
  dsimp only
  rw [mem_held_unlock]
  simp only [withLocks, Std.ExtTreeSet.mem_insert, Std.LawfulEqCmp.compare_eq_iff_eq]

theorem getElem?_guards_lock {c : Cluster n} {resource : String}
    (h : resource ∉ c.backend.locks.held) (other : String) :
    (c.lock resource timeout name).2.guards[other]? =
      if name = other then some resource else c.guards[other]? := by
  rw [lock, LockTable.acquire_of_not_mem h]
  dsimp only
  rw [Std.ExtTreeMap.getElem?_insert, getElem?_guards_unlock]
  simp only [Std.LawfulEqCmp.compare_eq_iff_eq]
  split <;> rfl

end Guards

/-! ### What concerns a key -/

/-- A request to a node, or a lock that is taken or dropped. -/
def Step.CallsOrLocks : Step n → Prop
  | .request _ _ | .lock _ _ _ | .unlock _ => True
  | _ => False

instance : (step : Step n) → Decidable step.CallsOrLocks
  | .request _ _ | .lock _ _ _ | .unlock _ => .isTrue trivial
  | .queue _ _ | .counters _ | .errors _ _ | .failLoad | .failSave _ | .faults | .put _ _ | .load _
  | .status _ | .resolve _ _ _ | .startCache _ _ _ | .stopCache _ _ _ | .muxId _ _ _ | .files
  | .writeFile _ _ | .restart => .isFalse id

/-- **What of a step concerns a key**: the requests at its nodes, and the locks on it that are taken
and dropped.  A guard on the key is also dropped when another resource is granted under its name. -/
def onKey (c : Cluster n) (key : String) : Step n → List (Step n)
  | .request i r => if (c.node i).settings.key = key then [.request i r] else []
  | .lock resource timeout name =>
      if resource = key then [.lock resource timeout name]
      else if resource ∉ c.backend.locks.held ∧ c.guards[name]? = some key then [.unlock name]
      else []
  | .unlock name => if c.guards[name]? = some key then [.unlock name] else []
  | _ => []

/-- **What of a run concerns a key.** -/
def stepsOn (c : Cluster n) (key : String) : List (Step n) → List (Step n)
  | [] => []
  | step :: steps => c.onKey key step ++ (c.perform step).2.stepsOn key steps

/-- Whether a step is a request at a node of the key. -/
def isAt (c : Cluster n) (key : String) : Step n → Bool
  | .request i _ => (c.node i).settings.key == key
  | _ => false

/-- **The replies to the requests at the nodes of a key.** -/
def answersAt (c : Cluster n) (key : String) : List (Step n) → List (Except Failure Reply)
  | [] => []
  | step :: steps =>
      (if c.isAt key step then [(c.perform step).1] else []) ++
        (c.perform step).2.answersAt key steps

theorem answersAt_append (c : Cluster n) (key : String) (steps steps' : List (Step n)) :
    c.answersAt key (steps ++ steps') =
      c.answersAt key steps ++ (c.run steps).2.answersAt key steps' := by
  induction steps generalizing c with
  | nil => rfl
  | cons step steps ih => simp only [List.cons_append, answersAt, run, ih, List.append_assoc]

/-! ### Clusters that agree on a key -/

/-- **Two clusters that agree on a key**: their nodes have the same settings, the key is held in
both or in none, by guards of the same names, and both stores hold the same under it. -/
structure AgreeOn (key : String) (c c' : Cluster n) : Prop where
  settings : ∀ i, (c.node i).settings = (c'.node i).settings
  held : key ∈ c.backend.locks.held ↔ key ∈ c'.backend.locks.held
  guards : ∀ name : String, c.guards[name]? = some key ↔ c'.guards[name]? = some key
  store : c.backend.store.AgreeOn key c'.backend.store

namespace AgreeOn

variable {key : String} {c c' : Cluster n}

theorem refl (h : c.backend.store.Reliable) (key : String) : c.AgreeOn key c :=
  ⟨fun _ => rfl, .rfl, fun _ => .rfl, .refl h key⟩

/-- A request at a node of the key is answered alike. -/
theorem call (h : c.AgreeOn key c') {i : Fin n} (hkey : (c.node i).settings.key = key)
    (r : Request) :
    (c.call i r).1 = (c'.call i r).1 ∧ (c.call i r).2.AgreeOn key (c'.call i r).2 := by
  have hsettings := h.settings i
  subst hkey
  obtain ⟨houtcome, hstore⟩ := Settings.transact_of_agreeOn h.held h.store r
  have hanswer : (c.call i r).1 = (c'.call i r).1 := by
    show ((c.node i).settings.transact r c.backend).1.result =
      ((c'.node i).settings.transact r c'.backend).1.result
    rw [← hsettings, houtcome]
  refine ⟨hanswer, fun j => ?_, ?_, h.guards, ?_⟩
  · rw [settings_call, settings_call]
    exact h.settings j
  · show _ ∈ ((c.node i).call r c.backend).2.2.locks.held ↔
      _ ∈ ((c'.node i).call r c'.backend).2.2.locks.held
    rw [Node.locks_call, Node.locks_call]
    exact h.held
  · show ((c.node i).settings.transact r c.backend).2.store.AgreeOn _
      ((c'.node i).settings.transact r c'.backend).2.store
    rw [← hsettings]
    exact hstore

/-- A request at a node of another key is not noticed. -/
theorem call_of_ne (h : c.AgreeOn key c') {i : Fin n} (hne : (c.node i).settings.key ≠ key)
    (r : Request) : (c.call i r).2.AgreeOn key c' := by
  refine ⟨fun j => ?_, ?_, h.guards, Settings.agreeOn_transact_of_ne hne h.store r⟩
  · rw [settings_call]
    exact h.settings j
  · show key ∈ ((c.node i).call r c.backend).2.2.locks.held ↔ _
    rw [Node.locks_call]
    exact h.held

/-- Clusters that have come to differ in locks and guards only go on agreeing if these agree. -/
theorem of_quiet {d d' : Cluster n} (h : c.AgreeOn key c') (hq : Quiet c d) (hq' : Quiet c' d')
    (hstore : d.backend.store = c.backend.store) (hstore' : d'.backend.store = c'.backend.store)
    (hheld : key ∈ d.backend.locks.held ↔ key ∈ d'.backend.locks.held)
    (hguards : ∀ name : String, d.guards[name]? = some key ↔ d'.guards[name]? = some key) :
    d.AgreeOn key d' := by
  refine ⟨fun i => ?_, hheld, hguards, ?_⟩
  · rw [hq.settings, hq'.settings, h.settings]
  · rw [hstore, hstore']
    exact h.store

/-- To drop a guard on the key is the same in both. -/
theorem unlock (h : c.AgreeOn key c') (name : String) :
    (c.unlock name).2.AgreeOn key (c'.unlock name).2 := by
  refine h.of_quiet (.unlock c name) (.unlock c' name) (store_unlock c name)
    (store_unlock c' name) ?_ fun other => ?_
  · rw [mem_held_unlock, mem_held_unlock, h.held, ne_eq, h.guards, ne_eq]
  · rw [getElem?_guards_unlock, getElem?_guards_unlock]
    split
    · exact .rfl
    · exact h.guards other

/-- To drop a guard on another resource is not noticed. -/
theorem unlock_of_ne (h : c.AgreeOn key c') {name : String} (hne : c.guards[name]? ≠ some key) :
    (c.unlock name).2.AgreeOn key c' := by
  refine h.of_quiet (.unlock c name) (.refl c') (store_unlock c name) rfl ?_ fun other => ?_
  · rw [mem_held_unlock, h.held]
    exact and_iff_left hne
  · rw [getElem?_guards_unlock]
    split
    · rename_i he
      exact iff_of_false nofun fun hguard => hne ((h.guards name).2 (he ▸ hguard))
    · exact h.guards other

/-- To take the key is the same in both. -/
theorem lock (h : c.AgreeOn key c') (timeout : Duration) (name : String) :
    (c.lock key timeout name).2.AgreeOn key (c'.lock key timeout name).2 := by
  by_cases hheld : key ∈ c.backend.locks.held
  · rw [lock_of_mem timeout name hheld, lock_of_mem timeout name (h.held.1 hheld)]
    exact h
  · have hheld' : key ∉ c'.backend.locks.held := fun hk => hheld (h.held.2 hk)
    refine h.of_quiet (.lock c key timeout name) (.lock c' key timeout name)
      (store_lock c key timeout name) (store_lock c' key timeout name) ?_ fun other => ?_
    · rw [mem_held_lock timeout name hheld, mem_held_lock timeout name hheld', h.held, ne_eq,
        h.guards, ne_eq]
    · rw [getElem?_guards_lock timeout name hheld, getElem?_guards_lock timeout name hheld']
      split
      · exact .rfl
      · exact h.guards other

/-- To take another resource under the name of a guard on the key is to drop the guard. -/
theorem lock_of_guard (h : c.AgreeOn key c') {resource : String} (hne : resource ≠ key)
    (timeout : Duration) {name : String} (hfree : resource ∉ c.backend.locks.held)
    (hguard : c.guards[name]? = some key) :
    (c.lock resource timeout name).2.AgreeOn key (c'.unlock name).2 := by
  refine h.of_quiet (.lock c resource timeout name) (.unlock c' name)
    (store_lock c resource timeout name) (store_unlock c' name) ?_ fun other => ?_
  · rw [mem_held_lock timeout name hfree, mem_held_unlock]
    exact iff_of_false (fun hk => hk.2 hguard) fun hk => hk.2 ((h.guards name).1 hguard)
  · rw [getElem?_guards_lock timeout name hfree, getElem?_guards_unlock]
    split
    · exact iff_of_false (fun he => hne (Option.some.inj he)) nofun
    · exact h.guards other

/-- To take another resource otherwise is not noticed. -/
theorem lock_of_ne (h : c.AgreeOn key c') {resource : String} (hne : resource ≠ key)
    (timeout : Duration) {name : String}
    (hguard : ¬ (resource ∉ c.backend.locks.held ∧ c.guards[name]? = some key)) :
    (c.lock resource timeout name).2.AgreeOn key c' := by
  by_cases hheld : resource ∈ c.backend.locks.held
  · rw [lock_of_mem timeout name hheld]
    exact h
  · have hother : c.guards[name]? ≠ some key := fun he => hguard ⟨hheld, he⟩
    refine h.of_quiet (.lock c resource timeout name) (.refl c')
      (store_lock c resource timeout name) rfl ?_ fun other => ?_
    · rw [mem_held_lock timeout name hheld, or_iff_right hne, h.held]
      exact and_iff_left hother
    · rw [getElem?_guards_lock timeout name hheld]
      split
      · rename_i he
        exact iff_of_false (fun hk => hne (Option.some.inj hk)) fun hk =>
          hother ((h.guards name).2 (he ▸ hk))
      · exact h.guards other

/-- **A step is answered alike as far as it concerns the key, and its rest is not noticed.** -/
theorem step (h : c.AgreeOn key c') {step : Step n} (hstep : step.CallsOrLocks) :
    c.answersAt key [step] = c'.answersAt key (c.onKey key step) ∧
      (c.perform step).2.AgreeOn key (c'.run (c.onKey key step)).2 := by
  cases step with
  | request i r =>
      by_cases hkey : (c.node i).settings.key = key
      · have hkey' : (c'.node i).settings.key = key := h.settings i ▸ hkey
        obtain ⟨hanswer, hafter⟩ := h.call hkey r
        simp only [onKey, answersAt, isAt, hkey, hkey', beq_self_eq_true, if_true,
          List.append_nil, perform, run, hanswer]
        exact ⟨trivial, hafter⟩
      · simp only [onKey, if_neg hkey, answersAt, isAt, beq_eq_false_iff_ne.2 hkey,
          Bool.false_eq_true, if_false, List.append_nil, perform, run]
        exact ⟨trivial, h.call_of_ne hkey r⟩
  | lock resource timeout name =>
      simp only [onKey, answersAt, isAt, Bool.false_eq_true, if_false, List.append_nil, perform]
      split
      · rename_i hkey
        subst hkey
        exact ⟨rfl, h.lock timeout name⟩
      · rename_i hne
        split
        · rename_i hguard
          exact ⟨rfl, h.lock_of_guard hne timeout hguard.1 hguard.2⟩
        · rename_i hguard
          exact ⟨rfl, h.lock_of_ne hne timeout hguard⟩
  | unlock name =>
      simp only [onKey, answersAt, isAt, Bool.false_eq_true, if_false, List.append_nil, perform]
      split
      · exact ⟨rfl, h.unlock name⟩
      · rename_i hne
        exact ⟨rfl, h.unlock_of_ne hne⟩
  | _ => exact hstep.elim

/-- **So is a run.** -/
theorem run (h : c.AgreeOn key c') {steps : List (Step n)}
    (hsteps : ∀ step ∈ steps, step.CallsOrLocks) :
    c.answersAt key steps = c'.answersAt key (c.stepsOn key steps) ∧
      (c.run steps).2.AgreeOn key (c'.run (c.stepsOn key steps)).2 := by
  -- induction on the steps, over the two clusters from which they begin
  induction steps generalizing c c' with
  | nil => exact ⟨rfl, h⟩
  | cons step steps ih =>
      obtain ⟨hanswer, hafter⟩ := h.step (hsteps step List.mem_cons_self)
      obtain ⟨hanswers, hend⟩ := ih hafter fun other ho => hsteps other (List.mem_cons_of_mem _ ho)
      have hcut : c.answersAt key (step :: steps) =
          c.answersAt key [step] ++ (c.perform step).2.answersAt key steps :=
        answersAt_append c key [step] steps
      rw [hcut, stepsOn, answersAt_append, hanswer, hanswers, run_append]
      exact ⟨rfl, hend⟩

end AgreeOn

/-- **What is done under other keys makes no difference.**  Requests are made to the nodes of a
cluster over a store that fails on no demand, and resources are locked and unlocked.  Then the nodes
of a key answer as they do when nothing is done but what concerns the key, and the ledger that is
stored under it in the end is the same. -/
theorem answers_isolated {c : Cluster n} (hstore : c.backend.store.Reliable) (key : String)
    {steps : List (Step n)} (hsteps : ∀ step ∈ steps, step.CallsOrLocks) :
    c.answersAt key steps = c.answersAt key (c.stepsOn key steps) ∧
      (c.run steps).2.stored key = (c.run (c.stepsOn key steps)).2.stored key := by
  obtain ⟨hanswers, hend⟩ := (AgreeOn.refl hstore key).run hsteps
  exact ⟨hanswers, hend.store.inner.load⟩

/-- Two nodes of different keys over an empty store. -/
def apartNodes : Cluster 2 :=
  .new .inMemory #v[.standard, { Settings.standard with key := "other" }]

/-- Starts at both nodes, and a guard on the key of the first whose name is then taken for the key
of the second. -/
def crossingSteps (i j : Fin 2) : List (Step 2) :=
  [.request i (.start "a"), .request j (.start "b"),
    .lock Settings.standard.key (.ofSeconds 1) "g", .request i (.get "a"), .request j (.start "a"),
    .lock "other" (.ofSeconds 1) "g", .request i (.get "a"), .request j (.get "b"), .unlock "g"]

/-- Five of the nine steps concern the key of the first node, and three of these are answered. -/
theorem isolated_crossingSteps :
    apartNodes.answersAt Settings.standard.key (crossingSteps 0 1) =
        apartNodes.answersAt Settings.standard.key
          (apartNodes.stepsOn Settings.standard.key (crossingSteps 0 1)) ∧
      (apartNodes.run (crossingSteps 0 1)).2.stored Settings.standard.key =
        (apartNodes.run (apartNodes.stepsOn Settings.standard.key (crossingSteps 0 1))).2.stored
          Settings.standard.key ∧
      (apartNodes.stepsOn Settings.standard.key (crossingSteps 0 1)).length = 5 ∧
      (apartNodes.answersAt Settings.standard.key (crossingSteps 0 1)).length = 3 := by
  have hstore : apartNodes.backend.store.Reliable := FaultyStore.reliable_new .inMemory
  have hsteps : ∀ step ∈ crossingSteps 0 1, step.CallsOrLocks := by decide
  obtain ⟨hanswers, hstored⟩ := answers_isolated hstore Settings.standard.key hsteps
  exact ⟨hanswers, hstored, by decide +kernel, by decide +kernel⟩

end Cluster

end Tenancy
