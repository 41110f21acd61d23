/-
**Each switch of a store that fails on demand works once, and only on what it is for.**

A history of calls tells which of them fail.  A save fails exactly when the switch for saves was set
before it and, since it was last set, as many saves were made as it lets pass.  A load fails exactly
when the switch for loads was set since the load before it.  What fails does not reach the store
inside; the calls that do not fail are a run of that store by itself, with the same answers.  So
setting a switch costs one save or load and no more, and the counts are those of the history.

The switch for saves is followed through a run as one signed number that every save takes one from:
below zero it is off, and there it stays.

Main definitions:

* `Tenancy.FaultyStore.Call`, `Tenancy.FaultyStore.Reply` — what is asked of a store, and what it
  answers;
* `Tenancy.FaultyStore.perform`, `Tenancy.Store.perform` — a call to a store that fails on demand,
  and to a plain one;
* `Tenancy.FaultyStore.countdown` — **the switch for saves as a signed number**;
* `Tenancy.FaultyStore.SaveFails`, `Tenancy.FaultyStore.LoadFails` — **the history makes the next
  save, or load, fail**.

Main results:

* `Tenancy.FaultyStore.countdown_after`, `Tenancy.FaultyStore.failedSaves_after` — what calls that
  do not set the switch for saves do to it, and how many saves they make fail;
* `Tenancy.FaultyStore.countdown_eq_zero_iff`, `Tenancy.FaultyStore.loadFails_iff` — **the switches
  are as the history says**;
* `Tenancy.FaultyStore.log_passed` — **what does not fail is a run of the store inside**;
* `Tenancy.FaultyStore.fails_on_demand` — **the history tells what fails, and what fails leaves no
  trace but its count**.
-/

import Mathlib.Data.List.Basic
import Tenancy.Store.Faulty

set_option relaxedAutoImplicit false
set_option autoImplicit false

namespace Tenancy

namespace FaultyStore

/-! ### Calls -/

/-- What is asked of a store that fails on demand. -/
inductive Call where
  | failSaveAfter (n : Nat)
  | failNextSave
  | failNextLoad
  | save (key : String) (ledger : Ledger)
  | load (key : String)

/-- What it answers. -/
inductive Reply where
  | armed
  | saved (answer : Except StorageFault Unit)
  | loaded (answer : Except StorageFault (Option Ledger))

/-- The saves that are let pass, if the call sets the switch for saves. -/
def Call.passing? : Call → Option Nat
  | .failSaveAfter n => some n
  | .failNextSave => some 0
  | _ => none

/-- The call is a save. -/
def Call.isSave : Call → Bool
  | .save _ _ => true
  | _ => false

/-- The call is a load. -/
def Call.isLoad : Call → Bool
  | .load _ => true
  | _ => false

/-- The call sets the switch for loads. -/
def Call.failsLoad : Call → Bool
  | .failNextLoad => true
  | _ => false

/-- The reply is a fault. -/
def Reply.failed : Reply → Bool
  | .saved (.error _) => true
  | .loaded (.error _) => true
  | _ => false

/-- What a save or a load answers that a switch made fail. -/
def Call.injected : Call → Reply
  | .save key _ => .saved (.error (.unavailable s!"injected save failure for {key}"))
  | .load key => .loaded (.error (.unavailable s!"injected load failure for {key}"))
  | _ => .armed

/-- A call to a store that fails on demand. -/
def perform (s : FaultyStore) : Call → Reply × FaultyStore
  | .failSaveAfter n => (.armed, s.failSaveAfter n)
  | .failNextSave => (.armed, s.failNextSave)
  | .failNextLoad => (.armed, s.failNextLoad)
  | .save key ledger => (.saved (s.save key ledger).1, (s.save key ledger).2)
  | .load key => (.loaded (s.load key).1, (s.load key).2)

/-- The state after calls that are made one after the other. -/
def after {σ : Type} (perform : σ → Call → Reply × σ) (s : σ) (calls : List Call) : σ :=
  calls.foldl (fun s call => (perform s call).2) s

/-- The calls, each with what it was answered. -/
def log {σ : Type} (perform : σ → Call → Reply × σ) : σ → List Call → List (Call × Reply)
  | _, [] => []
  | s, call :: calls => (call, (perform s call).1) :: log perform (perform s call).2 calls

/-- The calls that did not fail, each with what it was answered. -/
def passed (entries : List (Call × Reply)) : List (Call × Reply) :=
  entries.filter fun entry => !entry.2.failed

end FaultyStore

namespace Store

open FaultyStore (Call Reply)

/-- The same call to a plain store, which has no switches. -/
def perform (store : Store) : Call → Reply × Store
  | .save key ledger =>
      match store.save key ledger with
      | .ok store' => (.saved (.ok ()), store')
      | .error fault => (.saved (.error fault), store)
  | .load key => (.loaded (store.load key), store)
  | _ => (.armed, store)

/-- The store keeps its ledgers in memory. -/
def IsMemory (store : Store) : Prop := ∃ ledgers, store = .memory ledgers

/-- In memory nothing fails. -/
theorem IsMemory.perform {store : Store} (h : store.IsMemory) (call : Call) :
    (store.perform call).1.failed = false ∧ (store.perform call).2.IsMemory := by
  obtain ⟨ledgers, rfl⟩ := h
  cases call <;> exact ⟨rfl, _, rfl⟩

end Store

namespace FaultyStore

variable {s : FaultyStore} {call : Call} {calls history : List Call} {n : Nat}

/-! ### What a history says -/

/-- **The next save fails**: the switch for saves was set, and since it was last set as many saves
were made as it lets pass. -/
def SaveFails (history : List Call) : Prop :=
  ∃ earlier arming later n, history = earlier ++ arming :: later ∧ arming.passing? = some n ∧
    (∀ call ∈ later, call.passing? = none) ∧ later.countP Call.isSave = n

/-- **The next load fails**: the switch for loads was set, and no load was made since. -/
def LoadFails (history : List Call) : Prop :=
  ∃ earlier later, history = earlier ++ .failNextLoad :: later ∧ ∀ call ∈ later, call.isLoad = false

/-- The last call of a sort in a history. -/
theorem exists_latest {sort : Call → Bool} (h : ∃ call ∈ history, sort call) :
    ∃ earlier call later, history = earlier ++ call :: later ∧ sort call ∧
      ∀ call ∈ later, sort call = false := by
  have hfound : (history.reverse.find? sort).isSome := by
    rw [List.find?_isSome]
    simpa using h
  obtain ⟨call, hcall⟩ := Option.isSome_iff_exists.1 hfound
  obtain ⟨hsort, before, behind, hsplit, hbefore⟩ := List.find?_eq_some_iff_append.1 hcall
  refine ⟨behind.reverse, call, before.reverse, ?_, hsort, ?_⟩
  · have hback := congrArg List.reverse hsplit
    simpa using hback
  · intro other hother
    simpa using hbefore other (List.mem_reverse.1 hother)

/-! ### One call -/

/-- **The switch for saves as a signed number**: the saves it lets pass, or -1 if it is off. -/
def countdown (s : FaultyStore) : Int :=
  match s.savesUntilFault with
  | none => -1
  | some n => n

theorem neg_one_le_countdown (s : FaultyStore) : -1 ≤ s.countdown := by
  unfold countdown
  split <;> omega

/-- The switches make the call fail. -/
def Hits (s : FaultyStore) : Call → Prop
  | .save _ _ => s.countdown = 0
  | .load _ => s.loadFails = true
  | _ => False

/-- The switch for saves with one save less to pass. -/
def countSave (s : FaultyStore) : FaultyStore :=
  { s with savesUntilFault := s.savesUntilFault.map (· - 1) }

theorem save_of_countdown_eq_zero (h : s.countdown = 0) (key : String) (ledger : Ledger) :
    s.save key ledger =
      (.error (.unavailable s!"injected save failure for {key}"),
        { s with
          savesUntilFault := none
          counts := { s.counts with failedSaves := s.counts.failedSaves + 1 } }) := by
  have hswitch : s.savesUntilFault = some 0 := by
    unfold countdown at h
    split at h
    · omega
    · rename_i n hn
      obtain rfl : n = 0 := by omega
      exact hn
  rw [save, hswitch]

theorem save_of_countdown_ne_zero (h : s.countdown ≠ 0) (key : String) (ledger : Ledger) :
    s.save key ledger = s.countSave.passSave key ledger := by
  cases hswitch : s.savesUntilFault with
  | none =>
      have hsame : s.countSave = s := by
        cases s
        cases hswitch
        rfl
      rw [save, hswitch, hsame]
  | some n =>
      cases n with
      | zero =>
          rw [countdown, hswitch] at h
          exact (h rfl).elim
      | succ n =>
          rw [save, hswitch, countSave, hswitch]
          rfl

theorem countdown_countSave (h : s.countdown ≠ 0) :
    s.countSave.countdown = max (s.countdown - 1) (-1) := by
  cases hswitch : s.savesUntilFault with
  | none =>
      simp only [countdown, countSave, hswitch, Option.map_none]
      rfl
  | some n =>
      have hpos : n ≠ 0 := by
        rintro rfl
        simp [countdown, hswitch] at h
      simp only [countdown, countSave, hswitch, Option.map_some]
      omega

@[simp] theorem savesUntilFault_passSave (s : FaultyStore) (key : String) (ledger : Ledger) :
    (s.passSave key ledger).2.savesUntilFault = s.savesUntilFault := by
  simp only [passSave]
  split <;> rfl

@[simp] theorem loadFails_passSave (s : FaultyStore) (key : String) (ledger : Ledger) :
    (s.passSave key ledger).2.loadFails = s.loadFails := by
  simp only [passSave]
  split <;> rfl

@[simp] theorem counts_passSave (s : FaultyStore) (key : String) (ledger : Ledger) :
    (s.passSave key ledger).2.counts = { s.counts with saves := s.counts.saves + 1 } := by
  simp only [passSave]
  split <;> rfl

/-- A save takes one from the switch for saves, unless the switch is off. -/
theorem countdown_save (s : FaultyStore) (key : String) (ledger : Ledger) :
    (s.save key ledger).2.countdown = max (s.countdown - 1) (-1) := by
  by_cases hdue : s.countdown = 0
  · rw [save_of_countdown_eq_zero hdue, hdue]
    rfl
  · rw [save_of_countdown_ne_zero hdue, ← countdown_countSave hdue, countdown,
      savesUntilFault_passSave]
    rfl

/-- **What a call does to the switch for saves**, if it does not set it. -/
theorem countdown_perform (h : call.passing? = none) :
    (s.perform call).2.countdown =
      if call.isSave then max (s.countdown - 1) (-1) else s.countdown := by
  cases call with
  | failSaveAfter n => cases h
  | failNextSave => cases h
  | failNextLoad => rfl
  | save key ledger => exact countdown_save s key ledger
  | load key =>
      simp only [perform, load, Call.isSave]
      split <;> rfl

theorem countdown_perform_of_passing? (h : call.passing? = some n) :
    (s.perform call).2.countdown = n := by
  cases call with
  | failSaveAfter m =>
      cases h
      rfl
  | failNextSave =>
      cases h
      rfl
  | failNextLoad => cases h
  | save key ledger => cases h
  | load key => cases h

/-- **What a call does to the switch for loads.** -/
theorem loadFails_perform :
    (s.perform call).2.loadFails = (call.failsLoad || s.loadFails && !call.isLoad) := by
  cases call with
  | failSaveAfter n => simp [perform, failSaveAfter, Call.failsLoad, Call.isLoad]
  | failNextSave => simp [perform, failNextSave, failSaveAfter, Call.failsLoad, Call.isLoad]
  | failNextLoad => rfl
  | save key ledger =>
      have hkept : (s.save key ledger).2.loadFails = s.loadFails := by
        by_cases hdue : s.countdown = 0
        · rw [save_of_countdown_eq_zero hdue]
        · rw [save_of_countdown_ne_zero hdue, loadFails_passSave, countSave]
      simp [perform, Call.failsLoad, Call.isLoad, hkept]
  | load key =>
      cases hswitch : s.loadFails <;> simp [perform, load, Call.failsLoad, Call.isLoad, hswitch]

/-- **What a call adds to the counts.** -/
theorem counts_perform :
    (s.perform call).2.counts =
      { failedLoads := s.counts.failedLoads + if call.isLoad ∧ s.loadFails then 1 else 0
        failedSaves := s.counts.failedSaves + if call.isSave ∧ s.countdown = 0 then 1 else 0
        saves := s.counts.saves + if call.isSave ∧ s.countdown ≠ 0 then 1 else 0 } := by
  cases call with
  | failSaveAfter n => rfl
  | failNextSave => rfl
  | failNextLoad => rfl
  | save key ledger =>
      by_cases hdue : s.countdown = 0
      · simp [perform, save_of_countdown_eq_zero hdue, Call.isLoad, Call.isSave, hdue]
      · simp [perform, save_of_countdown_ne_zero hdue, Call.isLoad, Call.isSave, hdue, countSave]
  | load key =>
      cases hswitch : s.loadFails <;> simp [perform, load, Call.isLoad, Call.isSave, hswitch]

/-- **A call that the switches make fail does not reach the store inside.** -/
theorem perform_of_hits (h : s.Hits call) :
    (s.perform call).1 = call.injected ∧ (s.perform call).2.inner = s.inner := by
  cases call with
  | failSaveAfter n => exact h.elim
  | failNextSave => exact h.elim
  | failNextLoad => exact h.elim
  | save key ledger =>
      have hsave := save_of_countdown_eq_zero h key ledger
      rw [perform, hsave]
      exact ⟨rfl, rfl⟩
  | load key =>
      have hon : s.loadFails = true := h
      rw [perform, load, if_pos hon]
      exact ⟨rfl, rfl⟩

/-- **Any other call is one to the store inside.** -/
theorem perform_of_not_hits (h : ¬ s.Hits call) :
    (s.perform call).1 = (s.inner.perform call).1 ∧
      (s.perform call).2.inner = (s.inner.perform call).2 := by
  cases call with
  | failSaveAfter n => exact ⟨rfl, rfl⟩
  | failNextSave => exact ⟨rfl, rfl⟩
  | failNextLoad => exact ⟨rfl, rfl⟩
  | save key ledger =>
      have hsave := save_of_countdown_ne_zero h key ledger
      rw [perform, hsave, passSave, Store.perform]
      cases hinner : s.inner.save key ledger <;> simp [countSave, hinner]
  | load key =>
      have hoff : ¬ s.loadFails = true := h
      rw [perform, load, if_neg hoff]
      exact ⟨rfl, rfl⟩

/-- Over a store in memory nothing else fails. -/
theorem failed_perform_iff (h : s.inner.IsMemory) (call : Call) :
    (s.perform call).1.failed = true ↔ s.Hits call := by
  by_cases hhits : s.Hits call
  · refine iff_of_true ?_ hhits
    rw [(perform_of_hits hhits).1]
    cases call with
    | save key ledger => rfl
    | load key => rfl
    | failSaveAfter n => exact hhits.elim
    | failNextSave => exact hhits.elim
    | failNextLoad => exact hhits.elim
  · refine iff_of_false ?_ hhits
    rw [(perform_of_not_hits hhits).1, (h.perform call).1]
    exact Bool.false_ne_true

theorem isMemory_perform (h : s.inner.IsMemory) (call : Call) :
    (s.perform call).2.inner.IsMemory := by
  by_cases hhits : s.Hits call
  · rw [(perform_of_hits hhits).2]
    exact h
  · rw [(perform_of_not_hits hhits).2]
    exact (h.perform call).2

/-! ### Runs -/

theorem after_cons {σ : Type} (perform : σ → Call → Reply × σ) (s : σ) (call : Call)
    (calls : List Call) :
    after perform s (call :: calls) = after perform (perform s call).2 calls :=
  rfl

theorem after_append {σ : Type} (perform : σ → Call → Reply × σ) (s : σ)
    (calls calls' : List Call) :
    after perform s (calls ++ calls') = after perform (after perform s calls) calls' :=
  List.foldl_append

theorem isMemory_after (h : s.inner.IsMemory) (calls : List Call) :
    (after perform s calls).inner.IsMemory := by
  induction calls generalizing s with
  | nil => exact h
  | cons call calls ih => exact ih (isMemory_perform h call)

/-- **The switch for saves after calls that do not set it**: every save took one from it. -/
theorem countdown_after (h : ∀ call ∈ calls, call.passing? = none) :
    (after perform s calls).countdown = max (s.countdown - calls.countP Call.isSave) (-1) := by
  induction calls generalizing s with
  | nil =>
      have hbound := neg_one_le_countdown s
      simp only [after, List.foldl_nil, List.countP_nil]
      omega
  | cons call calls ih =>
      obtain ⟨hcall, hcalls⟩ := List.forall_mem_cons.1 h
      have hrest := ih (s := (s.perform call).2) hcalls
      rw [countdown_perform hcall] at hrest
      rw [after_cons, hrest, List.countP_cons]
      split <;> omega

/-- **The saves that such calls make fail**: one, if there are saves enough to reach it. -/
theorem failedSaves_after (h : ∀ call ∈ calls, call.passing? = none) :
    (after perform s calls).counts.failedSaves = s.counts.failedSaves +
      if 0 ≤ s.countdown ∧ s.countdown < calls.countP Call.isSave then 1 else 0 := by
  induction calls generalizing s with
  | nil =>
      have hnone : ¬ (0 ≤ s.countdown ∧ s.countdown < (0 : Nat)) := by omega
      rw [List.countP_nil, if_neg hnone]
      rfl
  | cons call calls ih =>
      obtain ⟨hcall, hcalls⟩ := List.forall_mem_cons.1 h
      have hrest := ih (s := (s.perform call).2) hcalls
      rw [countdown_perform hcall, counts_perform] at hrest
      rw [after_cons, hrest, List.countP_cons]
      -- a call that is no save changes neither side; a save fails now, later, or not at all
      cases call.isSave with
      | false => simp
      | true =>
          simp only [true_and, if_true]
          split_ifs <;> omega

/-- **The switch for loads after calls that do not set it**: any load has turned it off. -/
theorem loadFails_after (h : ∀ call ∈ calls, call.failsLoad = false) :
    (after perform s calls).loadFails = (s.loadFails && !calls.any Call.isLoad) := by
  induction calls generalizing s with
  | nil => simp [after]
  | cons call calls ih =>
      obtain ⟨hcall, hcalls⟩ := List.forall_mem_cons.1 h
      have hrest := ih (s := (s.perform call).2) hcalls
      rw [loadFails_perform, hcall, Bool.false_or] at hrest
      rw [after_cons, hrest, List.any_cons, Bool.not_or, Bool.and_assoc]

/-- **The loads that such calls make fail**: the first, if there is one. -/
theorem failedLoads_after (h : ∀ call ∈ calls, call.failsLoad = false) :
    (after perform s calls).counts.failedLoads = s.counts.failedLoads +
      if s.loadFails ∧ calls.any Call.isLoad then 1 else 0 := by
  induction calls generalizing s with
  | nil => simp [after]
  | cons call calls ih =>
      obtain ⟨hcall, hcalls⟩ := List.forall_mem_cons.1 h
      have hrest := ih (s := (s.perform call).2) hcalls
      rw [loadFails_perform, counts_perform, hcall, Bool.false_or] at hrest
      rw [after_cons, hrest, List.any_cons]
      cases s.loadFails <;> cases call.isLoad <;> simp

/-- The switch for loads stays on as long as nothing is loaded. -/
theorem loadFails_after_of_no_load (hon : s.loadFails = true)
    (h : ∀ call ∈ calls, call.isLoad = false) : (after perform s calls).loadFails = true := by
  induction calls generalizing s with
  | nil => exact hon
  | cons call calls ih =>
      obtain ⟨hcall, hcalls⟩ := List.forall_mem_cons.1 h
      refine ih ?_ hcalls
      rw [loadFails_perform, hon, hcall]
      simp

/-- Every save is counted, as one that failed or one that did not. -/
theorem saves_after (s : FaultyStore) (calls : List Call) :
    (after perform s calls).counts.saves + (after perform s calls).counts.failedSaves =
      s.counts.saves + s.counts.failedSaves + calls.countP Call.isSave := by
  induction calls generalizing s with
  | nil => rfl
  | cons call calls ih =>
      have hrest := ih (s.perform call).2
      rw [counts_perform] at hrest
      rw [after_cons, hrest, List.countP_cons]
      by_cases hdue : s.countdown = 0 <;> cases call.isSave <;> simp [hdue] <;> omega

/-- **The failures that are counted are those that were answered.** -/
theorem failures_after (h : s.inner.IsMemory) (calls : List Call) :
    (after perform s calls).counts.failedSaves = s.counts.failedSaves +
        (log perform s calls).countP (fun entry => entry.1.isSave && entry.2.failed) ∧
      (after perform s calls).counts.failedLoads = s.counts.failedLoads +
        (log perform s calls).countP (fun entry => entry.1.isLoad && entry.2.failed) := by
  induction calls generalizing s with
  | nil => exact ⟨rfl, rfl⟩
  | cons call calls ih =>
      obtain ⟨hsaves, hloads⟩ := ih (isMemory_perform h call)
      have hfailed := failed_perform_iff h call
      rw [counts_perform] at hsaves hloads
      have hsave : (call.isSave && (s.perform call).1.failed) = true ↔
          call.isSave = true ∧ s.countdown = 0 := by
        rw [Bool.and_eq_true, hfailed]
        cases call <;> simp [Call.isSave, Hits]
      have hload : (call.isLoad && (s.perform call).1.failed) = true ↔
          call.isLoad = true ∧ s.loadFails = true := by
        rw [Bool.and_eq_true, hfailed]
        cases call <;> simp [Call.isLoad, Hits]
      rw [after_cons, hsaves, hloads, log, List.countP_cons, List.countP_cons]
      simp only [hsave, hload]
      omega

/-- **What does not fail is a run of the store inside**: it gives the same answers, and the store
inside ends as that run does. -/
theorem log_passed (h : s.inner.IsMemory) (calls : List Call) :
    log Store.perform s.inner ((passed (log perform s calls)).map Prod.fst) =
        passed (log perform s calls) ∧
      after Store.perform s.inner ((passed (log perform s calls)).map Prod.fst) =
        (after perform s calls).inner := by
  induction calls generalizing s with
  | nil => exact ⟨rfl, rfl⟩
  | cons call calls ih =>
      have hrest := ih (isMemory_perform h call)
      by_cases hhits : s.Hits call
      · have hfailed := (failed_perform_iff h call).2 hhits
        rw [(perform_of_hits hhits).2] at hrest
        have hskip : passed (log perform s (call :: calls)) =
            passed (log perform (s.perform call).2 calls) := by
          simp [passed, log, hfailed]
        rw [hskip]
        exact hrest
      · have hfailed : (s.perform call).1.failed = false := by
          rw [(perform_of_not_hits hhits).1, (h.perform call).1]
        obtain ⟨hreply, hinner⟩ := perform_of_not_hits hhits
        have hkeep : passed (log perform s (call :: calls)) =
            (call, (s.perform call).1) :: passed (log perform (s.perform call).2 calls) := by
          simp [passed, log, hfailed]
        rw [hinner] at hrest
        rw [hkeep, List.map_cons, log, hreply]
        exact ⟨congrArg _ hrest.1, hrest.2⟩

/-! ### What a history tells -/

/-- **The switch for saves is about to fire exactly when the history says so.** -/
theorem countdown_eq_zero_iff (store : Store) (history : List Call) :
    (after perform (new store) history).countdown = 0 ↔ SaveFails history := by
  constructor
  · intro hdue
    by_cases hset : ∃ call ∈ history, call.passing?.isSome
    · obtain ⟨earlier, arming, later, rfl, hsome, hnone⟩ := exists_latest hset
      obtain ⟨n, hn⟩ := Option.isSome_iff_exists.1 hsome
      have hlater : ∀ call ∈ later, call.passing? = none := by
        intro call hcall
        simpa using hnone call hcall
      refine ⟨earlier, arming, later, n, rfl, hn, hlater, ?_⟩
      rw [after_append, after_cons, countdown_after hlater,
        countdown_perform_of_passing? hn] at hdue
      omega
    · have hnone : ∀ call ∈ history, call.passing? = none := by
        intro call hcall
        by_contra hsome
        exact hset ⟨call, hcall, Option.isSome_iff_ne_none.2 hsome⟩
      have hoff : (new store).countdown = -1 := rfl
      rw [countdown_after hnone, hoff] at hdue
      omega
  · rintro ⟨earlier, arming, later, n, rfl, hn, hlater, hcount⟩
    rw [after_append, after_cons, countdown_after hlater,
      countdown_perform_of_passing? hn]
    omega

/-- **The switch for loads is on exactly when the history says so.** -/
theorem loadFails_iff (store : Store) (history : List Call) :
    (after perform (new store) history).loadFails = true ↔ LoadFails history := by
  constructor
  · intro hon
    by_cases hset : ∃ call ∈ history, call.failsLoad
    · obtain ⟨earlier, arming, later, rfl, hsets, hnone⟩ := exists_latest hset
      obtain rfl : arming = .failNextLoad := by
        cases arming <;> first | rfl | cases hsets
      refine ⟨earlier, later, rfl, ?_⟩
      rw [after_append, after_cons, loadFails_after hnone] at hon
      simpa using (Bool.and_eq_true_iff.1 hon).2
    · have hnone : ∀ call ∈ history, call.failsLoad = false := by
        intro call hcall
        by_contra hsome
        exact hset ⟨call, hcall, by simpa using hsome⟩
      rw [loadFails_after hnone] at hon
      cases hon
  · rintro ⟨earlier, later, rfl, hlater⟩
    rw [after_append, after_cons]
    exact loadFails_after_of_no_load rfl hlater

/-- A store that fails on demand over one in memory, after some calls. -/
def overMemory (ledgers : Std.ExtTreeMap String Ledger) (history : List Call) : FaultyStore :=
  after perform (new (.memory ledgers)) history

/-- **Setting the switch for saves once makes one save fail**, if there are saves enough. -/
theorem failedSaves_set (ledgers : Std.ExtTreeMap String Ledger) {earlier later : List Call}
    (hset : call.passing? = some n) (h : ∀ other ∈ later, other.passing? = none) :
    (overMemory ledgers (earlier ++ call :: later)).counts.failedSaves =
      (overMemory ledgers earlier).counts.failedSaves +
        if n < later.countP Call.isSave then 1 else 0 := by
  have hnosave : call.isSave = false := by
    cases call <;> first | rfl | cases hset
  rw [overMemory, after_append, ← overMemory, after_cons,
    failedSaves_after h, countdown_perform_of_passing? hset, counts_perform, hnosave]
  simp

/-- **Setting the switch for loads makes one load fail**, if there is one. -/
theorem failedLoads_set (ledgers : Std.ExtTreeMap String Ledger) {earlier later : List Call}
    (h : ∀ other ∈ later, other.failsLoad = false) :
    (overMemory ledgers (earlier ++ .failNextLoad :: later)).counts.failedLoads =
      (overMemory ledgers earlier).counts.failedLoads +
        if later.any Call.isLoad then 1 else 0 := by
  rw [overMemory, after_append, ← overMemory, after_cons,
    failedLoads_after h, loadFails_perform, counts_perform]
  simp [Call.failsLoad, Call.isLoad]

/-- **The history tells what fails, and what fails leaves no trace but its count.**  A save fails
exactly when the switch for saves was set before it and, since it was last set, as many saves were
made as it lets pass; a load, when the switch for loads was set since the load before.  What fails
leaves the store inside as it was, and any other call does to it what it does to a plain store; so
the calls of a run that do not fail are a run of the plain store, with the same answers.  Setting
the switch for saves, and not again, makes one save fail, if there are saves enough to reach it;
setting that for loads, one load.  Saves are counted as they were made, and loads that failed as
they failed. -/
theorem fails_on_demand (ledgers : Std.ExtTreeMap String Ledger) (history : List Call) :
    (∀ key ledger, ((overMemory ledgers history).perform (.save key ledger)).1.failed = true ↔
        SaveFails history) ∧
      (∀ key, ((overMemory ledgers history).perform (.load key)).1.failed = true ↔
        LoadFails history) ∧
      (∀ call, ((overMemory ledgers history).perform call).1.failed = true →
        ((overMemory ledgers history).perform call).1 = call.injected ∧
          ((overMemory ledgers history).perform call).2.inner =
            (overMemory ledgers history).inner) ∧
      (∀ call, ((overMemory ledgers history).perform call).1.failed = false →
        ((overMemory ledgers history).perform call).1 =
            ((overMemory ledgers history).inner.perform call).1 ∧
          ((overMemory ledgers history).perform call).2.inner =
            ((overMemory ledgers history).inner.perform call).2) ∧
      (∃ kept, kept = passed (log perform (new (.memory ledgers)) history) ∧
        log Store.perform (.memory ledgers) (kept.map Prod.fst) = kept ∧
        after Store.perform (.memory ledgers) (kept.map Prod.fst) =
          (overMemory ledgers history).inner) ∧
      (∀ earlier arming later n, history = earlier ++ arming :: later →
        arming.passing? = some n → (∀ call ∈ later, call.passing? = none) →
        (overMemory ledgers history).counts.failedSaves =
          (overMemory ledgers earlier).counts.failedSaves +
            if n < later.countP Call.isSave then 1 else 0) ∧
      (∀ earlier later, history = earlier ++ .failNextLoad :: later →
        (∀ call ∈ later, call.failsLoad = false) →
        (overMemory ledgers history).counts.failedLoads =
          (overMemory ledgers earlier).counts.failedLoads +
            if later.any Call.isLoad then 1 else 0) ∧
      (overMemory ledgers history).counts.saves + (overMemory ledgers history).counts.failedSaves =
        history.countP Call.isSave ∧
      (overMemory ledgers history).counts.failedSaves =
        (log perform (new (.memory ledgers)) history).countP
          (fun entry => entry.1.isSave && entry.2.failed) ∧
      (overMemory ledgers history).counts.failedLoads =
        (log perform (new (.memory ledgers)) history).countP
          (fun entry => entry.1.isLoad && entry.2.failed) := by
  have hnew : (new (.memory ledgers)).inner.IsMemory := ⟨ledgers, rfl⟩
  have hmemory : (overMemory ledgers history).inner.IsMemory := isMemory_after hnew history
  obtain ⟨hsaves, hloads⟩ := failures_after hnew history
  refine ⟨?_, ?_, ?_, ?_, ⟨_, rfl, log_passed hnew history⟩, ?_, ?_, ?_, ?_, ?_⟩
  · intro key ledger
    rw [failed_perform_iff hmemory]
    exact countdown_eq_zero_iff (.memory ledgers) history
  · intro key
    rw [failed_perform_iff hmemory]
    exact loadFails_iff (.memory ledgers) history
  · intro call hfailed
    exact perform_of_hits ((failed_perform_iff hmemory call).1 hfailed)
  · intro call hpassed
    refine perform_of_not_hits fun hhits => ?_
    rw [(failed_perform_iff hmemory call).2 hhits] at hpassed
    cases hpassed
  · rintro earlier arming later n rfl hn hlater
    exact failedSaves_set ledgers hn hlater
  · rintro earlier later rfl hlater
    exact failedLoads_set ledgers hlater
  · have hcount := saves_after (new (.memory ledgers)) history
    simpa [overMemory, new] using hcount
  · simpa [overMemory, new] using hsaves
  · simpa [overMemory, new] using hloads

/-- The switches are set again before they have worked, and after; saves and loads alternate. -/
example :
    (log perform (new .inMemory)
      [.failSaveAfter 0, .failSaveAfter 1, .load "a", .save "a" (.empty 2), .save "a" (.empty 2),
        .save "a" (.empty 2), .failNextLoad, .failNextLoad, .save "a" (.empty 2), .load "a",
        .load "a", .failNextSave, .save "a" (.empty 2)]).map (fun entry => entry.2.failed) =
      [false, false, false, false, true, false, false, false, false, true, false, false, true] := by
  decide +kernel

end FaultyStore

end Tenancy
