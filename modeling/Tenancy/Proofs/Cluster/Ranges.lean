/-
**Of which range the slot is that a start hands out.**

The nodes that serve a record may have different ranges, and so may those that come after the store
was opened again.  A slot comes into use at a node in whose range it lies.  From then on it belongs
to the record and no longer to the node: once it was given back, other nodes hand it out without a
look at their own range.  So the calls that were made are kept together with the settings of their
nodes.  A slot that a start hands out then lies in the range of some node of the same key that hands
it out, now or before, but not always in the range of the node that was asked.

Main definitions:

* `Tenancy.Cluster.Sited` — a call with the settings of the node at which it was made;
* `Tenancy.Cluster.Sited.HandsOut` — the call hands out a slot of the range of its node;
* `Tenancy.Cluster.sitedCalls` — the calls of a step with the settings of their nodes;
* `Tenancy.Cluster.Traced` — **the clusters reached from an empty store, with all calls since**.

Main results:

* `Tenancy.Cluster.Makes.exists_handsOut` — a slot comes into use by a call that hands it out of its
  own range;
* `Tenancy.Cluster.Traced.exists_handsOut` — **so did every slot in use**;
* `Tenancy.Cluster.Traced.of_recorded` — but for the settings, the traces are the logs;
* `Tenancy.Cluster.Traced.contains_started_iff` — **the slot that a first start hands out**: where
  it comes from, and when it is of the range of the node that was asked;
* `Tenancy.Cluster.started_outside` — a slot handed out from outside the range.
-/

import Tenancy.Proofs.Cluster.HandedOut

set_option relaxedAutoImplicit false
set_option autoImplicit false

namespace Tenancy

open Cluster (Served)

/-! ### Slots that come into use -/

/-- A slot that is in use after a request was served was in use before, or the request handed it out
of the range of the node. -/
theorem Ledger.contains_of_serve {l : Ledger} {p : SlotPolicy} (hl : l.Sound) {r : Request}
    {answer : r.Answer} {changed : Option Ledger} (h : l.serve p r = .ok (answer, changed))
    {slot : Slot} (hs : slot.toNat ∈ (changed.getD l).usedSlots) :
    slot.toNat ∈ l.usedSlots ∨
      Served.handsOut? ⟨r, .ok answer⟩ = some slot ∧ p.Contains slot := by
  rcases (mem_usedSlots_serve hl h slot.toNat).1 hs with hused | ⟨other, hout, he⟩
  · exact .inl hused
  · obtain rfl := UInt16.toNat.inj he
    cases changed with
    | none => exact .inl hs
    | some l' =>
        obtain ⟨tenant, -, hchange⟩ := change_of_serve h
        exact (hchange.mem_usedSlots hl hs).imp_right fun hin => ⟨hout, hin⟩

/-- **A slot comes into use under a key by a transaction of that key** which hands it out of the
range of the node. -/
theorem Settings.contains_of_transact {s : Settings} {r : Request} {b : Backend}
    (hkept : b.store.inner.Keeps fun l => l.Sound ∧ l.NamesFit) (hr : r.NamesFit) {key : String}
    {slot : Slot} (hs : slot.toNat ∈ (s.transact r b).2.store.inner.usedSlots key) :
    slot.toNat ∈ b.store.inner.usedSlots key ∨
      s.key = key ∧ Served.handsOut? ⟨r, (s.transact r b).1.result⟩ = some slot ∧
        s.slots.Contains slot := by
  have hI := Ledger.sound_invariant fun _ => True
  have hending := s.ending_transact r b
  generalize (s.transact r b).1 = outcome at hending ⊢
  generalize (s.transact r b).2.store.inner = inner at hending hs
  cases hending with
  | committed loaded changed answer store free load serve save =>
      by_cases hkey : s.key = key
      · subst hkey
        rw [Store.usedSlots_of_load (load_of_saved hI trivial hkept hr load serve save)] at hs
        rw [← usedSlots_of_load load]
        have hsound := (hI.of_load (s := s) trivial hkept load).1
        exact (Ledger.contains_of_serve hsound serve hs).imp_right fun hout => ⟨rfl, hout⟩
      · -- a save under another key is not noticed
        rw [Store.usedSlots, Store.load_save_of_ne save hkey] at hs
        exact .inl hs
  | locked | notLoaded | denied | answered | notSaved => exact .inl hs

namespace Cluster

variable {n : Nat} {c : Cluster n} {key : String} {slot : Slot}

/-! ### Calls with the settings of their nodes -/

/-- A call, with the settings of the node at which it was made. -/
structure Sited where
  settings : Settings
  served : Served

/-- **The call hands out a slot of the range of its node**, from the record of a key. -/
def Sited.HandsOut (e : Sited) (key : String) (slot : Slot) : Prop :=
  e.settings.key = key ∧ e.served.handsOut? = some slot ∧ e.settings.slots.Contains slot

/-- A call at a node of the cluster, with the settings of the node. -/
def sited (c : Cluster n) (e : Fin n × Served) : Sited := ⟨(c.node e.1).settings, e.2⟩

/-- **The calls that a step makes, each with the settings of its node.** -/
def sitedCalls (c : Cluster n) (step : Step n) : List Sited := (c.made step).map c.sited

/-- But for the settings, these are the calls of the log. -/
theorem map_served_sitedCalls (c : Cluster n) (step : Step n) :
    (c.sitedCalls step).map Sited.served = c.calls step := by
  rw [sitedCalls, List.map_map, ← map_snd_made]
  rfl

/-- The calls that the steps of a run make, each with the settings of its node. -/
def sitedLog (c : Cluster n) : List (Step n) → List Sited
  | [] => []
  | step :: steps => c.sitedCalls step ++ (c.perform step).2.sitedLog steps

/-- **A slot comes into use by a call that hands it out of its own range.** -/
theorem Makes.exists_handsOut {c' : Cluster n} {log : List (Fin n × Served)} (hm : Makes c log c')
    {S : Settings → Prop} (h : c.Upholds S fun l => l.Sound ∧ l.NamesFit)
    (hs : slot.toNat ∈ c'.usedSlots key) :
    slot.toNat ∈ c.usedSlots key ∨ ∃ e ∈ log, (c.sited e).HandsOut key slot := by
  induction hm with
  | call c i names =>
      refine (Settings.contains_of_transact h.ledgers names hs).imp_right fun hout => ?_
      exact ⟨_, List.mem_cons_self, hout⟩
  | quiet hq =>
      rw [usedSlots, hq.inner] at hs
      exact .inl hs
  | append first rest ih ih' =>
      rcases ih' (h.makes (Ledger.sound_invariant S) first) hs with hbetween | ⟨e, he, hout⟩
      · rcases ih h hbetween with hbefore | ⟨e, he, hout⟩
        · exact .inl hbefore
        · exact .inr ⟨e, List.mem_append_left _ he, hout⟩
      · -- the nodes have the settings that they had at first
        rw [sited, first.settings] at hout
        exact .inr ⟨e, List.mem_append_right _ he, hout⟩

/-! ### Traced runs -/

/-- **The clusters reached from an empty store**, with the calls that were made since, oldest first,
each with the settings that its node had. -/
inductive Traced : {n : Nat} → Cluster n → List Sited → Prop where
  /-- Nothing has been done yet. -/
  | new {n : Nat} {store : Store} {settings : Vector Settings n} :
      store.IsEmpty → Traced (Cluster.new store settings) []
  /-- The host made a step. -/
  | perform {n : Nat} {c : Cluster n} {trace : List Sited} {step : Step n} :
      Traced c trace → step.ThroughNodes → Traced (c.perform step).2 (trace ++ c.sitedCalls step)
  /-- The host opened the store again with other nodes. -/
  | reopen {n m : Nat} {c : Cluster n} {trace : List Sited} {settings : Vector Settings m} :
      Traced c trace → Traced (c.reopen settings) trace

namespace Traced

variable {trace : List Sited}

theorem reachable (h : Traced c trace) : c.Reachable fun _ => True := by
  induction h with
  | new hempty => exact .new hempty fun _ => trivial
  | perform _ hstep ih => exact ih.perform hstep
  | reopen _ ih => exact ih.reopen fun _ => trivial

/-- A run goes on tracing. -/
theorem run (h : Traced c trace) {steps : List (Step n)}
    (hsteps : ∀ step ∈ steps, step.ThroughNodes) :
    Traced (c.run steps).2 (trace ++ c.sitedLog steps) := by
  -- induction on the steps, over the cluster from which they begin
  induction steps generalizing c trace with
  | nil =>
      rw [sitedLog, List.append_nil]
      exact h
  | cons step steps ih =>
      rw [sitedLog, ← List.append_assoc]
      refine ih (h.perform (hsteps step List.mem_cons_self)) fun other ho => ?_
      exact hsteps other (List.mem_cons_of_mem _ ho)

/-- A recorded run is traced as well: its log is the trace but for the settings. -/
theorem of_recorded {log : List Served} (h : Recorded key c log) :
    ∃ trace, Traced c trace ∧ trace.map Sited.served = log := by
  induction h with
  | new hempty hsettings => exact ⟨[], .new hempty, rfl⟩
  | perform hc hstep ih =>
      obtain ⟨trace, htraced, rfl⟩ := ih
      exact ⟨_, htraced.perform hstep, by rw [List.map_append, map_served_sitedCalls]⟩
  | reopen hc hsettings ih =>
      obtain ⟨trace, htraced, rfl⟩ := ih
      exact ⟨trace, htraced.reopen, rfl⟩

/-- **Every slot in use was handed out by a call in whose range it lies.** -/
theorem exists_handsOut (h : Traced c trace) (hs : slot.toNat ∈ c.usedSlots key) :
    ∃ e ∈ trace, e.HandsOut key slot := by
  -- induction on how the cluster was reached
  induction h with
  | @new n store settings hempty =>
      rw [usedSlots, show (Cluster.new store settings).backend.store.inner = store from rfl,
        hempty.usedSlots] at hs
      exact absurd hs (Finset.notMem_empty _)
  | reopen hc ih => exact ih hs
  | @perform n c trace step hc hstep ih =>
      have hearlier : slot.toNat ∈ c.usedSlots key →
          ∃ e ∈ trace ++ c.sitedCalls step, e.HandsOut key slot := fun hused => by
        obtain ⟨e, he, hout⟩ := ih hused
        exact ⟨e, List.mem_append_left _ he, hout⟩
      cases hrestart : step.isRestart with
      | true =>
          obtain rfl := Step.eq_restart hrestart
          exact hearlier hs
      | false =>
          obtain ⟨served, hmakes, hperm⟩ := makes_perform c ⟨hstep, hrestart⟩
          have hupholds := hc.reachable.upholds (Ledger.sound_invariant _)
          rcases hmakes.exists_handsOut hupholds hs with hused | ⟨e, he, hout⟩
          · exact hearlier hused
          · have hmade : c.sited e ∈ c.sitedCalls step :=
              List.mem_map_of_mem (hperm.mem_iff.2 he)
            exact ⟨_, List.mem_append_right _ hmade, hout⟩

/-- **The slot that a first start hands out.**  It lies in the range of the node that was asked, or
a call at another node of the same key, in whose range it lies, handed it out before.  It lies in
the range of the node that was asked unless all of this holds: slots were given back, the least of
them is not of this range, and the node prefers such slots or the next slot is past the range. -/
theorem contains_started_iff (h : Traced c trace) {i : Fin n} {p : SlotPolicy}
    (hp : (c.node i).settings.slots = p) {ledger : Ledger} (hl : c.loaded i = .ok ledger)
    {tenant : String} (hnone : ledger.lease? tenant = none) {lease : Lease}
    (hstart : (c.call i (.start tenant)).1 = .ok lease) :
    (p.Contains lease.slot ∨ ∃ e ∈ trace, e.HandsOut (c.node i).settings.key lease.slot) ∧
      (p.Contains lease.slot ↔ ¬ ledger.ReusesOutside p) := by
  subst hp
  obtain ⟨hsound, -⟩ := h.reachable.of_loaded (Ledger.sound_invariant _) hl
  obtain ⟨changed, hchanged⟩ := start_of_call hl hstart
  constructor
  · -- the slot is in use afterwards: it came into use now, or it was in use before
    have hused : lease.slot.toNat ∈ changed.usedSlots := by
      rw [Ledger.usedSlots_start hchanged]
      exact Finset.mem_insert_self ..
    rcases (Ledger.change_of_start hchanged).mem_usedSlots hsound hused with hbefore | hnow
    · rw [show ledger.usedSlots = c.usedSlots (c.node i).settings.key from
        Settings.usedSlots_of_load hl] at hbefore
      exact .inr (h.exists_handsOut hbefore)
    · exact .inl hnow
  · -- the tenant held none, so the slot was taken
    rcases Ledger.start_eq_ok hchanged with ⟨old, ho, -⟩ | ⟨slot, m, -, htake, rfl, -⟩
    · rw [hnone] at ho
      cases ho
    · exact Ledger.contains_takeSlot?_iff htake

end Traced

/-! ### Slots from outside the range -/

/-- A tenant starts and stops at a node. -/
def startAndStop (i : Fin 2) : List (Step 2) :=
  [.request i (.start "a"), .request i (.stop "a")]

/-- Two nodes over an empty store that prefer fresh slots, the first with the later range. -/
def descendingNodes : Cluster 2 :=
  .new .inMemory #v[.ofSlots 10 20 .whenExhausted, .ofSlots 2 9 .whenExhausted]

/-- One of these nodes has handed out a slot, and it was given back. -/
def passedOver (i : Fin 2) : Cluster 2 := (descendingNodes.run (startAndStop i)).2

theorem traced_passedOver :
    Traced (passedOver 0) ([] ++ descendingNodes.sitedLog (startAndStop 0)) :=
  Traced.run (.new Store.isEmpty_inMemory) (by decide)

/-- The next slot is past the range of the second node, although none of its slots was ever used: it
hands out again what the first node had taken. -/
theorem reusesOutside_passedOver :
    ((passedOver 0).call 1 (.start "b")).1 = .ok ⟨1, 10⟩ ∧
      (∃ e ∈ [] ++ descendingNodes.sitedLog (startAndStop 0),
        e.HandsOut Settings.standard.key 10) ∧
      (∀ k ∈ Finset.Icc 2 9,
        k ∉ (⟨11, ∅, (∅ : Std.ExtTreeSet UInt16).insert 10, 2⟩ : Ledger).usedSlots) ∧
      (⟨11, ∅, (∅ : Std.ExtTreeSet UInt16).insert 10, 2⟩ : Ledger).ReusesOutside
        ⟨2, 9, .whenExhausted⟩ := by
  have hkey : ((passedOver 0).node 1).settings.key = Settings.standard.key := by decide +kernel
  have hp : ((passedOver 0).node 1).settings.slots = ⟨2, 9, .whenExhausted⟩ := by decide +kernel
  have hl : (passedOver 0).loaded 1 =
      .ok ⟨11, ∅, (∅ : Std.ExtTreeSet UInt16).insert 10, 2⟩ := by cbv
  have hstart : ((passedOver 0).call 1 (.start "b")).1 = .ok ⟨1, 10⟩ := by cbv
  have hout : ¬ (⟨2, 9, .whenExhausted⟩ : SlotPolicy).Contains 10 := by decide
  obtain ⟨hfrom, hiff⟩ :=
    traced_passedOver.contains_started_iff hp hl (by decide +kernel) hstart
  rw [hkey] at hfrom
  refine ⟨hstart, hfrom.resolve_left hout, by decide +kernel, ?_⟩
  by_contra hno
  exact hout (hiff.2 hno)

/-- One of the unlike nodes has handed out a slot, and it was given back. -/
def givenBack (i : Fin 2) : Cluster 2 := (unlikeNodes.run (startAndStop i)).2

theorem reachable_givenBack : (givenBack 0).Reachable fun s => s.key = Settings.standard.key := by
  refine (Reachable.new Store.isEmpty_inMemory fun i => ?_).run (by decide)
  match i with
  | 0 => rfl
  | 1 => rfl

/-- **A node hands out a slot from outside its range** that another node of its key had taken. -/
theorem started_outside :
    (givenBack 0).Reachable (fun s => s.key = Settings.standard.key) ∧
      ((givenBack 0).node 1).settings.slots = ⟨5, 20, .lowestReleased⟩ ∧
      (∀ ledger, (givenBack 0).loaded 1 = .ok ledger → ledger.lease? "b" = none) ∧
      ((givenBack 0).call 1 (.start "b")).1 = .ok ⟨1, 2⟩ ∧
      ¬ (⟨5, 20, .lowestReleased⟩ : SlotPolicy).Contains 2 := by
  refine ⟨reachable_givenBack, by decide +kernel, ?_, by cbv, by decide⟩
  intro ledger hl
  have hload : (givenBack 0).loaded 1 =
      .ok ⟨3, ∅, (∅ : Std.ExtTreeSet UInt16).insert 2, 2⟩ := by cbv
  rw [hload] at hl
  cases hl
  decide +kernel

end Cluster

end Tenancy
