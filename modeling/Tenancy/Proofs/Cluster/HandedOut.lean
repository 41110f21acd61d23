/-
**Which slot a start takes, by what was handed out before.**

The ledger keeps no history, but the log does: the slots that are in use, held or given back, are
those that starts have ever handed out.  So the slot that the next start takes can be told from the
log.  A node that prefers slots given back takes the least one that no tenant holds.  A node that
prefers fresh ones takes the least that was never handed out, as long as there is one in the range,
and then it too takes the least that no tenant holds.

Main definitions:

* `Tenancy.Cluster.handedOut` — **the slots that the starts of a log have handed out**;
* `Tenancy.Store.usedSlots`, `Tenancy.Cluster.usedSlots` — the slots in use in a stored ledger;
* `Tenancy.Cluster.Holds` — a slot is held by some tenant.

Main results:

* `Tenancy.Settings.mem_usedSlots_transact` — a transaction brings the slot into use that it hands
  out, and no other;
* `Tenancy.Cluster.Recorded.mem_usedSlots_iff` — **the slots in use are those ever handed out**;
* `Tenancy.Cluster.Recorded.isLeast_started` — **the slot that a start takes**.
-/

import Tenancy.Proofs.Cluster.Calls
import Tenancy.Proofs.Cluster.Starts
import Tenancy.Proofs.Ledger.Least

set_option relaxedAutoImplicit false
set_option autoImplicit false

namespace Tenancy

open Ledger (Invariant)

/-! ### Slots handed out -/

namespace Cluster

/-- The slot that an answered start hands out. -/
def Served.handsOut? : Served → Option Slot
  | ⟨.start _, .ok lease⟩ => some lease.slot
  | _ => none

/-- **The slots that the starts of a log have handed out.** -/
def handedOut (log : List Served) : List Slot := log.filterMap Served.handsOut?

theorem handedOut_append (log log' : List Served) :
    handedOut (log ++ log') = handedOut log ++ handedOut log' :=
  List.filterMap_append

/-- Failures hand out nothing. -/
theorem Served.handsOut?_error (r : Request) (failure : Failure) :
    Served.handsOut? ⟨r, .error failure⟩ = none := by
  cases r <;> rfl

theorem mem_handedOut_singleton {e : Served} {slot : Slot} :
    slot ∈ handedOut [e] ↔ e.handsOut? = some slot := by
  simp [handedOut]

end Cluster

open Cluster (Served)

/-! ### Slots that come into use -/

namespace Ledger

variable {l l' : Ledger} {p : SlotPolicy} {tenant : String}

/-- A start leaves the slot in use that it hands out. -/
theorem usedSlots_start {lease : Lease} (h : l.start p tenant = .ok (lease, l')) :
    l'.usedSlots = insert lease.slot.toNat l.usedSlots := by
  rcases start_eq_ok h with ⟨old, held, -, rfl, rfl⟩ | ⟨slot, m, absent, htake, rfl, rfl⟩
  · -- a further reference is to a slot that was in use
    have hused : old.slot.toNat ∈ l.usedSlots :=
      Finset.mem_union_left _ (mem_heldSlots_of_slot? (slot?_of_lease? held))
    rw [usedSlots_recount held, Finset.insert_eq_of_mem hused]
  · rcases takeSlot?_eq_some htake with hfresh | hreleased
    · obtain ⟨-, -, -, rfl⟩ := takeFresh?_eq_some hfresh
      exact usedSlots_take_fresh absent slot _
    · obtain ⟨hmin, rfl⟩ := takeReleased?_eq_some hreleased
      have hmem : slot ∈ l.released := Std.ExtTreeSet.min?_mem hmin
      have hused : slot.toNat ∈ l.usedSlots :=
        Finset.mem_union_right _ (toNat_mem_releasedSlots.2 hmem)
      rw [usedSlots_take_released absent hmem, Finset.insert_eq_of_mem hused]

/-- A stop leaves the slots in use that were. -/
theorem usedSlots_stop (hl : l.Sound) (tenant : String) :
    (l.stop tenant).2.usedSlots = l.usedSlots := by
  simp only [stop]
  split
  · rfl
  · rename_i lease held
    split
    · exact usedSlots_recount held _
    · exact usedSlots_drop (slot?_of_lease? held) fun other ho =>
        hl.unique (slot?_of_lease? held) ho

/-- **A request that is served brings the slot into use that it hands out, and no other.** -/
theorem mem_usedSlots_serve (hl : l.Sound) {r : Request} {answer : r.Answer}
    {changed : Option Ledger} (h : l.serve p r = .ok (answer, changed)) (k : Nat) :
    k ∈ (changed.getD l).usedSlots ↔
      k ∈ l.usedSlots ∨ ∃ slot, Served.handsOut? ⟨r, .ok answer⟩ = some slot ∧ slot.toNat = k := by
  cases r with
  | start tenant =>
      obtain ⟨l', rfl, hstart⟩ := start_of_serve h
      rw [Option.getD_some, usedSlots_start hstart, Finset.mem_insert, or_comm]
      simp only [Served.handsOut?, Option.some.injEq, exists_eq_left', eq_comm (a := k)]
  | stop tenant =>
      have hused := usedSlots_stop hl tenant
      have hnone : Served.handsOut? ⟨.stop tenant, .ok answer⟩ = none := rfl
      simp only [hnone, reduceCtorEq, false_and, exists_false, or_false]
      simp only [serve] at h
      split at h
      · cases h
        rfl
      · rename_i release after _ hstop
        cases h
        rw [hstop] at hused
        rw [Option.getD_some, hused]
  | get tenant =>
      simp only [serve] at h
      split at h
      · cases h
        simp [Served.handsOut?]
      · cases h
  | lease tenant =>
      cases h
      simp [Served.handsOut?]
  | ledger =>
      cases h
      simp [Served.handsOut?]

end Ledger

/-- The slots in use in the ledger stored under a key. -/
def Store.usedSlots (store : Store) (key : String) : Finset Nat :=
  match store.load key with
  | .ok (some ledger) => ledger.usedSlots
  | _ => ∅

theorem Store.usedSlots_of_load {store : Store} {key : String} {ledger : Ledger}
    (h : store.load key = .ok (some ledger)) : store.usedSlots key = ledger.usedSlots := by
  rw [usedSlots, h]

/-- In an empty store none are. -/
theorem Store.IsEmpty.usedSlots {store : Store} (h : store.IsEmpty) (key : String) :
    store.usedSlots key = ∅ := by
  cases store with
  | memory ledgers =>
      obtain rfl : ledgers = ∅ := h
      rfl
  | directory dir =>
      have hfiles : dir.files = ∅ := h
      simp only [Store.usedSlots, Store.load, Directory.load, hfiles,
        Std.ExtTreeMap.getElem?_empty]
      split <;> rename_i heq
      · split at heq <;> cases heq
      · rfl

namespace Settings

variable {S : Settings → Prop} {s : Settings} {r : Request} {b : Backend}

/-- What is loaded has the slots in use that the store has. -/
theorem usedSlots_of_load {store : FaultyStore} {loaded : Ledger}
    (h : (s.load store).1 = .ok loaded) : loaded.usedSlots = store.inner.usedSlots s.key := by
  rcases (load_eq_ok h).2 with hstored | ⟨hnone, rfl⟩
  · exact (Store.usedSlots_of_load hstored).symm
  · rw [Ledger.usedSlots_empty, Store.usedSlots, hnone]

/-- **A transaction brings the slot into use that it hands out, and no other.** -/
theorem mem_usedSlots_transact (hs : S s)
    (hkept : b.store.inner.Keeps fun l => l.Sound ∧ l.NamesFit) (hr : r.NamesFit) (k : Nat) :
    k ∈ (s.transact r b).2.store.inner.usedSlots s.key ↔
      k ∈ b.store.inner.usedSlots s.key ∨
        ∃ slot, Served.handsOut? ⟨r, (s.transact r b).1.result⟩ = some slot ∧ slot.toNat = k := by
  have hI := Ledger.sound_invariant S
  have hending := s.ending_transact r b
  generalize (s.transact r b).1 = outcome at hending ⊢
  generalize (s.transact r b).2.store.inner = inner at hending ⊢
  cases hending with
  | answered loaded answer free load serve =>
      have hserved := Ledger.mem_usedSlots_serve (hI.of_load hs hkept load).1 serve k
      rw [Option.getD_none, usedSlots_of_load load] at hserved
      exact hserved
  | committed loaded changed answer store free load serve save =>
      rw [Store.usedSlots_of_load (load_of_saved hI hs hkept hr load serve save),
        ← usedSlots_of_load load]
      exact Ledger.mem_usedSlots_serve (hI.of_load hs hkept load).1 serve k
  | locked | notLoaded | denied | notSaved =>
      simp [Outcome.result, Served.handsOut?_error]

end Settings

namespace Cluster

variable {n : Nat} {S : Settings → Prop} {key : String}

/-- The slots in use in the ledger stored under a key. -/
def usedSlots (c : Cluster n) (key : String) : Finset Nat := c.backend.store.inner.usedSlots key

/-- **Calls bring the slots into use that they hand out, and no others.** -/
theorem Makes.mem_usedSlots_iff {c c' : Cluster n} {log : List (Fin n × Served)}
    (hm : Makes c log c') (hkey : ∀ s, S s → s.key = key)
    (h : c.Upholds S fun l => l.Sound ∧ l.NamesFit) (k : Nat) :
    k ∈ c'.usedSlots key ↔
      k ∈ c.usedSlots key ∨ ∃ slot ∈ handedOut (log.map Prod.snd), slot.toNat = k := by
  induction hm with
  | call c i names =>
      have hs := h.settings i
      have htransact := Settings.mem_usedSlots_transact hs h.ledgers names k
      rw [hkey _ hs] at htransact
      simp only [List.map_cons, List.map_nil, mem_handedOut_singleton]
      exact htransact
  | quiet hq =>
      rw [usedSlots, hq.inner, usedSlots]
      simp [handedOut]
  | append first rest ih ih' =>
      rw [ih' (h.makes (Ledger.sound_invariant S) first), ih h, List.map_append, handedOut_append,
        or_assoc]
      simp only [List.mem_append, or_and_right, exists_or]

/-- The slots handed out by the calls of a step do not depend on the order of service. -/
theorem mem_handedOut_perform (c : Cluster n) {step : Step n} {log : List (Fin n × Served)}
    (h : (c.made step).Perm log) (slot : Slot) :
    slot ∈ handedOut (log.map Prod.snd) ↔ slot ∈ handedOut (c.calls step) := by
  rw [← map_snd_made]
  exact ((h.map Prod.snd).filterMap Served.handsOut?).mem_iff.symm

/-- **The slots in use are those that were ever handed out.** -/
theorem Recorded.mem_usedSlots_iff {c : Cluster n} {log : List Served} (h : Recorded key c log)
    (k : Nat) : k ∈ c.usedSlots key ↔ ∃ slot ∈ handedOut log, slot.toNat = k := by
  -- induction on how the cluster was reached
  induction h with
  | @new n store settings hempty hsettings =>
      rw [usedSlots, show (Cluster.new store settings).backend.store.inner = store from rfl,
        hempty.usedSlots]
      simp [handedOut]
  | reopen hc hsettings ih => exact ih
  | @perform n c log step hc hstep ih =>
      rw [handedOut_append]
      cases hrestart : step.isRestart with
      | true =>
          obtain rfl := Step.eq_restart hrestart
          rw [show handedOut (c.calls .restart) = [] from rfl, List.append_nil]
          exact ih
      | false =>
          obtain ⟨served, hmakes, hperm⟩ := makes_perform c ⟨hstep, hrestart⟩
          have hupholds := hc.reachable.upholds (Ledger.sound_invariant _)
          rw [hmakes.mem_usedSlots_iff (fun _ hs => hs) hupholds, ih]
          simp only [mem_handedOut_perform c hperm, List.mem_append, or_and_right, exists_or]

/-! ### Starts -/

/-- The slot with a number is held by some tenant. -/
def Holds (c : Cluster n) (key : String) (k : Nat) : Prop :=
  ∃ tenant lease, c.held key tenant = some lease ∧ lease.slot.toNat = k

/-- What a node loads has the slots in use, and held, that the store has. -/
theorem holds_iff_of_loaded {c : Cluster n} {i : Fin n} {ledger : Ledger}
    (hl : c.loaded i = .ok ledger) (k : Nat) :
    c.Holds (c.node i).settings.key k ↔ k ∈ ledger.heldSlots := by
  have hlease : ledger.lease? = c.held (c.node i).settings.key := Settings.lease?_of_load hl
  rw [Ledger.mem_heldSlots, Holds, ← hlease]
  simp only [Ledger.slot?_eq_some]
  constructor
  · rintro ⟨tenant, lease, hheld, rfl⟩
    exact ⟨tenant, lease.slot, ⟨lease, hheld, rfl⟩, rfl⟩
  · rintro ⟨tenant, slot, ⟨lease, hheld, rfl⟩, rfl⟩
    exact ⟨tenant, lease, hheld, rfl⟩

/-- A first start that is answered hands out a slot that can be taken from the loaded ledger. -/
theorem exists_takeSlot?_of_started {c : Cluster n} {i : Fin n} {tenant : String}
    (hnone : c.held (c.node i).settings.key tenant = none) {lease : Lease}
    (hstart : (c.call i (.start tenant)).1 = .ok lease) :
    ∃ ledger m, c.loaded i = .ok ledger ∧
      ledger.takeSlot? (c.node i).settings.slots = some (lease.slot, m) := by
  obtain ⟨ledger, -, hl, -⟩ := Settings.serve_of_result_eq_ok hstart
  obtain ⟨changed, hchanged⟩ := start_of_call hl hstart
  have hlease : ledger.lease? = c.held (c.node i).settings.key := Settings.lease?_of_load hl
  rcases Ledger.start_eq_ok hchanged with ⟨old, hold, -⟩ | ⟨slot, m, -, htake, rfl, -⟩
  · rw [hlease, hnone] at hold
    cases hold
  · exact ⟨ledger, m, hl, htake⟩

/-- **The slot that a first start takes.**  The nodes share one key and one range, which does not
end at the last number of all, and the log tells every call that was made.  A node that prefers
slots given back hands out the least slot from the first on that no tenant holds.  A node that
prefers fresh ones hands out the least slot of the range that was never handed out before; once all
were, it hands out the least slot of the range that no tenant holds. -/
theorem Recorded.isLeast_started {first last : Slot} (hle : first ≤ last)
    (hlast : last.toNat + 1 < UInt16.size) {c : Cluster n} {log : List Served}
    (h : Recorded key c log) (hspans : c.Reachable fun s => s.slots.Spans first last) {i : Fin n}
    {tenant : String} (hnone : c.held key tenant = none) {lease : Lease}
    (hstart : (c.call i (.start tenant)).1 = .ok lease) :
    ((c.node i).settings.slots.reuse = .lowestReleased →
      IsLeast {k | first.toNat ≤ k ∧ ¬ c.Holds key k} lease.slot.toNat) ∧
    ((c.node i).settings.slots.reuse = .whenExhausted →
      ((∃ k ∈ Finset.Icc first.toNat last.toNat, ¬ ∃ slot ∈ handedOut log, slot.toNat = k) →
        IsLeast {k | k ∈ Finset.Icc first.toNat last.toNat ∧
          ¬ ∃ slot ∈ handedOut log, slot.toNat = k} lease.slot.toNat) ∧
      ((∀ k ∈ Finset.Icc first.toNat last.toNat, ∃ slot ∈ handedOut log, slot.toNat = k) →
        IsLeast {k | k ∈ Finset.Icc first.toNat last.toNat ∧ ¬ c.Holds key k}
          lease.slot.toNat)) := by
  have hkey := h.key_eq i
  obtain ⟨ledger, m, hl, htake⟩ := exists_takeSlot?_of_started (hkey ▸ hnone) hstart
  have hI := Ledger.partitioned_invariant hle
  obtain ⟨⟨hsound, -⟩, hparts⟩ := hspans.of_loaded hI hl
  have hp := (hspans.upholds hI).settings i
  have hheld := holds_iff_of_loaded hl
  have hused : ledger.usedSlots = c.usedSlots (c.node i).settings.key :=
    Settings.usedSlots_of_load hl
  rw [hkey] at hheld hused
  simp only [hheld, ← h.mem_usedSlots_iff, ← hused]
  exact ⟨fun hreuse => hparts.isLeast_of_lowestReleased hsound hp hreuse htake,
    fun hreuse => hparts.isLeast_of_whenExhausted hsound hp hlast hreuse htake⟩

/-- Two slots are handed out, and the first one is given back. -/
def givingBack (i j : Fin 2) : List (Step 2) :=
  [.request i (.start "a"), .request j (.start "b"), .request i (.stop "a")]

/-- Two nodes with different preferences, and a range of three slots: one was given back, one is
held, and one was never used. -/
def partlyUsed (i j : Fin 2) : Cluster 2 := ((likeNodes 2 4).run (givingBack i j)).2

theorem reachable_partlyUsed : (partlyUsed 0 1).Reachable fun s => s.slots.Spans 2 4 :=
  (reachable_likeNodes 2 4).run (by decide)

theorem recorded_partlyUsed : Recorded Settings.standard.key (partlyUsed 0 1)
    ([] ++ (likeNodes 2 4).log (givingBack 0 1)) := by
  have hnew : Recorded Settings.standard.key (likeNodes 2 4) [] := by
    refine .new Store.isEmpty_inMemory fun i => ?_
    match i with
    | 0 => rfl
    | 1 => rfl
  exact hnew.run (by decide)

/-- The node that prefers fresh slots goes on to the last one, the other node goes back to the
first. -/
theorem isLeast_after_givingBack :
    IsLeast {k | k ∈ Finset.Icc 2 4 ∧
      ¬ ∃ slot ∈ handedOut ([] ++ (likeNodes 2 4).log (givingBack 0 1)), slot.toNat = k} 4 ∧
    IsLeast {k | 2 ≤ k ∧ ¬ (partlyUsed 0 1).Holds Settings.standard.key k} 2 := by
  have hnone : (partlyUsed 0 1).held Settings.standard.key "c" = none := by cbv
  have hlog : handedOut ([] ++ (likeNodes 2 4).log (givingBack 0 1)) = [2, 3] := by cbv
  have hfresh : ((partlyUsed 0 1).call 0 (.start "c")).1 = .ok ⟨1, 4⟩ := by cbv
  have hagain : ((partlyUsed 0 1).call 1 (.start "c")).1 = .ok ⟨1, 2⟩ := by cbv
  have hunused : ∃ k ∈ Finset.Icc 2 4,
      ¬ ∃ slot ∈ handedOut ([] ++ (likeNodes 2 4).log (givingBack 0 1)), slot.toNat = k := by
    rw [hlog]
    decide
  obtain ⟨-, hfirst⟩ := Recorded.isLeast_started (by decide) (by decide) recorded_partlyUsed
    reachable_partlyUsed hnone hfresh
  obtain ⟨hsecond, -⟩ := Recorded.isLeast_started (by decide) (by decide) recorded_partlyUsed
    reachable_partlyUsed hnone hagain
  exact ⟨(hfirst (by decide +kernel)).1 hunused, hsecond (by decide +kernel)⟩

end Cluster

end Tenancy
