/-
**The order of first starts does not matter.**

Tenants that hold no slot are started, each at a node of its own choice, and nothing stands in the
way.  All nodes have one range, but some prefer fresh slots and some prefer slots given back.  In
whatever order the starts come, as many are answered, the same slots are handed out, and the ledgers
that are left differ in their leases at most: who gets which slot depends on the order, and which
slots are gone does not.

What is left is told by the pool of the ledger with which the starts begin, from which the nodes
take slots one after the other; and there the order does not matter.

Main definitions:

* `Tenancy.Cluster.FirstStarts` — **starts of different tenants that hold no slot**, with nothing in
  their way;
* `Tenancy.Cluster.Step.starts` — the steps that make them;
* `Tenancy.Ledger.withoutLeases` — a ledger but for its leases;
* `Tenancy.Cluster.TakenFrom` — what is left of a ledger from which slots were taken.

Main results:

* `Tenancy.Cluster.FirstStarts.takenFrom` — **starts take slots from the pool, one after the
  other**;
* `Tenancy.Cluster.Reachable.starts_perm` — **the order of first starts does not matter**.
-/

import Tenancy.Proofs.Cluster.HandedOut
import Tenancy.Proofs.Cluster.References
import Tenancy.Proofs.Ledger.Pool
import Tenancy.Proofs.Node.Undisturbed

set_option relaxedAutoImplicit false
set_option autoImplicit false

namespace Tenancy

open Ledger (Invariant)

/-! ### Ledgers but for their leases -/

/-- **A ledger but for its leases**: the next slot, the slots given back and the version. -/
def Ledger.withoutLeases (l : Ledger) : Ledger := { l with leases := ∅ }

theorem Ledger.withoutLeases_eq {l m : Ledger} (hpool : l.pool = m.pool)
    (hversion : l.version = m.version) : l.withoutLeases = m.withoutLeases := by
  obtain ⟨hnext, hreleased⟩ := eq_of_pool_eq hpool
  rw [withoutLeases, withoutLeases, hnext, hreleased, hversion]

/-- The first start of a tenant takes a slot, if there is one. -/
theorem Ledger.start_of_absent {l : Ledger} {p : SlotPolicy} {tenant : String}
    (h : l.lease? tenant = none) :
    l.start p tenant =
      match l.takeSlot? p with
      | some (slot, m) => .ok (⟨1, slot⟩, m.put tenant ⟨1, slot⟩)
      | none => .error (.slotsExhausted p.last) := by
  cases hslot : l.takeSlot? p <;> simp only [start, h, hslot]

namespace Cluster

variable {n : Nat} {key : String}

/-- As many starts are answered as slots are handed out. -/
theorem length_handedOut (log : List Served) :
    (handedOut log).length = log.countP Served.takes := by
  induction log with
  | nil => rfl
  | cons e log ih =>
      have hone : (handedOut [e]).length = if e.takes then 1 else 0 := by
        obtain ⟨r, answer⟩ := e
        cases r with
        | start tenant => cases answer <;> rfl
        | get | stop | lease | ledger => rfl
      rw [← List.singleton_append, handedOut_append, List.length_append, hone, ih,
        List.singleton_append, List.countP_cons, Nat.add_comm]

/-! ### First starts -/

/-- The steps that start tenants, each at its node. -/
def Step.starts (starts : List (Fin n × String)) : List (Step n) :=
  starts.map fun start => .request start.1 (.start start.2)

/-- **Starts of different tenants that hold no slot, with nothing in their way**, each at a node of
the key. -/
structure FirstStarts (c : Cluster n) (key : String) (starts : List (Fin n × String)) : Prop where
  undisturbed : c.backend.Undisturbed key
  keys : ∀ start ∈ starts, (c.node start.1).settings.key = key
  names : ∀ start ∈ starts, Octets.TextFits start.2
  absent : ∀ start ∈ starts, c.held key start.2 = none
  different : (starts.map Prod.snd).Nodup

/-- **What is left of a ledger from which slots were taken**, one start after the other. -/
structure TakenFrom (first : Slot) (stored : Option Ledger) (taken : List Slot × Ledger)
    (stored' : Option Ledger) : Prop where
  /-- A ledger is stored if there was one or a slot was taken. -/
  isSome : stored'.isSome = (stored.isSome || !taken.1.isEmpty)
  pool : (stored'.getD (.empty first)).pool = taken.2
  /-- Each start that takes a slot is saved. -/
  version : (stored'.getD (.empty first)).version =
    (stored.getD (.empty first)).version + UInt64.ofNat taken.1.length

/-- By the slots that were taken and the pool that is left, all is told but the leases. -/
theorem TakenFrom.withoutLeases_eq {first : Slot} {stored after after' : Option Ledger}
    {taken taken' : List Slot × Ledger} (h : TakenFrom first stored taken after)
    (h' : TakenFrom first stored taken' after') (hlength : taken.1.length = taken'.1.length)
    (hpool : taken.2 = taken'.2) :
    after.map Ledger.withoutLeases = after'.map Ledger.withoutLeases := by
  have hempty : taken.1.isEmpty = taken'.1.isEmpty := by
    rw [Bool.eq_iff_iff, List.isEmpty_iff_length_eq_zero, hlength, List.isEmpty_iff_length_eq_zero]
  have hsome : after.isSome = after'.isSome := by rw [h.isSome, h'.isSome, hempty]
  have hleft := Ledger.withoutLeases_eq (h.pool.trans (hpool.trans h'.pool.symm))
    (h.version.trans (hlength ▸ h'.version.symm))
  cases after with
  | none =>
      obtain rfl : after' = none := by simpa using hsome.symm
      rfl
  | some ledger =>
      obtain ⟨ledger', rfl⟩ := Option.isSome_iff_exists.1 hsome.symm
      exact congrArg some hleft

namespace FirstStarts

variable {c : Cluster n} {starts : List (Fin n × String)}

theorem perm (h : c.FirstStarts key starts) {starts' : List (Fin n × String)}
    (hperm : starts.Perm starts') : c.FirstStarts key starts' where
  undisturbed := h.undisturbed
  keys start hs := h.keys start (hperm.mem_iff.2 hs)
  names start hs := h.names start (hperm.mem_iff.2 hs)
  absent start hs := h.absent start (hperm.mem_iff.2 hs)
  different := (hperm.map Prod.snd).nodup_iff.1 h.different

section Step

variable {i : Fin n} {tenant : String} {stored : Option Ledger}

/-- The tenant of the first start holds nothing in the ledger that is loaded. -/
theorem lease?_first (h : c.FirstStarts key ((i, tenant) :: starts))
    (hl : c.stored key = .ok stored) (first : Slot) :
    (stored.getD (.empty first)).lease? tenant = none := by
  have habsent : c.held key tenant = none := h.absent _ List.mem_cons_self
  rw [held_eq_match, hl] at habsent
  cases stored with
  | none => exact Ledger.lease?_empty first tenant
  | some ledger => exact habsent

/-- After the first start the others are still to come, if their tenants hold what they held. -/
theorem rest (h : c.FirstStarts key ((i, tenant) :: starts))
    (hundisturbed : (c.call i (.start tenant)).2.backend.Undisturbed key)
    (hheld : ∀ other, tenant ≠ other →
      (c.call i (.start tenant)).2.held key other = c.held key other) :
    (c.call i (.start tenant)).2.FirstStarts key starts := by
  have hdifferent := List.nodup_cons.1 h.different
  refine ⟨hundisturbed, fun start hs => ?_, fun start hs => ?_, fun start hs => ?_, hdifferent.2⟩
  · rw [settings_call]
    exact h.keys start (List.mem_cons_of_mem _ hs)
  · exact h.names start (List.mem_cons_of_mem _ hs)
  · rw [hheld start.2 fun he => hdifferent.1 (List.mem_map.2 ⟨start, hs, he.symm⟩)]
    exact h.absent start (List.mem_cons_of_mem _ hs)

/-- A start that finds no slot leaves the ledger as it was. -/
theorem step_of_none (h : c.FirstStarts key ((i, tenant) :: starts))
    (hl : c.stored key = .ok stored)
    (hdry : (stored.getD (.empty (c.node i).settings.slots.first)).takeSlot?
      (c.node i).settings.slots = none) :
    Served.handsOut? ⟨.start tenant, (c.call i (.start tenant)).1⟩ = none ∧
      (c.call i (.start tenant)).2.stored key = .ok stored ∧
      (c.call i (.start tenant)).2.FirstStarts key starts := by
  have hkey : (c.node i).settings.key = key := h.keys _ List.mem_cons_self
  have hserve : (stored.getD (.empty (c.node i).settings.slots.first)).serve
      (c.node i).settings.slots (.start tenant) =
        .error (.slotsExhausted (c.node i).settings.slots.last) := by
    rw [Ledger.serve, Ledger.start_of_absent (h.lease?_first hl _), hdry]
    rfl
  have htransact := Settings.transact_of_denied (hkey ▸ h.undisturbed) (hkey ▸ hl) hserve
  have hanswer : (c.call i (.start tenant)).1 =
      .error (.slotsExhausted (c.node i).settings.slots.last) :=
    congrArg (fun ended => ended.1.result) htransact
  have hbackend : (c.call i (.start tenant)).2.backend = c.backend := congrArg Prod.snd htransact
  refine ⟨by rw [hanswer]; rfl, by rw [Cluster.stored, hbackend]; exact hl, ?_⟩
  refine h.rest (hbackend ▸ h.undisturbed) fun other _ => ?_
  rw [held, hbackend, held]

/-- A start that finds a slot takes it out of the pool, and that is saved. -/
theorem step_of_some (h : c.FirstStarts key ((i, tenant) :: starts))
    {first last : Slot} (hupholds : c.Upholds (fun s => s.slots.Spans first last)
      fun l => l.Sound ∧ l.NamesFit)
    (hl : c.stored key = .ok stored) {slot : Slot} {m : Ledger}
    (htake : (stored.getD (.empty (c.node i).settings.slots.first)).takeSlot?
      (c.node i).settings.slots = some (slot, m)) :
    Served.handsOut? ⟨.start tenant, (c.call i (.start tenant)).1⟩ = some slot ∧
      (∃ saved, (c.call i (.start tenant)).2.stored key = .ok (some saved) ∧
        saved.pool = m.pool ∧
        saved.version = (stored.getD (.empty (c.node i).settings.slots.first)).version + 1) ∧
      (c.call i (.start tenant)).2.FirstStarts key starts := by
  have hkey : (c.node i).settings.key = key := h.keys _ List.mem_cons_self
  have hI := Ledger.sound_invariant fun s => s.slots.Spans first last
  have hstart := Ledger.start_of_absent (p := (c.node i).settings.slots)
    (h.lease?_first hl (c.node i).settings.slots.first)
  rw [htake] at hstart
  have hserve : (stored.getD (.empty (c.node i).settings.slots.first)).serve
      (c.node i).settings.slots (.start tenant) =
        .ok (⟨1, slot⟩, some (m.put tenant ⟨1, slot⟩)) := by
    rw [Ledger.serve, hstart]
    rfl
  -- the saved ledger has a form, because soundness is an invariant
  have hload := Settings.load_of_reliable h.undisturbed.reliable
    (s := (c.node i).settings) (hkey ▸ hl)
  have hloaded := hI.of_load (hupholds.settings i) hupholds.ledgers (congrArg Prod.fst hload)
  have hfits := hI.fits _ (hI.change (hupholds.settings i) (h.names _ List.mem_cons_self) hloaded
    (Ledger.change_of_start hstart))
  obtain ⟨hanswer, hundisturbed, hstored⟩ := Settings.transact_of_changed
    (hkey ▸ h.undisturbed) (hkey ▸ hl) hserve rfl hfits
  rw [hkey] at hundisturbed hstored
  have hanswer' : (c.call i (.start tenant)).1 = .ok ⟨1, slot⟩ := hanswer
  refine ⟨by rw [hanswer']; rfl, ⟨_, hstored, rfl, rfl⟩, h.rest hundisturbed fun other hne => ?_⟩
  have hafter : (c.call i (.start tenant)).2.held key = _ := Store.held_of_load hstored
  have hbefore := Settings.lease?_of_load (congrArg Prod.fst hload)
  rw [hkey] at hbefore
  rw [hafter, Ledger.lease?_advance, Ledger.lease?_start_of_ne hstart hne, hbefore, held]

end Step

/-- **Starts take slots from the pool, one after the other.** -/
theorem takenFrom {first last : Slot} (h : c.FirstStarts key starts)
    (hupholds : c.Upholds (fun s => s.slots.Spans first last) fun l => l.Sound ∧ l.NamesFit)
    {stored : Option Ledger} (hl : c.stored key = .ok stored) :
    handedOut (c.log (Step.starts starts)) = ((stored.getD (.empty first)).pool.takeAll
        (starts.map fun start => (c.node start.1).settings.slots)).1 ∧
      ∃ stored', (c.run (Step.starts starts)).2.stored key = .ok stored' ∧
        TakenFrom first stored ((stored.getD (.empty first)).pool.takeAll
          (starts.map fun start => (c.node start.1).settings.slots)) stored' := by
  -- induction on the starts, over the cluster that those before have left
  induction starts generalizing c stored with
  | nil =>
      refine ⟨rfl, stored, hl, ?_, rfl, (UInt64.add_zero _).symm⟩
      simp [Ledger.takeAll]
  | cons start starts ih =>
      obtain ⟨i, tenant⟩ := start
      have hI := Ledger.sound_invariant fun s => s.slots.Spans first last
      have hnames : Request.NamesFit (.start tenant) :=
        Request.namesFit_of_tenant rfl (h.names _ List.mem_cons_self)
      have hupholds' := hupholds.call hI i hnames
      have hfirst := (hupholds.settings i).1
      have hpool := Ledger.takeSlot?_pool (stored.getD (.empty first)) (c.node i).settings.slots
      have hlog : c.log (Step.starts ((i, tenant) :: starts)) =
          [⟨.start tenant, (c.call i (.start tenant)).1⟩] ++
            (c.call i (.start tenant)).2.log (Step.starts starts) := rfl
      rw [hlog, handedOut_append, List.map_cons]
      cases htake : (stored.getD (.empty first)).takeSlot? (c.node i).settings.slots with
      | none =>
          rw [htake] at hpool
          obtain ⟨hnone, hstored, hrest⟩ := h.step_of_none hl (hfirst ▸ htake)
          obtain ⟨hslots, hleft⟩ := ih hrest hupholds' hstored
          simp only [settings_call] at hslots hleft
          rw [Ledger.takeAll_cons_of_none hpool, hslots]
          refine ⟨?_, hleft⟩
          simp [handedOut, hnone]
      | some taken =>
          obtain ⟨slot, m⟩ := taken
          rw [htake] at hpool
          obtain ⟨hsome, ⟨saved, hstored, hleft, hversion⟩, hrest⟩ :=
            h.step_of_some hupholds hl (hfirst ▸ htake)
          obtain ⟨hslots, stored', hstored', htaken⟩ := ih hrest hupholds' hstored
          rw [hfirst] at hversion
          simp only [settings_call, Option.getD_some, hleft] at hslots htaken
          rw [Ledger.takeAll_cons_of_some hpool, hslots]
          refine ⟨?_, stored', hstored', ?_, htaken.pool, ?_⟩
          · simp [handedOut, hsome]
          · rw [htaken.isSome]
            simp
          · rw [htaken.version, Option.getD_some, hversion, List.length_cons, UInt64.add_assoc,
              Nat.add_comm, UInt64.ofNat_add]
            rfl

end FirstStarts

/-! ### Two orders -/

/-- **What two runs of starts have in common**, by the logs and the clusters at their ends. -/
structure StartedAlike (key : String) (log log' : List Served) (c c' : Cluster n) : Prop where
  /-- As many starts were answered. -/
  count : log.countP Served.takes = log'.countP Served.takes
  /-- The same slots were handed out. -/
  slots : (handedOut log).Perm (handedOut log')
  /-- The ledgers that are stored agree in all but the leases. -/
  stored : ∃ ledger ledger', c.stored key = .ok ledger ∧ c'.stored key = .ok ledger' ∧
    ledger.map Ledger.withoutLeases = ledger'.map Ledger.withoutLeases

/-- **The order of first starts does not matter.**  The nodes of a reachable cluster have one range,
whatever slots they prefer, and tenants that hold no slot are started, with nothing in the way.  In
another order as many starts are answered, the same slots are handed out, and the ledgers that are
stored in the end agree in the next slot, the slots given back and the version. -/
theorem Reachable.starts_perm {first last : Slot} {c : Cluster n}
    (h : c.Reachable fun s => s.slots.Spans first last) {starts starts' : List (Fin n × String)}
    (hstarts : c.FirstStarts key starts) (hperm : starts.Perm starts') :
    StartedAlike key (c.log (Step.starts starts)) (c.log (Step.starts starts'))
      (c.run (Step.starts starts)).2 (c.run (Step.starts starts')).2 := by
  have hupholds := h.upholds (Ledger.sound_invariant _)
  obtain ⟨stored, hl⟩ := hstarts.undisturbed.readable
  obtain ⟨hslots, ledger, hledger, htaken⟩ := hstarts.takenFrom hupholds hl
  obtain ⟨hslots', ledger', hledger', htaken'⟩ := (hstarts.perm hperm).takenFrom hupholds hl
  have hspans : ∀ p ∈ starts.map fun start => (c.node start.1).settings.slots,
      p.Spans first last := by
    intro p hp
    obtain ⟨start, -, rfl⟩ := List.mem_map.1 hp
    exact hupholds.settings start.1
  obtain ⟨htakes, hleft⟩ := Ledger.takeAll_perm
    (hperm.map fun start => (c.node start.1).settings.slots) hspans
    (stored.getD (.empty first)).pool
  have hout : (handedOut (c.log (Step.starts starts))).Perm
      (handedOut (c.log (Step.starts starts'))) := by
    rw [hslots, hslots']
    exact htakes
  refine ⟨?_, hout, ledger, ledger', hledger, hledger', ?_⟩
  · rw [← length_handedOut, ← length_handedOut]
    exact hout.length_eq
  · exact htaken.withoutLeases_eq htaken' htakes.length_eq hleft

/-- Starts of three tenants.  Where one slot was given back and one was never used, there are slots
for two of them. -/
def latecomers (i j : Fin 2) : List (Fin 2 × String) := [(i, "c"), (j, "d"), (i, "e")]

theorem firstStarts_latecomers :
    (partlyUsed 0 1).FirstStarts Settings.standard.key (latecomers 0 1) where
  undisturbed := ⟨by decide +kernel, ⟨by cbv, by cbv⟩,
    some ⟨4, .ofList [("b", Lease.mk 1 3)], (∅ : Std.ExtTreeSet UInt16).insert 2, 3⟩, by cbv⟩
  keys := by decide +kernel
  names := by decide
  absent := by
    simp only [latecomers, List.forall_mem_cons]
    exact ⟨by cbv, by cbv, by cbv, by simp⟩
  different := by decide

/-- One of the three finds no slot, in either order. -/
theorem startedAlike_latecomers :
    ((partlyUsed 0 1).log (Step.starts (latecomers 0 1))).countP Served.takes = 2 ∧
      StartedAlike Settings.standard.key
        ((partlyUsed 0 1).log (Step.starts (latecomers 0 1)))
        ((partlyUsed 0 1).log (Step.starts (latecomers 0 1).reverse))
        ((partlyUsed 0 1).run (Step.starts (latecomers 0 1))).2
        ((partlyUsed 0 1).run (Step.starts (latecomers 0 1).reverse)).2 :=
  ⟨by cbv, reachable_partlyUsed.starts_perm firstStarts_latecomers
    (latecomers 0 1).reverse_perm.symm⟩

end Cluster

end Tenancy
