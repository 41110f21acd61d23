/-
**How the start of a cache ends.**

To start a cache a node takes a reference, describes the cache, and gives the reference back if it
cannot be described.  So there are four ends: no reference is taken, the cache is described, the
reference is given back, or it cannot be given back and is counted as leaked.  A reference that is
taken and given back leaves every tenant what it held, whether or not its slot was new; one that is
taken and kept is one reference more for its tenant, and nothing else.

Main definitions:

* `Tenancy.Node.CacheStart` — **the four ends**, each with the answer, the calls that were made and
  the number of leaked references.

Main results:

* `Tenancy.Node.startCache_ends` — **the start of a cache has one of them**;
* `Tenancy.Cluster.Effects.eq_of_givenBack` — **a reference taken and given back changes nothing**;
* `Tenancy.Request.Effect.of_taken` — a reference taken is one more for its tenant.
-/

import Tenancy.Proofs.Cluster.History

set_option relaxedAutoImplicit false
set_option autoImplicit false

namespace Tenancy

open Cluster (Served Effects slotOf slotOf_of_some)

/-! ### What a node counts as leaked -/

/-- Counting a transaction counts no leak. -/
@[simp] theorem Counters.leakedReferences_note (c : Counters) (r : Request)
    (outcome : Outcome r.Answer) : (c.note r outcome).leakedReferences = c.leakedReferences := by
  have hanswer : ∀ answer : r.Answer,
      (c.noteAnswer r answer).leakedReferences = c.leakedReferences := by
    intro answer
    cases r with
    | stop tenant => cases answer <;> rfl
    | start | get | lease | ledger => rfl
  have hfailure : ∀ failure, (c.noteFailure r failure).leakedReferences = c.leakedReferences := by
    intro failure
    rw [noteFailure]
    split <;> rfl
  cases outcome with
  | answered answer => exact hanswer answer
  | committed answer ledger => exact hanswer answer
  | refused failure => exact hfailure failure
  | rolledBack failure => exact hfailure failure

namespace Node

@[simp] theorem leakedReferences_call (n : Node) (r : Request) (b : Backend) :
    (n.call r b).2.1.counters.leakedReferences = n.counters.leakedReferences :=
  Counters.leakedReferences_note ..

theorem leakedReferences_muxId (n : Node) (resolver : Resolver) (tenant : String)
    (kind : Cache.Kind) (b : Backend) :
    (n.muxId resolver tenant kind b).2.1.counters.leakedReferences =
      n.counters.leakedReferences := by
  have hcall := leakedReferences_call n (.get tenant) b
  simp only [muxId]
  split <;> rename_i heq <;> rw [heq] at hcall <;> exact hcall

/-! ### The four ends -/

/-- **How the start of a cache of `tenant` ends**: with which answer, after which calls, and with
how many references leaked. -/
inductive CacheStart (tenant : String) :
    Except Failure Cache.Description → List Served → Nat → Prop where
  /-- No reference is taken. -/
  | refused (failure : Failure) :
      CacheStart tenant (.error failure) [⟨.start tenant, .error failure⟩] 0
  /-- The cache is described. -/
  | described (lease : Lease) (description : Cache.Description) :
      CacheStart tenant (.ok description) [⟨.start tenant, .ok lease⟩] 0
  /-- The cache cannot be described, and the reference is given back. -/
  | givenBack (lease : Lease) (failure : Failure) (release : Release) :
      CacheStart tenant (.error failure)
        [⟨.start tenant, .ok lease⟩, ⟨.stop tenant, .ok release⟩] 0
  /-- The cache cannot be described, nor can the reference be given back. -/
  | leaked (lease : Lease) (failure refusal : Failure) :
      CacheStart tenant (.error failure)
        [⟨.start tenant, .ok lease⟩, ⟨.stop tenant, .error refusal⟩] 1

/-- Giving a reference back counts a leak exactly if the stop fails. -/
theorem leakedReferences_giveBack (n : Node) (tenant : String) (b : Backend) :
    (n.giveBack tenant b).1.counters.leakedReferences = n.counters.leakedReferences +
      match (n.call (.stop tenant) b).1 with
      | .ok _ => 0
      | .error _ => 1 := by
  have hcall := leakedReferences_call n (.stop tenant) b
  simp only [giveBack]
  generalize n.call (.stop tenant) b = called at hcall ⊢
  obtain ⟨answer, m, b'⟩ := called
  cases answer with
  | ok release => exact hcall
  | error refusal => exact congrArg (· + 1) hcall

/-- **The start of a cache has one of the four ends**, and the node has counted its leak. -/
theorem startCache_ends (n : Node) (resolver : Resolver) (tenant : String) (kind : Cache.Kind)
    (b : Backend) :
    ∃ leaks, CacheStart tenant (n.startCache resolver tenant kind b).1
        (n.startCacheCalls resolver tenant kind b) leaks ∧
      (n.startCache resolver tenant kind b).2.1.counters.leakedReferences =
        n.counters.leakedReferences + leaks := by
  have hcall := leakedReferences_call n (.start tenant) b
  simp only [startCache, startCacheCalls]
  generalize n.call (.start tenant) b = called at hcall ⊢
  obtain ⟨answer, m, b'⟩ := called
  cases answer with
  | error failure => exact ⟨0, .refused failure, hcall⟩
  | ok lease =>
      dsimp only at hcall ⊢
      cases Cache.describe resolver.table resolver.source m.settings.indexedCaches tenant kind
        lease.slot with
      | ok description => exact ⟨0, .described lease description, hcall⟩
      | error failure =>
          have hleaks := leakedReferences_giveBack m tenant b'
          dsimp only
          rw [hleaks, hcall]
          cases (m.call (.stop tenant) b').1 with
          | ok release => exact ⟨0, .givenBack lease failure release, rfl⟩
          | error refusal => exact ⟨1, .leaked lease failure refusal, rfl⟩

end Node

/-! ### References taken and given back -/

section Effects

variable {held held' : String → Option Lease} {tenant : String} {lease : Lease}

theorem Request.Effect.eq_of_error {r : Request} {failure : Failure}
    (h : r.Effect held (.error failure) held') : held' = held := by
  cases h <;> rfl

/-- **A reference taken is one more for its tenant**, in the slot that it holds, and nothing
else. -/
theorem Request.Effect.of_taken (h : Request.Effect held (.start tenant) (.ok lease) held') :
    references held' tenant = references held tenant + 1 ∧
      (∀ slot, slotOf held tenant = some slot → slotOf held' tenant = some slot) ∧
      ∀ other, other ≠ tenant → held' other = held other := by
  refine ⟨?_, fun slot hs => ?_, fun other hne => ?_⟩
  · cases h with
    | allocated _ slot absent =>
        rw [references_update_some, references_of_none absent]
        rfl
    | retained _ old present room =>
        rw [references_update_some, references_of_some present, Ledger.toNat_add_one room]
  · exact Cluster.slotOf_effect h hs rfl
  · exact h.eq_of_ne fun he => hne (Option.some.inj he).symm

/-- **A reference that is taken and given back leaves every tenant what it held**, and the stop says
that it dropped it. -/
theorem Cluster.Effects.eq_of_givenBack {release : Release} (hc : Counted held)
    (h : Effects held [⟨.start tenant, .ok lease⟩, ⟨.stop tenant, .ok release⟩] held') :
    held' = held ∧ Served.drops tenant ⟨.stop tenant, .ok release⟩ = true := by
  obtain ⟨⟩ | ⟨taken, ⟨⟩ | ⟨dropped, ⟨⟩⟩⟩ := h
  cases taken with
  | allocated _ slot absent =>
      -- the reference was the tenant's first, so the stop drops the last
      have hmid : Function.update held tenant (some ⟨1, slot⟩) tenant = some ⟨1, slot⟩ :=
        Function.update_self ..
      cases dropped with
      | returned _ old present others =>
          rw [hmid] at present
          cases present
          exact absurd others (show ¬ (1 : UInt32) < 1 by decide)
      | released _ old present last =>
          rw [Function.update_idem, ← absent, Function.update_eq_self]
          exact ⟨rfl, decide_eq_true rfl⟩
      | notHeld _ none =>
          rw [hmid] at none
          cases none
  | retained _ old present room =>
      have hmid : Function.update held tenant
          (some { old with references := old.references + 1 }) tenant =
            some { old with references := old.references + 1 } := Function.update_self ..
      cases dropped with
      | returned _ mid kept others =>
          rw [hmid] at kept
          cases kept
          refine ⟨?_, decide_eq_true rfl⟩
          rw [Function.update_idem, UInt32.add_sub_cancel, ← present]
          exact Function.update_eq_self ..
      | released _ mid kept last =>
          -- there was a reference before the one that was taken
          rw [hmid] at kept
          cases kept
          have hbefore := hc tenant old present
          have hmany : 1 < old.references + 1 := by
            rw [UInt32.lt_iff_toNat_lt, Ledger.toNat_add_one room]
            exact Nat.succ_lt_succ hbefore
          exact absurd hmany last
      | notHeld _ none =>
          rw [hmid] at none
          cases none

/-- **A start of a cache that fails leaves everything as it was, or it leaks one reference.** -/
theorem Node.CacheStart.leaves {failure : Failure} {calls : List Served} {leaks : Nat}
    (h : CacheStart tenant (.error failure) calls leaks) (he : Effects held calls held')
    (hc : Counted held) :
    leaks = 0 ∧ held' = held ∨
      leaks = 1 ∧ references held' tenant = references held tenant + 1 ∧
        (∀ slot, slotOf held tenant = some slot → slotOf held' tenant = some slot) ∧
        ∀ other, other ≠ tenant → held' other = held other := by
  cases h with
  | refused =>
      obtain ⟨⟩ | ⟨refused, ⟨⟩⟩ := he
      exact .inl ⟨rfl, refused.eq_of_error⟩
  | givenBack lease failure release => exact .inl ⟨rfl, (he.eq_of_givenBack hc).1⟩
  | leaked lease failure refusal =>
      obtain ⟨⟩ | ⟨taken, ⟨⟩ | ⟨refused, ⟨⟩⟩⟩ := he
      rw [refused.eq_of_error]
      exact .inr ⟨rfl, taken.of_taken⟩

end Effects

end Tenancy
