/-
**Slots taken one after the other.**

What can be taken from a ledger depends on its pool alone: the next slot and the slots given back.
Nodes of one range may prefer the one source or the other, and turn to the other source when theirs
is dry.  Still it does not matter in which order they come.  While both sources flow, two nodes that
prefer different ones do not meet; and once one source is dry, both nodes draw from the other.

Main definitions:

* `Tenancy.Ledger.pool` — **a ledger as far as slots are taken from it**;
* `Tenancy.Ledger.takeAll` — the slots that a list of nodes takes, one after the other.

Main results:

* `Tenancy.Ledger.takeSlot?_pool` — only the pool matters to what is taken;
* `Tenancy.Ledger.takeAll_swap` — two nodes of one range may change places;
* `Tenancy.Ledger.takeAll_perm` — **in whatever order nodes of one range come, the same slots are
  taken and the same pool is left**.
-/

import Mathlib.Data.List.Perm.Basic
import Tenancy.Proofs.Ledger.Partition

set_option relaxedAutoImplicit false
set_option autoImplicit false

namespace Tenancy.Ledger

/-! ### The pool of a ledger -/

/-- **A ledger as far as slots are taken from it**: without leases, and as if never saved. -/
def pool (l : Ledger) : Ledger := { l with leases := ∅, version := 0 }

variable {l m : Ledger} {p q : SlotPolicy} {slot : Slot}

/-- Ledgers with one pool agree on the slots to come. -/
theorem eq_of_pool_eq (h : l.pool = m.pool) :
    l.nextSlot = m.nextSlot ∧ l.released = m.released := by
  have hnext : l.pool.nextSlot = m.pool.nextSlot := by rw [h]
  have hreleased : l.pool.released = m.pool.released := by rw [h]
  exact ⟨hnext, hreleased⟩

theorem takeFresh?_pool (l : Ledger) (p : SlotPolicy) :
    l.pool.takeFresh? p = (l.takeFresh? p).map fun taken => (taken.1, taken.2.pool) := by
  unfold takeFresh?
  dsimp only [pool]
  split <;> rfl

theorem takeReleased?_pool (l : Ledger) :
    l.pool.takeReleased? = l.takeReleased?.map fun taken => (taken.1, taken.2.pool) := by
  rw [takeReleased?, takeReleased?, Option.map_map]
  rfl

/-- **Only the pool matters to what is taken.** -/
theorem takeSlot?_pool (l : Ledger) (p : SlotPolicy) :
    l.pool.takeSlot? p = (l.takeSlot? p).map fun taken => (taken.1, taken.2.pool) := by
  unfold takeSlot?
  split <;> rw [takeFresh?_pool, takeReleased?_pool, Option.map_or]

/-! ### The two sources -/

/-- A fresh slot is looked for in the range of the node. -/
theorem takeFresh?_congr (hfirst : p.first = q.first) (hlast : p.last = q.last) :
    l.takeFresh? p = l.takeFresh? q := by
  rw [takeFresh?, takeFresh?, hfirst, hlast]

/-- A node that finds no fresh slot takes one that was given back, whatever it prefers. -/
theorem takeSlot?_of_fresh_dry (h : l.takeFresh? p = none) : l.takeSlot? p = l.takeReleased? := by
  unfold takeSlot?
  split
  · rw [h, Option.none_or]
  · rw [h, Option.or_none]

/-- A node that finds no slot given back takes a fresh one, whatever it prefers. -/
theorem takeSlot?_of_released_dry (h : l.takeReleased? = none) :
    l.takeSlot? p = l.takeFresh? p := by
  unfold takeSlot?
  split
  · rw [h, Option.or_none]
  · rw [h, Option.none_or]

/-- What was given back is not touched when a fresh slot is taken. -/
theorem takeReleased?_of_takeFresh? (h : l.takeFresh? p = some (slot, m)) :
    m.takeReleased? =
      l.takeReleased?.map fun taken => (taken.1, { taken.2 with nextSlot := slot + 1 }) := by
  obtain ⟨-, -, -, rfl⟩ := takeFresh?_eq_some h
  rw [takeReleased?, takeReleased?, Option.map_map]
  rfl

/-- The fresh slots are not touched when one is taken that was given back. -/
theorem takeFresh?_of_takeReleased? (h : l.takeReleased? = some (slot, m)) (p : SlotPolicy) :
    m.takeFresh? p = (l.takeFresh? p).map fun taken =>
      (taken.1, { taken.2 with released := l.released.erase slot }) := by
  obtain ⟨-, rfl⟩ := takeReleased?_eq_some h
  unfold takeFresh?
  dsimp only
  split <;> rfl

/-! ### Many slots -/

/-- The slots that nodes take, one after the other, and the ledger then.  A node that finds none
goes without. -/
def takeAll (l : Ledger) : List SlotPolicy → List Slot × Ledger
  | [] => ([], l)
  | p :: ps =>
      match l.takeSlot? p with
      | some (slot, m) => (slot :: (m.takeAll ps).1, (m.takeAll ps).2)
      | none => l.takeAll ps

theorem takeAll_cons_of_some (h : l.takeSlot? p = some (slot, m)) (ps : List SlotPolicy) :
    l.takeAll (p :: ps) = (slot :: (m.takeAll ps).1, (m.takeAll ps).2) := by
  rw [takeAll, h]

theorem takeAll_cons_of_none (h : l.takeSlot? p = none) (ps : List SlotPolicy) :
    l.takeAll (p :: ps) = l.takeAll ps := by
  rw [takeAll, h]

theorem takeAll_append (l : Ledger) (ps qs : List SlotPolicy) :
    l.takeAll (ps ++ qs) =
      ((l.takeAll ps).1 ++ ((l.takeAll ps).2.takeAll qs).1, ((l.takeAll ps).2.takeAll qs).2) := by
  induction ps generalizing l with
  | nil => rfl
  | cons p ps ih =>
      rw [List.cons_append]
      cases h : l.takeSlot? p with
      | none => rw [takeAll_cons_of_none h, takeAll_cons_of_none h, ih]
      | some taken => rw [takeAll_cons_of_some h, takeAll_cons_of_some h, ih, List.cons_append]

/-- Two nodes that take one slot, and agree on the next one, may change places. -/
theorem takeAll_swap_of_same (hp : l.takeSlot? p = some (slot, m))
    (hq : l.takeSlot? q = some (slot, m)) (hnext : m.takeSlot? q = m.takeSlot? p) :
    l.takeAll [p, q] = l.takeAll [q, p] := by
  have hlast : m.takeAll [q] = m.takeAll [p] := by
    rw [takeAll, takeAll, hnext]
    rfl
  rw [takeAll_cons_of_some hp, takeAll_cons_of_some hq, hlast]

/-- Two nodes of one range with different preferences may change places. -/
theorem takeAll_swap_of_ne (hfirst : p.first = q.first) (hlast : p.last = q.last)
    (hp : p.reuse = .whenExhausted) (hq : q.reuse = .lowestReleased) (l : Ledger) :
    (l.takeAll [p, q]).1.Perm (l.takeAll [q, p]).1 ∧
      (l.takeAll [p, q]).2 = (l.takeAll [q, p]).2 := by
  have hrange : ∀ m : Ledger, m.takeFresh? q = m.takeFresh? p := fun m =>
    (takeFresh?_congr hfirst hlast).symm
  have hpslot : ∀ m : Ledger, m.takeSlot? p = (m.takeFresh? p).or m.takeReleased? := fun m => by
    rw [takeSlot?, hp]
  have hqslot : ∀ m : Ledger, m.takeSlot? q = m.takeReleased?.or (m.takeFresh? p) := fun m => by
    rw [takeSlot?, hq, hrange]
  rcases hfresh : l.takeFresh? p with _ | ⟨a, afterFresh⟩ <;>
    rcases hreleased : l.takeReleased? with _ | ⟨b, afterReleased⟩
  · -- both sources are dry
    have hpnone : l.takeSlot? p = none := by rw [hpslot, hfresh, hreleased]; rfl
    have hqnone : l.takeSlot? q = none := by rw [hqslot, hfresh, hreleased]; rfl
    rw [takeAll_cons_of_none hpnone, takeAll_cons_of_none hqnone, takeAll_cons_of_none hqnone,
      takeAll_cons_of_none hpnone]
    exact ⟨.refl _, rfl⟩
  · -- no fresh slot is left: both nodes take slots that were given back
    have hdry : afterReleased.takeFresh? p = none := by
      rw [takeFresh?_of_takeReleased? hreleased, hfresh]
      rfl
    have hpsome : l.takeSlot? p = some (b, afterReleased) := by
      rw [hpslot, hfresh, hreleased]
      rfl
    have hqsome : l.takeSlot? q = some (b, afterReleased) := by
      rw [hqslot, hreleased]
      rfl
    have hnext : afterReleased.takeSlot? q = afterReleased.takeSlot? p := by
      rw [takeSlot?_of_fresh_dry hdry, takeSlot?_of_fresh_dry ((hrange _).trans hdry)]
    rw [takeAll_swap_of_same hpsome hqsome hnext]
    exact ⟨.refl _, rfl⟩
  · -- nothing was given back: both nodes take fresh slots
    have hdry : afterFresh.takeReleased? = none := by
      rw [takeReleased?_of_takeFresh? hfresh, hreleased]
      rfl
    have hpsome : l.takeSlot? p = some (a, afterFresh) := by
      rw [hpslot, hfresh]
      rfl
    have hqsome : l.takeSlot? q = some (a, afterFresh) := by
      rw [hqslot, hreleased, hfresh]
      rfl
    have hnext : afterFresh.takeSlot? q = afterFresh.takeSlot? p := by
      rw [takeSlot?_of_released_dry hdry, takeSlot?_of_released_dry hdry, hrange]
    rw [takeAll_swap_of_same hpsome hqsome hnext]
    exact ⟨.refl _, rfl⟩
  · -- each node takes from the source that it prefers
    obtain ⟨-, -, -, hafter⟩ := takeFresh?_eq_some hfresh
    obtain ⟨-, hafter'⟩ := takeReleased?_eq_some hreleased
    have hpsome : l.takeSlot? p = some (a, afterFresh) := by
      rw [hpslot, hfresh]
      rfl
    have hqsome : l.takeSlot? q = some (b, afterReleased) := by
      rw [hqslot, hreleased]
      rfl
    have hqnext : afterFresh.takeSlot? q =
        some (b, { afterReleased with nextSlot := a + 1 }) := by
      rw [hqslot, takeReleased?_of_takeFresh? hfresh, hreleased]
      rfl
    have hpnext : afterReleased.takeSlot? p =
        some (a, { afterFresh with released := l.released.erase b }) := by
      rw [hpslot, takeFresh?_of_takeReleased? hreleased, hfresh]
      rfl
    rw [takeAll_cons_of_some hpsome, takeAll_cons_of_some hqsome, takeAll_cons_of_some hqnext,
      takeAll_cons_of_some hpnext, hafter, hafter']
    exact ⟨.swap .., rfl⟩

/-- **Two nodes of one range may change places.** -/
theorem takeAll_swap (hfirst : p.first = q.first) (hlast : p.last = q.last) (l : Ledger) :
    (l.takeAll [p, q]).1.Perm (l.takeAll [q, p]).1 ∧
      (l.takeAll [p, q]).2 = (l.takeAll [q, p]).2 := by
  cases hp : p.reuse with
  | whenExhausted =>
      cases hq : q.reuse with
      | whenExhausted =>
          obtain rfl : p = q := by
            cases p
            cases q
            simp_all
          exact ⟨.refl _, rfl⟩
      | lowestReleased => exact takeAll_swap_of_ne hfirst hlast hp hq l
  | lowestReleased =>
      cases hq : q.reuse with
      | whenExhausted =>
          obtain ⟨hslots, hleft⟩ := takeAll_swap_of_ne hfirst.symm hlast.symm hq hp l
          exact ⟨hslots.symm, hleft.symm⟩
      | lowestReleased =>
          obtain rfl : p = q := by
            cases p
            cases q
            simp_all
          exact ⟨.refl _, rfl⟩

/-- **In whatever order nodes of one range come, the same slots are taken and the same ledger is
left.** -/
theorem takeAll_perm {first last : Slot} {ps qs : List SlotPolicy} (h : ps.Perm qs)
    (hps : ∀ p ∈ ps, p.Spans first last) (l : Ledger) :
    (l.takeAll ps).1.Perm (l.takeAll qs).1 ∧ (l.takeAll ps).2 = (l.takeAll qs).2 := by
  -- induction on how the one order is made from the other, over the ledger with which they begin
  induction h generalizing l with
  | nil => exact ⟨.refl _, rfl⟩
  | cons p h ih =>
      have hrest := ih fun q hq => hps q (List.mem_cons_of_mem _ hq)
      cases htake : l.takeSlot? p with
      | none =>
          rw [takeAll_cons_of_none htake, takeAll_cons_of_none htake]
          exact hrest l
      | some taken =>
          rw [takeAll_cons_of_some htake, takeAll_cons_of_some htake]
          exact ⟨(hrest taken.2).1.cons _, (hrest taken.2).2⟩
  | swap p q rest =>
      have hq := hps q List.mem_cons_self
      have hp := hps p (List.mem_cons_of_mem _ List.mem_cons_self)
      obtain ⟨hslots, hleft⟩ :=
        takeAll_swap (p := q) (q := p) (hq.1.trans hp.1.symm) (hq.2.trans hp.2.symm) l
      have happend := takeAll_append l [q, p] rest
      have happend' := takeAll_append l [p, q] rest
      rw [List.cons_append, List.singleton_append] at happend happend'
      rw [happend, happend', hleft]
      exact ⟨hslots.append_right _, rfl⟩
  | trans h h' ih ih' =>
      have hmiddle := fun p hp => hps p (h.mem_iff.2 hp)
      exact ⟨(ih hps l).1.trans (ih' hmiddle l).1, (ih hps l).2.trans (ih' hmiddle l).2⟩

end Tenancy.Ledger
